import Mathlib.Data.List.AList
import Mathlib.Tactic

/-!
# Keyed maps

A hash map is an association list with distinct keys. The order of the entries is an artefact of
the representation, so the lemmas below speak about `lookup` and about sums over all values.
-/
namespace Support

abbrev HashMap (K V : Type) := AList fun _ : K => V

namespace HashMap

variable {K V : Type}

def size (m : HashMap K V) : Nat := m.entries.length

/-- The sum of `f` over all values of the map. -/
def weight (f : V → Nat) (m : HashMap K V) : Nat := (m.entries.map fun entry => f entry.2).sum

variable (f : V → Nat)

@[simp] theorem weight_empty : weight f (∅ : HashMap K V) = 0 := rfl
@[simp] theorem size_empty : size (∅ : HashMap K V) = 0 := rfl

theorem size_eq_weight (m : HashMap K V) : size m = weight (fun _ => 1) m := by
  simp [size, weight]

/-- Keep the entries the predicate accepts. -/
def retain (keep : K → V → Bool) (m : HashMap K V) : HashMap K V where
  entries := m.entries.filter fun entry => keep entry.1 entry.2
  nodupKeys := m.nodupKeys.sublist List.filter_sublist

/-- Replace every value. -/
def mapValues (f : K → V → V) (m : HashMap K V) : HashMap K V where
  entries := m.entries.map fun entry => ⟨entry.1, f entry.1 entry.2⟩
  nodupKeys := m.nodupKeys.map₂ f _

theorem weight_retain (drop : K → V → Bool) (m : HashMap K V) :
    weight f (m.retain drop) + weight f (m.retain fun k v => !drop k v) = weight f m := by
  simp only [weight, retain]
  induction m.entries with
  | nil => rfl
  | cons entry rest ih =>
    cases dropped : drop entry.1 entry.2 <;>
      simp only [dropped, List.filter_cons, List.map_cons, List.sum_cons, Bool.not_true,
        Bool.not_false, Bool.false_eq_true, if_true, if_false] <;> omega

theorem size_retain_le (keep : K → V → Bool) (m : HashMap K V) : size (m.retain keep) ≤ size m :=
  List.length_filter_le _ _

theorem weight_mapValues (g : V → Nat) (f : K → V → V) (m : HashMap K V)
    (same : ∀ k v, g (f k v) = g v) : weight g (m.mapValues f) = weight g m := by
  simp [weight, mapValues, Function.comp_def, same]

theorem size_mapValues (f : K → V → V) (m : HashMap K V) : size (m.mapValues f) = size m := by
  simp [size, mapValues]

variable [DecidableEq K]

/-! ### Lookup -/

theorem mem_iff_lookup (k : K) (m : HashMap K V) : k ∈ m ↔ ∃ v, m.lookup k = some v := by
  rw [← AList.lookup_isSome, Option.isSome_iff_exists]

variable {m : HashMap K V} {k : K} {v : V}

theorem mem_of_lookup (found : m.lookup k = some v) : k ∈ m :=
  (mem_iff_lookup k m).mpr ⟨v, found⟩

theorem lookup_insert_eq_some {key : K} {value : V} : (m.insert key value).lookup k = some v ↔
      (k = key ∧ v = value) ∨ (k ≠ key ∧ m.lookup k = some v) := by
  by_cases same : k = key
  · subst same
    simp [AList.lookup_insert, eq_comm]
  · simp [AList.lookup_insert_ne same, same]

theorem lookup_erase_eq_some {key : K} :
    (m.erase key).lookup k = some v ↔ k ≠ key ∧ m.lookup k = some v := by
  by_cases same : k = key
  · subst same
    simp
  · simp [AList.lookup_erase_ne same, same]

theorem lookup_eq_some_iff : m.lookup k = some v ↔ ⟨k, v⟩ ∈ m.entries := by
  rw [← AList.mem_lookup_iff]
  rfl

theorem lookup_retain_eq_some {keep : K → V → Bool} :
    (m.retain keep).lookup k = some v ↔ m.lookup k = some v ∧ keep k v = true := by
  rw [lookup_eq_some_iff, lookup_eq_some_iff]
  simp only [retain, List.mem_filter]

variable {n : HashMap K V}

theorem lookup_of_absent (kept : ∀ v, n.lookup k = some v → m.lookup k = some v)
    (absent : m.lookup k = none) : n.lookup k = none :=
  Option.eq_none_iff_forall_ne_some.mpr fun v found =>
    Option.some_ne_none v ((kept v found).symm.trans absent)

theorem lookup_erase_of_absent (key : K) (absent : m.lookup k = none) :
    (m.erase key).lookup k = none :=
  lookup_of_absent (fun _ found => (lookup_erase_eq_some.mp found).2) absent

theorem lookup_retain_of_absent (keep : K → V → Bool) (absent : m.lookup k = none) :
    (m.retain keep).lookup k = none :=
  lookup_of_absent (fun _ found => (lookup_retain_eq_some.mp found).1) absent

/-! ### Sums over the values -/

private theorem sum_of_dlookup (f : V → Nat) (entries : List (Sigma fun _ : K => V))
    (found : entries.dlookup k = some v) : (entries.map fun entry => f entry.2).sum =
      f v + ((entries.kerase k).map fun entry => f entry.2).sum := by
  induction entries with
  | nil => simp at found
  | cons entry rest ih =>
  obtain ⟨key, value⟩ := entry
  by_cases same : k = key
  · subst same
    obtain rfl : value = v := by simpa using found
    simp [List.kerase_cons_eq]
  have later : rest.dlookup k = some v := (List.dlookup_cons_ne rest _ same).symm.trans found
  have kept : (⟨key, value⟩ :: rest : List (Sigma fun _ : K => V)).kerase k =
      ⟨key, value⟩ :: rest.kerase k := List.kerase_cons_ne same
  simp only [kept, List.map_cons, List.sum_cons, ih later]
  omega

theorem entries_erase (k : K) (m : HashMap K V) : (m.erase k).entries = m.entries.kerase k := rfl

theorem weight_of_lookup (found : m.lookup k = some v) : weight f m = f v + weight f (m.erase k) :=
  sum_of_dlookup f m.entries found

theorem weight_erase_of_absent (absent : m.lookup k = none) :
    weight f (m.erase k) = weight f m := by
  have unchanged : m.entries.kerase k = m.entries :=
    List.kerase_of_notMem_keys (AList.lookup_eq_none.mp absent)
  simp only [weight, entries_erase, unchanged]

theorem weight_insert (k : K) (v : V) (m : HashMap K V) :
    weight f (m.insert k v) = f v + weight f (m.erase k) := by
  simp [weight, entries_erase, AList.entries_insert]

theorem weight_insert_of_absent (v : V) (absent : m.lookup k = none) :
    weight f (m.insert k v) = f v + weight f m := by
  rw [weight_insert, weight_erase_of_absent f absent]

theorem size_of_lookup (found : m.lookup k = some v) : size m = size (m.erase k) + 1 := by
  rw [size_eq_weight, size_eq_weight, weight_of_lookup _ found, Nat.add_comm]

theorem size_insert_of_absent (v : V) (absent : m.lookup k = none) :
    size (m.insert k v) = size m + 1 := by
  rw [size_eq_weight, size_eq_weight, weight_insert_of_absent _ v absent, Nat.add_comm]

theorem size_insert_of_lookup {old : V} (v : V)
    (found : m.lookup k = some old) : size (m.insert k v) = size m := by
  rw [size_eq_weight, size_eq_weight, weight_insert, weight_of_lookup _ found]

theorem weight_eq_zero_of_empty (empty : ∀ k, m.lookup k = none) : weight f m = 0 := by
  have none : m.entries = [] := by
    refine List.eq_nil_iff_forall_not_mem.mpr ?_
    rintro ⟨k, v⟩ member
    rw [← lookup_eq_some_iff, empty k] at member
    cases member
  simp [weight, none]

/-- A map whose keys belong to the items of a list weighs at most what the items allow. -/
theorem weight_le_sum {ι : Type} (g : ι → Nat) (key : ι → K) (items : List ι) (m : HashMap K V)
    (covered : ∀ k v, m.lookup k = some v → k ∈ items.map key)
    (bounded : ∀ item ∈ items, ∀ v, m.lookup (key item) = some v → f v ≤ g item) :
    weight f m ≤ (items.map g).sum := by
  induction items generalizing m with
  | nil =>
    rw [weight_eq_zero_of_empty]
    · exact Nat.zero_le _
    · intro k
      refine Option.eq_none_iff_forall_not_mem.mpr fun v found => ?_
      cases covered k v found
  | cons item rest ih =>
  have others : weight f (m.erase (key item)) ≤ (rest.map g).sum := by
    refine ih _ (fun k v found => ?_) (fun other member v found => ?_)
    · obtain ⟨different, found⟩ := lookup_erase_eq_some.mp found
      rcases List.mem_cons.mp (covered k v found) with same | later
      · exact absurd same different
      · exact later
    · exact bounded other (List.mem_cons_of_mem _ member) v (lookup_erase_eq_some.mp found).2
  rw [List.map_cons, List.sum_cons]
  cases found : m.lookup (key item) with
  | none =>
    rw [weight_erase_of_absent f found] at others
    omega
  | some v =>
    have own := bounded item List.mem_cons_self v found
    rw [weight_of_lookup f found]
    omega

theorem lookup_mapValues (f : K → V → V) (k : K) (m : HashMap K V) :
    (m.mapValues f).lookup k = (m.lookup k).map (f k) :=
  List.dlookup_map₂ k

/-- Maps whose answers agree up to a function have the same values up to it. -/
theorem map_values_perm {W : Type} (f : V → W)
    (same : ∀ k, (m.lookup k).map f = (n.lookup k).map f) :
    (m.entries.map fun entry => f entry.2).Perm (n.entries.map fun entry => f entry.2) := by
  have keyed := List.lookup_ext (m.nodupKeys.map₂ (fun _ => f) _) (n.nodupKeys.map₂ (fun _ => f) _)
    fun k w => by
      rw [List.dlookup_map₂, List.dlookup_map₂]
      exact iff_of_eq (congrArg (w ∈ ·) (same k))
  have values := keyed.map Sigma.snd
  rwa [List.map_map, List.map_map] at values

/-! ### Queues that list the keys of a map -/

/-- The queue names every key of the map exactly once and nothing else. -/
structure Lists (queue : List K) (m : HashMap K V) : Prop where
  nodup : queue.Nodup
  keys : ∀ k, k ∈ queue ↔ k ∈ m

namespace Lists

variable {queue rest : List K} {m : HashMap K V} {k : K}

omit [DecidableEq K] in
theorem nil : Lists [] (∅ : HashMap K V) :=
  ⟨List.nodup_nil, fun k => by simp⟩

variable (lists : Lists queue m)
include lists

theorem insert_fresh (absent : m.lookup k = none) (v : V) :
    Lists (queue ++ [k]) (m.insert k v) where
  nodup := by
    have fresh : k ∉ queue := by
      rw [lists.keys]
      exact AList.lookup_eq_none.mp absent
    rw [← List.concat_eq_append]
    exact lists.nodup.concat fresh
  keys := by
    intro key
    rw [List.mem_append, List.mem_singleton, lists.keys, AList.mem_insert, or_comm]

theorem insert_held {old : V} (found : m.lookup k = some old) (v : V) (rotated : rest.Perm queue) :
    Lists rest (m.insert k v) where
  nodup := rotated.nodup_iff.mpr lists.nodup
  keys := by
    intro key
    rw [rotated.mem_iff, lists.keys, AList.mem_insert]
    constructor
    · exact Or.inr
    · rintro (rfl | member)
      · exact mem_of_lookup found
      · exact member

theorem erase (removed : (k :: rest).Perm queue) :
    Lists rest (m.erase k) where
  nodup := (List.nodup_cons.mp (removed.nodup_iff.mpr lists.nodup)).2
  keys := by
    intro key
    have distinct := (List.nodup_cons.mp (removed.nodup_iff.mpr lists.nodup)).1
    have keys : key = k ∨ key ∈ rest ↔ key ∈ m := by
      rw [← lists.keys, ← removed.mem_iff, List.mem_cons]
    rw [AList.mem_erase]
    constructor
    · intro member
      refine ⟨?_, keys.mp (.inr member)⟩
      rintro rfl
      exact distinct member
    · rintro ⟨other, member⟩
      exact (keys.mpr member).resolve_left other

theorem lookup_isSome (listed : k ∈ queue) : ∃ v, m.lookup k = some v :=
  (mem_iff_lookup k m).mp ((lists.keys k).mp listed)

omit [DecidableEq K] in
theorem length_eq : queue.length = size m := by
  have permuted : queue.Perm m.keys := by
    rw [List.perm_ext_iff_of_nodup lists.nodup m.keys_nodup]
    intro key
    rw [lists.keys, AList.mem_keys]
  rw [permuted.length_eq]
  simp [size, AList.keys, List.keys]

end Lists

/-! ### Dropping the oldest keys -/

/-- Drop the keys at the front of the queue while the map has more than `maximum` entries. -/
def dropOldest (maximum : Nat) : List K → HashMap K V → List K × HashMap K V
  | [], m => ([], m)
  | k :: rest, m =>
    if maximum < m.size then dropOldest maximum rest (m.erase k) else (k :: rest, m)

/-- What keys dropped from the front leave of a queue and its map. -/
structure Trimmed (before : HashMap K V) (after : List K × HashMap K V) : Prop where
  listed : Lists after.1 after.2
  absent : ∀ k, before.lookup k = none → after.2.lookup k = none
  size : after.2.size ≤ before.size

variable {queue rest : List K} {m : HashMap K V} {k : K}

theorem Lists.trimmed (listed : Lists queue m) : Trimmed m (queue, m) :=
  ⟨listed, fun _ => id, le_rfl⟩

theorem Trimmed.pop {after : List K × HashMap K V} (listed : Lists (k :: rest) m)
    (trimmed : Trimmed (m.erase k) after) : Trimmed m after where
  listed := trimmed.listed
  absent other gone := trimmed.absent other (lookup_erase_of_absent k gone)
  size := by
    obtain ⟨value, found⟩ := listed.lookup_isSome List.mem_cons_self
    have sizes := size_of_lookup found
    have smaller := trimmed.size
    omega

theorem dropOldest_trimmed (maximum : Nat) (listed : Lists queue m) :
    Trimmed m (dropOldest maximum queue m) ∧ (dropOldest maximum queue m).2.size ≤ maximum := by
  induction queue generalizing m with
  | nil =>
    have empty := listed.length_eq
    exact ⟨listed.trimmed, by simp [dropOldest, ← empty]⟩
  | cons k rest ih =>
  unfold dropOldest
  split_ifs with many
  · obtain ⟨trimmed, small⟩ := ih (listed.erase (List.Perm.refl _))
    exact ⟨.pop listed trimmed, small⟩
  · exact ⟨listed.trimmed, Nat.le_of_not_lt many⟩

end HashMap

/-- The order in which a hash table yields its entries: some permutation of them. -/
structure IterationOrder (α : Type) where
  arrange : List α → List α
  perm : ∀ entries, (arrange entries).Perm entries

end Support
