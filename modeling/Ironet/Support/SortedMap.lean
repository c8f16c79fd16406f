import Mathlib.Tactic

/-!
# Maps with ordered keys

A map that yields its entries in the order of their keys. The order is part of the type, so two
maps with the same lookups are the same map, and the first entry is the one with the least key.
-/
namespace Support

structure SortedMap (K V : Type) [LinearOrder K] where
  entries : List (K × V)
  sorted : entries.Pairwise fun first second => first.1 < second.1

namespace SortedMap

variable {K V : Type} [LinearOrder K]

instance [DecidableEq V] : DecidableEq (SortedMap K V) := fun first second =>
  decidable_of_iff (first.entries = second.entries) (by cases first; cases second; simp)

def empty : SortedMap K V := ⟨[], .nil⟩

instance : EmptyCollection (SortedMap K V) := ⟨empty⟩

instance : Inhabited (SortedMap K V) := ⟨empty⟩

variable (k : K) (m : SortedMap K V)

def lookup : Option V :=
  (m.entries.find? fun entry => entry.1 = k).map Prod.snd

def size : Nat := m.entries.length

def values : List V := m.entries.map Prod.snd

/-- Keep the entries that pass the test. -/
def retain (test : K → V → Bool) (m : SortedMap K V) : SortedMap K V :=
  ⟨m.entries.filter fun entry => test entry.1 entry.2, m.sorted.filter _⟩

def erase : SortedMap K V := m.retain fun key _ => key ≠ k

theorem insert_sorted (v : V) (m : SortedMap K V) : (m.entries.filter (fun entry => entry.1 < k) ++
      (k, v) :: m.entries.filter fun entry => k < entry.1).Pairwise
        fun first second => first.1 < second.1 := by
  rw [List.pairwise_append, List.pairwise_cons]
  refine ⟨m.sorted.filter _, ⟨?_, m.sorted.filter _⟩, ?_⟩
  · intro entry member
    simpa using (List.mem_filter.mp member).2
  intro below isBelow entry member
  have less : below.1 < k := by simpa using (List.mem_filter.mp isBelow).2
  rcases List.mem_cons.mp member with rfl | above
  · exact less
  · have more : k < entry.1 := by simpa using (List.mem_filter.mp above).2
    exact less.trans more

def insert (v : V) (m : SortedMap K V) : SortedMap K V :=
  ⟨_, insert_sorted k v m⟩

/-! ### Entries and lookups -/

variable {m : SortedMap K V}

theorem mem_iff {k : K} {v : V} : (k, v) ∈ m.entries ↔ m.lookup k = some v := by
  obtain ⟨entries, sorted⟩ := m
  simp only [lookup]
  induction entries with
  | nil => simp
  | cons entry rest ih =>
  obtain ⟨key, value⟩ := entry
  obtain ⟨least, later⟩ := List.pairwise_cons.mp sorted
  by_cases same : key = k
  · -- later entries have larger keys
    subst same
    have absent : (key, v) ∉ rest := fun member => lt_irrefl key (least _ member)
    simp [absent, eq_comm]
  · have other : (k, v) ≠ (key, value) := fun equal => same (Prod.mk.inj equal).1.symm
    simp [same, other, ih later]

theorem mem_values {v : V} : v ∈ m.values ↔ ∃ k, m.lookup k = some v := by
  simp [values, ← mem_iff]

theorem lookup_eq_of_mem {k : K} {found : Option V}
    (members : ∀ v, (k, v) ∈ m.entries ↔ found = some v) : m.lookup k = found := by
  apply Option.ext
  intro v
  rw [← mem_iff, members]

@[simp] theorem lookup_insert (v : V) (m : SortedMap K V) : (m.insert k v).lookup k = some v := by
  apply lookup_eq_of_mem
  intro value
  simp [insert, eq_comm]

theorem lookup_insert_ne {k other : K} (v : V) (m : SortedMap K V) (different : other ≠ k) :
    (m.insert k v).lookup other = m.lookup other := by
  apply lookup_eq_of_mem
  intro value
  rw [← mem_iff]
  rcases lt_or_gt_of_ne different with less | more
  · simp [insert, less, less.not_gt, different]
  · simp [insert, more, more.not_gt, different]

theorem lookup_retain (test : K → V → Bool) (k : K) (m : SortedMap K V) :
    (m.retain test).lookup k = (m.lookup k).filter (test k) := by
  apply lookup_eq_of_mem
  intro value
  simp [retain, mem_iff, Option.filter_eq_some_iff]

@[simp] theorem lookup_erase : (m.erase k).lookup k = none := by
  rw [erase, lookup_retain]
  cases m.lookup k <;> simp [Option.filter]

theorem lookup_erase_ne {k other : K} (m : SortedMap K V) (different : other ≠ k) :
    (m.erase k).lookup other = m.lookup other := by
  rw [erase, lookup_retain]
  cases m.lookup other <;> simp [Option.filter, different]

/-- Maps with the same lookups are equal: there is one way to list entries in order. -/
theorem ext_lookup {other : SortedMap K V} (same : ∀ k, m.lookup k = other.lookup k) :
    m = other := by
  have members : ∀ entry, entry ∈ m.entries ↔ entry ∈ other.entries := by
    rintro ⟨k, v⟩
    rw [mem_iff, mem_iff, same]
  have distinct : ∀ map : SortedMap K V, map.entries.Nodup := by
    intro map
    apply map.sorted.imp
    rintro first second less rfl
    exact lt_irrefl _ less
  have perm : m.entries.Perm other.entries :=
    (List.perm_ext_iff_of_nodup (distinct m) (distinct other)).mpr members
  have entries : m.entries = other.entries :=
    perm.eq_of_pairwise (fun _ _ _ _ less more => (less.asymm more).elim) m.sorted other.sorted
  obtain ⟨_, _⟩ := m
  obtain ⟨_, _⟩ := other
  simpa using entries

theorem values_retain (test : V → Bool) (m : SortedMap K V) :
    (m.retain fun _ => test).values = m.values.filter test := by
  simp [values, retain, List.filter_map, Function.comp_def]

theorem retain_eq_self {test : K → V → Bool}
    (size : m.size ≤ (m.retain test).size) : m.retain test = m := by
  have entries : (m.retain test).entries = m.entries := by
    apply List.filter_sublist.eq_of_length_le
    exact size
  obtain ⟨_, _⟩ := m
  simpa [retain] using entries

end SortedMap
end Support
