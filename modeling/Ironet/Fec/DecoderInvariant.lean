import Mathlib.Data.List.TakeWhile
import Ironet.Cell.RoundTrip
import Ironet.Fec.Decoder

/-!
# The state invariant of the stripe decoder

The byte counter is exact and bounded, live and completed stripes are disjoint and bounded, and
the order queue names live stripes only and every live stripe with its current generation. The
last point is what makes the eviction loops end: `reserve` rotates the protected stripe to the
back of the queue and would spin if no other live stripe were queued.
-/
namespace Ironet.Fec
open Support Cell CellStripeDecoder List HashMap

/-- The part of the invariant that does not mention the byte budget. -/
structure DecoderCore (decoder : CellStripeDecoder) : Prop where
  positive : 0 < decoder.maximumStripes
  bytes : decoder.bufferedBytes = decoder.stripes.weight DecodeStripe.bufferedBytes
  stripesLimit : decoder.stripes.size ≤ decoder.maximumStripes
  completedLimit : decoder.completed.size ≤ decoder.maximumStripes
  disjoint : ∀ key stripe, decoder.stripes.lookup key = some stripe →
    decoder.completed.lookup key = none
  completedListed : HashMap.Lists decoder.completedOrder decoder.completed
  orderLive : ∀ entry ∈ decoder.order, ∃ stripe, decoder.stripes.lookup entry.1 = some stripe
  orderCurrent : ∀ key stripe, decoder.stripes.lookup key = some stripe →
    (key, stripe.updated) ∈ decoder.order

structure DecoderInvariant (decoder : CellStripeDecoder) : Prop extends DecoderCore decoder where
  budget : decoder.bufferedBytes ≤ decoder.maximumBufferedBytes

/-- What eviction may do: stripes disappear, nothing else changes. -/
structure Evicted (before after : CellStripeDecoder) : Prop where
  stripes : ∀ key stripe, after.stripes.lookup key = some stripe →
    before.stripes.lookup key = some stripe
  completed : after.completed = before.completed
  bytes : after.bufferedBytes ≤ before.bufferedBytes
  maximumStripes : after.maximumStripes = before.maximumStripes
  maximumBufferedBytes : after.maximumBufferedBytes = before.maximumBufferedBytes
  sessionEpoch : after.sessionEpoch = before.sessionEpoch
  ttl : after.ttl = before.ttl

theorem Evicted.reordered (decoder : CellStripeDecoder) (order : List (StripeKey × Instant)) :
    Evicted decoder { decoder with order } :=
  ⟨fun _ _ found => found, rfl, Nat.le_refl _, rfl, rfl, rfl, rfl⟩

theorem Evicted.refl (decoder : CellStripeDecoder) : Evicted decoder decoder :=
  .reordered decoder decoder.order

theorem Evicted.trans {first second third : CellStripeDecoder} (before : Evicted first second)
    (after : Evicted second third) : Evicted first third where
  stripes key stripe found := before.stripes key stripe (after.stripes key stripe found)
  completed := after.completed.trans before.completed
  bytes := after.bytes.trans before.bytes
  maximumStripes := after.maximumStripes.trans before.maximumStripes
  maximumBufferedBytes := after.maximumBufferedBytes.trans before.maximumBufferedBytes
  sessionEpoch := after.sessionEpoch.trans before.sessionEpoch
  ttl := after.ttl.trans before.ttl

variable {before after : CellStripeDecoder}

theorem Evicted.budget (evicted : Evicted before after)
    (within : before.bufferedBytes ≤ before.maximumBufferedBytes) :
    after.bufferedBytes ≤ after.maximumBufferedBytes := by
  rw [evicted.maximumBufferedBytes]
  exact evicted.bytes.trans within

/-! ### Edits of one stripe -/

/-- Beside eviction, at most the stripe of one key changed, and in an allowed way. -/
def Edited (before after : CellStripeDecoder) (key : StripeKey) (allowed : DecodeStripe → Prop) :
    Prop :=
  ∀ other stripe, after.stripes.lookup other = some stripe →
    before.stripes.lookup other = some stripe ∨ (other = key ∧ allowed stripe)

theorem Edited.refl (decoder : CellStripeDecoder) (key : StripeKey)
    (allowed : DecodeStripe → Prop) : Edited decoder decoder key allowed :=
  fun _ _ found => .inl found

theorem Evicted.edited (evicted : Evicted before after)
    (key : StripeKey) (allowed : DecodeStripe → Prop) : Edited before after key allowed :=
  fun other stripe found => .inl (evicted.stripes other stripe found)

theorem Edited.imp {key : StripeKey} {allowed weaker : DecodeStripe → Prop}
    (edited : Edited before after key allowed) (weaken : ∀ stripe, allowed stripe → weaker stripe) :
    Edited before after key weaker :=
  fun other stripe found =>
    (edited other stripe found).imp_right fun ⟨same, fine⟩ => ⟨same, weaken stripe fine⟩

theorem Edited.of_insert {key : StripeKey} {new : DecodeStripe} {middle : CellStripeDecoder}
    {allowed : DecodeStripe → Prop}
    (evicted : Evicted before middle) (inserted : after.stripes = middle.stripes.insert key new)
    (fine : allowed new) : Edited before after key allowed := by
  intro other stripe found
  rw [inserted] at found
  rcases lookup_insert_eq_some.mp found with ⟨rfl, rfl⟩ | ⟨-, earlier⟩
  · exact .inr ⟨rfl, fine⟩
  · exact .inl (evicted.stripes other stripe earlier)

/-- A property of the geometry and the data Cells of every live stripe. -/
def Every (property : Option ParityPayload → HashMap UInt16 Bytes → Prop)
    (decoder : CellStripeDecoder) : Prop :=
  ∀ key stripe, decoder.stripes.lookup key = some stripe → property stripe.geometry stripe.originals

variable {property : Option ParityPayload → HashMap UInt16 Bytes → Prop}

theorem Evicted.every (evicted : Evicted before after) (every : Every property before) :
    Every property after :=
  fun key stripe found => every key stripe (evicted.stripes key stripe found)

theorem Edited.every {key : StripeKey} {allowed : DecodeStripe → Prop}
    (edited : Edited before after key allowed) (every : Every property before)
    (fine : ∀ stripe, allowed stripe → property stripe.geometry stripe.originals) :
    Every property after := by
  intro other stripe found
  rcases edited other stripe found with earlier | ⟨-, change⟩
  · exact every other stripe earlier
  · exact fine stripe change

variable {stripe old : DecodeStripe}

section Edits

variable {decoder : CellStripeDecoder} {key : StripeKey} {generation : Instant}
  {rest : List (StripeKey × Instant)}

/-- The loops pop an entry of the stripe they remove; removal drops it from the queue anyway. -/
theorem removeStripe_popped (front : decoder.order = (key, generation) :: rest) :
    { decoder with order := rest }.removeStripe key = decoder.removeStripe key := by
  simp [removeStripe, front]

section
variable (core : DecoderCore decoder)
include core

theorem removeStripe_core (key : StripeKey) :
    DecoderCore (decoder.removeStripe key) ∧ Evicted decoder (decoder.removeStripe key) := by
  have kept : ∀ other stripe, (decoder.stripes.erase key).lookup other = some stripe →
      decoder.stripes.lookup other = some stripe :=
    fun other stripe found => (lookup_erase_eq_some.mp found).2
  have total := core.bytes
  have limit := core.stripesLimit
  refine ⟨{ core with
    bytes := ?_, stripesLimit := ?_, disjoint := ?_, orderLive := ?_, orderCurrent := ?_ },
    ⟨kept, rfl, Nat.sub_le _ _, rfl, rfl, rfl, rfl⟩⟩
  · cases found : decoder.stripes.lookup key with
    | none =>
      have same := weight_erase_of_absent DecodeStripe.bufferedBytes found
      simp only [removeStripe, found, Option.elim_none]
      omega
    | some stripe =>
      have split := weight_of_lookup DecodeStripe.bufferedBytes found
      simp only [removeStripe, found, Option.elim_some]
      omega
  · have smaller : size (decoder.stripes.erase key) ≤ decoder.stripes.size := by
      cases found : decoder.stripes.lookup key with
      | none =>
        rw [size_eq_weight, size_eq_weight, weight_erase_of_absent _ found]
      | some stripe =>
        have sizes := size_of_lookup found
        omega
    exact smaller.trans limit
  · exact fun other stripe found => core.disjoint other stripe (kept other stripe found)
  · intro entry member
    obtain ⟨queued, different⟩ := mem_filter.mp member
    obtain ⟨stripe, found⟩ := core.orderLive entry queued
    exact ⟨stripe, lookup_erase_eq_some.mpr ⟨by simpa using different, found⟩⟩
  · intro other stripe found
    obtain ⟨different, found⟩ := lookup_erase_eq_some.mp found
    exact mem_filter.mpr ⟨core.orderCurrent other stripe found, by simpa using different⟩

section
variable (front : decoder.order = (key, generation) :: rest)
include front

theorem removeStripe_size : (decoder.removeStripe key).stripes.size + 1 = decoder.stripes.size := by
  obtain ⟨stripe, found⟩ := core.orderLive (key, generation) (front ▸ mem_cons_self)
  exact (size_of_lookup found).symm

omit core in
theorem removeStripe_order : (decoder.removeStripe key).order.length ≤ rest.length := by
  simp only [removeStripe, front, filter_cons, bne_self_eq_false, Bool.false_eq_true, if_false]
  exact length_filter_le _ rest

theorem popObsolete_core
    (obsolete : ∀ stripe, decoder.stripes.lookup key = some stripe → stripe.updated ≠ generation) :
    DecoderCore { decoder with order := rest } := by
  refine { core with orderLive := ?_, orderCurrent := ?_ }
  · exact fun entry member => core.orderLive entry (front ▸ mem_cons_of_mem _ member)
  intro other stripe found
  have queued := core.orderCurrent other stripe found
  rw [front] at queued
  rcases mem_cons.mp queued with same | later
  · obtain ⟨rfl, current⟩ := Prod.mk.inj same
    exact absurd current (obsolete stripe found)
  · exact later

theorem rotate_core (found : decoder.stripes.lookup key = some stripe) :
    DecoderCore { decoder with order := rest ++ [(key, stripe.updated)] } := by
  refine { core with orderLive := ?_, orderCurrent := ?_ }
  · intro entry member
    rcases mem_append.mp member with old | new
    · exact core.orderLive entry (front ▸ mem_cons_of_mem _ old)
    · obtain rfl := mem_singleton.mp new
      exact ⟨stripe, found⟩
  intro other live lookedUp
  have queued := core.orderCurrent other live lookedUp
  rw [front] at queued
  rcases mem_cons.mp queued with same | later
  · obtain ⟨rfl, -⟩ := Prod.mk.inj same
    obtain rfl : stripe = live := Option.some.inj (found.symm.trans lookedUp)
    exact mem_append_right _ (mem_singleton.mpr rfl)
  · exact mem_append_left _ later

end

variable {new : DecodeStripe} {queued : List (StripeKey × Instant)}

theorem putStripe_core {bufferedBytes : Nat}
    (bytes : bufferedBytes = weight DecodeStripe.bufferedBytes (decoder.stripes.insert key new))
    (limit : size (decoder.stripes.insert key new) ≤ decoder.maximumStripes)
    (absent : decoder.completed.lookup key = none) (own : ∀ entry ∈ queued, entry.1 = key)
    (current : (key, new.updated) ∈ decoder.order ++ queued) :
    DecoderCore { decoder with
      stripes := decoder.stripes.insert key new
      order := decoder.order ++ queued
      bufferedBytes } := by
  refine { core with
    bytes, stripesLimit := limit, disjoint := ?_, orderLive := ?_, orderCurrent := ?_ }
  · intro other stripe lookedUp
    rcases lookup_insert_eq_some.mp lookedUp with ⟨rfl, rfl⟩ | ⟨-, before⟩
    · exact absent
    · exact core.disjoint other stripe before
  · intro entry member
    by_cases same : entry.1 = key
    · exact ⟨new, by rw [same]; exact AList.lookup_insert _⟩
    · rcases mem_append.mp member with before | again
      · obtain ⟨stripe, live⟩ := core.orderLive entry before
        exact ⟨stripe, by rw [AList.lookup_insert_ne same]; exact live⟩
      · exact absurd (own entry again) same
  intro other stripe lookedUp
  rcases lookup_insert_eq_some.mp lookedUp with ⟨rfl, rfl⟩ | ⟨-, before⟩
  · exact current
  · exact mem_append_left _ (core.orderCurrent other stripe before)

variable {added : Nat} (found : decoder.stripes.lookup key = some old)
include found

theorem replaceStripe_core (own : ∀ entry ∈ queued, entry.1 = key)
    (current : (key, new.updated) ∈ decoder.order ++ queued)
    (grown : new.bufferedBytes = old.bufferedBytes + added) :
    DecoderCore { decoder with
      stripes := decoder.stripes.insert key new
      order := decoder.order ++ queued
      bufferedBytes := decoder.bufferedBytes + added } := by
  refine putStripe_core core ?_ ?_ (core.disjoint key old found) own current
  · have total := core.bytes
    have split := weight_of_lookup DecodeStripe.bufferedBytes found
    rw [weight_insert]
    omega
  · rw [size_insert_of_lookup new found]
    exact core.stripesLimit

theorem growStripe_core (current : new.updated = old.updated)
    (grown : new.bufferedBytes = old.bufferedBytes + added) :
    DecoderCore { decoder with
      stripes := decoder.stripes.insert key new
      bufferedBytes := decoder.bufferedBytes + added } := by
  have queued : (key, new.updated) ∈ decoder.order ++ [] := by
    rw [append_nil, current]
    exact core.orderCurrent key old found
  simpa using replaceStripe_core core found (forall_mem_nil _) queued grown

end

end Edits

/-! ### Expiry and shrinking -/

variable (codec : ErasureCodec) (cell : CellV2) (bytes : Bytes) (now : Instant) (fuel : Nat)

section
variable (decoder : CellStripeDecoder)

theorem expireLoop_core (core : DecoderCore decoder) :
    DecoderCore (expireLoop now fuel decoder).2 ∧
      Evicted decoder (expireLoop now fuel decoder).2 := by
  induction fuel generalizing decoder with
  | zero => exact ⟨core, .refl decoder⟩
  | succ fuel ih =>
  unfold expireLoop
  cases front : decoder.order with
  | nil => exact ⟨core, .refl decoder⟩
  | cons entry rest =>
  obtain ⟨key, generation⟩ := entry
  dsimp only
  split
  · exact ⟨core, .refl decoder⟩
  rename_i stale
  split
  · -- the current entry of an expired stripe
    rw [removeStripe_popped front]
    obtain ⟨removed, evicted⟩ := removeStripe_core core key
    obtain ⟨after, more⟩ := ih _ removed
    exact ⟨after, evicted.trans more⟩
  rename_i notCurrent
  simp only [notCurrent, Bool.not_false, Bool.true_and, Bool.not_eq_true', Bool.not_eq_false,
    Option.all_eq_true, bne_iff_ne] at stale
  have popped := popObsolete_core core front stale
  obtain ⟨after, more⟩ := ih _ popped
  exact ⟨after, (Evicted.reordered decoder rest).trans more⟩

theorem expire_core (now : Instant) (core : DecoderCore decoder) :
    DecoderCore (decoder.expire now).2 ∧ Evicted decoder (decoder.expire now).2 :=
  expireLoop_core now decoder.order.length decoder core

theorem bufferedBytes_of_emptyOrder (core : DecoderCore decoder) (empty : decoder.order = []) :
    decoder.stripes.size = 0 ∧ decoder.bufferedBytes = 0 := by
  have none : decoder.stripes.entries = [] := by
    cases entries : decoder.stripes.entries with
    | nil => rfl
    | cons entry rest =>
      have live : decoder.stripes.lookup entry.1 = some entry.2 :=
        lookup_eq_some_iff.mpr (by simp [entries])
      have queued := core.orderCurrent entry.1 entry.2 live
      simp [empty] at queued
  rw [core.bytes]
  simp [size, weight, none]

theorem shrinkLoop_core (core : DecoderCore decoder) (enough : decoder.order.length ≤ fuel) :
    DecoderCore (shrinkLoop fuel decoder).2 ∧ Evicted decoder (shrinkLoop fuel decoder).2 ∧
      (shrinkLoop fuel decoder).2.bufferedBytes ≤ decoder.maximumBufferedBytes := by
  induction fuel generalizing decoder with
  | zero =>
    have empty := eq_nil_of_length_eq_zero (Nat.le_zero.mp enough)
    have idle := (bufferedBytes_of_emptyOrder decoder core empty).2
    exact ⟨core, .refl decoder, by simp [shrinkLoop, idle]⟩
  | succ fuel ih =>
  unfold shrinkLoop
  split
  · cases front : decoder.order with
    | nil =>
      have idle := (bufferedBytes_of_emptyOrder decoder core front).2
      exact ⟨core, .refl decoder, by simp [idle]⟩
    | cons entry rest =>
      obtain ⟨key, generation⟩ := entry
      rw [front, length_cons] at enough
      dsimp only
      split
      · rw [removeStripe_popped front]
        obtain ⟨removed, evicted⟩ := removeStripe_core core key
        have shorter := removeStripe_order front
        obtain ⟨after, more, reached⟩ := ih _ removed (by omega)
        exact ⟨after, evicted.trans more, evicted.maximumBufferedBytes ▸ reached⟩
      rename_i obsolete
      have popped := popObsolete_core core front (by
        intro stripe found same
        simp [found, same] at obsolete)
      obtain ⟨after, more, reached⟩ := ih _ popped (by dsimp only; omega)
      exact ⟨after, (Evicted.reordered decoder rest).trans more, reached⟩
  · rename_i fits
    exact ⟨core, .refl decoder, Nat.le_of_not_lt fits⟩

/-! ### Room for one more stripe -/

/-- The eviction loop of `ensure_stripe` always gets below the stripe limit. -/
theorem evictLoop_core (core : DecoderCore decoder) (enough : decoder.order.length ≤ fuel) :
    DecoderCore (evictLoop fuel decoder) ∧ Evicted decoder (evictLoop fuel decoder) ∧
      (evictLoop fuel decoder).stripes.size < decoder.maximumStripes := by
  induction fuel generalizing decoder with
  | zero =>
    have empty := eq_nil_of_length_eq_zero (Nat.le_zero.mp enough)
    have idle := (bufferedBytes_of_emptyOrder decoder core empty).1
    exact ⟨core, .refl decoder, by simp only [evictLoop, idle, core.positive]⟩
  | succ fuel ih =>
  unfold evictLoop
  split
  · cases front : decoder.order with
    | nil =>
      have idle := (bufferedBytes_of_emptyOrder decoder core front).1
      exact ⟨core, .refl decoder, by simp only [idle, core.positive]⟩
    | cons entry rest =>
      obtain ⟨key, generation⟩ := entry
      rw [front, length_cons] at enough
      dsimp only
      rw [removeStripe_popped front]
      obtain ⟨removed, evicted⟩ := removeStripe_core core key
      have shorter := removeStripe_order front
      obtain ⟨after, more, reached⟩ := ih _ removed (by omega)
      exact ⟨after, evicted.trans more, evicted.maximumStripes ▸ reached⟩
  · rename_i roomy
    exact ⟨core, .refl decoder, Nat.lt_of_not_le roomy⟩

end

variable {decoder : CellStripeDecoder} {key : StripeKey}

theorem ensureStripe_core {now : Instant}
    {shim : RoutingShim} {result : Except String Unit} (core : DecoderCore decoder)
    (absent : decoder.completed.lookup key = none)
    (run : decoder.ensureStripe key now shim = (result, after)) :
    DecoderCore after ∧ after.bufferedBytes ≤ decoder.bufferedBytes ∧
      after.maximumBufferedBytes = decoder.maximumBufferedBytes ∧
      after.completed = decoder.completed ∧
      (result = .ok () → ∃ stripe, after.stripes.lookup key = some stripe ∧
        stripe.routingShim = shim) ∧
      Edited decoder after key fun stripe => stripe.geometry = none ∧ stripe.originals = ∅ := by
  unfold ensureStripe at run
  cases found : decoder.stripes.lookup key with
  | some stripe =>
    simp only [found] at run
    split at run
    · rename_i same
      cases run
      exact ⟨core, Nat.le_refl _, rfl, rfl, fun _ => ⟨stripe, found, same⟩, .refl _ _ _⟩
    · cases run
      exact ⟨core, Nat.le_refl _, rfl, rfl, (fun failed => by cases failed), .refl _ _ _⟩
  | none =>
  simp only [found] at run
  obtain ⟨evictedCore, evicted, room⟩ :=
    evictLoop_core decoder.order.length decoder core (Nat.le_refl _)
  have stillAbsent := lookup_of_absent (evicted.stripes key) found
  rw [← evicted.maximumStripes] at room
  unfold insertStripe at run
  rw [if_pos room] at run
  split at run
  · cases run
    exact ⟨evictedCore, evicted.bytes, evicted.maximumBufferedBytes, evicted.completed,
      (fun failed => by cases failed), evicted.edited _ _⟩
  cases run
  refine ⟨?_, evicted.bytes, evicted.maximumBufferedBytes, evicted.completed,
    fun _ => ⟨_, AList.lookup_insert _, rfl⟩, .of_insert evicted rfl ⟨rfl, rfl⟩⟩
  refine putStripe_core evictedCore ?_ ?_ (evicted.completed ▸ absent) (by simp) (by simp)
  · rw [weight_insert_of_absent _ _ stillAbsent]
    simpa [DecodeStripe.bufferedBytes] using evictedCore.bytes
  · rw [size_insert_of_absent _ stillAbsent]
    exact room

/-! ### Room for more bytes -/

/-- Entries of the protected stripe at the front of the queue. -/
def leading (kept : StripeKey) (order : List (StripeKey × Instant)) : Nat :=
  (order.takeWhile fun entry => entry.1 == kept).length

variable (additional : Nat) (kept : StripeKey)

theorem leading_le (order : List (StripeKey × Instant)) : leading kept order ≤ order.length :=
  (takeWhile_sublist _).length_le

/-- Rotating the protected stripe uncovers the other entries of the queue. -/
theorem leading_rotate (entry : StripeKey × Instant) (rest : List (StripeKey × Instant))
    (other : ∃ queued ∈ rest, queued.1 ≠ kept) :
    leading kept (rest ++ [entry]) = leading kept rest := by
  unfold leading
  rw [takeWhile_append]
  split
  · rename_i all
    obtain ⟨queued, member, different⟩ := other
    have whole := (takeWhile_sublist _).eq_of_length all
    have same := takeWhile_eq_self_iff.mp whole queued member
    exact absurd (by simpa using same) different
  · rfl

/-- With two live stripes, one of them is queued and is not the protected one. -/
theorem other_queued (decoder : CellStripeDecoder) (core : DecoderCore decoder) (kept : StripeKey)
    (stripe : DecodeStripe) (found : decoder.stripes.lookup kept = some stripe)
    (several : decoder.stripes.size ≠ 1) : ∃ queued ∈ decoder.order, queued.1 ≠ kept := by
  have sizes := size_of_lookup found
  cases entries : (decoder.stripes.erase kept).entries with
  | nil =>
    simp only [size, entries, length_nil] at sizes
    exact absurd sizes several
  | cons entry rest =>
    have live : (decoder.stripes.erase kept).lookup entry.1 = some entry.2 :=
      lookup_eq_some_iff.mpr (by simp [entries])
    obtain ⟨different, live⟩ := lookup_erase_eq_some.mp live
    exact ⟨_, core.orderCurrent entry.1 entry.2 live, different⟩

/-- The loop of `reserve` ends: it keeps the protected stripe and stops with room for the bytes or
with nothing else to evict. -/
theorem reserveLoop_returns (bound fuel : Nat) (decoder : CellStripeDecoder)
    (stripe : DecodeStripe) (core : DecoderCore decoder)
    (found : decoder.stripes.lookup kept = some stripe) (short : decoder.order.length ≤ bound)
    (enough : decoder.stripes.size * (bound + 1) + leading kept decoder.order < fuel) :
    Returns (reserveLoop additional kept fuel decoder) fun after =>
      DecoderCore after ∧ Evicted decoder after ∧ after.stripes.lookup kept = some stripe ∧
        (after.bufferedBytes + additional ≤ decoder.maximumBufferedBytes ∨
          after.stripes.size = 1) := by
  induction fuel generalizing decoder with
  | zero => exact absurd enough (Nat.not_lt_zero _)
  | succ fuel ih =>
  unfold reserveLoop
  split
  · cases front : decoder.order with
    | nil =>
      have idle := (bufferedBytes_of_emptyOrder decoder core front).1
      have live := size_of_lookup found
      omega
    | cons entry rest =>
      obtain ⟨candidate, generation⟩ := entry
      dsimp only
      rw [front, length_cons] at short
      split
      · -- the protected stripe goes to the back of the queue
        rename_i same
        subst same
        simp only [found]
        have rotated := rotate_core core front found
        split
        · rename_i alone
          exact .ok ⟨rotated, .reordered decoder _, found, .inr alone⟩
        rename_i several
        have other : ∃ queued ∈ rest, queued.1 ≠ candidate := by
          obtain ⟨queued, member, different⟩ :=
            other_queued decoder core candidate stripe found several
          rw [front] at member
          rcases mem_cons.mp member with same | later
          · exact absurd (congrArg Prod.fst same) different
          · exact ⟨queued, later, different⟩
        have fewer : leading candidate (rest ++ [(candidate, stripe.updated)]) + 1 =
            leading candidate decoder.order := by
          rw [leading_rotate candidate _ rest other, front]
          simp [leading]
        refine (ih _ rotated found ?_ ?_).imp ?_
        · simpa using short
        · dsimp only
          omega
        · rintro after ⟨afterCore, evicted, live, done⟩
          exact ⟨afterCore, (Evicted.reordered decoder _).trans evicted, live, done⟩
      rename_i different
      rw [removeStripe_popped front]
      obtain ⟨removed, evicted⟩ := removeStripe_core core candidate
      have fewer := removeStripe_size core front
      have shorter := removeStripe_order front
      have queue : (decoder.removeStripe candidate).order.length ≤ bound := by omega
      have stillLive : (decoder.removeStripe candidate).stripes.lookup kept = some stripe :=
        lookup_erase_eq_some.mpr ⟨Ne.symm different, found⟩
      have measure : (decoder.removeStripe candidate).stripes.size * (bound + 1) +
          leading kept (decoder.removeStripe candidate).order < fuel := by
        have lead := leading_le kept (decoder.removeStripe candidate).order
        rw [← fewer, Nat.add_mul] at enough
        omega
      refine (ih _ removed stillLive queue measure).imp ?_
      rintro after ⟨afterCore, more, live, done⟩
      exact ⟨afterCore, evicted.trans more, live, evicted.maximumBufferedBytes ▸ done⟩
  · rename_i fits
    exact .ok ⟨core, .refl decoder, found, .inl (Nat.le_of_not_lt fits)⟩

theorem reserve_returns {kept : StripeKey} (core : DecoderCore decoder)
    (found : decoder.stripes.lookup kept = some stripe) :
    Returns (reserveLoop additional kept decoder.reserveTurns decoder) fun after =>
      DecoderCore after ∧ Evicted decoder after ∧ after.stripes.lookup kept = some stripe ∧
        (after.bufferedBytes + additional ≤ decoder.maximumBufferedBytes ∨
          after.stripes.size = 1) := by
  refine reserveLoop_returns additional kept decoder.order.length _ decoder stripe core found
    (Nat.le_refl _) ?_
  have lead := leading_le kept decoder.order
  unfold reserveTurns
  rw [Nat.add_mul]
  omega

theorem reserve_spec {kept : StripeKey} (valid : DecoderInvariant decoder)
    (found : decoder.stripes.lookup kept = some stripe) :
    Returns (decoder.reserve additional kept) fun (result, after) =>
      DecoderInvariant after ∧ Evicted decoder after ∧ after.stripes.lookup kept = some stripe ∧
        (result = .ok () → after.bufferedBytes + additional ≤ after.maximumBufferedBytes) := by
  refine (reserve_returns additional valid.toDecoderCore found).bind ?_
  rintro after ⟨core, evicted, live, -⟩
  have budget := evicted.budget valid.budget
  split
  · rename_i fits
    exact .ok ⟨⟨core, budget⟩, evicted, live, fun _ => fits⟩
  · exact .ok ⟨⟨core, budget⟩, evicted, live, fun failed => by cases failed⟩

/-! ### Pushing a datagram -/

variable {new : DecodeStripe}

/-- The one panic the receive path can reach: a slice or an index out of range. -/
def OutOfRange (panic : Panic) : Prop := panic = .sliceIndexOutOfRange

def DecodeStripe.withOriginal (stripe : DecodeStripe) (sequence : UInt16) (bytes : Bytes) :
    DecodeStripe :=
  { stripe with
    originals := stripe.originals.insert sequence bytes
    delivered := insert sequence stripe.delivered }

def DecodeStripe.withRecovery (stripe : DecodeStripe) (metadata : ParityPayload) : DecodeStripe :=
  { stripe with
    recoveries := stripe.recoveries.insert metadata.recoveryIndex metadata.recovery }

variable (output : FecDecodeOutputV2)

theorem storeData_spec (valid : DecoderInvariant decoder)
    (found : decoder.stripes.lookup key = some stripe) :
    Returns (decoder.storeData key cell bytes output) fun (result, after) =>
      DecoderInvariant after ∧ Edited decoder after key fun edited =>
        edited = stripe.withOriginal cell.cellSequence bytes ∧
          result = .ok { output with cells := output.cells ++ [cell] } := by
  unfold storeData
  simp only [found]
  cases held : stripe.originals.lookup cell.cellSequence with
  | some existing =>
    dsimp only
    split <;> exact .ok ⟨valid, .refl _ _ _⟩
  | none =>
  refine (reserve_spec bytes.length valid found).bind ?_
  rintro ⟨result, after⟩ ⟨reserved, evicted, live, room⟩
  cases result with
  | error message => exact .ok ⟨reserved, evicted.edited _ _⟩
  | ok _ =>
  simp only [live]
  refine .ok ⟨⟨growStripe_core reserved.toDecoderCore live ?_ ?_, room rfl⟩,
    .of_insert evicted rfl ⟨rfl, rfl⟩⟩
  · rfl
  · simp only [DecodeStripe.bufferedBytes, weight_insert_of_absent _ _ held]
    omega

theorem storeRecovery_spec (metadata : ParityPayload) (valid : DecoderInvariant decoder)
    (found : decoder.stripes.lookup key = some stripe) :
    Returns (decoder.storeRecovery key stripe metadata) fun (_, after) =>
      DecoderInvariant after ∧ Edited decoder after key (· = stripe.withRecovery metadata) := by
  unfold storeRecovery
  cases held : stripe.recoveries.lookup metadata.recoveryIndex with
  | some existing =>
    dsimp only
    split <;> exact .ok ⟨valid, .refl _ _ _⟩
  | none =>
  refine (reserve_spec metadata.recovery.length valid found).bind ?_
  rintro ⟨result, after⟩ ⟨reserved, evicted, live, room⟩
  cases result with
  | error message => exact .ok ⟨reserved, evicted.edited _ _⟩
  | ok _ =>
  simp only [live]
  refine .ok ⟨⟨growStripe_core reserved.toDecoderCore live ?_ ?_, room rfl⟩,
    .of_insert evicted rfl rfl⟩
  · rfl
  · simp only [DecodeStripe.bufferedBytes, weight_insert_of_absent _ _ held]
    omega

/-- An edit that touches neither the buffers nor the generation of a stripe. -/
theorem relabelStripe_invariant (valid : DecoderInvariant decoder)
    (found : decoder.stripes.lookup key = some old) (current : new.updated = old.updated)
    (same : new.bufferedBytes = old.bufferedBytes) :
    DecoderInvariant { decoder with stripes := decoder.stripes.insert key new } := by
  have grown : new.bufferedBytes = old.bufferedBytes + 0 := same
  exact ⟨growStripe_core valid.toDecoderCore found current grown, valid.budget⟩

/-- A stripe after a parity Cell: the originals are the same, and the geometry is the one of the
Cell or did not change. -/
def ParityEdit (stripe : DecodeStripe) (metadata : ParityPayload) (edited : DecodeStripe) : Prop :=
  edited.originals = stripe.originals ∧
    (edited.geometry = stripe.geometry ∨ edited.geometry = some metadata)

variable (shape : UInt16 × Nat)

theorem storeParity_spec (payload : Bytes) (valid : DecoderInvariant decoder)
    (found : decoder.stripes.lookup key = some stripe) :
    Returns (decoder.storeParity key shape payload) fun (_, after) =>
      DecoderInvariant after ∧ Edited decoder after key fun edited =>
        (∃ metadata, decodeParityPayload payload = .ok metadata ∧
          ParityEdit stripe metadata edited) ∧
          ∃ geometry recoveries, edited = { stripe with geometry, recoveries } := by
  unfold storeParity
  split
  · exact .ok ⟨valid, .refl _ _ _⟩
  rename_i metadata decoded
  split
  · simp only [found]
    cases geometry : stripe.geometry with
    | some existing =>
      dsimp only
      split
      · refine (storeRecovery_spec metadata valid found).imp ?_
        rintro ⟨_, after⟩ ⟨stored, edited⟩
        refine ⟨stored, edited.imp ?_⟩
        rintro final rfl
        exact ⟨⟨metadata, decoded, rfl, .inl rfl⟩, _, _, rfl⟩
      · exact .ok ⟨valid, .refl _ _ _⟩
    | none =>
    have labelled : DecoderInvariant { decoder with
        stripes := decoder.stripes.insert key { stripe with geometry := some metadata } } :=
      relabelStripe_invariant valid found rfl rfl
    refine (storeRecovery_spec metadata labelled (AList.lookup_insert _)).imp ?_
    rintro ⟨_, after⟩ ⟨stored, edited⟩
    refine ⟨stored, fun other final lookedUp => ?_⟩
    -- the geometry stays even when there is no room for the symbol
    rcases edited other final lookedUp with earlier | ⟨same, rfl⟩
    · rcases lookup_insert_eq_some.mp earlier with ⟨rfl, rfl⟩ | ⟨-, before⟩
      · exact .inr ⟨rfl, ⟨metadata, decoded, rfl, .inr rfl⟩, _, _, rfl⟩
      · exact .inl before
    · exact .inr ⟨same, ⟨metadata, decoded, rfl, .inr rfl⟩, _, _, rfl⟩
  · exact .ok ⟨valid, .refl _ _ _⟩

/-- What storing a Cell may do to its stripe. -/
def StoreEdit (stripe : DecodeStripe) (cell : CellV2) (bytes : Bytes)
    (edited : DecodeStripe) : Prop :=
  match cell.body with
  | .records _ => edited = stripe.withOriginal cell.cellSequence bytes
  | .parity payload =>
    ∃ metadata, decodeParityPayload payload = .ok metadata ∧ ParityEdit stripe metadata edited

theorem store_spec (cell : CellV2) (bytes : Bytes) (output : FecDecodeOutputV2)
    (valid : DecoderInvariant decoder) (found : decoder.stripes.lookup key = some stripe) :
    Returns (decoder.store key shape cell bytes output) fun (_, after) =>
      DecoderInvariant after ∧ Edited decoder after key (StoreEdit stripe cell bytes) := by
  unfold store StoreEdit
  cases cell.body with
  | records segments =>
    refine (storeData_spec cell bytes output valid found).imp ?_
    rintro ⟨result, after⟩ ⟨stored, edited⟩
    exact ⟨stored, edited.imp fun _ => And.left⟩
  | parity payload =>
    refine (storeParity_spec shape payload valid found).bind ?_
    rintro ⟨result, after⟩ ⟨stored, edited⟩
    exact .ok ⟨stored, edited.imp fun _ => And.left⟩

/-! ### Recovery -/

/-- What is newly marked as delivered is among the restored Cells. -/
def Hands (key : StripeKey) (stripe : DecodeStripe) (restored : List (UInt16 × Nat × CellV2))
    (delivered : Finset UInt16) : Prop :=
  ∀ sequence ∈ delivered, sequence ∈ stripe.delivered ∨
    ∃ entry ∈ restored, StripeKey.fromCell entry.2.2 = key ∧ entry.2.2.cellSequence = sequence

theorem Hands.same (key : StripeKey) (stripe : DecodeStripe)
    (restored : List (UInt16 × Nat × CellV2)) : Hands key stripe restored stripe.delivered :=
  fun _ member => .inl member

variable {allowed : Panic → Prop}

section
variable {geometry : ParityPayload}

theorem restoreCell_delivered (key : StripeKey) (stripe : DecodeStripe) {index : Nat}
    {symbol : Bytes}
    (copied : ∀ shim, Yields allowed (restoredBytes geometry shim index symbol) fun _ => True) :
    Yields allowed (restoreCell key geometry stripe index symbol) fun (result, after) =>
      ∃ delivered, after = { stripe with delivered } ∧
        ∀ restored, result = .ok restored → Hands key stripe restored.toList delivered := by
  unfold restoreCell
  split
  · exact ⟨_, rfl, fun _ _ => .same key stripe _⟩
  rename_i sequence _
  refine (copied _).bind ?_
  rintro ⟨length, bytes⟩ -
  dsimp only
  split
  · exact ⟨_, rfl, fun _ _ => .same key stripe _⟩
  rename_i cell decoded
  split
  · rename_i own
    split
    · exact ⟨_, rfl, fun _ _ => .same key stripe _⟩
    refine ⟨_, rfl, ?_⟩
    rintro restored ⟨rfl⟩ marked member
    rcases Finset.mem_insert.mp member with rfl | earlier
    · exact .inr ⟨_, mem_singleton_self _, own⟩
    · exact .inl earlier
  · exact ⟨_, rfl, fun _ _ => .same key stripe _⟩

theorem restoreCells_delivered (key : StripeKey) {restored : List (Nat × Bytes)}
    (stripe : DecodeStripe) (output : List (UInt16 × Nat × CellV2))
    (copied : ∀ entry ∈ restored, ∀ shim, Yields allowed
      (restoredBytes geometry shim entry.1 entry.2) fun _ => True) :
    Yields allowed (restoreCells key geometry restored stripe output) fun (result, after) =>
      ∃ delivered, after = { stripe with delivered } ∧
        ∀ final, result = .ok final → output ⊆ final ∧ Hands key stripe final delivered := by
  induction restored generalizing stripe output with
  | nil =>
    refine ⟨_, rfl, ?_⟩
    rintro final ⟨rfl⟩
    exact ⟨List.Subset.refl _, .same key stripe _⟩
  | cons entry rest ih =>
  obtain ⟨index, symbol⟩ := entry
  obtain ⟨now, later⟩ := forall_mem_cons.mp copied
  refine (restoreCell_delivered key stripe now).bind ?_
  rintro ⟨result, after⟩ ⟨delivered, rfl, first⟩
  cases result with
  | error message => exact ⟨delivered, rfl, fun _ failed => by cases failed⟩
  | ok emitted =>
  refine (ih _ _ later).imp ?_
  rintro ⟨result, last⟩ ⟨more, rfl, others⟩
  refine ⟨more, rfl, fun final done => ?_⟩
  obtain ⟨within, hands⟩ := others final done
  refine ⟨fun _ member => within (mem_append_left _ member), fun sequence marked => ?_⟩
  -- a mark of the rest is one of this step, an older one, or comes with its own Cell
  rcases hands sequence marked with earlier | restored
  · refine (first emitted rfl sequence earlier).imp_right ?_
    rintro ⟨entry, member, own⟩
    exact ⟨entry, within (mem_append_right _ member), own⟩
  · exact .inr restored

theorem expandOriginals_yields {stripe : DecodeStripe}
    (copied : ∀ sequence original, stripe.originals.lookup sequence = some original →
      Yields allowed (expandSymbol geometry.symbolBytes original) fun _ => True)
    (indices : List Nat) (expanded : List (Nat × Bytes)) :
    Yields allowed (expandOriginals stripe geometry indices expanded) fun _ => True := by
  induction indices generalizing expanded with
  | nil => trivial
  | cons index rest ih =>
  unfold expandOriginals
  split
  · trivial
  split
  · exact ih expanded
  rename_i original held
  exact (copied _ original held).bind fun symbol _ => ih _

end

/-- What recovery copies out of a stripe is in range, or fails in an allowed way. -/
structure Copies (codec : ErasureCodec) (allowed : Panic → Prop) (stripe : DecodeStripe)
    (geometry : ParityPayload) : Prop where
  symbols : ∀ sequence original, stripe.originals.lookup sequence = some original →
    Yields allowed (expandSymbol geometry.symbolBytes original) fun _ => True
  restored : ∀ originals recoveries restored,
    codec.decode geometry.dataCells geometry.parityCells geometry.symbolBytes originals
      recoveries = .ok restored →
    ∀ entry ∈ restored, ∀ shim,
      Yields allowed (restoredBytes geometry shim entry.1 entry.2) fun _ => True

theorem copies_outOfRange (stripe : DecodeStripe) (geometry : ParityPayload) :
    Copies codec OutOfRange stripe geometry where
  symbols _ original _ := by
    unfold expandSymbol normalizeRoutingShim
    split_ifs
    · trivial
    · rfl
    · rfl
  restored _ _ _ _ entry _ shim := by
    unfold restoredBytes restoreShim
    split
    · rfl
    split_ifs
    · trivial
    · rfl
    · rfl

/-- Recovery changes at most the set of delivered sequences of its stripe, and hands out what it
adds when it succeeds. -/
theorem tryRecover_spec (key : StripeKey) (valid : DecoderInvariant decoder)
    (copies : ∀ stripe geometry, decoder.stripes.lookup key = some stripe →
      stripe.geometry = some geometry → Copies codec allowed stripe geometry) :
    Yields allowed (tryRecover codec decoder key) fun (result, after) =>
      DecoderInvariant after ∧ Edited decoder after key fun edited =>
        ∃ stripe delivered, decoder.stripes.lookup key = some stripe ∧
          edited = { stripe with delivered } ∧
          ∀ restored, result = .ok restored → Hands key stripe (restored.getD []) delivered := by
  unfold tryRecover
  cases found : decoder.stripes.lookup key with
  | none => exact ⟨valid, .refl _ _ _⟩
  | some stripe =>
  dsimp only
  split
  · exact ⟨valid, .refl _ _ _⟩
  rename_i geometry shaped
  have copied := copies stripe geometry found shaped
  split
  · exact ⟨valid, .refl _ _ _⟩
  unfold recover
  split
  · refine (expandOriginals_yields copied.symbols _ []).bind ?_
    rintro expansion -
    cases expansion with
    | error message => exact ⟨valid, .refl _ _ _⟩
    | ok expanded =>
    dsimp only
    split
    · exact ⟨valid, .refl _ _ _⟩
    rename_i restored decoded
    refine (restoreCells_delivered key stripe [] (copied.restored _ _ _ decoded)).bind ?_
    rintro ⟨result, after⟩ ⟨delivered, rfl, hands⟩
    refine ⟨relabelStripe_invariant valid found rfl rfl, .of_insert (.refl decoder) rfl
      ⟨stripe, delivered, rfl, rfl, fun output done => ?_⟩⟩
    cases result with
    | error message => cases done
    | ok final =>
      cases done
      exact (hands final rfl).2
  · exact ⟨valid, .refl _ _ _⟩

/-! ### Completion -/

theorem complete_invariant
    (valid : DecoderInvariant decoder) (absent : decoder.completed.lookup key = none) :
    DecoderInvariant (decoder.complete key) := by
  obtain ⟨removed, evicted⟩ := removeStripe_core valid.toDecoderCore key
  have fresh : (decoder.removeStripe key).completed.lookup key = none := absent
  obtain ⟨trimmed, small⟩ := HashMap.dropOldest_trimmed (decoder.removeStripe key).maximumStripes
    (removed.completedListed.insert_fresh fresh ())
  refine ⟨{ removed with
    completedLimit := small, completedListed := trimmed.listed, disjoint := ?_ }, ?_⟩
  · intro other stripe live
    have different : other ≠ key := by
      rintro rfl
      have gone : (decoder.stripes.erase other).lookup other = none := AList.lookup_erase _ _
      exact Option.some_ne_none _ (live.symm.trans gone)
    refine trimmed.absent other ?_
    rw [AList.lookup_insert_ne different]
    exact removed.disjoint other stripe live
  · exact evicted.bytes.trans valid.budget

theorem touch_invariant (key : StripeKey) (now : Instant)
    (valid : DecoderInvariant decoder) : DecoderInvariant (decoder.touch key now) := by
  unfold touch
  cases found : decoder.stripes.lookup key with
  | none => exact valid
  | some stripe =>
  have own : ∀ entry ∈ [(key, now)], entry.1 = key := by simp
  have queued : (key, now) ∈ decoder.order ++ [(key, now)] := by simp
  have same : DecodeStripe.bufferedBytes { stripe with updated := now } =
      stripe.bufferedBytes + 0 := rfl
  exact ⟨replaceStripe_core valid.toDecoderCore found own queued same, valid.budget⟩

theorem settle_invariant (key : StripeKey) (now : Instant)
    (output : FecDecodeOutputV2) (valid : DecoderInvariant decoder)
    (every : Every property decoder) :
    DecoderInvariant (decoder.settle key now output).2 ∧
      Every property (decoder.settle key now output).2 := by
  unfold settle
  split
  · rename_i done
    obtain ⟨stripe, live, -⟩ := (Option.any_eq_true _ _).mp done
    exact ⟨complete_invariant valid (valid.disjoint key stripe live),
      (removeStripe_core valid.toDecoderCore key).2.every every⟩
  refine ⟨touch_invariant key now valid, ?_⟩
  unfold touch
  cases found : decoder.stripes.lookup key with
  | none => exact every
  | some stripe =>
    intro other held lookedUp
    rcases lookup_insert_eq_some.mp lookedUp with ⟨rfl, rfl⟩ | ⟨-, earlier⟩
    · exact every other stripe found
    · exact every other held earlier

/-! ### Whole runs -/

/-- A property of stripes that a new stripe has and that makes recovery panic in an allowed way at
most. -/
structure Protects (codec : ErasureCodec) (allowed : Panic → Prop)
    (property : Option ParityPayload → HashMap UInt16 Bytes → Prop) : Prop where
  bare : property none ∅
  copies : ∀ stripe geometry, property stripe.geometry stripe.originals →
    stripe.geometry = some geometry → Copies codec allowed stripe geometry

/-- Storing this Cell keeps the property. -/
def Storable (property : Option ParityPayload → HashMap UInt16 Bytes → Prop)
    (decoder : CellStripeDecoder) (cell : CellV2) (bytes : Bytes) : Prop :=
  ∀ stripe edited, property stripe.geometry stripe.originals →
    decoder.stripes.lookup (StripeKey.fromCell cell) = some stripe ∨
      stripe.geometry = none ∧ stripe.originals = ∅ →
    StoreEdit stripe cell bytes edited → property edited.geometry edited.originals

section
variable {codec : ErasureCodec} {cell : CellV2} {bytes : Bytes} {now : Instant}
  (protects : Protects codec allowed property) (valid : DecoderInvariant decoder)
  (every : Every property decoder)
include protects valid every

theorem pushCell_keeps (storable : Storable property decoder cell bytes) :
    Yields allowed (pushCell codec decoder cell bytes now output) fun (_, after) =>
      DecoderInvariant after ∧ Every property after := by
  unfold pushCell
  dsimp only
  split
  · exact ⟨valid, every⟩
  rename_i shape decoded
  split
  · exact ⟨valid, every⟩
  split
  · exact ⟨valid, every⟩
  rename_i live
  have absent : decoder.completed.lookup (StripeKey.fromCell cell) = none := by
    simpa using live
  cases ensured : decoder.ensureStripe (StripeKey.fromCell cell) now
      (cell.overlayHopLimit, cell.overlayHops) with
  | mk result opened =>
  obtain ⟨core, bytesLe, maximum, -, isLive, edited⟩ := ensureStripe_core
    valid.toDecoderCore absent ensured
  have openedValid : DecoderInvariant opened :=
    ⟨core, maximum ▸ bytesLe.trans valid.budget⟩
  have openedEvery : Every property opened := edited.every every (by
    rintro stripe ⟨geometry, originals⟩
    rw [geometry, originals]
    exact protects.bare)
  cases result with
  | error message => exact ⟨openedValid, openedEvery⟩
  | ok _ =>
  obtain ⟨stripe, found, -⟩ := isLive rfl
  refine (store_spec shape cell bytes output openedValid found).yields.bind ?_
  rintro ⟨stored, after⟩ ⟨storedValid, change⟩
  have storedEvery := change.every openedEvery fun final =>
    storable stripe final (openedEvery _ stripe found) ((edited _ stripe found).imp_right And.right)
  cases stored with
  | error message => exact ⟨storedValid, storedEvery⟩
  | ok output =>
  refine (tryRecover_spec codec _ storedValid fun stripe geometry found =>
    protects.copies stripe geometry (storedEvery _ stripe found)).bind ?_
  rintro ⟨recovered, final⟩ ⟨finalValid, marked⟩
  have finalEvery := marked.every storedEvery (by
    rintro _ ⟨stripe, delivered, found, rfl, -⟩
    exact storedEvery _ stripe found)
  cases recovered with
  | error message => exact ⟨finalValid, finalEvery⟩
  | ok recovered => exact settle_invariant _ now _ finalValid finalEvery

theorem pushAt_every (storable : ∀ cell, CellV2.decode bytes = .ok cell →
      Storable property decoder cell bytes) :
    Yields allowed (decoder.pushAt codec bytes now) fun (_, after) =>
      DecoderInvariant after ∧ Every property after := by
  unfold pushAt
  split
  · exact ⟨valid, every⟩
  rename_i cell decoded
  split
  · obtain ⟨core, evicted⟩ := expire_core decoder now valid.toDecoderCore
    have swept : DecoderInvariant (decoder.expire now).2 :=
      ⟨core, evicted.budget valid.budget⟩
    have sweptEvery := evicted.every every
    dsimp only
    split
    · split <;> exact ⟨swept, sweptEvery⟩
    · refine pushCell_keeps _ protects swept sweptEvery fun stripe edited holds known => ?_
      exact storable cell decoded stripe edited holds
        (known.imp_left (evicted.stripes _ stripe))
  · exact ⟨valid, every⟩

end

/-- Nothing is asked of the stripes if the panic is allowed. -/
theorem protects_outOfRange : Protects codec OutOfRange fun _ _ => True where
  bare := trivial
  copies stripe geometry _ _ := copies_outOfRange codec stripe geometry

theorem pushAt_keeps {codec : ErasureCodec} {bytes : Bytes} {now : Instant}
    {result : Except String FecDecodeOutputV2} (valid : DecoderInvariant decoder)
    (run : decoder.pushAt codec bytes now = .ok (result, after)) : DecoderInvariant after := by
  have kept :=
    @pushAt_every _ _ _ codec bytes now (protects_outOfRange codec) valid (fun _ _ _ => trivial)
    fun _ _ _ _ _ _ _ => trivial
  rw [run] at kept
  exact kept.1

theorem repairCandidates_invariant
    (order : IterationOrder (Sigma fun _ : StripeKey => DecodeStripe)) (now : Instant)
    (minimumAge : Duration) (valid : DecoderInvariant decoder) :
    DecoderInvariant (decoder.repairCandidates order now minimumAge).2 := by
  unfold repairCandidates
  refine ⟨{ valid.toDecoderCore with
    bytes := ?_, stripesLimit := ?_, disjoint := ?_, orderLive := ?_, orderCurrent := ?_ },
    valid.budget⟩
  · refine valid.bytes.trans (weight_mapValues _ _ _ ?_).symm
    exact fun _ _ => rfl
  · rw [size_mapValues]
    exact valid.stripesLimit
  · intro key stripe live
    rw [lookup_mapValues, Option.map_eq_some_iff] at live
    obtain ⟨old, found, -⟩ := live
    exact valid.disjoint key old found
  · intro entry member
    obtain ⟨stripe, found⟩ := valid.orderLive entry member
    exact ⟨_, by rw [lookup_mapValues, found, Option.map_some]⟩
  · intro key stripe live
    rw [lookup_mapValues, Option.map_eq_some_iff] at live
    obtain ⟨old, found, rfl⟩ := live
    exact valid.orderCurrent key old found

theorem call_keeps {codec : ErasureCodec} {next : DecoderCall}
    (protects : Protects codec allowed property) (valid : DecoderInvariant decoder)
    (every : Every property decoder)
    (storable : ∀ bytes now cell, next = .pushAt bytes now → CellV2.decode bytes = .ok cell →
      Storable property decoder cell bytes) :
    Yields allowed (decoder.call codec next) fun after =>
      DecoderInvariant after ∧ Every property after := by
  cases next with
  | pushAt bytes now =>
    exact .map (pushAt_every protects valid every fun cell => storable bytes now cell rfl)
  | expire now =>
    obtain ⟨core, evicted⟩ := expire_core decoder now valid.toDecoderCore
    exact ⟨⟨core, evicted.budget valid.budget⟩, evicted.every every⟩
  | setTtl ttl now =>
    simp only [CellStripeDecoder.call, CellStripeDecoder.setTtl]
    split
    · have retimed : DecoderCore { decoder with ttl } := { valid.toDecoderCore with }
      obtain ⟨core, evicted⟩ := expire_core _ now retimed
      exact ⟨⟨core, evicted.budget valid.budget⟩, evicted.every every⟩
    · exact ⟨valid, every⟩
  | setMaximumBufferedBytes maximum =>
    simp only [CellStripeDecoder.call, CellStripeDecoder.setMaximumBufferedBytes]
    split
    · have resized : DecoderCore { decoder with maximumBufferedBytes := maximum } :=
        { valid.toDecoderCore with }
      obtain ⟨core, evicted, reached⟩ := shrinkLoop_core _ _ resized (Nat.le_refl _)
      exact ⟨⟨core, evicted.maximumBufferedBytes ▸ reached⟩, evicted.every every⟩
    · exact ⟨valid, every⟩
  | repairCandidates order now minimumAge =>
    refine ⟨repairCandidates_invariant order now minimumAge valid, fun key stripe found => ?_⟩
    rw [CellStripeDecoder.repairCandidates, lookup_mapValues, Option.map_eq_some_iff] at found
    obtain ⟨old, earlier, rfl⟩ := found
    exact every key old earlier

theorem run_invariant (decoder : CellStripeDecoder) (calls : List DecoderCall)
    (valid : DecoderInvariant decoder) :
    Yields OutOfRange (decoder.run codec calls) DecoderInvariant := by
  induction calls generalizing decoder with
  | nil => exact valid
  | cons next rest ih =>
    refine (call_keeps (protects_outOfRange codec) valid (fun _ _ _ => trivial)
      fun _ _ _ _ _ _ _ _ _ _ => trivial).bind ?_
    exact fun after kept => ih after kept.1

theorem withLimits_invariant (sessionEpoch : UInt32) (ttl : Duration)
    (maximumStripes maximumBufferedBytes : Nat) (decoder : CellStripeDecoder)
    (made : withLimits sessionEpoch ttl maximumStripes maximumBufferedBytes = .ok decoder) :
    DecoderInvariant decoder := by
  simp only [withLimits, do_eq_ok] at made
  obtain ⟨-, -, positive, -, rfl⟩ := made
  refine ⟨⟨positive, rfl, Nat.zero_le _, Nat.zero_le _, ?_, .nil, forall_mem_nil _, ?_⟩,
    Nat.zero_le _⟩ <;> rintro _ _ ⟨⟩

/-- The three eviction loops end, and reach their target. -/
structure EvictionReaches (decoder : CellStripeDecoder) : Prop where
  ensureStripe : (evictLoop decoder.order.length decoder).stripes.size < decoder.maximumStripes
  reserve : ∀ additional kept stripe, decoder.stripes.lookup kept = some stripe →
    ∃ after, reserveLoop additional kept decoder.reserveTurns decoder = .ok after ∧
      (after.bufferedBytes + additional ≤ decoder.maximumBufferedBytes ∨ after.stripes.size = 1)
  setMaximumBufferedBytes : ∀ maximum, 0 < maximum →
    (decoder.setMaximumBufferedBytes maximum).2.bufferedBytes ≤ maximum

theorem evictionReaches_of_core (core : DecoderCore decoder) :
    EvictionReaches decoder where
  ensureStripe := (evictLoop_core _ decoder core (Nat.le_refl _)).2.2
  reserve additional kept stripe found := by
    obtain ⟨after, run, -, -, -, done⟩ := reserve_returns additional core found
    exact ⟨after, run, done⟩
  setMaximumBufferedBytes maximum positive := by
    have resized : DecoderCore { decoder with maximumBufferedBytes := maximum } := { core with }
    have reached := (shrinkLoop_core _ _ resized (Nat.le_refl _)).2.2
    simpa [CellStripeDecoder.setMaximumBufferedBytes, positive] using reached

/-- Every run of a new decoder ends in a state that satisfies the invariant and from which the
eviction loops reach their targets, unless a push panics on a slice out of range. In particular no
run spins in `reserve`. -/
theorem decoder_state_invariant (codec : ErasureCodec) (sessionEpoch : UInt32) (ttl : Duration)
    (maximumStripes maximumBufferedBytes : Nat) (fresh : CellStripeDecoder)
    (made : withLimits sessionEpoch ttl maximumStripes maximumBufferedBytes = .ok fresh)
    (calls : List DecoderCall) : match fresh.run codec calls with
    | .ok decoder => DecoderInvariant decoder ∧ EvictionReaches decoder
    | .error panic => panic = .sliceIndexOutOfRange := by
  have ran := run_invariant codec fresh calls
    (withLimits_invariant sessionEpoch ttl maximumStripes maximumBufferedBytes fresh made)
  cases outcome : fresh.run codec calls with
  | error panic =>
    rw [outcome] at ran
    exact ran
  | ok decoder =>
    rw [outcome] at ran
    exact ⟨ran, evictionReaches_of_core ran.toDecoderCore⟩

def sampleDecoder : CellStripeDecoder :=
  { sessionEpoch := 1, ttl := 1000, maximumStripes := 4, maximumBufferedBytes := 4096 }

def firstData : CellV2 :=
  { class' := .bulk, flags := 0, sessionEpoch := 1, routeLabel := 2, trainId := 3,
    cellSequence := 0,
    stripeId := 0x02000001, overlayHopLimit := 8, overlayHops := 0,
    body := .records [⟨.full, 0, 1, 1, 0, [], [7]⟩] }

def secondData : CellV2 := { firstData with cellSequence := 1 }

/-- The payload of a parity Cell for two data Cells with the given symbol. -/
def pairParity (length symbolBytes : UInt8) (recovery : Bytes) : Bytes :=
  [0x46, 0x50, 0x56, 0x32, 2, 1, 0, 0, 0, 0, 0, symbolBytes, 0, length, 0, length] ++ recovery

/-- The exclusive or of the two data Cells of 53 bytes, padded to an even length. -/
def pairSymbol : Bytes :=
  List.zipWith (· ^^^ ·) (firstData.wire ++ [0]) (secondData.wire ++ [0])

def fairParity : CellV2 := { firstData with body := .parity (pairParity 53 54 pairSymbol) }

/-- A data Cell and its parity, which completes the stripe, a Cell of another train, a sweep and a
smaller budget. -/
def pairCalls : List DecoderCall :=
  [.pushAt firstData.wire 0, .pushAt fairParity.wire 1,
    .pushAt { firstData with trainId := 4 }.wire 2, .expire 5, .setMaximumBufferedBytes 64]

theorem decoder_state_invariant_small : withLimits 1 1000 4 4096 = .ok sampleDecoder ∧
    ∃ decoder, sampleDecoder.run ErasureCodec.xorCodec pairCalls = .ok decoder ∧
      decoder.completed.size = 1 ∧ decoder.stripes.size = 1 ∧
      DecoderInvariant decoder ∧ EvictionReaches decoder := by
  have ran := eq_ok_getD sampleDecoder
    (show (sampleDecoder.run ErasureCodec.xorCodec pairCalls).toOption.isSome by decide +kernel)
  have valid :=
    decoder_state_invariant ErasureCodec.xorCodec 1 1000 4 4096 sampleDecoder rfl pairCalls
  rw [ran] at valid
  exact ⟨rfl, _, ran, by decide +kernel, by decide +kernel, valid⟩

end Ironet.Fec
