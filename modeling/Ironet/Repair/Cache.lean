
import Ironet.Support.HashMap
import Ironet.Cell.Wire

/-!
# The Repair cache of a sender

Executable model of `RepairCacheV2` in `protocol/v2/repair.rs`: the systematic Cells of protected
stripes, kept for a while so that a receiver can ask for the ones it misses. The cache is bounded
in bytes, in stripes and in age; the oldest stripes go first.

`insert_at` walks the grouped Cells in the iteration order of a hash map, which is a parameter.
Byte counters are natural numbers, so a saturating addition is an addition.
-/
namespace Ironet.Repair
open Support Cell

abbrev Instant := Nat
abbrev Duration := Nat

structure RepairKeyV2 where
  class' : TrafficClass
  sessionEpoch : UInt32
  routeLabel : UInt32
  trainId : UInt64
  stripeId : UInt32
  deriving DecidableEq, Repr

def RepairKeyV2.ofCell (cell : CellV2) : RepairKeyV2 where
  class' := cell.class'
  sessionEpoch := cell.sessionEpoch
  routeLabel := cell.routeLabel
  trainId := cell.trainId
  stripeId := cell.stripeId

structure RepairRequestV2 where
  key : RepairKeyV2
  requestId : UInt64
  missingSequences : List UInt16
  deriving DecidableEq, Repr

structure RepairResponseV2 where
  key : RepairKeyV2
  requestId : UInt64
  cells : List Bytes
  deriving DecidableEq, Repr

structure CachedStripe where
  created : Instant
  cells : HashMap UInt16 Bytes
  bytes : Nat

structure RepairCacheV2 where
  ttl : Duration
  maximumBytes : Nat
  maximumStripes : Nat
  stripes : HashMap RepairKeyV2 CachedStripe := ∅
  order : List (RepairKeyV2 × Instant) := []
  bytes : Nat := 0

/-- Cells by stripe and sequence number. -/
abbrev GroupedCells := HashMap RepairKeyV2 (HashMap UInt16 Bytes)

abbrev GroupOrder := IterationOrder (Sigma fun _ : RepairKeyV2 => HashMap UInt16 Bytes)

namespace RepairCacheV2

def new (ttl : Duration) (maximumBytes maximumStripes : Nat) : Except String RepairCacheV2 := do
  ensure (ttl ≠ 0) "V2 Repair cache TTL is zero"
  ensure (0 < maximumStripes) "V2 Repair cache stripe limit is zero"
  .ok { ttl, maximumBytes, maximumStripes }

/-! ### Removing stripes -/

variable (self : RepairCacheV2) (key : RepairKeyV2)

def remove : RepairCacheV2 :=
  { self with
    stripes := self.stripes.erase key
    bytes := self.bytes - (self.stripes.lookup key).elim 0 CachedStripe.bytes
    order := self.order.filter fun entry => entry.1 != key }

/-- Whether the entry of the order queue is about the stripe that is cached now. -/
def current (generation : Instant) : Bool :=
  (self.stripes.lookup key).any fun stripe => stripe.created == generation

/-- The loop of `expire`; every turn pops an entry of the order queue. -/
def expireLoop (now : Instant) : Nat → RepairCacheV2 → Nat × RepairCacheV2
  | 0, self => (0, self)
  | fuel + 1, self =>
    match self.order with
    | [] => (0, self)
    | (key, generation) :: rest =>
      let stale := (self.stripes.lookup key).all fun stripe =>
        stripe.created != generation || decide (self.ttl ≤ now - stripe.created)
      if stale then
        let self := { self with order := rest }
        if self.current key generation then
          let (expired, self) := expireLoop now fuel (self.remove key)
          (expired + 1, self)
        else expireLoop now fuel self
      else (0, self)

def expire (now : Instant) : Nat × RepairCacheV2 :=
  expireLoop now self.order.length self

/-- The loop of `evict_oldest` over the order queue. -/
def evictLoop : List (RepairKeyV2 × Instant) → RepairCacheV2 → Bool × RepairCacheV2
  | [], self => (false, { self with order := [] })
  | (key, generation) :: rest, self =>
    let self := { self with order := rest }
    if self.current key generation then (true, self.remove key) else evictLoop rest self

def evictOldest : Bool × RepairCacheV2 := evictLoop self.order self

/-! ### Inserting -/

/-- Whether a stripe of so many bytes would exceed a limit. -/
def full (bytes : Nat) : Bool :=
  decide (self.maximumBytes < self.bytes + bytes) ||
    decide (self.maximumStripes ≤ self.stripes.size)

/-- The loop that evicts until a stripe of so many bytes fits. Every turn takes an entry off the
order queue, and an empty queue ends it. -/
def makeRoom (bytes : Nat) : Nat → RepairCacheV2 → RepairCacheV2
  | 0, self => self
  | fuel + 1, self =>
    if self.full bytes then
      match self.evictOldest with
      | (true, self) => makeRoom bytes fuel self
      | (false, self) => self
    else self

/-- The loop of `insert_at` over the datagrams. Unstriped Cells and parity are skipped. -/
def groupCells : List Bytes → GroupedCells → Except String GroupedCells
  | [], grouped => .ok grouped
  | bytes :: rest, grouped => do
    let cell ← CellV2.decode bytes
    if cell.stripeId = 0 ∨ cell.kind ≠ .data then groupCells rest grouped
    else
      let key := RepairKeyV2.ofCell cell
      let cells := ((grouped.lookup key).getD ∅).insert cell.cellSequence bytes
      groupCells rest (grouped.insert key cells)

/-- One turn of the loop of `insert_at` over the groups. -/
def insertStripe (cells : HashMap UInt16 Bytes) (now : Instant) : Nat × RepairCacheV2 :=
  let bytes := cells.weight List.length
  if self.maximumBytes < bytes then (0, self)
  else
    let self := self.remove key
    let self := makeRoom bytes self.order.length self
    if self.full bytes then (0, self)
    else (1, { self with
      stripes := self.stripes.insert key { created := now, cells, bytes }
      order := self.order ++ [(key, now)]
      bytes := self.bytes + bytes })

def insertStripes (now : Instant) :
    List (Sigma fun _ : RepairKeyV2 => HashMap UInt16 Bytes) → RepairCacheV2 → Nat × RepairCacheV2
  | [], self => (0, self)
  | group :: rest, self =>
    let (inserted, self) := self.insertStripe group.1 group.2 now
    let (later, self) := insertStripes now rest self
    (inserted + later, self)

def insertAt (order : GroupOrder) (cells : List Bytes) (now : Instant) :
    Except String Nat × RepairCacheV2 :=
  let self := (self.expire now).2
  match groupCells cells ∅ with
  | .error message => (.error message, self)
  | .ok grouped =>
    let (inserted, self) := insertStripes now (order.arrange grouped.entries) self
    (.ok inserted, self)

/-! ### Answering -/

/-- The cached Cell of a stripe with the given sequence number. -/
def cachedCell (sequence : UInt16) : Option Bytes :=
  (self.stripes.lookup key).bind fun stripe => stripe.cells.lookup sequence

def respond (request : RepairRequestV2) (now : Instant) : RepairResponseV2 × RepairCacheV2 :=
  let self := (self.expire now).2
  ({ key := request.key
     requestId := request.requestId
     cells := request.missingSequences.filterMap (self.cachedCell request.key) }, self)

/-- A lower limit governs new admission only, so nothing is evicted here. -/
def resize (maximumBytes : Nat) (now : Instant) : RepairCacheV2 :=
  { (self.expire now).2 with maximumBytes }

def setTtl (ttl : Duration) : RepairCacheV2 :=
  if ttl ≠ 0 then { self with ttl } else self

end RepairCacheV2

/-! ### Runs -/

/-- The public calls that change a cache. -/
inductive CacheCall where
  | insertAt (order : GroupOrder) (cells : List Bytes) (now : Instant)
  | respond (request : RepairRequestV2) (now : Instant)
  | resize (maximumBytes : Nat) (now : Instant)
  | setTtl (ttl : Duration)
  | expire (now : Instant)

def CacheCall.inserted : CacheCall → List Bytes
  | .insertAt _ cells _ => cells
  | _ => []

/-- The state a call leaves behind, whether it returned `Ok` or `Err`. -/
def RepairCacheV2.call (self : RepairCacheV2) : CacheCall → RepairCacheV2
  | .insertAt order cells now => (self.insertAt order cells now).2
  | .respond request now => (self.respond request now).2
  | .resize maximumBytes now => self.resize maximumBytes now
  | .setTtl ttl => self.setTtl ttl
  | .expire now => (self.expire now).2

def RepairCacheV2.run (self : RepairCacheV2) (calls : List CacheCall) : RepairCacheV2 :=
  calls.foldl RepairCacheV2.call self

/-! ### What is cached was inserted -/

/-- A datagram that the cache may hold under the key and the sequence number. -/
def Cacheable (key : RepairKeyV2) (sequence : UInt16) (bytes : Bytes) : Prop :=
  ∃ cell, CellV2.decode bytes = .ok cell ∧ cell.kind = .data ∧ RepairKeyV2.ofCell cell = key ∧
    cell.cellSequence = sequence

/-- Every cached Cell is one of the given datagrams, under its own key and sequence number. -/
def CachedFrom (datagrams : List Bytes) (cache : RepairCacheV2) : Prop :=
  ∀ key stripe sequence bytes, cache.stripes.lookup key = some stripe →
    stripe.cells.lookup sequence = some bytes → bytes ∈ datagrams ∧ Cacheable key sequence bytes

/-- The stripes of one cache are among those of another. -/
def Fewer (before after : RepairCacheV2) : Prop :=
  ∀ key stripe, after.stripes.lookup key = some stripe → before.stripes.lookup key = some stripe

theorem Fewer.trans {first second third : RepairCacheV2} (before : Fewer first second)
    (after : Fewer second third) : Fewer first third :=
  fun key stripe found => before key stripe (after key stripe found)

variable {datagrams : List Bytes}

theorem CachedFrom.fewer {before after : RepairCacheV2}
    (cached : CachedFrom datagrams before) (fewer : Fewer before after) :
    CachedFrom datagrams after :=
  fun key stripe sequence bytes found => cached key stripe sequence bytes (fewer key stripe found)

variable {cache : RepairCacheV2}

theorem CachedFrom.mono {some more : List Bytes}
    (cached : CachedFrom some cache) (subset : some ⊆ more) : CachedFrom more cache := by
  intro key stripe sequence bytes found held
  obtain ⟨member, cacheable⟩ := cached key stripe sequence bytes found held
  exact ⟨subset member, cacheable⟩

namespace RepairCacheV2

theorem remove_fewer (cache : RepairCacheV2) (key : RepairKeyV2) : Fewer cache (cache.remove key) :=
  fun _ _ found => (HashMap.lookup_erase_eq_some.mp found).2

variable {key : RepairKeyV2} (now : Instant)

theorem expireLoop_fewer (fuel : Nat) (cache : RepairCacheV2) :
    Fewer cache (expireLoop now fuel cache).2 := by
  induction fuel generalizing cache with
  | zero => exact fun _ _ found => found
  | succ fuel ih =>
  unfold expireLoop
  split
  · exact fun _ _ found => found
  rename_i key generation rest queued
  dsimp only
  split_ifs
  · exact Fewer.trans (remove_fewer { cache with order := rest } key) (ih _)
  · exact ih { cache with order := rest }
  · exact fun _ _ found => found

theorem expire_fewer (cache : RepairCacheV2) (now : Instant) : Fewer cache (cache.expire now).2 :=
  expireLoop_fewer now _ cache

theorem evictLoop_fewer (queue : List (RepairKeyV2 × Instant)) (cache : RepairCacheV2) :
    Fewer cache (evictLoop queue cache).2 := by
  induction queue generalizing cache with
  | nil => exact fun _ _ found => found
  | cons entry rest ih =>
  unfold evictLoop
  dsimp only
  split_ifs
  · exact remove_fewer { cache with order := rest } entry.1
  · exact ih { cache with order := rest }

theorem makeRoom_fewer (bytes fuel : Nat) (cache : RepairCacheV2) :
    Fewer cache (makeRoom bytes fuel cache) := by
  induction fuel generalizing cache with
  | zero => exact fun _ _ found => found
  | succ fuel ih =>
  have evicted : Fewer cache cache.evictOldest.2 := evictLoop_fewer cache.order cache
  unfold makeRoom
  split
  · cases outcome : cache.evictOldest with
    | mk removed rest =>
      rw [outcome] at evicted
      cases removed with
      | true => exact evicted.trans (ih rest)
      | false => exact evicted
  · exact fun _ _ found => found

/-- Every group holds datagrams of the input under their own key and sequence number. -/
theorem groupCells_from (datagrams all : List Bytes) (grouped final : GroupedCells)
    (subset : datagrams ⊆ all)
    (sound : ∀ key cells sequence bytes, grouped.lookup key = some cells →
      cells.lookup sequence = some bytes → bytes ∈ all ∧ Cacheable key sequence bytes)
    (run : groupCells datagrams grouped = .ok final) :
    ∀ key cells sequence bytes, final.lookup key = some cells →
      cells.lookup sequence = some bytes → bytes ∈ all ∧ Cacheable key sequence bytes := by
  induction datagrams generalizing grouped with
  | nil =>
    obtain rfl := Except.ok.inj run
    exact sound
  | cons datagram rest ih =>
  obtain ⟨cell, decoded, run⟩ := (bind_eq_ok _ _ _).mp run
  have later : rest ⊆ all := (List.cons_subset.mp subset).2
  split_ifs at run with skipped
  · exact ih grouped later sound run
  refine ih _ later ?_ run
  intro key cells sequence bytes found held
  rcases HashMap.lookup_insert_eq_some.mp found with ⟨rfl, rfl⟩ | ⟨-, found⟩
  · rcases HashMap.lookup_insert_eq_some.mp held with ⟨rfl, rfl⟩ | ⟨-, held⟩
    · push Not at skipped
      exact ⟨(List.cons_subset.mp subset).1, cell, decoded, skipped.2, rfl, rfl⟩
    cases group : grouped.lookup (RepairKeyV2.ofCell cell) with
    | none => simp [group] at held
    | some old =>
      rw [group, Option.getD_some] at held
      exact sound _ old sequence bytes group held
  · exact sound key cells sequence bytes found held

theorem insertStripe_from {cells : HashMap UInt16 Bytes} (cached : CachedFrom datagrams cache)
    (sound : ∀ sequence bytes, cells.lookup sequence = some bytes →
      bytes ∈ datagrams ∧ Cacheable key sequence bytes) :
    CachedFrom datagrams (cache.insertStripe key cells now).2 := by
  unfold insertStripe
  dsimp only
  split_ifs
  · exact cached
  · exact cached.fewer ((remove_fewer cache key).trans (makeRoom_fewer _ _ _))
  intro other stripe sequence bytes found held
  rcases HashMap.lookup_insert_eq_some.mp found with ⟨rfl, rfl⟩ | ⟨-, found⟩
  · exact sound sequence bytes held
  · exact cached.fewer ((remove_fewer cache key).trans (makeRoom_fewer _ _ _)) other stripe
      sequence bytes found held

theorem insertStripes_from (groups : List (Sigma fun _ : RepairKeyV2 => HashMap UInt16 Bytes))
    (cache : RepairCacheV2) (cached : CachedFrom datagrams cache)
    (sound : ∀ group ∈ groups, ∀ sequence bytes, group.2.lookup sequence = some bytes →
      bytes ∈ datagrams ∧ Cacheable group.1 sequence bytes) :
    CachedFrom datagrams (insertStripes now groups cache).2 := by
  induction groups generalizing cache with
  | nil => exact cached
  | cons group rest ih =>
    refine ih _ (insertStripe_from now cached (sound group List.mem_cons_self)) ?_
    exact fun other member => sound other (List.mem_cons_of_mem _ member)

theorem insertAt_from (order : GroupOrder)
    (cells : List Bytes) (now : Instant) (cached : CachedFrom datagrams cache) :
    CachedFrom (datagrams ++ cells) (cache.insertAt order cells now).2 := by
  have swept : CachedFrom (datagrams ++ cells) (cache.expire now).2 :=
    (cached.fewer (expire_fewer cache now)).mono (List.subset_append_left _ _)
  unfold insertAt
  cases run : groupCells cells ∅ with
  | error message => exact swept
  | ok grouped =>
  have sound := groupCells_from cells (datagrams ++ cells) ∅ grouped
    (List.subset_append_right _ _) (by simp) run
  refine insertStripes_from now _ _ swept fun group member => ?_
  have entry : ⟨group.1, group.2⟩ ∈ grouped.entries := (order.perm _).mem_iff.mp member
  exact fun sequence bytes => sound group.1 group.2 sequence bytes
    (HashMap.lookup_eq_some_iff.mpr entry)

theorem call_from (call : CacheCall)
    (cached : CachedFrom datagrams cache) :
    CachedFrom (datagrams ++ call.inserted) (cache.call call) := by
  cases call with
  | insertAt order cells now => exact insertAt_from order cells now cached
  | respond request now =>
    exact (cached.fewer (expire_fewer cache now)).mono (List.subset_append_left _ _)
  | resize maximumBytes now =>
    exact (cached.fewer (expire_fewer cache now)).mono (List.subset_append_left _ _)
  | setTtl ttl =>
    have kept : Fewer cache (cache.setTtl ttl) := by
      unfold setTtl
      split_ifs <;> exact fun _ _ found => found
    exact (cached.fewer kept).mono (List.subset_append_left _ _)
  | expire now => exact (cached.fewer (expire_fewer cache now)).mono (List.subset_append_left _ _)

/-- A cache only holds datagrams that were inserted, each under its own key and sequence number. -/
theorem run_from (calls : List CacheCall) (cache : RepairCacheV2) (datagrams : List Bytes)
    (cached : CachedFrom datagrams cache) :
    CachedFrom (datagrams ++ calls.flatMap CacheCall.inserted) (cache.run calls) := by
  induction calls generalizing cache datagrams with
  | nil => simpa [run] using cached
  | cons call rest ih =>
    have final := ih (cache.call call) _ (call_from call cached)
    rwa [List.append_assoc] at final

theorem new_from {ttl : Duration} {maximumBytes maximumStripes : Nat}
    (made : RepairCacheV2.new ttl maximumBytes maximumStripes = .ok cache) :
    CachedFrom [] cache := by
  simp only [RepairCacheV2.new, do_eq_ok] at made
  obtain ⟨-, -, rfl⟩ := made
  intro key stripe sequence bytes found
  cases found

theorem cachedCell_from {sequence : UInt16} {bytes : Bytes} (cached : CachedFrom datagrams cache)
    (found : cache.cachedCell key sequence = some bytes) :
    bytes ∈ datagrams ∧ Cacheable key sequence bytes := by
  obtain ⟨stripe, isStripe, held⟩ := Option.bind_eq_some_iff.mp found
  exact cached key stripe sequence bytes isStripe held

end RepairCacheV2
end Ironet.Repair
