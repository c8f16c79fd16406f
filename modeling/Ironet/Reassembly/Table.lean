import Ironet.Reassembly.Train

/-!
# The reassembly table of a peer

Executable model of `ReassemblyTableV2` in `protocol/v2/reassembly.rs`: a hot slot for the train
that is being received, a map of the other trains, tombstones of completed trains and a cached
byte counter. Memory pressure, the train limit and the timeout all shed whole trains.

An `Instant` is a natural number. `min_by_key` walks the map in the table's iteration order and
returns the first minimum; the order is a parameter of the calls that evict. Counters saturate in
the source only beyond `usize::MAX`, and `saturating_sub` is the subtraction of natural numbers.
-/
namespace Ironet.Reassembly
open Support Cell

abbrev Instant := Nat
abbrev Duration := Nat

def maxExpirySweepInterval : Duration := 10 * 1000000

structure ReassemblyTableLimits where
  sessionEpoch : UInt32
  maximumActiveTrains : Nat
  maximumBufferedBytes : Nat
  trainTimeout : Duration
  perTrain : ReassemblyLimits
  deriving DecidableEq, Repr

def ReassemblyTableLimits.validate (limits : ReassemblyTableLimits) : Except String Unit := do
  ensure (limits.sessionEpoch ≠ 0) "V2 reassembly epoch zero is reserved"
  ensure (1 ≤ limits.maximumActiveTrains ∧ limits.maximumActiveTrains ≤ 65535)
    "invalid V2 active train limit"
  ensure (maxRecordBytes ≤ limits.maximumBufferedBytes) "V2 global reassembly budget is too small"
  ensure (limits.trainTimeout ≠ 0) "V2 train timeout must be positive"
  limits.perTrain.validate

structure TimedTrain where
  reassembler : TrainReassembler
  lastUpdate : Instant

def TimedTrain.bytes (train : TimedTrain) : Nat := train.reassembler.bufferedBytes

def TimedTrain.stale (train : TimedTrain) (now : Instant) (timeout : Duration) : Bool :=
  timeout ≤ now - train.lastUpdate

structure ReassemblyTableV2 where
  limits : ReassemblyTableLimits
  hotTrain : Option (TrainKey × TimedTrain) := none
  trains : HashMap TrainKey TimedTrain := ∅
  completed : HashMap TrainKey Instant := ∅
  completedOrder : List TrainKey := []
  bufferedBytes : Nat := 0
  nextExpiryCheck : Option Instant := none

abbrev TrainOrder := IterationOrder (Sigma fun _ : TrainKey => TimedTrain)

namespace ReassemblyTableV2

def new (limits : ReassemblyTableLimits) : Except String ReassemblyTableV2 := do
  limits.validate
  .ok { limits }

variable (self : ReassemblyTableV2)

def activeTrains : Nat :=
  self.trains.size + if self.hotTrain.isSome then 1 else 0

variable (key : TrainKey)

def hotMatches : Bool :=
  self.hotTrain.any fun hot => hot.1 = key

/-! ### Eviction and expiry -/

variable (order : TrainOrder)

def oldestTrainKey : Option TrainKey :=
  let cold := (order.arrange self.trains.entries).argmin fun entry => entry.2.lastUpdate
  match self.hotTrain, cold with
  | some hot, some cold => some (if hot.2.lastUpdate ≤ cold.2.lastUpdate then hot.1 else cold.1)
  | some hot, none => some hot.1
  | none, some cold => some cold.1
  | none, none => none

/-- The part of `remove_train` behind the hot slot. -/
def removeCold : ReassemblyTableV2 :=
  match self.trains.lookup key with
  | some train =>
    { self with
      trains := self.trains.erase key, bufferedBytes := self.bufferedBytes - train.bytes }
  | none => self

def removeTrain : ReassemblyTableV2 :=
  match self.hotTrain with
  | some (hot, train) =>
    if hot = key then
      { self with hotTrain := none, bufferedBytes := self.bufferedBytes - train.bytes }
    else self.removeCold key
  | none => self.removeCold key

/-- The loop that sheds the oldest trains until `incoming` more bytes fit; the count of evicted
trains is its first result. Every turn removes a train, so the number of held trains bounds the
turns. -/
def shedTrains (order : TrainOrder) (incoming : Nat) :
    Nat → ReassemblyTableV2 → Nat × ReassemblyTableV2
  | 0, self => (0, self)
  | fuel + 1, self =>
    if self.limits.maximumBufferedBytes < self.bufferedBytes + incoming then
      match self.oldestTrainKey order with
      | none => (0, self)
      | some oldest =>
        let (evicted, self) := shedTrains order incoming fuel (self.removeTrain oldest)
        (evicted + 1, self)
    else (0, self)

/-- Drop the stale tombstones at the front of the queue. -/
def expireCompleted (now : Instant) (timeout : Duration) :
    List TrainKey → HashMap TrainKey Instant → List TrainKey × HashMap TrainKey Instant
  | [], completed => ([], completed)
  | key :: rest, completed =>
    if (completed.lookup key).all fun completedAt => timeout ≤ now - completedAt then
      expireCompleted now timeout rest (completed.erase key)
    else (key :: rest, completed)

/-- Release a stale hot train: the bytes and trains released, and the slot left behind. -/
def expireHot (hotTrain : Option (TrainKey × TimedTrain)) (now : Instant) (timeout : Duration) :
    Nat × Nat × Option (TrainKey × TimedTrain) :=
  match hotTrain with
  | some hot => if hot.2.stale now timeout then (hot.2.bytes, 1, none) else (0, 0, some hot)
  | none => (0, 0, none)

variable (now : Instant)

def expire : Nat × ReassemblyTableV2 :=
  let timeout := self.limits.trainTimeout
  let stale := self.trains.retain fun _ train => train.stale now timeout
  let (hotBytes, hotExpired, hotTrain) := expireHot self.hotTrain now timeout
  let (completedOrder, completed) := expireCompleted now timeout self.completedOrder self.completed
  (stale.size + hotExpired, { self with
    trains := self.trains.retain fun _ train => !train.stale now timeout
    hotTrain
    bufferedBytes := self.bufferedBytes - (stale.weight TimedTrain.bytes + hotBytes)
    completed
    completedOrder
    nextExpiryCheck := some (now + min timeout maxExpirySweepInterval) })

def expireIfDue : Nat × ReassemblyTableV2 :=
  if self.nextExpiryCheck.all fun deadline => deadline ≤ now then self.expire now else (0, self)

/-- Drop the oldest tombstones down to the train limit. -/
def trimCompleted (maximum : Nat) :
    List TrainKey → HashMap TrainKey Instant → List TrainKey × HashMap TrainKey Instant :=
  HashMap.dropOldest maximum

/-! ### Accepting a Cell -/

/-- The train held under a key, in the hot slot or in the map. -/
def held : Option TimedTrain :=
  match self.hotTrain with
  | some (hot, train) => if hot = key then some train else self.trains.lookup key
  | none => self.trains.lookup key

def cellSeen (self : ReassemblyTableV2) (key : TrainKey) (sequence : UInt16) : Bool :=
  (self.held key).any fun train => train.reassembler.cellSeen sequence

/-- The bytes a Cell can add to the buffers. -/
def bodyBytes : CellBody → Nat
  | .records segments =>
    (segments.map fun segment => segment.metadata.length + segment.data.length).sum
  | .parity _ => 0

/-- Whether a new train would exceed the train limit. -/
def full : Bool :=
  self.limits.maximumActiveTrains ≤ self.activeTrains && (self.trains.lookup key).isNone

/-- Make room for a train that is not held: expired trains first, the oldest train otherwise. -/
def makeRoom (key : TrainKey) (now : Instant) : (Nat × Nat) × ReassemblyTableV2 :=
  let (expired, self) := if self.full key then self.expire now else (0, self)
  if self.full key then
    match self.oldestTrainKey order with
    | some oldest => ((expired, 1), self.removeTrain oldest)
    | none => ((expired, 0), self)
  else ((expired, 0), self)

/-- Move the train into the hot slot, or start a new one there. -/
def installHot : Except String TimedTrain × ReassemblyTableV2 :=
  let held := self.trains.lookup key
  let self := { self with trains := self.trains.erase key }
  -- the argument of `unwrap_or` is evaluated even when the train is held
  match TrainReassembler.new self.limits.perTrain with
  | .error message => (.error message, self)
  | .ok reassembler =>
    let train := held.getD { reassembler, lastUpdate := now }
    match self.hotTrain with
    | some (previousKey, previous) =>
      (.ok train, { self with
        trains := self.trains.insert previousKey previous, hotTrain := some (key, train) })
    | none => (.ok train, { self with hotTrain := some (key, train) })

/-- The train of `key` in the hot slot, if it is there. -/
def hotFor : Option TimedTrain :=
  (self.hotTrain.filter fun hot => hot.1 = key).map Prod.snd

/-- The hot train for `key` with the counts of expired and evicted trains. -/
def obtainHot (key : TrainKey) (now : Instant) :
    (Nat × Nat) × Except String TimedTrain × ReassemblyTableV2 :=
  match self.hotFor key with
  | some train => ((0, 0), .ok train, self)
  | none =>
    let (counts, self) := self.makeRoom order key now
    (counts, self.installHot key now)

def recordCompletion : ReassemblyTableV2 :=
  let (completedOrder, completed) := trimCompleted self.limits.maximumActiveTrains
    (self.completedOrder ++ [key]) (self.completed.insert key now)
  { self with completedOrder, completed }

/-- Hand the Cell to the hot train and settle the byte counter and a completed or failed train. -/
def deliver (train : TimedTrain) (cell : CellV2)
    (now : Instant) (expired evicted : Nat) : Except String ReassemblyOutput × ReassemblyTableV2 :=
  let (accepted, reassembler) := train.reassembler.accept cell
  let self := { self with
    hotTrain := some (key, { reassembler, lastUpdate := now })
    bufferedBytes := self.bufferedBytes - train.bytes + reassembler.bufferedBytes }
  match accepted with
  | .error message => (.error message, self.removeTrain key)
  | .ok output =>
    let output := { output with
      pressureEvictedTrains := output.pressureEvictedTrains + evicted
      reassemblyExpiredTrains := output.reassemblyExpiredTrains + expired }
    (.ok output, if output.trainComplete then (self.removeTrain key).recordCompletion key now
      else self)

def acceptAt (cell : CellV2) (now : Instant) : Except String ReassemblyOutput × ReassemblyTableV2 :=
  if cell.sessionEpoch ≠ self.limits.sessionEpoch then
    (.error "V2 Cell belongs to another session epoch", self)
  else
    let (expired, self) := self.expireIfDue now
    let key := trainKey cell
    if !self.hotMatches key && (self.completed.lookup key).isSome then
      (.ok { duplicateCell := true, trainComplete := true, reassemblyExpiredTrains := expired },
        self)
    else
      let incoming := if self.cellSeen key cell.cellSequence then 0 else bodyBytes cell.body
      let (evicted, self) := shedTrains order incoming self.activeTrains self
      if self.limits.maximumBufferedBytes < incoming then
        (.error "V2 Cell exceeds the global reassembly byte budget", self)
      else match self.obtainHot order key now with
        | (_, .error message, self) => (.error message, self)
        | ((moreExpired, moreEvicted), .ok train, self) =>
          self.deliver key train cell now (expired + moreExpired) (evicted + moreEvicted)

/-! ### Resizing -/

def setMaximumBufferedBytes (maximum : Nat) : Except String Nat × ReassemblyTableV2 :=
  if maxRecordBytes ≤ maximum then
    let self := { self with limits := { self.limits with maximumBufferedBytes := maximum } }
    let (evicted, self) := shedTrains order 0 self.activeTrains self
    (.ok evicted, self)
  else (.error "V2 global reassembly budget is too small", self)

def setMaximumActiveTrains (maximum : Nat) : Except String Unit × ReassemblyTableV2 :=
  if 1 ≤ maximum ∧ maximum ≤ 65535 then
    let (completedOrder, completed) := trimCompleted maximum self.completedOrder self.completed
    (.ok (), { self with
      limits := { self.limits with maximumActiveTrains := maximum }, completedOrder, completed })
  else (.error "invalid V2 active train limit", self)

end ReassemblyTableV2

/-! ### Runs -/

/-- A Cell that came out of the decoder. -/
structure DecodedCell where
  cell : CellV2
  decoded : ∃ bytes, CellV2.decode bytes = .ok cell

/-- The public calls that change a table; the calls that may evict carry an iteration order. -/
inductive TableCall where
  | acceptAt (order : TrainOrder) (cell : DecodedCell) (now : Instant)
  | expire (now : Instant)
  | setMaximumBufferedBytes (order : TrainOrder) (maximum : Nat)
  | setMaximumActiveTrains (maximum : Nat)

/-- The state a call leaves behind, whether it returned `Ok` or `Err`. -/
def ReassemblyTableV2.call (self : ReassemblyTableV2) : TableCall → ReassemblyTableV2
  | .acceptAt order cell now => (self.acceptAt order cell.cell now).2
  | .expire now => (self.expire now).2
  | .setMaximumBufferedBytes order maximum => (self.setMaximumBufferedBytes order maximum).2
  | .setMaximumActiveTrains maximum => (self.setMaximumActiveTrains maximum).2

def ReassemblyTableV2.run (self : ReassemblyTableV2) (calls : List TableCall) : ReassemblyTableV2 :=
  calls.foldl ReassemblyTableV2.call self

end Ironet.Reassembly
