import Ironet.Support.ErasureCode
import Ironet.Support.HashMap
import Ironet.Fec.Wire

/-!
# The stripe decoder

Executable model of `CellStripeDecoder` in `protocol/v2/fec.rs`. Systematic Cells pass through at
once; parity Cells are kept until enough shards of a stripe are there to restore the missing
ones. Stripes are bounded in number, in bytes and in age.

The Reed-Solomon codec is a parameter. Out-of-range slices and missing map entries panic, so a
call returns `Except Panic` around the source's `Result` and the state it leaves behind. Shards
are handed to the codec in the order of the model's entries.
-/
namespace Ironet.Fec
open Support Cell

abbrev Instant := Nat
abbrev Duration := Nat

def defaultMaxStripes : Nat := 4096
def defaultMaxBufferedBytes : Nat := 32 * 1024 * 1024

structure StripeKey where
  class' : TrafficClass
  sessionEpoch : UInt32
  routeLabel : UInt32
  trainId : UInt64
  stripeId : UInt32
  deriving DecidableEq, Repr

def StripeKey.fromCell (cell : CellV2) : StripeKey where
  class' := cell.class'
  sessionEpoch := cell.sessionEpoch
  routeLabel := cell.routeLabel
  trainId := cell.trainId
  stripeId := cell.stripeId

/-- The two hop bytes that transit nodes change. -/
abbrev RoutingShim := UInt8 × UInt8

structure DecodeStripe where
  created : Instant
  updated : Instant
  geometry : Option ParityPayload := none
  repairShape : UInt16 × Nat
  routingShim : RoutingShim
  originals : HashMap UInt16 Bytes := ∅
  recoveries : HashMap Nat Bytes := ∅
  delivered : Finset UInt16 := ∅
  repairRequested : Bool := false

def DecodeStripe.bufferedBytes (stripe : DecodeStripe) : Nat :=
  stripe.originals.weight List.length + stripe.recoveries.weight List.length

structure MissingStripeV2 where
  class' : TrafficClass
  sessionEpoch : UInt32
  routeLabel : UInt32
  trainId : UInt64
  stripeId : UInt32
  missingSequences : List UInt16
  deriving DecidableEq, Repr

structure FecDecodeOutputV2 where
  cells : List CellV2 := []
  parityReceived : Nat := 0
  recoveredCells : Nat := 0
  wastedParity : Nat := 0
  expiredStripes : Nat := 0
  decodeCopyBytes : Nat := 0
  recoveryLatencyMicros : Nat := 0
  deriving DecidableEq, Repr

structure CellStripeDecoder where
  sessionEpoch : UInt32
  ttl : Duration
  maximumStripes : Nat
  maximumBufferedBytes : Nat
  stripes : HashMap StripeKey DecodeStripe := ∅
  order : List (StripeKey × Instant) := []
  completed : HashMap StripeKey Unit := ∅
  completedOrder : List StripeKey := []
  bufferedBytes : Nat := 0

/-- The source's `Result` of a call beside the state it leaves behind. -/
abbrev Answer (α : Type) := Except String α × CellStripeDecoder

namespace CellStripeDecoder

def withLimits (sessionEpoch : UInt32) (ttl : Duration)
    (maximumStripes maximumBufferedBytes : Nat) : Except String CellStripeDecoder := do
  ensure (sessionEpoch ≠ 0) "V2 FEC session epoch zero is reserved"
  ensure (ttl ≠ 0) "V2 FEC stripe TTL is zero"
  ensure (0 < maximumStripes) "V2 FEC stripe limit is zero"
  ensure (0 < maximumBufferedBytes) "V2 FEC byte limit is zero"
  .ok { sessionEpoch, ttl, maximumStripes, maximumBufferedBytes }

def new (sessionEpoch : UInt32) (ttl : Duration) : Except String CellStripeDecoder :=
  withLimits sessionEpoch ttl defaultMaxStripes defaultMaxBufferedBytes

/-! ### Removing stripes -/

variable (self : CellStripeDecoder) (key : StripeKey)

def removeStripe : CellStripeDecoder :=
  { self with
    stripes := self.stripes.erase key
    bufferedBytes :=
      self.bufferedBytes - (self.stripes.lookup key).elim 0 DecodeStripe.bufferedBytes
    order := self.order.filter fun entry => entry.1 != key }

/-- The loop of `expire`; every turn pops an entry of the order queue. -/
def expireLoop (now : Instant) : Nat → CellStripeDecoder → Nat × CellStripeDecoder
  | 0, self => (0, self)
  | fuel + 1, self =>
    match self.order with
    | [] => (0, self)
    | (key, generation) :: rest =>
      let stripe := self.stripes.lookup key
      let current := stripe.any fun stripe =>
        stripe.updated == generation && decide (self.ttl ≤ now - stripe.updated)
      let obsolete := stripe.all fun stripe => stripe.updated != generation
      if !current && !obsolete then (0, self)
      else
        let self := { self with order := rest }
        if current then
          let (expired, self) := expireLoop now fuel (self.removeStripe key)
          (expired + 1, self)
        else expireLoop now fuel self

variable (now : Instant)

def expire : Nat × CellStripeDecoder :=
  expireLoop now self.order.length self

/-- The loop of `set_maximum_buffered_bytes`. -/
def shrinkLoop : Nat → CellStripeDecoder → Nat × CellStripeDecoder
  | 0, self => (0, self)
  | fuel + 1, self =>
    if self.maximumBufferedBytes < self.bufferedBytes then
      match self.order with
      | [] => (0, self)
      | (candidate, generation) :: rest =>
        let self := { self with order := rest }
        if (self.stripes.lookup candidate).any fun stripe => stripe.updated == generation then
          let (evicted, self) := shrinkLoop fuel (self.removeStripe candidate)
          (evicted + 1, self)
        else shrinkLoop fuel self
    else (0, self)

def setMaximumBufferedBytes (maximum : Nat) : Except String Nat × CellStripeDecoder :=
  if 0 < maximum then
    let self := { self with maximumBufferedBytes := maximum }
    let (evicted, self) := shrinkLoop self.order.length self
    (.ok evicted, self)
  else (.error "V2 FEC byte limit is zero", self)

def setTtl (ttl : Duration) (now : Instant) : Except String Unit × CellStripeDecoder :=
  if ttl ≠ 0 then (.ok (), ({ self with ttl }.expire now).2)
  else (.error "V2 FEC stripe TTL is zero", self)

/-- The loop of `ensure_stripe`. -/
def evictLoop : Nat → CellStripeDecoder → CellStripeDecoder
  | 0, self => self
  | fuel + 1, self =>
    if self.maximumStripes ≤ self.stripes.size then
      match self.order with
      | [] => self
      | (oldest, _) :: rest => evictLoop fuel ({ self with order := rest }.removeStripe oldest)
    else self

def insertStripe (routingShim : RoutingShim) : Except String Unit × CellStripeDecoder :=
  if self.stripes.size < self.maximumStripes then
    match decodeStripeId key.stripeId with
    | .error message => (.error message, self)
    | .ok repairShape =>
      (.ok (), { self with
        stripes := self.stripes.insert key
          { created := now, updated := now, repairShape, routingShim }
        order := self.order ++ [(key, now)] })
  else (.error "too many active V2 FEC stripes", self)

def ensureStripe (routingShim : RoutingShim) : Except String Unit × CellStripeDecoder :=
  match self.stripes.lookup key with
  | some stripe =>
    if stripe.routingShim = routingShim then (.ok (), self)
    else (.error "V2 FEC stripe crossed overlay hop generations", self)
  | none => (evictLoop self.order.length self).insertStripe key now routingShim

/-- The loop of `reserve`. It rotates the protected stripe to the back and removes other stripes
from the front. -/
def reserveLoop (additional : Nat) (kept : StripeKey) :
    Nat → CellStripeDecoder → Except Panic CellStripeDecoder
  | 0, _ => .error .diverges
  | fuel + 1, self =>
    if self.maximumBufferedBytes < self.bufferedBytes + additional then
      match self.order with
      | [] => .ok self
      | (candidate, _) :: rest =>
        if candidate = kept then
          match self.stripes.lookup candidate with
          | none => .error .missingEntry
          | some stripe =>
            let self := { self with order := rest ++ [(candidate, stripe.updated)] }
            if self.stripes.size = 1 then .ok self else reserveLoop additional kept fuel self
        else reserveLoop additional kept fuel ({ self with order := rest }.removeStripe candidate)
    else .ok self

/-- More turns than the loop of `reserve` takes while every live stripe is queued. -/
def reserveTurns : Nat :=
  (self.stripes.size + 1) * (self.order.length + 1)

def reserve (additional : Nat) (kept : StripeKey) : Except Panic (Answer Unit) := do
  let self ← reserveLoop additional kept self.reserveTurns self
  if self.bufferedBytes + additional ≤ self.maximumBufferedBytes then .ok (.ok (), self)
  else .ok (.error "V2 FEC buffered byte limit exceeded", self)

/-! ### Recovery -/

def normalizeRoutingShim (symbol : Bytes) : Except Panic Bytes :=
  if overlayHopsOffset < symbol.length then
    .ok ((symbol.set overlayHopLimitOffset 0).set overlayHopsOffset 0)
  else .error .sliceIndexOutOfRange

/-- A received data Cell as a symbol: zero-padded, with its hop bytes cleared. -/
def expandSymbol (symbolBytes : Nat) (original : Bytes) : Except Panic Bytes :=
  -- `symbol[..original.len()]` on a buffer of `symbol_bytes`
  if original.length ≤ symbolBytes then
    normalizeRoutingShim (original ++ List.replicate (symbolBytes - original.length) 0)
  else .error .sliceIndexOutOfRange

def expandOriginals (stripe : DecodeStripe) (geometry : ParityPayload) :
    List Nat → List (Nat × Bytes) → Except Panic (Except String (List (Nat × Bytes)))
  | [], expanded => .ok (.ok expanded)
  | index :: rest, expanded =>
    match stripeSequence geometry.firstSequence index with
    | none => .ok (.error "V2 FEC sequence overflow")
    | some sequence =>
      match stripe.originals.lookup sequence with
      | none => expandOriginals stripe geometry rest expanded
      | some original => do
        let symbol ← expandSymbol geometry.symbolBytes original
        expandOriginals stripe geometry rest (expanded ++ [(index, symbol)])

/-- How many data Cells of the stripe were received. -/
def present (stripe : DecodeStripe) (geometry : ParityPayload) : Nat :=
  (List.range geometry.dataCells).countP fun index =>
    (stripeSequence geometry.firstSequence index).any fun sequence =>
      (stripe.originals.lookup sequence).isSome

/-- Put the routing shim of the stripe into a restored Cell. -/
def restoreShim (bytes : Bytes) (shim : RoutingShim) : Except Panic Bytes :=
  if overlayHopsOffset < bytes.length then
    .ok ((bytes.set overlayHopLimitOffset shim.1).set overlayHopsOffset shim.2)
  else .error .sliceIndexOutOfRange

/-- The bytes of a restored Cell: the symbol cut to the length in the table. -/
def restoredBytes (geometry : ParityPayload) (shim : RoutingShim) (index : Nat) (symbol : Bytes) :
    Except Panic (Nat × Bytes) :=
  match geometry.lengths[index]? with
  | none => .error .sliceIndexOutOfRange
  | some length =>
    if length.toNat ≤ symbol.length then do
      let bytes ← restoreShim (symbol.take length.toNat) shim
      .ok (length.toNat, bytes)
    else .error .sliceIndexOutOfRange

/-- One restored symbol: the Cell to output, unless it was delivered before. -/
def restoreCell (key : StripeKey) (geometry : ParityPayload) (stripe : DecodeStripe) (index : Nat)
    (symbol : Bytes) :
    Except Panic (Except String (Option (UInt16 × Nat × CellV2)) × DecodeStripe) :=
  match stripeSequence geometry.firstSequence index with
  | none => .ok (.error "V2 recovered Cell sequence overflow", stripe)
  | some sequence => do
    let (length, bytes) ← restoredBytes geometry stripe.routingShim index symbol
    match CellV2.decode bytes with
    | .error message => .ok (.error message, stripe)
    | .ok cell =>
      if StripeKey.fromCell cell = key ∧ cell.cellSequence = sequence then
        if sequence ∈ stripe.delivered then .ok (.ok none, stripe)
        else .ok (.ok (some (sequence, length, cell)),
          { stripe with delivered := insert sequence stripe.delivered })
      else .ok (.error "recovered V2 Cell identity mismatch", stripe)

/-- The loop over the restored symbols. What was marked as delivered stays so on an error. -/
def restoreCells (key : StripeKey) (geometry : ParityPayload) :
    List (Nat × Bytes) → DecodeStripe → List (UInt16 × Nat × CellV2) →
      Except Panic (Except String (List (UInt16 × Nat × CellV2)) × DecodeStripe)
  | [], stripe, output => .ok (.ok output, stripe)
  | (index, symbol) :: rest, stripe, output => do
    let (result, stripe) ← restoreCell key geometry stripe index symbol
    match result with
    | .error message => .ok (.error message, stripe)
    | .ok restored => restoreCells key geometry rest stripe (output ++ restored.toList)

variable (codec : ErasureCodec) (self : CellStripeDecoder)

/-- The part of `try_recover` behind the test for enough shards. -/
def recover (key : StripeKey) (stripe : DecodeStripe) (geometry : ParityPayload) :
    Except Panic (Answer (Option (List (UInt16 × Nat × CellV2)))) :=
  if codec.supports geometry.dataCells geometry.parityCells geometry.symbolBytes then do
    match ← expandOriginals stripe geometry (List.range geometry.dataCells) [] with
    | .error message => .ok (.error message, self)
    | .ok expanded =>
      let recoveries := stripe.recoveries.entries.map fun entry => (entry.1, entry.2)
      match codec.decode geometry.dataCells geometry.parityCells geometry.symbolBytes expanded
        recoveries with
      | .error message => .ok (.error message, self)
      | .ok restored => do
        let (result, stripe) ← restoreCells key geometry restored stripe []
        .ok (result.map some, { self with stripes := self.stripes.insert key stripe })
  else .ok (.error "unsupported V2 FEC decoder geometry", self)

def tryRecover (key : StripeKey) : Except Panic (Answer (Option (List (UInt16 × Nat × CellV2)))) :=
  match self.stripes.lookup key with
  | none => .ok (.error "missing V2 FEC stripe", self)
  | some stripe =>
    match stripe.geometry with
    | none => .ok (.ok none, self)
    | some geometry =>
      if present stripe geometry = geometry.dataCells ∨
          present stripe geometry + stripe.recoveries.size < geometry.dataCells then
        .ok (.ok none, self)
      else recover codec self key stripe geometry

/-! ### Completion -/

variable (self : CellStripeDecoder)

def stripeComplete (key : StripeKey) : Bool :=
  (self.stripes.lookup key).any fun stripe =>
    stripe.geometry.any fun geometry =>
      (List.range geometry.dataCells).all fun index =>
        (stripeSequence geometry.firstSequence index).any (· ∈ stripe.delivered)

/-- Drop the oldest completed stripes down to the stripe limit. -/
def trimCompleted (maximum : Nat) :
    List StripeKey → HashMap StripeKey Unit → List StripeKey × HashMap StripeKey Unit :=
  HashMap.dropOldest maximum

def complete (key : StripeKey) : CellStripeDecoder :=
  let self := self.removeStripe key
  let (completedOrder, completed) := trimCompleted self.maximumStripes
    (self.completedOrder ++ [key]) (self.completed.insert key ())
  { self with completedOrder, completed }

/-- Refresh a stripe that is still incomplete. -/
def touch (key : StripeKey) (now : Instant) : CellStripeDecoder :=
  match self.stripes.lookup key with
  | none => self
  | some stripe =>
    { self with
      stripes := self.stripes.insert key { stripe with updated := now }
      order := self.order ++ [(key, now)] }

/-! ### Pushing a datagram -/

/-- Keep a systematic Cell and put it out, unless it is a duplicate. -/
def storeData (key : StripeKey) (cell : CellV2) (bytes : Bytes)
    (output : FecDecodeOutputV2) : Except Panic (Answer FecDecodeOutputV2) :=
  match self.stripes.lookup key with
  | none => .error .missingEntry
  | some stripe =>
    match stripe.originals.lookup cell.cellSequence with
    | some existing =>
      if existing = bytes then .ok (.ok output, self)
      else .ok (.error "conflicting V2 FEC data Cell duplicate", self)
    | none => do
      match ← self.reserve bytes.length key with
      | (.error message, self) => .ok (.error message, self)
      | (.ok _, self) =>
        match self.stripes.lookup key with
        | none => .error .missingEntry
        | some stripe =>
          let stripe := { stripe with
            originals := stripe.originals.insert cell.cellSequence bytes
            delivered := insert cell.cellSequence stripe.delivered }
          .ok (.ok { output with cells := output.cells ++ [cell] }, { self with
            stripes := self.stripes.insert key stripe
            bufferedBytes := self.bufferedBytes + bytes.length })

/-- Keep a recovery symbol, unless it is a duplicate. -/
def storeRecovery (key : StripeKey) (stripe : DecodeStripe)
    (metadata : ParityPayload) : Except Panic (Answer Unit) :=
  match stripe.recoveries.lookup metadata.recoveryIndex with
  | some existing =>
    if existing = metadata.recovery then .ok (.ok (), self)
    else .ok (.error "conflicting V2 parity duplicate", self)
  | none => do
    match ← self.reserve metadata.recovery.length key with
    | (.error message, self) => .ok (.error message, self)
    | (.ok _, self) =>
      match self.stripes.lookup key with
      | none => .error .missingEntry
      | some stripe =>
        let stripe := { stripe with
          recoveries := stripe.recoveries.insert metadata.recoveryIndex metadata.recovery }
        .ok (.ok (), { self with
          stripes := self.stripes.insert key stripe
          bufferedBytes := self.bufferedBytes + metadata.recovery.length })

/-- The parity branch of `push_at`. -/
def storeParity (key : StripeKey) (shape : UInt16 × Nat)
    (payload : Bytes) : Except Panic (Answer Unit) :=
  match decodeParityPayload payload with
  | .error message => .ok (.error message, self)
  | .ok metadata =>
    if metadata.dataCells = shape.2 ∧ metadata.firstSequence = shape.1 then
      match self.stripes.lookup key with
      | none => .error .missingEntry
      | some stripe =>
        match stripe.geometry with
        | some existing =>
          if sameGeometry existing metadata then self.storeRecovery key stripe metadata
          else .ok (.error "V2 FEC stripe geometry changed", self)
        | none =>
          let stripe := { stripe with geometry := some metadata }
          { self with stripes := self.stripes.insert key stripe }.storeRecovery key stripe metadata
    else .ok (.error "V2 parity metadata disagrees with stripe ID", self)

/-- Store the Cell according to its kind. -/
def store (key : StripeKey) (shape : UInt16 × Nat) (cell : CellV2)
    (bytes : Bytes) (output : FecDecodeOutputV2) : Except Panic (Answer FecDecodeOutputV2) :=
  match cell.body with
  | .records _ => self.storeData key cell bytes output
  | .parity payload => do
    let (result, self) ← self.storeParity key shape payload
    .ok (result.map fun _ => { output with parityReceived := 1 }, self)

/-- `now - created` in microseconds, for the statistics. -/
def recoveryLatency (key : StripeKey) (now : Instant) : Nat :=
  (self.stripes.lookup key).elim 0 fun stripe => min ((now - stripe.created) / 1000) (2 ^ 64 - 1)

def addRecovered (key : StripeKey) (now : Instant)
    (output : FecDecodeOutputV2) : Option (List (UInt16 × Nat × CellV2)) → FecDecodeOutputV2
  | none => output
  | some recovered => { output with
      recoveryLatencyMicros := self.recoveryLatency key now
      recoveredCells := recovered.length
      decodeCopyBytes := (recovered.map fun entry => entry.2.1).sum
      cells := output.cells ++ recovered.map fun entry => entry.2.2 }

/-- The end of `push_at`: complete the stripe or refresh it. -/
def settle (key : StripeKey) (now : Instant)
    (output : FecDecodeOutputV2) : FecDecodeOutputV2 × CellStripeDecoder :=
  if self.stripeComplete key then
    let parityCount := (self.stripes.lookup key).elim 0 fun stripe => stripe.recoveries.size
    (if output.recoveredCells = 0 ∧ output.parityReceived ≠ 0 then
        { output with wastedParity := parityCount }
      else output, self.complete key)
  else (output, self.touch key now)

/-- The part of `push_at` behind the stripe lookup. -/
def pushStriped (codec : ErasureCodec) (self : CellStripeDecoder) (key : StripeKey)
    (shape : UInt16 × Nat) (cell : CellV2) (bytes : Bytes) (now : Instant)
    (output : FecDecodeOutputV2) : Except Panic (Answer FecDecodeOutputV2) := do
  match ← self.store key shape cell bytes output with
  | (.error message, self) => .ok (.error message, self)
  | (.ok output, self) =>
    match ← tryRecover codec self key with
    | (.error message, self) => .ok (.error message, self)
    | (.ok recovered, self) =>
      let (output, self) := self.settle key now (self.addRecovered key now output recovered)
      .ok (.ok output, self)

/-- `(first..first.saturating_add(data_cells as u16)).contains(&sequence)` -/
def insideStripe (shape : UInt16 × Nat) (sequence : UInt16) : Bool :=
  shape.1 ≤ sequence && sequence.toNat < min (shape.1.toNat + shape.2) 65535

/-- A Cell of a completed stripe only counts as wasted parity. -/
def lateOutput (cell : CellV2) (output : FecDecodeOutputV2) : FecDecodeOutputV2 :=
  match cell.body with
  | .parity _ => { output with parityReceived := 1, wastedParity := 1 }
  | .records _ => output

/-- The part of `push_at` behind the sweep, for a Cell with a stripe id. -/
def pushCell (cell : CellV2) (bytes : Bytes)
    (now : Instant) (output : FecDecodeOutputV2) : Except Panic (Answer FecDecodeOutputV2) :=
  let key := StripeKey.fromCell cell
  match decodeStripeId cell.stripeId with
  | .error message => .ok (.error message, self)
  | .ok shape =>
    if cell.kind = .data ∧ insideStripe shape cell.cellSequence = false then
      .ok (.error "V2 systematic Cell is outside its stripe", self)
    else if (self.completed.lookup key).isSome then .ok (.ok (lateOutput cell output), self)
    else match self.ensureStripe key now (cell.overlayHopLimit, cell.overlayHops) with
      | (.error message, self) => .ok (.error message, self)
      | (.ok _, self) => pushStriped codec self key shape cell bytes now output

def pushAt (bytes : Bytes) (now : Instant) : Except Panic (Answer FecDecodeOutputV2) :=
  match CellV2.decode bytes with
  | .error message => .ok (.error message, self)
  | .ok cell =>
    if cell.sessionEpoch = self.sessionEpoch then
      let (expiredStripes, self) := self.expire now
      let output : FecDecodeOutputV2 := { expiredStripes }
      if cell.stripeId = 0 then
        match cell.body with
        | .records _ => .ok (.ok { output with cells := [cell] }, self)
        | .parity _ => .ok (.error "unstriped V2 parity Cell", self)
      else pushCell codec self cell bytes now output
    else .ok (.error "V2 FEC Cell belongs to another session epoch", self)

/-! ### Repair candidates -/

/-- The data Cells of a stripe that were not delivered. -/
def missingSequences (stripe : DecodeStripe) : List UInt16 :=
  ((List.range stripe.repairShape.2).filterMap (stripeSequence stripe.repairShape.1)).filter
    (· ∉ stripe.delivered)

def wantsRepair (stripe : DecodeStripe) (now : Instant) (minimumAge : Duration) : Bool :=
  !stripe.repairRequested && decide (minimumAge ≤ now - stripe.updated) &&
    !(missingSequences stripe).isEmpty

def missingStripe (key : StripeKey) (stripe : DecodeStripe) : MissingStripeV2 where
  class' := key.class'
  sessionEpoch := key.sessionEpoch
  routeLabel := key.routeLabel
  trainId := key.trainId
  stripeId := key.stripeId
  missingSequences := missingSequences stripe

def repairCandidates
    (order : IterationOrder (Sigma fun _ : StripeKey => DecodeStripe)) (now : Instant)
    (minimumAge : Duration) : List MissingStripeV2 × CellStripeDecoder :=
  (((order.arrange self.stripes.entries).filter fun entry => wantsRepair entry.2 now minimumAge).map
      fun entry => missingStripe entry.1 entry.2,
    { self with stripes := self.stripes.mapValues fun _ stripe =>
        { stripe with
          repairRequested := stripe.repairRequested || wantsRepair stripe now minimumAge } })

end CellStripeDecoder

/-! ### Runs -/

/-- The public calls that change a decoder. -/
inductive DecoderCall where
  | pushAt (bytes : Bytes) (now : Instant)
  | expire (now : Instant)
  | setTtl (ttl : Duration) (now : Instant)
  | setMaximumBufferedBytes (maximum : Nat)
  | repairCandidates (order : IterationOrder (Sigma fun _ : StripeKey => DecodeStripe))
      (now : Instant) (minimumAge : Duration)

/-- The state a call leaves behind, whether it returned `Ok` or `Err`. -/
def CellStripeDecoder.call (codec : ErasureCodec) (self : CellStripeDecoder) :
    DecoderCall → Except Panic CellStripeDecoder
  | .pushAt bytes now => (self.pushAt codec bytes now).map Prod.snd
  | .expire now => .ok (self.expire now).2
  | .setTtl ttl now => .ok (self.setTtl ttl now).2
  | .setMaximumBufferedBytes maximum => .ok (self.setMaximumBufferedBytes maximum).2
  | .repairCandidates order now minimumAge => .ok (self.repairCandidates order now minimumAge).2

def CellStripeDecoder.run (codec : ErasureCodec) (self : CellStripeDecoder) :
    List DecoderCall → Except Panic CellStripeDecoder
  | [] => .ok self
  | next :: rest => do
    let self ← self.call codec next
    self.run codec rest

end Ironet.Fec
