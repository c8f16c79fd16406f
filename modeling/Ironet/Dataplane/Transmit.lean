
import Ironet.Scheduler.Fairness

/-!
# Sending the scheduler's work

Executable model of `V2Tx::send_next` in `protocol/v2/dataplane.rs`. A send selects work into
`pending`, tries to hand it to QUIC and forgets it when that returned. The future of a send can be
dropped while it waits; the selected work then stays in `pending`, and a Bulk quantum moves to
`preempted_bulk` when urgent work arrives before the next attempt.

The connection is represented by its answers: the live datagram maximum, what became of stream
writes and of datagrams. A dropped future is the answer `cancelled`, and nothing of the work was
admitted then. The control stream itself and the trace output are left out.
-/
namespace Ironet.Dataplane
open Support Cell Train Scheduler

structure PendingWork where
  work : ScheduledWork
  nextCell : Nat
  deriving DecidableEq, Repr

structure V2Tx where
  scheduler : V2Scheduler
  pending : Option PendingWork := none
  preemptedBulk : Option PendingWork := none

def V2Tx.new (limits : SchedulerLimits) : Except String V2Tx := do
  let scheduler ← V2Scheduler.new limits
  .ok { scheduler }

def depthIsEmpty (depth : SchedulerDepth) : Bool :=
  depth.controlBytes == 0 && depth.latencyBytes == 0 && depth.bulkBytes == 0 &&
    depth.probeBytes == 0

variable (tx : V2Tx)

def V2Tx.hasPending : Bool :=
  tx.pending.isSome || tx.preemptedBulk.isSome || !depthIsEmpty tx.scheduler.depth

/-! ### Selection -/

/-- A quantum that urgent work may overtake. -/
def PendingWork.isPreemptible (pending : PendingWork) : Bool :=
  match pending.work with
  | .cells quantum => quantum.class' = .bulk && !quantum.priority
  | _ => false

/-- The swap at the start of `send_next`. -/
def V2Tx.preempt : V2Tx :=
  if tx.preemptedBulk.isNone && tx.scheduler.hasStrictUrgent &&
      tx.pending.any PendingWork.isPreemptible then
    { tx with pending := none, preemptedBulk := tx.pending }
  else tx

variable (now : Scheduler.Instant)

/-- `scheduler.pop().map(..)`, with the work that was popped. -/
def V2Tx.popPending : Except Panic (Option ScheduledWork × V2Tx) := do
  let (work, scheduler) ← tx.scheduler.pop now
  .ok (work, { tx with scheduler, pending := work.map fun work => { work, nextCell := 0 } })

/-- Fill an empty `pending`. -/
def V2Tx.fill : Except Panic (Option ScheduledWork × V2Tx) :=
  if tx.pending.isSome then .ok (none, tx)
  else if tx.scheduler.hasStrictUrgent then tx.popPending now
  else match tx.preemptedBulk with
    | some interrupted =>
      .ok (none, { tx with pending := some interrupted, preemptedBulk := none })
    | none => tx.popPending now

def V2Tx.select : Except Panic (Option ScheduledWork × V2Tx) :=
  tx.preempt.fill now

/-! ### Submission -/

structure SendProgress where
  class' : Option TrafficClass := none
  flowId : Option UInt64 := none
  queueSojournMicros : Nat := 0
  bulkPreemption : Bool := false
  datagrams : Nat := 0
  bytes : Nat := 0
  droppedDatagrams : Nat := 0
  droppedBytes : Nat := 0
  coverPaddingBytes : Nat := 0
  dataCellDatagrams : Nat := 0
  dataCellBytes : Nat := 0
  dataCellPayloadBytes : Nat := 0
  fecDatagrams : Nat := 0
  fecBytes : Nat := 0
  trainStats : Option TrainBuildStats := none
  deriving DecidableEq, Repr

/-- What opening and writing the control stream led to. -/
inductive StreamAnswer where
  | written
  | failed (error : String)
  | cancelled
  deriving DecidableEq, Repr

inductive DatagramAnswer where
  | accepted
  | tooLarge
  | failed (error : String)
  | cancelled
  deriving DecidableEq, Repr

/-- The answers of the connection during one send. -/
structure Answers where
  maximum : Option Nat
  stream : StreamAnswer
  datagram : DatagramAnswer
  deriving DecidableEq, Repr

def submitControl (record : Bytes) : StreamAnswer → Option (Except String SendProgress)
  | .written => some (.ok { bytes := record.length })
  | .failed error => some (.error error)
  | .cancelled => none

def submitProbe (datagram : Bytes) (answers : Answers) : Option (Except String SendProgress) :=
  let dropped : SendProgress := { droppedDatagrams := 1, droppedBytes := datagram.length }
  if answers.maximum.getD 0 < datagram.length then some (.ok dropped)
  else match answers.datagram with
    | .accepted =>
      some (.ok { datagrams := 1, bytes := datagram.length, coverPaddingBytes := datagram.length })
    | .tooLarge => some (.ok dropped)
    | .failed error => some (.error ("sending V2 probe DATAGRAM failed: " ++ error))
    | .cancelled => none

/-- The progress of a quantum whose Cells `fitting` were handed over and `dropped` were not. -/
def quantumProgress (quantum : CellQuantum) (sent : Bool)
    (fitting dropped : List ScheduledCellV2) : SendProgress :=
  let fec := fitting.filter fun cell => cell.header.kind = .fecParity
  let data := fitting.filter fun cell => cell.header.kind ≠ .fecParity
  let payloadBytes := (data.map fun cell => cell.header.payloadLen.toNat).sum
  { class' := some quantum.class'
    flowId := some quantum.flowId
    queueSojournMicros := min (quantum.sojourn / 1000) (2 ^ 64 - 1)
    bulkPreemption := quantum.bulkPreemption
    datagrams := if sent then fitting.length else 0
    bytes := if sent then cellBytes fitting else 0
    droppedDatagrams := if sent then dropped.length else dropped.length + fitting.length
    droppedBytes := if sent then cellBytes dropped else cellBytes dropped + cellBytes fitting
    dataCellDatagrams := if sent then data.length else 0
    dataCellBytes := if sent then cellBytes data else 0
    dataCellPayloadBytes := if sent then payloadBytes else 0
    fecDatagrams := if sent then fec.length else 0
    fecBytes := if sent then cellBytes fec else 0
    trainStats := quantum.trainStats }

def submitCells (quantum : CellQuantum) (nextCell : Nat) (answers : Answers) :
    Option (Except String SendProgress) :=
  match answers.maximum with
  | none => some (.error "peer stopped supporting QUIC DATAGRAM")
  | some maximum =>
    let cells := quantum.cells.drop nextCell
    let fitting := cells.filter fun cell => cell.len ≤ maximum
    let dropped := cells.filter fun cell => maximum < cell.len
    -- a batch without Cells is not handed over, so nothing is awaited
    if fitting = [] then some (.ok (quantumProgress quantum false fitting dropped))
    else match answers.datagram with
      | .accepted => some (.ok (quantumProgress quantum true fitting dropped))
      | .tooLarge => some (.ok (quantumProgress quantum false fitting dropped))
      | .failed error => some (.error ("sending V2 Cell DATAGRAM batch failed: " ++ error))
      | .cancelled => none

/-- Hand over the pending work; `none` if the future was dropped while it waited. -/
def PendingWork.submit (pending : PendingWork) (answers : Answers) :
    Option (Except String SendProgress) :=
  match pending.work with
  | .control record => submitControl record answers.stream
  | .probe datagram => submitProbe datagram answers
  | .cells quantum => submitCells quantum pending.nextCell answers

/-- What a send came to. -/
inductive SendResult where
  | idle
  | cancelled
  | failed (error : String)
  | sent (work : ScheduledWork) (progress : SendProgress)
  deriving DecidableEq, Repr

/-- The part of `send_next` behind the selection. -/
def V2Tx.complete (answers : Answers) : SendResult × V2Tx :=
  match tx.pending with
  | none => (.idle, tx)
  | some pending =>
    match pending.submit answers with
    | none => (.cancelled, tx)
    | some (.error error) => (.failed error, tx)
    | some (.ok progress) => (.sent pending.work progress, { tx with pending := none })

def V2Tx.sendNext (answers : Answers) : Except Panic (SendResult × V2Tx) := do
  let (_, tx) ← tx.select now
  .ok (tx.complete answers)

/-! ### Runs -/

/-- Calls to the scheduler, all but `pop`, and sends in any order. -/
inductive TxEvent where
  | schedule (now : Scheduler.Instant) (call : SchedulerCall) (notPop : call.isPop = false)
  | send (now : Scheduler.Instant) (answers : Answers)

/-- The work that was popped and the work that was submitted, each in order. -/
structure TxLog where
  popped : List ScheduledWork := []
  submitted : List ScheduledWork := []
  deriving DecidableEq, Repr

def TxLog.append (first later : TxLog) : TxLog where
  popped := first.popped ++ later.popped
  submitted := first.submitted ++ later.submitted

def SendResult.submitted : SendResult → List ScheduledWork
  | .sent work _ => [work]
  | _ => []

def V2Tx.step : TxEvent → Except Panic (TxLog × V2Tx)
  | .schedule now call _ => do
    let scheduler ← tx.scheduler.call now call
    .ok ({}, { tx with scheduler })
  | .send now answers => do
    let (popped, tx) ← tx.select now
    let (result, tx) := tx.complete answers
    .ok ({ popped := popped.toList, submitted := result.submitted }, tx)

def V2Tx.run (tx : V2Tx) : List TxEvent → Except Panic (TxLog × V2Tx)
  | [] => .ok ({}, tx)
  | event :: rest => do
    let (first, tx) ← tx.step event
    let (later, tx) ← tx.run rest
    .ok (first.append later, tx)

/-- The work that both slots hold, the interrupted quantum first. -/
def V2Tx.held : List ScheduledWork :=
  (tx.preemptedBulk.toList ++ tx.pending.toList).map PendingWork.work

section
variable {limits : SchedulerLimits} {tx ty : V2Tx} {now : Scheduler.Instant}
  {popped : Option ScheduledWork}

/-! ### Slots -/

/-- A slot that holds work keeps it or gives it up; it gets new work only when it is empty. -/
def SlotKept (before after : Option PendingWork) : Prop :=
  before = none ∨ after = before ∨ after = none

theorem preempt_slots (tx : V2Tx) : SlotKept tx.pending tx.preempt.pending ∧
    SlotKept tx.preemptedBulk tx.preempt.preemptedBulk := by
  unfold V2Tx.preempt
  split
  · rename_i swaps
    simp only [Bool.and_eq_true, Option.isNone_iff_eq_none] at swaps
    exact ⟨.inr (.inr rfl), .inl swaps.1.1⟩
  · exact ⟨.inr (.inl rfl), .inr (.inl rfl)⟩

theorem fill_slots (filled : tx.fill now = .ok (popped, ty)) : SlotKept tx.pending ty.pending ∧
    SlotKept tx.preemptedBulk ty.preemptedBulk := by
  have popping : tx.pending = none → tx.popPending now = .ok (popped, ty) →
      SlotKept tx.pending ty.pending ∧ SlotKept tx.preemptedBulk ty.preemptedBulk := by
    intro empty ran
    simp only [V2Tx.popPending, do_eq_ok] at ran
    obtain ⟨⟨work, scheduler⟩, -, ran⟩ := ran
    obtain ⟨rfl, rfl⟩ := Prod.mk.inj ran
    exact ⟨.inl empty, .inr (.inl rfl)⟩
  unfold V2Tx.fill at filled
  split at filled
  · obtain ⟨rfl, rfl⟩ := ok_pair_inj filled
    exact ⟨.inr (.inl rfl), .inr (.inl rfl)⟩
  rename_i vacant
  have empty : tx.pending = none := by simpa using vacant
  split at filled
  · exact popping empty filled
  · split at filled
    · obtain ⟨rfl, rfl⟩ := ok_pair_inj filled
      exact ⟨.inl empty, .inr (.inr rfl)⟩
    · exact popping empty filled

/-! ### Nothing is lost -/

theorem preempt_held (tx : V2Tx) : tx.preempt.held = tx.held ∧
    tx.preempt.scheduler = tx.scheduler := by
  unfold V2Tx.preempt
  split
  · rename_i swaps
    simp only [Bool.and_eq_true, Option.isNone_iff_eq_none] at swaps
    simp [V2Tx.held, swaps.1.1]
  · exact ⟨rfl, rfl⟩

theorem popPending_eq_ok (empty : tx.pending = none)
    (ran : tx.popPending now = .ok (popped, ty)) :
    tx.scheduler.pop now = .ok (popped, ty.scheduler) ∧ ty.preemptedBulk = tx.preemptedBulk ∧
      ty.pending = (popped.map fun work => { work, nextCell := 0 }) ∧
      ty.held = tx.held ++ popped.toList := by
  simp only [V2Tx.popPending, do_eq_ok] at ran
  obtain ⟨⟨work, scheduler⟩, ran, isResult⟩ := ran
  obtain ⟨rfl, rfl⟩ := Prod.mk.inj isResult
  refine ⟨ran, rfl, rfl, ?_⟩
  cases work <;> simp [V2Tx.held, empty]

/-- Filling keeps what is there, pops, or takes the interrupted quantum up again. -/
inductive Fills (tx ty : V2Tx) (now : Scheduler.Instant) : Option ScheduledWork → Prop where
  | kept (occupied : tx.pending ≠ none) (same : ty = tx) : Fills tx ty now none
  | resumed (empty : tx.pending = none) (calm : tx.scheduler.hasStrictUrgent = false)
      {interrupted : PendingWork} (held : tx.preemptedBulk = some interrupted)
      (isResumed : ty = { tx with pending := some interrupted, preemptedBulk := none }) :
      Fills tx ty now none
  | popped {work : Option ScheduledWork} (empty : tx.pending = none)
      (turn : tx.scheduler.hasStrictUrgent = true ∨ tx.preemptedBulk = none)
      (ran : tx.scheduler.pop now = .ok (work, ty.scheduler))
      (same : ty.preemptedBulk = tx.preemptedBulk)
      (isPending : ty.pending = (work.map fun work => { work, nextCell := 0 }))
      (held : ty.held = tx.held ++ work.toList) : Fills tx ty now work

theorem fill_fills (filled : tx.fill now = .ok (popped, ty)) : Fills tx ty now popped := by
  unfold V2Tx.fill at filled
  split at filled
  · rename_i occupied
    obtain ⟨rfl, rfl⟩ := ok_pair_inj filled
    exact .kept (by rintro none; simp [none] at occupied) rfl
  rename_i vacant
  have empty : tx.pending = none := by simpa using vacant
  split at filled
  · rename_i urgent
    obtain ⟨ran, same, isPending, held⟩ := popPending_eq_ok empty filled
    exact .popped empty (.inl urgent) ran same isPending held
  rename_i calm
  split at filled
  · rename_i interrupted isHeld
    obtain ⟨rfl, rfl⟩ := ok_pair_inj filled
    exact .resumed empty (by simpa using calm) isHeld rfl
  · rename_i none
    obtain ⟨ran, same, isPending, held⟩ := popPending_eq_ok empty filled
    exact .popped empty (.inr none) ran same isPending held

theorem Fills.held (fills : Fills tx ty now popped) :
    (tx.held ++ popped.toList).Perm ty.held := by
  cases fills with
  | kept occupied same => simp [same]
  | resumed empty calm isHeld isResumed => simp [isResumed, V2Tx.held, empty, isHeld]
  | popped empty turn ran same isPending held => rw [held]

/-- Work leaves the slots when it was submitted, and only then. -/
theorem complete_held (tx : V2Tx) (answers : Answers) :
    tx.held.Perm ((tx.complete answers).1.submitted ++ (tx.complete answers).2.held) ∧
      (tx.complete answers).2.scheduler = tx.scheduler := by
  unfold V2Tx.complete
  split
  · exact ⟨List.Perm.refl _, rfl⟩
  rename_i pending isPending
  split
  · exact ⟨List.Perm.refl _, rfl⟩
  · exact ⟨List.Perm.refl _, rfl⟩
  · refine ⟨?_, rfl⟩
    simp only [V2Tx.held, isPending, Option.toList_some, Option.toList_none, List.append_nil,
      List.map_append, List.map_cons, List.map_nil, SendResult.submitted]
    exact List.perm_append_comm

/-! ### Runs -/

section
variable (sound : Sound limits tx.scheduler)
include sound

theorem select_returns (now : Scheduler.Instant) :
    ∃ popped ty, tx.select now = .ok (popped, ty) ∧ Fills tx.preempt ty now popped ∧
      Sound limits ty.scheduler := by
  obtain ⟨-, same⟩ := preempt_held tx
  obtain ⟨_, ran, -⟩ := pop_works now (same ▸ sound.accounting)
  have filled : ∃ popped ty, tx.preempt.fill now = .ok (popped, ty) := by
    unfold V2Tx.fill V2Tx.popPending
    rw [ran, ok_bind]
    split
    · exact ⟨_, _, rfl⟩
    split
    · exact ⟨_, _, rfl⟩
    · split <;> exact ⟨_, _, rfl⟩
  obtain ⟨popped, ty, filled⟩ := filled
  have fills := fill_fills filled
  refine ⟨popped, ty, filled, fills, ?_⟩
  cases fills with
  | kept occupied isSame => rw [isSame, same]; exact sound
  | resumed empty calm isHeld isResumed => rw [isResumed]; exact same ▸ sound
  | popped empty turn ran same' isPending held =>
    rw [same] at ran
    refine run_sound sound [(now, .pop)] ?_
    simp only [V2Scheduler.run, V2Scheduler.call, ran]
    rfl

theorem step_returns (event : TxEvent) :
    ∃ log ty, tx.step event = .ok (log, ty) ∧ Sound limits ty.scheduler ∧
      (tx.held ++ log.popped).Perm (log.submitted ++ ty.held) := by
  cases event with
  | schedule now call notPop =>
    obtain ⟨seen, scheduler, -, called, kept, -⟩ := call_effect sound now call
    refine ⟨{}, { tx with scheduler }, ?_, kept, ?_⟩
    · simp only [V2Tx.step, called, ok_bind]
    · simp [V2Tx.held]
  | send now answers =>
  obtain ⟨popped, ty, selected, fills, kept⟩ := select_returns sound now
  obtain ⟨left, same⟩ := complete_held ty answers
  refine ⟨{ popped := popped.toList, submitted := (ty.complete answers).1.submitted },
    (ty.complete answers).2, ?_, same ▸ kept, ?_⟩
  · simp only [V2Tx.step, selected, ok_bind]
  · rw [← (preempt_held tx).1]
    exact fills.held.trans left

theorem run_returns (events : List TxEvent) :
    ∃ log ty, tx.run events = .ok (log, ty) ∧ Sound limits ty.scheduler ∧
      (tx.held ++ log.popped).Perm (log.submitted ++ ty.held) := by
  induction events generalizing tx with
  | nil => exact ⟨{}, tx, rfl, sound, by simp⟩
  | cons event rest ih =>
  obtain ⟨first, ty, stepped, kept, before⟩ := step_returns sound event
  obtain ⟨later, tz, ran, final, after⟩ := ih kept
  refine ⟨first.append later, tz, ?_, final, ?_⟩
  · simp only [V2Tx.run, stepped, ok_bind, ran]
  simp only [TxLog.append]
  rw [← List.append_assoc]
  refine (before.append_right later.popped).trans ?_
  rw [List.append_assoc, List.append_assoc]
  exact after.append_left _

end

theorem V2Tx.new_sound (made : V2Tx.new limits = .ok tx) :
    Sound limits tx.scheduler ∧ tx = { scheduler := { limits } } := by
  simp only [V2Tx.new, do_eq_ok] at made
  obtain ⟨scheduler, created, rfl⟩ := made
  refine ⟨Scheduler.new_sound created, ?_⟩
  simp only [V2Scheduler.new, do_eq_ok] at created
  obtain ⟨-, rfl⟩ := created
  rfl

end

/-- Neither slot is overwritten while it is occupied, in the swap and in the filling of a send. -/
def V2Tx.SlotsSafe (tx : V2Tx) : Prop :=
  ∀ now, ∃ popped ty, tx.preempt.fill now = .ok (popped, ty) ∧
    SlotKept tx.pending tx.preempt.pending ∧
    SlotKept tx.preemptedBulk tx.preempt.preemptedBulk ∧
    SlotKept tx.preempt.pending ty.pending ∧
    SlotKept tx.preempt.preemptedBulk ty.preemptedBulk

/-- Every interleaving of scheduler calls, sends, completions and cancellations accounts for the
work it popped: each unit was submitted once or is held in a slot, and no slot is overwritten. -/
theorem transmit_conserves (limits : SchedulerLimits) (tx : V2Tx)
    (made : V2Tx.new limits = .ok tx) (events : List TxEvent) :
    ∃ log ty, tx.run events = .ok (log, ty) ∧ log.popped.Perm (log.submitted ++ ty.held) ∧
      ty.SlotsSafe := by
  obtain ⟨sound, rfl⟩ := V2Tx.new_sound made
  obtain ⟨log, ty, ran, kept, balanced⟩ := run_returns sound events
  refine ⟨log, ty, ran, balanced, fun now => ?_⟩
  obtain ⟨popped, tz, selected, -, -⟩ := select_returns kept now
  obtain ⟨pending, preempted⟩ := preempt_slots ty
  obtain ⟨filledPending, filledPreempted⟩ := fill_slots selected
  exact ⟨popped, tz, selected, pending, preempted, filledPending, filledPreempted⟩

def cancelledBulk : List TxEvent :=
  [.schedule 0 (.enqueueForwardedCells 1 [transitCell .bulk 1 4]) rfl,
    .send 1 { maximum := some 1400, stream := .written, datagram := .cancelled }]

theorem transmit_conserves_cancelled :
    V2Tx.new {} = .ok { scheduler := { limits := {} } } ∧
    ∃ log ty, V2Tx.run { scheduler := { limits := {} } } cancelledBulk = .ok (log, ty) ∧
      log.popped.Perm (log.submitted ++ ty.held) ∧ ty.SlotsSafe :=
  ⟨rfl, transmit_conserves {} _ rfl cancelledBulk⟩

end Ironet.Dataplane
