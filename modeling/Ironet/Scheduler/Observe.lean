import Ironet.Scheduler.Accounting

/-!
# What the callers of a scheduler see

Callers see what was accepted and what a pop returned. All calls that enqueue a train build a cursor
and enqueue it, so what one call can do is said once, in `Performs`; every statement about runs
goes by its cases.
-/
namespace Ironet.Scheduler
open Support Cell Train TrainCursor

/-- What happens in a run. All but evictions are seen by the callers. -/
inductive SchedulerEvent where
  | control (bytes : Bytes)
  | probe (bytes : Bytes)
  | train (cursor : TrainCursor)
  | work (work : ScheduledWork)
  | evicted (flowId : UInt64)
  deriving DecidableEq, Repr

def SchedulerEvent.isVisible : SchedulerEvent → Bool
  | .evicted _ => false
  | _ => true

/-! ### What an event says -/

namespace SchedulerEvent

def train? : SchedulerEvent → Option TrainCursor
  | .train cursor => some cursor
  | _ => none

def quantum? : SchedulerEvent → Option CellQuantum
  | .work (.cells quantum) => some quantum
  | _ => none

def controlIn? : SchedulerEvent → Option Bytes
  | .control bytes => some bytes
  | _ => none

def controlOut? : SchedulerEvent → Option Bytes
  | .work (.control bytes) => some bytes
  | _ => none

def probeIn? : SchedulerEvent → Option Bytes
  | .probe bytes => some bytes
  | _ => none

def probeOut? : SchedulerEvent → Option Bytes
  | .work (.probe bytes) => some bytes
  | _ => none

end SchedulerEvent

/-! ### What a call shows -/

variable (built : Except String TrainCursor) (outcome : Except String Bool × V2Scheduler)

/-- A train that was accepted, with the outcome of its call. -/
def admission : List SchedulerEvent × V2Scheduler :=
  match outcome.1, built with
  | .ok true, .ok cursor => ([.train cursor.admitted], outcome.2)
  | _, _ => ([], outcome.2)

variable (s : V2Scheduler)

/-- A call with what its caller sees of it. -/
def V2Scheduler.perform (now : Instant) (call : SchedulerCall) :
    Except Panic (List SchedulerEvent × V2Scheduler) :=
  match call with
  | .enqueueControl bytes =>
    let (accepted, s) := s.enqueueControl bytes
    .ok (if accepted then [.control bytes] else [], s)
  | .enqueueProbe bytes =>
    let (accepted, s) := s.enqueueProbe bytes
    .ok (if accepted then [.probe bytes] else [], s)
  | .enqueueTrain flowId train maximum =>
    (s.enqueueTrain now flowId train maximum).map (admission (call.cursor now))
  | .enqueueTrainWithDeadline flowId train maximum deadline =>
    (s.enqueueTrainWithDeadline now flowId train maximum deadline).map
      (admission (call.cursor now))
  | .enqueueTrainWithScheduling flowId train maximum deadline priority =>
    (s.enqueueTrainWithScheduling now flowId train maximum deadline priority).map
      (admission (call.cursor now))
  | .enqueueEncodedTrain flowId class' trainId cells stats =>
    (s.enqueueEncodedTrain now flowId class' trainId cells stats).map (admission (call.cursor now))
  | .enqueueEncodedTrainWithDeadline flowId class' trainId cells stats deadline =>
    (s.enqueueEncodedTrainWithDeadline now flowId class' trainId cells stats deadline).map
      (admission (call.cursor now))
  | .enqueueEncodedTrainWithScheduling flowId class' trainId cells stats deadline priority =>
    (s.enqueueEncodedTrainWithScheduling now flowId class' trainId cells stats deadline
      priority).map (admission (call.cursor now))
  | .enqueueForwardedCells flowId cells =>
    (s.enqueueForwardedCells now flowId cells).map (admission (call.cursor now))
  | .pop => (s.pop now).map fun (work, s) => (work.toList.map .work, s)
  | .setBulkQuantumCells cells => .ok ([], (s.setBulkQuantumCells cells).2)

/-- What the callers of a run see. -/
def V2Scheduler.observe (s : V2Scheduler) :
    List (Instant × SchedulerCall) → Except Panic (List SchedulerEvent × V2Scheduler)
  | [] => .ok ([], s)
  | (now, call) :: rest => do
    let (events, s) ← s.perform now call
    let (later, s) ← s.observe rest
    .ok (events ++ later, s)

theorem admission_snd : (admission built outcome).2 = outcome.2 := by
  unfold admission
  split <;> rfl

theorem map_admission (outcome : Outcome Bool) (built : Except String TrainCursor) :
    (outcome.map (admission built)).map Prod.snd = outcome.map Prod.snd := by
  cases outcome with
  | error panic => rfl
  | ok result => exact congrArg Except.ok (admission_snd built result)

theorem perform_map_snd (now : Instant) (call : SchedulerCall) :
    (s.perform now call).map Prod.snd = s.call now call := by
  cases call with
  | enqueueControl bytes => rfl
  | enqueueProbe bytes => rfl
  | enqueueTrain | enqueueTrainWithDeadline | enqueueTrainWithScheduling | enqueueEncodedTrain
  | enqueueEncodedTrainWithDeadline | enqueueEncodedTrainWithScheduling
  | enqueueForwardedCells => exact map_admission _ _
  | pop =>
    simp only [V2Scheduler.perform, V2Scheduler.call]
    cases s.pop now <;> rfl
  | setBulkQuantumCells cells => rfl

/-! ### What a call can do -/

def SchedulerCall.isPop : SchedulerCall → Bool
  | .pop => true
  | _ => false

/-- The calls of a scheduler by their effect, with what the caller sees. -/
inductive Performs (s : V2Scheduler) (now : Instant) :
    Bool → List SchedulerEvent → V2Scheduler → Prop where
  | control (bytes : Bytes) :
      Performs s now false (if (s.enqueueControl bytes).1 then [.control bytes] else [])
        (s.enqueueControl bytes).2
  | probe (bytes : Bytes) :
      Performs s now false (if (s.enqueueProbe bytes).1 then [.probe bytes] else [])
        (s.enqueueProbe bytes).2
  | refused : Performs s now false [] s
  | train {cursor : TrainCursor} {result : Except String Bool} {t : V2Scheduler}
      (accounted : cursor.Accounted) (ran : s.enqueueCursor cursor = .ok (result, t)) :
      Performs s now false (if result = .ok true then [.train cursor.admitted] else []) t
  | pop {work : Option ScheduledWork} {t : V2Scheduler} (ran : s.pop now = .ok (work, t)) :
      Performs s now true (work.toList.map .work) t
  | tune (cells : Nat) : Performs s now false [] (s.setBulkQuantumCells cells).2

theorem setBulkQuantumCells_queues (cells : Nat) :
    (s.setBulkQuantumCells cells).2.queues = s.queues := by
  unfold V2Scheduler.setBulkQuantumCells
  split <;> rfl

variable {s t : V2Scheduler} {now : Instant} {call : SchedulerCall}

variable {seen : List SchedulerEvent}

theorem enqueueBuilt_performs (flowId : UInt64) (call : SchedulerCall)
    (ran : (s.enqueueBuilt flowId (call.cursor now)).map (admission (call.cursor now)) =
      .ok (seen, t)) :
    Performs s now false seen t := by
  have accounted : ∀ cursor, call.cursor now = .ok cursor → cursor.Accounted :=
    fun _ => SchedulerCall.cursor_accounted
  generalize call.cursor now = built at ran accounted
  unfold V2Scheduler.enqueueBuilt at ran
  cases checked : (do ensure (flowId ≠ 0) "V2 flow ID zero is reserved"; built :
      Except String TrainCursor) with
  | error message =>
    rw [checked] at ran
    obtain ⟨rfl, rfl⟩ := ok_pair_inj ran
    exact .refused
  | ok cursor =>
  rw [checked] at ran
  simp only [do_eq_ok] at checked
  obtain ⟨-, rfl⟩ := checked
  dsimp only at ran
  cases enqueued : s.enqueueCursor cursor with
  | error panic =>
    rw [enqueued] at ran
    cases ran
  | ok outcome =>
  rw [enqueued] at ran
  obtain ⟨result, u⟩ := outcome
  have performs : Performs s now false
      (if result = .ok true then [.train cursor.admitted] else []) u :=
    .train (accounted cursor rfl) enqueued
  by_cases accepted : result = .ok true
  · subst accepted
    obtain ⟨rfl, rfl⟩ := ok_pair_inj ran
    exact performs
  rw [if_neg accepted] at performs
  have hidden : admission (.ok cursor) (result, u) = ([], u) := by
    unfold admission
    split
    · contradiction
    · rfl
  obtain ⟨rfl, rfl⟩ := Prod.mk.inj (hidden.symm.trans (Except.ok.inj ran))
  exact performs

theorem perform_performs (performed : s.perform now call = .ok (seen, t)) :
    Performs s now call.isPop seen t := by
  cases call with
  | enqueueControl bytes =>
    obtain ⟨rfl, rfl⟩ := ok_pair_inj performed
    exact .control bytes
  | enqueueProbe bytes =>
    obtain ⟨rfl, rfl⟩ := ok_pair_inj performed
    exact .probe bytes
  | pop =>
    simp only [V2Scheduler.perform] at performed
    cases popped : s.pop now with
    | error panic =>
      rw [popped] at performed
      cases performed
    | ok outcome =>
      rw [popped] at performed
      obtain ⟨rfl, rfl⟩ := ok_pair_inj performed
      exact .pop popped
  | setBulkQuantumCells cells =>
    obtain ⟨rfl, rfl⟩ := ok_pair_inj performed
    exact .tune cells
  | enqueueTrain flowId | enqueueTrainWithDeadline flowId | enqueueTrainWithScheduling flowId
  | enqueueEncodedTrain flowId | enqueueEncodedTrainWithDeadline flowId
  | enqueueEncodedTrainWithScheduling flowId | enqueueForwardedCells flowId =>
    simp only [V2Scheduler.perform] at performed
    exact enqueueBuilt_performs flowId _ performed

/-- A call on an accounted state returns, does one of these and keeps the account. -/
theorem perform_returns {s : V2Scheduler} (now : Instant) (call : SchedulerCall)
    (valid : Accounting s) :
    ∃ seen t, s.perform now call = .ok (seen, t) ∧ s.call now call = .ok t ∧
      Performs s now call.isPop seen t ∧ Accounting t := by
  obtain ⟨t, called, kept⟩ := call_accounting s now call valid
  have same := perform_map_snd s now call
  rw [called] at same
  cases performed : s.perform now call with
  | error panic =>
    rw [performed] at same
    cases same
  | ok outcome =>
    rw [performed] at same
    obtain ⟨seen, u⟩ := outcome
    obtain rfl : u = t := Except.ok.inj same
    exact ⟨seen, u, rfl, called, perform_performs performed, kept⟩

end Ironet.Scheduler
