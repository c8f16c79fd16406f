import Ironet.Scheduler.Observe
import Ironet.Support.Pick

/-!
# The ledger of a run

Two trains can be equal, so what became of a train is told by a ticket with the number of its
admission. The ledger is written from the history of a run: it follows the queues ticket by ticket
and notes every quantum with the ticket it belongs to. Along every run the queues of the scheduler
are those of the ledger, and the ledger balances: no Cell is lost, doubled or out of order.
-/
namespace Ironet.Scheduler
open Support Cell Train Function List

structure Ticket where
  number : Nat
  train : TrainCursor
  deriving DecidableEq, Repr

structure Ledger where
  admitted : List Ticket := []
  emitted : List (Ticket × CellQuantum) := []
  evicted : List Ticket := []
  latency : List Ticket := []
  bulk : UInt64 → List Ticket := fun _ => []

namespace Ledger

variable (ledger : Ledger) (ticket : Ticket)

def quantaOf : List CellQuantum :=
  (ledger.emitted.filter fun entry => entry.1 = ticket).map Prod.snd

/-- The Cells of a train that were emitted, in the order of emission. -/
def sent : List ScheduledCellV2 :=
  (ledger.quantaOf ticket).flatMap CellQuantum.cells

def remaining : List ScheduledCellV2 :=
  ticket.train.cells.drop (ledger.sent ticket).length

/-- The cursor of a ticket as it stands in its queue. -/
def cursor : TrainCursor :=
  { ticket.train with
    cells := ledger.remaining ticket
    bytes := cellBytes (ledger.remaining ticket)
    stats := if ledger.quantaOf ticket = [] then ticket.train.stats else none }

variable (quantum : CellQuantum)

def emit : Ledger :=
  { ledger with emitted := ledger.emitted ++ [(ticket, quantum)] }

/-- A ticket leaves the front of its queue with the last Cell. -/
def keep (ticket : Ticket) (behind : List Ticket) : List Ticket :=
  if quantum.trainFinished then behind else ticket :: behind

/-- A quantum belongs to the front of its queue. -/
def serveCells : Ledger :=
  match quantum.class' with
  | .latency =>
    match ledger.latency with
    | [] => ledger
    | ticket :: behind =>
      { ledger.emit ticket quantum with latency := keep quantum ticket behind }
  | .bulk =>
    match ledger.bulk quantum.flowId with
    | [] => ledger
    | ticket :: behind =>
      { ledger.emit ticket quantum with
        bulk := Function.update ledger.bulk quantum.flowId (keep quantum ticket behind) }

def book (train : TrainCursor) : Ledger :=
  let ticket : Ticket := ⟨ledger.admitted.length, train⟩
  match train.class' with
  | .latency =>
    { ledger with
      admitted := ledger.admitted ++ [ticket]
      latency := ledger.latency.insertIdx
        (ledger.latency.findIdx fun queued =>
          queued.train.yieldsTo train.priority (train.deadline.getD 0)) ticket }
  | .bulk =>
    { ledger with
      admitted := ledger.admitted ++ [ticket]
      bulk := Function.update ledger.bulk train.flowId (ledger.bulk train.flowId ++ [ticket]) }

/-- The newest ticket of a flow is removed. -/
def evict (flowId : UInt64) : Ledger :=
  match (ledger.bulk flowId).getLast? with
  | none => ledger
  | some ticket =>
    { ledger with
      evicted := ledger.evicted ++ [ticket]
      bulk := Function.update ledger.bulk flowId (ledger.bulk flowId).dropLast }

def record : SchedulerEvent → Ledger
  | .train train => ledger.book train
  | .work (.cells quantum) => ledger.serveCells quantum
  | .evicted flowId => ledger.evict flowId
  | _ => ledger

def of (history : List SchedulerEvent) : Ledger := history.foldl record {}

end Ledger

/-! ### What a balanced ledger says -/

/-- The quanta of a train: a prefix of its Cells in order, the finishing mark on the quantum with
the last Cell and the statistics on the first quantum. -/
structure QuantaOk (train : TrainCursor) (quanta : List CellQuantum) : Prop where
  sent : quanta.flatMap CellQuantum.cells <+: train.cells
  each : ∀ front quantum back, quanta = front ++ quantum :: back →
    quantum.cells ≠ [] ∧ quantum.class' = train.class' ∧ quantum.flowId = train.flowId ∧
      quantum.trainId = train.trainId ∧
      (quantum.trainFinished = true ↔
        (front ++ [quantum]).flatMap CellQuantum.cells = train.cells) ∧
      quantum.trainStats = if front = [] then train.stats else none

/-- Entries of one Bulk flow are in the order of admission. -/
def InOrder (earlier later : Ticket) : Prop :=
  earlier.train.class' = .bulk → later.train.class' = .bulk →
    earlier.train.flowId = later.train.flowId → earlier.number ≤ later.number

/-- The queues are those of the ledger, and every admitted train is accounted for. -/
structure Ledger.Tracks (ledger : Ledger) (queues : SchedulerQueues) : Prop where
  latency : queues.latency = ledger.latency.map ledger.cursor
  bulk : ∀ flowId, queues.bulk flowId = (ledger.bulk flowId).map ledger.cursor
  numbers : ledger.admitted.map Ticket.number = List.range ledger.admitted.length
  quanta : ∀ ticket ∈ ledger.admitted, QuantaOk ticket.train (ledger.quantaOf ticket)
  emitted : ∀ entry ∈ ledger.emitted, entry.1 ∈ ledger.admitted
  inLatency : ∀ ticket ∈ ledger.latency, ticket ∈ ledger.admitted ∧ ticket.train.class' = .latency
  inBulk : ∀ flowId, ∀ ticket ∈ ledger.bulk flowId,
    ticket ∈ ledger.admitted ∧ ticket.train.class' = .bulk ∧ ticket.train.flowId = flowId
  inEvicted : ∀ ticket ∈ ledger.evicted,
    ticket ∈ ledger.admitted ∧ ticket.train.class' = .bulk ∧
      ticket ∉ ledger.bulk ticket.train.flowId
  latencyOnce : ledger.latency.Nodup
  evictedOnce : ledger.evicted.Nodup
  bulkOrder : ∀ flowId, (ledger.bulk flowId).Pairwise fun older newer => older.number < newer.number
  emittedOrder : (ledger.emitted.map Prod.fst).Pairwise InOrder
  servedFirst : ∀ entry ∈ ledger.emitted, ∀ flowId, ∀ ticket ∈ ledger.bulk flowId,
    InOrder entry.1 ticket
  covered : ∀ ticket ∈ ledger.admitted, ledger.remaining ticket = [] ∨ ticket ∈ ledger.latency ∨
    ticket ∈ ledger.bulk ticket.train.flowId ∨ ticket ∈ ledger.evicted
  evictedBytes : queues.evictedBytes =
    (ledger.evicted.map fun ticket => cellBytes (ledger.remaining ticket)).sum

namespace Ledger

variable {ledger : Ledger} {queues : SchedulerQueues} {ticket other : Ticket}
  {quantum : CellQuantum}

/-! ### Emitting a quantum -/

theorem quantaOf_emit_self :
    (ledger.emit ticket quantum).quantaOf ticket = ledger.quantaOf ticket ++ [quantum] := by
  simp [quantaOf, emit]

theorem quantaOf_emit_other (different : other ≠ ticket) :
    (ledger.emit ticket quantum).quantaOf other = ledger.quantaOf other := by
  simp [quantaOf, emit, Ne.symm different]

theorem remaining_emit_self : (ledger.emit ticket quantum).remaining ticket =
      (ledger.remaining ticket).drop quantum.cells.length := by
  simp [remaining, sent, quantaOf_emit_self, drop_drop]

theorem remaining_emit_other (different : other ≠ ticket) :
    (ledger.emit ticket quantum).remaining other = ledger.remaining other := by
  simp [remaining, sent, quantaOf_emit_other different]

theorem cursor_emit_self : (ledger.emit ticket quantum).cursor ticket =
      (ledger.cursor ticket).advance quantum.cells := by
  simp [cursor, TrainCursor.advance, remaining_emit_self, quantaOf_emit_self]

theorem cursor_emit_other (different : other ≠ ticket) :
    (ledger.emit ticket quantum).cursor other = ledger.cursor other := by
  simp [cursor, remaining_emit_other different, quantaOf_emit_other different]

theorem map_cursor_emit {tickets : List Ticket} (absent : ticket ∉ tickets) :
    tickets.map (ledger.emit ticket quantum).cursor = tickets.map ledger.cursor := by
  refine map_congr_left fun other member => cursor_emit_other ?_
  rintro rfl
  exact absent member

theorem sent_append_remaining (ok : QuantaOk ticket.train (ledger.quantaOf ticket)) :
    ledger.sent ticket ++ ledger.remaining ticket = ticket.train.cells :=
  prefix_append_drop ok.sent |>.symm

variable {behind after : List TrainCursor}

theorem quantaOk_emit (ok : QuantaOk ticket.train (ledger.quantaOf ticket))
    (serves : Serves (ledger.cursor ticket) behind quantum after)
    (isClass : quantum.class' = ticket.train.class')
    (isFlow : quantum.flowId = ticket.train.flowId) :
    QuantaOk ticket.train ((ledger.emit ticket quantum).quantaOf ticket) := by
  have whole := sent_append_remaining ok
  have taken : quantum.cells ++ (ledger.remaining ticket).drop quantum.cells.length =
      ledger.remaining ticket := (prefix_append_drop serves.taken).symm
  have total : (ledger.quantaOf ticket ++ [quantum]).flatMap CellQuantum.cells =
      ledger.sent ticket ++ quantum.cells := by
    simp [sent]
  rw [quantaOf_emit_self]
  constructor
  · rw [total]
    refine ⟨(ledger.remaining ticket).drop quantum.cells.length, ?_⟩
    rw [append_assoc, taken, whole]
  refine forall_split_concat.mpr ⟨ok.each, serves.nonempty, isClass, isFlow, serves.trainId, ?_,
    serves.stats⟩
  -- the quantum is the last one exactly if nothing remains behind it
  have isFinished := serves.finished
  change quantum.trainFinished =
    ((ledger.remaining ticket).drop quantum.cells.length).isEmpty at isFinished
  generalize (ledger.remaining ticket).drop quantum.cells.length = behind at taken isFinished
  rw [isFinished, total, ← whole, ← taken, List.isEmpty_iff, List.append_cancel_left_eq,
    self_eq_append_right]

/-! ### Serving the front of a queue -/

/-- The ticket that is served stays in its queue until its last Cell; every other ticket stays. -/
structure Keeps (ledger : Ledger) (ticket : Ticket) (quantum : CellQuantum)
    (latency : List Ticket) (bulk : UInt64 → List Ticket) : Prop where
  latencyPart : latency.Sublist ledger.latency
  bulkPart : ∀ flowId, (bulk flowId).Sublist (ledger.bulk flowId)
  latencyKept : ∀ other ∈ ledger.latency, other ≠ ticket → other ∈ latency
  bulkKept : ∀ flowId, ∀ other ∈ ledger.bulk flowId, other ≠ ticket → other ∈ bulk flowId
  unfinished : quantum.trainFinished = false → ticket ∈ latency ∨ ticket ∈ bulk ticket.train.flowId

theorem Tracks.serve (tracks : ledger.Tracks queues) {after : SchedulerQueues}
    {behind left : List TrainCursor} {latency : List Ticket} {bulk : UInt64 → List Ticket}
    (known : ticket ∈ ledger.admitted) (standing : ticket ∉ ledger.evicted)
    (serves : Serves (ledger.cursor ticket) behind quantum left)
    (isClass : quantum.class' = ticket.train.class') (isFlow : quantum.flowId = ticket.train.flowId)
    (keeps : Keeps ledger ticket quantum latency bulk)
    (first : ∀ entry ∈ ledger.emitted, InOrder entry.1 ticket)
    (next : ∀ flowId, ∀ other ∈ bulk flowId, InOrder ticket other)
    (isLatency : after.latency = latency.map (ledger.emit ticket quantum).cursor)
    (isBulk : ∀ flowId, after.bulk flowId =
      (bulk flowId).map (ledger.emit ticket quantum).cursor)
    (isEvicted : after.evictedBytes = queues.evictedBytes) :
    Tracks { ledger.emit ticket quantum with latency, bulk } after where
  latency := isLatency
  bulk := isBulk
  numbers := tracks.numbers
  quanta := by
    intro other member
    by_cases same : other = ticket
    · subst same
      exact quantaOk_emit (tracks.quanta other member) serves isClass isFlow
    · have untouched : (ledger.emit ticket quantum).quantaOf other = ledger.quantaOf other :=
        quantaOf_emit_other same
      exact untouched ▸ tracks.quanta other member
  emitted := forall_mem_append.mpr ⟨tracks.emitted, forall_mem_singleton.mpr known⟩
  inLatency other member := tracks.inLatency other (keeps.latencyPart.mem member)
  inBulk flowId other member := tracks.inBulk flowId other ((keeps.bulkPart flowId).mem member)
  inEvicted other member := by
    obtain ⟨isKnown, isBulkTrain, gone⟩ := tracks.inEvicted other member
    exact ⟨isKnown, isBulkTrain, fun back => gone ((keeps.bulkPart _).mem back)⟩
  latencyOnce := tracks.latencyOnce.sublist keeps.latencyPart
  evictedOnce := tracks.evictedOnce
  bulkOrder flowId := (tracks.bulkOrder flowId).sublist (keeps.bulkPart flowId)
  emittedOrder := by
    simp only [emit, map_append, map_cons, map_nil]
    refine pairwise_append.mpr ⟨tracks.emittedOrder, pairwise_singleton _ _, ?_⟩
    exact forall_mem_map.mpr fun entry member => forall_mem_singleton.mpr (first entry member)
  servedFirst := by
    refine forall_mem_append.mpr ⟨?_, forall_mem_singleton.mpr next⟩
    intro entry old flowId other queued
    exact tracks.servedFirst entry old flowId other ((keeps.bulkPart flowId).mem queued)
  covered := by
    intro other member
    by_cases same : other = ticket
    · subst same
      cases finished : quantum.trainFinished with
      | true =>
        rw [serves.finished, List.isEmpty_iff] at finished
        exact .inl (remaining_emit_self.trans finished)
      | false =>
        rcases keeps.unfinished finished with inLatency | inBulk
        · exact .inr (.inl inLatency)
        · exact .inr (.inr (.inl inBulk))
    rcases tracks.covered other member with done | inLatency | inBulk | isOut
    · exact .inl ((remaining_emit_other same).trans done)
    · exact .inr (.inl (keeps.latencyKept other inLatency same))
    · exact .inr (.inr (.inl (keeps.bulkKept _ other inBulk same)))
    · exact .inr (.inr (.inr isOut))
  evictedBytes := by
    rw [isEvicted, tracks.evictedBytes]
    refine congrArg List.sum (map_congr_left fun other member => ?_)
    refine congrArg cellBytes (remaining_emit_other ?_).symm
    rintro rfl
    exact standing member

theorem map_keep {behind : List Ticket} (absent : ticket ∉ behind) :
    (keep quantum ticket behind).map (ledger.emit ticket quantum).cursor =
      if quantum.trainFinished then behind.map ledger.cursor
      else (ledger.cursor ticket).advance quantum.cells :: behind.map ledger.cursor := by
  unfold keep
  split
  · exact map_cursor_emit absent
  · rw [map_cons, cursor_emit_self, map_cursor_emit absent]

theorem keep_sublist (behind : List Ticket) :
    (keep quantum ticket behind).Sublist (ticket :: behind) := by
  unfold keep
  split
  · exact sublist_cons_self _ _
  · exact Sublist.refl _

theorem mem_keep {behind : List Ticket} (member : other ∈ ticket :: behind)
    (different : other ≠ ticket) : other ∈ keep quantum ticket behind := by
  have isBehind := (mem_cons.mp member).resolve_left different
  unfold keep
  split
  · exact isBehind
  · exact mem_cons_of_mem _ isBehind

theorem front_mem_keep (behind : List Ticket) (unfinished : quantum.trainFinished = false) :
    ticket ∈ keep quantum ticket behind := by
  simp [keep, unfinished]

theorem Tracks.serveLatency (tracks : ledger.Tracks queues) {cursor : TrainCursor}
    (front : queues.latency = cursor :: behind) (serves : Serves cursor behind quantum after)
    (isLatency : quantum.class' = .latency)
    (isFlow : quantum.flowId = cursor.flowId) :
    (ledger.serveCells quantum).Tracks { queues with latency := after } := by
  obtain ⟨ticket, rest, isQueue, rfl, rfl⟩ := map_eq_cons_iff.mp (tracks.latency ▸ front)
  obtain ⟨known, isClass⟩ := tracks.inLatency ticket (isQueue ▸ mem_cons_self)
  have once := tracks.latencyOnce
  rw [isQueue, nodup_cons] at once
  have notBulk : ∀ flowId, ticket ∉ ledger.bulk flowId := by
    intro flowId member
    simpa [isClass] using (tracks.inBulk flowId ticket member).2.1
  have standing : ticket ∉ ledger.evicted := by
    intro member
    simpa [isClass] using (tracks.inEvicted ticket member).2.1
  -- nothing is in order with a latency train
  have unordered : ∀ other, InOrder other ticket ∧ InOrder ticket other := by
    simp [InOrder, isClass]
  unfold serveCells
  rw [isLatency, isQueue]
  refine tracks.serve known standing serves (isLatency.trans isClass.symm) isFlow ?_
    (fun entry _ => (unordered entry.1).1) (fun _ other _ => (unordered other).2) ?_ ?_ rfl
  · refine ⟨isQueue ▸ keep_sublist rest, fun _ => Sublist.refl _, fun other member different =>
      mem_keep (isQueue ▸ member) different, fun _ _ member _ => member, fun unfinished =>
      .inl (front_mem_keep rest unfinished)⟩
  · rw [map_keep once.1]
    exact serves.after
  · intro flowId
    exact (tracks.bulk flowId).trans (map_cursor_emit (notBulk flowId)).symm

theorem update_sublist {bulk : UInt64 → List Ticket} {flowId : UInt64} {kept : List Ticket}
    (part : kept.Sublist (bulk flowId)) (other : UInt64) :
    (Function.update bulk flowId kept other).Sublist (bulk other) := by
  by_cases same : other = flowId
  · subst same
    rwa [update_self]
  · rw [update_of_ne same]

theorem Tracks.serveBulk (tracks : ledger.Tracks queues) {cursor : TrainCursor}
    (front : queues.bulk quantum.flowId = cursor :: behind)
    (serves : Serves cursor behind quantum after) (isBulk : quantum.class' = .bulk) :
    (ledger.serveCells quantum).Tracks
      { queues with bulk := Function.update queues.bulk quantum.flowId after } := by
  obtain ⟨ticket, rest, isQueue, rfl, rfl⟩ := map_eq_cons_iff.mp (tracks.bulk _ ▸ front)
  have queued : ticket ∈ ledger.bulk quantum.flowId := isQueue ▸ mem_cons_self
  obtain ⟨known, isClass, isFlow⟩ := tracks.inBulk _ ticket queued
  have order := tracks.bulkOrder quantum.flowId
  rw [isQueue, pairwise_cons] at order
  have absent : ticket ∉ rest := fun member => (order.1 ticket member).false
  have notLatency : ticket ∉ ledger.latency := by
    intro member
    simpa [isClass] using (tracks.inLatency ticket member).2
  have otherFlow : ∀ flowId, flowId ≠ quantum.flowId → ticket ∉ ledger.bulk flowId := by
    intro flowId different member
    exact different ((tracks.inBulk flowId ticket member).2.2.symm.trans isFlow)
  have standing : ticket ∉ ledger.evicted := fun member =>
    (tracks.inEvicted ticket member).2.2 (isFlow ▸ queued)
  have part := update_sublist (isQueue ▸ @keep_sublist ticket quantum rest)
  unfold serveCells
  rw [isBulk, isQueue]
  refine tracks.serve known standing serves (isBulk.trans isClass.symm) isFlow.symm
    ⟨Sublist.refl _, part, fun _ member _ => member, ?_, ?_⟩
    (fun entry member => tracks.servedFirst entry member _ ticket queued) ?_ ?_ ?_ rfl
  · intro flowId other member different
    by_cases same : flowId = quantum.flowId
    · subst same
      rw [update_self]
      exact mem_keep (isQueue ▸ member) different
    · rw [update_of_ne same]
      exact member
  · intro unfinished
    rw [isFlow, update_self]
    exact .inr (front_mem_keep rest unfinished)
  · intro flowId other member _ _ sameFlow
    have old := (part flowId).mem member
    rw [← (tracks.inBulk flowId other old).2.2, ← sameFlow, isFlow, isQueue] at old
    rcases mem_cons.mp old with rfl | later
    · exact le_rfl
    · exact (order.1 other later).le
  · exact tracks.latency.trans (map_cursor_emit notLatency).symm
  intro flowId
  dsimp only
  by_cases same : flowId = quantum.flowId
  · subst same
    rw [update_self, update_self, map_keep absent]
    exact serves.after
  · rw [update_of_ne same, update_of_ne same, map_cursor_emit (otherFlow flowId same)]
    exact tracks.bulk flowId

/-! ### Admission and eviction -/

theorem Tracks.number_lt (tracks : ledger.Tracks queues) (member : ticket ∈ ledger.admitted) :
    ticket.number < ledger.admitted.length := by
  have listed := mem_map_of_mem (f := Ticket.number) member
  rw [tracks.numbers] at listed
  exact mem_range.mp listed

variable {train : TrainCursor}

section
variable (tracks : ledger.Tracks queues) (accounted : train.Accounted)
include tracks accounted

theorem Tracks.cursor_fresh : ledger.quantaOf ⟨ledger.admitted.length, train⟩ = [] ∧
      ledger.cursor ⟨ledger.admitted.length, train⟩ = train := by
  have none : ledger.quantaOf ⟨ledger.admitted.length, train⟩ = [] := by
    simp only [quantaOf, map_eq_nil_iff, filter_eq_nil_iff, decide_eq_true_eq]
    intro entry member same
    have early := tracks.number_lt (tracks.emitted entry member)
    rw [same] at early
    exact early.false
  refine ⟨none, ?_⟩
  simp only [cursor, remaining, sent, none, flatMap_nil, length_nil, drop_zero, if_true]
  rw [← accounted.bytes]

theorem Tracks.admission {after : SchedulerQueues} {latency : List Ticket}
    {bulk : UInt64 → List Ticket} (isLatency : after.latency = latency.map ledger.cursor)
    (isBulk : ∀ flowId, after.bulk flowId = (bulk flowId).map ledger.cursor)
    (isEvicted : after.evictedBytes = queues.evictedBytes)
    (latencyOnly : ∀ ticket, ticket ∈ latency ↔
      ticket ∈ ledger.latency ∨ train.class' = .latency ∧ ticket = ⟨ledger.admitted.length, train⟩)
    (bulkOnly : ∀ flowId ticket, ticket ∈ bulk flowId ↔ ticket ∈ ledger.bulk flowId ∨
      train.class' = .bulk ∧ flowId = train.flowId ∧ ticket = ⟨ledger.admitted.length, train⟩)
    (latencyOnce : latency.Nodup)
    (bulkOrder : ∀ flowId, (bulk flowId).Pairwise fun older newer => older.number < newer.number) :
    Tracks { ledger with
      admitted := ledger.admitted ++ [⟨ledger.admitted.length, train⟩], latency, bulk } after where
  latency := isLatency
  bulk := isBulk
  numbers := by
    simp only [map_append, map_cons, map_nil, length_append,
      length_singleton, range_succ, tracks.numbers]
  quanta := by
    intro ticket member
    rcases mem_append.mp member with old | new
    · exact tracks.quanta ticket old
    obtain rfl := mem_singleton.mp new
    have none : ledger.quantaOf ⟨ledger.admitted.length, train⟩ = [] :=
      (tracks.cursor_fresh accounted).1
    change QuantaOk train (ledger.quantaOf ⟨ledger.admitted.length, train⟩)
    rw [none]
    exact ⟨List.nil_prefix, fun front quantum back split => by simp at split⟩
  emitted entry member := mem_append_left _ (tracks.emitted entry member)
  inLatency ticket member := by
    rcases (latencyOnly ticket).mp member with old | ⟨isClass, rfl⟩
    · obtain ⟨known, isClass⟩ := tracks.inLatency ticket old
      exact ⟨mem_append_left _ known, isClass⟩
    · exact ⟨mem_append_right _ mem_cons_self, isClass⟩
  inBulk flowId ticket member := by
    rcases (bulkOnly flowId ticket).mp member with old | ⟨isClass, rfl, rfl⟩
    · obtain ⟨known, rest⟩ := tracks.inBulk flowId ticket old
      exact ⟨mem_append_left _ known, rest⟩
    · exact ⟨mem_append_right _ mem_cons_self, isClass, rfl⟩
  inEvicted ticket member := by
    obtain ⟨known, isClass, gone⟩ := tracks.inEvicted ticket member
    refine ⟨mem_append_left _ known, isClass, fun back => ?_⟩
    rcases (bulkOnly _ ticket).mp back with old | ⟨-, -, rfl⟩
    · exact gone old
    · exact (tracks.number_lt known).false
  latencyOnce := latencyOnce
  evictedOnce := tracks.evictedOnce
  bulkOrder := bulkOrder
  emittedOrder := tracks.emittedOrder
  servedFirst := by
    intro entry member flowId ticket queued
    rcases (bulkOnly flowId ticket).mp queued with old | ⟨-, -, rfl⟩
    · exact tracks.servedFirst entry member flowId ticket old
    · intro _ _ _
      exact (tracks.number_lt (tracks.emitted entry member)).le
  covered := by
    intro ticket member
    rcases mem_append.mp member with old | new
    · rcases tracks.covered ticket old with done | inLatency | inBulk | isOut
      · exact .inl done
      · exact .inr (.inl ((latencyOnly ticket).mpr (.inl inLatency)))
      · exact .inr (.inr (.inl ((bulkOnly _ ticket).mpr (.inl inBulk))))
      · exact .inr (.inr (.inr isOut))
    · obtain rfl := mem_singleton.mp new
      cases isClass : train.class' with
      | latency => exact .inr (.inl ((latencyOnly _).mpr (.inr ⟨isClass, rfl⟩)))
      | bulk => exact .inr (.inr (.inl ((bulkOnly _ _).mpr (.inr ⟨isClass, rfl, rfl⟩))))
  evictedBytes := isEvicted.trans tracks.evictedBytes

theorem Tracks.book {after : SchedulerQueues} (admits : Admits queues train after) :
    (ledger.book train).Tracks after := by
  have isCursor := (tracks.cursor_fresh accounted).2
  cases admits with
  | latency isClass =>
    simp only [Ledger.book, isClass]
    have permuted : ∀ index ≤ ledger.latency.length, (ledger.latency.insertIdx index
        ⟨ledger.admitted.length, train⟩).Perm (⟨ledger.admitted.length, train⟩ :: ledger.latency) :=
      fun index inside => perm_insertIdx _ _ inside
    have inserted := permuted _ (findIdx_le_length (p := fun queued : Ticket =>
      queued.train.yieldsTo train.priority (train.deadline.getD 0)))
    have fresh : (⟨ledger.admitted.length, train⟩ : Ticket) ∉ ledger.latency := fun member =>
      (tracks.number_lt (tracks.inLatency _ member).1).false
    refine tracks.admission accounted ?_ tracks.bulk rfl ?_ ?_ ?_ tracks.bulkOrder
    · -- the position depends on what the ledger does not change
      rw [map_insertIdx, isCursor]
      simp only [insertLatency, tracks.latency, findIdx_map]
      rfl
    · intro ticket
      rw [inserted.mem_iff, mem_cons, isClass]
      tauto
    · intro flowId ticket
      simp [isClass]
    · exact inserted.nodup_iff.mpr (nodup_cons.mpr ⟨fresh, tracks.latencyOnce⟩)
  | bulk isClass =>
  simp only [Ledger.book, isClass]
  refine tracks.admission accounted tracks.latency ?_ rfl ?_ ?_ tracks.latencyOnce ?_
  · intro flowId
    by_cases same : flowId = train.flowId
    · subst same
      simp [isCursor, tracks.bulk]
    · simp [update_of_ne same, tracks.bulk]
  · intro ticket
    simp [isClass]
  · intro flowId ticket
    by_cases same : flowId = train.flowId
    · subst same
      simp [isClass]
    · simp [same]
  intro flowId
  by_cases same : flowId = train.flowId
  · subst same
    rw [update_self]
    refine pairwise_append.mpr ⟨tracks.bulkOrder _, pairwise_singleton _ _, ?_⟩
    exact fun older member => forall_mem_singleton.mpr
      (tracks.number_lt (tracks.inBulk _ older member).1)
  · rw [update_of_ne same]
    exact tracks.bulkOrder flowId

end

theorem Tracks.evict (tracks : ledger.Tracks queues) {flowId : UInt64} {kept : List TrainCursor}
    {removed : TrainCursor} (last : queues.bulk flowId = kept ++ [removed]) :
    (ledger.evict flowId).Tracks { queues with
      bulk := Function.update queues.bulk flowId kept
      evictedBytes := queues.evictedBytes + removed.bytes } := by
  obtain ⟨older, newest, isQueue, rfl, isLast⟩ :=
    map_eq_append_iff.mp (tracks.bulk flowId ▸ last)
  obtain ⟨ticket, rfl, rfl⟩ := map_eq_singleton_iff.mp isLast
  have queued : ticket ∈ ledger.bulk flowId := by simp [isQueue]
  obtain ⟨known, isClass, isFlow⟩ := tracks.inBulk flowId ticket queued
  have standing : ticket ∉ ledger.evicted := fun member =>
    (tracks.inEvicted ticket member).2.2 (isFlow ▸ queued)
  have order := tracks.bulkOrder flowId
  rw [isQueue] at order
  have gone : ticket ∉ older := fun member =>
    ((pairwise_append.mp order).2.2 ticket member ticket mem_cons_self).false
  have part := update_sublist (isQueue ▸ sublist_append_left older [ticket])
  have evicted : ledger.evict flowId = { ledger with
      evicted := ledger.evicted ++ [ticket]
      bulk := Function.update ledger.bulk flowId older } := by
    simp [Ledger.evict, isQueue]
  rw [evicted]
  exact { tracks with
    bulk := by
      intro other
      dsimp only
      by_cases same : other = flowId
      · subst same
        rw [update_self, update_self]
        rfl
      · rw [update_of_ne same, update_of_ne same]
        exact tracks.bulk other
    inBulk := fun other ticket member => tracks.inBulk other ticket ((part other).mem member)
    inEvicted := by
      intro other member
      rcases mem_append.mp member with old | new
      · obtain ⟨isKnown, isBulk, out⟩ := tracks.inEvicted other old
        exact ⟨isKnown, isBulk, fun back => out ((part _).mem back)⟩
      obtain rfl := mem_singleton.mp new
      refine ⟨known, isClass, ?_⟩
      dsimp only
      rw [isFlow, update_self]
      exact gone
    evictedOnce := by
      refine nodup_append.mpr ⟨tracks.evictedOnce, nodup_singleton _, ?_⟩
      exact fun old member => forall_mem_singleton.mpr fun same => standing (same ▸ member)
    bulkOrder := fun other => (tracks.bulkOrder other).sublist (part other)
    servedFirst := fun entry member other ticket queued =>
      tracks.servedFirst entry member other ticket ((part other).mem queued)
    covered := by
      intro other member
      rcases tracks.covered other member with done | inLatency | inBulk | isOut
      · exact .inl done
      · exact .inr (.inl inLatency)
      · by_cases same : other.train.flowId = flowId
        · rw [same, isQueue] at inBulk
          rcases mem_append.mp inBulk with isOlder | isNewest
          · refine .inr (.inr (.inl ?_))
            dsimp only
            rw [same, update_self]
            exact isOlder
          · exact .inr (.inr (.inr (mem_append_right _ isNewest)))
        · refine .inr (.inr (.inl ?_))
          dsimp only
          rw [update_of_ne same]
          exact inBulk
      · exact .inr (.inr (.inr (mem_append_left _ isOut)))
    evictedBytes := by
      rw [map_append, sum_append, tracks.evictedBytes]
      rfl }

end Ledger
end Ironet.Scheduler
