import Ironet.Extensions.State

/-!
# Leases and the supervisor

Model of the loop `supervise` in `daemon.rs`, as far as extension routes are concerned: which
generation runs, with which routes it was loaded, and when the loop wakes up to expire a lease. The
clock, writes to the extension file by others and everything that may fail are events, so a run is
any interleaving of them.

A settle delay is time that passes before the next event. Stopping the data plane takes no time: the
next generation is loaded from the file as it was just written, where the source reads the file and
the clock once more. The counter of generations, the listeners for password enrollment and the
replies to reload requests do not touch leases; where one of them fails, the event says so.
-/
namespace Ironet.Daemon
open Support Extensions

/-- A generation and the extension routes it was loaded with. -/
structure Generation where
  routes : List DesiredRoute

/-- `Generation::load`: the routes are filtered with one reading of the clock. -/
def Generation.load (state : ExtensionState) (nowUnix : UnixTime) : Generation where
  routes := state.list nowUnix

/-- What the wake-up was computed from: the file as it was read, if it could be read, the time of
that reading, and the time at which the wait was first polled. -/
structure Armed where
  file : Option ExtensionState
  armedAt : UnixTime
  polledAt : UnixTime

/-- `next_extension_expiry` -/
def Armed.nextExpiry (armed : Armed) : Option UnixTime :=
  armed.file.bind fun state => state.nextExpiry armed.armedAt

/-- `expiry_wait`: sleep until the lease and one second more. -/
def Armed.wake (armed : Armed) : Option UnixTime :=
  armed.nextExpiry.map fun expires => armed.polledAt + (saturatingAdd (expires - armed.polledAt) 1)

inductive Phase where
  /-- The data plane starts; a reload remembers the generation before it. -/
  | starting (recovering : Bool) (previous : Option Generation)
  /-- The data plane is ready and the next expiry is known, but nothing waits yet. -/
  | arming (file : Option ExtensionState) (armedAt : UnixTime)
  | waiting (armed : Armed)
  /-- The wait is over, and the loop selects again. -/
  | spent
  /-- The loop returned. -/
  | ended
  | panicked

structure Supervisor where
  current : Generation
  phase : Phase
  /-- The extension file, if it can be read. -/
  file : Option ExtensionState
  now : UnixTime

inductive Event where
  | advance (seconds : Nat)
  | fileChanged (file : Option ExtensionState)
  | ready
  | startFailed
  | polled
  | dataPlaneStopped
  /-- A reload request; `accepted` says whether the configuration and the listeners accept it. -/
  | reload (accepted : Bool)
  /-- The wait is over; `written` says whether the file could be written, and `restarted` whether
  the data plane stopped cleanly and the new generation was accepted. -/
  | expiry (written restarted : Bool)
  /-- No other branch is ready before the finished wait is polled again. -/
  | polledAgain
  | stop

namespace Supervisor

variable (self : Supervisor)

/-- `continue 'active`: the wait is not renewed. -/
def resumed : Supervisor := { self with phase := .spent }

/-- The branch of the loop that expires leases. -/
def expireLeases (written restarted : Bool) : Supervisor :=
  match self.file with
  | none => self.resumed
  | some state =>
    match state.expire self.now with
    | none => self.resumed
    | some (next, _) =>
      if written then
        if restarted then
          { self with
            file := some next
            current := Generation.load next self.now
            phase := .starting false none }
        -- the file is written back before the loop returns
        else { self with phase := .ended }
      else self.resumed

/-- The wake-up finds a lease to expire and can write the file. -/
def acts (written : Bool) : Bool :=
  written && (self.file.bind fun state => state.expire self.now).isSome

variable (self : Supervisor)

theorem expireLeases_phase (written restarted : Bool) :
    (self.expireLeases written restarted).phase =
      if self.acts written then if restarted then .starting false none else .ended else .spent := by
  cases isFile : self.file with
  | none => simp [expireLeases, acts, isFile, resumed]
  | some state =>
    cases expired : state.expire self.now with
    | none => simp [expireLeases, acts, isFile, expired, resumed]
    | some after => cases written <;> cases restarted <;>
        simp [expireLeases, acts, isFile, expired, resumed]

/-- One event; `none` where the loop is not ready for it. -/
def step : Event → Option Supervisor
  | .advance seconds => some { self with now := self.now + seconds }
  | .fileChanged file => some { self with file }
  | .ready =>
    match self.phase with
    | .starting _ _ => some { self with phase := .arming self.file self.now }
    | _ => none
  | .startFailed =>
    match self.phase with
    | .starting recovering (some previous) =>
      some { self with current := previous, phase := .starting recovering none }
    | .starting true none => some self
    | .starting false none => some { self with phase := .ended }
    | _ => none
  | .polled =>
    match self.phase with
    | .arming file armedAt =>
      some { self with phase := .waiting { file, armedAt, polledAt := self.now } }
    | _ => none
  | .dataPlaneStopped =>
    match self.phase with
    | .waiting _ | .spent => some { self with phase := .starting true none }
    | _ => none
  | .reload accepted =>
    match self.phase with
    | .waiting _ | .spent =>
      if accepted then
        self.file.map fun state => { self with
          current := Generation.load state self.now
          phase := .starting false (some self.current) }
      else some self
    | _ => none
  | .expiry written restarted =>
    match self.phase with
    | .waiting armed =>
      match armed.wake with
      | some wake => if wake ≤ self.now then some (self.expireLeases written restarted) else none
      | none => none
    | _ => none
  | .polledAgain =>
    match self.phase with
    -- a finished future that is polled again panics
    | .spent => some { self with phase := .panicked }
    | _ => none
  | .stop =>
    match self.phase with
    | .waiting _ | .spent => some { self with phase := .ended }
    | _ => none

/-- The events that the loop is not ready for do not happen. -/
def run (events : List Event) : Supervisor :=
  events.foldl (fun state event => (state.step event).getD state) self

theorem run_concat (front : List Event) (event : Event) :
    self.run (front ++ [event]) = ((self.run front).step event).getD (self.run front) := by
  simp [run]

/-- The daemon loads its first generation. -/
def launch (state : ExtensionState) (nowUnix : UnixTime) : Supervisor where
  current := Generation.load state nowUnix
  phase := .starting false none
  file := some state
  now := nowUnix

end Supervisor

/-! ### The wake-up -/

/-- A wake-up is scheduled no later than one second after the lease. -/
def WakesBy (armed : Armed) (expires : UnixTime) : Prop :=
  ∃ wake, armed.wake = some wake ∧ wake ≤ expires + 1

/-- Every lease that the generation was loaded with has its wake-up. -/
def Enforced (generation : Generation) (armed : Armed) : Prop :=
  ∀ route ∈ generation.routes, ∀ expires, route.expiresUnix = some expires → WakesBy armed expires

/-- The file that was read when the wake-up was computed had a lease, not later than this one, that
was still running, and the wait began before this one ended. -/
def Covered (armed : Armed) (expires : UnixTime) : Prop :=
  armed.polledAt ≤ expires ∧ ∃ state, armed.file = some state ∧
    ∃ route ∈ state.routes.values, ∃ other, route.expiresUnix = some other ∧
      armed.armedAt < other ∧ other ≤ expires

variable {state : ExtensionState}

/-- The next expiry is a running lease, and no running lease is earlier. -/
theorem nextExpiry_le_iff {nowUnix expires : UnixTime} :
    (∃ next, state.nextExpiry nowUnix = some next ∧ next ≤ expires) ↔
      ∃ route ∈ state.routes.values, ∃ other, route.expiresUnix = some other ∧ nowUnix < other ∧
        other ≤ expires := by
  have member : ∀ other, other ∈ (state.routes.values.filterMap DesiredRoute.expiresUnix).filter
      (fun lease => decide (nowUnix < lease)) ↔
        (∃ route ∈ state.routes.values, route.expiresUnix = some other) ∧ nowUnix < other := by
    intro other
    simp [List.mem_filter, List.mem_filterMap]
  constructor
  · rintro ⟨next, isNext, early⟩
    obtain ⟨⟨route, listed, lease⟩, running⟩ := (member next).mp (List.min?_mem isNext)
    exact ⟨route, listed, next, lease, running, early⟩
  rintro ⟨route, listed, other, lease, running, early⟩
  have inside := (member other).mpr ⟨⟨route, listed, lease⟩, running⟩
  cases least : state.nextExpiry nowUnix with
  | none =>
    unfold ExtensionState.nextExpiry at least
    rw [List.min?_eq_none_iff] at least
    rw [least] at inside
    cases inside
  | some next =>
    have lower : next ≤ other := (List.min?_eq_some_iff.mp least).2 other inside
    exact ⟨next, rfl, lower.trans early⟩

/-- The wait ends one second after the later of its start and the lease. -/
theorem wait_le_iff (begun lease limit : Nat) :
    begun + (lease - begun + 1) ≤ limit + 1 ↔ begun ≤ limit ∧ lease ≤ limit := by
  omega

variable {events : List Event} {armed : Armed} {expires : UnixTime}

theorem wakesBy_of_covered (covered : Covered armed expires) : WakesBy armed expires := by
  obtain ⟨begun, state, isFile, running⟩ := covered
  obtain ⟨next, isNext, early⟩ := nextExpiry_le_iff.mpr running
  refine ⟨armed.polledAt + saturatingAdd (next - armed.polledAt) 1, ?_, ?_⟩
  · simp [Armed.wake, Armed.nextExpiry, isFile, isNext]
  · have delay : saturatingAdd (next - armed.polledAt) 1 ≤ next - armed.polledAt + 1 :=
      Nat.min_le_left _ _
    exact (Nat.add_le_add_left delay _).trans ((wait_le_iff _ _ _).mpr ⟨begun, early⟩)

/-- Where the delay does not saturate, nothing else schedules a wake-up in time. -/
theorem covered_of_wakesBy
    (small : ∀ next, armed.nextExpiry = some next → next - armed.polledAt < u64Max)
    (wakes : WakesBy armed expires) : Covered armed expires := by
  obtain ⟨wake, isWake, inTime⟩ := wakes
  cases isFile : armed.file with
  | none => simp [Armed.wake, Armed.nextExpiry, isFile] at isWake
  | some state =>
  cases isNext : state.nextExpiry armed.armedAt with
  | none => simp [Armed.wake, Armed.nextExpiry, isFile, isNext] at isWake
  | some next =>
  have isArmed : armed.nextExpiry = some next := by simp [Armed.nextExpiry, isFile, isNext]
  have short : next - armed.polledAt + 1 ≤ u64Max := small next isArmed
  have exact : wake = armed.polledAt + (next - armed.polledAt + 1) := by
    simp only [Armed.wake, isArmed, Option.map_some, Option.some.injEq] at isWake
    rw [← isWake, saturatingAdd, Nat.min_eq_left short]
  obtain ⟨begun, least⟩ := (wait_le_iff _ _ _).mp (exact ▸ inTime)
  exact ⟨begun, state, isFile, nextExpiry_le_iff.mp ⟨next, isNext, least⟩⟩

/-! ### Runs -/

/-- Some lease in the file runs and ends no later than this one. -/
def Running (file : Option ExtensionState) (nowUnix expires : UnixTime) : Prop :=
  ∃ state, file = some state ∧ ∃ route ∈ state.routes.values, ∃ other,
    route.expiresUnix = some other ∧ nowUnix < other ∧ other ≤ expires

/-- The leases of the running generation. -/
def Supervisor.leases (self : Supervisor) : List UnixTime :=
  self.current.routes.filterMap DesiredRoute.expiresUnix

/-- No lease of the generation lapses before the wake-up is computed from a file that still has it,
or an earlier one, and none lapses before the wait begins. -/
def Prompt (self : Supervisor) : Event → Prop
  | .ready => ∀ expires ∈ self.leases, Running self.file self.now expires
  | .polled => ∀ expires ∈ self.leases, self.now ≤ expires
  | _ => True

def PromptRun : Supervisor → List Event → Prop
  | _, [] => True
  | self, event :: rest =>
    Prompt self event ∧ PromptRun ((self.step event).getD self) rest

def Scheduled (self : Supervisor) : Prop :=
  match self.phase with
  | .arming file armedAt => ∀ expires ∈ self.leases, Running file armedAt expires
  | .waiting armed => ∀ expires ∈ self.leases, Covered armed expires
  | _ => True

variable {self after : Supervisor} {event : Event}

theorem step_scheduled (prompt : Prompt self event) (scheduled : Scheduled self)
    (stepped : self.step event = some after) : Scheduled after := by
  cases event with
  | advance seconds | fileChanged file =>
    obtain rfl := Option.some.inj stepped
    exact scheduled
  | ready =>
    simp only [Supervisor.step] at stepped
    split at stepped
    · obtain rfl := Option.some.inj stepped
      exact prompt
    · cases stepped
  | polled =>
    simp only [Supervisor.step] at stepped
    split at stepped
    next file armedAt isPhase =>
      obtain rfl := Option.some.inj stepped
      unfold Scheduled at scheduled
      rw [isPhase] at scheduled
      intro expires listed
      exact ⟨prompt expires listed, scheduled expires listed⟩
    · cases stepped
  | startFailed | dataPlaneStopped | reload accepted | expiry written restarted | polledAgain
      | stop =>
    -- a rejected reload leaves the wait alone, and everything else starts again or ends it
    grind [Scheduled, Supervisor.step, Supervisor.expireLeases_phase, Option.map_eq_some_iff]

theorem run_scheduled : ∀ (events : List Event) (self : Supervisor), PromptRun self events →
    Scheduled self → Scheduled (self.run events) := by
  intro events
  induction events with
  | nil =>
    intro self _ scheduled
    exact scheduled
  | cons event rest ih =>
  intro self prompt scheduled
  refine ih ((self.step event).getD self) prompt.2 ?_
  cases stepped : self.step event with
  | none => exact scheduled
  | some after => exact step_scheduled prompt.1 scheduled stepped

variable {self : Supervisor}

theorem mem_leases : expires ∈ self.leases ↔
      ∃ route ∈ self.current.routes, route.expiresUnix = some expires := by
  simp [Supervisor.leases, List.mem_filterMap]

theorem run_enforced {nowUnix : UnixTime}
    (prompt : PromptRun (Supervisor.launch state nowUnix) events)
    (waits : ((Supervisor.launch state nowUnix).run events).phase = .waiting armed) :
    Enforced ((Supervisor.launch state nowUnix).run events).current armed := by
  intro route listed expires lease
  have scheduled := run_scheduled events (Supervisor.launch state nowUnix) prompt trivial
  unfold Scheduled at scheduled
  rw [waits] at scheduled
  exact wakesBy_of_covered (scheduled expires (mem_leases.mpr ⟨route, listed, lease⟩))

/-- In every prompt run, whenever the loop waits, every lease of the running generation has its
wake-up. In any run, where the delay does not saturate, the waiting loop has all wake-ups exactly
when every lease was covered by the file and the two clock readings the wake-up came from. -/
theorem leases_enforced (state : ExtensionState) (nowUnix : UnixTime) (events : List Event)
    (armed : Armed)
    (waits : ((Supervisor.launch state nowUnix).run events).phase = .waiting armed) :
    (PromptRun (Supervisor.launch state nowUnix) events →
      Enforced ((Supervisor.launch state nowUnix).run events).current armed) ∧
    ((∀ next, armed.nextExpiry = some next → next - armed.polledAt < u64Max) →
      (Enforced ((Supervisor.launch state nowUnix).run events).current armed ↔
        ∀ expires ∈ ((Supervisor.launch state nowUnix).run events).leases,
          Covered armed expires)) := by
  refine ⟨fun prompt => run_enforced prompt waits, fun small => ?_⟩
  constructor
  · intro enforced expires listed
    obtain ⟨route, isRoute, lease⟩ := mem_leases.mp listed
    exact covered_of_wakesBy small (enforced route isRoute expires lease)
  · intro covered route listed expires lease
    exact wakesBy_of_covered (covered expires (mem_leases.mpr ⟨route, listed, lease⟩))

/-- A state with one route whose lease ends at 105. -/
def leasedState : ExtensionState where
  generation := 1
  routes := SortedMap.insert "ipam/office" {
    apiVersion := 1, name := "office", owner := "ipam", revision := 1, expiresUnix := some 105
    spec := { endpointId := "node", prefixes := ["10.30.0.0/16"] } } ∅

/-- The leases of the running generation and the wake-up, if the loop waits. -/
def scheduleAfter (events : List Event) : Option (List UnixTime × Option UnixTime) :=
  let supervisor := (Supervisor.launch leasedState 100).run events
  match supervisor.phase with
  | .waiting armed => some (supervisor.leases, armed.wake)
  | _ => none

/-- A lease that ends while the data plane starts, or while it is rebuilt, gets no wake-up, however
long the loop then waits. -/
theorem lapsed_lease_stays : scheduleAfter [.advance 2, .ready, .polled] = some ([105], some 106) ∧
      scheduleAfter [.advance 6, .ready, .polled, .advance 1000000] = some ([105], none) ∧
      scheduleAfter [.advance 2, .ready, .polled, .dataPlaneStopped, .advance 5, .ready, .polled,
        .advance 1000000] = some ([105], none) := by
  refine ⟨?_, ?_, ?_⟩ <;> decide

theorem leasedState_leases : (Supervisor.launch leasedState 100).leases = [105] := by
  decide

/-- A start that takes two seconds leaves the wake-up at 106. -/
theorem leases_enforced_quick :
    Enforced ((Supervisor.launch leasedState 100).run [.advance 2, .ready, .polled]).current
      ⟨some leasedState, 102, 102⟩ := by
  refine (leases_enforced leasedState 100 [.advance 2, .ready, .polled]
    ⟨some leasedState, 102, 102⟩ rfl).1 ⟨trivial, ?_, ?_, trivial⟩
  · intro expires listed
    have isLease : expires ∈ (Supervisor.launch leasedState 100).leases := listed
    rw [leasedState_leases, List.mem_singleton] at isLease
    subst isLease
    exact ⟨leasedState, rfl, _, List.mem_cons_self, 105, rfl, by decide, le_rfl⟩
  intro expires listed
  have isLease : expires ∈ (Supervisor.launch leasedState 100).leases := listed
  rw [leasedState_leases, List.mem_singleton] at isLease
  subst isLease
  exact (by decide : 102 ≤ 105)

/-! ### Wake-ups that cannot act -/

/-- The loop has not panicked, and there is no finished wait that it could poll again. -/
def Supervisor.Harmless (self : Supervisor) : Prop :=
  self.phase ≠ .panicked ∧ self.step .polledAgain = none

/-- Every wake-up of the run finds a lease to expire and can write the file. -/
def ActingRun (self : Supervisor) (events : List Event) : Prop :=
  ∀ front written restarted, front ++ [.expiry written restarted] <+: events →
    ((self.run front).step (.expiry written restarted)).isSome → (self.run front).acts written

theorem harmless_iff : self.Harmless ↔ self.phase ≠ .panicked ∧ self.phase ≠ .spent := by
  unfold Supervisor.Harmless
  simp only [Supervisor.step]
  cases self.phase <;> simp

theorem expiry_phase {written restarted : Bool}
    (woken : self.step (.expiry written restarted) = some after) : after.phase =
      if self.acts written then if restarted then .starting false none else .ended else .spent := by
  rw [← self.expireLeases_phase written restarted]
  grind [Supervisor.step]

theorem step_harmless (harmless : self.Harmless)
    (acting : ∀ written restarted, event = .expiry written restarted → self.acts written)
    (stepped : self.step event = some after) : after.Harmless := by
  rw [harmless_iff] at harmless ⊢
  cases event with
  | expiry written restarted =>
    rw [expiry_phase stepped, if_pos (acting written restarted rfl)]
    cases restarted <;> simp
  | advance seconds | fileChanged file | ready | startFailed | polled | dataPlaneStopped
  | reload accepted | polledAgain | stop =>
    grind [Supervisor.step, Option.map_eq_some_iff]

theorem run_harmless (harmless : self.Harmless)
    (acting : ActingRun self events) : (self.run events).Harmless := by
  induction events using List.reverseRecOn with
  | nil => exact harmless
  | append_singleton front event ih =>
  have before := ih fun early written restarted initial =>
    acting early written restarted (initial.trans (List.prefix_append front [event]))
  rw [Supervisor.run_concat]
  cases stepped : (self.run front).step event with
  | none => exact before
  | some after =>
    refine step_harmless before (fun written restarted same => ?_) stepped
    subst same
    exact acting front written restarted (List.prefix_refl _) (by rw [stepped]; rfl)

/-- A run whose wake-ups all act never polls a finished wait, and if it is prompt, the waiting loop
has its wake-ups. A wake-up that does not act leaves the finished wait behind, to be polled
again. -/
theorem wakeups_harmless (state : ExtensionState) (nowUnix : UnixTime) (events : List Event) :
    (ActingRun (Supervisor.launch state nowUnix) events →
      ((Supervisor.launch state nowUnix).run events).Harmless ∧
      (PromptRun (Supervisor.launch state nowUnix) events → ∀ armed,
        ((Supervisor.launch state nowUnix).run events).phase = .waiting armed →
          Enforced ((Supervisor.launch state nowUnix).run events).current armed)) ∧
    ∀ written restarted after,
      ((Supervisor.launch state nowUnix).run events).step (.expiry written restarted) = some after →
        (after.Harmless ↔ ((Supervisor.launch state nowUnix).run events).acts written) := by
  refine ⟨fun acting => ⟨run_harmless ⟨nofun, rfl⟩ acting,
    fun prompt armed waits => run_enforced prompt waits⟩, ?_⟩
  intro written restarted after woken
  rw [harmless_iff, expiry_phase woken]
  cases ((Supervisor.launch state nowUnix).run events).acts written <;> cases restarted <;> simp

/-- The lease of the file runs out, and the generation without it becomes ready. -/
def actingEvents : List Event := [.ready, .polled, .advance 6, .expiry true true, .ready]

theorem wakeups_harmless_acting :
    ((Supervisor.launch leasedState 100).run actingEvents).Harmless := by
  refine ((wakeups_harmless leasedState 100 actingEvents).1
    fun front written restarted isFront _ => ?_).1
  -- the wake-up is the fourth event
  obtain ⟨rest, same⟩ := isFront
  rcases front with _ | ⟨_, _ | ⟨_, _ | ⟨_, _ | ⟨_, _ | ⟨_, _⟩⟩⟩⟩⟩ <;> simp [actingEvents] at same
  obtain ⟨rfl, rfl, rfl, ⟨rfl, rfl⟩, -⟩ := same
  decide

def panicsAfter (events : List Event) : Bool :=
  match ((Supervisor.launch leasedState 100).run events).phase with
  | .panicked => true
  | _ => false

/-- The file cannot be read, cannot be written, or has already lost the route when the wake-up of
its lease comes. -/
theorem idle_wakeup_panics :
    panicsAfter [.ready, .polled, .fileChanged none, .advance 6, .expiry true true,
        .polledAgain] = true ∧
      panicsAfter [.ready, .polled, .advance 6, .expiry false true, .polledAgain] = true ∧
      panicsAfter [.ready, .polled, .advance 6, .fileChanged (some .new), .expiry true true,
        .polledAgain] = true := by
  refine ⟨?_, ?_, ?_⟩ <;> decide

end Ironet.Daemon
