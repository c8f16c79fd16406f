import Ironet.Extensions.State

/-!
# Isolation of extension owners

A route is stored under one text made of its owner and its name, and both may contain the separator.
Two owners are therefore isolated from each other exactly as long as no slot that a request names is
held by another owner.
-/
namespace Ironet.Extensions
open Support ExtensionState SortedMap List

/-! ### Slots -/

/-- No two of the pairs share a slot. -/
def Separated (pairs : List (String × String)) : Prop :=
  ∀ pair ∈ pairs, ∀ other ∈ pairs,
    routeKey pair.1 pair.2 = routeKey other.1 other.2 → pair = other

variable {owner name : String}

/-- What stands before the first separator is the owner, if the owner has none. -/
theorem routeKey_inj_of_plain {other otherName : String} (plain : '/' ∉ owner.toList)
    (otherPlain : '/' ∉ other.toList) (same : routeKey owner name = routeKey other otherName) :
    owner = other ∧ name = otherName := by
  have lists := congrArg String.toList same
  simp only [routeKey, String.toList_append] at lists
  have slash : "/".toList = ['/'] := rfl
  rw [slash, append_assoc, append_assoc] at lists
  have before : ∀ text rest : List Char, '/' ∉ text →
      (text ++ (['/'] ++ rest)).takeWhile (· ≠ '/') = text := by
    intro text rest absent
    rw [takeWhile_append_of_pos (by
      intro c member
      simpa using fun equal : c = '/' => absent (equal ▸ member))]
    simp
  have owners : owner.toList = other.toList := by
    rw [← before owner.toList name.toList plain, lists, before _ _ otherPlain]
  rw [owners] at lists
  have names : name.toList = otherName.toList := by
    simpa using append_cancel_left lists
  exact ⟨String.toList_injective owners, String.toList_injective names⟩

variable {pairs : List (String × String)}

theorem separated_of_plain (plain : ∀ pair ∈ pairs, '/' ∉ pair.1.toList) : Separated pairs := by
  intro pair member other otherMember same
  obtain ⟨owners, names⟩ := routeKey_inj_of_plain (plain pair member) (plain other otherMember) same
  exact Prod.ext owners names

/-- What these slots hold belongs to the owner. -/
def Clear (owner : String) (keys : List String) (routes : SortedMap String DesiredRoute) : Prop :=
  ∀ key ∈ keys, ∀ route, routes.lookup key = some route → route.owner = owner

def ownerRoutes (owner : String) (nowUnix : UnixTime) (state : ExtensionState) :
    List DesiredRoute :=
  (state.list nowUnix).filter fun route => route.owner = owner

/-- The part of the unexpired routes that belongs to the owner. -/
def ownerPart (owner : String) (routes : SortedMap String DesiredRoute) :
    SortedMap String DesiredRoute :=
  routes.retain fun _ route => route.owner = owner

theorem ownerRoutes_eq (owner : String) (nowUnix : UnixTime) (state : ExtensionState) :
    ownerRoutes owner nowUnix state = (ownerPart owner (state.unexpired nowUnix)).values := by
  rw [ownerPart, values_retain, unexpired, values_retain]
  rfl

variable {routes : SortedMap String DesiredRoute} {route : DesiredRoute} {key : String}

theorem lookup_ownerPart : (ownerPart owner routes).lookup key = some route ↔
      routes.lookup key = some route ∧ route.owner = owner := by
  rw [ownerPart, lookup_retain, Option.filter_eq_some_iff]
  simp

/-! ### One request -/

/-- A request of the owner changed only slots that it names, and left nothing of others there. -/
structure Edited (owner : String) (keys : List String)
    (before after : SortedMap String DesiredRoute) : Prop where
  outside : ∀ key, key ∉ keys → after.lookup key = before.lookup key
  inside : Clear owner keys after

variable {before after : SortedMap String DesiredRoute} {keys : List String}

theorem Edited.cons
    {middle : SortedMap String DesiredRoute} (first : Edited owner [key] before middle)
    (rest : Edited owner keys middle after) : Edited owner (key :: keys) before after := by
  constructor
  · intro other absent
    obtain ⟨different, later⟩ := not_or.mp (mem_cons.not.mp absent)
    rw [rest.outside other later, first.outside other (by simpa using different)]
  intro other member route found
  by_cases later : other ∈ keys
  · exact rest.inside other later route found
  · rw [rest.outside other later] at found
    have isFirst : other = key := (mem_cons.mp member).resolve_right later
    exact first.inside other (by simp [isFirst]) route found

theorem Edited.single (others : ∀ other, other ≠ key → after.lookup other = before.lookup other)
    (own : ∀ route, after.lookup key = some route → route.owner = owner) :
    Edited owner [key] before after := by
  constructor
  · intro other absent
    exact others other (by simpa using absent)
  · intro other member route found
    obtain rfl : other = key := by simpa using member
    exact own route found

variable {env : Environment} {nowUnix : UnixTime}

theorem desired_fields {route : RouteApply}
    {wanted : DesiredRoute} (made : desired env route nowUnix = .ok wanted) :
    wanted.owner = route.owner ∧ wanted.name = route.name := by
  simp only [desired, do_eq_ok] at made
  obtain ⟨_, _, _, _, rfl⟩ := made
  exact ⟨rfl, rfl⟩

/-- All that one turn of a loop can do to the slot of its pair. -/
inductive Turn : String × String → Edit → Edit → Prop where
  | kept {edit after : Edit} {pair : String × String}
      (own : ∀ held, edit.routes.lookup (routeKey pair.1 pair.2) = some held →
        held.owner = pair.1)
      (same : after.routes = edit.routes) (count : after.changed = edit.changed) :
      Turn pair edit after
  | put {edit after : Edit} (wanted : DesiredRoute)
      (same : after.routes = edit.routes.insert (routeKey wanted.owner wanted.name) wanted)
      (count : after.changed = edit.changed + 1) : Turn (wanted.owner, wanted.name) edit after
  | dropped {edit after : Edit} {pair : String × String}
      (same : after.routes = edit.routes.erase (routeKey pair.1 pair.2))
      (count : after.changed = edit.changed + 1) : Turn pair edit after

theorem applyRoute_turn {edit after : Edit} {route : RouteApply}
    (run : applyRoute env nowUnix edit route = .ok after) :
    Turn (route.owner, route.name) edit after := by
  simp only [applyRoute, do_eq_ok] at run
  obtain ⟨-, -, wanted, made, turn⟩ := run
  obtain ⟨owner, name⟩ := desired_fields made
  rw [← owner, ← name] at turn ⊢
  cases found : edit.routes.lookup (routeKey wanted.owner wanted.name) with
  | none =>
    simp only [found, Except.ok.injEq] at turn
    subst turn
    exact .put wanted rfl rfl
  | some existing =>
  simp only [found] at turn
  split at turn
  · -- the same revision must carry the same state
    simp only [do_eq_ok] at turn
    obtain ⟨⟨-, -, sameOwner, -⟩, rfl⟩ := turn
    exact .kept (fun held isHeld => by grind) rfl rfl
  · simp only [do_eq_ok] at turn
    obtain ⟨-, rfl⟩ := turn
    exact .put wanted rfl rfl

theorem deleteRoute_turn {request : DeleteRoutesRequest} {edit after : Edit}
    (run : deleteRoute request edit name = .ok after) : Turn (request.owner, name) edit after := by
  simp only [deleteRoute, do_eq_ok] at run
  obtain ⟨-, -, turn⟩ := run
  cases found : edit.routes.lookup (routeKey request.owner name) with
  | none =>
    simp only [found, Except.ok.injEq] at turn
    subst turn
    exact .kept (fun held isHeld => by grind) rfl rfl
  | some existing =>
    simp only [found, do_eq_ok] at turn
    obtain ⟨-, rfl⟩ := turn
    exact .dropped rfl rfl

/-- One turn for each of the pairs. -/
inductive Turns : List (String × String) → Edit → Edit → Prop where
  | nil (edit : Edit) : Turns [] edit edit
  | cons {pair : String × String} {rest : List (String × String)} {edit middle after : Edit}
      (first : Turn pair edit middle) (later : Turns rest middle after) :
      Turns (pair :: rest) edit after

variable {α : Type} {turn : Edit → α → Except String Edit} {items : List α}

theorem foldlM_turns {edit after : Edit} (run : items.foldlM turn edit = .ok after)
    {pair : α → String × String}
    (single : ∀ edit after item, turn edit item = .ok after → Turn (pair item) edit after) :
    Turns (items.map pair) edit after := by
  induction items generalizing edit with
  | nil =>
    obtain rfl : edit = after := by simpa using run
    exact .nil edit
  | cons item rest ih =>
    rw [foldlM_cons, bind_eq_ok] at run
    obtain ⟨middle, first, later⟩ := run
    exact .cons (single _ _ _ first) (ih later)

theorem Turn.edited {pair : String × String} {edit after : Edit} (turn : Turn pair edit after) :
    Edited pair.1 [routeKey pair.1 pair.2] edit.routes after.routes := by
  cases turn with
  | kept own same => exact .single (fun _ _ => by rw [same]) (by rwa [same])
  | put wanted same =>
    rw [same]
    refine .single (fun other different => lookup_insert_ne _ _ different) fun held isHeld => ?_
    rw [lookup_insert] at isHeld
    rw [← Option.some.inj isHeld]
  | dropped same =>
    rw [same]
    exact .single (fun other different => lookup_erase_ne _ different) (by simp)

theorem Turns.edited {edit after : Edit} (turns : Turns pairs edit after)
    (owned : ∀ pair ∈ pairs, pair.1 = owner) :
    Edited owner (pairs.map fun pair => routeKey pair.1 pair.2) edit.routes after.routes := by
  induction turns with
  | nil edit => exact ⟨fun _ _ => rfl, fun _ member => by simp at member⟩
  | @cons pair rest edit middle after first later ih =>
    obtain ⟨rfl, inRest⟩ := forall_mem_cons.mp owned
    exact first.edited.cons (ih inRest)

theorem Turns.counts {edit after : Edit} (turns : Turns pairs edit after) :
    edit.changed ≤ after.changed ∧
      (after.changed = edit.changed → after.routes = edit.routes) := by
  induction turns with
  | nil edit => exact ⟨le_rfl, fun _ => rfl⟩
  | cons first later ih =>
    obtain ⟨grows, same⟩ := ih
    cases first with
    | kept own kept count => exact ⟨by omega, fun equal => (same (by omega)).trans kept⟩
    | put wanted put count => exact ⟨by omega, fun equal => by omega⟩
    | dropped dropped count => exact ⟨by omega, fun equal => by omega⟩

/-! ### What a request does -/

namespace Request

/-- The guards that come before the state is read. -/
def check : Request → Except String Unit
  | .apply request => do
    ensure (request.routes ≠ []) "apply_routes requires at least one route"
    validateKey request.idempotencyKey "idempotency_key"
  | .delete request => do
    validateName request.owner "owner"
    validateKey request.idempotencyKey "idempotency_key"
    ensure (request.names ≠ []) "delete_routes requires at least one name"

def fingerprint (env : Environment) : Request → String
  | .apply request => env.fingerprintApply request
  | .delete request => env.fingerprintDelete request

def dryRun : Request → Bool
  | .apply request => request.dryRun
  | .delete request => request.dryRun

def loop (env : Environment) (nowUnix : UnixTime) : Request → Edit → Except String Edit
  | .apply request, edit => request.routes.foldlM (applyRoute env nowUnix) edit
  | .delete request, edit => request.names.foldlM (deleteRoute request) edit

/-- The request is no dry run, and its key is not on record. -/
def Stores (request : Request) (state : ExtensionState) : Prop :=
  request.dryRun = false ∧ state.idempotency.lookup request.idempotencyKey = none

end Request

variable {state : ExtensionState} {mutation : Mutation} {request : Request}

theorem loop_turns {edit after : Edit} (run : request.loop env nowUnix edit = .ok after) :
    Turns request.pairs edit after := by
  cases request with
  | apply request => exact foldlM_turns run fun _ _ _ => applyRoute_turn
  | delete request => exact foldlM_turns run fun _ _ _ => deleteRoute_turn

/-- All that an accepted request can do: answer from the record, or run the loop on the unexpired
routes and conclude. -/
theorem mutate_ok_iff :
    request.mutate env state nowUnix = .ok mutation ↔ request.check = .ok () ∧
      match state.idempotency.lookup request.idempotencyKey with
      | some cached => cached.fingerprint = request.fingerprint env ∧
          mutation = ⟨state, cached.result, false, false⟩
      | none => ∃ edit, request.loop env nowUnix { routes := state.unexpired nowUnix } = .ok edit ∧
          mutation = (state.pruneExpired nowUnix).2.conclude (state.pruneExpired nowUnix).1 edit
            request.dryRun request.idempotencyKey (request.fingerprint env) nowUnix := by
  cases request with
  | apply request =>
    simp only [Request.mutate, apply, Request.check, Request.idempotencyKey, Request.fingerprint,
      Request.loop, Request.dryRun, do_eq_ok, and_assoc]
    refine and_congr_right fun _ => and_congr_right fun _ => ?_
    cases state.idempotency.lookup request.idempotencyKey with
    | some cached =>
      simp only [replay, do_eq_ok, @eq_comm _ mutation]
    | none =>
      simp only [do_eq_ok, pruneExpired_routes, @eq_comm _ mutation]
  | delete request =>
  simp only [Request.mutate, delete, Request.check, Request.idempotencyKey, Request.fingerprint,
    Request.loop, Request.dryRun, do_eq_ok, and_assoc]
  refine and_congr_right fun _ => and_congr_right fun _ => and_congr_right fun _ => ?_
  cases state.idempotency.lookup request.idempotencyKey with
  | some cached =>
    simp only [replay, do_eq_ok, @eq_comm _ mutation]
  | none =>
    simp only [do_eq_ok, pruneExpired_routes, @eq_comm _ mutation]

theorem conclude_routes (state : ExtensionState) (expiredCount : Nat) (edit : Edit) (dryRun : Bool)
    (idempotencyKey fingerprint : String) (nowUnix : UnixTime) :
    (state.conclude expiredCount edit dryRun idempotencyKey fingerprint nowUnix).state.routes =
      edit.routes := by
  cases dryRun <;> rfl

theorem stored_cases (accepted : request.mutate env state nowUnix = .ok mutation) :
    (¬request.Stores state ∧ mutation.stored state = state) ∨
    (request.Stores state ∧ ∃ edit,
      request.loop env nowUnix { routes := state.unexpired nowUnix } = .ok edit ∧
        (mutation.stored state).routes = edit.routes) := by
  unfold Request.Stores
  obtain ⟨-, result⟩ := mutate_ok_iff.mp accepted
  cases cached : state.idempotency.lookup request.idempotencyKey with
  | some record =>
    rw [cached] at result
    rw [result.2]
    exact .inl ⟨by simp, rfl⟩
  | none =>
  rw [cached] at result
  obtain ⟨edit, ran, rfl⟩ := result
  cases dry : request.dryRun with
  | true => exact .inl ⟨by simp, rfl⟩
  | false => exact .inr ⟨⟨rfl, rfl⟩, edit, ran, rfl⟩

/-! ### Mutations that ask for no reload -/

theorem unexpired_eq
    (none : (state.pruneExpired nowUnix).1 = 0) : state.unexpired nowUnix = state.routes := by
  apply retain_eq_self
  simp only [pruneExpired, unexpired] at none
  omega

/-- A mutation that is stored without a reload stores the same routes. -/
theorem routes_of_no_reload (accepted : request.mutate env state nowUnix = .ok mutation)
    (persists : mutation.persist = true) (quiet : mutation.reload = false) :
    mutation.state.routes = state.routes := by
  obtain ⟨-, result⟩ := mutate_ok_iff.mp accepted
  cases cached : state.idempotency.lookup request.idempotencyKey with
  | some record =>
    rw [cached] at result
    rw [result.2]
  | none =>
  rw [cached] at result
  obtain ⟨edit, ran, rfl⟩ := result
  cases dryRun : request.dryRun with
  | true =>
    rw [dryRun] at persists
    cases persists
  | false =>
  rw [dryRun] at quiet
  have nothing : edit.changed + (state.pruneExpired nowUnix).1 = 0 := by
    simpa [conclude, finishMutation] using quiet
  rw [conclude_routes, (loop_turns ran).counts.2 (Nat.eq_zero_of_add_eq_zero_right nothing)]
  exact unexpired_eq (Nat.eq_zero_of_add_eq_zero_left nothing)

/-! ### Runs -/

/-- Every route is in the slot of its own pair, and its pair is one of these. -/
def Stored (pairs : List (String × String)) (routes : SortedMap String DesiredRoute) : Prop :=
  ∀ key route, routes.lookup key = some route →
    key = routeKey route.owner route.name ∧ (route.owner, route.name) ∈ pairs

theorem Stored.mono {more : List (String × String)}
    (stored : Stored pairs routes) (subset : pairs ⊆ more) : Stored more routes :=
  fun key route found => ⟨(stored key route found).1, subset (stored key route found).2⟩

theorem Stored.retain (stored : Stored pairs routes) (test : String → DesiredRoute → Bool) :
    Stored pairs (routes.retain test) := by
  intro key route found
  rw [lookup_retain, Option.filter_eq_some_iff] at found
  exact stored key route found.1

theorem Stored.insert (stored : Stored pairs routes) (member : (route.owner, route.name) ∈ pairs) :
    Stored pairs (routes.insert (routeKey route.owner route.name) route) := by
  intro key other found
  by_cases same : key = routeKey route.owner route.name
  · rw [same, lookup_insert] at found
    obtain rfl := Option.some.inj found
    exact ⟨same, member⟩
  · rw [lookup_insert_ne _ _ same] at found
    exact stored key other found

theorem Turns.stored {named : List (String × String)} {edit after : Edit}
    (turns : Turns named edit after) (subset : named ⊆ pairs)
    (stored : Stored pairs edit.routes) : Stored pairs after.routes := by
  induction turns with
  | nil edit => exact stored
  | cons first later ih =>
  obtain ⟨member, inRest⟩ := cons_subset.mp subset
  refine ih inRest ?_
  cases first with
  | kept own same => rwa [same]
  | put wanted same =>
    rw [same]
    exact stored.insert member
  | dropped same =>
    rw [same]
    exact stored.retain _

/-- The pairs that the requests of a run name. -/
def namedPairs (calls : List (Request × UnixTime)) : List (String × String) :=
  calls.flatMap fun call => call.1.pairs

theorem step_stored {call : Request × UnixTime} (named : call.1.pairs ⊆ pairs)
    (stored : Stored pairs state.routes) : Stored pairs (state.step env call).routes := by
  unfold step
  cases result : call.1.mutate env state call.2 with
  | error message => exact stored
  | ok mutation =>
    rcases stored_cases result with ⟨-, same⟩ | ⟨-, edit, ran, same⟩
    · simpa [same] using stored
    · simp only [same]
      exact (loop_turns ran).stored named (stored.retain _)

theorem run_stored :
    ∀ (calls : List (Request × UnixTime)) (state : ExtensionState), namedPairs calls ⊆ pairs →
      Stored pairs state.routes → Stored pairs (state.run env calls).routes := by
  intro calls
  induction calls with
  | nil =>
    intro state _ stored
    exact stored
  | cons call rest ih =>
  intro state named stored
  have inCall : call.1.pairs ⊆ pairs := fun pair member => named (by
    simp [namedPairs, member])
  have inRest : namedPairs rest ⊆ pairs := fun pair member => named (by
    simp only [namedPairs, flatMap_cons, mem_append]
    exact .inr member)
  exact ih (state.step env call) inRest (step_stored inCall stored)

theorem new_stored (pairs : List (String × String)) : Stored pairs new.routes := by
  intro key route found
  cases found

/-! ### Isolation -/

theorem lookup_unexpired : (state.unexpired nowUnix).lookup key = some route ↔
      state.routes.lookup key = some route ∧ expired route nowUnix = false := by
  rw [unexpired, lookup_retain, Option.filter_eq_some_iff]
  simp

theorem mem_ownerRoutes : route ∈ ownerRoutes owner nowUnix state ↔
      ∃ key, (state.unexpired nowUnix).lookup key = some route ∧ route.owner = owner := by
  rw [ownerRoutes_eq, mem_values]
  simp only [lookup_ownerPart]

/-- Where a request of the owner finds only its own routes, the routes of others stay. -/
theorem others_kept {other : String} {before after : ExtensionState} (different : other ≠ owner)
    (edited : Edited owner keys (before.unexpired nowUnix) after.routes)
    (clear : Clear owner keys (before.unexpired nowUnix)) :
    ownerRoutes other nowUnix after = ownerRoutes other nowUnix before := by
  rw [ownerRoutes_eq, ownerRoutes_eq]
  congr 1
  apply ext_lookup
  intro key
  apply Option.ext
  intro route
  rw [lookup_ownerPart, lookup_ownerPart, lookup_unexpired]
  by_cases named : key ∈ keys
  · -- neither side has a route of the other owner in a named slot
    constructor
    · rintro ⟨⟨found, -⟩, own⟩
      exact (different (own ▸ edited.inside key named route found)).elim
    · rintro ⟨found, own⟩
      exact (different (own ▸ clear key named route found)).elim
  · rw [edited.outside key named, lookup_unexpired]
    tauto

theorem lookup_of_listed {other : ExtensionState} (stored : Stored pairs state.routes)
    (otherStored : Stored pairs other.routes)
    (found : (state.unexpired nowUnix).lookup key = some route)
    (listed : route ∈ ownerRoutes owner nowUnix other) :
    (other.unexpired nowUnix).lookup key = some route := by
  obtain ⟨slot, isSlot, -⟩ := mem_ownerRoutes.mp listed
  have same : slot = key :=
    (otherStored slot route (lookup_unexpired.mp isSlot).1).1.trans
      (stored key route (lookup_unexpired.mp found).1).1.symm
  rwa [same] at isSlot

/-- A named slot that another owner held loses its route. -/
theorem clear_of_kept {before after : ExtensionState}
    (edited : Edited owner keys (before.unexpired nowUnix) after.routes)
    (stored : Stored pairs before.routes) (afterStored : Stored pairs after.routes)
    (kept : ∀ other, other ≠ owner →
      ownerRoutes other nowUnix after = ownerRoutes other nowUnix before) :
    Clear owner keys (before.unexpired nowUnix) := by
  intro key named route found
  by_contra foreign
  have member : route ∈ ownerRoutes route.owner nowUnix after := by
    rw [kept route.owner foreign]
    exact mem_ownerRoutes.mpr ⟨key, found, rfl⟩
  have still := lookup_of_listed stored afterStored found member
  exact foreign (edited.inside key named route (lookup_unexpired.mp still).1)

theorem owner_of_pair (owned : request.OwnedBy owner)
    {pair : String × String} (member : pair ∈ request.pairs) : pair.1 = owner := by
  cases request with
  | apply request =>
    obtain ⟨route, isRoute, rfl⟩ := mem_map.mp member
    exact owned route isRoute
  | delete request =>
    obtain ⟨name, -, rfl⟩ := mem_map.mp member
    exact owned

theorem isolated_iff (owned : request.OwnedBy owner) (stored : Stored pairs state.routes)
    (accepted : request.mutate env state nowUnix = .ok mutation) : (∀ other, other ≠ owner →
      ownerRoutes other nowUnix (mutation.stored state) = ownerRoutes other nowUnix state) ↔
    (request.Stores state → Clear owner request.keys (state.unexpired nowUnix)) := by
  rcases stored_cases accepted with ⟨unstored, same⟩ | ⟨stores, edit, ran, same⟩
  · simp [same, unstored]
  have edited := (loop_turns ran).edited fun _ => owner_of_pair owned
  rw [← same] at edited
  have before : Stored (pairs ++ request.pairs) state.routes :=
    stored.mono (subset_append_left _ _)
  have after : Stored (pairs ++ request.pairs) (mutation.stored state).routes := by
    rw [same]
    exact (loop_turns ran).stored (subset_append_right _ _) (before.retain _)
  constructor
  · intro kept _
    exact clear_of_kept edited before after kept
  · intro clear other different
    exact others_kept different edited (clear stores)

/-! ### Acceptance -/

/-- The fingerprint that is on record under the request's key. -/
def recorded (request : Request) (state : ExtensionState) : Option String :=
  (state.idempotency.lookup request.idempotencyKey).map IdempotencyRecord.fingerprint

/-- Two edits that a loop over these slots cannot tell apart. -/
structure Alike (keys : List String) (left right : Edit) : Prop where
  seen : left.seen = right.seen
  routes : ∀ key ∈ keys, left.routes.lookup key = right.routes.lookup key

/-- Both computations fail, or both return and the results are related. -/
def BothReturn (related : Edit → Edit → Prop) (left right : Except String Edit) : Prop :=
  (∃ l r, left = .ok l ∧ right = .ok r ∧ related l r) ∨
    (∃ l r, left = .error l ∧ right = .error r)

variable {left right : Edit}

theorem insert_alike (alike : Alike keys left right) (key : String) (route : DesiredRoute) :
    ∀ other ∈ keys, (left.routes.insert key route).lookup other =
      (right.routes.insert key route).lookup other := by
  intro other member
  by_cases same : other = key
  · rw [same, lookup_insert, lookup_insert]
  · rw [lookup_insert_ne _ _ same, lookup_insert_ne _ _ same, alike.routes other member]

theorem erase_alike (alike : Alike keys left right) (key : String) :
    ∀ other ∈ keys, (left.routes.erase key).lookup other =
      (right.routes.erase key).lookup other := by
  intro other member
  by_cases same : other = key
  · rw [same, lookup_erase, lookup_erase]
  · rw [lookup_erase_ne _ same, lookup_erase_ne _ same, alike.routes other member]

variable {related : Edit → Edit → Prop}

theorem BothReturn.guard {left right : Except String Edit} (step : Except String Unit)
    (rest : step = .ok () → BothReturn related left right) :
    BothReturn related (step >>= fun _ => left) (step >>= fun _ => right) := by
  cases step with
  | error message => exact .inr ⟨message, message, rfl, rfl⟩
  | ok value => exact rest rfl

theorem BothReturn.both {l r : Edit} (holds : related l r) : BothReturn related (.ok l) (.ok r) :=
  .inl ⟨l, r, rfl, rfl, holds⟩

theorem applyRoute_alike (env : Environment) (nowUnix : UnixTime) {route : RouteApply}
    (alike : Alike keys left right) (named : routeKey route.owner route.name ∈ keys) :
    BothReturn (Alike keys) (applyRoute env nowUnix left route)
      (applyRoute env nowUnix right route) := by
  simp only [applyRoute, alike.seen, alike.routes _ named]
  apply BothReturn.guard
  intro _
  apply BothReturn.guard
  intro _
  cases desired env route nowUnix with
  | error message => exact .inr ⟨message, message, rfl, rfl⟩
  | ok wanted =>
  cases right.routes.lookup (routeKey route.owner route.name) with
  | none => exact .both ⟨rfl, insert_alike alike _ _⟩
  | some existing =>
  simp only
  split
  · apply BothReturn.guard
    intro _
    exact .both ⟨rfl, alike.routes⟩
  · apply BothReturn.guard
    intro _
    exact .both ⟨rfl, insert_alike alike _ _⟩

theorem deleteRoute_alike {request : DeleteRoutesRequest} (alike : Alike keys left right)
    (named : routeKey request.owner name ∈ keys) :
    BothReturn (Alike keys) (deleteRoute request left name) (deleteRoute request right name) := by
  simp only [deleteRoute, alike.seen, alike.routes _ named]
  apply BothReturn.guard
  intro _
  apply BothReturn.guard
  intro _
  cases right.routes.lookup (routeKey request.owner name) with
  | none => exact .both ⟨rfl, alike.routes⟩
  | some existing =>
    apply BothReturn.guard
    intro _
    exact .both ⟨rfl, erase_alike alike _⟩

theorem foldlM_alike
    (single : ∀ item ∈ items, ∀ left right, Alike keys left right → BothReturn (Alike keys)
      (turn left item) (turn right item)) :
    ∀ {left right : Edit}, Alike keys left right →
      BothReturn (Alike keys) (items.foldlM turn left) (items.foldlM turn right) := by
  induction items with
  | nil =>
    intro left right alike
    exact .both alike
  | cons item rest ih =>
  intro left right alike
  rw [foldlM_cons, foldlM_cons]
  rcases single item mem_cons_self left right alike with
    ⟨l, r, isLeft, isRight, after⟩ | ⟨l, r, isLeft, isRight⟩
  · rw [isLeft, isRight, ok_bind, ok_bind]
    exact ih (fun other member => single other (mem_cons_of_mem _ member)) after
  · rw [isLeft, isRight]
    exact .inr ⟨l, r, rfl, rfl⟩

theorem loop_alike (env : Environment) (nowUnix : UnixTime)
    (alike : Alike request.keys left right) :
    BothReturn (Alike request.keys) (request.loop env nowUnix left)
      (request.loop env nowUnix right) := by
  cases request with
  | apply request =>
    refine foldlM_alike (fun route member l r related => ?_) alike
    apply applyRoute_alike env nowUnix related
    simp only [Request.keys, Request.pairs, map_map, mem_map, Function.comp_apply]
    exact ⟨route, member, rfl⟩
  | delete request =>
    refine foldlM_alike (fun name member l r related => ?_) alike
    apply deleteRoute_alike related
    simp only [Request.keys, Request.pairs, map_map, mem_map, Function.comp_apply]
    exact ⟨name, member, rfl⟩

section
variable {other : ExtensionState} (stored : Stored pairs state.routes)
  (otherStored : Stored pairs other.routes)
include stored otherStored

/-- Slots that only the owner holds are settled by the routes of the owner. -/
theorem lookup_of_ownerRoutes (clear : Clear owner keys (state.unexpired nowUnix))
    (same : ownerRoutes owner nowUnix state = ownerRoutes owner nowUnix other)
    (named : key ∈ keys) (found : (state.unexpired nowUnix).lookup key = some route) :
    (other.unexpired nowUnix).lookup key = some route := by
  apply lookup_of_listed stored otherStored found
  rw [← same]
  exact mem_ownerRoutes.mpr ⟨key, found, clear key named route found⟩

/-- Two states that agree on the fingerprint under the request's key and on the routes of the owner
accept the same requests of the owner, if no other owner holds a slot that the request names. -/
theorem accepts_iff (clear : Clear owner request.keys (state.unexpired nowUnix))
    (otherClear : Clear owner request.keys (other.unexpired nowUnix))
    (record : recorded request state = recorded request other)
    (same : ownerRoutes owner nowUnix state = ownerRoutes owner nowUnix other) :
    (∃ mutation, request.mutate env state nowUnix = .ok mutation) ↔
      ∃ mutation, request.mutate env other nowUnix = .ok mutation := by
  have alike : Alike request.keys { routes := state.unexpired nowUnix }
      { routes := other.unexpired nowUnix } := by
    refine ⟨rfl, fun key named => Option.ext fun route => ⟨?_, ?_⟩⟩
    · exact lookup_of_ownerRoutes stored otherStored clear same named
    · exact lookup_of_ownerRoutes otherStored stored otherClear same.symm named
  unfold recorded at record
  simp only [mutate_ok_iff]
  -- a record answers by its fingerprint alone
  cases here : state.idempotency.lookup request.idempotencyKey <;>
    cases there : other.idempotency.lookup request.idempotencyKey <;>
    simp only [here, there, Option.map_none, Option.map_some, Option.some.injEq,
      reduceCtorEq] at record
  case none.none =>
    rcases loop_alike env nowUnix alike with
      ⟨l, r, isLeft, isRight, -⟩ | ⟨l, r, isLeft, isRight⟩
    all_goals simp [isLeft, isRight]
  case some.some => simp [record]

end

/-! ### Owners -/

/-- Pairs that do not share slots keep the slots of an owner clear of others. -/
theorem clear_of_separated (owned : request.OwnedBy owner)
    (stored : Stored pairs state.routes) (separated : Separated (pairs ++ request.pairs)) :
    Clear owner request.keys (state.unexpired nowUnix) := by
  intro key named route found
  obtain ⟨pair, isPair, rfl⟩ := mem_map.mp named
  obtain ⟨slot, isStored⟩ := stored _ route (lookup_unexpired.mp found).1
  have same : pair = (route.owner, route.name) :=
    separated pair (mem_append_right _ isPair) (route.owner, route.name)
      (mem_append_left _ isStored) slot
  rw [← owner_of_pair owned isPair, same]

/-- In every state that requests can reach, an accepted request of an owner leaves the unexpired
routes of every other owner as they are exactly when it is a dry run, a replay, or no other owner
holds a slot that it names. In the last case its acceptance is settled by the fingerprint on record
under its key and the routes of the owner. No other owner holds such a slot as long as no two pairs
of the run share one. -/
theorem owners_isolated (env : Environment) (calls : List (Request × UnixTime)) (request : Request)
    (owner : String) (nowUnix : UnixTime) (owned : request.OwnedBy owner) :
    (∀ mutation, request.mutate env (new.run env calls) nowUnix = .ok mutation →
      ((∀ other, other ≠ owner →
        ownerRoutes other nowUnix (mutation.stored (new.run env calls)) =
          ownerRoutes other nowUnix (new.run env calls)) ↔
      (request.Stores (new.run env calls) →
        Clear owner request.keys ((new.run env calls).unexpired nowUnix)))) ∧
    (∀ others : List (Request × UnixTime),
      Clear owner request.keys ((new.run env calls).unexpired nowUnix) →
      Clear owner request.keys ((new.run env others).unexpired nowUnix) →
      recorded request (new.run env calls) = recorded request (new.run env others) →
      ownerRoutes owner nowUnix (new.run env calls) =
        ownerRoutes owner nowUnix (new.run env others) →
      ((∃ mutation, request.mutate env (new.run env calls) nowUnix = .ok mutation) ↔
        ∃ mutation, request.mutate env (new.run env others) nowUnix =
          .ok mutation)) ∧
    (Separated (namedPairs calls ++ request.pairs) →
      Clear owner request.keys ((new.run env calls).unexpired nowUnix)) := by
  have reached : ∀ (run : List (Request × UnixTime)) (pairs : List (String × String)),
      namedPairs run ⊆ pairs → Stored pairs (new.run env run).routes :=
    fun run pairs named => run_stored run new named (new_stored pairs)
  refine ⟨?_, ?_, ?_⟩
  · intro mutation accepted
    exact isolated_iff owned (reached calls _ (List.Subset.refl _)) accepted
  · intro others clear otherClear record same
    exact accepts_iff (reached calls _ (subset_append_left _ _))
      (reached others _ (subset_append_right _ _)) clear otherClear record same
  · intro separated
    exact clear_of_separated owned (reached calls _ (List.Subset.refl _)) separated

/-- Parsers that accept every text as it is, and fingerprints that tell idempotency keys apart. -/
def plainEnvironment : Environment where
  parseEndpointId text := .ok text
  parseIpNet text := .ok text
  fingerprintApply request := request.idempotencyKey
  fingerprintDelete request := request.idempotencyKey

/-- A request for one route without a lease. -/
def oneRoute (owner name : String) (revision : Nat) (idempotencyKey : String) : Request :=
  .apply {
    routes := [{
      apiVersion := 1, name, owner, revision, ttlSeconds := none
      spec := { endpointId := "node", prefixes := ["10.30.0.0/16"] } }]
    dryRun := false
    idempotencyKey }

def dropRoute (owner name idempotencyKey : String) : Request :=
  .delete { owner, names := [name], expectedRevision := none, dryRun := false, idempotencyKey }

/-- The owner `a` has a route `b/c`. -/
def nestedName : ExtensionState :=
  new.run plainEnvironment [(oneRoute "a" "b/c" 5 "first", 100)]

/-- The owner `a/b` deletes its route `c` and thereby the route `b/c` of the owner `a`; and whether
it may apply its route `c` depends on the route of the owner `a`. -/
theorem owners_share_slots : routeKey "a" "b/c" = routeKey "a/b" "c" ∧
      (ownerRoutes "a" 101 nestedName).map DesiredRoute.name = ["b/c"] ∧
      ((dropRoute "a/b" "c" "second").mutate plainEnvironment nestedName 101).toOption.map
        (fun mutation => (mutation.result.changed,
          ownerRoutes "a" 101 (mutation.stored nestedName))) = some (1, []) ∧
      failure ((oneRoute "a/b" "c" 1 "third").mutate plainEnvironment nestedName 101) =
        some "route a/b/c revision 1 is not newer than 5" ∧
      ((oneRoute "a/b" "c" 1 "third").mutate plainEnvironment .new 101).toOption.isSome = true := by
  refine ⟨?_, ?_, ?_, ?_, ?_⟩ <;> decide

/-- The owner `ipam` has a route `office/a`. -/
def plainName : ExtensionState :=
  new.run plainEnvironment [(oneRoute "ipam" "office/a" 1 "first", 100)]

/-- The owner `dns` applies a route of the same name: that of `ipam` stays, and the request is
accepted as it is without it. -/
theorem owners_isolated_plain :
    ((oneRoute "dns" "office/a" 1 "second").mutate plainEnvironment plainName 101).toOption.map
        (fun mutation => ownerRoutes "ipam" 101 (mutation.stored plainName)) =
      some (ownerRoutes "ipam" 101 plainName) ∧
    ((∃ mutation, (oneRoute "dns" "office/a" 1 "second").mutate plainEnvironment plainName 101 =
        .ok mutation) ↔
      ∃ mutation, (oneRoute "dns" "office/a" 1 "second").mutate plainEnvironment new 101 =
        .ok mutation) := by
  have owned : (oneRoute "dns" "office/a" 1 "second").OwnedBy "dns" := by
    simp [Request.OwnedBy, oneRoute]
  obtain ⟨kept, settled, separate⟩ := owners_isolated plainEnvironment
    [(oneRoute "ipam" "office/a" 1 "first", 100)] _ "dns" 101 owned
  have clear := separate (separated_of_plain (by decide))
  have accepted := eq_ok_getD ⟨new, ⟨0, 0, 0, false, []⟩, false, false⟩ (by decide :
    ((oneRoute "dns" "office/a" 1 "second").mutate plainEnvironment plainName 101).toOption.isSome)
  refine ⟨?_, settled [] clear (fun _ _ _ found => by cases found) (by decide) (by decide)⟩
  rw [accepted]
  exact congrArg some ((kept _ accepted).mpr (fun _ => clear) "ipam" (by decide))

end Ironet.Extensions
