import Mathlib.Data.String.Basic
import Ironet.Support.Checked
import Ironet.Support.SortedMap

/-!
# Desired routes of extensions

Executable model of `ExtensionState` in `extensions.rs`: the durable routes that external
control-plane extensions ask for, with revisions, leases and idempotency records.

The parsers of endpoint ids and prefixes and the hash of a request are third-party code and come as
parameters. Serialising a request cannot fail, so a fingerprint always exists. A `u64` is a natural
number; where the source saturates, so does the model.
-/
namespace Ironet.Extensions
open Support

abbrev UnixTime := Nat

def controlApiVersion : Nat := 1

def stateFileVersion : Nat := 1

def maxRouteTtlSeconds : Nat := 30 * 24 * 60 * 60

def maxIdempotencyRecords : Nat := 1024

/-! ### Requests and results -/

structure DesiredRouteSpec where
  endpointId : String
  prefixes : List String
  deriving DecidableEq, Repr

structure DesiredRoute where
  apiVersion : Nat
  name : String
  owner : String
  revision : Nat
  expiresUnix : Option UnixTime
  spec : DesiredRouteSpec
  deriving DecidableEq, Repr

structure RouteApply where
  apiVersion : Nat
  name : String
  owner : String
  revision : Nat
  ttlSeconds : Option Nat
  spec : DesiredRouteSpec
  deriving DecidableEq, Repr

structure ApplyRoutesRequest where
  routes : List RouteApply
  dryRun : Bool
  idempotencyKey : String
  deriving DecidableEq, Repr

structure DeleteRoutesRequest where
  owner : String
  names : List String
  expectedRevision : Option Nat
  dryRun : Bool
  idempotencyKey : String
  deriving DecidableEq, Repr

structure RouteMutationResult where
  generation : Nat
  changed : Nat
  unchanged : Nat
  dryRun : Bool
  routes : List DesiredRoute
  deriving DecidableEq, Repr

structure IdempotencyRecord where
  fingerprint : String
  result : RouteMutationResult
  deriving DecidableEq, Repr

/-- The third-party functions. Each parser returns the canonical text of what it parsed, so that two
texts denote the same value exactly when their canonical texts are equal. -/
structure Environment where
  parseEndpointId : String → Except String String
  parseIpNet : String → Except String String
  fingerprintApply : ApplyRoutesRequest → String
  fingerprintDelete : DeleteRoutesRequest → String

/-! ### Validation -/

def allowedCharacter (c : Char) : Bool :=
  c.isAlphanum || c == '.' || c == '/' || c == '_' || c == '-'

def validateName (value field : String) : Except String Unit := do
  ensure (value ≠ "" ∧ value.utf8ByteSize ≤ 128) (field ++ " must contain 1-128 characters")
  ensure (value.toList.all allowedCharacter) (field ++ " contains unsupported characters")

def validateKey (value field : String) : Except String Unit := validateName value field

/-- The loop of `validate_apply` over the prefixes. -/
def validatePrefixes (env : Environment) : List String → List String → Except String Unit
  | [], _ => .ok ()
  | text :: rest, seen =>
    match env.parseIpNet text with
    | .error _ => .error ("invalid route prefix " ++ text)
    | .ok parsed => do
      ensure (parsed ∉ seen) ("duplicate route prefix " ++ text)
      validatePrefixes env rest (parsed :: seen)

def validateApply (env : Environment) (route : RouteApply) : Except String Unit := do
  ensure (route.apiVersion = controlApiVersion)
    ("route " ++ route.name ++ " uses unsupported API version " ++ toString route.apiVersion)
  validateName route.name "route name"
  validateName route.owner "owner"
  ensure (0 < route.revision) "route revision must be greater than zero"
  ensure (route.spec.prefixes ≠ []) ("route " ++ route.name ++ " requires at least one prefix")
  ensure (route.ttlSeconds.all fun ttl => decide (0 < ttl ∧ ttl ≤ maxRouteTtlSeconds))
    ("route TTL must be between 1 and " ++ toString maxRouteTtlSeconds ++ " seconds")
  match env.parseEndpointId route.spec.endpointId with
  | .error _ => .error "invalid route endpoint_id"
  | .ok _ => validatePrefixes env route.spec.prefixes []

def desired (env : Environment) (route : RouteApply) (nowUnix : UnixTime) :
    Except String DesiredRoute := do
  let prefixes ← route.spec.prefixes.mapM env.parseIpNet
  let endpointId ← env.parseEndpointId route.spec.endpointId
  .ok {
    apiVersion := controlApiVersion
    name := route.name
    owner := route.owner
    revision := route.revision
    expiresUnix := route.ttlSeconds.map (saturatingAdd nowUnix)
    spec := { endpointId, prefixes := prefixes.insertionSort (· ≤ ·) } }

def expired (route : DesiredRoute) (nowUnix : UnixTime) : Bool :=
  route.expiresUnix.any fun expires => decide (expires ≤ nowUnix)

def routeKey (owner name : String) : String := owner ++ "/" ++ name

/-! ### The state -/

structure ExtensionState where
  version : Nat := stateFileVersion
  generation : Nat := 0
  routes : SortedMap String DesiredRoute := ∅
  idempotency : SortedMap String IdempotencyRecord := ∅

structure Mutation where
  state : ExtensionState
  result : RouteMutationResult
  persist : Bool
  reload : Bool

namespace ExtensionState

def new : ExtensionState := {}

variable (self : ExtensionState) (nowUnix : UnixTime)

def list : List DesiredRoute :=
  self.routes.values.filter fun route => !expired route nowUnix

/-- The routes without the expired ones. -/
def unexpired : SortedMap String DesiredRoute :=
  self.routes.retain fun _ route => !expired route nowUnix

def pruneExpired : Nat × ExtensionState :=
  (self.routes.size - (self.unexpired nowUnix).size, { self with routes := self.unexpired nowUnix })

@[simp] theorem pruneExpired_routes (self : ExtensionState) (nowUnix : UnixTime) :
    (self.pruneExpired nowUnix).2.routes = self.unexpired nowUnix := rfl

/-- The loop that drops idempotency records, least key first, until the limit holds. -/
def dropRecords : Nat → SortedMap String IdempotencyRecord → SortedMap String IdempotencyRecord
  | 0, records => records
  | fuel + 1, records =>
    if maxIdempotencyRecords < records.size then
      match records.entries with
      | [] => records
      | (oldest, _) :: _ => dropRecords fuel (records.erase oldest)
    else records

def finishMutation (dryRun : Bool) (changed unchanged : Nat)
    (idempotencyKey fingerprint : String) (nowUnix : UnixTime) : Mutation :=
  let nextGeneration := saturatingAdd self.generation (if 0 < changed then 1 else 0)
  let result : RouteMutationResult := {
    generation := nextGeneration, changed, unchanged, dryRun, routes := self.list nowUnix }
  if dryRun then { state := self, result, persist := false, reload := false }
  else
    let records := self.idempotency.insert idempotencyKey { fingerprint, result }
    { state := { self with
        generation := nextGeneration
        idempotency := dropRecords records.size records }
      result
      persist := true
      reload := decide (0 < changed) }

/-- A request whose key is on record is answered from the record. -/
def replay (cached : IdempotencyRecord) (fingerprint : String) : Except String Mutation := do
  ensure (cached.fingerprint = fingerprint)
    "idempotency_key was already used with different parameters"
  .ok { state := self, result := cached.result, persist := false, reload := false }

/-- What the loops of `apply` and `delete` carry: the routes so far, the keys or names that the
request already had, and the two counters. -/
structure Edit where
  routes : SortedMap String DesiredRoute
  seen : List String := []
  changed : Nat := 0
  unchanged : Nat := 0

variable (env : Environment)

/-- One turn of the loop of `apply`. -/
def applyRoute (nowUnix : UnixTime) (edit : Edit) (route : RouteApply) : Except String Edit := do
  validateApply env route
  let key := routeKey route.owner route.name
  ensure (key ∉ edit.seen) ("duplicate route " ++ key ++ " in request")
  let wanted ← desired env route nowUnix
  let seen := key :: edit.seen
  match edit.routes.lookup key with
  | some existing =>
    if route.revision = existing.revision then do
      ensure (existing.apiVersion = wanted.apiVersion ∧ existing.name = wanted.name ∧
          existing.owner = wanted.owner ∧ existing.spec = wanted.spec)
        ("route " ++ key ++ " revision " ++ toString route.revision ++
          " was reused with different state")
      .ok { edit with seen, unchanged := edit.unchanged + 1 }
    else do
      ensure (existing.revision < route.revision)
        ("route " ++ key ++ " revision " ++ toString route.revision ++ " is not newer than " ++
          toString existing.revision)
      .ok { edit with
        routes := edit.routes.insert key wanted, seen, changed := edit.changed + 1 }
  | none =>
    .ok { edit with routes := edit.routes.insert key wanted, seen, changed := edit.changed + 1 }

/-- One turn of the loop of `delete`. -/
def deleteRoute (request : DeleteRoutesRequest) (edit : Edit) (name : String) :
    Except String Edit := do
  validateName name "route name"
  ensure (name ∉ edit.seen) ("duplicate route name " ++ name ++ " in request")
  let key := routeKey request.owner name
  let seen := name :: edit.seen
  match edit.routes.lookup key with
  | some existing => do
    ensure (request.expectedRevision.all fun revision => revision = existing.revision)
      ("route " ++ key ++ " revision changed from " ++
        toString (request.expectedRevision.getD 0) ++ " to " ++ toString existing.revision)
    .ok { edit with routes := edit.routes.erase key, seen, changed := edit.changed + 1 }
  | none => .ok { edit with seen, unchanged := edit.unchanged + 1 }

/-- The part that `apply` and `delete` share after the loop. -/
def conclude (expiredCount : Nat) (edit : Edit) (dryRun : Bool)
    (idempotencyKey fingerprint : String) (nowUnix : UnixTime) : Mutation :=
  { self with routes := edit.routes }.finishMutation dryRun (edit.changed + expiredCount)
    edit.unchanged idempotencyKey fingerprint nowUnix

def apply (self : ExtensionState) (request : ApplyRoutesRequest)
    (nowUnix : UnixTime) : Except String Mutation := do
  ensure (request.routes ≠ []) "apply_routes requires at least one route"
  validateKey request.idempotencyKey "idempotency_key"
  let fingerprint := env.fingerprintApply request
  match self.idempotency.lookup request.idempotencyKey with
  | some cached => self.replay cached fingerprint
  | none => do
    let (expiredCount, candidate) := self.pruneExpired nowUnix
    let edit ← request.routes.foldlM (applyRoute env nowUnix) { routes := candidate.routes }
    .ok (candidate.conclude expiredCount edit request.dryRun request.idempotencyKey fingerprint
      nowUnix)

def delete (self : ExtensionState) (request : DeleteRoutesRequest)
    (nowUnix : UnixTime) : Except String Mutation := do
  validateName request.owner "owner"
  validateKey request.idempotencyKey "idempotency_key"
  ensure (request.names ≠ []) "delete_routes requires at least one name"
  let fingerprint := env.fingerprintDelete request
  match self.idempotency.lookup request.idempotencyKey with
  | some cached => self.replay cached fingerprint
  | none => do
    let (expiredCount, candidate) := self.pruneExpired nowUnix
    let edit ← request.names.foldlM (deleteRoute request) { routes := candidate.routes }
    .ok (candidate.conclude expiredCount edit request.dryRun request.idempotencyKey fingerprint
      nowUnix)

/-! ### Leases -/

def expire : Option (ExtensionState × List DesiredRoute) :=
  let gone := self.routes.values.filter fun route => expired route nowUnix
  if gone = [] then none
  else
    let candidate := (self.pruneExpired nowUnix).2
    some ({ candidate with generation := saturatingAdd candidate.generation 1 }, gone)

/-- The least lease that ends after now. -/
def nextExpiry : Option UnixTime :=
  ((self.routes.values.filterMap DesiredRoute.expiresUnix).filter
    fun expires => decide (nowUnix < expires)).min?

end ExtensionState

/-! ### Runs -/

inductive Request where
  | apply (request : ApplyRoutesRequest)
  | delete (request : DeleteRoutesRequest)
  deriving DecidableEq, Repr

namespace Request

def mutate (env : Environment) (state : ExtensionState) (nowUnix : UnixTime) :
    Request → Except String Mutation
  | .apply request => state.apply env request nowUnix
  | .delete request => state.delete env request nowUnix

def idempotencyKey : Request → String
  | .apply request => request.idempotencyKey
  | .delete request => request.idempotencyKey

/-- The `(owner, name)` pairs that a request names. -/
def pairs : Request → List (String × String)
  | .apply request => request.routes.map fun route => (route.owner, route.name)
  | .delete request => request.names.map fun name => (request.owner, name)

/-- The slots that a request names. -/
def keys (request : Request) : List String := request.pairs.map fun pair => routeKey pair.1 pair.2

def OwnedBy (owner : String) : Request → Prop
  | .apply request => ∀ route ∈ request.routes, route.owner = owner
  | .delete request => request.owner = owner

end Request

def Mutation.stored (mutation : Mutation) (before : ExtensionState) : ExtensionState :=
  if mutation.persist then mutation.state else before

/-- A request that is refused leaves the state as it was. -/
def ExtensionState.step (env : Environment) (state : ExtensionState)
    (call : Request × UnixTime) : ExtensionState :=
  match call.1.mutate env state call.2 with
  | .ok mutation => mutation.stored state
  | .error _ => state

def ExtensionState.run (env : Environment) (state : ExtensionState)
    (calls : List (Request × UnixTime)) : ExtensionState :=
  calls.foldl (ExtensionState.step env) state

end Ironet.Extensions
