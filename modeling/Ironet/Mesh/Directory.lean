import Ironet.Mesh.PresenceRoundTrip
import Ironet.Support.HashMap

/-!
# The Presence directory

Model of `PresenceDirectoryV2` and of what it remembers. A record is replaced only by one with a
higher sequence number, but the only memory of a number is the record that carries it: when the
record is pruned or evicted, an older one of the same owner is new again. That never happens while
later records live at least as long as earlier ones and nothing has to be evicted.
-/
namespace Ironet.Mesh
open Support

def directoryCapacity : Nat := 4096

inductive PresenceUpdateV2 where
  | inserted
  | replaced
  | renewed
  | duplicate
  | stale
  deriving DecidableEq, Repr

def PresenceUpdateV2.stores : PresenceUpdateV2 → Bool
  | .inserted | .replaced | .renewed => true
  | .duplicate | .stale => false

section
variable [Iroh]

def sameTopology (current next : PresenceBodyV2) : Bool :=
  current.owner = next.owner && current.directAddresses = next.directAddresses &&
    current.nodeAddresses = next.nodeAddresses && current.prefixes = next.prefixes &&
    current.links = next.links && current.transitEnabled = next.transitEnabled

abbrev PresenceRecords := HashMap EndpointId SignedPresenceV2

/-- The order in which the hash map of the records is walked. -/
abbrev RecordOrder := IterationOrder (Sigma fun _ : EndpointId => SignedPresenceV2)

structure PresenceDirectoryV2 where
  networkId : String
  records : PresenceRecords

namespace PresenceDirectoryV2

def new (networkId : String) : Except String PresenceDirectoryV2 := do
  ensure (networkId ≠ "") "V2 Presence network ID is empty"
  .ok ⟨networkId, ∅⟩

def fresh (records : PresenceRecords) (now : Nat) : PresenceRecords :=
  records.retain fun _ record => now < record.body.expiresUnixSecs.toNat

def prune (self : PresenceDirectoryV2) (now : SystemTime) :
    Except String (Nat × PresenceDirectoryV2) := do
  let secs ← unixSecs now
  let records := fresh self.records secs
  .ok (self.records.size - records.size, { self with records })

def evictionKey (record : SignedPresenceV2) : ℕ ×ₗ ℕ :=
  toLex (record.body.expiresUnixSecs.toNat, record.body.sequence.toNat)

/-- `min_by_key`: the first of the least entries. -/
def oldest : List (Sigma fun _ : EndpointId => SignedPresenceV2) → Option EndpointId
  | [] => none
  | first :: rest =>
    some (rest.foldl (fun least entry =>
      if evictionKey entry.2 < evictionKey least.2 then entry else least) first).1

/-- Every turn removes a record, so there are at most as many turns as records. -/
def makeRoom (order : RecordOrder) (owner : EndpointId) :
    Nat → PresenceRecords → Except String PresenceRecords
  | 0, records => .ok records
  | turns + 1, records =>
    if directoryCapacity ≤ records.size ∧ owner ∉ records then
      match oldest (order.arrange records.entries) with
      | none => .error "V2 Presence directory capacity accounting failed"
      | some victim => makeRoom order owner turns (records.erase victim)
    else .ok records

/-- What a verified record is to the one held for its owner. -/
def classify (self : PresenceDirectoryV2) (presence : SignedPresenceV2) :
    Except String PresenceUpdateV2 :=
  match self.records.lookup presence.body.owner with
  | none => .ok .inserted
  | some current =>
    if presence.body.sequence.toNat < current.body.sequence.toNat then .ok .stale
    else if presence.body.sequence.toNat = current.body.sequence.toNat then do
      ensure (current = presence) "conflicting V2 Presence sequence replay"
      .ok .duplicate
    else if sameTopology current.body presence.body then .ok .renewed
    else .ok .replaced

variable [Blake3]

def insert (self : PresenceDirectoryV2) (presence : SignedPresenceV2) (now : SystemTime)
    (order : RecordOrder) : Except String (PresenceUpdateV2 × PresenceDirectoryV2) := do
  presence.verify self.networkId now
  let update ← self.classify presence
  if update.stores then
    let pruned ← self.prune now
    let records ← makeRoom order presence.body.owner pruned.2.records.size pruned.2.records
    .ok (update, { self with records := records.insert presence.body.owner presence })
  else .ok (update, self)

end PresenceDirectoryV2
end
end Ironet.Mesh
