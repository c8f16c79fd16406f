import Ironet.Support.Checked

/-!
# Invites and password enrollments

Executable model of the authority side of membership in `product/invites.rs`: the invite records,
which are never deleted, and the peers of the configuration. Each call is one transaction on both
files; `revoke_invite` alone writes only the records.

Loading the files and keys and validating a configuration are parameters. What the invite token
carries is not modelled, since no later call reads it. The identity that an invite generates and
the random id of the invite are arguments.
-/
namespace Ironet.Product
open Support

abbrev EndpointId := String

def defaultInviteLifetimeSecs : Nat := 3600

structure PeerConfig where
  name : String
  endpointId : EndpointId
  deriving DecidableEq, Repr

structure InviteRecord where
  id : String
  createdUnixSecs : Nat
  expiresUnixSecs : Nat
  revoked : Bool
  memberEndpointId : EndpointId
  pendingPasswordEnrollment : Bool
  provisionedPeer : Bool
  deriving DecidableEq, Repr

/-- The peers of the configuration and the invite records. -/
structure MemberFiles where
  peers : List PeerConfig
  invites : List InviteRecord
  deriving DecidableEq, Repr

/-- Whether the configuration, the state and the keys load and fit together, and whether a
configuration with these peers is valid. -/
structure Environment where
  authority : Except String Unit
  validate : List PeerConfig → Except String Unit

namespace MemberFiles

variable (self : MemberFiles)

def hasPeer (member : EndpointId) : Bool :=
  self.peers.any fun peer => peer.endpointId = member

def invitePeer (member : EndpointId) : PeerConfig where
  name := "invite-" ++ String.ofList (member.toList.take 12)
  endpointId := member

def createInviteWithPendingMember (env : Environment) (self : MemberFiles) (now : Nat)
    (id : String) (expiresInSecs : Option Nat) (member : EndpointId) (pending : Bool) :
    Except String MemberFiles := do
  env.validate self.peers
  env.authority
  let lifetime := expiresInSecs.getD defaultInviteLifetimeSecs
  ensure (0 < lifetime) "invite lifetime must be greater than zero"
  ensure (now + lifetime ≤ u64Max) "invite expiry overflow"
  let provisionedPeer := !self.hasPeer member
  let peers := if provisionedPeer then self.peers ++ [invitePeer member] else self.peers
  env.validate peers
  .ok {
    peers
    invites := self.invites ++ [{
      id
      createdUnixSecs := now
      expiresUnixSecs := now + lifetime
      revoked := false
      memberEndpointId := member
      pendingPasswordEnrollment := pending
      provisionedPeer := pending && provisionedPeer }] }

def updateInvite (id : String) (change : InviteRecord → InviteRecord) :
    List InviteRecord → List InviteRecord
  | [] => []
  | invite :: rest =>
    if invite.id = id then change invite :: rest else invite :: updateInvite id change rest

def findInvite (id : String) : Option InviteRecord :=
  self.invites.find? fun invite => invite.id = id

def markConfirmed (record : InviteRecord) : InviteRecord :=
  { record with pendingPasswordEnrollment := false }

variable (now : Nat)

def confirmPasswordEnrollment (inviteId : String)
    (member : EndpointId) : Except String MemberFiles :=
  match self.findInvite inviteId with
  | none => .error ("unknown password enrollment " ++ inviteId)
  | some invite => do
    ensure (invite.memberEndpointId = member)
      ("password enrollment " ++ inviteId ++ " belongs to a different node identity")
    ensure (invite.revoked = false)
      ("password enrollment " ++ inviteId ++ " has already been revoked")
    if invite.pendingPasswordEnrollment = false then .ok self
    else do
      ensure (now ≤ invite.expiresUnixSecs)
        ("password enrollment " ++ inviteId ++ " has expired")
      .ok { self with invites := updateInvite inviteId markConfirmed self.invites }

variable (invites : List InviteRecord)

/-- A peer that some revoked enrollment introduced and that was not confirmed by it. -/
def provisional (member : EndpointId) : Bool :=
  invites.any fun invite => invite.pendingPasswordEnrollment && invite.provisionedPeer &&
    invite.revoked && decide (invite.memberEndpointId = member)

def active (member : EndpointId) : Bool :=
  invites.any fun invite => !invite.revoked && decide (invite.memberEndpointId = member)

/-- Without a provisional peer the source returns early, and nothing would be removed. -/
def removeUnadmittedPasswordPeers (peers : List PeerConfig) (invites : List InviteRecord) :
    List PeerConfig :=
  peers.filter fun peer =>
    !provisional invites peer.endpointId || active invites peer.endpointId

/-- A pending enrollment whose deadline passed. -/
def overdue (invite : InviteRecord) : Bool :=
  invite.pendingPasswordEnrollment && !invite.revoked && decide (invite.expiresUnixSecs < now)

def revokeOverdue : List InviteRecord :=
  invites.map fun invite => if overdue now invite then { invite with revoked := true } else invite

def expirePendingPasswordEnrollments : MemberFiles :=
  if self.invites.any (overdue now) then
    let invites := revokeOverdue now self.invites
    { peers := removeUnadmittedPasswordPeers self.peers invites, invites }
  else self

def markRevoked (record : InviteRecord) : InviteRecord := { record with revoked := true }

def revokePasswordEnrollment (inviteId : String) : Except String MemberFiles :=
  match self.findInvite inviteId with
  | none => .error ("unknown password enrollment " ++ inviteId)
  | some _ =>
    let invites := updateInvite inviteId markRevoked self.invites
    .ok { peers := removeUnadmittedPasswordPeers self.peers invites, invites }

def revokeInvite (id : String) : Except String MemberFiles :=
  match self.findInvite id with
  | none => .error ("unknown invite " ++ id)
  | some _ => .ok { self with invites := updateInvite id markRevoked self.invites }

end MemberFiles

/-! ### Runs -/

/-- The calls of the authority, and what the operator does to the configuration by hand. -/
inductive Call where
  | createInvite (now : Nat) (id : String) (expiresInSecs : Option Nat) (member : EndpointId)
  | createPasswordEnrollmentInvite (now : Nat) (id : String) (expiresInSecs : Nat)
      (member : EndpointId)
  | confirmPasswordEnrollment (now : Nat) (id : String) (member : EndpointId)
  | expirePendingPasswordEnrollments (now : Nat)
  | revokePasswordEnrollment (id : String)
  | revokeInvite (id : String)
  | addPeer (peer : PeerConfig)
  | removePeer (member : EndpointId)
  deriving DecidableEq, Repr

namespace MemberFiles

variable (env : Environment) (self : MemberFiles)

def call : Call → Except String MemberFiles
  | .createInvite now id expiresInSecs member =>
    self.createInviteWithPendingMember env now id expiresInSecs member false
  | .createPasswordEnrollmentInvite now id expiresInSecs member =>
    self.createInviteWithPendingMember env now id (some expiresInSecs) member true
  | .confirmPasswordEnrollment now id member => self.confirmPasswordEnrollment now id member
  | .expirePendingPasswordEnrollments now => .ok (self.expirePendingPasswordEnrollments now)
  | .revokePasswordEnrollment id => self.revokePasswordEnrollment id
  | .revokeInvite id => self.revokeInvite id
  | .addPeer peer => .ok { self with peers := self.peers ++ [peer] }
  | .removePeer member =>
    .ok { self with peers := self.peers.filter fun peer => peer.endpointId ≠ member }

/-- A call that fails leaves both files as they were. -/
def step (call : Call) : MemberFiles :=
  match self.call env call with
  | .ok after => after
  | .error _ => self

def run (calls : List Call) : MemberFiles :=
  calls.foldl (step env) self

end MemberFiles
end Ironet.Product
