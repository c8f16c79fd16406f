import Ironet.Product.Invites

/-!
# Enrollment and membership

Two questions about a peer: does it go when no enrollment of it was confirmed in time, and does it
stay when the operator added it or an enrollment of it was confirmed? Both are answered from the
invite records alone, over their whole history.
-/
namespace Ironet.Product
open Support MemberFiles List

variable {env : Environment} {member : EndpointId}

/-! ### Records of a peer -/

/-- An enrollment introduced the peer and was not confirmed. -/
def Pledged (member : EndpointId) (invites : List InviteRecord) : Prop :=
  ∃ invite ∈ invites, invite.memberEndpointId = member ∧
    invite.pendingPasswordEnrollment = true ∧ invite.provisionedPeer = true

/-- An invite of the peer that is neither revoked nor waiting to be confirmed. -/
def Admitting (member : EndpointId) (invite : InviteRecord) : Prop :=
  invite.memberEndpointId = member ∧ invite.revoked = false ∧
    invite.pendingPasswordEnrollment = false

variable {self : MemberFiles}

theorem hasPeer_iff :
    self.hasPeer member = true ↔ ∃ peer ∈ self.peers, peer.endpointId = member := by
  simp [hasPeer]

variable {invites : List InviteRecord}

theorem provisional_iff :
    provisional invites member = true ↔ ∃ invite ∈ invites, invite.memberEndpointId = member ∧
      invite.pendingPasswordEnrollment = true ∧ invite.provisionedPeer = true ∧
      invite.revoked = true := by
  simp only [provisional, any_eq_true, Bool.and_eq_true, decide_eq_true_eq]
  exact exists_congr fun invite => and_congr_right fun _ => by tauto

theorem active_iff : active invites member = true ↔
      ∃ invite ∈ invites, invite.memberEndpointId = member ∧ invite.revoked = false := by
  simp only [active, any_eq_true, Bool.and_eq_true, Bool.not_eq_true', decide_eq_true_eq]
  exact exists_congr fun invite => and_congr_right fun _ => and_comm

theorem Pledged.of_provisional
    (found : provisional invites member = true) : Pledged member invites := by
  obtain ⟨invite, listed, own, pending, provisioned, -⟩ := provisional_iff.mp found
  exact ⟨invite, listed, own, pending, provisioned⟩

theorem hasPeer_removeUnadmitted {peers : List PeerConfig} :
    hasPeer ⟨removeUnadmittedPasswordPeers peers invites, invites⟩ member = true ↔
      hasPeer ⟨peers, invites⟩ member = true ∧
        (provisional invites member = false ∨ active invites member = true) := by
  simp only [hasPeer_iff, removeUnadmittedPasswordPeers, mem_filter, Bool.or_eq_true,
    Bool.not_eq_true']
  constructor
  · rintro ⟨peer, ⟨listed, kept⟩, rfl⟩
    exact ⟨⟨peer, listed, rfl⟩, kept⟩
  · rintro ⟨⟨peer, listed, rfl⟩, kept⟩
    exact ⟨peer, ⟨listed, kept⟩, rfl⟩

/-! ### What happens to a record -/

variable {id : String} {change : InviteRecord → InviteRecord} {invite : InviteRecord}

/-- The first record with the id is replaced, every other one stays. -/
theorem updateInvite_split {found : InviteRecord}
    (isFirst : invites.find? (fun invite => invite.id = id) = some found) :
    ∃ front back, invites = front ++ found :: back ∧
      updateInvite id change invites = front ++ change found :: back := by
  induction invites with
  | nil => cases isFirst
  | cons head rest ih =>
    by_cases same : head.id = id
    · obtain rfl : head = found := by simpa [same] using isFirst
      exact ⟨[], rest, rfl, by simp [updateInvite, same]⟩
    · obtain ⟨front, back, split, updated⟩ := ih (by simpa [same] using isFirst)
      exact ⟨head :: front, back, by simp [split], by simp [updateInvite, same, updated]⟩

section
variable {found : InviteRecord}
  (isFirst : invites.find? (fun invite => invite.id = id) = some found)
include isFirst

theorem mem_updateInvite (listed : invite ∈ updateInvite id change invites) :
    invite = change found ∨ invite ∈ invites := by
  obtain ⟨front, back, rfl, updated⟩ := @updateInvite_split invites id change found isFirst
  simp only [updated, mem_append, mem_cons] at listed ⊢
  tauto

theorem updateInvite_mem (listed : invite ∈ invites) : invite ∈ updateInvite id change invites ∨
      (invite = found ∧ change found ∈ updateInvite id change invites) := by
  obtain ⟨front, back, rfl, updated⟩ := @updateInvite_split invites id change found isFirst
  simp only [updated, mem_append, mem_cons] at listed ⊢
  tauto

theorem changed_mem : change found ∈ updateInvite id change invites := by
  obtain ⟨front, back, -, updated⟩ := @updateInvite_split invites id change found isFirst
  simp [updated]

end

/-! ### What a call can do -/

variable {after : MemberFiles} {subject : EndpointId} {now : Nat}

theorem create_cases {expiresInSecs : Option Nat} {pending : Bool}
    (made : self.createInviteWithPendingMember env now id expiresInSecs subject pending =
      .ok after) : ∃ record : InviteRecord, after.invites = self.invites ++ [record] ∧
      record.memberEndpointId = subject ∧ record.revoked = false ∧
      record.pendingPasswordEnrollment = pending ∧
      record.provisionedPeer = (pending && !self.hasPeer subject) ∧
      after.peers = if self.hasPeer subject then self.peers
        else self.peers ++ [invitePeer subject] := by
  simp only [createInviteWithPendingMember, do_eq_ok] at made
  obtain ⟨-, -, -, -, -, rfl⟩ := made
  refine ⟨_, rfl, rfl, rfl, rfl, rfl, ?_⟩
  cases self.hasPeer subject <;> rfl

theorem confirm_cases (made : self.confirmPasswordEnrollment now id subject = .ok after) :
    ∃ found, self.findInvite id = some found ∧ found.memberEndpointId = subject ∧
      found.revoked = false ∧
      ((found.pendingPasswordEnrollment = false ∧ after = self) ∨
        (found.pendingPasswordEnrollment = true ∧
          after = { self with invites := updateInvite id markConfirmed self.invites })) := by
  unfold confirmPasswordEnrollment at made
  cases isFirst : self.findInvite id with
  | none => simp [isFirst] at made
  | some found =>
  simp only [isFirst, do_eq_ok] at made
  obtain ⟨own, unrevoked, turn⟩ := made
  refine ⟨found, rfl, own, unrevoked, ?_⟩
  split at turn
  next settled => exact .inl ⟨settled, (Except.ok.inj turn).symm⟩
  next waiting =>
    simp only [do_eq_ok] at turn
    exact .inr ⟨by simpa using waiting, turn.2.symm⟩

theorem revokePassword_cases (made : self.revokePasswordEnrollment id = .ok after) :
    ∃ found, self.findInvite id = some found ∧
      after = ⟨removeUnadmittedPasswordPeers self.peers (updateInvite id markRevoked self.invites),
        updateInvite id markRevoked self.invites⟩ := by
  unfold revokePasswordEnrollment at made
  split at made
  next => cases made
  next found isFirst => exact ⟨found, isFirst, (Except.ok.inj made).symm⟩

theorem revokeInvite_cases (made : self.revokeInvite id = .ok after) :
    ∃ found, self.findInvite id = some found ∧
      after = { self with invites := updateInvite id markRevoked self.invites } := by
  unfold revokeInvite at made
  split at made
  next => cases made
  next found isFirst => exact ⟨found, isFirst, (Except.ok.inj made).symm⟩

theorem mem_revokeOverdue : invite ∈ revokeOverdue now invites ↔ ∃ before ∈ invites,
      (if overdue now before then { before with revoked := true } else before) = invite := by
  simp [revokeOverdue]

theorem mem_revokeOverdue_of_not (listed : invite ∈ invites) (early : overdue now invite = false) :
    invite ∈ revokeOverdue now invites :=
  mem_revokeOverdue.mpr ⟨invite, listed, by simp [early]⟩

/-! ### Pledges and peers through a call -/

theorem Pledged.append (pledged : Pledged member invites)
    (record : InviteRecord) : Pledged member (invites ++ [record]) := by
  obtain ⟨invite, listed, facts⟩ := pledged
  exact ⟨invite, mem_append_left _ listed, facts⟩

theorem pledged_revokeOverdue :
    Pledged member (revokeOverdue now invites) ↔ Pledged member invites := by
  constructor
  · rintro ⟨invite, listed, facts⟩
    obtain ⟨before, isBefore, rfl⟩ := mem_revokeOverdue.mp listed
    refine ⟨before, isBefore, ?_⟩
    cases late : overdue now before <;> simpa [late] using facts
  · rintro ⟨invite, listed, facts⟩
    refine ⟨_, mem_revokeOverdue.mpr ⟨invite, listed, rfl⟩, ?_⟩
    cases late : overdue now invite <;> simpa [late] using facts

section
variable {found : InviteRecord}
  (isFirst : invites.find? (fun invite => invite.id = id) = some found)
include isFirst

theorem pledged_revoked :
    Pledged member (updateInvite id markRevoked invites) ↔ Pledged member invites := by
  constructor
  · rintro ⟨invite, listed, facts⟩
    rcases mem_updateInvite isFirst listed with rfl | kept
    · exact ⟨found, mem_of_find?_eq_some isFirst, facts⟩
    · exact ⟨invite, kept, facts⟩
  · rintro ⟨invite, listed, facts⟩
    rcases updateInvite_mem isFirst listed with kept | ⟨rfl, changed⟩
    · exact ⟨invite, kept, facts⟩
    · exact ⟨markRevoked invite, changed, facts⟩

/-- Confirming the enrollment of another peer does not touch a pledge. -/
theorem Pledged.confirmed (foreign : found.memberEndpointId ≠ member)
    (pledged : Pledged member invites) :
    Pledged member (updateInvite id markConfirmed invites) := by
  obtain ⟨invite, listed, own, facts⟩ := pledged
  rcases updateInvite_mem isFirst listed with kept | ⟨same, _⟩
  · exact ⟨invite, kept, own, facts⟩
  · exact (foreign (same ▸ own)).elim

theorem pledged_of_confirmed (pledged : Pledged member (updateInvite id markConfirmed invites)) :
    Pledged member invites := by
  obtain ⟨invite, listed, own, pending, facts⟩ := pledged
  rcases mem_updateInvite isFirst listed with rfl | kept
  · cases pending
  · exact ⟨invite, kept, own, pending, facts⟩

end

theorem hasPeer_create (peers : after.peers = if self.hasPeer subject then self.peers
      else self.peers ++ [invitePeer subject]) :
    after.hasPeer member = true ↔ self.hasPeer member = true ∨ subject = member := by
  rw [hasPeer_iff, hasPeer_iff, peers]
  cases present : self.hasPeer subject with
  | true =>
    constructor
    · exact .inl
    · rintro (held | rfl)
      · exact held
      · exact hasPeer_iff.mp present
  | false =>
    simp [invitePeer, or_and_right, exists_or]

theorem hasPeer_sweep : (self.expirePendingPasswordEnrollments now).hasPeer member = true ↔
      self.hasPeer member = true ∧ (self.invites.any (overdue now) = true →
        provisional (revokeOverdue now self.invites) member = false ∨
          active (revokeOverdue now self.invites) member = true) := by
  unfold expirePendingPasswordEnrollments
  by_cases some : self.invites.any (overdue now) = true
  · simp only [some, if_true, true_implies]
    exact hasPeer_removeUnadmitted
  · simp [some]

/-! ### Peers that nobody admitted -/

def confirms (member : EndpointId) (self : MemberFiles) : Call → Bool
  | .confirmPasswordEnrollment now id subject =>
    decide (subject = member) &&
      (self.findInvite id).any InviteRecord.pendingPasswordEnrollment &&
      (self.confirmPasswordEnrollment now id subject).toOption.isSome
  | _ => false

/-- The call confirms an enrollment of the peer, or puts the peer into the configuration other than
by a password enrollment. -/
def Admits (env : Environment) (member : EndpointId) (self : MemberFiles) (call : Call) : Prop :=
  confirms member self call = true ∨
  match call with
  | .addPeer peer => peer.endpointId = member
  | .createInvite now id expiresInSecs subject => subject = member ∧ self.hasPeer member = false ∧
      (self.step env (.createInvite now id expiresInSecs subject)).hasPeer member = true
  | _ => False

/-- No call of the run admits the peer. -/
def Unadmitted (env : Environment) (member : EndpointId) : MemberFiles → List Call → Prop
  | _, [] => True
  | self, call :: rest =>
    ¬ Admits env member self call ∧ Unadmitted env member (self.step env call) rest

variable {call : Call}

theorem step_pledged (unadmitted : ¬ Admits env member self call)
    (pledged : self.hasPeer member = true → Pledged member self.invites)
    (held : (self.step env call).hasPeer member = true) :
    Pledged member (self.step env call).invites := by
  unfold step at held ⊢
  cases result : self.call env call with
  | error message =>
    rw [result] at held
    exact pledged held
  | ok after =>
  rw [result] at held
  simp only at held ⊢
  cases call with
  | createInvite now id expiresInSecs subject =>
    obtain ⟨record, invites, -, -, -, -, peers⟩ := create_cases result
    rw [invites]
    apply Pledged.append
    apply pledged
    by_contra absent
    -- the invite would have introduced the peer
    have absent' : self.hasPeer member = false := by simpa using absent
    have isSubject : subject = member := ((hasPeer_create peers).mp held).resolve_left absent
    exact unadmitted (.inr ⟨isSubject, absent', by simpa [step, result] using held⟩)
  | createPasswordEnrollmentInvite now id expiresInSecs subject =>
    obtain ⟨record, invites, own, -, pending, provisioned, peers⟩ := create_cases result
    rw [invites]
    by_cases present : self.hasPeer member = true
    · exact (pledged present).append record
    · have isSubject : subject = member := ((hasPeer_create peers).mp held).resolve_left present
      refine ⟨record, by simp, own.trans isSubject, pending, ?_⟩
      rw [provisioned, isSubject]
      simpa using present
  | confirmPasswordEnrollment now id subject =>
    obtain ⟨found, isFirst, own, -, ⟨-, rfl⟩ | ⟨waiting, rfl⟩⟩ := confirm_cases result
    · exact pledged held
    · refine (pledged held).confirmed isFirst fun isMember => unadmitted (.inl ?_)
      obtain rfl : subject = member := own.symm.trans isMember
      have returned : self.confirmPasswordEnrollment now id subject = .ok _ := result
      simp [confirms, isFirst, waiting, returned, Except.toOption]
  | expirePendingPasswordEnrollments now =>
    obtain rfl := Except.ok.inj result
    have before := pledged (hasPeer_sweep.mp held).1
    unfold expirePendingPasswordEnrollments
    split
    · exact pledged_revokeOverdue.mpr before
    · exact before
  | revokePasswordEnrollment id =>
    obtain ⟨found, isFirst, rfl⟩ := revokePassword_cases result
    exact (pledged_revoked isFirst).mpr (pledged (hasPeer_removeUnadmitted.mp held).1)
  | revokeInvite id =>
    obtain ⟨found, isFirst, rfl⟩ := revokeInvite_cases result
    exact (pledged_revoked isFirst).mpr (pledged held)
  | addPeer peer =>
    obtain rfl := Except.ok.inj result
    apply pledged
    obtain ⟨held, listed, own⟩ := hasPeer_iff.mp held
    rcases mem_append.mp listed with old | new
    · exact hasPeer_iff.mpr ⟨held, old, own⟩
    · obtain rfl : held = peer := by simpa using new
      exact (unadmitted (.inr own)).elim
  | removePeer subject =>
    obtain rfl := Except.ok.inj result
    obtain ⟨peer, listed, own⟩ := hasPeer_iff.mp held
    exact pledged (hasPeer_iff.mpr ⟨peer, (mem_filter.mp listed).1, own⟩)

theorem run_pledged : ∀ (calls : List Call) (self : MemberFiles),
    Unadmitted env member self calls →
    (self.hasPeer member = true → Pledged member self.invites) →
    (self.run env calls).hasPeer member = true → Pledged member (self.run env calls).invites := by
  intro calls
  induction calls with
  | nil =>
    intro self _ pledged held
    exact pledged held
  | cons call rest ih =>
    intro self unadmitted pledged held
    exact ih (self.step env call) unadmitted.2 (step_pledged unadmitted.1 pledged) held

/-- After all deadlines of a pledged peer, the sweep takes it out exactly when some enrollment is
overdue and no invite of the peer, other than its enrollments, stands. -/
theorem sweep_absent_iff (pledged : self.hasPeer member = true → Pledged member self.invites)
    (deadlines : ∀ invite ∈ self.invites, invite.memberEndpointId = member →
      invite.pendingPasswordEnrollment = true → invite.expiresUnixSecs < now) :
    (self.expirePendingPasswordEnrollments now).hasPeer member = false ↔
      self.hasPeer member = false ∨ (self.invites.any (overdue now) = true ∧
        ∀ invite ∈ self.invites, ¬ Admitting member invite) := by
  rw [← Bool.not_eq_true, hasPeer_sweep]
  by_cases present : self.hasPeer member = true
  · -- the pledge is revoked by now, so only an active invite could keep the peer
    have isProvisional : provisional (revokeOverdue now self.invites) member = true := by
      obtain ⟨invite, listed, own, pending, provisioned⟩ := pledged present
      have passed := deadlines invite listed own pending
      refine provisional_iff.mpr ⟨_, mem_revokeOverdue.mpr ⟨invite, listed, rfl⟩, ?_⟩
      cases revoked : invite.revoked <;>
        simp [overdue, pending, passed, revoked, own, provisioned]
    have isActive : active (revokeOverdue now self.invites) member = true ↔
        ∃ invite ∈ self.invites, Admitting member invite := by
      rw [active_iff]
      constructor
      · rintro ⟨invite, listed, own, unrevoked⟩
        obtain ⟨before, isBefore, rfl⟩ := mem_revokeOverdue.mp listed
        cases late : overdue now before with
        | true => simp [late] at unrevoked
        | false =>
        simp only [late, Bool.false_eq_true, if_false] at own unrevoked
        refine ⟨before, isBefore, own, unrevoked, ?_⟩
        by_contra waiting
        have pending : before.pendingPasswordEnrollment = true := by simpa using waiting
        simp [overdue, pending, unrevoked, deadlines before isBefore own pending] at late
      · rintro ⟨invite, listed, own, unrevoked, settled⟩
        exact ⟨invite, mem_revokeOverdue_of_not listed (by simp [overdue, settled]), own, unrevoked⟩
    simp only [present, true_and, isProvisional, Bool.true_eq_false, false_or, isActive, not_forall,
      exists_prop, not_exists, not_and]
  · have absent : self.hasPeer member = false := by simpa using present
    simp [absent]

/-! ### Peers that somebody admitted -/

/-- What the history of a run says about a peer: whether the operator added it and did not remove it
since, and whether some enrollment of it was confirmed. -/
structure Standing where
  operator : Bool
  confirmed : Bool
  deriving DecidableEq, Repr

def Standing.next (member : EndpointId) (self : MemberFiles) (standing : Standing) (call : Call) :
    Standing where
  operator := match call with
    | .addPeer peer => standing.operator || decide (peer.endpointId = member)
    | .removePeer subject => standing.operator && !decide (subject = member)
    | _ => standing.operator
  confirmed := standing.confirmed || confirms member self call

/-- The operator adds the peer only when no enrollment introduced it before, and no call revokes an
invite that admitted it. -/
def Careful (member : EndpointId) (self : MemberFiles) : Call → Prop
  | .addPeer peer => peer.endpointId = member → ¬ Pledged member self.invites
  | .revokePasswordEnrollment id => ∀ found, self.findInvite id = some found →
      ¬ Admitting member found
  | .revokeInvite id => ∀ found, self.findInvite id = some found → ¬ Admitting member found
  | _ => True

def CarefulRun (env : Environment) (member : EndpointId) : MemberFiles → List Call → Prop
  | _, [] => True
  | self, call :: rest => Careful member self call ∧ CarefulRun env member (self.step env call) rest

def standingAfter (env : Environment) (member : EndpointId) :
    MemberFiles → Standing → List Call → Standing
  | _, standing, [] => standing
  | self, standing, call :: rest =>
    standingAfter env member (self.step env call) (standing.next member self call) rest

/-- What the files say about a peer with this standing. -/
structure Safe (member : EndpointId) (standing : Standing) (files : MemberFiles) : Prop where
  operator : standing.operator = true →
    files.hasPeer member = true ∧ ¬ Pledged member files.invites
  confirmed : standing.confirmed = true → ∃ invite ∈ files.invites, Admitting member invite

theorem admitting_revoked {found : InviteRecord}
    (isFirst : invites.find? (fun invite => invite.id = id) = some found)
    (other : ¬ Admitting member found) (admitting : ∃ invite ∈ invites, Admitting member invite) :
    ∃ invite ∈ updateInvite id markRevoked invites, Admitting member invite := by
  obtain ⟨invite, listed, admits⟩ := admitting
  rcases updateInvite_mem isFirst listed with kept | ⟨rfl, -⟩
  · exact ⟨invite, kept, admits⟩
  · exact (other admits).elim

theorem admitting_sweep (admitting : ∃ invite ∈ invites, Admitting member invite) :
    ∃ invite ∈ revokeOverdue now invites, Admitting member invite := by
  obtain ⟨invite, listed, admits⟩ := admitting
  exact ⟨invite, mem_revokeOverdue_of_not listed (by simp [overdue, admits.2.2]), admits⟩

theorem active_of_admitting
    (admitting : ∃ invite ∈ invites, Admitting member invite) : active invites member = true := by
  obtain ⟨invite, listed, own, unrevoked, -⟩ := admitting
  exact active_iff.mpr ⟨invite, listed, own, unrevoked⟩

theorem not_provisional (unpledged : ¬ Pledged member invites) :
    provisional invites member = false := by
  by_contra found
  exact unpledged (.of_provisional (by simpa using found))

variable {standing : Standing}

section
variable (result : self.call env call = .ok after) (careful : Careful member self call)
  (safe : Safe member standing self)
include result careful safe

theorem step_admitting (confirmed : (standing.next member self call).confirmed = true) :
    ∃ invite ∈ after.invites, Admitting member invite := by
  have reason : standing.confirmed = true ∨ confirms member self call = true := by
    simpa [Standing.next] using confirmed
  cases call with
  | confirmPasswordEnrollment now id subject =>
    obtain ⟨found, isFirst, own, unrevoked, turn⟩ := confirm_cases result
    rcases reason with before | confirmedNow
    · -- the invite that admitted the peer before still does
      obtain ⟨invite, listed, admits⟩ := safe.confirmed before
      rcases turn with ⟨-, rfl⟩ | ⟨-, rfl⟩
      · exact ⟨invite, listed, admits⟩
      · rcases updateInvite_mem isFirst listed with kept | ⟨rfl, changed⟩
        · exact ⟨invite, kept, admits⟩
        · exact ⟨_, changed, admits.1, admits.2.1, rfl⟩
    simp only [confirms, isFirst, Bool.and_eq_true, decide_eq_true_eq, Option.any_some]
      at confirmedNow
    obtain ⟨⟨isMember, waiting⟩, -⟩ := confirmedNow
    rcases turn with ⟨settled, -⟩ | ⟨-, rfl⟩
    · rw [settled] at waiting
      cases waiting
    · exact ⟨_, changed_mem isFirst, own.trans isMember, unrevoked, rfl⟩
  | createInvite | createPasswordEnrollmentInvite =>
    obtain ⟨invite, listed, admits⟩ := safe.confirmed (by simpa [confirms] using reason)
    obtain ⟨record, invites, -⟩ := create_cases result
    exact ⟨invite, by simp [invites, listed], admits⟩
  | expirePendingPasswordEnrollments now =>
    obtain rfl := Except.ok.inj result
    have before := safe.confirmed (by simpa [confirms] using reason)
    unfold expirePendingPasswordEnrollments
    split
    · exact admitting_sweep before
    · exact before
  | revokePasswordEnrollment id =>
    obtain ⟨found, isFirst, rfl⟩ := revokePassword_cases result
    exact admitting_revoked isFirst (careful found isFirst)
      (safe.confirmed (by simpa [confirms] using reason))
  | revokeInvite id =>
    obtain ⟨found, isFirst, rfl⟩ := revokeInvite_cases result
    exact admitting_revoked isFirst (careful found isFirst)
      (safe.confirmed (by simpa [confirms] using reason))
  | addPeer | removePeer =>
    obtain rfl := Except.ok.inj result
    exact safe.confirmed (by simpa [confirms] using reason)

/-- A peer of the operator is there, and no enrollment introduced it. -/
theorem step_operator (operator : (standing.next member self call).operator = true) :
    after.hasPeer member = true ∧ ¬ Pledged member after.invites := by
  cases call with
  | createInvite | createPasswordEnrollmentInvite =>
    obtain ⟨present, unpledged⟩ := safe.operator operator
    obtain ⟨record, invites, isSubject, -, -, isProvisioned, peers⟩ := create_cases result
    refine ⟨(hasPeer_create peers).mpr (.inl present), ?_⟩
    rintro ⟨invite, listed, own, waiting, provisioned⟩
    rw [invites, mem_append, mem_singleton] at listed
    rcases listed with old | rfl
    · exact unpledged ⟨invite, old, own, waiting, provisioned⟩
    · -- the peer was there, so no enrollment introduced it
      simp [isProvisioned, ← isSubject, own, present] at provisioned
  | confirmPasswordEnrollment now id subject =>
    obtain ⟨present, unpledged⟩ := safe.operator operator
    obtain ⟨found, isFirst, -, -, ⟨-, rfl⟩ | ⟨-, rfl⟩⟩ := confirm_cases result
    · exact ⟨present, unpledged⟩
    · exact ⟨present, mt (pledged_of_confirmed isFirst) unpledged⟩
  | expirePendingPasswordEnrollments now =>
    obtain rfl := Except.ok.inj result
    obtain ⟨present, unpledged⟩ := safe.operator operator
    have swept : ¬ Pledged member (revokeOverdue now self.invites) :=
      mt pledged_revokeOverdue.mp unpledged
    refine ⟨hasPeer_sweep.mpr ⟨present, fun _ => .inl (not_provisional swept)⟩, ?_⟩
    unfold expirePendingPasswordEnrollments
    split
    · exact swept
    · exact unpledged
  | revokePasswordEnrollment id =>
    obtain ⟨present, unpledged⟩ := safe.operator operator
    obtain ⟨found, isFirst, rfl⟩ := revokePassword_cases result
    have still : ¬ Pledged member (updateInvite id markRevoked self.invites) :=
      mt (pledged_revoked isFirst).mp unpledged
    exact ⟨hasPeer_removeUnadmitted.mpr ⟨present, .inl (not_provisional still)⟩, still⟩
  | revokeInvite id =>
    obtain ⟨present, unpledged⟩ := safe.operator operator
    obtain ⟨found, isFirst, rfl⟩ := revokeInvite_cases result
    exact ⟨present, mt (pledged_revoked isFirst).mp unpledged⟩
  | addPeer peer =>
    obtain rfl := Except.ok.inj result
    have reason : standing.operator = true ∨ peer.endpointId = member := by
      simpa [Standing.next] using operator
    rcases reason with before | isMember
    · obtain ⟨present, unpledged⟩ := safe.operator before
      obtain ⟨held, listed, own⟩ := hasPeer_iff.mp present
      exact ⟨hasPeer_iff.mpr ⟨held, mem_append_left _ listed, own⟩, unpledged⟩
    · exact ⟨hasPeer_iff.mpr ⟨peer, by simp, isMember⟩, careful isMember⟩
  | removePeer subject =>
  obtain rfl := Except.ok.inj result
  have reason : standing.operator = true ∧ subject ≠ member := by
    simpa [Standing.next] using operator
  obtain ⟨present, unpledged⟩ := safe.operator reason.1
  obtain ⟨held, listed, own⟩ := hasPeer_iff.mp present
  refine ⟨hasPeer_iff.mpr ⟨held, mem_filter.mpr ⟨listed, ?_⟩, own⟩, unpledged⟩
  rw [own]
  simpa using Ne.symm reason.2

end

theorem step_safe (careful : Careful member self call) (safe : Safe member standing self) :
    Safe member (standing.next member self call) (self.step env call) := by
  unfold step
  cases result : self.call env call with
  | ok after => exact ⟨step_operator result careful safe, step_admitting result careful safe⟩
  | error message =>
  -- only calls that can fail get here, and they change neither flag
  cases call with
  | createInvite | createPasswordEnrollmentInvite | revokePasswordEnrollment | revokeInvite =>
    exact ⟨safe.operator, fun flag => safe.confirmed
      (by simpa [Standing.next, confirms] using flag)⟩
  | confirmPasswordEnrollment now id subject =>
    have failed : self.confirmPasswordEnrollment now id subject = .error message := result
    refine ⟨safe.operator, fun flag => safe.confirmed ?_⟩
    simpa [Standing.next, confirms, failed, Except.toOption] using flag
  | expirePendingPasswordEnrollments | addPeer | removePeer => cases result

theorem run_safe : ∀ (calls : List Call) (self : MemberFiles) (standing : Standing),
    CarefulRun env member self calls → Safe member standing self →
    Safe member (standingAfter env member self standing calls) (self.run env calls) := by
  intro calls
  induction calls with
  | nil =>
    intro self standing _ safe
    exact safe
  | cons call rest ih =>
    intro self standing careful safe
    exact ih (self.step env call) (standing.next member self call) careful.2
      (step_safe careful.1 safe)

/-- A sweep or the revocation of an enrollment. -/
def Removes : Call → Prop
  | .expirePendingPasswordEnrollments _ => True
  | .revokePasswordEnrollment _ => True
  | _ => False

theorem admitted_kept (removes : Removes call) (careful : Careful member self call)
    (safe : Safe member standing self)
    (admitted : standing.operator = true ∨ standing.confirmed = true)
    (present : self.hasPeer member = true) : (self.step env call).hasPeer member = true := by
  rcases admitted with operator | confirmed
  · have flag : (standing.next member self call).operator = true := by
      cases call <;> first | exact operator | exact removes.elim
    exact ((step_safe careful safe).operator flag).1
  cases call with
  | expirePendingPasswordEnrollments now =>
    exact hasPeer_sweep.mpr ⟨present, fun _ =>
      .inr (active_of_admitting (admitting_sweep (safe.confirmed confirmed)))⟩
  | revokePasswordEnrollment id =>
    unfold step
    cases result : self.call env (.revokePasswordEnrollment id) with
    | error message => exact present
    | ok after =>
      obtain ⟨found, isFirst, rfl⟩ := revokePassword_cases result
      exact hasPeer_removeUnadmitted.mpr ⟨present, .inr (active_of_admitting
        (admitting_revoked isFirst (careful found isFirst) (safe.confirmed confirmed)))⟩
  | createInvite | createPasswordEnrollmentInvite | confirmPasswordEnrollment | revokeInvite
  | addPeer | removePeer => exact removes.elim

/-! ### Both directions -/

/-- From any configuration without invites, over any run. A peer that nobody admitted is gone after
a sweep later than all deadlines of its enrollments exactly when that sweep finds some enrollment
overdue and no other invite of the peer stands. A peer that the operator added or whose enrollment
was confirmed stays through every sweep and every revocation of an enrollment, if the operator adds
the peer only when no enrollment introduced it before and no call revokes an invite that admitted
it. -/
theorem enrollment_consistent (env : Environment) (peers : List PeerConfig) (calls : List Call)
    (member : EndpointId) :
    (∀ now, hasPeer ⟨peers, []⟩ member = false → Unadmitted env member ⟨peers, []⟩ calls →
      (∀ invite ∈ (run env ⟨peers, []⟩ calls).invites, invite.memberEndpointId = member →
        invite.pendingPasswordEnrollment = true → invite.expiresUnixSecs < now) →
      (((run env ⟨peers, []⟩ calls).expirePendingPasswordEnrollments now).hasPeer member = false ↔
        (run env ⟨peers, []⟩ calls).hasPeer member = false ∨
          ((run env ⟨peers, []⟩ calls).invites.any (overdue now) = true ∧
            ∀ invite ∈ (run env ⟨peers, []⟩ calls).invites, ¬ Admitting member invite))) ∧
    (∀ call, CarefulRun env member ⟨peers, []⟩ calls →
      Careful member (run env ⟨peers, []⟩ calls) call → Removes call →
      ((standingAfter env member ⟨peers, []⟩ ⟨hasPeer ⟨peers, []⟩ member, false⟩ calls).operator =
          true ∨
        (standingAfter env member ⟨peers, []⟩ ⟨hasPeer ⟨peers, []⟩ member, false⟩ calls).confirmed =
          true) →
      (run env ⟨peers, []⟩ calls).hasPeer member = true →
      ((run env ⟨peers, []⟩ calls).step env call).hasPeer member = true) := by
  constructor
  · intro now absent unadmitted deadlines
    refine sweep_absent_iff (run_pledged calls ⟨peers, []⟩ unadmitted fun present => ?_) deadlines
    rw [absent] at present
    cases present
  intro call carefulRun careful removes admitted present
  have start : Safe member ⟨hasPeer ⟨peers, []⟩ member, false⟩ ⟨peers, []⟩ := by
    constructor
    · intro held
      exact ⟨held, fun ⟨_, listed, _⟩ => not_mem_nil listed⟩
    · intro flag
      cases flag
  exact admitted_kept removes careful (run_safe calls _ _ carefulRun start) admitted present

/-- Files that load, and configurations that are all valid. -/
def openEnvironment : Environment where
  authority := .ok ()
  validate _ := .ok ()

/-- Whether the peer is in the configuration after the calls. -/
def peerAfter (member : EndpointId) (calls : List Call) : Bool :=
  (run openEnvironment ⟨[], []⟩ calls).hasPeer member

/-- An enrollment of `p` that expires unconfirmed and takes `p` with it. -/
def lapsedEnrollment : List Call :=
  [.createPasswordEnrollmentInvite 0 "e1" 10 "p", .expirePendingPasswordEnrollments 100]

/-- An enrollment of another peer that expires. -/
def unrelatedSweep : List Call :=
  [.createPasswordEnrollmentInvite 300 "e3" 10 "q", .expirePendingPasswordEnrollments 400]

/-- Revoking the invite by its record keeps an unconfirmed peer through every later sweep. The
record of a lapsed enrollment removes a peer that the operator added afterwards, and one whose later
enrollment was confirmed and then revoked by its record. -/
theorem enrollment_histories : (peerAfter "p" lapsedEnrollment = false ∧
      peerAfter "p" [.createPasswordEnrollmentInvite 0 "e1" 10 "p", .revokeInvite "e1",
        .expirePendingPasswordEnrollments 100] = true) ∧
    (peerAfter "p" (lapsedEnrollment ++ [.addPeer ⟨"office", "p"⟩]) = true ∧
      peerAfter "p" (lapsedEnrollment ++ [.addPeer ⟨"office", "p"⟩] ++ unrelatedSweep) = false) ∧
    (peerAfter "p" (lapsedEnrollment ++ [.createPasswordEnrollmentInvite 200 "e2" 10 "p",
        .confirmPasswordEnrollment 205 "e2" "p", .revokeInvite "e2"]) = true ∧
      peerAfter "p" (lapsedEnrollment ++ [.createPasswordEnrollmentInvite 200 "e2" 10 "p",
        .confirmPasswordEnrollment 205 "e2" "p", .revokeInvite "e2"] ++ unrelatedSweep) =
          false) := by
  refine ⟨⟨?_, ?_⟩, ⟨?_, ?_⟩, ⟨?_, ?_⟩⟩ <;> decide

/-- `p` is enrolled and confirmed, `q` is enrolled only. -/
def halfConfirmed : List Call :=
  [.createPasswordEnrollmentInvite 0 "e1" 10 "p", .confirmPasswordEnrollment 5 "e1" "p",
    .createPasswordEnrollmentInvite 20 "e2" 10 "q"]

/-- The sweep removes the peer that never confirmed and keeps the other one. -/
theorem enrollment_consistent_half : peerAfter "q" halfConfirmed = true ∧
    ((run openEnvironment ⟨[], []⟩ halfConfirmed).expirePendingPasswordEnrollments 100).hasPeer
      "q" =
      false ∧
    ((run openEnvironment ⟨[], []⟩ halfConfirmed).step openEnvironment
      (.expirePendingPasswordEnrollments 100)).hasPeer "p" = true := by
  -- no call of the run admits `q`
  have quiet : ¬ (false = true ∨ False) := by simp
  refine ⟨by decide, ?_, ?_⟩
  · refine ((enrollment_consistent openEnvironment [] halfConfirmed "q").1 100 rfl
      ⟨quiet, quiet, quiet, trivial⟩ (by decide)).mpr (.inr ⟨by decide, ?_⟩)
    unfold Admitting
    decide
  · exact (enrollment_consistent openEnvironment [] halfConfirmed "p").2
      (.expirePendingPasswordEnrollments 100) ⟨trivial, trivial, trivial, trivial⟩ trivial trivial
      (.inr (by decide)) (by decide)

end Ironet.Product
