import Ironet.Mesh.Directory

/-!
# Replays of superseded records

Runs of the directory, and the condition under which the records it accepts of one owner have
increasing sequence numbers. Of every accepted record the directory either still holds a successor,
or the record has expired; with ordered leases nothing older can then be presented alive.
-/
namespace Ironet.Mesh
open Support PresenceDirectoryV2 List

/-- The seconds of a clock that has reached the Unix epoch. -/
def secsOf (now : SystemTime) : Nat := now.toNat / 1000000000

theorem secsOf_mono {first second : SystemTime} (ordered : first ≤ second) :
    secsOf first ≤ secsOf second :=
  Nat.div_le_div_right (Int.toNat_le_toNat ordered)

theorem unixSecs_eq_ok_iff {now : SystemTime} {secs : Nat} :
    unixSecs now = .ok secs ↔ 0 ≤ now ∧ secs = secsOf now := by
  unfold unixSecs secsOf
  split <;> simp_all [eq_comm]

section
variable [Iroh]

theorem makeRoom_of_room {order : RecordOrder} {owner : EndpointId} {records : PresenceRecords}
    (room : owner ∈ records ∨ records.size < directoryCapacity) (turns : Nat) :
    makeRoom order owner turns records = .ok records := by
  cases turns with
  | zero => rfl
  | succ turns =>
  rw [makeRoom, if_neg]
  rintro ⟨full, absent⟩
  rcases room with known | room
  · exact absent known
  · omega

/-! ### One insertion -/

section
variable {self after : PresenceDirectoryV2} {presence held : SignedPresenceV2}
  {update : PresenceUpdateV2} {now : SystemTime} {order : RecordOrder}

/-- What a record is to the one that is held for its owner. -/
inductive Classified (self : PresenceDirectoryV2) (presence : SignedPresenceV2) :
    PresenceUpdateV2 → Prop where
  | inserted (absent : self.records.lookup presence.body.owner = none) :
      Classified self presence .inserted
  | stale {held : SignedPresenceV2} (found : self.records.lookup presence.body.owner = some held)
      (older : presence.body.sequence.toNat < held.body.sequence.toNat) :
      Classified self presence .stale
  | duplicate (found : self.records.lookup presence.body.owner = some presence) :
      Classified self presence .duplicate
  | newer {held : SignedPresenceV2} (found : self.records.lookup presence.body.owner = some held)
      (newer : held.body.sequence.toNat < presence.body.sequence.toNat) :
      Classified self presence (if sameTopology held.body presence.body then .renewed
        else .replaced)

theorem classify_classified (classified : self.classify presence = .ok update) :
    Classified self presence update := by
  unfold classify at classified
  split at classified
  · rename_i absent
    obtain rfl := Except.ok.inj classified
    exact .inserted absent
  rename_i held found
  split at classified
  · obtain rfl := Except.ok.inj classified
    exact .stale found ‹_›
  split at classified
  · simp only [do_eq_ok] at classified
    obtain ⟨rfl, rfl⟩ := classified
    exact .duplicate found
  · have newer : Classified self presence _ := .newer found (by omega)
    split at classified <;> obtain rfl := Except.ok.inj classified <;> simpa [*] using newer

theorem classify_returns (unmatched : ∀ held, self.records.lookup presence.body.owner = some held →
      held.body.sequence.toNat = presence.body.sequence.toNat → held = presence) :
    ∃ update, self.classify presence = .ok update := by
  unfold classify
  split
  · exact ⟨_, rfl⟩
  rename_i held found
  split_ifs with older same
  · exact ⟨_, rfl⟩
  · rw [ensure_of _ _ (unmatched held found same.symm)]
    exact ⟨_, rfl⟩
  · exact ⟨_, rfl⟩
  · exact ⟨_, rfl⟩

section
variable (classified : Classified self presence update)
include classified

theorem Classified.above (stores : update.stores = true)
    (found : self.records.lookup presence.body.owner = some held) :
    held.body.sequence.toNat < presence.body.sequence.toNat := by
  cases classified with
  | inserted absent => cases absent.symm.trans found
  | stale | duplicate => cases stores
  | newer isHeld newer =>
    obtain rfl := Option.some.inj (isHeld.symm.trans found)
    exact newer

theorem Classified.below (ignored : update.stores = false) :
    ∃ held, self.records.lookup presence.body.owner = some held ∧
      presence.body.sequence.toNat ≤ held.body.sequence.toNat := by
  cases classified with
  | inserted => cases ignored
  | stale found older => exact ⟨_, found, older.le⟩
  | duplicate found => exact ⟨_, found, le_rfl⟩
  | newer => split at ignored <;> cases ignored

end

/-- What an insertion has done: nothing, or it pruned, made room and stored the record. -/
inductive Insertion (self : PresenceDirectoryV2) (presence : SignedPresenceV2) (now : SystemTime)
    (order : RecordOrder) : PresenceUpdateV2 → PresenceDirectoryV2 → Prop where
  | kept {update : PresenceUpdateV2} (ignored : update.stores = false) :
      Insertion self presence now order update self
  | stored {update : PresenceUpdateV2} {records : PresenceRecords} (stores : update.stores = true)
      (made : makeRoom order presence.body.owner (fresh self.records (secsOf now)).size
        (fresh self.records (secsOf now)) = .ok records) :
      Insertion self presence now order update
        { self with records := records.insert presence.body.owner presence }

variable [Blake3]

theorem insert_insertion (inserted : self.insert presence now order = .ok (update, after)) :
    presence.verify self.networkId now = .ok () ∧ self.classify presence = .ok update ∧
      Insertion self presence now order update after := by
  simp only [PresenceDirectoryV2.insert, do_eq_ok] at inserted
  obtain ⟨verified, kind, classified, rest⟩ := inserted
  split at rest
  · rename_i stores
    simp only [do_eq_ok, Prod.mk.injEq, prune, unixSecs_eq_ok_iff] at rest
    obtain ⟨pruned, ⟨secs, ⟨-, rfl⟩, rfl⟩, records, made, rfl, rfl⟩ := rest
    exact ⟨verified, classified, .stored stores made⟩
  · rename_i ignored
    obtain ⟨rfl, rfl⟩ := rest
    exact ⟨verified, classified, .kept (by simpa using ignored)⟩

end

variable [Blake3]

/-! ### Runs -/

inductive DirectoryCall where
  | insert (presence : SignedPresenceV2) (now : SystemTime) (order : RecordOrder)
  | prune (now : SystemTime)

def DirectoryCall.now : DirectoryCall → SystemTime
  | .insert _ now _ => now
  | .prune now => now

def DirectoryCall.presented : DirectoryCall → Option SignedPresenceV2
  | .insert presence _ _ => some presence
  | .prune _ => none

namespace PresenceDirectoryV2

/-- The record that a call stored, and the directory after it. An error leaves everything as it
was. -/
def apply (self : PresenceDirectoryV2) :
    DirectoryCall → Option SignedPresenceV2 × PresenceDirectoryV2
  | .insert presence now order =>
    match self.insert presence now order with
    | .ok (update, after) => (if update.stores then some presence else none, after)
    | .error _ => (none, self)
  | .prune now =>
    match self.prune now with
    | .ok (_, after) => (none, after)
    | .error _ => (none, self)

/-- The records that a run stores, in order. -/
def accepted (self : PresenceDirectoryV2) : List DirectoryCall → List SignedPresenceV2
  | [] => []
  | call :: calls => (self.apply call).1.toList ++ accepted (self.apply call).2 calls

end PresenceDirectoryV2

/-- A record of the same owner is stored later only with a higher sequence number. -/
def Increasing (records : List SignedPresenceV2) : Prop :=
  records.Pairwise fun earlier later => earlier.body.owner = later.body.owner →
    earlier.body.sequence.toNat < later.body.sequence.toNat

/-- A later record of an owner does not expire before an earlier one. -/
def LeasesOrdered (calls : List DirectoryCall) : Prop :=
  ∀ earlier ∈ calls.filterMap DirectoryCall.presented,
    ∀ later ∈ calls.filterMap DirectoryCall.presented,
      earlier.body.owner = later.body.owner →
        earlier.body.sequence.toNat ≤ later.body.sequence.toNat →
          earlier.body.expiresUnixSecs.toNat ≤ later.body.expiresUnixSecs.toNat

/-- Among the records that have not expired, the owner is known or there is room for one more. -/
def DirectoryCall.HasRoom (self : PresenceDirectoryV2) : DirectoryCall → Prop
  | .insert presence now _ =>
    presence.body.owner ∈ fresh self.records (secsOf now) ∨
      (fresh self.records (secsOf now)).size < directoryCapacity
  | .prune _ => True

/-- No call of the run evicts a record. -/
def Roomy (self : PresenceDirectoryV2) : List DirectoryCall → Prop
  | [] => True
  | call :: calls => call.HasRoom self ∧ Roomy (self.apply call).2 calls

/-! ### One call -/

variable {all calls : List DirectoryCall} {presence : SignedPresenceV2}

theorem verify_unexpired {networkId : String} {now : SystemTime}
    (verified : presence.verify networkId now = .ok ()) :
    0 ≤ now ∧ secsOf now < presence.body.expiresUnixSecs.toNat := by
  simp only [SignedPresenceV2.verify, validateBody, validateInstant, do_eq_ok,
    unixSecs_eq_ok_iff] at verified
  obtain ⟨secs, ⟨after, rfl⟩, ⟨-, -, ⟨-, unexpired⟩, -⟩, -⟩ := verified
  exact ⟨after, unexpired⟩

variable {self : PresenceDirectoryV2}

/-- What a call that stores a record has found, and what it leaves where there was room. -/
theorem apply_stores {call : DirectoryCall} (room : call.HasRoom self)
    (stored : (self.apply call).1 = some presence) :
    call.presented = some presence ∧ secsOf call.now < presence.body.expiresUnixSecs.toNat ∧
      (∀ current, self.records.lookup presence.body.owner = some current →
        current.body.sequence.toNat < presence.body.sequence.toNat) ∧
      (self.apply call).2.records =
        (fresh self.records (secsOf call.now)).insert presence.body.owner
          presence := by
  cases call with
  | prune now =>
    simp only [apply] at stored
    cases pruned : self.prune now <;> rw [pruned] at stored <;> cases stored
  | insert offered now order =>
  cases inserted : self.insert offered now order with
  | error message =>
    rw [apply, inserted] at stored
    cases stored
  | ok result =>
  obtain ⟨update, after⟩ := result
  have whole : self.apply (.insert offered now order) =
      (if update.stores then some offered else none, after) := by
    rw [apply, inserted]
  rw [whole] at stored ⊢
  split at stored
  · rename_i stores
    obtain rfl := Option.some.inj stored
    obtain ⟨verified, classified, insertion⟩ := insert_insertion inserted
    cases insertion with
    | kept ignored => cases ignored.symm.trans stores
    | stored _ made =>
    rw [makeRoom_of_room room] at made
    obtain rfl := Except.ok.inj made
    exact ⟨rfl, (verify_unexpired verified).2, fun _ =>
      (classify_classified classified).above stores,
      rfl⟩
  · cases stored

theorem apply_passes {call : DirectoryCall} (passed : (self.apply call).1 = none) :
    (self.apply call).2.records = self.records ∨
      (self.apply call).2.records = fresh self.records (secsOf call.now) := by
  cases call with
  | prune now =>
    rw [apply]
    cases pruned : self.prune now with
    | error message => exact .inl rfl
    | ok result =>
      simp only [prune, do_eq_ok, unixSecs_eq_ok_iff] at pruned
      obtain ⟨secs, ⟨-, rfl⟩, rfl⟩ := pruned
      exact .inr rfl
  | insert offered now order =>
  cases inserted : self.insert offered now order with
  | error message =>
    rw [apply, inserted]
    exact .inl rfl
  | ok result =>
  obtain ⟨update, after⟩ := result
  rw [apply, inserted] at passed ⊢
  dsimp only at passed ⊢
  split at passed
  · cases passed
  rename_i refused
  obtain ⟨-, -, insertion⟩ := insert_insertion inserted
  cases insertion with
  | kept => exact .inl rfl
  | stored stores => exact absurd stores refused

/-! ### What is remembered of an accepted record -/

/-- The directory holds a successor of the record, or the record has expired. -/
def Remembers (calls : List DirectoryCall) (self : PresenceDirectoryV2) (now : SystemTime)
    (past : SignedPresenceV2) : Prop :=
  (∃ held ∈ calls.filterMap DirectoryCall.presented,
    self.records.lookup past.body.owner = some held ∧ held.body.owner = past.body.owner ∧
      past.body.sequence.toNat ≤ held.body.sequence.toNat) ∨
    past.body.expiresUnixSecs.toNat ≤ secsOf now

section
variable {calls : List DirectoryCall} {self : PresenceDirectoryV2} {call : DirectoryCall}
  {now : SystemTime} {past presence : SignedPresenceV2}

theorem Remembers.refuses (remembers : Remembers calls self now past)
    (leases : LeasesOrdered calls) (known : past ∈ calls.filterMap DirectoryCall.presented)
    (offered : call ∈ calls) (clock : now ≤ call.now) (room : call.HasRoom self)
    (stored : (self.apply call).1 = some presence) (same : past.body.owner = presence.body.owner) :
    past.body.sequence.toNat < presence.body.sequence.toNat := by
  obtain ⟨isCall, unexpired, newer, -⟩ := apply_stores room stored
  rcases remembers with ⟨held, -, lookup, -, successor⟩ | expired
  · exact lt_of_le_of_lt successor (newer held (same ▸ lookup))
  by_contra below
  have member : presence ∈ calls.filterMap DirectoryCall.presented :=
    mem_filterMap.mpr ⟨call, offered, isCall⟩
  have lease := leases presence member past known same.symm (not_lt.mp below)
  have later := secsOf_mono clock
  omega

omit [Blake3] in
theorem Remembers.fresh (remembers : Remembers calls self now past) (leases : LeasesOrdered calls)
    (known : past ∈ calls.filterMap DirectoryCall.presented) {later : SystemTime}
    (clock : now ≤ later) : (∃ held ∈ calls.filterMap DirectoryCall.presented,
      (fresh self.records (secsOf later)).lookup past.body.owner = some held ∧
        held.body.owner = past.body.owner ∧
          past.body.sequence.toNat ≤ held.body.sequence.toNat) ∨
      past.body.expiresUnixSecs.toNat ≤ secsOf later := by
  rcases remembers with ⟨held, member, lookup, owner, successor⟩ | expired
  · by_cases alive : secsOf later < held.body.expiresUnixSecs.toNat
    · refine .inl ⟨held, member, ?_, owner, successor⟩
      exact HashMap.lookup_retain_eq_some.mpr ⟨lookup, decide_eq_true alive⟩
    · have lease := leases past known held member owner.symm successor
      exact .inr (by omega)
  · exact .inr (expired.trans (secsOf_mono clock))

theorem Remembers.apply (remembers : Remembers calls self now past) (leases : LeasesOrdered calls)
    (known : past ∈ calls.filterMap DirectoryCall.presented) (offered : call ∈ calls)
    (clock : now ≤ call.now) (room : call.HasRoom self) :
    Remembers calls (self.apply call).2 call.now past := by
  cases stored : (self.apply call).1 with
  | none =>
    rcases apply_passes stored with same | pruned
    · rcases remembers with ⟨held, member, lookup, rest⟩ | expired
      · exact .inl ⟨held, member, by rw [same]; exact lookup, rest⟩
      · exact .inr (expired.trans (secsOf_mono clock))
    · rcases remembers.fresh leases known clock with ⟨held, member, lookup, rest⟩ | expired
      · exact .inl ⟨held, member, by rw [pruned]; exact lookup, rest⟩
      · exact .inr expired
  | some presence =>
  obtain ⟨isCall, -, -, records⟩ := apply_stores room stored
  by_cases same : past.body.owner = presence.body.owner
  · refine .inl ⟨presence, mem_filterMap.mpr ⟨call, offered, isCall⟩, ?_, same.symm, ?_⟩
    · rw [records, same]
      exact AList.lookup_insert _
    · exact (remembers.refuses leases known offered clock room stored same).le
  rcases remembers.fresh leases known clock with ⟨held, member, lookup, rest⟩ | expired
  · refine .inl ⟨held, member, ?_, rest⟩
    rw [records, AList.lookup_insert_ne same]
    exact lookup
  · exact .inr expired

theorem remembers_stored (offered : call ∈ calls) (room : call.HasRoom self)
    (stored : (self.apply call).1 = some presence) :
    Remembers calls (self.apply call).2 call.now presence := by
  obtain ⟨isCall, -, -, records⟩ := apply_stores room stored
  refine .inl ⟨presence, mem_filterMap.mpr ⟨call, offered, isCall⟩, ?_, rfl, le_rfl⟩
  rw [records]
  exact AList.lookup_insert _

end

/-! ### Whole runs -/

/-- A remembered record is followed only by higher numbers of its owner. -/
theorem Remembers.accepted {now : SystemTime} {past : SignedPresenceV2}
    (remembers : Remembers all self now past) (leases : LeasesOrdered all)
    (known : past ∈ all.filterMap DirectoryCall.presented) (part : ∀ call ∈ calls, call ∈ all)
    (clock : (calls.map DirectoryCall.now).Pairwise (· ≤ ·))
    (start : ∀ call ∈ calls, now ≤ call.now) (roomy : Roomy self calls)
    (stored : presence ∈ self.accepted calls) (same : past.body.owner = presence.body.owner) :
    past.body.sequence.toNat < presence.body.sequence.toNat := by
  induction calls generalizing self now with
  | nil => cases stored
  | cons call calls ih =>
  have offered := part call mem_cons_self
  have first := start call mem_cons_self
  rcases mem_append.mp stored with here | later
  · exact remembers.refuses leases known offered first roomy.1 (Option.mem_toList.mp here) same
  · rw [map_cons, pairwise_cons] at clock
    refine ih (remembers.apply leases known offered first roomy.1)
      (fun other member => part other (mem_cons_of_mem _ member)) clock.2 ?_ roomy.2 later
    exact fun other member => clock.1 _ (mem_map_of_mem member)

theorem accepted_increasing (leases : LeasesOrdered all) (part : ∀ call ∈ calls, call ∈ all)
    (clock : (calls.map DirectoryCall.now).Pairwise (· ≤ ·)) (roomy : Roomy self calls) :
    Increasing (self.accepted calls) := by
  induction calls generalizing self with
  | nil => exact List.Pairwise.nil
  | cons call calls ih =>
  rw [map_cons, pairwise_cons] at clock
  have rest := fun other member => part other (mem_cons_of_mem call member)
  refine pairwise_append.mpr ⟨?_, ih rest clock.2 roomy.2, ?_⟩
  · cases (self.apply call).1 with
    | none => exact List.Pairwise.nil
    | some presence => exact pairwise_singleton _ _
  intro past here presence later same
  have stored := Option.mem_toList.mp here
  have offered := part call mem_cons_self
  have known := mem_filterMap.mpr ⟨call, offered, (apply_stores roomy.1 stored).1⟩
  refine (remembers_stored offered roomy.1 stored).accepted leases known rest clock.2 ?_ roomy.2
    later same
  exact fun other member => clock.1 _ (mem_map_of_mem member)

/-- With a clock that never runs back, ordered leases and room for every owner, no record at or
below an accepted sequence number is stored later. -/
theorem presence_monotone (networkId : String) (calls : List DirectoryCall)
    (clock : (calls.map DirectoryCall.now).Pairwise (· ≤ ·)) (leases : LeasesOrdered calls)
    (roomy : Roomy ⟨networkId, ∅⟩ calls) :
    Increasing ((⟨networkId, ∅⟩ : PresenceDirectoryV2).accepted calls) :=
  accepted_increasing leases (fun _ member => member) clock roomy

end

/-! ### A lease that ends early -/

section
attribute [local instance] openIroh constantBlake3

/-- A record with a lease of some length. -/
def leasedPresence (sequence expires : UInt64) : SignedPresenceV2 :=
  { scopedPresence 0 with body := { scopedBody 0 with sequence, expiresUnixSecs := expires } }

/-- The entries in the order of the representation. -/
def listedOrder : RecordOrder := ⟨id, fun _ => List.Perm.refl _⟩

/-- The second record lives for three seconds; then the first is presented. -/
def shortLease : List DirectoryCall :=
  [.insert (leasedPresence 2 1003) 1001000000000 listedOrder, .prune 1004000000000,
    .insert (leasedPresence 1 1500) 1005000000000 listedOrder]

/-- The same calls with a second record that lives as long as the first. -/
def longLease : List DirectoryCall :=
  [.insert (leasedPresence 2 1500) 1001000000000 listedOrder, .prune 1004000000000,
    .insert (leasedPresence 1 1500) 1005000000000 listedOrder]

/-- The superseded record is stored again. -/
theorem superseded_presence_returns : (⟨"network", ∅⟩ : PresenceDirectoryV2).accepted shortLease =
      [leasedPresence 2 1003, leasedPresence 1 1500] ∧
    ¬ Increasing ((⟨"network", ∅⟩ : PresenceDirectoryV2).accepted shortLease) := by
  have stored : (⟨"network", ∅⟩ : PresenceDirectoryV2).accepted shortLease =
      [leasedPresence 2 1003, leasedPresence 1 1500] := by
    decide
  refine ⟨stored, fun increasing => ?_⟩
  have ordered := (pairwise_pair.mp increasing) rfl
  revert ordered
  decide

theorem presence_monotone_longLease :
    Increasing ((⟨"network", ∅⟩ : PresenceDirectoryV2).accepted longLease) := by
  have clock : (longLease.map DirectoryCall.now).Pairwise (· ≤ ·) := by decide
  have leases : LeasesOrdered longLease := by
    unfold LeasesOrdered
    decide
  refine presence_monotone "network" longLease clock leases ⟨.inr (by decide), trivial, ?_, trivial⟩
  refine .inr (lt_of_le_of_lt (HashMap.size_retain_le _ _) ?_)
  decide

end
end Ironet.Mesh
