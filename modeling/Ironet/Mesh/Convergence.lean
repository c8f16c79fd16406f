import Ironet.Mesh.Held

/-!
# Convergence of directories

Records that nothing expires and nothing evicts make a directory a map of latest records: it holds
for every owner the record with the highest sequence number. Two nodes that have processed the same
records therefore hold the same ones, in whatever order and however often the records came, and see
the same topology.
-/
namespace Ironet.Mesh
open Support Ironet.Routing PresenceArrival PresenceDirectoryV2 List

/-! ### Links that both ends report -/

theorem mem_pairs_iff {α : Type} [LinearOrder α] {values : List α}
    (sorted : values.Pairwise (· < ·)) {left right : α} :
    (left, right) ∈ pairs values ↔ left ∈ values ∧ right ∈ values ∧ left < right := by
  induction values with
  | nil => simp [pairs]
  | cons first rest ih =>
  rw [pairwise_cons] at sorted
  simp only [pairs, mem_append, mem_map, Prod.mk.injEq, ih sorted.2, mem_cons]
  constructor
  · rintro (⟨_, member, rfl, rfl⟩ | ⟨inRest, alsoInRest, below⟩)
    · exact ⟨.inl rfl, .inr member, sorted.1 _ member⟩
    · exact ⟨.inr inRest, .inr alsoInRest, below⟩
  rintro ⟨rfl | inRest, rfl | alsoInRest, below⟩
  · exact absurd below (lt_irrefl _)
  · exact .inl ⟨right, alsoInRest, rfl, rfl⟩
  · exact absurd below (lt_asymm (sorted.1 _ inRest))
  · exact .inr ⟨inRest, alsoInRest, below⟩

section
variable [Iroh]

theorem owners_sorted (records : PresenceRecords) :
    (sortByKey id (records.entries.map Sigma.fst)).Pairwise (· < ·) := by
  have nodup : (sortByKey id (records.entries.map Sigma.fst)).Nodup :=
    (sortByKey_perm _ _).nodup_iff.mpr records.nodupKeys
  refine ((sortByKey_sorted id _).and nodup).imp ?_
  rintro left right ⟨ordered, different⟩
  exact lt_of_le_of_ne ordered different

/-- The record of an owner claims a healthy link to a peer. -/
structure Claims (records : PresenceRecords) (owner peer : EndpointId) (claim : PresenceLinkV2) :
    Prop where
  held : ∃ record, records.lookup owner = some record ∧ claim ∈ record.body.links
  peer : claim.peer = peer
  healthy : claim.healthy = true

variable [Blake3]

/-- The link that two claims make. -/
def bilateralLink (left right : EndpointId) (leftClaim rightClaim : PresenceLinkV2) :
    TopologyLinkV2 where
  left := left.key
  right := right.key
  leftAdjacency := adjacencyId left right
  rightAdjacency := adjacencyId right left
  cost := max leftClaim.cost rightClaim.cost
  healthy := true
  maximumDatagramSize := min leftClaim.maximumDatagramSize rightClaim.maximumDatagramSize

variable {networkId : String}

theorem find_claim {now : SystemTime} {record : SignedPresenceV2}
    (verified : record.verify networkId now = .ok ()) {peer : EndpointId} {claim : PresenceLinkV2} :
    record.body.links.find? (fun link => link.peer = peer) = some claim ↔
      claim ∈ record.body.links ∧ claim.peer = peer := by
  constructor
  · intro found
    exact ⟨mem_of_find?_eq_some found, by simpa using find?_some found⟩
  rintro ⟨member, rfl⟩
  cases found : record.body.links.find? (fun link => link.peer = claim.peer) with
  | none => simpa using find?_eq_none.mp found claim member
  | some first =>
    have same : first.peer = claim.peer := by simpa using find?_some found
    rw [inj_on_of_nodup_map (verify_peers verified) (mem_of_find?_eq_some found) member same]

variable {records : PresenceRecords} {link : TopologyLinkV2}

theorem topologyLink_eq_some_iff (admitted : Admitted networkId records) {left right : EndpointId} :
    topologyLink records left right = some link ↔
      ∃ leftClaim rightClaim, Claims records left right leftClaim ∧
        Claims records right left rightClaim ∧
          link = bilateralLink left right leftClaim rightClaim := by
  simp only [topologyLink, Option.bind_eq_bind, Option.bind_eq_some_iff]
  constructor
  · rintro ⟨leftRecord, leftHeld, rightRecord, rightHeld, leftClaim, leftFound, rightClaim,
      rightFound, made⟩
    obtain ⟨_, leftVerified⟩ := admitted.verified left leftRecord leftHeld
    obtain ⟨_, rightVerified⟩ := admitted.verified right rightRecord rightHeld
    obtain ⟨inLeft, leftPeer⟩ := (find_claim leftVerified).mp leftFound
    obtain ⟨inRight, rightPeer⟩ := (find_claim rightVerified).mp rightFound
    split at made
    · cases made
    · rename_i healthy
      simp only [not_or, Bool.not_eq_false] at healthy
      exact ⟨leftClaim, rightClaim, ⟨⟨leftRecord, leftHeld, inLeft⟩, leftPeer, healthy.1⟩,
        ⟨⟨rightRecord, rightHeld, inRight⟩, rightPeer, healthy.2⟩, (Option.some.inj made).symm⟩
  rintro ⟨leftClaim, rightClaim, ⟨⟨leftRecord, leftHeld, inLeft⟩, leftPeer, leftHealthy⟩,
    ⟨⟨rightRecord, rightHeld, inRight⟩, rightPeer, rightHealthy⟩, rfl⟩
  obtain ⟨_, leftVerified⟩ := admitted.verified left leftRecord leftHeld
  obtain ⟨_, rightVerified⟩ := admitted.verified right rightRecord rightHeld
  refine ⟨leftRecord, leftHeld, rightRecord, rightHeld, leftClaim,
    (find_claim leftVerified).mpr ⟨inLeft, leftPeer⟩, rightClaim,
    (find_claim rightVerified).mpr ⟨inRight, rightPeer⟩, ?_⟩
  rw [if_neg (by simp [leftHealthy, rightHealthy])]
  rfl

/-- A link is there exactly if the record of each end lists the other end as healthy. -/
theorem mem_topologyLinks_iff (admitted : Admitted networkId records) :
    link ∈ topologyLinks records ↔ ∃ left right leftClaim rightClaim, left < right ∧
      Claims records left right leftClaim ∧ Claims records right left rightClaim ∧
        link = bilateralLink left right leftClaim rightClaim := by
  have mem : ∀ owner, owner ∈ sortByKey id (records.entries.map Sigma.fst) ↔ owner ∈ records :=
    fun owner => mem_sortByKey
  simp only [topologyLinks, mem_filterMap, Prod.exists, mem_pairs_iff (owners_sorted records),
    topologyLink_eq_some_iff admitted, mem]
  constructor
  · rintro ⟨left, right, ⟨-, -, below⟩, leftClaim, rightClaim, ofLeft, ofRight, isLink⟩
    exact ⟨left, right, leftClaim, rightClaim, below, ofLeft, ofRight, isLink⟩
  rintro ⟨left, right, leftClaim, rightClaim, below, ofLeft, ofRight, isLink⟩
  obtain ⟨leftRecord, leftHeld, -⟩ := ofLeft.held
  obtain ⟨rightRecord, rightHeld, -⟩ := ofRight.held
  exact ⟨left, right, ⟨HashMap.mem_of_lookup leftHeld, HashMap.mem_of_lookup rightHeld, below⟩,
    leftClaim, rightClaim, ofLeft, ofRight, isLink⟩

/-! ### Processing records -/

/-- Insert the records of a list, one after the other. -/
def PresenceDirectoryV2.process (self : PresenceDirectoryV2) :
    List PresenceArrival → Except String PresenceDirectoryV2
  | [] => .ok self
  | arrival :: rest => do
    let inserted ← self.insert arrival.presence arrival.now arrival.order
    process inserted.2 rest

variable (presences : List SignedPresenceV2)

/-- The directory holds for every owner the record with the largest sequence number. -/
def HoldsLatest (self : PresenceDirectoryV2) : Prop :=
  Latest (fun record : SignedPresenceV2 => record.body.owner)
    (fun record => record.body.sequence.toNat) presences self.records

/-- Two different records never share owner and sequence number. -/
def Sequenced : Prop :=
  Ranked (fun record : SignedPresenceV2 => record.body.owner)
    (fun record => record.body.sequence.toNat) presences

/-- The record is processed by some instant, and is valid then as it was when it came. -/
structure PresenceArrival.ValidAt (networkId : String) (instant : SystemTime)
    (arrival : PresenceArrival) : Prop where
  still : arrival.presence.verify networkId instant = .ok ()
  arrived : arrival.presence.verify networkId arrival.now = .ok ()
  earlier : arrival.now ≤ instant

variable {instant : SystemTime} {self : PresenceDirectoryV2} {seen : List SignedPresenceV2}

/-- One more record, valid and with room to spare, is stored if it is newer and ignored
otherwise. -/
theorem insert_latest {arrival : PresenceArrival} (latest : HoldsLatest seen self)
    (unexpired : ∀ record ∈ seen, secsOf instant < record.body.expiresUnixSecs.toNat)
    (valid : arrival.ValidAt self.networkId instant)
    (sequenced : Sequenced (arrival.presence :: seen))
    (room : self.records.size < directoryCapacity) :
    ∃ inserted, self.insert arrival.presence arrival.now arrival.order = .ok inserted ∧
      inserted.2.networkId = self.networkId ∧
        HoldsLatest (arrival.presence :: seen) inserted.2 := by
  -- nothing has expired when the record comes
  have fresh : fresh self.records (secsOf arrival.now) = self.records := by
    refine fresh_eq_self fun owner record found => ?_
    exact lt_of_le_of_lt (secsOf_mono valid.earlier)
      (unexpired record ((latest owner record).mp found).1)
  obtain ⟨update, classified⟩ := @classify_returns _ self arrival.presence fun held found same =>
    -- the same sequence number means the same record
    sequenced held (mem_cons_of_mem _ ((latest _ held).mp found).1) arrival.presence
      mem_cons_self ((latest _ held).mp found).2.1 same
  have effect := classify_classified classified
  cases stores : update.stores with
  | true =>
    have insertion := insert_of_stores arrival.order valid.arrived classified stores
      (.inr (by rw [fresh]; exact room))
    rw [fresh] at insertion
    exact ⟨_, insertion, rfl, Latest.store latest fun held found => effect.above stores found⟩
  | false =>
    obtain ⟨held, found, older⟩ := effect.below stores
    exact ⟨_, insert_of_ignored arrival.order valid.arrived classified stores, rfl,
      Latest.skip latest found older sequenced⟩

/-- Whatever the order of the records and however often they come, the latest are held. -/
theorem process_latest {arrivals : List PresenceArrival} (latest : HoldsLatest seen self)
    (unexpired : ∀ record ∈ seen, secsOf instant < record.body.expiresUnixSecs.toNat)
    (valid : ∀ arrival ∈ arrivals, arrival.ValidAt self.networkId instant)
    (sequenced : Sequenced (arrivals.map presence ++ seen))
    (room : ((arrivals.map presence ++ seen).map fun record => record.body.owner).dedup.length <
      directoryCapacity) :
    ∃ after, self.process arrivals = .ok after ∧ after.networkId = self.networkId ∧
      HoldsLatest (arrivals.map presence ++ seen) after := by
  induction arrivals generalizing self seen with
  | nil => exact ⟨self, rfl, rfl, latest⟩
  | cons arrival rest ih =>
  rw [forall_mem_cons] at valid
  -- the record moves from what is to come to what was seen
  have moved : (rest.map presence ++ arrival.presence :: seen).Perm
      ((arrival :: rest).map presence ++ seen) := perm_middle
  have within : ∀ record ∈ arrival.presence :: seen,
      record ∈ (arrival :: rest).map presence ++ seen := by
    intro record member
    exact moved.mem_iff.mp (mem_append_right _ member)
  have few : self.records.size < directoryCapacity := by
    refine lt_of_le_of_lt latest.size_le (lt_of_le_of_lt ?_ room)
    refine ((nodup_dedup _).subperm fun owner member => ?_).length_le
    obtain ⟨record, inSeen, rfl⟩ := mem_map.mp (mem_dedup.mp member)
    exact mem_dedup.mpr (mem_map_of_mem (mem_append_right _ inSeen))
  obtain ⟨inserted, isInserted, isNetwork, next⟩ := insert_latest latest unexpired valid.1
    (fun record inRecords other inOthers => sequenced record (within record inRecords) other
      (within other inOthers)) few
  obtain ⟨after, processed, sameNetwork, final⟩ := ih next
    (forall_mem_cons.mpr ⟨(verify_unexpired valid.1.still).2, unexpired⟩)
    (by rw [isNetwork]; exact valid.2)
    (fun record inRecords other inOthers => sequenced record (moved.mem_iff.mp inRecords) other
      (moved.mem_iff.mp inOthers))
    (by rwa [(moved.map _).dedup.length_eq])
  refine ⟨after, ?_, sameNetwork.trans isNetwork, final.congr fun record => moved.mem_iff⟩
  rw [process, isInserted, ok_bind, processed]

/-! ### Two directories -/

/-- What processing some records leaves, whatever their order. -/
structure Converged (instant : SystemTime) (presences : List SignedPresenceV2)
    (self : PresenceDirectoryV2) : Prop where
  latest : ∀ owner record, self.records.lookup owner = some record ↔
    record ∈ presences ∧ record.body.owner = owner ∧
      ∀ other ∈ presences, other.body.owner = owner →
        other.body.sequence.toNat ≤ record.body.sequence.toNat
  links : ∀ order input, self.topologyInput instant order = .ok input → ∀ link,
    link ∈ input.2 ↔ ∃ left right leftClaim rightClaim, left < right ∧
      Claims self.records left right leftClaim ∧ Claims self.records right left rightClaim ∧
        link = bilateralLink left right leftClaim rightClaim

theorem Converged.of_latest {presences : List SignedPresenceV2}
    (latest : HoldsLatest presences self)
    (valid : ∀ record ∈ presences, record.verify self.networkId instant = .ok ()) :
    Converged instant presences self where
  latest := latest
  links := by
    intro order input isInput link
    have admitted : Admitted self.networkId self.records := by
      constructor
      · exact fun owner record found => ((latest owner record).mp found).2.1
      · exact fun owner record found => ⟨instant, valid record ((latest owner record).mp found).1⟩
    have fresh : fresh self.records (secsOf instant) = self.records :=
      fresh_eq_self fun owner record found =>
        (verify_unexpired (valid record ((latest owner record).mp found).1)).2
    rw [(topologyInput_eq_ok isInput).2, fresh]
    exact mem_topologyLinks_iff admitted

/-- Directories that process the same valid records, in any order and with any repetitions, hold for
every owner the latest record and have the same topology. -/
theorem directory_converges (networkId : String) (empty : PresenceDirectoryV2)
    (created : new networkId = .ok empty) (instant : SystemTime)
    (first second : List PresenceArrival)
    (valid : ∀ arrival ∈ first ++ second, arrival.ValidAt networkId instant)
    (same : ∀ presence, presence ∈ first.map PresenceArrival.presence ↔
      presence ∈ second.map PresenceArrival.presence)
    (sequenced : Sequenced (first.map presence)) (owners : ((first.map presence).map
      fun record => record.body.owner).dedup.length < directoryCapacity) :
    ∃ one other, empty.process first = .ok one ∧ empty.process second = .ok other ∧
      Converged instant (first.map presence) one ∧
      Converged instant (first.map presence) other ∧
      ∀ order order', shapeOf (one.topologyInput instant order) =
        shapeOf (other.topologyInput instant order') := by
  simp only [new, do_eq_ok] at created
  obtain ⟨-, rfl⟩ := created
  -- either list of arrivals leaves the latest of the first list's records
  have processed : ∀ arrivals : List PresenceArrival,
      (∀ arrival ∈ arrivals, arrival.ValidAt networkId instant) →
      (∀ presence, presence ∈ arrivals.map PresenceArrival.presence ↔
        presence ∈ first.map PresenceArrival.presence) →
      ∃ after, (⟨networkId, ∅⟩ : PresenceDirectoryV2).process arrivals = .ok after ∧
        after.networkId = networkId ∧
          HoldsLatest (first.map presence) after := by
    intro arrivals arrived members
    obtain ⟨after, isAfter, isNetwork, latest⟩ := @process_latest _ _ instant ⟨networkId, ∅⟩ []
      arrivals Latest.nil (fun _ absent => absurd absent not_mem_nil) arrived
      (by
        rw [append_nil]
        exact fun record inRecords other inOthers =>
          sequenced record ((members record).mp inRecords)
          other ((members other).mp inOthers))
      (by
        rw [append_nil]
        refine lt_of_le_of_lt ((nodup_dedup _).subperm fun owner member => ?_).length_le owners
        obtain ⟨record, inRecords, rfl⟩ := mem_map.mp (mem_dedup.mp member)
        exact mem_dedup.mpr (mem_map_of_mem ((members record).mp inRecords)))
    rw [append_nil] at latest
    exact ⟨after, isAfter, isNetwork, latest.congr members⟩
  have verified : ∀ record ∈ first.map presence,
      record.verify networkId instant = .ok () := by
    intro record member
    obtain ⟨arrival, inFirst, rfl⟩ := mem_map.mp member
    exact (valid arrival (mem_append_left _ inFirst)).still
  obtain ⟨one, isOne, oneNetwork, oneLatest⟩ := processed first
    (fun arrival member => valid arrival (mem_append_left _ member)) fun _ => Iff.rfl
  obtain ⟨other, isOther, otherNetwork, otherLatest⟩ := processed second
    (fun arrival member => valid arrival (mem_append_right _ member))
    fun presence => (same presence).symm
  refine ⟨one, other, isOne, isOther, .of_latest oneLatest (by rwa [oneNetwork]),
    .of_latest otherLatest (by rwa [otherNetwork]), fun order order' => ?_⟩
  by_cases clock : 0 ≤ instant
  · refine shapeOf_congr clock clock (fun owner => ?_) order order'
    have lookups : ∀ key, one.records.lookup key = other.records.lookup key :=
      oneLatest.lookup_eq otherLatest
    have fresh : (fresh one.records (secsOf instant)).lookup owner =
        (fresh other.records (secsOf instant)).lookup owner := by
      refine Option.ext fun record => ?_
      rw [lookup_fresh, lookup_fresh, lookups]
    rw [fresh]
  · rw [shapeOf_eq_none clock, shapeOf_eq_none clock]

end

/-! ### Three records of two owners -/

section
attribute [local instance] openIroh constantBlake3

/-- The owner's record again, with a cheaper claim and a later sequence number. -/
def laterPresence : SignedPresenceV2 :=
  { ownerPresence with body := { ownerPresence.body with
    sequence := 2, links := [⟨exampleId 1, 5, true, 1300⟩] } }

def arrivalOf (presence : SignedPresenceV2) : PresenceArrival :=
  ⟨presence, none, 1001000000000, listedOrder⟩

/-- Both orders leave the later record of the owner, and the link costs the larger of two claims. -/
theorem directory_converges_reversed : ∃ one other,
      (⟨"network", ∅⟩ : PresenceDirectoryV2).process
          ([sourcePresence, ownerPresence, laterPresence].map arrivalOf) = .ok one ∧
        (⟨"network", ∅⟩ : PresenceDirectoryV2).process
          ([laterPresence, sourcePresence, ownerPresence, sourcePresence].map arrivalOf) =
            .ok other ∧
        Converged 1002000000000 [sourcePresence, ownerPresence, laterPresence] one ∧
        Converged 1002000000000 [sourcePresence, ownerPresence, laterPresence] other ∧
        ∀ order order', shapeOf (one.topologyInput 1002000000000 order) =
          shapeOf (other.topologyInput 1002000000000 order') := by
  refine directory_converges "network" ⟨"network", ∅⟩ rfl 1002000000000
    ([sourcePresence, ownerPresence, laterPresence].map arrivalOf)
    ([laterPresence, sourcePresence, ownerPresence, sourcePresence].map arrivalOf) ?_ ?_ ?_ ?_
  · have checked : ∀ arrival ∈ [sourcePresence, ownerPresence, laterPresence].map arrivalOf ++
        [laterPresence, sourcePresence, ownerPresence, sourcePresence].map arrivalOf,
        arrival.presence.verify "network" 1002000000000 = .ok () ∧
          arrival.presence.verify "network" arrival.now = .ok () ∧
            arrival.now ≤ 1002000000000 := by
      decide +kernel
    exact fun arrival member =>
      ⟨(checked arrival member).1, (checked arrival member).2.1, (checked arrival member).2.2⟩
  · intro presence
    simp only [map_cons, map_nil, mem_cons, not_mem_nil, or_false, arrivalOf]
    tauto
  · unfold Sequenced Ranked
    decide +kernel
  · decide +kernel

end
end Ironet.Mesh
