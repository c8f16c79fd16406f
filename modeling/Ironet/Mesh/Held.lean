import Ironet.Mesh.Agreement
import Ironet.Support.Latest

/-!
# What a directory holds

Every record of a directory stands under its own owner and was verified when it came. The topology
of a directory is read off these records: off their owners, addresses, prefixes and links, but not
off their leases, and not off the order of the map.
-/
namespace Ironet.Mesh
open Support Ironet.Routing PresenceDirectoryV2 SignedPresenceV2 List

section
variable [Iroh]

/-! ### Where records come from -/

variable {order : RecordOrder} {owner : EndpointId}

theorem makeRoom_lookup {turns : Nat} {records rest : PresenceRecords}
    (made : makeRoom order owner turns records = .ok rest) {key : EndpointId}
    {record : SignedPresenceV2} (found : rest.lookup key = some record) :
    records.lookup key = some record := by
  induction turns generalizing records with
  | zero =>
    obtain rfl := Except.ok.inj made
    exact found
  | succ turns ih =>
  rw [makeRoom] at made
  split at made
  · split at made
    · cases made
    · exact (HashMap.lookup_erase_eq_some.mp (ih made)).2
  · obtain rfl := Except.ok.inj made
    exact found

theorem lookup_fresh {records : PresenceRecords} {now : Nat} {record : SignedPresenceV2} :
    (fresh records now).lookup owner = some record ↔
      records.lookup owner = some record ∧ now < record.body.expiresUnixSecs.toNat := by
  rw [fresh, HashMap.lookup_retain_eq_some, decide_eq_true_eq]

theorem fresh_eq_self {records : PresenceRecords} {now : Nat}
    (unexpired : ∀ owner record, records.lookup owner = some record →
      now < record.body.expiresUnixSecs.toNat) : fresh records now = records := by
  refine AList.ext (filter_eq_self.mpr ?_)
  rintro ⟨owner, record⟩ member
  exact decide_eq_true (unexpired owner record (HashMap.lookup_eq_some_iff.mpr member))

theorem fresh_fresh (records : PresenceRecords) (now : Nat) : fresh (fresh records now) now =
      fresh records now :=
  fresh_eq_self fun _ _ found => (lookup_fresh.mp found).2

variable {after : PresenceDirectoryV2} {presence : SignedPresenceV2} {self : PresenceDirectoryV2}

variable {now : SystemTime} {update : PresenceUpdateV2}

theorem Insertion.lookup (insertion : Insertion self presence now order update after)
    {record : SignedPresenceV2} (found : after.records.lookup owner = some record) :
    (update.stores = true ∧ owner = presence.body.owner ∧ record = presence) ∨
      self.records.lookup owner = some record := by
  cases insertion with
  | kept => exact .inr found
  | stored stores made =>
    rcases HashMap.lookup_insert_eq_some.mp found with ⟨rfl, rfl⟩ | ⟨-, old⟩
    · exact .inl ⟨stores, rfl, rfl⟩
    · exact .inr (lookup_fresh.mp (makeRoom_lookup made old)).1

section
variable [Blake3]

theorem insert_of_stores (order : RecordOrder)
    (verified : presence.verify self.networkId now = .ok ())
    (classified : self.classify presence = .ok update) (stores : update.stores = true)
    (room : presence.body.owner ∈ fresh self.records (secsOf now) ∨
      (fresh self.records (secsOf now)).size < directoryCapacity) :
    self.insert presence now order = .ok (update, { self with
      records := (fresh self.records (secsOf now)).insert presence.body.owner
        presence }) := by
  have secs : unixSecs now = .ok (secsOf now) :=
    unixSecs_eq_ok_iff.mpr ⟨(verify_unexpired verified).1, rfl⟩
  simp only [PresenceDirectoryV2.insert, PresenceDirectoryV2.prune, verified, classified, stores,
    secs, ok_bind, if_true]
  rw [makeRoom_of_room room, ok_bind]

theorem insert_of_ignored (order : RecordOrder)
    (verified : presence.verify self.networkId now = .ok ())
    (classified : self.classify presence = .ok update) (ignored : update.stores = false) :
    self.insert presence now order = .ok (update, self) := by
  simp [PresenceDirectoryV2.insert, verified, classified, ignored, ok_bind]

/-- Every record stands under its owner and was verified at some time. -/
structure Admitted (networkId : String) (records : PresenceRecords) : Prop where
  keyed : ∀ owner record, records.lookup owner = some record → record.body.owner = owner
  verified : ∀ owner record, records.lookup owner = some record →
    ∃ now, record.verify networkId now = .ok ()

namespace Admitted

variable {networkId : String} {records : PresenceRecords}

theorem empty : Admitted networkId ∅ := by
  constructor <;> simp

theorem mono {rest : PresenceRecords} (admitted : Admitted networkId records)
    (fewer : ∀ owner record, rest.lookup owner = some record → records.lookup owner = some record) :
    Admitted networkId rest where
  keyed owner record found := admitted.keyed owner record (fewer owner record found)
  verified owner record found := admitted.verified owner record (fewer owner record found)

theorem fresh (admitted : Admitted networkId records) (now : Nat) :
    Admitted networkId (fresh records now) :=
  admitted.mono fun _ _ found => (lookup_fresh.mp found).1

theorem insert (admitted : Admitted self.networkId self.records)
    (inserted : self.insert presence now order = .ok (update, after)) :
    after.networkId = self.networkId ∧ Admitted self.networkId after.records := by
  obtain ⟨verified, -, insertion⟩ := insert_insertion inserted
  refine ⟨by cases insertion <;> rfl, ?_, ?_⟩
  · intro owner record found
    rcases insertion.lookup found with ⟨-, rfl, rfl⟩ | old
    · rfl
    · exact admitted.keyed owner record old
  · intro owner record found
    rcases insertion.lookup found with ⟨-, -, rfl⟩ | old
    · exact ⟨now, verified⟩
    · exact admitted.verified owner record old

end Admitted

/-! ### Verified bodies -/

section
variable {networkId : String} (verified : presence.verify networkId now = .ok ())
include verified

theorem verify_valid :
    validateBody presence.body (some (secsOf now)) = .ok () ∧ isCanonical presence.body = true := by
  simp only [verify, do_eq_ok, unixSecs_eq_ok_iff] at verified
  obtain ⟨secs, ⟨-, rfl⟩, valid, canonical, -⟩ := verified
  exact ⟨valid, canonical⟩

theorem verify_peers : (presence.body.links.map PresenceLinkV2.peer).Nodup := by
  have canonical := (verify_valid verified).2
  simp only [isCanonical, Bool.and_eq_true, decide_eq_true_eq, Bool.not_eq_true'] at canonical
  obtain ⟨⟨⟨⟨sorted, -⟩, -⟩, -⟩, apart⟩ := canonical
  have isSorted := sortByKey_eq_self_iff.mp (congrArg PresenceBodyV2.links sorted)
  have steps : presence.body.links.IsChain fun link other => link.peer ≠ other.peer := by
    rw [← forall_windows_iff]
    intro pair near same
    simpa [same] using any_eq_false.mp apart pair near
  refine @nodup_of_sorted _ _ _ id _ (pairwise_map.mpr isSorted) (fun _ _ _ _ same => same) ?_
  exact (isChain_map _).mpr steps

end

end

theorem part_of_sameTopology {current next : SignedPresenceV2}
    (same : sameTopology current.body next.body = true) : current.part = next.part := by
  simp only [sameTopology, Bool.and_eq_true, decide_eq_true_eq] at same
  obtain ⟨⟨⟨⟨⟨owner, addresses⟩, nodeAddresses⟩, prefixes⟩, links⟩, transit⟩ := same
  simp only [part, PresenceBodyV2.advertised, owner, addresses, nodeAddresses,
    prefixes, links, transit]

/-- Nodes without their order, and links. -/
abbrev TopologyShape := Multiset TopologyNodeV2 × List TopologyLinkV2

/-- What an input is up to the order of its nodes; none if there is no input. -/
def shapeOf (input : Except String (List TopologyNodeV2 × List TopologyLinkV2)) :
    Option TopologyShape :=
  input.toOption.map fun nodesAndLinks => (↑nodesAndLinks.1, nodesAndLinks.2)

/-! ### The input of the compiler -/

section
variable [Blake3] {self other : PresenceDirectoryV2} {now now' : SystemTime}

namespace PresenceDirectoryV2

theorem topologyInput_eq (clock : 0 ≤ now) (order : RecordOrder) : self.topologyInput now order =
      if (fresh self.records (secsOf now)).size = 0 then .error "V2 Presence directory is empty"
      else .ok (((fresh self.records (secsOf now)).values order).map
          (topologyNode (exclusionsOf ((fresh self.records (secsOf now)).values order))),
        topologyLinks (fresh self.records (secsOf now))) := by
  have secs : unixSecs now = .ok (secsOf now) := unixSecs_eq_ok_iff.mpr ⟨clock, rfl⟩
  rw [topologyInput, prune, secs, ok_bind, ok_bind]
  split
  · rename_i empty
    rw [ensure]
    simp [empty]
  · rename_i nonempty
    rw [ensure_of _ _ nonempty, ok_bind]

theorem shapeOf_congr (clock : 0 ≤ now) (clock' : 0 ≤ now')
    (same : SameParts (fresh self.records (secsOf now)) (fresh other.records (secsOf now')))
    (order order' : RecordOrder) :
    shapeOf (self.topologyInput now order) = shapeOf (other.topologyInput now' order') := by
  rw [topologyInput_eq clock, topologyInput_eq clock', same.size_eq]
  split
  · rfl
  · simp only [shapeOf, Except.toOption, Option.map_some, Option.some.injEq, Prod.mk.injEq]
    refine ⟨?_, same.topologyLinks_eq⟩
    rw [same.exclusionsOf_eq order order', Multiset.coe_eq_coe]
    exact same.nodes_perm order order' _

theorem shapeOf_eq_none (clock : ¬ 0 ≤ now) (order : RecordOrder) :
    shapeOf (self.topologyInput now order) = none := by
  rw [topologyInput, prune, unixSecs, if_neg clock]
  rfl

end PresenceDirectoryV2
end
end
end Ironet.Mesh
