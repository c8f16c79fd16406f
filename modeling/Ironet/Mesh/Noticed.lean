import Ironet.Mesh.Live

/-!
# Topology changes and compile requests

After every call the topology of the live directory should be that of the last compile request. A
call that sends a request sees to that. A call that sends none has only renewed leases, unless it
failed half-way, and then it keeps the topology while no lease runs out.
-/
namespace Ironet.Mesh
open Support Ironet.Routing MeshNodeV2 PresenceDirectoryV2 List

section
variable [Iroh] [Blake3]

/-! ### What is promised of a call -/

/-- A call notices changes: if the topology is no longer that of the last request, it sends another,
and afterwards no owner that is gone is a node of the last request. -/
structure NoticesChanges (before : LiveMeshV2) (call : LiveBatchV2) (outcome : LiveOutcomeV2) :
    Prop where
  requested : ∀ request ∈ before.request, ∀ order order',
    shapeOf (outcome.state.directory.topologyInput call.now order) ≠
      shapeOf (request.directory.topologyInput before.requestedAt order') → outcome.issued = true
  removed : ∀ request ∈ outcome.state.request,
    ∀ owner ∉ fresh outcome.state.directory.records (secsOf call.now),
      ∀ order input, request.directory.topologyInput outcome.state.requestedAt order = .ok input →
        ∀ node ∈ input.1, node.nodeId ≠ owner.key

/-- What is asked of the batch of a call and of the directory that it finds: no owner sends twice;
if a record changes the topology, all pass every check; and if none does, every lease outlasts the
call once there is a request. -/
structure Orderly (state : LiveMeshV2) (call : LiveBatchV2) : Prop where
  distinct : (call.arrivals.map fun arrival => arrival.presence.body.owner).Nodup
  delivered : (∃ arrival ∈ call.arrivals, Changes state.directory.records arrival.presence) →
    state.generation + 1 < 2 ^ 32 ∧
      ∀ arrival ∈ call.arrivals, Passes state.directory.networkId state.directory.records arrival
  lasting : (∀ arrival ∈ call.arrivals, ¬Changes state.directory.records arrival.presence) →
    state.request ≠ none →
      (∀ owner record, state.directory.records.lookup owner = some record →
        secsOf call.now < record.body.expiresUnixSecs.toNat) ∧
      ∀ arrival ∈ call.arrivals, secsOf call.now < arrival.presence.body.expiresUnixSecs.toNat

/-! ### One call -/

/-- The clock does not go back within the call. -/
def Timed (call : LiveBatchV2) : Prop :=
  0 ≤ call.now ∧ ∀ arrival ∈ call.arrivals, arrival.now ≤ call.now

/-- A call sends a request for the directory it leaves, or it sends none. -/
inductive CallEnd (state : LiveMeshV2) (call : LiveBatchV2) (outcome : LiveOutcomeV2) : Prop where
  | issued (request : TopologyCompileRequestV2) (isIssued : outcome.issued = true)
      (isRequest : outcome.state.request = some request)
      (live : outcome.state.directory = request.directory)
      (instant : outcome.state.requestedAt = call.now) (clock : 0 ≤ call.now)
      (unexpired : fresh request.directory.records (secsOf call.now) = request.directory.records)
  | silent (notIssued : outcome.issued = false)
      (sameRequest : outcome.state.request = state.request)
      (sameInstant : outcome.state.requestedAt = state.requestedAt)

theorem applyLive_end (self : MeshNodeV2) (state : LiveMeshV2) (call : LiveBatchV2) :
    CallEnd state call (self.applyLive state call) := by
  unfold applyLive
  rcases self.insertsLive { directory := state.directory } call.arrivals with ⟨loop, _ | message⟩
  · dsimp only [requestLive]
    cases loop.structuralUpdate with
    | none => exact .silent rfl rfl rfl
    | some update =>
    dsimp only
    cases requested : self.request loop state.generation update call.now call.order with
    | error message => exact .silent rfl rfl rfl
    | ok next =>
      simp only [request, prune, do_eq_ok, unixSecs_eq_ok_iff] at requested
      obtain ⟨-, -, _, ⟨secs, ⟨clock, rfl⟩, rfl⟩, rfl⟩ := requested
      exact .issued _ rfl rfl rfl rfl clock (fresh_fresh _ _)
  · exact .silent rfl rfl rfl

/-- A call that cannot fail sends a request if one of its records changes the topology. -/
theorem applyLive_issued {self : MeshNodeV2} {state : LiveMeshV2} {call : LiveBatchV2}
    (orderly : Orderly state call) (timed : Timed call)
    (changes : ∃ arrival ∈ call.arrivals, Changes state.directory.records arrival.presence) :
    (self.applyLive state call).issued = true := by
  obtain ⟨epochs, passes⟩ := orderly.delivered changes
  obtain ⟨through, noted⟩ := @insertsLive_delivers _ _ self { directory := state.directory }
    call.arrivals _ state.directory.records
    ⟨rfl, passes, orderly.distinct, fun _ _ _ found => found⟩
  have structural := noted (.inl changes)
  rcases ran : self.insertsLive { directory := state.directory } call.arrivals with ⟨loop, failed⟩
  rw [ran] at through structural
  obtain rfl : failed = none := through
  obtain ⟨update, isUpdate⟩ : ∃ update, loop.structuralUpdate = some update :=
    Option.ne_none_iff_exists'.mp structural
  have secs := unixSecs_eq_ok_iff.mpr ⟨timed.1, rfl⟩
  have wide : state.generation + 1 < 2 ^ 64 := epochs.trans (by decide)
  simp only [applyLive, ran, requestLive, isUpdate, request, prune, secs, ensure_of _ _ wide,
    ensure_of _ _ epochs, ok_bind]

/-- A call whose records change nothing keeps every owner with the part it had. -/
theorem applyLive_renews {self : MeshNodeV2} {state : LiveMeshV2} {call : LiveBatchV2}
    (orderly : Orderly state call) (timed : Timed call) (requested : state.request ≠ none)
    (renewals : ∀ arrival ∈ call.arrivals, ¬Changes state.directory.records arrival.presence) :
    let after := (self.applyLive state call).state.directory.records
    fresh after (secsOf call.now) = after ∧ SameParts after state.directory.records := by
  obtain ⟨held, sent⟩ := orderly.lasting renewals requested
  obtain ⟨rest, only⟩ := @insertsLive_keeps _ _ self { directory := state.directory } call.arrivals
    (OnlyRenewed state.directory.records (secsOf call.now)) (fun _ _ _ => OnlyRenewed.step)
    ⟨fun _ => rfl, held, fun _ _ => rfl, orderly.distinct, rfl, fun arrival member =>
      ⟨renewals arrival member, secsOf_mono (timed.2 arrival member), sent arrival member⟩⟩
  have same : (self.applyLive state call).state.directory =
      (self.insertsLive { directory := state.directory } call.arrivals).1.directory := by
    have quiet := only.quiet
    rcases ran : self.insertsLive { directory := state.directory } call.arrivals with
      ⟨loop, _ | message⟩
    · rw [ran] at quiet
      dsimp only at quiet
      simp only [applyLive, ran, requestLive, quiet]
    · simp only [applyLive, ran]
  dsimp only
  rw [same]
  exact ⟨fresh_eq_self only.lasting, only.parts⟩

theorem applyLive_admitted {self : MeshNodeV2} {state : LiveMeshV2} {call : LiveBatchV2}
    (admitted : Admitted state.directory.networkId state.directory.records) :
    Admitted (self.applyLive state call).state.directory.networkId
      (self.applyLive state call).state.directory.records := by
  unfold applyLive
  have inserted := @insertsLive_admitted _ _ self { directory := state.directory }
    call.arrivals admitted
  cases ran : self.insertsLive { directory := state.directory } call.arrivals with
  | mk loop failed =>
  rw [ran] at inserted
  cases failed with
  | some message => exact inserted
  | none =>
  dsimp only [requestLive]
  split
  · exact inserted
  split
  · rename_i requested
    simp only [request, prune, do_eq_ok] at requested
    obtain ⟨-, -, _, ⟨secs, -, rfl⟩, rfl⟩ := requested
    exact inserted.fresh _
  · exact inserted

/-! ### Runs -/

/-- The live directory has the parts of the last request, whose records had not expired. -/
structure UpToDate (state : LiveMeshV2) : Prop where
  admitted : Admitted state.directory.networkId state.directory.records
  parts : ∀ request ∈ state.request, SameParts state.directory.records request.directory.records
  keyed : ∀ request ∈ state.request, Admitted request.directory.networkId request.directory.records
  clock : ∀ request ∈ state.request, 0 ≤ state.requestedAt
  unexpired : ∀ request ∈ state.request,
    fresh request.directory.records (secsOf state.requestedAt) =
      request.directory.records

namespace UpToDate

variable {self : MeshNodeV2} {state : LiveMeshV2} {call : LiveBatchV2}

section
variable (orderly : Orderly state call) (timed : Timed call)
include orderly timed

/-- A call without a request leaves all parts as they were, and nothing that has expired. -/
theorem silent (notIssued : (self.applyLive state call).issued = false)
    (requested : state.request ≠ none) :
    let after := (self.applyLive state call).state.directory.records
    fresh after (secsOf call.now) = after ∧ SameParts after state.directory.records := by
  refine applyLive_renews orderly timed requested fun arrival member changes => ?_
  have issued := @applyLive_issued _ _ self _ _ orderly timed ⟨arrival, member, changes⟩
  exact absurd (issued.symm.trans notIssued) (by decide)

variable (upToDate : UpToDate state)
include upToDate

theorem apply : UpToDate (self.applyLive state call).state := by
  have admitted := @applyLive_admitted _ _ self state call upToDate.admitted
  cases applyLive_end self state call with
  | issued request isIssued isRequest live instant clock unexpired =>
    rw [live] at admitted
    refine ⟨live ▸ admitted, ?_, ?_, ?_, ?_⟩ <;> rw [isRequest] <;> rintro _ ⟨⟩
    · rw [live]
      exact fun owner => rfl
    · exact admitted
    all_goals rwa [instant]
  | silent notIssued sameRequest sameInstant =>
  refine ⟨admitted, ?_, ?_, ?_, ?_⟩ <;> rw [sameRequest] <;> intro request isRequest
  · have kept := silent orderly timed notIssued (by rw [isRequest]; exact Option.some_ne_none _)
    intro owner
    rw [kept.2 owner, upToDate.parts request isRequest owner]
  · exact upToDate.keyed request isRequest
  · rw [sameInstant]
    exact upToDate.clock request isRequest
  · rw [sameInstant]
    exact upToDate.unexpired request isRequest

end

variable (upToDate : UpToDate state)
include upToDate

/-- Where nothing has expired, an owner that is gone is no node of the last request. -/
theorem removed (unexpired : ∀ request ∈ state.request,
      fresh state.directory.records (secsOf call.now) = state.directory.records) :
    ∀ request ∈ state.request,
      ∀ owner ∉ fresh state.directory.records (secsOf call.now),
        ∀ order input, request.directory.topologyInput state.requestedAt order = .ok input →
          ∀ node ∈ input.1, node.nodeId ≠ owner.key := by
  intro request isRequest owner gone order input isInput node member sameId
  rw [unexpired request isRequest] at gone
  rw [(topologyInput_eq_ok isInput).1, upToDate.unexpired request isRequest] at member
  obtain ⟨record, inValues, rfl⟩ := mem_map.mp member
  obtain ⟨⟨key, _⟩, inEntries, rfl⟩ := mem_map.mp inValues
  have found := HashMap.lookup_eq_some_iff.mpr ((order.perm _).mem_iff.mp inEntries)
  have isOwner := (upToDate.keyed request isRequest).keyed key _ found
  obtain rfl : key = owner := by
    rw [← isOwner]
    exact EndpointId.key_injective sameId
  -- the live directory has a record for everyone in the request
  have parts := congrArg Option.isSome (upToDate.parts request isRequest key)
  rw [Option.isSome_map, Option.isSome_map, found, Option.isSome_some] at parts
  exact gone (AList.lookup_isSome.mp parts)

theorem notices (orderly : Orderly state call) (timed : Timed call) :
    NoticesChanges state call (self.applyLive state call) := by
  have after := @apply _ _ self state call orderly timed upToDate
  cases applyLive_end self state call with
  | issued request isIssued isRequest live instant _ unexpired =>
    refine ⟨fun _ _ _ _ _ => isIssued, after.removed fun _ _ => ?_⟩
    rw [live, unexpired]
  | silent notIssued sameRequest sameInstant =>
  have facts : ∀ request ∈ state.request, _ := fun request isRequest =>
    silent orderly timed notIssued (by rw [isRequest]; exact Option.some_ne_none _)
  constructor
  · intro request isRequest order order' differs
    obtain ⟨unexpired, parts⟩ := facts request isRequest
    refine absurd (shapeOf_congr timed.1 (upToDate.clock request isRequest) ?_ order order') differs
    rw [unexpired, upToDate.unexpired request isRequest]
    exact fun owner => (parts owner).trans (upToDate.parts request isRequest owner)
  · refine after.removed fun request isRequest => ?_
    rw [sameRequest] at isRequest
    exact (facts request isRequest).1

end UpToDate

theorem callsLive_notice {self : MeshNodeV2} {state : LiveMeshV2} {calls : List LiveBatchV2}
    (upToDate : UpToDate state) (timed : ∀ call ∈ calls, Timed call)
    (orderly : ∀ step ∈ self.callsLive state calls, Orderly step.1 step.2.1) :
    ∀ step ∈ self.callsLive state calls, NoticesChanges step.1 step.2.1 step.2.2 := by
  induction calls generalizing state with
  | nil => simp [callsLive]
  | cons call rest ih =>
  rw [callsLive, forall_mem_cons] at orderly ⊢
  rw [forall_mem_cons] at timed
  exact ⟨upToDate.notices orderly.1 timed.1,
    ih (UpToDate.apply orderly.1 timed.1 upToDate) timed.2 orderly.2⟩

/-- The state in which the first call finds a node. -/
def LiveMeshV2.start (networkId : String) (localPresence : SignedPresenceV2) (now : SystemTime)
    (order : RecordOrder) : Except String LiveMeshV2 := do
  let state ← MeshControlV2.start networkId localPresence now order
  .ok ⟨state, now⟩

/-- In a run in which every batch is orderly for the directory that it finds, every topology change
is noticed. -/
theorem topology_changes_noticed (self : MeshNodeV2) (networkId : String)
    (localPresence : SignedPresenceV2) (startedAt : SystemTime) (order : RecordOrder)
    (start : LiveMeshV2)
    (started : LiveMeshV2.start networkId localPresence startedAt order = .ok start)
    (calls : List LiveBatchV2)
    (clocks : (startedAt :: calls.flatMap LiveBatchV2.clocks).Pairwise (· ≤ ·))
    (orderly : ∀ step ∈ self.callsLive start calls, Orderly step.1 step.2.1) :
    ∀ step ∈ self.callsLive start calls, NoticesChanges step.1 step.2.1 step.2.2 := by
  simp only [LiveMeshV2.start, MeshControlV2.start, new, do_eq_ok] at started
  obtain ⟨_, ⟨_, ⟨-, rfl⟩, ⟨update, directory⟩, inserted, rfl⟩, rfl⟩ := started
  obtain ⟨verified, -⟩ := insert_insertion inserted
  obtain ⟨isNetwork, admitted⟩ := Admitted.empty.insert inserted
  obtain ⟨later, ordered⟩ := pairwise_cons.mp clocks
  refine callsLive_notice ⟨?_, ?_, ?_, ?_, ?_⟩ (fun call member =>
    ⟨?_, fun arrival sent => ?_⟩) orderly
  · rw [isNetwork]
    exact admitted
  · rintro _ ⟨⟩
  · rintro _ ⟨⟩
  · rintro _ ⟨⟩
  · rintro _ ⟨⟩
  · refine (verify_unexpired verified).1.trans (later _ ?_)
    exact mem_flatMap.mpr ⟨call, member, mem_append_right _ (mem_singleton_self _)⟩
  · exact (pairwise_append.mp ((pairwise_flatMap.mp ordered).1 call member)).2.2 _
      (mem_map_of_mem sent) _ (mem_singleton_self _)

end

/-! ### A lease that lapses while another is renewed -/

section
attribute [local instance] openIroh constantBlake3

def leased (presence : SignedPresenceV2) (sequence issued expires : UInt64) : SignedPresenceV2 :=
  { presence with body := { presence.body with
    sequence, issuedUnixSecs := issued, expiresUnixSecs := expires } }

/-- A call with some records, all at one instant. -/
def liveBatch (presences : List SignedPresenceV2) (now : SystemTime) : LiveBatchV2 where
  arrivals := presences.map fun presence => ⟨⟨presence, some 1, now, listedOrder⟩, []⟩
  now
  order := listedOrder

def liveStart : LiveMeshV2 :=
  (LiveMeshV2.start "network" sourcePresence 1001000000000 listedOrder).toOption.getD
    ⟨⟨⟨"network", ∅⟩, 1, none⟩, 0⟩

/-- The owner's record lives until 1100. -/
def ownerCall : LiveBatchV2 := liveBatch [leased ownerPresence 1 1000 1100] 1001000000000

/-- The node renews its own lease, at some instant. -/
def renewalCall (now : SystemTime) : LiveBatchV2 :=
  liveBatch [leased sourcePresence 2 1050 1600] now

/-- A new record, and after it one that is not valid. -/
def brokenCall : LiveBatchV2 :=
  liveBatch [thirdPresence, leased thirdPresence 0 1000 1500] 1060000000000

def ownerKnown : LiveMeshV2 := ((meshNode 1).applyLive liveStart ownerCall).state

/-- When the lease of the owner has lapsed, the renewal prunes the owner and sends no request; and
after a call that fails half-way the new node is in no request either. -/
theorem lapsed_lease_unnoticed : ((meshNode 1).applyLive liveStart ownerCall).issued = true ∧
    ((meshNode 1).applyLive ownerKnown (renewalCall 1200000000000)).failure = none ∧
    (shapeOf (((meshNode 1).applyLive ownerKnown
      (renewalCall 1200000000000)).state.directory.topologyInput 1200000000000
        listedOrder)).map (fun shape => Multiset.card shape.1) = some 1 ∧
    ((((meshNode 1).applyLive ownerKnown (renewalCall 1200000000000)).state.request.map
      fun request =>
      shapeOf (request.directory.topologyInput 1001000000000 listedOrder)).join.map
        fun shape => Multiset.card shape.1) = some 2 ∧
    ¬ NoticesChanges ownerKnown (renewalCall 1200000000000)
      ((meshNode 1).applyLive ownerKnown (renewalCall 1200000000000)) ∧
    ((meshNode 1).applyLive ownerKnown brokenCall).failure =
      some "V2 Presence sequence zero is reserved" ∧
    ¬ NoticesChanges ownerKnown brokenCall ((meshNode 1).applyLive ownerKnown brokenCall) := by
  have misses : ∀ call, ((meshNode 1).applyLive ownerKnown call).issued = false →
      (∃ request ∈ ownerKnown.request,
        shapeOf (((meshNode 1).applyLive ownerKnown call).state.directory.topologyInput call.now
            listedOrder) ≠
          shapeOf (request.directory.topologyInput ownerKnown.requestedAt listedOrder)) →
      ¬ NoticesChanges ownerKnown call ((meshNode 1).applyLive ownerKnown call) := by
    rintro call silent ⟨request, isRequest, differs⟩ notices
    have issued := notices.requested request isRequest listedOrder listedOrder differs
    rw [issued] at silent
    cases silent
  refine ⟨by decide +kernel, by decide +kernel, by decide +kernel, by decide +kernel,
    misses _ (by decide +kernel) (by decide +kernel), by decide +kernel,
    misses _ (by decide +kernel) (by decide +kernel)⟩

/-- A call that brings a new owner, and a renewal while all leases still run. -/
theorem topology_changes_noticed_renewal :
    LiveMeshV2.start "network" sourcePresence 1001000000000 listedOrder = .ok liveStart ∧
      ∀ step ∈ (meshNode 1).callsLive liveStart [ownerCall, renewalCall 1060000000000],
        NoticesChanges step.1 step.2.1 step.2.2 := by
  have started : LiveMeshV2.start "network" sourcePresence 1001000000000 listedOrder =
      .ok liveStart :=
    eq_ok_getD _ (by decide +kernel)
  refine ⟨started, topology_changes_noticed (meshNode 1) "network" sourcePresence 1001000000000
    listedOrder liveStart started [ownerCall, renewalCall 1060000000000] (by decide) ?_⟩
  simp only [callsLive, forall_mem_cons]
  rw [← ownerKnown]
  have known : ¬Changes ownerKnown.directory.records (leased sourcePresence 2 1050 1600) := by
    decide +kernel
  refine ⟨⟨by simp [ownerCall, liveBatch], fun _ => ⟨by decide +kernel, ?_⟩,
    fun _ requested => absurd rfl requested⟩, ⟨by simp [renewalCall, liveBatch], ?_, fun _ _ => ?_⟩,
    by simp⟩
  · refine forall_mem_singleton.mpr ⟨?_, ?_, ?_, rfl⟩ <;> decide +kernel
  · rintro ⟨arrival, member, isChange⟩
    obtain rfl := mem_singleton.mp member
    exact absurd isChange known
  · have leases : ∀ entry ∈ ownerKnown.directory.records.entries,
        1060 < entry.2.body.expiresUnixSecs.toNat := by
      decide +kernel
    refine ⟨fun owner record found => leases ⟨owner, record⟩ (HashMap.lookup_eq_some_iff.mp found),
      forall_mem_singleton.mpr (by decide +kernel)⟩

end
end Ironet.Mesh
