import Mathlib.Data.List.TakeWhile
import Ironet.Mesh.Held

/-!
# The live directory

`apply_mesh_presences` works on the directory in place, so a call that fails part-way leaves behind
what it had stored. Here the call is followed with the state it leaves, whether it fails or not, and
with writers that may have stopped. A change of the topology goes unnoticed in two ways: a call
fails after it has stored a record of a new shape, or records expire while only leases are renewed.
-/
namespace Ironet.Mesh
open Support Ironet.Routing

section
variable [Iroh]

/-! ### Calls that may fail -/

/-- A record with the writers that have stopped when it is gossiped. -/
structure LiveArrivalV2 extends PresenceArrival where
  stopped : List AdjacencyIdV2

/-- The records of one call, and the clock and map order at its end. -/
structure LiveBatchV2 where
  arrivals : List LiveArrivalV2
  now : SystemTime
  order : RecordOrder

def LiveBatchV2.batch (self : LiveBatchV2) : PresenceBatch :=
  ⟨self.arrivals.map LiveArrivalV2.toPresenceArrival, self.now, self.order⟩

/-- The clocks that a call reads, in order. -/
def LiveBatchV2.clocks (self : LiveBatchV2) : List SystemTime :=
  self.arrivals.map (fun arrival => arrival.now) ++ [self.now]

/-- The state between two calls, with the instant of the latest request. -/
structure LiveMeshV2 extends MeshControlV2 where
  requestedAt : SystemTime

/-- How a call ended. -/
structure LiveOutcomeV2 where
  state : LiveMeshV2
  /-- The call has sent a compile request. -/
  issued : Bool
  failure : Option String

section
variable [Blake3]

namespace MeshNodeV2

variable (self : MeshNodeV2)

/-- The loop after one record, and the error that ends the call. -/
def insertLive (loop : PresenceLoopV2) (arrival : LiveArrivalV2) :
    PresenceLoopV2 × Option String :=
  match arrival.presence.encode with
  | .error message => (loop, some message)
  | .ok encoded =>
    match loop.directory.insert arrival.presence arrival.now arrival.order with
    | .error message => (loop, some message)
    | .ok (update, directory) =>
      if update.stores then
        let sends := self.gossip encoded arrival.incoming
        let sent := loop.sent ++ sends.takeWhile fun send => send.1 ∉ arrival.stopped
        if sends.any fun send => send.1 ∈ arrival.stopped then
          -- the record is stored, but the update is not noted
          ({ loop with directory, sent }, some "V2 mesh Presence gossip writer stopped")
        else
          let structuralUpdate := if update = .renewed then loop.structuralUpdate
            else some (arrival.presence.body.owner, update)
          ({ directory, sent, structuralUpdate }, none)
      else ({ loop with directory }, none)

/-- The loop up to the first error. -/
def insertsLive (self : MeshNodeV2) :
    PresenceLoopV2 → List LiveArrivalV2 → PresenceLoopV2 × Option String
  | loop, [] => (loop, none)
  | loop, arrival :: rest =>
    match self.insertLive loop arrival with
    | (next, none) => insertsLive self next rest
    | (next, some message) => (next, some message)

/-- The end of a call whose loop has run through. -/
def requestLive (state : LiveMeshV2) (loop : PresenceLoopV2) (now : SystemTime)
    (order : RecordOrder) : LiveOutcomeV2 :=
  match loop.structuralUpdate with
  | none => ⟨{ state with directory := loop.directory }, false, none⟩
  | some structural =>
    match self.request loop state.generation structural now order with
    | .ok next => ⟨{ toMeshControlV2 := next, requestedAt := now }, true, none⟩
    | .error message =>
      -- the generation has advanced unless that overflows
      let generation := if state.generation + 1 < 2 ^ 64 then state.generation + 1
        else state.generation
      ⟨{ state with directory := loop.directory, generation }, false, some message⟩

/-- `apply_mesh_presences`, with the state that it leaves. -/
def applyLive (state : LiveMeshV2) (call : LiveBatchV2) : LiveOutcomeV2 :=
  match self.insertsLive { directory := state.directory } call.arrivals with
  | (loop, none) => self.requestLive state loop call.now call.order
  | (loop, some message) =>
    ⟨{ state with directory := loop.directory }, false, some message⟩

/-- The calls of a run, each with the state it found and how it ended. -/
def callsLive (self : MeshNodeV2) :
    LiveMeshV2 → List LiveBatchV2 → List (LiveMeshV2 × LiveBatchV2 × LiveOutcomeV2)
  | _, [] => []
  | state, call :: rest =>
    (state, call, self.applyLive state call) :: callsLive self
      (self.applyLive state call).state rest

/-! ### Calls in which no writer stops -/

/-- What the loop returns, without what it leaves behind. -/
def result : PresenceLoopV2 × Option String → Except String PresenceLoopV2
  | (loop, none) => .ok loop
  | (_, some message) => .error message

section
variable {self : MeshNodeV2}

theorem insertLive_eq {loop : PresenceLoopV2} {arrival : LiveArrivalV2}
    (writing : arrival.stopped = []) : result (self.insertLive loop arrival) =
      self.insertPresence loop arrival.toPresenceArrival := by
  unfold insertPresence insertLive
  cases arrival.presence.encode with
  | error message => rfl
  | ok bytes =>
  cases loop.directory.insert arrival.presence arrival.now arrival.order with
  | error message => simp [result]
  | ok outcome =>
    by_cases stores : outcome.1.stores = true <;> simp [stores, writing, result]

theorem insertsLive_eq {loop : PresenceLoopV2} {arrivals : List LiveArrivalV2}
    (writing : ∀ arrival ∈ arrivals, arrival.stopped = []) :
    result (self.insertsLive loop arrivals) = (arrivals.map LiveArrivalV2.toPresenceArrival).foldlM
      self.insertPresence loop := by
  induction arrivals generalizing loop with
  | nil => rfl
  | cons arrival rest ih =>
    rw [List.forall_mem_cons] at writing
    rw [List.map_cons, List.foldlM_cons, ← insertLive_eq writing.1, insertsLive]
    rcases self.insertLive loop arrival with ⟨next, _ | message⟩
    · exact ih writing.2
    · rfl

/-- Where no writer stops, a call succeeds as `applyMeshPresences` does, with the same state. -/
theorem applyLive_eq {state : LiveMeshV2} {call : LiveBatchV2}
    (writing : ∀ arrival ∈ call.arrivals, arrival.stopped = []) :
    (self.applyMeshPresences state.toMeshControlV2 call.batch).map Prod.snd =
      match (self.applyLive state call).failure with
      | none => .ok (self.applyLive state call).state.toMeshControlV2
      | some message => .error message := by
  have loops := @insertsLive_eq _ _ self { directory := state.directory } call.arrivals writing
  rw [applyMeshPresences, insertPresences, LiveBatchV2.batch, ← loops, applyLive]
  rcases self.insertsLive { directory := state.directory } call.arrivals with ⟨loop, _ | message⟩
  · simp only [result, requestLive, ok_bind]
    cases loop.structuralUpdate with
    | none => rfl
    | some update =>
      dsimp only
      cases self.request loop state.generation update call.now call.order <;> rfl
  · rfl

end
end MeshNodeV2
end

/-! ### What one record does -/

theorem makeRoom_returns (order : RecordOrder) (owner : EndpointId) (turns : Nat)
    (records : PresenceRecords) :
    ∃ rest, PresenceDirectoryV2.makeRoom order owner turns records = .ok rest := by
  induction turns generalizing records with
  | zero => exact ⟨records, rfl⟩
  | succ turns ih =>
  rw [PresenceDirectoryV2.makeRoom]
  split_ifs with full
  · -- a full directory has a record to evict
    cases arranged : order.arrange records.entries with
    | nil =>
      have none : records.entries.length = 0 := by
        rw [← (order.perm records.entries).length_eq, arranged, List.length_nil]
      have size : directoryCapacity ≤ records.entries.length := full.1
      rw [none] at size
      exact absurd size (by decide)
    | cons first rest => exact ih _
  · exact ⟨records, rfl⟩

/-- The directory holds no record of the owner, or an older one of another shape. -/
def Changes (records : PresenceRecords) (presence : SignedPresenceV2) : Prop :=
  ∀ held ∈ records.lookup presence.body.owner,
    held.body.sequence.toNat < presence.body.sequence.toNat ∧
      sameTopology held.body presence.body = false
  deriving Decidable

/-- A record that is no conflict is classified, and one that changes the topology is stored as
such. -/
theorem classify_changes (directory : PresenceDirectoryV2) {records : PresenceRecords}
    {presence : SignedPresenceV2}
    (unmatched : ∀ held ∈ records.lookup presence.body.owner,
      held.body.sequence = presence.body.sequence → held = presence)
    (held : ∀ record, directory.records.lookup presence.body.owner = some record →
      records.lookup presence.body.owner = some record) :
    ∃ update, directory.classify presence = .ok update ∧
      (Changes records presence → update.stores = true ∧ update ≠ .renewed) := by
  obtain ⟨update, classified⟩ := @classify_returns _ directory presence fun current found same =>
    unmatched current (held current found) (UInt64.toNat_inj.mp same)
  refine ⟨update, classified, fun changes => ?_⟩
  cases classify_classified classified with
  | inserted => exact ⟨rfl, by decide⟩
  | stale found older => exact absurd (changes _ (held _ found)).1 (by omega)
  | duplicate found => exact absurd (changes _ (held _ found)).1 (lt_irrefl _)
  | newer found =>
    rw [(changes _ (held _ found)).2]
    exact ⟨rfl, by decide⟩

theorem classify_known {directory : PresenceDirectoryV2} {presence : SignedPresenceV2}
    {update : PresenceUpdateV2} (known : ¬Changes directory.records presence)
    (classified : directory.classify presence = .ok update) (stores : update.stores = true) :
    update = .renewed ∧ ∃ held, directory.records.lookup presence.body.owner = some held ∧
      held.part = presence.part := by
  simp only [Changes, not_forall] at known
  obtain ⟨held, found, older⟩ := known
  cases classify_classified classified with
  | inserted absent => cases absent.symm.trans found
  | stale | duplicate => cases stores
  | newer isHeld newer =>
    obtain rfl := Option.some.inj (isHeld.symm.trans found)
    have shape : sameTopology _ presence.body = true :=
      Bool.of_not_eq_false fun other => older ⟨newer, other⟩
    exact ⟨if_pos shape, _, found, part_of_sameTopology shape⟩

section
variable [Blake3]

theorem insert_returns {self : PresenceDirectoryV2} {presence : SignedPresenceV2}
    {now : SystemTime} {update : PresenceUpdateV2}
    (verified : presence.verify self.networkId now = .ok ())
    (classified : self.classify presence = .ok update) (order : RecordOrder) :
    ∃ after, self.insert presence now order = .ok (update, after) := by
  have secs : unixSecs now = .ok (secsOf now) :=
    unixSecs_eq_ok_iff.mpr ⟨(verify_unexpired verified).1, rfl⟩
  obtain ⟨records, made⟩ := makeRoom_returns order presence.body.owner
    (PresenceDirectoryV2.fresh self.records (secsOf now)).size
    (PresenceDirectoryV2.fresh self.records (secsOf now))
  simp only [PresenceDirectoryV2.insert, PresenceDirectoryV2.prune, verified, classified, secs,
    ok_bind, made]
  split_ifs
  · exact ⟨_, rfl⟩
  · exact ⟨_, rfl⟩

namespace MeshNodeV2

theorem insertLive_cases (self : MeshNodeV2) (loop : PresenceLoopV2) (arrival : LiveArrivalV2) :
    ((self.insertLive loop arrival).1.directory = loop.directory ∧
      (self.insertLive loop arrival).1.structuralUpdate = loop.structuralUpdate) ∨
    ∃ update, loop.directory.insert arrival.presence arrival.now arrival.order =
        .ok (update, (self.insertLive loop arrival).1.directory) ∧ update.stores = true ∧
      (update = .renewed →
        (self.insertLive loop arrival).1.structuralUpdate = loop.structuralUpdate) := by
  unfold insertLive
  cases arrival.presence.encode with
  | error message => exact .inl ⟨rfl, rfl⟩
  | ok encoded =>
  cases inserted : loop.directory.insert arrival.presence arrival.now arrival.order with
  | error message => exact .inl ⟨rfl, rfl⟩
  | ok result =>
  obtain ⟨update, directory⟩ := result
  dsimp only
  split
  next stores =>
    split
    · exact .inr ⟨update, rfl, stores, fun _ => rfl⟩
    · exact .inr ⟨update, rfl, stores, fun renewed => if_pos renewed⟩
  next ignored =>
    obtain ⟨-, -, insertion⟩ := insert_insertion inserted
    cases insertion with
    | kept => exact .inl ⟨rfl, rfl⟩
    | stored stores => exact absurd stores ignored

section
variable {self : MeshNodeV2} {loop : PresenceLoopV2}

theorem insertLive_admitted {arrival : LiveArrivalV2}
    (admitted : Admitted loop.directory.networkId loop.directory.records) :
    Admitted (self.insertLive loop arrival).1.directory.networkId
      (self.insertLive loop arrival).1.directory.records := by
  rcases self.insertLive_cases loop arrival with ⟨same, -⟩ | ⟨update, inserted, -⟩
  · rwa [same]
  · obtain ⟨isNetwork, after⟩ := admitted.insert inserted
    rwa [isNetwork]

variable {arrivals : List LiveArrivalV2}

/-- What every record keeps holds at the end of the loop, wherever it ends. -/
theorem insertsLive_keeps {Kept : List LiveArrivalV2 → PresenceLoopV2 → Prop}
    (step : ∀ arrival rest loop, Kept (arrival :: rest) loop →
      Kept rest (self.insertLive loop arrival).1) (start : Kept arrivals loop) :
    ∃ rest, Kept rest (self.insertsLive loop arrivals).1 := by
  induction arrivals generalizing loop with
  | nil => exact ⟨[], start⟩
  | cons arrival rest ih =>
    have next := step arrival rest loop start
    rw [insertsLive]
    split <;> rename_i isNext <;> rw [isNext] at next
    · exact ih next
    · exact ⟨rest, next⟩

theorem insertsLive_admitted (admitted : Admitted loop.directory.networkId loop.directory.records) :
    Admitted (self.insertsLive loop arrivals).1.directory.networkId
      (self.insertsLive loop arrivals).1.directory.records := by
  obtain ⟨-, after⟩ := @insertsLive_keeps _ _ self loop arrivals
    (fun _ loop => Admitted loop.directory.networkId loop.directory.records)
    (fun _ _ _ => insertLive_admitted) admitted
  exact after

/-! ### Batches of renewals -/

/-- A loop that has only renewed leases: all parts are as they were, nothing expires soon, and the
owners still to come are untouched. -/
structure OnlyRenewed (records : PresenceRecords) (limit : Nat) (rest : List LiveArrivalV2)
    (loop : PresenceLoopV2) : Prop where
  parts : SameParts loop.directory.records records
  lasting : ∀ owner record, loop.directory.records.lookup owner = some record →
    limit < record.body.expiresUnixSecs.toNat
  untouched : ∀ arrival ∈ rest, loop.directory.records.lookup arrival.presence.body.owner =
    records.lookup arrival.presence.body.owner
  distinct : (rest.map fun arrival => arrival.presence.body.owner).Nodup
  quiet : loop.structuralUpdate = none
  known : ∀ arrival ∈ rest, ¬Changes records arrival.presence ∧ secsOf arrival.now ≤ limit ∧
    limit < arrival.presence.body.expiresUnixSecs.toNat

theorem OnlyRenewed.step {records : PresenceRecords} {limit : Nat} {rest : List LiveArrivalV2}
    {arrival : LiveArrivalV2} (only : OnlyRenewed records limit (arrival :: rest) loop) :
    OnlyRenewed records limit rest (self.insertLive loop arrival).1 := by
  obtain ⟨parts, lasting, untouched, distinct, quiet, known⟩ := only
  rw [List.forall_mem_cons] at untouched known
  rw [List.map_cons, List.nodup_cons] at distinct
  obtain ⟨here, past, lives⟩ := known.1
  have outcomes := self.insertLive_cases loop arrival
  generalize (self.insertLive loop arrival).1 = next at outcomes
  rcases outcomes with ⟨same, silent⟩ | ⟨update, inserted, stores, silent⟩
  · exact ⟨same ▸ parts, same ▸ lasting, same ▸ untouched.2, distinct.2,
      silent.trans quiet, known.2⟩
  obtain ⟨-, classified, insertion⟩ := insert_insertion inserted
  obtain ⟨renewed, held, found, part⟩ := classify_known (by rwa [Changes, untouched.1]) classified
    stores
  -- nothing expires and the owner is known, so the record is stored over the old one
  have after : next.directory.records =
      loop.directory.records.insert arrival.presence.body.owner arrival.presence := by
    have unpruned : PresenceDirectoryV2.fresh loop.directory.records (secsOf arrival.now) =
        loop.directory.records :=
      fresh_eq_self fun owner record isHeld => past.trans_lt (lasting owner record isHeld)
    generalize next.directory = directory at insertion
    cases insertion with
    | kept ignored => exact absurd (stores.symm.trans ignored) (by decide)
    | stored _ made =>
      rw [unpruned, makeRoom_of_room (.inl (HashMap.mem_of_lookup found))] at made
      rw [Except.ok.inj made]
  refine ⟨fun owner => ?_, fun owner record isHeld => ?_, fun other member => ?_, distinct.2,
    (silent renewed).trans quiet, known.2⟩
  · rw [after]
    by_cases same : owner = arrival.presence.body.owner
    · rw [same, AList.lookup_insert, ← untouched.1, found, Option.map_some, Option.map_some, part]
    · rw [AList.lookup_insert_ne same]
      exact parts owner
  · rw [after] at isHeld
    rcases HashMap.lookup_insert_eq_some.mp isHeld with ⟨rfl, rfl⟩ | ⟨-, old⟩
    · exact lives
    · exact lasting owner record old
  · have apart : other.presence.body.owner ≠ arrival.presence.body.owner := fun same =>
      distinct.1 (same ▸ List.mem_map_of_mem member)
    rw [after, AList.lookup_insert_ne apart]
    exact untouched.2 other member

/-! ### Batches that cannot fail -/

/-- The record passes every check of its call. -/
structure Passes (networkId : String) (records : PresenceRecords) (arrival : LiveArrivalV2) :
    Prop where
  encoded : arrival.presence.encode.toOption.isSome = true
  verified : arrival.presence.verify networkId arrival.now = .ok ()
  unmatched : ∀ held ∈ records.lookup arrival.presence.body.owner,
    held.body.sequence = arrival.presence.body.sequence → held = arrival.presence
  writing : arrival.stopped = []

/-- A loop whose remaining records pass every check against the directory that the call found. -/
structure Delivers (networkId : String) (records : PresenceRecords) (rest : List LiveArrivalV2)
    (loop : PresenceLoopV2) : Prop where
  network : loop.directory.networkId = networkId
  passes : ∀ arrival ∈ rest, Passes networkId records arrival
  distinct : (rest.map fun arrival => arrival.presence.body.owner).Nodup
  held : ∀ arrival ∈ rest, ∀ record,
    loop.directory.records.lookup arrival.presence.body.owner = some record →
      records.lookup arrival.presence.body.owner = some record

theorem Delivers.insertLive_returns {networkId : String} {records : PresenceRecords}
    {rest : List LiveArrivalV2} {arrival : LiveArrivalV2}
    (delivers : Delivers networkId records (arrival :: rest) loop) :
    (self.insertLive loop arrival).2 = none ∧
      (Changes records arrival.presence ∨ loop.structuralUpdate ≠ none →
        (self.insertLive loop arrival).1.structuralUpdate ≠ none) := by
  obtain ⟨encoded, verified, unmatched, writing⟩ := delivers.passes arrival List.mem_cons_self
  obtain ⟨update, classified, changed⟩ := classify_changes (loop.directory) unmatched
    (delivers.held arrival List.mem_cons_self)
  rw [← delivers.network] at verified
  obtain ⟨after, inserted⟩ := insert_returns verified classified arrival.order
  have isEncoded := eq_ok_getD [] encoded
  generalize arrival.presence.encode.toOption.getD [] = bytes at isEncoded
  simp only [insertLive, isEncoded, inserted, writing]
  have unchanged : Changes records arrival.presence ∨ loop.structuralUpdate ≠ none →
      ¬(update.stores = true ∧ update ≠ .renewed) → loop.structuralUpdate ≠ none :=
    fun noted other => noted.resolve_left fun changes => other (changed changes)
  by_cases stores : update.stores = true <;> by_cases renewed : update = .renewed <;>
    simp_all

theorem Delivers.step {networkId : String} {records : PresenceRecords} {rest : List LiveArrivalV2}
    {arrival : LiveArrivalV2} (delivers : Delivers networkId records (arrival :: rest) loop) :
    Delivers networkId records rest (self.insertLive loop arrival).1 := by
  obtain ⟨network, passes, distinct, held⟩ := delivers
  rw [List.forall_mem_cons] at passes held
  rw [List.map_cons, List.nodup_cons] at distinct
  have outcomes := self.insertLive_cases loop arrival
  generalize (self.insertLive loop arrival).1 = next at outcomes
  rcases outcomes with ⟨same, -⟩ | ⟨update, inserted, -⟩
  · exact ⟨same ▸ network, passes.2, distinct.2, same ▸ held.2⟩
  obtain ⟨-, -, insertion⟩ := insert_insertion inserted
  refine ⟨?_, passes.2, distinct.2, fun other member record found => held.2 other member record ?_⟩
  · rw [← network]
    generalize next.directory = directory at insertion
    cases insertion <;> rfl
  · refine (insertion.lookup found).resolve_left fun here => ?_
    exact distinct.1 (here.2.1 ▸ List.mem_map_of_mem member)

theorem insertsLive_delivers {networkId : String} {records : PresenceRecords}
    (delivers : Delivers networkId records arrivals loop) :
    (self.insertsLive loop arrivals).2 = none ∧
      ((∃ arrival ∈ arrivals, Changes records arrival.presence) ∨ loop.structuralUpdate ≠ none →
        (self.insertsLive loop arrivals).1.structuralUpdate ≠ none) := by
  induction arrivals generalizing loop with
  | nil => exact ⟨rfl, fun noted => noted.resolve_left (by simp)⟩
  | cons arrival rest ih =>
    obtain ⟨returns, notes⟩ := @Delivers.insertLive_returns _ _ self loop _ _ _ _ delivers
    obtain ⟨through, later⟩ := @ih (self.insertLive loop arrival).1 delivers.step
    rw [insertsLive]
    generalize self.insertLive loop arrival = outcome at returns notes through later
    obtain ⟨next, failed⟩ := outcome
    obtain rfl : failed = none := returns
    refine ⟨through, fun noted => later ?_⟩
    rw [List.exists_mem_cons_iff, or_assoc, or_left_comm] at noted
    exact noted.imp_right notes

end
end MeshNodeV2
end
end
end Ironet.Mesh
