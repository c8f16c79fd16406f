import Ironet.Routing.Transit
import Ironet.Support.Pick

/-!
# Draining generations

The store keeps two retired views so that Cells in flight find their labels. A view is compared with
the current one only when it is published; whether all the retained views have different epochs
depends on the one retired view that stays. Where they do, every Cell and every label is answered by
the view it was made for.
-/
namespace Ironet.Routing
open Support Ironet.Mesh Ironet.Cell

namespace DataplaneSnapshotV2

def DisjointEpochs (left right : DataplaneSnapshotV2) : Prop :=
  ∀ epoch ∈ left.routeEpochs, epoch ∉ right.routeEpochs

theorem DisjointEpochs.symm {left right : DataplaneSnapshotV2}
    (disjoint : DisjointEpochs left right) :
    DisjointEpochs right left :=
  fun epoch inRight inLeft => disjoint epoch inLeft inRight

/-- The view answers for the Cell, rather than not to know its label. -/
def Answers (self : DataplaneSnapshotV2) (incoming : AdjacencyIdV2) (bytes : Mesh.Bytes) : Prop :=
  ∃ disposition, self.dispatchCell incoming bytes = .ok disposition ∧
    disposition.unanswered = false

variable {self : DataplaneSnapshotV2} {label : RouteLabelV2}

theorem epoch_of_label {entry : LabelRouteV2}
    (known : self.labels.lookup label = some entry) : entry.routeEpoch ∈ self.routeEpochs := by
  refine List.mem_append_left _ (List.mem_map.mpr ⟨⟨label, entry⟩, ?_, rfl⟩)
  exact HashMap.lookup_eq_some_iff.mp known

theorem epoch_of_labelAction {epoch : UInt32} {action : LabelActionV2}
    (known : self.labelAction epoch label = some action) : epoch ∈ self.routeEpochs := by
  simp only [labelAction, Option.map_eq_some_iff, Option.filter_eq_some_iff, decide_eq_true_eq]
    at known
  obtain ⟨entry, ⟨found, rfl⟩, -⟩ := known
  exact epoch_of_label found

theorem epoch_of_sourceRoute {epoch : UInt32} {route : ResolvedRouteV2}
    (known : self.sourceRoute epoch label = some route) : epoch ∈ self.routeEpochs := by
  refine List.mem_append_right _ (List.mem_map.mpr ⟨⟨(epoch, label), route⟩, ?_, rfl⟩)
  exact HashMap.lookup_eq_some_iff.mp known

variable {incoming : AdjacencyIdV2} {bytes : Mesh.Bytes}

theorem Answers.epoch (answers : self.Answers incoming bytes) {header : CellRouteHeaderV2}
    (decoded : CellRouteHeaderV2.decode bytes = .ok header) :
    header.sessionEpoch ∈ self.routeEpochs := by
  obtain ⟨disposition, dispatched, answered⟩ := answers
  obtain ⟨-, other, again, ⟨-, rfl⟩ | ⟨entry, known, ⟨-, rfl⟩ | ⟨current, -⟩⟩⟩ :=
    dispatchCell_cases dispatched
  · cases answered
  · cases answered
  · obtain rfl := Except.ok.inj (decoded.symm.trans again)
    rw [← current]
    exact epoch_of_label known

/-- A view without the epoch of a Cell that another view answers leaves the Cell to it. -/
theorem dispatchCell_of_other {other : DataplaneSnapshotV2} (apart : DisjointEpochs self other)
    {disposition : TransitDispositionV2}
    (dispatched : other.dispatchCell incoming bytes = .ok disposition)
    (answered : disposition.unanswered = false) :
    ∃ passed, self.dispatchCell incoming bytes = .ok passed ∧ passed.unanswered = true := by
  obtain ⟨nonzero, header, decoded, -⟩ := dispatchCell_cases dispatched
  have foreign : header.sessionEpoch ∉ self.routeEpochs := fun known =>
    apart _ known (Answers.epoch ⟨_, dispatched, answered⟩ decoded)
  simp only [dispatchCell, AdjacencyIdV2.new, ensure_of _ _ nonzero, ok_bind, decoded]
  cases known : self.labels.lookup header.routeLabel with
  | none => exact ⟨_, rfl, rfl⟩
  | some entry =>
    have stale : entry.routeEpoch ≠ header.sessionEpoch := fun same =>
      foreign (same ▸ epoch_of_label known)
    simp only [if_pos stale]
    exact ⟨_, rfl, rfl⟩

end DataplaneSnapshotV2

namespace DataplaneSnapshotStoreV2
open DataplaneSnapshotV2

def retained (self : DataplaneSnapshotStoreV2) : List DataplaneSnapshotV2 :=
  self.current :: self.retired

/-- What a store owes to the Cells and labels of the views it retains. -/
structure Drains (store : DataplaneSnapshotStoreV2) : Prop where
  disjoint : store.retained.Pairwise DisjointEpochs
  unique : ∀ incoming bytes, store.retained.Pairwise fun newer older =>
    ¬ (newer.Answers incoming bytes ∧ older.Answers incoming bytes)
  cells : ∀ snapshot ∈ store.retained, ∀ incoming bytes disposition,
    snapshot.dispatchCell incoming bytes = .ok disposition → disposition.unanswered = false →
      store.dispatchCell incoming bytes = .ok disposition
  labels : ∀ snapshot ∈ store.retained, ∀ epoch label action,
    snapshot.labelAction epoch label = some action → store.labelAction epoch label = some action
  sources : ∀ snapshot ∈ store.retained, ∀ epoch label route,
    snapshot.sourceRoute epoch label = some route → store.sourceRoute epoch label = some route

/-! ### A scan over disjoint views -/

variable {self : DataplaneSnapshotStoreV2} {incoming : AdjacencyIdV2} {bytes : Mesh.Bytes}

variable {snapshots : List DataplaneSnapshotV2}

variable {snapshot : DataplaneSnapshotV2}

/-- With disjoint epochs the retired view that answers is found, whatever stands before it. -/
theorem dispatchRetired_of_member (disjoint : snapshots.Pairwise DisjointEpochs)
    (member : snapshot ∈ snapshots) {disposition : TransitDispositionV2}
    (dispatched : snapshot.dispatchCell incoming bytes = .ok disposition)
    (answered : disposition.unanswered = false) (otherwise : TransitDispositionV2) :
    dispatchRetired incoming bytes otherwise snapshots = .ok disposition := by
  induction snapshots with
  | nil => cases member
  | cons first rest ih =>
  obtain ⟨apart, disjoint⟩ := List.pairwise_cons.mp disjoint
  rcases List.mem_cons.mp member with rfl | later
  · simp [dispatchRetired, dispatched, answered]
  -- the view before it does not know the epoch, and passes the Cell on
  obtain ⟨other, passed, unanswered⟩ :=
    dispatchCell_of_other (apart _ later) dispatched answered
  simp only [dispatchRetired, passed, ok_bind, unanswered, if_true]
  exact ih disjoint later

theorem findSome_of_member {β : Type} (disjoint : snapshots.Pairwise DisjointEpochs)
    {f : DataplaneSnapshotV2 → Option β} {epoch : UInt32}
    (known : ∀ snapshot value, f snapshot = some value → epoch ∈ snapshot.routeEpochs)
    (member : snapshot ∈ snapshots) {value : β} (found : f snapshot = some value) :
    snapshots.findSome? f = some value := by
  have symm : Std.Symm DisjointEpochs := ⟨fun _ _ => DisjointEpochs.symm⟩
  refine findSome_of_agree (fun other inList result isResult => ?_) ⟨snapshot, member, found⟩
  by_cases same : other = snapshot
  · subst same
    exact Option.some.inj (isResult.symm.trans found)
  · exact absurd (known _ _ found) (disjoint.forall inList member same epoch (known _ _ isResult))

theorem drains_of_disjoint (disjoint : self.retained.Pairwise DisjointEpochs) : self.Drains where
  disjoint
  unique incoming bytes := by
    refine disjoint.imp fun {newer older} apart => ?_
    rintro ⟨left, right⟩
    have ⟨_, dispatched, _⟩ := left
    obtain ⟨-, header, decoded, -⟩ := dispatchCell_cases dispatched
    exact apart _ (Answers.epoch left decoded) (Answers.epoch right decoded)
  cells snapshot member incoming bytes disposition dispatched answered := by
    obtain ⟨apart, retired⟩ := List.pairwise_cons.mp disjoint
    rcases List.mem_cons.mp member with rfl | later
    · simp [DataplaneSnapshotStoreV2.dispatchCell, dispatched, answered]
    · obtain ⟨other, passed, unanswered⟩ :=
        dispatchCell_of_other (apart _ later) dispatched answered
      simp only [DataplaneSnapshotStoreV2.dispatchCell, passed, ok_bind, unanswered, if_true]
      exact dispatchRetired_of_member retired later dispatched answered other
  labels snapshot member epoch label action found :=
    findSome_of_member disjoint (fun _ _ => epoch_of_labelAction) member found
  sources snapshot member epoch label route found :=
    findSome_of_member disjoint (fun _ _ => epoch_of_sourceRoute) member found

/-! ### Publications -/

/-- The stores of a run of successful publications, from the first one on. -/
def published (self : DataplaneSnapshotStoreV2) :
    List DataplaneSnapshotV2 → Except String (List DataplaneSnapshotStoreV2)
  | [] => .ok [self]
  | next :: rest => do
    let (_, store) ← self.publish next
    let stores ← store.published rest
    .ok (self :: stores)

/-- Each view brings epochs that the retired view it stays with does not have. -/
def FreshEpochs (self : DataplaneSnapshotStoreV2) : List DataplaneSnapshotV2 → Prop
  | [] => True
  | next :: rest =>
    (∀ kept ∈ self.retired.take (maxRetiredSnapshots - 1), DisjointEpochs next kept) ∧
      FreshEpochs ⟨next, self.current :: self.retired.take (maxRetiredSnapshots - 1)⟩ rest

variable {next previous : DataplaneSnapshotV2} {store : DataplaneSnapshotStoreV2}

theorem publish_eq_ok (accepted : self.publish next = .ok (previous, store)) :
    DisjointEpochs next self.current ∧
      store = ⟨next, self.current :: self.retired.take (maxRetiredSnapshots - 1)⟩ := by
  simp only [publish, do_eq_ok, Prod.mk.injEq] at accepted
  obtain ⟨-, apart, -, rfl⟩ := accepted
  refine ⟨?_, rfl⟩
  rcases apart with apart | none
  · exact DisjointEpochs.symm apart
  · intro epoch member
    rw [none] at member
    cases member

/-- One publication keeps the epochs disjoint exactly when the view is fresh. -/
theorem publish_disjoint_iff (accepted : self.publish next = .ok (previous, store))
    (disjoint : self.retained.Pairwise DisjointEpochs) : store.retained.Pairwise DisjointEpochs ↔
      ∀ kept ∈ self.retired.take (maxRetiredSnapshots - 1), DisjointEpochs next kept := by
  obtain ⟨apart, rfl⟩ := publish_eq_ok accepted
  have older : (self.current :: self.retired.take (maxRetiredSnapshots - 1)).Pairwise
      DisjointEpochs := disjoint.sublist (List.Sublist.cons_cons _ (List.take_sublist _ _))
  simp [retained, apart, older]

variable {stores : List DataplaneSnapshotStoreV2}

theorem published_head (run : self.published snapshots = .ok stores) : self ∈ stores := by
  cases snapshots with
  | nil =>
    simp only [published, Except.ok.injEq] at run
    simp [← run]
  | cons next rest =>
    simp only [published, do_eq_ok] at run
    obtain ⟨-, -, later, -, rfl⟩ := run
    exact List.mem_cons_self

theorem published_drains_iff (run : self.published snapshots = .ok stores)
    (disjoint : self.retained.Pairwise DisjointEpochs) :
    (∀ store ∈ stores, store.Drains) ↔ self.FreshEpochs snapshots := by
  induction snapshots generalizing self stores with
  | nil =>
    simp only [published, Except.ok.injEq] at run
    subst run
    simp [FreshEpochs, drains_of_disjoint disjoint]
  | cons next rest ih =>
  simp only [published, do_eq_ok, Prod.exists] at run
  obtain ⟨previous, store, accepted, later, continued, rfl⟩ := run
  have fresh := publish_disjoint_iff accepted disjoint
  obtain ⟨-, rfl⟩ := publish_eq_ok accepted
  simp only [List.forall_mem_cons, drains_of_disjoint disjoint, true_and, FreshEpochs]
  constructor
  · intro drains
    have first := (drains _ (published_head continued)).disjoint
    exact ⟨fresh.mp first, (ih continued first).mp drains⟩
  · rintro ⟨isFresh, freshLater⟩
    exact (ih continued (fresh.mpr isFresh)).mpr freshLater

/-- Over a run of publications, every store drains the views it retains exactly if every published
view is fresh to the retired view that stays beside it. -/
theorem draining_unambiguous (initial : DataplaneSnapshotV2) (snapshots : List DataplaneSnapshotV2)
    (stores : List DataplaneSnapshotStoreV2)
    (run : (new initial).published snapshots = .ok stores) :
    (∀ store ∈ stores, store.Drains) ↔ (new initial).FreshEpochs snapshots :=
  published_drains_iff run (List.pairwise_singleton _ _)

/-! ### An epoch that returns -/

def labelView (generation : UInt64) (nonzero : generation ≠ 0) (labels : List LabelRouteV2) :
    DataplaneSnapshotV2 where
  generation
  localNode := .ofNat 1
  prefixes := {}
  underlayExclusions := .compile []
  labels := labels.foldl (fun table entry => table.insert entry.routeLabel entry) ∅
  sourceRoutes := ∅
  generation_ne_zero := nonzero

def ownerView : DataplaneSnapshotV2 := labelView 1 (by decide : ¬ _ = _) [⟨11, 7, .localNode 1⟩]
def emptyView : DataplaneSnapshotV2 := labelView 2 (by decide) []
def reusingView : DataplaneSnapshotV2 := labelView 3 (by decide) [⟨11, 7, .forward 1 2⟩]

example : DataplaneSnapshotV2.compile 3 (.ofNat 1) [] [⟨11, 7, .forward 1 2⟩] [] false =
    .ok reusingView := rfl

/-- Views whose epochs differ are published and drain. -/
theorem draining_unambiguous_relabelled :
    (new ownerView).published [emptyView, labelView 3 (by decide) [⟨11, 8, .localNode 1⟩]] =
        .ok [new ownerView, ⟨emptyView, [ownerView]⟩,
          ⟨labelView 3 (by decide) [⟨11, 8, .localNode 1⟩], [emptyView, ownerView]⟩] ∧
      Drains ⟨labelView 3 (by decide) [⟨11, 8, .localNode 1⟩], [emptyView, ownerView]⟩ := by
  refine ⟨rfl, ?_⟩
  refine (draining_unambiguous ownerView
    [emptyView, labelView 3 (by decide) [⟨11, 8, .localNode 1⟩]] _ rfl).mpr ?_ _
    (.tail _ (.tail _ (.head _)))
  simp only [FreshEpochs, DisjointEpochs, and_true]
  decide

/-- An epoch comes back after a view without labels: both views are retained, and a Cell that the
older one delivered is forwarded by the newer one. -/
theorem reused_epoch_redirects : (new ownerView).published [emptyView, reusingView] =
        .ok [new ownerView, ⟨emptyView, [ownerView]⟩, ⟨reusingView, [emptyView, ownerView]⟩] ∧
      7 ∈ ownerView.routeEpochs ∧ 7 ∈ reusingView.routeEpochs ∧
      (ownerView.dispatchCell 1 sampleParity.wire).toOption =
        some (.localCell sampleParity.routeHeader sampleParity.wire) ∧
      (dispatchCell ⟨reusingView, [emptyView, ownerView]⟩ 1 sampleParity.wire).toOption ≠
        some (.localCell sampleParity.routeHeader sampleParity.wire) := by
  refine ⟨rfl, by decide, by decide, by decide, by decide⟩

end DataplaneSnapshotStoreV2
end Ironet.Routing
