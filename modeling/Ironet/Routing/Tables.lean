import Ironet.Routing.Snapshot
import Mathlib.Data.List.Destutter

/-!
# Compiled tables

When `DataplaneSnapshotV2::compile` accepts its input, and what the tables it builds answer: a label
finds its entry, and an address finds the routes of one prefix that contains it.
-/
namespace Ironet.Routing
open Support Ironet.Mesh List

/-! ### Checks -/

variable {allowDefaultRoutes : Bool} {kind : String}

theorem validatePrefix_eq_ok_iff {network : IpNet} :
    validatePrefix allowDefaultRoutes kind network = .ok () ↔
      network.addr = network.network ∧ (allowDefaultRoutes = true ∨ network.prefixLen ≠ 0) := by
  simp only [validatePrefix, do_eq_ok]

theorem validatePrefixSet_eq_ok_iff {prefixes : List IpNet} :
    validatePrefixSet prefixes allowDefaultRoutes kind = .ok () ↔
      (∀ network ∈ prefixes, network.addr = network.network ∧
        (allowDefaultRoutes = true ∨ network.prefixLen ≠ 0)) ∧
      ((sortByKey IpNet.key prefixes).destutter (· ≠ ·)).length = prefixes.length := by
  simp only [validatePrefixSet, do_eq_ok, forM_eq_ok_iff, validatePrefix_eq_ok_iff]

theorem validatePrefixSet_permissive {prefixes : List IpNet}
    (checked : validatePrefixSet prefixes allowDefaultRoutes kind = .ok ()) :
    validatePrefixSet prefixes true kind = .ok () := by
  rw [validatePrefixSet_eq_ok_iff] at checked ⊢
  exact ⟨fun network member => ⟨(checked.1 network member).1, .inl rfl⟩, checked.2⟩

/-- A sorted list without equal neighbours passes the check for duplicates. -/
theorem destutter_sorted_length (prefixes : List IpNet) :
    ((sortByKey IpNet.key ((sortByKey IpNet.key prefixes).destutter (· ≠ ·))).destutter
      (· ≠ ·)).length = ((sortByKey IpNet.key prefixes).destutter (· ≠ ·)).length := by
  have sorted := (sortByKey_sorted IpNet.key prefixes).sublist
    (destutter_sublist (· ≠ ·) _)
  rw [sortByKey_of_sorted sorted, destutter_idem]

theorem mem_destutter_ne {α : Type} [DecidableEq α] {x : α} {xs : List α}
    (member : x ∈ xs.destutter (· ≠ ·)) : x ∈ xs :=
  (destutter_sublist _ xs).mem member

theorem checkAction_eq_ok_iff {action : LabelActionV2} : checkAction action = .ok () ↔
      match action with
      | .localNode expectedIngress => expectedIngress ≠ 0
      | .forward expectedIngress nextHop =>
        expectedIngress ≠ 0 ∧ nextHop ≠ 0 ∧ expectedIngress ≠ nextHop := by
  cases action with
  | localNode expectedIngress =>
    simp [checkAction, AdjacencyIdV2.new, do_eq_ok]
  | forward expectedIngress nextHop =>
    simp [checkAction, AdjacencyIdV2.new, do_eq_ok]

theorem checkLabel_eq_ok_iff {entry : LabelRouteV2} : checkLabel entry = .ok () ↔
      entry.routeLabel ≠ 0 ∧ entry.routeEpoch ≠ 0 ∧ checkAction entry.action = .ok () := by
  simp [checkLabel, RouteLabelV2.new, do_eq_ok]

theorem checkPrefixRoute_eq_ok_iff {entry : PrefixRouteV2} :
    checkPrefixRoute entry = .ok () ↔ entry.route.adjacency ≠ 0 ∧ entry.route.routeLabel ≠ 0 ∧
      entry.route.routeEpoch ≠ 0 ∧ Cell.headerLen < entry.route.maximumDatagramSize.toNat := by
  simp [checkPrefixRoute, AdjacencyIdV2.new, RouteLabelV2.new, do_eq_ok]

/-! ### Labels -/

variable {labels : List LabelRouteV2}

theorem compileLabels_ok (table : HashMap RouteLabelV2 LabelRouteV2)
    (checked : ∀ entry ∈ labels, checkLabel entry = .ok ())
    (distinct : (labels.map LabelRouteV2.routeLabel).Nodup)
    (fresh : ∀ entry ∈ labels, table.lookup entry.routeLabel = none) :
    ∃ final, compileLabels labels table = .ok final := by
  induction labels generalizing table with
  | nil => exact ⟨table, rfl⟩
  | cons entry rest ih =>
  rw [forall_mem_cons] at checked fresh
  rw [map_cons, nodup_cons] at distinct
  simp only [compileLabels, checked.1, ok_bind, ensure_of _ _ fresh.1]
  refine ih _ checked.2 distinct.2 fun other member => ?_
  have different : other.routeLabel ≠ entry.routeLabel := fun same =>
    distinct.1 (mem_map.mpr ⟨other, member, same⟩)
  rw [AList.lookup_insert_ne different]
  exact fresh.2 other member

theorem compileLabels_lookup
    {table final : HashMap RouteLabelV2 LabelRouteV2}
    (built : compileLabels labels table = .ok final)
    {label : RouteLabelV2} {entry : LabelRouteV2} : final.lookup label = some entry ↔
      (entry ∈ labels ∧ entry.routeLabel = label) ∨ table.lookup label = some entry := by
  induction labels generalizing table with
  | nil =>
    simp only [compileLabels, Except.ok.injEq] at built
    simp [built]
  | cons first rest ih =>
  simp only [compileLabels, do_eq_ok] at built
  obtain ⟨-, fresh, built⟩ := built
  rw [ih built, HashMap.lookup_insert_eq_some, mem_cons]
  constructor
  · rintro (⟨member, isLabel⟩ | ⟨rfl, rfl⟩ | ⟨-, old⟩)
    · exact .inl ⟨.inr member, isLabel⟩
    · exact .inl ⟨.inl rfl, rfl⟩
    · exact .inr old
  rintro (⟨rfl | member, isLabel⟩ | old)
  · exact .inr (.inl ⟨isLabel.symm, rfl⟩)
  · exact .inl ⟨member, isLabel⟩
  · refine .inr (.inr ⟨?_, old⟩)
    rintro rfl
    rw [fresh] at old
    cases old

/-! ### Source routes -/

variable {prefixes : List PrefixRouteV2}

theorem compileSourceRoutes_ok (sources : HashMap (UInt32 × RouteLabelV2) ResolvedRouteV2)
    (consistent : ∀ entry ∈ prefixes, ∀ other ∈ prefixes,
      entry.route.routeEpoch = other.route.routeEpoch →
        entry.route.routeLabel = other.route.routeLabel → entry.route = other.route)
    (agrees : ∀ entry ∈ prefixes,
      ∀ existing ∈ sources.lookup (entry.route.routeEpoch, entry.route.routeLabel),
        existing = entry.route) : ∃ final, compileSourceRoutes prefixes sources = .ok final := by
  induction prefixes generalizing sources with
  | nil => exact ⟨sources, rfl⟩
  | cons entry rest ih =>
  rw [forall_mem_cons] at agrees
  simp only [compileSourceRoutes]
  rw [ensure_of _ _ agrees.1, ok_bind]
  refine ih _ (fun left inLeft right inRight => consistent left (mem_cons_of_mem _ inLeft)
    right (mem_cons_of_mem _ inRight)) fun other member existing found => ?_
  rcases HashMap.lookup_insert_eq_some.mp found with ⟨sameKey, rfl⟩ | ⟨-, old⟩
  · obtain ⟨sameEpoch, sameLabel⟩ := Prod.mk.inj sameKey
    exact (consistent other (mem_cons_of_mem _ member) entry mem_cons_self sameEpoch sameLabel).symm
  · exact agrees.2 other member existing old

theorem compileSourceRoutes_lookup {sources final : HashMap (UInt32 × RouteLabelV2) ResolvedRouteV2}
    (compiled : compileSourceRoutes prefixes sources = .ok final) {key : UInt32 × RouteLabelV2}
    {route : ResolvedRouteV2} (found : final.lookup key = some route) :
    sources.lookup key = some route ∨
      ∃ entry ∈ prefixes, key = (entry.route.routeEpoch, entry.route.routeLabel) := by
  induction prefixes generalizing sources with
  | nil =>
    obtain rfl := Except.ok.inj compiled
    exact .inl found
  | cons entry rest ih =>
  simp only [compileSourceRoutes, do_eq_ok] at compiled
  rcases ih compiled.2 with before | ⟨other, inRest, isKey⟩
  · rcases HashMap.lookup_insert_eq_some.mp before with ⟨isKey, -⟩ | ⟨-, old⟩
    · exact .inr ⟨entry, mem_cons_self, isKey⟩
    · exact .inl old
  · exact .inr ⟨other, mem_cons_of_mem _ inRest, isKey⟩

/-! ### Snapshots -/

namespace DataplaneSnapshotV2

variable {localNode : Key32} {exclusions : List IpNet} {generation : UInt64}

theorem compile_ok (generationOk : generation ≠ 0) (few : labels.length ≤ maxRouteLabels)
    (exclusionsOk : validatePrefixSet exclusions true "underlay exclusion" = .ok ())
    (labelsOk : ∀ entry ∈ labels, checkLabel entry = .ok ())
    (distinct : (labels.map LabelRouteV2.routeLabel).Nodup)
    (networksOk : ∀ entry ∈ prefixes, entry.network.addr = entry.network.network ∧
      (allowDefaultRoutes = true ∨ entry.network.prefixLen ≠ 0))
    (routesOk : ∀ entry ∈ prefixes, checkPrefixRoute entry = .ok ())
    (consistent : ∀ entry ∈ prefixes, ∀ other ∈ prefixes,
      entry.route.routeEpoch = other.route.routeEpoch →
        entry.route.routeLabel = other.route.routeLabel → entry.route = other.route) :
    ∃ snapshot, compile generation localNode prefixes labels exclusions allowDefaultRoutes =
      .ok snapshot := by
  obtain ⟨table, built⟩ := compileLabels_ok ∅ labelsOk distinct fun _ _ => rfl
  obtain ⟨sources, resolved⟩ := compileSourceRoutes_ok ∅ consistent
    fun _ _ _ found => by cases found
  have networks : validatePrefixSet
      ((sortByKey IpNet.key (prefixes.map PrefixRouteV2.network)).destutter (· ≠ ·))
      allowDefaultRoutes "overlay route" = .ok () := by
    refine validatePrefixSet_eq_ok_iff.mpr ⟨fun network member => ?_, destutter_sorted_length _⟩
    obtain ⟨entry, inPrefixes, rfl⟩ := mem_map.mp (mem_sortByKey.mp (mem_destutter_ne member))
    exact networksOk entry inPrefixes
  unfold compile
  rw [dif_pos generationOk, ensure_of _ _ few, ok_bind, exclusionsOk, ok_bind, built, ok_bind]
  dsimp only
  rw [networks, ok_bind, forM_eq_ok_iff.mpr routesOk, ok_bind, resolved, ok_bind]
  exact ⟨_, rfl⟩

variable {snapshot : DataplaneSnapshotV2}

section
variable (built : compile generation localNode prefixes labels exclusions allowDefaultRoutes =
  .ok snapshot)
include built

theorem compile_eq_ok : snapshot.prefixes = .compile prefixes ∧ ∀ label entry,
      snapshot.labels.lookup label = some entry ↔ entry ∈ labels ∧ entry.routeLabel = label := by
  unfold compile at built
  split at built
  · simp only [do_eq_ok] at built
    obtain ⟨-, -, table, compiled, -, -, sources, -, rfl⟩ := built
    refine ⟨rfl, fun label entry => ?_⟩
    rw [compileLabels_lookup compiled]
    simp
  · cases built

theorem compile_permissive :
    compile generation localNode prefixes labels exclusions true = .ok snapshot := by
  unfold compile at built ⊢
  split at built
  · rename_i nonzero
    simp only [bind_eq_ok, exists_unit] at built
    obtain ⟨few, exclusionsOk, table, compiled, networks, routes, sources, resolved, isSnapshot⟩ :=
      built
    rw [dif_pos nonzero, few, ok_bind, exclusionsOk, ok_bind, compiled, ok_bind]
    dsimp only
    rw [validatePrefixSet_permissive networks, ok_bind, routes, ok_bind, resolved, ok_bind]
    exact isSnapshot
  · cases built

theorem compile_routeEpochs {routeEpoch : UInt32}
    (labelEpochs : ∀ entry ∈ labels, entry.routeEpoch = routeEpoch)
    (prefixEpochs : ∀ entry ∈ prefixes, entry.route.routeEpoch = routeEpoch) :
    ∀ epoch ∈ snapshot.routeEpochs, epoch = routeEpoch := by
  have lookups := (compile_eq_ok built).2
  unfold compile at built
  split at built
  swap
  · cases built
  simp only [do_eq_ok] at built
  obtain ⟨-, -, table, -, -, -, sources, resolved, rfl⟩ := built
  intro epoch known
  rcases mem_append.mp known with inLabels | inSources
  · obtain ⟨⟨label, entry⟩, isEntry, rfl⟩ := mem_map.mp inLabels
    exact labelEpochs entry ((lookups label entry).mp (HashMap.lookup_eq_some_iff.mpr isEntry)).1
  obtain ⟨⟨key, route⟩, isEntry, rfl⟩ := mem_map.mp inSources
  rcases compileSourceRoutes_lookup resolved (HashMap.lookup_eq_some_iff.mpr isEntry) with
    none | ⟨entry, inPrefixes, rfl⟩
  · cases none
  · exact prefixEpochs entry inPrefixes

end

end DataplaneSnapshotV2

/-! ### Prefix lookup -/

variable {destination : IpAddr}

namespace PrefixRouteIndexV2

theorem lookup_foldl_push {routes bucketed : List PrefixRouteV2} {index : PrefixRouteIndexV2}
    {key : Nat × IpAddr} (found : (routes.foldl push index).routes.lookup key = some bucketed) :
    ∀ route ∈ bucketed, (route ∈ routes ∧ bucket route = key) ∨
      ∃ old, index.routes.lookup key = some old ∧ route ∈ old := by
  induction routes generalizing index with
  | nil =>
    intro route member
    exact .inr ⟨bucketed, found, member⟩
  | cons first rest ih =>
  intro route member
  rcases ih found route member with ⟨later, isKey⟩ | ⟨old, known, inOld⟩
  · exact .inl ⟨mem_cons_of_mem _ later, isKey⟩
  -- the bucket of the first route is the old one with that route at its end
  rcases HashMap.lookup_insert_eq_some.mp known with ⟨rfl, rfl⟩ | ⟨-, before⟩
  · rcases mem_append.mp inOld with kept | added
    · cases previous : index.routes.lookup (bucket first) with
      | none =>
        rw [previous] at kept
        cases kept
      | some entries =>
        rw [previous] at kept
        exact .inr ⟨entries, rfl, kept⟩
    · rw [mem_singleton.mp added]
      exact .inl ⟨mem_cons_self, rfl⟩
  · exact .inr ⟨old, before, inOld⟩

theorem lookup_compile {routes candidates : List PrefixRouteV2}
    (found : (compile routes).lookup destination = some candidates) :
    ∀ route ∈ candidates, route ∈ routes ∧ route.network.contains destination = true := by
  intro route member
  obtain ⟨length, -, looked⟩ := exists_of_findSome?_eq_some found
  rcases lookup_foldl_push looked route member with ⟨inRoutes, isBucket⟩ | ⟨old, known, -⟩
  · refine ⟨inRoutes, ?_⟩
    obtain ⟨isLength, isNetwork⟩ := Prod.mk.inj isBucket
    rw [IpNet.contains, isLength, isNetwork, decide_eq_true rfl]
  · cases known

end PrefixRouteIndexV2

namespace DataplaneSnapshotV2

variable {snapshot : DataplaneSnapshotV2} (isIndex : snapshot.prefixes = .compile prefixes)
include isIndex

theorem lookupDestination_eq_ok {route : ResolvedRouteV2}
    (found : snapshot.lookupDestination destination = .ok route) :
    ∃ entry ∈ prefixes, entry.network.contains destination = true ∧ route = entry.route := by
  unfold lookupDestination at found
  split at found
  · cases found
  cases looked : snapshot.prefixes.lookup destination with
  | none =>
    rw [looked] at found
    cases found
  | some entries =>
  cases entries with
  | nil =>
    rw [looked] at found
    cases found
  | cons entry entries =>
  rw [looked] at found
  rw [isIndex] at looked
  obtain ⟨inPrefixes, holds⟩ :=
    PrefixRouteIndexV2.lookup_compile looked entry mem_cons_self
  exact ⟨entry, inPrefixes, holds, (Except.ok.inj found).symm⟩

theorem lookupDestinationCandidates_eq_ok {candidates : List (ResolvedRouteV2 × Nat)}
    (found : snapshot.lookupDestinationCandidates destination = .ok candidates) :
    ∀ candidate ∈ candidates, ∃ entry ∈ prefixes, entry.network.contains destination = true ∧
      candidate = (entry.route, entry.startupLatency) := by
  unfold lookupDestinationCandidates at found
  split at found
  · cases found
  cases looked : snapshot.prefixes.lookup destination with
  | none =>
    rw [looked] at found
    cases found
  | some entries =>
  rw [looked] at found
  obtain rfl := Except.ok.inj found
  intro candidate member
  obtain ⟨entry, inEntries, rfl⟩ := mem_map.mp member
  rw [isIndex] at looked
  obtain ⟨inPrefixes, holds⟩ := PrefixRouteIndexV2.lookup_compile looked entry inEntries
  exact ⟨entry, inPrefixes, holds, rfl⟩

end DataplaneSnapshotV2
end Ironet.Routing
