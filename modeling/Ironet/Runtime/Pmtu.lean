import Ironet.Routing.Snapshot

/-!
# Path-MTU constraints

`RoutePmtuConstraintsV2` in `v2_runtime/mesh.rs` remembers, for the newest route epoch, the smallest
datagram size that was reported for each label. The map is replaced as a whole: when a newer epoch
reports, and also when it holds 4096 labels and a report would change it.
-/
namespace Ironet.Runtime
open Support Routing

def maxPathMtuConstraints : Nat := 4096

structure RoutePmtuSnapshotV2 where
  activeEpoch : UInt32 := 0
  values : HashMap RouteLabelV2 UInt16 := ∅

structure RoutePmtuConstraintsV2 where
  state : RoutePmtuSnapshotV2 := {}
  generation : UInt64 := 0

/-- The arguments of `constrain`. -/
structure PmtuReport where
  routeEpoch : UInt32
  routeLabel : RouteLabelV2
  maximum : UInt16

namespace RoutePmtuConstraintsV2

variable (self : RoutePmtuConstraintsV2) (report : PmtuReport)

/-- The report tells nothing new about its label. -/
def known : Bool :=
  report.routeEpoch == self.state.activeEpoch &&
    (self.state.values.lookup report.routeLabel).any (· ≤ report.maximum)

def constrain : RoutePmtuConstraintsV2 :=
  if report.routeEpoch < self.state.activeEpoch then self
  else if self.known report then self
  else
    let next := if report.routeEpoch ≠ self.state.activeEpoch ∨
      maxPathMtuConstraints ≤ self.state.values.size then ∅ else self.state.values
    let value := (next.lookup report.routeLabel).elim report.maximum (min · report.maximum)
    { state := ⟨report.routeEpoch, next.insert report.routeLabel value⟩
      generation := self.generation + 1 }

def apply (route : ResolvedRouteV2) : ResolvedRouteV2 :=
  if self.state.activeEpoch = route.routeEpoch then
    (self.state.values.lookup route.routeLabel).elim route fun maximum =>
      { route with maximumDatagramSize := min route.maximumDatagramSize maximum }
  else route

/-- The constraints after these reports. -/
def after (reports : List PmtuReport) : RoutePmtuConstraintsV2 :=
  reports.foldl constrain {}

/-- The map is full and the report of the active epoch replaces it. -/
def forgets : Bool :=
  report.routeEpoch == self.state.activeEpoch && !self.known report &&
    decide (maxPathMtuConstraints ≤ self.state.values.size)

/-- No call of a run forgets. -/
def roomy (self : RoutePmtuConstraintsV2) : List PmtuReport → Bool
  | [] => true
  | report :: rest => !self.forgets report && (self.constrain report).roomy rest

end RoutePmtuConstraintsV2

open RoutePmtuConstraintsV2

/-- The sizes reported for a label of an epoch. -/
def reported (reports : List PmtuReport) (routeEpoch : UInt32) (routeLabel : RouteLabelV2) :
    List Nat :=
  (reports.filter fun report =>
    report.routeEpoch == routeEpoch && report.routeLabel == routeLabel).map
    fun report => report.maximum.toNat

theorem toNat_min (left right : UInt16) : (min left right).toNat = min left.toNat right.toNat := by
  rw [UInt16.min_def]
  split <;> rename_i less <;> rw [UInt16.le_iff_toNat_le] at less <;> omega

section
variable {reports : List PmtuReport} {report : PmtuReport} {self : RoutePmtuConstraintsV2}

/-- Only the active epoch and older ones were reported, and every value is the minimum of what was
reported for its label. -/
structure Tracks (reports : List PmtuReport) (constraints : RoutePmtuConstraintsV2) : Prop where
  newest : ∀ report ∈ reports, report.routeEpoch ≤ constraints.state.activeEpoch
  minimum : ∀ label size, (constraints.state.values.lookup label).elim size
      (fun value => min size value.toNat) =
    (reported reports constraints.state.activeEpoch label).foldl min size

theorem reported_append (label : RouteLabelV2) (epoch : UInt32) :
    reported (reports ++ [report]) epoch label =
      reported reports epoch label ++
        if report.routeEpoch = epoch ∧ report.routeLabel = label then [report.maximum.toNat]
        else [] := by
  simp only [reported, List.filter_append, List.map_append, List.filter_cons, List.filter_nil]
  grind

theorem constrain_tracks (tracks : Tracks reports self) (roomy : self.forgets report = false) :
    Tracks (reports ++ [report]) (self.constrain report) := by
  obtain ⟨newest, minimum⟩ := tracks
  have fresh : ∀ label, self.state.activeEpoch < report.routeEpoch →
      reported reports report.routeEpoch label = [] := by
    intro label newer
    simp only [reported, List.map_eq_nil_iff, List.filter_eq_nil_iff]
    grind
  simp only [forgets] at roomy
  unfold constrain
  split_ifs with older isKnown replaced
  · -- an older epoch is ignored
    refine ⟨by grind, fun label size => ?_⟩
    grind [reported_append]
  · -- the value is as small already
    simp only [known, Bool.and_eq_true, beq_iff_eq, Option.any_eq_true,
      decide_eq_true_eq] at isKnown
    obtain ⟨same, value, held, small⟩ := isKnown
    refine ⟨by grind, fun label size => ?_⟩
    have below := UInt16.le_iff_toNat_le.mp small
    rw [reported_append, List.foldl_append, ← minimum]
    grind
  · -- while there is room only a newer epoch replaces the map
    refine ⟨by grind, fun label size => ?_⟩
    grind [reported_append, AList.lookup_insert, AList.lookup_insert_ne, AList.lookup_empty]
  · refine ⟨by grind, fun label size => ?_⟩
    cases held : self.state.values.lookup report.routeLabel <;>
      grind [reported_append, AList.lookup_insert, AList.lookup_insert_ne, toNat_min]

theorem run_tracks {later : List PmtuReport} (tracks : Tracks reports self)
    (met : self.roomy later = true) : Tracks (reports ++ later) (later.foldl constrain self) := by
  induction later generalizing reports self with
  | nil => simpa using tracks
  | cons report rest ih =>
    simp only [roomy, Bool.and_eq_true, Bool.not_eq_true'] at met
    simpa using ih (constrain_tracks tracks met.1) met.2

theorem after_tracks (met : roomy {} reports = true) : Tracks reports (after reports) :=
  @run_tracks [] {} reports ⟨by simp, fun _ _ => rfl⟩ met

theorem roomy_append {later : List PmtuReport} (met : self.roomy (reports ++ later) = true) :
    self.roomy reports = true := by
  induction reports generalizing self with
  | nil => rfl
  | cons report rest ih =>
    simp only [List.cons_append, roomy, Bool.and_eq_true] at met ⊢
    exact ⟨met.1, ih met.2⟩

theorem Tracks.apply (tracks : Tracks reports self) {route : ResolvedRouteV2}
    (active : route.routeEpoch = self.state.activeEpoch) :
    (self.apply route).maximumDatagramSize.toNat =
      (reported reports route.routeEpoch route.routeLabel).foldl min
        route.maximumDatagramSize.toNat := by
  rw [active, ← tracks.minimum, RoutePmtuConstraintsV2.apply, if_pos active.symm]
  cases self.state.values.lookup route.routeLabel with
  | none => rfl
  | some value => exact toNat_min _ _

end

/-- Where no full map is replaced, a route of the active epoch is limited by the minimum of all
sizes reported for it, so its limit does not grow while the epoch lasts. -/
theorem pmtu_is_reported_minimum (reports : List PmtuReport) (met : roomy {} reports = true)
    (route : ResolvedRouteV2) (active : route.routeEpoch = (after reports).state.activeEpoch) :
    ((after reports).apply route).maximumDatagramSize.toNat =
        (reported reports route.routeEpoch route.routeLabel).foldl min
          route.maximumDatagramSize.toNat ∧
      ∀ front back, reports = front ++ back →
        route.routeEpoch = (after front).state.activeEpoch →
        ((after reports).apply route).maximumDatagramSize ≤
          ((after front).apply route).maximumDatagramSize := by
  have whole := (after_tracks met).apply active
  refine ⟨whole, ?_⟩
  rintro front back rfl earlier
  have shrinks : ∀ (sizes : List Nat) (start : Nat), sizes.foldl min start ≤ start := by
    intro sizes
    induction sizes with
    | nil => simp
    | cons size rest ih => exact fun start => (ih _).trans (min_le_left _ _)
  rw [UInt16.le_iff_toNat_le, whole, (after_tracks (roomy_append met)).apply earlier, reported,
    List.filter_append, List.map_append, List.foldl_append]
  exact shrinks _ _

/-! ### A full map -/

/-- One report of 1200 bytes for each of the labels 1 to `count`. -/
def labelReports (count : Nat) : List PmtuReport :=
  (List.range count).map fun index => ⟨1, .ofNat (index + 1), 1200⟩

def sampleRoute : ResolvedRouteV2 := ⟨1, 1, 1, 1382⟩

theorem after_labelReports (count : Nat) : after (labelReports (count + 1)) =
    (after (labelReports count)).constrain ⟨1, .ofNat (count + 1), 1200⟩ := by
  rw [labelReports, List.range_succ, List.map_append, after, List.foldl_append]
  rfl

theorem absent_of_bound {values : HashMap RouteLabelV2 UInt16} {count : Nat}
    (bound : ∀ label ∈ values, label.toNat ≤ count) (small : count + 1 < 2 ^ 32) :
    values.lookup (.ofNat (count + 1)) = none := by
  rw [AList.lookup_eq_none]
  intro member
  have last := bound _ member
  rw [UInt32.toNat_ofNat_of_lt' small] at last
  omega

/-- As long as there is room, every new label takes an entry, so the next one is not there. -/
theorem labelReports_fill (count : Nat) (small : count < maxPathMtuConstraints) :
    (after (labelReports (count + 1))).state.activeEpoch = 1 ∧
      (after (labelReports (count + 1))).state.values.size = count + 1 ∧
      ∀ label ∈ (after (labelReports (count + 1))).state.values, label.toNat ≤ count + 1 := by
  induction count with
  | zero => decide +kernel
  | succ count ih =>
    obtain ⟨epoch, size, bound⟩ := ih (by omega)
    have absent := absent_of_bound bound (by simp only [maxPathMtuConstraints] at small; omega)
    rw [after_labelReports, constrain, if_neg (by simp [epoch]), if_neg (by simp [known, absent]),
      if_neg (by grind)]
    refine ⟨rfl, ?_, ?_⟩
    · rw [HashMap.size_insert_of_absent _ absent, size]
    · have isNew := UInt32.toNat_ofNat_of_lt' (show count + 2 < 2 ^ 32 by
        simp only [maxPathMtuConstraints] at small; omega)
      simp only [AList.mem_insert]
      grind

/-- The limit of label 1 is forgotten when label 4097 is reported. -/
theorem full_map_forgets : (reported (labelReports 4097) 1 1).foldl min 1382 = 1200 ∧
      ((after (labelReports 4097)).apply sampleRoute).maximumDatagramSize = 1382 := by
  obtain ⟨epoch, size, bound⟩ := labelReports_fill 4095 (by decide)
  have absent := absent_of_bound bound (by decide)
  refine ⟨by decide +kernel, ?_⟩
  rw [after_labelReports 4096]
  generalize after (labelReports 4096) = filled at *
  have unknown : filled.known ⟨1, .ofNat (4096 + 1), 1200⟩ = false := by
    simp only [known, Nat.reduceAdd, absent, Option.any_none, Bool.and_false]
  rw [constrain, if_neg (by simp [epoch]), unknown, if_neg Bool.false_ne_true,
    if_pos (.inr size.ge)]
  rfl

theorem pmtu_is_reported_minimum_twice :
    ((after [⟨1, 1, 1200⟩, ⟨1, 1, 1300⟩]).apply sampleRoute).maximumDatagramSize.toNat =
      (reported [⟨1, 1, 1200⟩, ⟨1, 1, 1300⟩] 1 1).foldl min 1382 :=
  (pmtu_is_reported_minimum _ (by decide +kernel) sampleRoute (by decide +kernel)).1

end Ironet.Runtime
