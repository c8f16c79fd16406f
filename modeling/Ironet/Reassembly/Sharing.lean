import Ironet.Reassembly.ExactlyOnce
import Ironet.Reassembly.TableInvariant

/-!
# A train among others

A table holds many trains and sheds them under pressure, so a train may have to start over at any
Cell. As long as the table met no other Cells under the key of a train than those that were sent,
it never refuses one of them, whatever it shed in between.
-/
namespace Ironet.Reassembly
open Support Cell Train Session ReassemblyTableV2

def collect (limits : ReassemblyLimits) (cells : List CellV2) : TrainReassembler :=
  cells.foldl (fun self cell => (self.accept cell).2) { limits }

theorem collect_snoc (limits : ReassemblyLimits) (cells : List CellV2) (cell : CellV2) :
    collect limits (cells ++ [cell]) = ((collect limits cells).accept cell).2 := by
  simp [collect]

/-- Under the limits, no Cell of the train is refused after any others of the train. -/
def Admits (train : PacketTrain) (limits : ReassemblyLimits) : Prop :=
  ∀ cells cell, (∀ earlier ∈ cells, earlier ∈ train.cells) → cell ∈ train.cells →
    ∃ output, ((collect limits cells).accept cell).1 = .ok output

variable {context : TrainContext} {records : List TrainRecord} {train : PacketTrain}

/-- The limits a receiver derives from the negotiated ones admit every train that keeps to the
negotiated ones. -/
theorem perTrain_admits {limits : WireLimitsV2}
    (cells : context.maximumCells = limits.maxCellsPerTrain.toNat)
    (data : (records.map fun record => record.data.length).sum ≤ limits.maxTrainSize.toNat)
    (built : buildPacketTrain context records = .ok train) : Admits train (perTrain limits) := by
  obtain ⟨-, groups, layout⟩ := buildPacketTrain_layout built
  have roomy := perTrain_roomy layout cells data
  have bounded : groups.length ≤ (perTrain limits).maximumCells := by
    have count := layout.count
    rwa [cells] at count
  have few : groups.length ≤ 65535 := by
    have small := UInt16.toNat_lt limits.maxCellsPerTrain
    simp only [perTrain] at bounded
    omega
  -- after any Cells of the train, the reassembler is in a described state
  have described : ∀ earlier : List CellV2, (∀ cell ∈ earlier, cell ∈ train.cells) →
      ∃ seen out, Seen context records groups (perTrain limits) seen
        (collect (perTrain limits) earlier) out := by
    intro earlier
    induction earlier using List.reverseRecOn with
    | nil => exact fun _ => ⟨∅, [], Seen.nothing layout _⟩
    | append_singleton front last ih =>
    intro members
    obtain ⟨seen, out, state⟩ := ih fun cell member => members cell (List.mem_append_left _ member)
    obtain ⟨output, next, run, -, after⟩ := accept_seen layout few bounded roomy state
      (members last (List.mem_append_right _ List.mem_cons_self))
    rw [collect_snoc, run]
    exact ⟨_, _, after⟩
  intro earlier cell members member
  obtain ⟨seen, out, state⟩ := described earlier members
  obtain ⟨output, next, run, -⟩ := accept_seen layout few bounded roomy state member
  exact ⟨output, by rw [run]⟩

/-- The key under which the Cells of a train are collected. -/
def contextKey (context : TrainContext) : TrainKey where
  class' := context.class'
  sessionEpoch := context.sessionEpoch
  routeLabel := context.routeLabel
  trainId := context.trainId

theorem trainKey_of_built (built : buildPacketTrain context records = .ok train) {cell : CellV2}
    (member : cell ∈ train.cells) : trainKey cell = contextKey context := by
  obtain ⟨-, groups, layout⟩ := buildPacketTrain_layout built
  obtain ⟨index, inside, rfl⟩ := layout.mem_cells.mp member
  rfl

/-- What the table holds under the key is what a fresh reassembler has after some Cells of the
train. -/
def Consistent (train : PacketTrain) (key : TrainKey) (table : ReassemblyTableV2) : Prop :=
  ∀ timed, Holds table key timed → ∃ cells, (∀ cell ∈ cells, cell ∈ train.cells) ∧
    timed.reassembler = collect table.limits.perTrain cells

section Table

variable {train : PacketTrain} {key : TrainKey} {table after : ReassemblyTableV2} {cell : CellV2}

theorem Consistent.shrunk (consistent : Consistent train key table) (shrunk : Shrunk table after) :
    Consistent train key after := by
  intro timed holds
  rw [shrunk.limits]
  exact consistent timed (shrunk.held key timed holds)

variable {timed : TimedTrain}

theorem HotInstalled.collected (installed : HotInstalled table key timed after)
    (consistent : Consistent train key table) : ∃ cells, (∀ cell ∈ cells, cell ∈ train.cells) ∧
      timed.reassembler = collect table.limits.perTrain cells := by
  rcases installed.origin with held | fresh
  · exact consistent timed held
  · exact ⟨[], by simp, fresh⟩

theorem removeTrain_limits (table : ReassemblyTableV2) (key : TrainKey) :
    (table.removeTrain key).limits = table.limits := by
  unfold removeTrain removeCold
  split
  · split_ifs
    · rfl
    · split <;> rfl
  · split <;> rfl

theorem deliver_consistent {cells : List CellV2} (now : Instant) (expired evicted : Nat)
    (core : TableCore table) (hot : table.hotTrain = some (key, timed))
    (members : ∀ earlier ∈ cells, earlier ∈ train.cells) (member : cell ∈ train.cells)
    (collected : timed.reassembler = collect table.limits.perTrain cells)
    (admits : Admits train table.limits.perTrain) :
    ∃ output after, table.deliver key timed cell now expired evicted = (.ok output, after) ∧
      after.limits = table.limits ∧ Consistent train key after := by
  obtain ⟨output, taken⟩ := admits cells cell members member
  have next : (timed.reassembler.accept cell).2 =
      collect table.limits.perTrain (cells ++ [cell]) := by rw [collected, collect_snoc]
  rw [← collected] at taken
  unfold deliver
  cases outcome : timed.reassembler.accept cell with
  | mk accepted reassembler =>
  rw [outcome] at taken next
  dsimp only at taken next ⊢
  rw [taken]
  refine ⟨_, _, rfl, ?_, ?_⟩
  · split
    · exact removeTrain_limits _ key
    · rfl
  -- a complete train is gone; otherwise it is hot and nowhere else
  split
  · intro held holds
    have absent : ∀ held, ¬ Holds (removeTrain { table with
        hotTrain := some (key, { reassembler, lastUpdate := now })
        bufferedBytes := table.bufferedBytes - timed.bytes + reassembler.bufferedBytes } key)
        key held := by
      rintro held (slot | found)
      · simp [removeTrain] at slot
      · have unmapped := core.hotNotInMap key timed hot
        simp [removeTrain, unmapped] at found
    exact absurd holds (absent held)
  rintro held (slot | found)
  · obtain rfl := (Prod.mk.inj (Option.some.inj slot)).2
    refine ⟨cells ++ [cell], ?_, next⟩
    intro earlier listed
    rcases List.mem_append.mp listed with old | new
    · exact members earlier old
    · rwa [List.mem_singleton.mp new]
  · have unmapped := core.hotNotInMap key timed hot
    rw [show table.trains.lookup key = some held from found] at unmapped
    cases unmapped

theorem acceptAt_consistent (order : TrainOrder) (now : Instant)
    (admits : Admits train table.limits.perTrain) (valid : TableInvariant table)
    (consistent : Consistent train (trainKey cell) table) (member : cell ∈ train.cells)
    (epoch : cell.sessionEpoch = table.limits.sessionEpoch)
    (small : bodyBytes cell.body ≤ table.limits.maximumBufferedBytes) :
    ∃ output after, table.acceptAt order cell now = (.ok output, after) ∧
      after.limits = table.limits ∧ Consistent train (trainKey cell) after := by
  rcases acceptAt_cases order cell now valid with
    ⟨foreign, -⟩ | ⟨relieved, -, shrunk, outcome⟩
  · exact absurd epoch foreign
  have kept := consistent.shrunk shrunk
  rcases outcome with ⟨output, run⟩ | ⟨large, -⟩ |
    ⟨timed, installed, expired, evicted, hot, -, -, run⟩
  · exact ⟨output, relieved, run, shrunk.limits, kept⟩
  · exact absurd small (Nat.not_le.mpr large)
  obtain ⟨cells, members, collected⟩ := hot.collected kept
  have limits : installed.limits = table.limits := hot.limits.trans shrunk.limits
  rw [shrunk.limits, ← limits] at collected
  rw [run, ← limits]
  exact deliver_consistent now expired evicted hot.core hot.hot members member collected
    (limits ▸ admits)

end Table
end Ironet.Reassembly
