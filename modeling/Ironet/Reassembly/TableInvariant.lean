import Ironet.Reassembly.Budget

/-!
# The state invariant of the reassembly table

The hot slot, the map, the tombstones and the cached byte counter are changed by pressure
eviction, capacity eviction, expiry, completion and failed Cells. Whatever the calls are and
whatever they return, the counter is the exact sum over the held trains and within the budget, no
train is held twice, and no held train is a tombstone.
-/
namespace Ironet.Reassembly
open Support Cell HashMap ReassemblyTableV2 TimedTrain Option Nat

variable (table : ReassemblyTableV2)

/-- The train is held under the key, in the hot slot or in the map. -/
def Holds (key : TrainKey) (train : TimedTrain) : Prop :=
  table.hotTrain = some (key, train) ∨ table.trains.lookup key = some train

def hotBytes (hot : Option (TrainKey × TimedTrain)) : Nat := hot.elim 0 fun entry => entry.2.bytes

def heldBytes : Nat :=
  table.trains.weight bytes + hotBytes table.hotTrain

/-- The part of the invariant that does not mention the byte budget. -/
structure TableCore (table : ReassemblyTableV2) : Prop where
  limits : table.limits.validate = .ok ()
  balanced : ∀ key train, Holds table key train → train.reassembler.Balanced
  bytes : table.bufferedBytes = heldBytes table
  hotNotInMap : ∀ key train, table.hotTrain = some (key, train) → table.trains.lookup key = none
  heldNotCompleted : ∀ key train, Holds table key train → table.completed.lookup key = none
  completedListed : HashMap.Lists table.completedOrder table.completed
  completedLimit : table.completed.size ≤ table.limits.maximumActiveTrains

structure TableInvariant (table : ReassemblyTableV2) : Prop extends TableCore table where
  budget : table.bufferedBytes ≤ table.limits.maximumBufferedBytes

/-- Shedding trains and tombstones: nothing new is held, and no limit changes. -/
structure Shrunk (before after : ReassemblyTableV2) : Prop where
  limits : after.limits = before.limits
  held : ∀ key train, Holds after key train → Holds before key train
  completed : ∀ key, before.completed.lookup key = none → after.completed.lookup key = none
  bytes : after.bufferedBytes ≤ before.bufferedBytes
  active : after.activeTrains ≤ before.activeTrains

theorem Shrunk.refl : Shrunk table table :=
  ⟨rfl, fun _ _ held => held, fun _ absent => absent, le_refl _, le_refl _⟩

theorem Shrunk.trans {first second third : ReassemblyTableV2} (before : Shrunk first second)
    (after : Shrunk second third) : Shrunk first third where
  limits := after.limits.trans before.limits
  held key train holds := before.held key train (after.held key train holds)
  completed key absent := after.completed key (before.completed key absent)
  bytes := after.bytes.trans before.bytes
  active := after.active.trans before.active

theorem validate_maximumActiveTrains {limits : ReassemblyTableLimits}
    (valid : limits.validate = .ok ()) :
    1 ≤ limits.maximumActiveTrains ∧ limits.perTrain.validate = .ok () := by
  simp only [ReassemblyTableLimits.validate, do_eq_ok] at valid
  exact ⟨valid.2.1.1, valid.2.2.2.2⟩

/-! ### Removing a train -/

section Remove

variable {table : ReassemblyTableV2} {key : TrainKey} {train : TimedTrain}

theorem removeTrain_hot (hot : table.hotTrain = some (key, train)) : table.removeTrain key =
      { table with hotTrain := none, bufferedBytes := table.bufferedBytes - train.bytes } := by
  simp [removeTrain, hot]

theorem removeTrain_cold (other : ∀ train, table.hotTrain ≠ some (key, train))
    (found : table.trains.lookup key = some train) : table.removeTrain key = { table with
      trains := table.trains.erase key, bufferedBytes := table.bufferedBytes - train.bytes } := by
  unfold removeTrain
  cases hot : table.hotTrain with
  | none => simp [removeCold, found, hot]
  | some entry =>
  obtain ⟨hotKey, hotTrain⟩ := entry
  have different : hotKey ≠ key := by
    rintro rfl
    exact other hotTrain hot
  simp [different, removeCold, found, hot]

theorem removeTrain_absent (absent : ∀ train, ¬ Holds table key train) :
    table.removeTrain key = table := by
  have cold : table.trains.lookup key = none := by
    rw [eq_none_iff_forall_not_mem]
    exact fun train found => absent train (.inr found)
  unfold removeTrain
  cases hot : table.hotTrain with
  | none => simp [removeCold, cold]
  | some entry =>
  obtain ⟨hotKey, hotTrain⟩ := entry
  have different : hotKey ≠ key := by
    rintro rfl
    exact absent hotTrain (.inl hot)
  simp [different, removeCold, cold]

theorem removeTrain_held (core : TableCore table) (holds : Holds table key train) :
    TableCore (table.removeTrain key) ∧ Shrunk table (table.removeTrain key) ∧
      (table.removeTrain key).bufferedBytes + train.bytes = table.bufferedBytes ∧
      (table.removeTrain key).activeTrains + 1 = table.activeTrains ∧
      ∀ other, ¬ Holds (table.removeTrain key) key other := by
  have total := core.bytes
  unfold heldBytes at total
  by_cases isHot : ∃ hot, table.hotTrain = some (key, hot)
  · obtain ⟨hot, isHot⟩ := isHot
    have absent := core.hotNotInMap key hot isHot
    obtain rfl : train = hot := by
      rcases holds with sameSlot | found
      · rw [isHot] at sameSlot
        exact (Prod.mk.inj (some.inj sameSlot)).2.symm
      · rw [absent] at found
        cases found
    rw [removeTrain_hot isHot]
    simp only [isHot, hotBytes, elim_some] at total
    have kept : ∀ other train', Holds { table with
        hotTrain := none, bufferedBytes := table.bufferedBytes - train.bytes } other train' →
        Holds table other train' := by
      rintro other train' (slot | found)
      · cases slot
      · exact .inr found
    refine ⟨?_, ⟨rfl, kept, fun _ gone => gone, sub_le _ _, ?_⟩, ?_, ?_, ?_⟩
    · refine { core with
        balanced := fun other train' held => core.balanced other train' (kept other train' held)
        heldNotCompleted := fun other train' held =>
          core.heldNotCompleted other train' (kept other train' held)
        bytes := ?_, hotNotInMap := fun _ _ slot => by cases slot }
      simp only [heldBytes, hotBytes, elim_none]
      omega
    · simp [activeTrains]
    · dsimp only
      omega
    · simp [activeTrains, isHot]
    · rintro other (slot | found)
      · cases slot
      · rw [absent] at found
        cases found
  have other : ∀ train, table.hotTrain ≠ some (key, train) := fun train hot => isHot ⟨train, hot⟩
  have found : table.trains.lookup key = some train := holds.resolve_left (other train)
  have split := weight_of_lookup bytes found
  have sizes := size_of_lookup found
  rw [removeTrain_cold other found]
  have kept : ∀ otherKey train', Holds { table with
      trains := table.trains.erase key
      bufferedBytes := table.bufferedBytes - train.bytes } otherKey train' →
      Holds table otherKey train' := by
    rintro otherKey train' (slot | found')
    · exact .inl slot
    · exact .inr (lookup_erase_eq_some.mp found').2
  refine ⟨?_, ⟨rfl, kept, fun _ gone => gone, sub_le _ _, ?_⟩, ?_, ?_, ?_⟩
  · refine { core with
      balanced := fun other train' held => core.balanced other train' (kept other train' held)
      heldNotCompleted := fun other train' held =>
        core.heldNotCompleted other train' (kept other train' held)
      bytes := ?_, hotNotInMap := ?_ }
    · simp only [heldBytes]
      omega
    · exact fun hotKey hot slot => lookup_erase_of_absent _ (core.hotNotInMap hotKey hot slot)
  · simp only [activeTrains]
    omega
  · dsimp only
    omega
  · simp only [activeTrains]
    omega
  · rintro train' (slot | found')
    · exact other train' slot
    · rw [AList.lookup_erase] at found'
      cases found'

theorem removeTrain_core (core : TableCore table) (key : TrainKey) :
    TableCore (table.removeTrain key) ∧ Shrunk table (table.removeTrain key) ∧
      ∀ train, ¬ Holds (table.removeTrain key) key train := by
  by_cases held : ∃ train, Holds table key train
  · obtain ⟨train, holds⟩ := held
    obtain ⟨after, shrunk, -, -, gone⟩ := removeTrain_held core holds
    exact ⟨after, shrunk, gone⟩
  · have absent : ∀ train, ¬ Holds table key train := fun train holds => held ⟨train, holds⟩
    rw [removeTrain_absent absent]
    exact ⟨core, .refl table, absent⟩

end Remove

/-! ### Shedding trains under pressure -/

section
variable (table : ReassemblyTableV2)

theorem oldestTrainKey_held (order : TrainOrder) (key : TrainKey)
    (oldest : table.oldestTrainKey order = some key) : ∃ train, Holds table key train := by
  have fromMap : ∀ entry : Sigma fun _ : TrainKey => TimedTrain,
      (order.arrange table.trains.entries).argmin (fun entry => entry.2.lastUpdate) = some entry →
        Holds table entry.1 entry.2 := by
    intro entry least
    have member := (order.perm table.trains.entries).mem_iff.mp (List.argmin_mem least)
    exact .inr (lookup_eq_some_iff.mpr member)
  unfold oldestTrainKey at oldest
  dsimp only at oldest
  split at oldest
  · rename_i hot cold slot least
    have coldHeld := fromMap cold least
    split at oldest
    · obtain rfl := some.inj oldest
      exact ⟨hot.2, .inl slot⟩
    · obtain rfl := some.inj oldest
      exact ⟨cold.2, coldHeld⟩
  · rename_i hot slot least
    obtain rfl := some.inj oldest
    exact ⟨hot.2, .inl slot⟩
  · rename_i cold slot least
    obtain rfl := some.inj oldest
    exact ⟨cold.2, fromMap cold least⟩
  · cases oldest

theorem oldestTrainKey_none (order : TrainOrder) (nothing : table.oldestTrainKey order = none) :
    table.activeTrains = 0 := by
  unfold oldestTrainKey at nothing
  dsimp only at nothing
  split at nothing
  · cases nothing
  · cases nothing
  · cases nothing
  rename_i slot least
  have emptyOrder := List.argmin_eq_none.mp least
  have empty : table.trains.entries = [] :=
    List.Perm.nil_eq (emptyOrder ▸ order.perm table.trains.entries) |>.symm
  simp [activeTrains, HashMap.size, empty, slot]

theorem bufferedBytes_of_idle (core : TableCore table) (idle : table.activeTrains = 0) :
    table.bufferedBytes = 0 := by
  rw [core.bytes]
  unfold activeTrains at idle
  cases hot : table.hotTrain with
  | some entry => simp [hot] at idle
  | none =>
  have empty : table.trains.entries = [] := by
    apply List.eq_nil_of_length_eq_zero
    unfold HashMap.size at idle
    omega
  simp [heldBytes, HashMap.weight, empty, hotBytes, hot]

end

variable (order : TrainOrder)

/-- The shedding loop ends with room for the incoming bytes or with an empty table. -/
theorem shedTrains_core (incoming fuel : Nat) (table : ReassemblyTableV2) (core : TableCore table)
    (enough : table.activeTrains ≤ fuel) : TableCore (shedTrains order incoming fuel table).2 ∧
      Shrunk table (shedTrains order incoming fuel table).2 ∧
      ((shedTrains order incoming fuel table).2.bufferedBytes + incoming ≤
          table.limits.maximumBufferedBytes ∨
        (shedTrains order incoming fuel table).2.bufferedBytes = 0) := by
  induction fuel generalizing table with
  | zero =>
    have idle := bufferedBytes_of_idle table core (le_zero.mp enough)
    exact ⟨core, .refl table, .inr idle⟩
  | succ fuel ih =>
  unfold shedTrains
  split
  · cases oldest : table.oldestTrainKey order with
    | none =>
      have idle := bufferedBytes_of_idle table core (oldestTrainKey_none table order oldest)
      exact ⟨core, .refl table, .inr idle⟩
    | some key =>
      obtain ⟨train, holds⟩ := oldestTrainKey_held table order key oldest
      obtain ⟨after, shrunk, -, fewer, -⟩ := removeTrain_held core holds
      obtain ⟨final, rest, room⟩ := ih (table.removeTrain key) after (by omega)
      rw [shrunk.limits] at room
      exact ⟨final, shrunk.trans rest, room⟩
  · rename_i roomy
    exact ⟨core, .refl table, .inl (Nat.le_of_not_lt roomy)⟩

/-! ### Tombstones -/

variable {key : TrainKey}

variable (now : Instant)

theorem expireCompleted_trimmed (timeout : Duration) (queue : List TrainKey)
    (completed : HashMap TrainKey Instant) (listed : HashMap.Lists queue completed) :
    HashMap.Trimmed completed (expireCompleted now timeout queue completed) := by
  induction queue generalizing completed with
  | nil => exact listed.trimmed
  | cons key rest ih =>
    unfold expireCompleted
    split
    · exact .pop listed (ih _ (listed.erase (List.Perm.refl _)))
    · exact listed.trimmed

/-! ### Expiry -/

theorem expireHot_spec {hot left : Option (TrainKey × TimedTrain)} {now : Instant}
    {timeout : Duration} {bytes expired : Nat}
    (run : expireHot hot now timeout = (bytes, expired, left)) :
    hotBytes hot = bytes + hotBytes left ∧
      (if hot.isSome then 1 else 0) = expired + (if left.isSome then 1 else 0) ∧
      ∀ entry, left = some entry → hot = some entry := by
  unfold expireHot at run
  cases hot with
  | none =>
    cases run
    simp [hotBytes]
  | some entry =>
  dsimp only at run
  split at run
  all_goals
    cases run
    simp [hotBytes]

theorem expire_core (table : ReassemblyTableV2) (now : Instant) (core : TableCore table) :
    TableCore (table.expire now).2 ∧ Shrunk table (table.expire now).2 := by
  have coldBytes := weight_retain bytes
    (fun _ train => train.stale now table.limits.trainTimeout) table.trains
  have coldSize := size_retain_le
    (fun _ train => !train.stale now table.limits.trainTimeout) table.trains
  obtain ⟨⟨bytes, expired, left⟩, run⟩ : ∃ outcome, expireHot table.hotTrain now
      table.limits.trainTimeout = outcome := ⟨_, rfl⟩
  have tombs := expireCompleted_trimmed now table.limits.trainTimeout table.completedOrder
    table.completed core.completedListed
  have total := core.bytes
  unfold heldBytes at total
  obtain ⟨hotReleased, hotCount, hotKept⟩ :=
    expireHot_spec run
  simp only [expire, run]
  have kept : ∀ key train, (left = some (key, train) ∨ (table.trains.retain
      fun _ train => !train.stale now table.limits.trainTimeout).lookup key = some train) →
      Holds table key train := by
    rintro key train (slot | found)
    · exact .inl (hotKept _ slot)
    · exact .inr (lookup_retain_eq_some.mp found).1
  refine ⟨⟨core.limits, ?_, ?_, ?_, ?_, tombs.listed, tombs.size.trans core.completedLimit⟩,
    ⟨rfl, kept, tombs.absent, sub_le _ _, ?_⟩⟩
  · exact fun key train held => core.balanced key train (kept key train held)
  · simp only [heldBytes]
    omega
  · intro key train slot
    exact lookup_retain_of_absent _ (core.hotNotInMap key train (hotKept _ slot))
  · exact fun key train held =>
      tombs.absent key (core.heldNotCompleted key train (kept key train held))
  · simp only [activeTrains]
    omega

variable {table : ReassemblyTableV2}

theorem expireIfDue_core (core : TableCore table) :
    TableCore (table.expireIfDue now).2 ∧ Shrunk table (table.expireIfDue now).2 := by
  unfold expireIfDue
  split
  · exact expire_core table now core
  · exact ⟨core, .refl table⟩

/-! ### The hot slot -/

/-- Room for one more train, unless the train is in the map already. Nothing is shed for a train
that is held. -/
theorem makeRoom_core (table : ReassemblyTableV2) (order : TrainOrder) (key : TrainKey)
    (now : Instant) (core : TableCore table) :
    TableCore (table.makeRoom order key now).2 ∧ Shrunk table (table.makeRoom order key now).2 ∧
      ((table.trains.lookup key).isSome → (table.makeRoom order key now).2 = table) ∧
      ((table.trains.lookup key).isNone → (table.makeRoom order key now).2.activeTrains + 1 ≤
        max table.limits.maximumActiveTrains table.activeTrains) := by
  unfold makeRoom
  by_cases crowded : table.full key = true
  · -- the sweep runs first; what it leaves may still be too much
    have coldAbsent : table.trains.lookup key = none := by
      simp only [full, Bool.and_eq_true, isNone_iff_eq_none] at crowded
      exact crowded.2
    have notHeld : ¬ (table.trains.lookup key).isSome = true := by simp [coldAbsent]
    obtain ⟨swept, shrunk⟩ := expire_core table now core
    rw [if_pos crowded]
    dsimp only
    split
    · rename_i still
      have full : table.limits.maximumActiveTrains ≤ (table.expire now).2.activeTrains := by
        simp only [full, Bool.and_eq_true, decide_eq_true_eq] at still
        exact shrunk.limits ▸ still.1
      have limit := (validate_maximumActiveTrains core.limits).1
      cases oldest : (table.expire now).2.oldestTrainKey order with
      | none =>
        have idle := oldestTrainKey_none _ order oldest
        omega
      | some victim =>
        obtain ⟨train, holds⟩ := oldestTrainKey_held _ order victim oldest
        obtain ⟨after, less, -, fewer, -⟩ := removeTrain_held swept holds
        have active := shrunk.active
        exact ⟨after, shrunk.trans less, fun held => absurd held notHeld,
          fun _ => by dsimp only; omega⟩
    rename_i roomy
    refine ⟨swept, shrunk, fun held => absurd held notHeld, fun _ => ?_⟩
    by_cases small : (table.expire now).2.activeTrains < table.limits.maximumActiveTrains
    · dsimp only
      omega
    -- the sweep keeps the map free of `key`, so only the count can have changed
    exfalso
    apply roomy
    simp only [full, Bool.and_eq_true, decide_eq_true_eq, isNone_iff_eq_none]
    exact ⟨shrunk.limits ▸ Nat.le_of_not_lt small, lookup_retain_of_absent _ coldAbsent⟩
  rw [if_neg crowded]
  dsimp only
  rw [if_neg crowded]
  refine ⟨core, .refl table, fun _ => rfl, fun absent => ?_⟩
  simp only [full, Bool.and_eq_true, decide_eq_true_eq, not_and] at crowded
  by_cases small : table.limits.maximumActiveTrains ≤ table.activeTrains
  · exact absurd absent (crowded small)
  · dsimp only
    omega

/-- The train of `key` is hot and nothing else changed but the slot it came from. -/
structure HotInstalled (before : ReassemblyTableV2) (key : TrainKey) (train : TimedTrain)
    (after : ReassemblyTableV2) : Prop where
  core : TableCore after
  hot : after.hotTrain = some (key, train)
  limits : after.limits = before.limits
  bytes : after.bufferedBytes ≤ before.bufferedBytes
  absent : after.completed.lookup key = none
  same : ∀ held, Holds before key held → train = held
  origin : Holds before key train ∨ train.reassembler = { limits := before.limits.perTrain }

theorem taken_spec (core : TableCore table) :
    ∃ train : TimedTrain, (table.trains.lookup key).getD
        { reassembler := { limits := table.limits.perTrain }, lastUpdate := now } = train ∧
      table.trains.weight bytes = train.bytes + HashMap.weight bytes (table.trains.erase key) ∧
      table.trains.size + (if (table.trains.lookup key).isSome then 0 else 1) =
        HashMap.size (table.trains.erase key) + 1 ∧
      train.reassembler.Balanced ∧
      (Holds table key train ∨ train.reassembler = { limits := table.limits.perTrain }) := by
  cases found : table.trains.lookup key with
  | some held =>
    exact ⟨held, rfl, weight_of_lookup _ found, by simp [size_of_lookup found],
      core.balanced key held (.inr found), .inl (.inr found)⟩
  | none =>
    refine ⟨_, rfl, ?_, ?_, rfl, .inr rfl⟩
    · simp [weight_erase_of_absent _ found, bytes]
    · simp [size_eq_weight, weight_erase_of_absent _ found]

/-- The previous hot train moves into the map, and nothing else does. -/
theorem installHot_eq {train : TimedTrain} (core : TableCore table)
    (notHot : ∀ train, table.hotTrain ≠ some (key, train))
    (taken : (table.trains.lookup key).getD
      { reassembler := { limits := table.limits.perTrain }, lastUpdate := now } = train) :
    ∃ trains, table.installHot key now =
        (.ok train, { table with trains, hotTrain := some (key, train) }) ∧
      trains.lookup key = none ∧
      (∀ other held, trains.lookup other = some held → Holds table other held) ∧
      trains.weight bytes =
        HashMap.weight bytes (table.trains.erase key) + hotBytes table.hotTrain ∧
      trains.size = HashMap.size (table.trains.erase key) + if table.hotTrain.isSome then 1
        else 0 := by
  have made : TrainReassembler.new table.limits.perTrain =
      .ok { limits := table.limits.perTrain } := by
    simp only [TrainReassembler.new, (validate_maximumActiveTrains core.limits).2, ok_bind]
  cases hot : table.hotTrain with
  | none =>
    exact ⟨_, by simp only [installHot, made, hot, taken], AList.lookup_erase _ _,
      fun _ _ found => .inr (lookup_erase_eq_some.mp found).2, rfl, rfl⟩
  | some entry =>
  obtain ⟨previousKey, previous⟩ := entry
  have different : previousKey ≠ key := by
    rintro rfl
    exact notHot previous hot
  have unmapped : (table.trains.erase key).lookup previousKey = none := by
    rw [AList.lookup_erase_ne different]
    exact core.hotNotInMap previousKey previous hot
  refine ⟨(table.trains.erase key).insert previousKey previous,
    by simp only [installHot, made, hot, taken], ?_, ?_, ?_, size_insert_of_absent _ unmapped⟩
  · rw [AList.lookup_insert_ne (Ne.symm different)]
    exact AList.lookup_erase key table.trains
  · intro other held found
    rcases lookup_insert_eq_some.mp found with ⟨rfl, rfl⟩ | ⟨_, kept⟩
    · exact .inl hot
    · exact .inr (lookup_erase_eq_some.mp kept).2
  · rw [weight_insert_of_absent _ _ unmapped, add_comm]
    rfl

theorem installHot_core (table : ReassemblyTableV2) (key : TrainKey) (now : Instant)
    (core : TableCore table) (absent : table.completed.lookup key = none)
    (notHot : ∀ train, table.hotTrain ≠ some (key, train)) :
    ∃ train after, table.installHot key now = (.ok train, after) ∧
      HotInstalled table key train after ∧
      after.activeTrains = table.activeTrains +
        if (table.trains.lookup key).isSome then 0 else 1 := by
  obtain ⟨train, taken, moved, sizes, balanced, origin⟩ := taken_spec now core
  obtain ⟨trains, run, unmapped, old, weight, size⟩ := installHot_eq now core notHot taken
  have same : ∀ held, Holds table key held → train = held := by
    rintro held (slot | found)
    · exact absurd slot (notHot held)
    · rw [← taken, found, getD_some]
  have total := core.bytes
  refine ⟨train, _, run, ⟨?_, rfl, rfl, le_refl _, absent, same, origin⟩, ?_⟩
  · refine { core with balanced := ?_, bytes := ?_, hotNotInMap := ?_, heldNotCompleted := ?_ }
    · rintro other held (slot | found)
      · cases slot
        exact balanced
      · exact core.balanced other held (old other held found)
    · simp only [heldBytes, hotBytes, elim_some] at total weight ⊢
      omega
    · rintro other held slot
      cases slot
      exact unmapped
    · rintro other held (slot | found)
      · cases slot
        exact absent
      · exact core.heldNotCompleted other held (old other held found)
  · simp only [activeTrains, isSome_some, if_true]
    omega

theorem hotFor_eq_some (table : ReassemblyTableV2) (key : TrainKey) (train : TimedTrain) :
    table.hotFor key = some train ↔ table.hotTrain = some (key, train) := by
  unfold hotFor
  cases table.hotTrain with
  | none => simp
  | some entry =>
    obtain ⟨hotKey, hot⟩ := entry
    by_cases same : hotKey = key <;> simp [Option.filter, same]

theorem obtainHot_core (table : ReassemblyTableV2) (order : TrainOrder) (key : TrainKey)
    (now : Instant) (core : TableCore table) (absent : table.completed.lookup key = none) :
    ∃ counts train after, table.obtainHot order key now = (counts, .ok train, after) ∧
      HotInstalled table key train after ∧
      after.activeTrains ≤ max table.limits.maximumActiveTrains table.activeTrains := by
  unfold obtainHot
  cases slot : table.hotFor key with
  | some train =>
    rw [hotFor_eq_some] at slot
    refine ⟨(0, 0), train, table, rfl,
      ⟨core, slot, rfl, le_refl _, absent, ?_, .inl (.inl slot)⟩, by omega⟩
    rintro held (sameSlot | found)
    · rw [slot] at sameSlot
      exact (Prod.mk.inj (some.inj sameSlot)).2
    · rw [core.hotNotInMap key train slot] at found
      cases found
  | none =>
  have notHot : ∀ train, table.hotTrain ≠ some (key, train) := by
    intro train hot
    rw [(hotFor_eq_some table key train).mpr hot] at slot
    cases slot
  obtain ⟨roomy, shrunk, heldUnchanged, room⟩ := makeRoom_core table order key now core
  cases makes : table.makeRoom order key now with
  | mk counts middle =>
  rw [makes] at roomy shrunk heldUnchanged room
  have stillNotHot : ∀ train, middle.hotTrain ≠ some (key, train) := by
    intro train hot
    rcases shrunk.held key train (.inl hot) with sameSlot | found
    · exact notHot train sameSlot
    · have unchanged : middle = table := heldUnchanged (by simp [found])
      exact notHot train (unchanged ▸ hot)
  obtain ⟨train, after, installs, installed, active⟩ :=
    installHot_core middle key now roomy (shrunk.completed key absent) stillNotHot
  refine ⟨counts, train, after, by simp only [installs],
    { installed with
      limits := installed.limits.trans shrunk.limits
      bytes := installed.bytes.trans shrunk.bytes
      same := ?_
      origin := ?_ }, ?_⟩
  · intro held holds
    have found : table.trains.lookup key = some held := holds.resolve_left (notHot held)
    have unchanged : middle = table := heldUnchanged (by simp [found])
    exact installed.same held (unchanged ▸ holds)
  · exact installed.origin.imp (shrunk.held key train) fun fresh => by
      rw [fresh, shrunk.limits]
  cases found : table.trains.lookup key with
  | some held =>
    have unchanged : middle = table := heldUnchanged (by simp [found])
    rw [unchanged, found, isSome_some, if_pos rfl] at active
    omega
  | none =>
    have one : middle.activeTrains + 1 ≤
        max table.limits.maximumActiveTrains table.activeTrains := room (by simp [found])
    split at active <;> omega

/-! ### Delivering a Cell -/

theorem recordCompletion_core (core : TableCore table)
    (absent : table.completed.lookup key = none) (gone : ∀ train, ¬ Holds table key train) :
    TableCore (table.recordCompletion key now) := by
  obtain ⟨trimmed, small⟩ := HashMap.dropOldest_trimmed table.limits.maximumActiveTrains
    (core.completedListed.insert_fresh absent now)
  refine { core with
    completedListed := trimmed.listed, completedLimit := small, heldNotCompleted := ?_ }
  intro other train holds
  have different : other ≠ key := by
    rintro rfl
    exact gone train holds
  refine trimmed.absent other ?_
  rw [AList.lookup_insert_ne different]
  exact core.heldNotCompleted other train holds

theorem deliver_invariant {train : TimedTrain} {cell : DecodedCell} (expired evicted : Nat)
    (core : TableCore table) (hot : table.hotTrain = some (key, train))
    (absent : table.completed.lookup key = none)
    (room : table.bufferedBytes + (if train.reassembler.cellSeen cell.cell.cellSequence then 0
      else bodyBytes cell.cell.body) ≤ table.limits.maximumBufferedBytes) :
    TableInvariant (table.deliver key train cell.cell now expired evicted).2 ∧
      (table.deliver key train cell.cell now expired evicted).2.activeTrains ≤
        table.activeTrains := by
  have charged := accept_charged train.reassembler cell (core.balanced key train (.inl hot))
  have total := core.bytes
  have grown := charged.bytes
  unfold deliver
  cases outcome : train.reassembler.accept cell.cell with
  | mk accepted reassembler =>
  rw [outcome] at charged grown
  have atMost : reassembler.bufferedBytes ≤ train.bytes +
      (if train.reassembler.cellSeen cell.cell.cellSequence then 0
        else bodyBytes cell.cell.body) := grown
  simp only [heldBytes, hot, hotBytes, elim_some] at total
  -- the table with the updated hot train, before a failed or complete train is removed
  obtain ⟨updated, updatedEq⟩ : ∃ updated, updated = { table with
      hotTrain := some (key, { reassembler, lastUpdate := now })
      bufferedBytes := table.bufferedBytes - train.bytes + reassembler.bufferedBytes } := ⟨_, rfl⟩
  have updatedCore : TableCore updated := by
    rw [updatedEq]
    refine { core with balanced := ?_, bytes := ?_, hotNotInMap := ?_, heldNotCompleted := ?_ }
    · rintro other held (slot | found)
      · cases slot
        exact charged.balanced
      · exact core.balanced other held (.inr found)
    · simp only [heldBytes, hotBytes, elim_some, bytes] at total ⊢
      omega
    · rintro other held slot
      cases slot
      exact core.hotNotInMap key train hot
    · rintro other held (slot | found)
      · cases slot
        exact absent
      · exact core.heldNotCompleted other held (.inr found)
  have updatedLimits : updated.limits = table.limits := by rw [updatedEq]
  have updatedBudget : updated.bufferedBytes ≤ table.limits.maximumBufferedBytes := by
    rw [updatedEq]
    simp only
    omega
  have updatedActive : updated.activeTrains = table.activeTrains := by
    simp [updatedEq, activeTrains, hot]
  have updatedAbsent : updated.completed.lookup key = none := by rw [updatedEq]; exact absent
  obtain ⟨removedCore, shrunk, gone⟩ := removeTrain_core updatedCore key
  have removedBudget : (updated.removeTrain key).bufferedBytes ≤
      table.limits.maximumBufferedBytes := shrunk.bytes.trans updatedBudget
  dsimp only
  rw [← updatedEq]
  cases accepted with
  | error message =>
    exact ⟨⟨removedCore, by rwa [shrunk.limits, updatedLimits]⟩,
      updatedActive ▸ shrunk.active⟩
  | ok output =>
  dsimp only
  split
  · have completedCore := recordCompletion_core now removedCore
      (shrunk.completed key updatedAbsent) gone
    refine ⟨⟨completedCore, ?_⟩, updatedActive ▸ shrunk.active⟩
    have sameLimits : ((updated.removeTrain key).recordCompletion key now).limits =
        table.limits := shrunk.limits.trans updatedLimits
    rw [sameLimits]
    exact removedBudget
  · exact ⟨⟨updatedCore, updatedLimits ▸ updatedBudget⟩, updatedActive.le⟩

/-! ### Accepting a Cell -/

theorem cellSeen_held {sequence : UInt16} (seen : table.cellSeen key sequence = true) :
    ∃ train, Holds table key train ∧ train.reassembler.cellSeen sequence = true := by
  obtain ⟨train, held, marked⟩ := (any_eq_true _ _).mp seen
  refine ⟨train, ?_, marked⟩
  unfold ReassemblyTableV2.held at held
  cases hot : table.hotTrain with
  | none =>
    rw [hot] at held
    exact .inr held
  | some entry =>
  rw [hot] at held
  dsimp only at held
  split at held
  · rename_i same
    cases held
    exact .inl (same ▸ hot)
  · exact .inr held

theorem shedTrains_roomy {incoming : Nat} (fuel : Nat)
    (room : table.bufferedBytes + incoming ≤ table.limits.maximumBufferedBytes) :
    shedTrains order incoming fuel table = (0, table) := by
  cases fuel with
  | zero => rfl
  | succ fuel =>
    unfold shedTrains
    rw [if_neg (not_lt.mpr room)]

/-- All that accepting a Cell can do: refuse another epoch; shed trains and then find a tombstone or
a Cell that exceeds the whole budget; or shed trains and hand the Cell to the hot train, with room
for what the Cell can add. -/
theorem acceptAt_cases (cell : CellV2) (now : Instant) (valid : TableInvariant table) :
    (cell.sessionEpoch ≠ table.limits.sessionEpoch ∧ ∃ message,
      table.acceptAt order cell now = (.error message, table)) ∨
    ∃ relieved, TableInvariant relieved ∧ Shrunk table relieved ∧
      ((∃ output, table.acceptAt order cell now = (.ok output, relieved)) ∨
        (table.limits.maximumBufferedBytes < bodyBytes cell.body ∧ ∃ message,
          table.acceptAt order cell now = (.error message, relieved)) ∨
        ∃ train after expired evicted, HotInstalled relieved (trainKey cell) train after ∧
          after.activeTrains ≤ max table.limits.maximumActiveTrains table.activeTrains ∧
          after.bufferedBytes + (if train.reassembler.cellSeen cell.cellSequence then 0
            else bodyBytes cell.body) ≤ after.limits.maximumBufferedBytes ∧
          table.acceptAt order cell now =
            after.deliver (trainKey cell) train cell now expired evicted) := by
  unfold acceptAt
  split
  · rename_i foreign
    exact .inl ⟨foreign, _, rfl⟩
  right
  obtain ⟨sweptCore, swept⟩ := expireIfDue_core now valid.toTableCore
  generalize table.expireIfDue now = outcome at sweptCore swept ⊢
  obtain ⟨expired, middle⟩ := outcome
  dsimp only at sweptCore swept ⊢
  have sweptBudget : middle.bufferedBytes ≤ middle.limits.maximumBufferedBytes := by
    rw [swept.limits]
    exact swept.bytes.trans valid.budget
  have sweptActive := swept.active
  split
  · exact ⟨middle, ⟨sweptCore, sweptBudget⟩, swept, .inl ⟨_, rfl⟩⟩
  rename_i live
  -- a hot train is not a tombstone, so the key is free of a tombstone either way
  have absent : middle.completed.lookup (trainKey cell) = none := by
    simp only [Bool.and_eq_true, Bool.not_eq_true', not_and, Bool.not_eq_true,
      isSome_eq_false_iff, isNone_iff_eq_none] at live
    cases slot : middle.hotFor (trainKey cell) with
    | some train =>
      exact sweptCore.heldNotCompleted _ train (.inl ((hotFor_eq_some _ _ _).mp slot))
    | none =>
    refine live ?_
    unfold hotMatches
    unfold hotFor at slot
    cases hot : middle.hotTrain with
    | none => rfl
    | some entry =>
      rw [hot] at slot
      simpa [Option.filter] using slot
  obtain ⟨incoming, incomingEq⟩ : ∃ incoming, incoming =
      if middle.cellSeen (trainKey cell) cell.cellSequence then 0
      else bodyBytes cell.body := ⟨_, rfl⟩
  rw [← incomingEq]
  obtain ⟨shedCore, shed, shedRoom⟩ := shedTrains_core order incoming middle.activeTrains middle
    sweptCore (le_refl _)
  have duplicateKept : middle.cellSeen (trainKey cell) cell.cellSequence = true →
      (shedTrains order incoming middle.activeTrains middle).2 = middle := by
    intro seen
    rw [if_pos seen] at incomingEq
    rw [shedTrains_roomy order _ (by omega)]
  generalize shedTrains order incoming middle.activeTrains middle = outcome
    at shedCore shed shedRoom duplicateKept ⊢
  obtain ⟨evicted, relieved⟩ := outcome
  dsimp only at shedCore shed shedRoom duplicateKept ⊢
  have shedActive := shed.active
  have relievedValid : TableInvariant relieved := by
    refine ⟨shedCore, ?_⟩
    rw [shed.limits]
    exact shed.bytes.trans sweptBudget
  refine ⟨relieved, relievedValid, swept.trans shed, .inr ?_⟩
  rw [shed.limits]
  split
  · rename_i large
    refine .inl ⟨?_, _, rfl⟩
    rw [← swept.limits]
    split at incomingEq <;> omega
  rename_i small
  obtain ⟨counts, train, after, obtained, installed, active⟩ :=
    obtainHot_core relieved order (trainKey cell) now shedCore (shed.completed _ absent)
  rw [obtained]
  -- the Cell is charged to the train that was asked whether it had seen the Cell
  have charge : (if train.reassembler.cellSeen cell.cellSequence then 0
      else bodyBytes cell.body) ≤ incoming := by
    by_cases seen : middle.cellSeen (trainKey cell) cell.cellSequence = true
    · obtain ⟨held, holds, marked⟩ := cellSeen_held seen
      have same : train = held := installed.same held ((duplicateKept seen) ▸ holds)
      rw [same, if_pos marked]
      exact zero_le _
    · rw [incomingEq, if_neg seen]
      split <;> omega
  have bytes := installed.bytes
  have limits : after.limits = middle.limits := installed.limits.trans shed.limits
  refine .inr ⟨train, after, _, _, installed, active.trans ?_, by rw [limits]; omega, rfl⟩
  rw [shed.limits, swept.limits]
  omega

/-- Accepting a decoded Cell keeps the invariant, whatever it returns, and never leaves more
trains than the limit or than there were before. -/
theorem acceptAt_invariant (cell : DecodedCell) (now : Instant) (valid : TableInvariant table) :
    TableInvariant (table.acceptAt order cell.cell now).2 ∧
      (table.acceptAt order cell.cell now).2.activeTrains ≤
        max table.limits.maximumActiveTrains table.activeTrains := by
  rcases acceptAt_cases order cell.cell now valid with
    ⟨-, message, run⟩ | ⟨relieved, relievedValid, shrunk, outcome⟩
  · rw [run]
    exact ⟨valid, le_max_right _ _⟩
  have fewer := shrunk.active.trans (le_max_right table.limits.maximumActiveTrains _)
  rcases outcome with ⟨output, run⟩ | ⟨-, message, run⟩ |
    ⟨train, after, expired, evicted, installed, active, room, run⟩
  · rw [run]
    exact ⟨relievedValid, fewer⟩
  · rw [run]
    exact ⟨relievedValid, fewer⟩
  · rw [run]
    obtain ⟨delivered, most⟩ := deliver_invariant now
      expired evicted installed.core installed.hot installed.absent room
    exact ⟨delivered, most.trans active⟩

/-! ### Resizing and runs -/

theorem setMaximumBufferedBytes_invariant (table : ReassemblyTableV2) (order : TrainOrder)
    (maximum : Nat) (valid : TableInvariant table) :
    TableInvariant (table.setMaximumBufferedBytes order maximum).2 := by
  unfold setMaximumBufferedBytes
  split
  · rename_i large
    have resized : TableCore { table with
        limits := { table.limits with maximumBufferedBytes := maximum } } := by
      refine { valid.toTableCore with limits := ?_ }
      have old := valid.limits
      simp only [ReassemblyTableLimits.validate, do_eq_ok] at old ⊢
      exact ⟨old.1, old.2.1, large, old.2.2.2⟩
    obtain ⟨core, shrunk, room⟩ := shedTrains_core order 0 _ _ resized (le_refl _)
    refine ⟨core, ?_⟩
    rw [shrunk.limits]
    dsimp only at room ⊢
    omega
  · exact valid

theorem setMaximumActiveTrains_invariant (maximum : Nat)
    (valid : TableInvariant table) : TableInvariant (table.setMaximumActiveTrains maximum).2 := by
  unfold setMaximumActiveTrains
  split
  · rename_i bounds
    obtain ⟨trimmed, small⟩ := HashMap.dropOldest_trimmed maximum valid.completedListed
    refine { valid with
      limits := ?_
      heldNotCompleted := fun key train holds =>
        trimmed.absent key (valid.heldNotCompleted key train holds)
      completedListed := trimmed.listed
      completedLimit := small }
    have old := valid.limits
    simp only [ReassemblyTableLimits.validate, do_eq_ok] at old ⊢
    exact ⟨old.1, bounds, old.2.2⟩
  · exact valid

theorem call_invariant (table : ReassemblyTableV2) (call : TableCall)
    (valid : TableInvariant table) : TableInvariant (table.call call) := by
  cases call with
  | acceptAt order cell now => exact (acceptAt_invariant order cell now valid).1
  | expire now =>
    obtain ⟨core, shrunk⟩ := expire_core table now valid.toTableCore
    exact ⟨core, shrunk.limits ▸ shrunk.bytes.trans valid.budget⟩
  | setMaximumBufferedBytes order maximum =>
    exact setMaximumBufferedBytes_invariant table order maximum valid
  | setMaximumActiveTrains maximum => exact setMaximumActiveTrains_invariant maximum valid

theorem run_invariant (table : ReassemblyTableV2) (calls : List TableCall)
    (valid : TableInvariant table) : TableInvariant (table.run calls) := by
  induction calls generalizing table with
  | nil => exact valid
  | cons next rest ih => exact ih _ (call_invariant table next valid)

theorem new_invariant (limits : ReassemblyTableLimits) (table : ReassemblyTableV2)
    (made : new limits = .ok table) : TableInvariant table := by
  simp only [new, do_eq_ok] at made
  obtain ⟨validated, rfl⟩ := made
  have nothing : ∀ key train, ¬ Holds { limits } key train := by
    rintro key train (slot | found)
    · cases slot
    · cases found
  exact ⟨⟨validated, fun key train holds => absurd holds (nothing key train), rfl,
    fun _ _ slot => (some_ne_none _ slot.symm).elim,
    fun key train holds => absurd holds (nothing key train), .nil, zero_le _⟩, zero_le _⟩

/-- Every reachable table satisfies the invariant, and accepting a Cell there never leaves more
trains than the limit or than there were before the call. -/
theorem reassembly_table_invariant (limits : ReassemblyTableLimits) (fresh : ReassemblyTableV2)
    (made : new limits = .ok fresh) (calls : List TableCall) : TableInvariant (fresh.run calls) ∧
      ∀ order (cell : DecodedCell) now,
        ((fresh.run calls).acceptAt order cell.cell now).2.activeTrains ≤
          max (fresh.run calls).limits.maximumActiveTrains (fresh.run calls).activeTrains := by
  have valid := run_invariant fresh calls (new_invariant limits fresh made)
  exact ⟨valid, fun order cell now => (acceptAt_invariant order cell now valid).2⟩

def sampleTableLimits : ReassemblyTableLimits where
  sessionEpoch := 1
  maximumActiveTrains := 2
  maximumBufferedBytes := 70000
  trainTimeout := 1000
  perTrain := { maximumCells := 8, maximumActiveRecords := 8, maximumBufferedBytes := 70000 }

/-- A Cell with one full record of one byte. -/
def oneRecordCell (flags : UInt8) (sequence : UInt16) : CellV2 where
  class' := .bulk
  flags := flags
  sessionEpoch := 1
  routeLabel := 1
  trainId := 1
  cellSequence := sequence
  stripeId := 0
  overlayHopLimit := 8
  overlayHops := 0
  body := .records
    [{ kind := .full, flags := 0, recordId := sequence + 1, totalLen := 1, offset := 0
       metadata := [], data := [7] }]

/-- A Cell as the decoder returns it for its own wire bytes. -/
def decodedSelf (cell : CellV2) (decodes : CellV2.decode cell.wire = .ok cell) : DecodedCell :=
  ⟨cell, cell.wire, decodes⟩

/-- The Cells of two trains interleaved, none of them complete, and a sweep. -/
def twoTrains : List TableCall :=
  [.acceptAt ⟨id, .refl⟩ (decodedSelf (oneRecordCell flagTrainStart 0) rfl) 1,
    .acceptAt ⟨id, .refl⟩ (decodedSelf { oneRecordCell flagTrainStart 0 with trainId := 2 } rfl) 2,
    .acceptAt ⟨id, .refl⟩ (decodedSelf (oneRecordCell 0 1) rfl) 3, .expire 5]

theorem reassembly_table_invariant_sample :
    new sampleTableLimits = .ok { limits := sampleTableLimits } ∧
      TableInvariant (run { limits := sampleTableLimits } twoTrains) ∧
      (run { limits := sampleTableLimits } twoTrains).activeTrains = 2 ∧
      ∀ order (cell : DecodedCell) now, ((run { limits := sampleTableLimits } twoTrains).acceptAt
        order cell.cell now).2.activeTrains ≤ 2 := by
  have active :
      (run { limits := sampleTableLimits } twoTrains).activeTrains = 2 := by decide +kernel
  obtain ⟨valid, most⟩ := reassembly_table_invariant sampleTableLimits _ rfl twoTrains
  refine ⟨rfl, valid, active, fun order cell now => (most order cell now).trans ?_⟩
  rw [active]
  decide +kernel

end Ironet.Reassembly
