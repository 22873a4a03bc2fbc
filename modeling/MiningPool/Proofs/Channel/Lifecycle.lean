import MiningPool.Proofs.Channel.History

/-!
# The life of jobs on an extended channel

As long as the ids of jobs do not start over, the jobs of a channel are in order after
every history: each is held under its own id, at one stage only, and waits exactly while
it has no least time.  A step never alters a job that it does not activate.
-/

namespace MiningPool.ExtendedChannel

open MiningPool.Bitcoin MiningPool.Wire MiningPool.Message

/-- The ids of the jobs that the operations of a history created, the latest first. -/
def createdIds (channel : ExtendedChannel) : List Operation → List UInt32
  | [] => []
  | operation :: earlier =>
    ((channel.run earlier).created? operation).toList.map Job.id ++ channel.createdIds earlier

/-- A new channel has no jobs and has given no ids. -/
theorem create_ok
    (opening : Channel.Opening)
    (versionRolling : Bool)
    (minRollableSize : UInt16)
    (channel : ExtendedChannel)
    (opened : create opening versionRolling minRollableSize = .ok channel) :
    channel.jobs = .empty ∧ channel.tip = none ∧ channel.factory.lastId = 0 := by
  unfold create at opened
  split at opened
  · cases opened
  · dsimp only at opened
    split at opened
    · cases opened
    · split at opened
      · cases opened
      · split at opened
        · cases opened
        · cases opened
          exact ⟨rfl, rfl, rfl⟩

/-- The last id counts the ids that were taken up, as long as they do not start over. -/
theorem toNat_lastId
    (channel : ExtendedChannel)
    (history : List Operation)
    (unused : channel.factory.lastId = 0)
    (bounded : channel.idsTaken history < UInt32.size) :
    (channel.run history).factory.lastId.toNat = channel.idsTaken history := by
  induction history with
  | nil => rw [run, unused, idsTaken, UInt32.toNat_zero]
  | cons operation earlier ih =>
    have before := ih (Nat.lt_of_le_of_lt (channel.idsTaken_le operation earlier) bounded)
    have change := change_after (channel.run earlier) operation
    rw [idsTaken] at bounded ⊢
    split
    next same => rw [same, before, Nat.add_zero]
    next differs =>
      rw [if_neg differs] at bounded
      rcases change.factory with kept | advanced
      · exact absurd (congrArg JobFactory.lastId kept) differs
      · rw [run, advanced, JobFactory.advance, toNat_idAfter _ (by rwa [before]), before]

/-- An id that is taken up in a bounded history is greater than those before. -/
theorem lastId_lt
    (channel : ExtendedChannel)
    (operation : Operation)
    (earlier : List Operation)
    (unused : channel.factory.lastId = 0)
    (bounded : channel.idsTaken (operation :: earlier) < UInt32.size)
    (advanced :
      (channel.run (operation :: earlier)).factory = (channel.run earlier).factory.advance) :
    (channel.run earlier).factory.lastId < (channel.run (operation :: earlier)).factory.lastId := by
  have before := channel.toNat_lastId earlier unused
    (Nat.lt_of_le_of_lt (channel.idsTaken_le operation earlier) bounded)
  have later := channel.toNat_lastId (operation :: earlier) unused bounded
  have differs : (channel.run (operation :: earlier)).factory.lastId ≠
      (channel.run earlier).factory.lastId := by
    rw [advanced]
    exact idAfter_ne_self _
  rw [UInt32.lt_iff_toNat_lt, before, later, idsTaken, if_neg differs]
  exact Nat.lt_succ_self _

section Step

variable
  {channel later : ExtendedChannel}
  {operation : Operation}
  (change : Change channel operation later)
  (ordered : channel.jobs.Consistent channel.factory.lastId)
  (onward : later.factory = channel.factory.advance →
    channel.factory.lastId < later.factory.lastId)

include onward in
/-- A job that is made has the last id then. -/
theorem new_id
    {origin : JobOrigin}
    {minNtime : Option UInt32}
    {job : ExtendedJob}
    (makes : channel.factory.Makes later.factory origin minNtime job) :
    channel.factory.lastId < Job.id job ∧ later.factory.lastId = Job.id job := by
  have same : later.factory.lastId = Job.id job := by
    rw [makes.later_eq, makes.id_eq]
    rfl
  exact ⟨same ▸ onward makes.later_eq, same⟩

include change ordered onward

theorem Change.consistent : later.jobs.Consistent later.factory.lastId := by
  cases change with
  | kept _ _ nothing jobs tip factory =>
    rw [jobs]
    rcases factory with same | advanced
    · rw [same]
      exact ordered
    · exact ordered.mono (UInt32.le_of_lt (onward advanced))
  | tipped tip _ jobs tip_eq factory =>
    rw [jobs, factory]
    exact ordered
  | waiting template rewards job _ created future makes jobs tip =>
    have ids := new_id onward makes
    rw [jobs, ids.2]
    refine ordered.addFuture template.templateId job ids.1 makes.minNtime_eq ?_
    exact congrArg JobOrigin.templateId makes.origin_eq
  | running template rewards job tip _ created current makes jobs known tip_eq =>
    have ids := new_id onward makes
    rw [jobs, ids.2]
    refine ordered.addActive job ids.1 ?_
    simp [makes.minNtime_eq]
  | custom request job _ created makes jobs tip =>
    have ids := new_id onward makes
    have runs : Job.minNtime job ≠ none := by
      simp [makes.minNtime_eq]
    rw [jobs, ids.2]
    split
    · exact ordered.addActive_markPastStale job ids.1 runs
    · exact ordered.addActive job ids.1 runs
  | activated message _ jobs tip factory =>
    rw [factory]
    exact ordered.activate? _ _ _ jobs

/-- A job that is held before and after is the same, unless it is activated. -/
theorem Change.keeps
    {stage other : JobStage}
    {id : UInt32}
    {job held : ExtendedJob}
    (before : channel.jobs.at? stage id = some job)
    (after : later.jobs.at? other id = some held) :
    held = job ∨
      ∃ message, operation = .setNewPrevHash message ∧ stage = .future ∧ other = .active ∧
        channel.jobs.futureId? message.templateId = some id ∧
        held = Job.activate job message.headerTimestamp := by
  -- A job that is made has a new id, so it is not the one that was held before.
  have kept {origin minNtime new stage move}
      (makes : channel.factory.Makes later.factory origin minNtime new)
      (gains : channel.jobs.Gains later.jobs stage new move) :
      held = job := by
    rcases gains.keeps ordered before after with same | ⟨-, same, -⟩
    · exact same
    · have fresh := ordered.fresh _ (new_id onward makes).1
      rw [same] at fresh
      rw [fresh] at before
      cases before
  cases change with
  | kept _ _ nothing jobs tip factory =>
    rw [jobs] at after
    exact .inl (ordered.unique after before)
  | tipped tip _ jobs tip_eq factory =>
    rw [jobs] at after
    exact .inl (ordered.unique after before)
  | waiting template rewards new _ created future makes jobs tip =>
    have fresh := ordered.fresh _ (new_id onward makes).1
    exact .inl (kept makes (jobs ▸ JobStore.gains_addFuture _ _ _ fresh))
  | running template rewards new tip _ created current makes jobs known tip_eq =>
    have fresh := ordered.fresh _ (new_id onward makes).1
    exact .inl (kept makes (jobs ▸ JobStore.gains_addActive _ _ fresh))
  | custom request new _ created makes jobs tip =>
    have fresh := ordered.fresh _ (new_id onward makes).1
    split at jobs
    · exact .inl (kept makes (jobs ▸ JobStore.gains_addActive_markPastStale _ _ fresh))
    · exact .inl (kept makes (jobs ▸ JobStore.gains_addActive _ _ fresh))
  | activated message _ jobs tip factory =>
    obtain ⟨known, waiting, found, held?, -, gains⟩ :=
      JobStore.gains_activate? _ _ ordered.distinct _ _ jobs
    rcases gains.keeps ordered before after with same | ⟨here, same, activated⟩
    · exact .inl same
    · rw [Job.id_activate, ordered.keyed _ _ _ held?] at same
      subst same
      refine .inr ⟨message, rfl, ordered.apart _ _ _ _ _ before held?, here, found, ?_⟩
      rw [ordered.unique before held?]
      exact activated

end Step

/-! ## Histories -/

variable (channel : ExtendedChannel)

theorem run_consistent
    (unused : channel.factory.lastId = 0)
    (empty : channel.jobs = .empty)
    (history : List Operation)
    (bounded : channel.idsTaken history < UInt32.size) :
    (channel.run history).jobs.Consistent (channel.run history).factory.lastId := by
  induction history with
  | nil =>
    rw [run, empty]
    exact JobStore.consistent_empty _
  | cons operation earlier ih =>
    exact (change_after (channel.run earlier) operation).consistent
      (ih (Nat.lt_of_le_of_lt (channel.idsTaken_le operation earlier) bounded))
      (channel.lastId_lt operation earlier unused bounded)

/-- A created job has the next id. -/
theorem Change.created
    {channel later : ExtendedChannel}
    {operation : Operation}
    (change : Change channel operation later)
    (job : ExtendedJob)
    (created : channel.created? operation = some job) :
    ∃ origin minNtime, channel.factory.Makes later.factory origin minNtime job := by
  cases change with
  | kept _ _ nothing jobs tip factory =>
    rw [nothing] at created
    cases created
  | tipped tip _ jobs tip_eq factory => cases created
  | waiting template rewards made _ known future makes jobs tip =>
    obtain rfl := Option.some.inj (known.symm.trans created)
    exact ⟨_, _, makes⟩
  | running template rewards made tip _ known current makes jobs found tip_eq =>
    obtain rfl := Option.some.inj (known.symm.trans created)
    exact ⟨_, _, makes⟩
  | custom request made _ known makes jobs tip =>
    obtain rfl := Option.some.inj (known.symm.trans created)
    exact ⟨_, _, makes⟩
  | activated message _ jobs tip factory => cases created

/-- The ids of created jobs grow, and none is above the last one. -/
theorem createdIds_sorted
    (unused : channel.factory.lastId = 0)
    (history : List Operation)
    (bounded : channel.idsTaken history < UInt32.size) :
    (channel.createdIds history).Pairwise (· > ·) ∧
      ∀ id ∈ channel.createdIds history, 0 < id ∧ id ≤ (channel.run history).factory.lastId := by
  induction history with
  | nil =>
    refine ⟨.nil, ?_⟩
    intro id member
    cases member
  | cons operation earlier ih =>
    have before := ih (Nat.lt_of_le_of_lt (channel.idsTaken_le operation earlier) bounded)
    have change := change_after (channel.run earlier) operation
    have onward := channel.lastId_lt operation earlier unused bounded
    cases created : (channel.run earlier).created? operation with
    | none =>
      simp only [createdIds, created, Option.toList_none, List.map_nil, List.nil_append]
      refine ⟨before.1, fun id member => ⟨(before.2 id member).1, ?_⟩⟩
      refine UInt32.le_trans (before.2 id member).2 ?_
      rcases change.factory with same | advanced
      · rw [run, same]
        exact UInt32.le_refl _
      · exact UInt32.le_of_lt (onward advanced)
    | some job =>
      obtain ⟨origin, minNtime, makes⟩ := change.created job created
      have ids := new_id onward makes
      simp only [createdIds, created, Option.toList_some, List.map_cons, List.map_nil,
        List.singleton_append]
      refine ⟨.cons ?_ before.1, ?_⟩
      · intro id member
        exact UInt32.lt_of_le_of_lt (before.2 id member).2 ids.1
      · intro id member
        rcases List.mem_cons.mp member with rfl | member
        · exact ⟨UInt32.lt_of_le_of_lt UInt32.zero_le ids.1, UInt32.le_of_eq ids.2.symm⟩
        · have old := before.2 id member
          refine ⟨old.1, UInt32.le_trans old.2 (UInt32.le_of_lt ?_)⟩
          rw [ids.2]
          exact ids.1

theorem idsTaken_le_length (history : List Operation) :
    channel.idsTaken history ≤ history.length := by
  induction history with
  | nil => exact Nat.le_refl _
  | cons operation earlier ih =>
    rw [idsTaken, List.length_cons]
    split <;> omega

/--
The life of jobs: whatever is done with a new channel, and whether it succeeds or fails,
its jobs are in order and the ids of the jobs it creates grow from above zero, as long as
they do not start over; and no step alters a job that is held before and after it, except
that a block gives its time to the waiting job that it makes active.
-/
theorem jobs_lifecycle
    (opening : Channel.Opening)
    (versionRolling : Bool)
    (minRollableSize : UInt16)
    (channel : ExtendedChannel)
    (opened : create opening versionRolling minRollableSize = .ok channel)
    (history : List Operation)
    (bounded : channel.idsTaken history < UInt32.size) :
    (channel.run history).jobs.Consistent (channel.run history).factory.lastId ∧
    (channel.createdIds history).Pairwise (· > ·) ∧
    (∀ id ∈ channel.createdIds history, 0 < id) ∧
    ∀ later operation earlier, history = later ++ operation :: earlier →
      ∀ stage other id job held,
        (channel.run earlier).jobs.at? stage id = some job →
        (channel.run (operation :: earlier)).jobs.at? other id = some held →
        held = job ∨
          ∃ message, operation = .setNewPrevHash message ∧ stage = .future ∧ other = .active ∧
            (channel.run earlier).jobs.futureId? message.templateId = some id ∧
            held = Job.activate job message.headerTimestamp := by
  obtain ⟨empty, -, unused⟩ := create_ok opening versionRolling minRollableSize channel opened
  have sorted := channel.createdIds_sorted unused history bounded
  refine ⟨channel.run_consistent unused empty history bounded, sorted.1,
    fun id member => (sorted.2 id member).1, ?_⟩
  rintro later operation earlier rfl stage other id job held before after
  have fewer := Nat.lt_of_le_of_lt (channel.idsTaken_append later (operation :: earlier)) bounded
  have ordered := channel.run_consistent unused empty earlier
    (Nat.lt_of_le_of_lt (channel.idsTaken_le operation earlier) fewer)
  exact (change_after (channel.run earlier) operation).keeps ordered
    (channel.lastId_lt operation earlier unused fewer) before after

/-- An opening whose target can be computed. -/
def soloOpening : Channel.Opening where
  id := 1
  userIdentity := "solo"
  extranoncePrefix := [7]
  maxTarget := .easiest
  hashRate := ⟨0x42c80000⟩
  batchSize := 10
  sharesPerMinute := ⟨0x3f800000⟩
  tag := none

/-- A template that waits for its block. -/
def soloTemplate : TemplateDistribution.NewTemplate where
  templateId := 5
  futureTemplate := true
  version := 0x20000000
  coinbaseTxVersion := 2
  coinbasePrefix := ⟨[0x03, 0x01, 0x02, 0x03], by decide⟩
  coinbaseTxInputSequence := 0xffffffff
  coinbaseTxValueRemaining := 50
  coinbaseTxOutputsCount := 0
  coinbaseTxOutputs := ⟨[], by decide⟩
  coinbaseTxLocktime := 0
  merklePath := ⟨[], by decide⟩

/-- The block of the template is found. -/
def soloBlock : TemplateDistribution.SetNewPrevHash where
  templateId := 5
  prevHash := ⟨List.replicate 32 1, by decide⟩
  headerTimestamp := 1700000000
  nBits := 0x1d00ffff
  target := ⟨List.replicate 32 0, by decide⟩

/-- A template arrives, and its block is found. -/
def soloHistory : List Operation :=
  [.setNewPrevHash soloBlock, .newTemplate soloTemplate [⟨50, [0x51]⟩]]

theorem jobs_lifecycle_solo :
    ∃ channel, create soloOpening true 4 = .ok channel ∧
      (channel.run soloHistory).jobs.Consistent (channel.run soloHistory).factory.lastId := by
  have opens : (create soloOpening true 4).toBool = true := by
    decide +kernel
  cases opened : create soloOpening true 4 with
  | error failure =>
    rw [opened] at opens
    cases opens
  | ok channel =>
    have bounded : channel.idsTaken soloHistory < UInt32.size :=
      Nat.lt_of_le_of_lt (channel.idsTaken_le_length soloHistory) (by decide)
    exact ⟨channel, rfl, (jobs_lifecycle soloOpening true 4 channel opened soloHistory bounded).1⟩

end MiningPool.ExtendedChannel
