import MiningPool.Proofs.Channel.Course
import MiningPool.Proofs.Job.Assembly
import MiningPool.Proofs.Job.Factory
import Mathlib.Data.List.Nodup

/-!
# The numbers of jobs

A standard channel numbers the jobs that it makes, and every group numbers those that it hands
to its members.  A member keeps the numbers of the group, so the jobs of one channel can come
from several numberings.

If no two jobs that arrive at a channel have the same number, none that it holds do, and a
share of the active job is judged as such.  Otherwise it may happen that a stale job has the
number of the active one, and then all shares of the active job are refused as stale.
-/

namespace MiningPool

open MiningPool.Bitcoin MiningPool.Wire MiningPool.Message

/-! ## One numbering -/

/-- Ids that one numbering has given, up to the last one it has come to. -/
structure Numbered (ids : List UInt32) (lastId : UInt32) : Prop where
  nodup : ids.Nodup
  given : ∀ id ∈ ids, id ≤ lastId

namespace Numbered

variable {ids : List UInt32} {lastId : UInt32}

theorem none : Numbered [] lastId :=
  ⟨List.nodup_nil, fun _ member => nomatch member⟩

theorem lt_idAfter (room : lastId.toNat + 1 < UInt32.size) : lastId < idAfter lastId := by
  rw [UInt32.lt_iff_toNat_lt, toNat_idAfter lastId room]
  exact Nat.lt_succ_self _

/-- An id can be taken up without being given. -/
theorem skip
    (numbered : Numbered ids lastId)
    (room : lastId.toNat + 1 < UInt32.size) :
    Numbered ids (idAfter lastId) where
  nodup := numbered.nodup
  given id member :=
    UInt32.le_trans (numbered.given id member) (UInt32.le_of_lt (lt_idAfter room))

theorem give
    (numbered : Numbered ids lastId)
    (room : lastId.toNat + 1 < UInt32.size) :
    Numbered (idAfter lastId :: ids) (idAfter lastId) where
  nodup := by
    rw [List.nodup_cons]
    refine ⟨?_, numbered.nodup⟩
    intro member
    exact absurd (lt_idAfter room) (UInt32.not_lt.mpr (numbered.given _ member))
  given id member := by
    rcases List.mem_cons.mp member with rfl | member
    · exact UInt32.le_refl _
    · exact (numbered.skip room).given id member

end Numbered

/-! ## Groups -/

namespace GroupChannel

/-- An operation on a group. -/
inductive Operation
  | newTemplate (template : TemplateDistribution.NewTemplate) (rewards : List Output)
  | setNewPrevHash (message : TemplateDistribution.SetNewPrevHash)
  | setTip (tip : ChainTip)
  | addMember (channelId : UInt32)
  | removeMember (channelId : UInt32)

/-- The group after an operation. -/
def after (group : GroupChannel) : Operation → GroupChannel
  | .newTemplate template rewards => (group.newTemplate template rewards).1
  | .setNewPrevHash message => (group.setNewPrevHash message).1
  | .setTip tip => group.setTip tip
  | .addMember channelId => group.addMember channelId
  | .removeMember channelId => group.removeMember channelId

/-- The group after a course, which lists the latest operation first. -/
def run (group : GroupChannel) : List Operation → GroupChannel
  | [] => group
  | operation :: earlier => (group.run earlier).after operation

/-- The job that an operation makes, to be handed to every member. -/
def made? (group : GroupChannel) : Operation → Option ExtendedJob
  | .newTemplate template rewards => (group.newTemplate template rewards).2.toOption
  | _ => none

/-- The jobs that the operations of a course make, the latest first. -/
def made (group : GroupChannel) : List Operation → List ExtendedJob
  | [] => []
  | operation :: earlier =>
    ((group.run earlier).made? operation).toList ++ group.made earlier

/-- What an operation does to the numbering of a group. -/
theorem numbering_after (group : GroupChannel) (operation : Operation) :
    (group.after operation).factory = group.factory.advance ∧
        (∀ job, group.made? operation = some job → Job.id job = idAfter group.factory.lastId) ∨
      (group.after operation).factory = group.factory ∧ group.made? operation = none := by
  cases operation with
  | newTemplate template rewards =>
    have exits := group.attempts_newTemplate template rewards
    rw [after, made?]
    generalize group.newTemplate template rewards = outcome at exits ⊢
    cases exits with
    | failed factory failure made =>
      rcases JobFactory.templateJob_error _ _ _ _ _ _ _ _ made with same | ⟨advanced, -⟩
      · exact .inr ⟨same, rfl⟩
      · exact .inl ⟨advanced, nofun⟩
    | succeeded factory job made =>
      obtain ⟨time, -, makes⟩ := JobFactory.templateJob_ok _ _ _ _ _ _ _ _ made
      refine .inl ⟨makes.later_eq, ?_⟩
      intro other same
      obtain rfl := Option.some.inj same
      exact makes.id_eq
  | setNewPrevHash message =>
    refine .inr ⟨?_, rfl⟩
    have exits := group.announces_setNewPrevHash message
    rw [after]
    generalize group.setNewPrevHash message = outcome at exits ⊢
    cases exits <;> rfl
  | setTip | addMember | removeMember => exact .inr ⟨rfl, rfl⟩

/-- A new group has no jobs and no chain tip, and has given no ids. -/
theorem create_ok
    (id : UInt32)
    (tag : Option String)
    (group : GroupChannel)
    (created : create id tag = .ok group) :
    group.jobs = .empty ∧ group.tip = none ∧ group.factory.lastId = 0 := by
  unfold create at created
  dsimp only at created
  split at created
  · cases created
  · cases created
    exact ⟨rfl, rfl, rfl⟩

/-- As long as ids do not start over, no two jobs of a group have the same. -/
theorem numbered_made
    (group : GroupChannel)
    (unused : group.factory.lastId = 0)
    (course : List Operation)
    (few : course.length < UInt32.size) :
    (group.run course).factory.lastId.toNat ≤ course.length ∧
      Numbered ((group.made course).map Job.id) (group.run course).factory.lastId := by
  induction course with
  | nil =>
    refine ⟨?_, .none⟩
    rw [run, unused]
    exact Nat.le_refl 0
  | cons operation earlier ih =>
    rw [List.length_cons] at few ⊢
    obtain ⟨counted, numbered⟩ := ih (Nat.lt_of_succ_lt few)
    have room : (group.run earlier).factory.lastId.toNat + 1 < UInt32.size := by
      omega
    rw [run, made]
    rcases (group.run earlier).numbering_after operation with ⟨advanced, given⟩ | ⟨same, nothing⟩
    · rw [advanced, JobFactory.advance]
      constructor
      · rw [toNat_idAfter _ room]
        exact Nat.succ_le_succ counted
      · cases job : (group.run earlier).made? operation with
        | none => exact numbered.skip room
        | some job' =>
          have next := numbered.give room
          rw [← given job' job] at next ⊢
          exact next
    · rw [same, nothing]
      exact ⟨Nat.le_succ_of_le counted, numbered⟩

end GroupChannel

/-! ## Jobs that arrive at a standard channel -/

namespace AnyChannel

/-- The job that arrives with an operation, of the channel's own making or of a group. -/
def arrival? : AnyChannel → Operation → Option StandardJob
  | standard channel, .newTemplate template rewards =>
    (channel.factory.standardJob channel.id channel.tip channel.extranoncePrefix template
      rewards).2.toOption
  | standard channel, .groupJob job =>
    (job.toStandard channel.id channel.extranoncePrefix).toOption
  | _, _ => none

/-- The jobs that arrive in a course, the latest first. -/
def arrivals (channel : AnyChannel) : List Operation → List StandardJob
  | [] => []
  | operation :: earlier =>
    ((channel.run earlier).arrival? operation).toList ++ channel.arrivals earlier

/-- What an operation can do to the jobs and the numbering of a standard channel. -/
inductive Change (channel : StandardChannel) : Operation → StandardChannel → Prop
  | kept
      (operation : Operation)
      (later : StandardChannel)
      (nothing : (standard channel).arrival? operation = none)
      (jobs : later.jobs = channel.jobs)
      (factory : later.factory = channel.factory) :
      Change channel operation later
  /-- A job of the channel's own making arrives. -/
  | made
      (template : TemplateDistribution.NewTemplate)
      (rewards : List Output)
      (job : StandardJob)
      (later : StandardChannel)
      (arrival : (standard channel).arrival? (.newTemplate template rewards) = some job)
      (numbered : Job.id job = idAfter channel.factory.lastId)
      (jobs : later.jobs = (channel.addJob template.templateId job).jobs)
      (factory : later.factory = channel.factory.advance) :
      Change channel (.newTemplate template rewards) later
  /-- A job of a group arrives and keeps its number. -/
  | handed
      (job : ExtendedJob)
      (member : StandardJob)
      (later : StandardChannel)
      (arrival : (standard channel).arrival? (.groupJob job) = some member)
      (numbered : Job.id member = Job.id job)
      (jobs : later.jobs = (channel.addJob member.template.templateId member).jobs)
      (factory : later.factory = channel.factory) :
      Change channel (.groupJob job) later
  /-- A job that waited becomes active on a new chain tip. -/
  | activated
      (message : TemplateDistribution.SetNewPrevHash)
      (later : StandardChannel)
      (jobs : channel.jobs.activate? message.templateId message.headerTimestamp = some later.jobs)
      (factory : later.factory = channel.factory) :
      Change channel (.setNewPrevHash message) later

/-- What is remembered of shares has nothing to do with the jobs. -/
theorem kept_withShares
    (channel : StandardChannel)
    (shares : ShareAccounting)
    (submission : Submission) :
    ∃ later, (standard channel).withShares shares = standard later ∧
      Change channel (.validateShare submission) later :=
  ⟨channel.withShares shares, rfl, .kept _ _ rfl rfl rfl⟩

theorem id_toStandard
    (job : ExtendedJob)
    (channelId : UInt32)
    (extranoncePrefix : Bytes)
    (member : StandardJob)
    (made : job.toStandard channelId extranoncePrefix = .ok member) :
    Job.id member = Job.id job := by
  obtain ⟨template, root, -, -, rfl⟩ := (job.toStandard_eq_ok_iff _ _ _).mp made
  rfl

/-- A standard channel stays one, and its jobs change in one of these ways. -/
theorem change_after (channel : StandardChannel) (operation : Operation) :
    ∃ later, (standard channel).after operation = standard later ∧
      Change channel operation later := by
  cases operation with
  | newTemplate template rewards =>
    have exits := StandardChannel.attempts_newTemplate channel template rewards
    rw [after, newTemplate]
    generalize StandardChannel.newTemplate channel template rewards = outcome at exits ⊢
    cases exits with
    | failed factory failure made =>
      refine ⟨{ channel with factory }, rfl, .kept _ _ ?_ rfl ?_⟩
      · simp only [arrival?, made, Except.toOption]
      · exact JobFactory.standardJob_error _ _ _ _ _ _ _ _ made
    | succeeded factory job made =>
      obtain ⟨advanced, numbered⟩ := JobFactory.standardJob_ok _ _ _ _ _ _ _ _ made
      refine ⟨Channel.addJob { channel with factory } template.templateId job, rfl,
        .made template rewards job _ ?_ numbered rfl advanced⟩
      simp only [arrival?, made, Except.toOption]
  | groupJob job =>
    have exits := StandardChannel.receives_groupJob channel job
    rw [after, groupJob]
    generalize StandardChannel.groupJob channel job = outcome at exits ⊢
    cases exits with
    | refused failure unconverted =>
      refine ⟨channel, rfl, .kept _ _ ?_ rfl rfl⟩
      simp only [arrival?, unconverted, Except.toOption]
    | received member converted =>
      refine ⟨channel.addJob member.template.templateId member, rfl,
        .handed job member _ ?_ (id_toStandard _ _ _ _ converted) rfl rfl⟩
      simp only [arrival?, converted, Except.toOption]
  | setNewPrevHash message =>
    have exits := Channel.announces_setNewPrevHash channel message
    rw [after, setNewPrevHash]
    generalize Channel.setNewPrevHash channel message = outcome at exits ⊢
    cases exits with
    | unknown => exact ⟨channel, rfl, .kept _ _ rfl rfl rfl⟩
    | activated jobs activated => exact ⟨_, rfl, .activated _ _ activated rfl⟩
  | setCustomJob request => exact ⟨channel, rfl, .kept _ _ rfl rfl rfl⟩
  | setTip tip => exact ⟨channel.setTip tip, rfl, .kept _ _ rfl rfl rfl⟩
  | setExtranoncePrefix extranoncePrefix =>
    have exits := StandardChannel.restarts_setExtranoncePrefix channel extranoncePrefix
    rw [after, setExtranoncePrefix]
    generalize StandardChannel.setExtranoncePrefix channel extranoncePrefix = outcome at exits ⊢
    cases exits <;> exact ⟨_, rfl, .kept _ _ rfl rfl rfl⟩
  | update hashRate maxTarget =>
    have exits := Channel.retargets_update channel hashRate maxTarget
    rw [after, update]
    generalize Channel.update channel hashRate maxTarget = outcome at exits ⊢
    cases exits <;> exact ⟨_, rfl, .kept _ _ rfl rfl rfl⟩
  | validateShare submission =>
    have validates := (standard channel).validates_validateShare submission
    rw [after]
    generalize (standard channel).validateShare submission = result at validates ⊢
    cases validates with
    | refused => exact ⟨channel, rfl, .kept _ _ rfl rfl rfl⟩
    | judged => exact kept_withShares channel _ submission

theorem exists_run (first : StandardChannel) (course : List Operation) :
    ∃ channel, (standard first).run course = standard channel := by
  induction course with
  | nil => exact ⟨first, rfl⟩
  | cons operation earlier ih =>
    obtain ⟨channel, run_eq⟩ := ih
    obtain ⟨later, after_eq, -⟩ := change_after channel operation
    exact ⟨later, by rw [run, run_eq, after_eq]⟩

/-! ## Jobs of different numbers -/

/-- A store whose jobs have ids of their own, all of them known. -/
structure Known (store : JobStore StandardJob) (ids : List UInt32) : Prop where
  distinct : store.Distinct
  held : ∀ stage id job, store.at? stage id = some job → id ∈ ids

theorem Known.addJob
    {channel : StandardChannel}
    {ids : List UInt32}
    (known : Known channel.jobs ids)
    (templateId : UInt64)
    (job : StandardJob)
    (new : Job.id job ∉ ids) :
    Known (channel.addJob templateId job).jobs (Job.id job :: ids) := by
  have fresh (stage : JobStage) : channel.jobs.at? stage (Job.id job) = none := by
    cases present : channel.jobs.at? stage (Job.id job) with
    | none => rfl
    | some held => exact absurd (known.held stage _ held present) new
  unfold Channel.addJob
  dsimp only
  split
  · have gains := JobStore.gains_addFuture channel.jobs templateId job fresh
    exact ⟨known.distinct.of_gains gains, gains.held_mem known.held⟩
  · have gains := JobStore.gains_addActive channel.jobs job fresh
    exact ⟨known.distinct.of_gains gains, gains.held_mem known.held⟩

theorem Known.activate?
    {store activated : JobStore StandardJob}
    {ids : List UInt32}
    (known : Known store ids)
    (templateId : UInt64)
    (time : UInt32)
    (done : store.activate? templateId time = some activated) :
    Known activated ids := by
  obtain ⟨id, job, -, waiting, -, gains⟩ :=
    JobStore.gains_activate? _ _ known.distinct _ _ done
  refine ⟨known.distinct.of_gains gains, ?_⟩
  intro stage other present held
  rcases List.mem_cons.mp (gains.held_mem known.held stage other present held) with
    rfl | member
  · rw [Job.id_activate, known.distinct.keyed _ _ _ waiting]
    exact known.held _ _ _ waiting
  · exact member

/--
If no two jobs that arrive at a new channel have the same id, no two that it holds do, and it
holds no ids but theirs.
-/
theorem known_run
    (first : StandardChannel)
    (new : first.jobs = .empty)
    (course : List Operation)
    (ids : (((standard first).arrivals course).map Job.id).Nodup) :
    ∃ channel, (standard first).run course = standard channel ∧
      Known channel.jobs (((standard first).arrivals course).map Job.id) := by
  induction course with
  | nil =>
    refine ⟨first, rfl, ?_, ?_⟩
    · rw [new]
      exact JobStore.distinct_empty
    · intro stage id job held
      rw [new, JobStore.at?_empty] at held
      cases held
  | cons operation earlier ih =>
    rw [arrivals] at ids
    obtain ⟨channel, run_eq, known⟩ :=
      ih (ids.sublist (.map _ (List.sublist_append_right _ _)))
    obtain ⟨later, after_eq, change⟩ := change_after channel operation
    rw [run, arrivals, run_eq, after_eq]
    rw [run_eq] at ids
    refine ⟨later, rfl, ?_⟩
    cases change with
    | kept _ _ nothing jobs =>
      rw [jobs, nothing]
      exact known
    | made template rewards job _ arrival _ jobs =>
      rw [arrival] at ids
      rw [jobs, arrival]
      exact known.addJob _ job (List.nodup_cons.mp ids).1
    | handed job member _ arrival _ jobs =>
      rw [arrival] at ids
      rw [jobs, arrival]
      exact known.addJob _ member (List.nodup_cons.mp ids).1
    | activated message _ done => exact known.activate? _ _ done

/-! ## Courses with one numbering -/

/-- The job of a group that an operation hands to a channel. -/
def Operation.handed? : Operation → Option ExtendedJob
  | groupJob job => some job
  | _ => none

/-- The jobs of a course are numbered by the channel alone, or by one group alone. -/
inductive OneNumbering (channel : AnyChannel) (course : List Operation) : Prop
  | own
      (alone : ∀ job, .groupJob job ∉ course)
      (few : (channel.arrivals course).length < UInt32.size)
  | group
      (id : UInt32)
      (tag : Option String)
      (group : GroupChannel)
      (groupCourse : List GroupChannel.Operation)
      (created : GroupChannel.create id tag = .ok group)
      (few : groupCourse.length < UInt32.size)
      (alone : ∀ template rewards, .newTemplate template rewards ∉ course)
      (handed : course.filterMap Operation.handed? ⊆ group.made groupCourse)
      (once : (course.filterMap Operation.handed?).Nodup)

/-- A channel counts the jobs that it makes, as long as their ids do not start over. -/
theorem numbered_own
    (first : StandardChannel)
    (unused : first.factory.lastId = 0)
    (course : List Operation)
    (alone : ∀ job, .groupJob job ∉ course)
    (few : ((standard first).arrivals course).length < UInt32.size) :
    ∃ channel, (standard first).run course = standard channel ∧
      channel.factory.lastId.toNat = ((standard first).arrivals course).length ∧
      Numbered (((standard first).arrivals course).map Job.id) channel.factory.lastId := by
  induction course with
  | nil =>
    refine ⟨first, rfl, ?_, .none⟩
    rw [unused]
    rfl
  | cons operation earlier ih =>
    rw [arrivals, List.length_append] at few
    obtain ⟨channel, run_eq, counted, numbered⟩ :=
      ih (fun job member => alone job (List.mem_cons_of_mem _ member)) (by omega)
    obtain ⟨later, after_eq, change⟩ := change_after channel operation
    rw [run_eq] at few
    rw [run, arrivals, run_eq, after_eq]
    refine ⟨later, rfl, ?_⟩
    cases change with
    | kept _ _ nothing _ factory =>
      rw [nothing, factory]
      exact ⟨counted, numbered⟩
    | made template rewards job _ arrival given _ factory =>
      rw [arrival, Option.toList_some, List.length_singleton] at few
      have room : channel.factory.lastId.toNat + 1 < UInt32.size := by
        omega
      have next := numbered.give room
      rw [← given] at next
      rw [arrival, factory, JobFactory.advance, ← given]
      refine ⟨?_, next⟩
      rw [given, toNat_idAfter _ room, counted]
      rfl
    | handed job => exact absurd List.mem_cons_self (alone job)
    | activated _ _ _ factory =>
      rw [factory]
      exact ⟨counted, numbered⟩

/-- Without templates of its own a channel has jobs of the ids that were handed to it. -/
theorem ids_sublist_handed
    (first : StandardChannel)
    (course : List Operation)
    (alone : ∀ template rewards, .newTemplate template rewards ∉ course) :
    ∃ channel, (standard first).run course = standard channel ∧
      (((standard first).arrivals course).map Job.id).Sublist
        ((course.filterMap Operation.handed?).map Job.id) := by
  induction course with
  | nil => exact ⟨first, rfl, List.Sublist.refl _⟩
  | cons operation earlier ih =>
    obtain ⟨channel, run_eq, sublist⟩ :=
      ih fun template rewards member => alone template rewards (List.mem_cons_of_mem _ member)
    obtain ⟨later, after_eq, change⟩ := change_after channel operation
    rw [run, arrivals, run_eq, after_eq]
    refine ⟨later, rfl, ?_⟩
    cases change with
    | kept _ _ nothing =>
      rw [nothing]
      refine sublist.trans (.map _ ?_)
      exact (List.sublist_cons_self _ _).filterMap _
    | made template rewards => exact absurd List.mem_cons_self (alone template rewards)
    | handed job member _ arrival numbered =>
      rw [arrival]
      show (Job.id member :: _).Sublist (Job.id job :: _)
      rw [numbered]
      exact sublist.cons_cons _
    | activated => exact sublist

/-- Where there is one numbering, no two jobs that arrive have the same id. -/
theorem OneNumbering.nodup
    {first : StandardChannel}
    {course : List Operation}
    (unused : first.factory.lastId = 0)
    (one : OneNumbering (standard first) course) :
    (((standard first).arrivals course).map Job.id).Nodup := by
  cases one with
  | own alone few =>
    obtain ⟨_, -, -, numbered⟩ := numbered_own first unused course alone few
    exact numbered.nodup
  | group id tag group groupCourse created few alone handed once =>
    obtain ⟨_, -, sublist⟩ := ids_sublist_handed first course alone
    obtain ⟨-, numbered⟩ :=
      group.numbered_made (group.create_ok id tag created).2.2 groupCourse few
    have apart := List.inj_on_of_nodup_map numbered.nodup
    apply List.Nodup.sublist sublist
    apply List.Nodup.map_on _ once
    intro job member other alike same
    exact apart (handed member) (handed alike) same

end AnyChannel

/-! ## Shares of the active job -/

namespace StandardChannel

/-- What a channel makes of a share once it has found its job. -/
def answered
    (channel : StandardChannel)
    (job : StandardJob)
    (submitted : Mining.SubmitSharesStandard) :
    StandardChannel × Except ShareError ShareOutcome :=
  match channel.tip with
  | none => (channel, .error .noChainTip)
  | some tip =>
    let share : Share :=
      { sequenceNumber := submitted.sequenceNumber
        version := submitted.version
        merkleRoot := job.message.merkleRoot
        ntime := submitted.ntime
        nonce := submitted.nonce }
    channel.judge tip share job job.coinbase

theorem validateShare_of_found
    (channel : StandardChannel)
    (job : StandardJob)
    (submitted : Mining.SubmitSharesStandard)
    (found : channel.jobs.forShare submitted.jobId = .ok job) :
    validateShare channel submitted = answered channel job submitted := by
  cases present : channel.tip with
  | none => simp only [validateShare, found, answered, present]
  | some tip => simp only [validateShare, found, answered, present]

theorem validateShare_of_refused
    (channel : StandardChannel)
    (failure : ShareError)
    (submitted : Mining.SubmitSharesStandard)
    (refused : channel.jobs.forShare submitted.jobId = .error failure) :
    validateShare channel submitted = (channel, .error failure) := by
  unfold validateShare
  rw [refused]

/-- A share whose job was found is not stale. -/
theorem answered_ne_stale
    (channel : StandardChannel)
    (job : StandardJob)
    (submitted : Mining.SubmitSharesStandard) :
    (answered channel job submitted).2 ≠ .error .stale := by
  unfold answered
  cases channel.tip with
  | none => exact fun same => nomatch same
  | some tip =>
    dsimp only
    rw [Channel.judge_eq]
    generalize Candidate.mk tip _ _ _ = candidate
    have verdict := candidate.verdict_judged channel.shares channel.target
    unfold Channel.settled
    -- The hash of a header must not be evaluated, so its judgement is made a variable.
    generalize candidate.judged channel.shares channel.target = result at verdict ⊢
    cases verdict <;> exact fun same => nomatch same

/-- A share of the active job is taken for one, unless a stale job has its number. -/
theorem forShare_active
    (channel : StandardChannel)
    (active : StandardJob)
    (runs : channel.jobs.active = some active) :
    channel.jobs.forShare (Job.id active) =
      if (channel.jobs.at? .stale (Job.id active)).isSome then .error .stale
      else .ok active := by
  have found : channel.jobs.at? .active (Job.id active) = some active :=
    (JobStore.at?_active _ _ _).mpr ⟨runs, rfl⟩
  rw [JobStore.forShare_eq, found]
  rfl

end StandardChannel

namespace AnyChannel

/-- A new standard channel has no jobs and has given no ids. -/
theorem createStandard_ok
    (opening : Channel.Opening)
    (opened : AnyChannel)
    (done : createStandard opening = .ok opened) :
    ∃ first, opened = standard first ∧ first.jobs = .empty ∧ first.factory.lastId = 0 := by
  unfold createStandard at done
  cases created : StandardChannel.create opening with
  | error failure =>
    rw [created] at done
    cases done
  | ok first =>
    rw [created] at done
    cases done
    obtain ⟨target, rfl, -⟩ := StandardChannel.create_ok opening first created
    exact ⟨_, rfl, rfl, rfl⟩

/--
Whatever is done with a standard channel, and from whichever groups its jobs come: a share of
the active job is judged as one, or a stale job has the number of the active job and the share
is refused as stale; no other job is ever taken for the active one.  If no two jobs that
arrived have the same number, then no two jobs that the channel holds do, at whatever stage,
and the first is what happens.  This is so if one numbering was behind all the jobs, the
channel's own or that of one group.
-/
theorem job_ids_distinct
    (opening : Channel.Opening)
    (opened : AnyChannel)
    (done : createStandard opening = .ok opened)
    (course : List Operation) :
    ∃ channel : StandardChannel, opened.run course = standard channel ∧
      (∀ active submitted,
        channel.jobs.active = some active → submitted.jobId = Job.id active →
          StandardChannel.validateShare channel submitted =
            if (channel.jobs.at? .stale (Job.id active)).isSome then (channel, .error .stale)
            else StandardChannel.answered channel active submitted) ∧
      (((opened.arrivals course).map Job.id).Nodup →
        channel.jobs.Distinct ∧
        ∀ active submitted,
          channel.jobs.active = some active → submitted.jobId = Job.id active →
            channel.jobs.forShare submitted.jobId = .ok active ∧
            StandardChannel.validateShare channel submitted =
              StandardChannel.answered channel active submitted ∧
            (StandardChannel.validateShare channel submitted).2 ≠ .error .stale) ∧
      (OneNumbering opened course → ((opened.arrivals course).map Job.id).Nodup) := by
  obtain ⟨first, rfl, new, unused⟩ := createStandard_ok opening opened done
  obtain ⟨channel, run_eq⟩ := exists_run first course
  refine ⟨channel, run_eq, ?_, ?_, OneNumbering.nodup unused⟩
  · intro active submitted runs named
    have found := channel.forShare_active active runs
    rw [← named] at found ⊢
    split at found
    next stale =>
      rw [if_pos stale]
      exact StandardChannel.validateShare_of_refused channel _ submitted found
    next current =>
      rw [if_neg current]
      exact StandardChannel.validateShare_of_found channel active submitted found
  · intro ids
    obtain ⟨other, same, known⟩ := known_run first new course ids
    obtain rfl : channel = other := standard.inj (run_eq.symm.trans same)
    refine ⟨known.distinct, ?_⟩
    intro active submitted runs named
    have found := channel.forShare_active active runs
    have current : channel.jobs.at? .stale (Job.id active) = none := by
      cases present : channel.jobs.at? .stale (Job.id active) with
      | none => rfl
      | some held =>
        have running : channel.jobs.at? .active (Job.id active) = some active :=
          (JobStore.at?_active _ _ _).mpr ⟨runs, rfl⟩
        cases known.distinct.apart _ _ _ _ _ present running
    rw [current, ← named] at found
    have answered := StandardChannel.validateShare_of_found channel active submitted found
    refine ⟨found, answered, ?_⟩
    rw [answered]
    exact StandardChannel.answered_ne_stale channel active submitted

/-- The jobs that a new group makes in a course. -/
def jobsOfGroup (id : UInt32) (course : List GroupChannel.Operation) : List ExtendedJob :=
  match GroupChannel.create id none with
  | .error _ => []
  | .ok created => created.made course

/-- A template on the chain tip. -/
def tipTemplate : TemplateDistribution.NewTemplate :=
  { ExtendedChannel.soloTemplate with templateId := 4, futureTemplate := false }

/-- A group makes a job on the chain tip, and then one for the block to come. -/
def firstGroup : List GroupChannel.Operation :=
  [.newTemplate ExtendedChannel.soloTemplate [⟨50, [0x51]⟩],
   .newTemplate tipTemplate [⟨50, [0x51]⟩],
   .setTip easyTip]

/-- Another group makes a job on the chain tip. -/
def secondGroup : List GroupChannel.Operation :=
  [.newTemplate tipTemplate [⟨50, [0x51]⟩], .setTip easyTip]

/-- A channel is handed the jobs of the first group, and the block is found. -/
def joinedCourse : List Operation :=
  .setNewPrevHash ExtendedChannel.soloBlock :: (jobsOfGroup 2 firstGroup).map .groupJob

/-- Then the channel is moved to the second group. -/
def movedCourse : List Operation :=
  (jobsOfGroup 3 secondGroup).map .groupJob ++ joinedCourse

/-- While it is in one group, the channel has jobs of different numbers. -/
theorem job_ids_distinct_joined :
    ∃ opened channel, createStandard easyOpening = .ok opened ∧
      opened.run joinedCourse = standard channel ∧
      (opened.arrivals joinedCourse).map Job.id = [2, 1] ∧
      channel.jobs.Distinct := by
  have computed :
      (createStandard easyOpening).toOption.any
        (fun opened => (opened.arrivals joinedCourse).map Job.id == [2, 1]) = true := by
    decide +kernel
  cases done : createStandard easyOpening with
  | error failure =>
    rw [done] at computed
    cases computed
  | ok opened =>
    rw [done] at computed
    have ids : (opened.arrivals joinedCourse).map Job.id = [2, 1] := eq_of_beq computed
    obtain ⟨channel, run_eq, -, apart, -⟩ :=
      job_ids_distinct easyOpening opened done joinedCourse
    refine ⟨opened, channel, rfl, run_eq, ids, ?_⟩
    apply (apart ?_).1
    rw [ids]
    decide

/-- The channel itself, if it is a standard one. -/
def standard? : AnyChannel → Option StandardChannel
  | standard channel => some channel
  | extended _ | group _ => none

/-- In the second group the active job has the number of a stale one, so its shares are stale. -/
theorem stale_after_move :
    ∃ opened channel active, createStandard easyOpening = .ok opened ∧
      opened.run movedCourse = standard channel ∧
      channel.jobs.active = some active ∧ Job.id active = 1 ∧
      (channel.jobs.at? .stale 1).isSome ∧
      ∀ submitted, submitted.jobId = 1 →
        (StandardChannel.validateShare channel submitted).2 = .error .stale := by
  have computed :
      (createStandard easyOpening).toOption.any
        (fun opened =>
          (opened.run movedCourse).standard?.any fun channel =>
            channel.jobs.active.map Job.id == some 1 &&
              (channel.jobs.at? .stale 1).isSome) = true := by
    decide +kernel
  cases done : createStandard easyOpening with
  | error failure =>
    rw [done] at computed
    cases computed
  | ok opened =>
    obtain ⟨first, rfl, -⟩ := createStandard_ok easyOpening opened done
    obtain ⟨channel, run_eq⟩ := exists_run first movedCourse
    simp only [done, Except.toOption, Option.any_some, run_eq, standard?, Bool.and_eq_true,
      beq_iff_eq, Option.map_eq_some_iff] at computed
    obtain ⟨⟨active, runs, number⟩, stale⟩ := computed
    refine ⟨_, channel, active, rfl, run_eq, runs, number, stale, ?_⟩
    intro submitted named
    have found := channel.forShare_active active runs
    rw [number, if_pos stale, ← named] at found
    rw [StandardChannel.validateShare_of_refused channel _ submitted found]

end AnyChannel

end MiningPool
