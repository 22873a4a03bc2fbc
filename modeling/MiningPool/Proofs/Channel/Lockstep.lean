import MiningPool.Proofs.Channel.Numbering
import MiningPool.Proofs.Job.Coinbase
import MiningPool.Proofs.Job.Mirror

/-!
# Members in step with their group

A group hands every job that it makes to its members, and is told of blocks and chain tips
together with them.  From then on its members go through the same stages as the group: they
hold counterparts of its jobs under the same ids, wait for the same templates and have the
same chain tip.  The root of a member's job belongs to the coinbase of the group's job with
the extranonce that the member had when the job was made.

A member can always take a job of its group, since what fits into the message of the job can
be read back.
-/

namespace MiningPool

open MiningPool.Bitcoin MiningPool.Coinbase MiningPool.Message

namespace GroupChannel

/-- A group puts together the job that it makes and keeps it. -/
theorem newTemplate_ok
    (group later : GroupChannel)
    (template : TemplateDistribution.NewTemplate)
    (rewards : List Output)
    (job : ExtendedJob)
    (made : group.newTemplate template rewards = (later, .ok job)) :
    job.origin = .template template ∧ (∃ draft, job.Assembled draft) ∧
      later.tip = group.tip ∧
      later.jobs =
        if Job.isFuture job then group.jobs.addFuture template.templateId job
        else group.jobs.addActive job := by
  have exits := group.attempts_newTemplate template rewards
  rw [made] at exits
  cases exits with
  | succeeded factory _ done =>
    obtain ⟨time, -, makes⟩ := JobFactory.templateJob_ok _ _ _ _ _ _ _ _ done
    exact ⟨makes.origin_eq, JobFactory.assembled_templateJob _ _ _ _ _ _ _ _ done, rfl, rfl⟩

/-- A group that makes no job keeps those it has. -/
theorem newTemplate_error
    (group later : GroupChannel)
    (template : TemplateDistribution.NewTemplate)
    (rewards : List Output)
    (failure : ChannelError)
    (failed : group.newTemplate template rewards = (later, .error failure)) :
    later.tip = group.tip ∧ later.jobs = group.jobs := by
  have exits := group.attempts_newTemplate template rewards
  rw [failed] at exits
  cases exits
  exact ⟨rfl, rfl⟩

end GroupChannel

/-- A group and the channels of its members. -/
structure Crew (ι : Type) where
  group : GroupChannel
  member : ι → StandardChannel

namespace Crew

variable {ι : Type} [DecidableEq ι]

/-- What happens to a group and its members. -/
inductive Event (ι : Type)
  | newTemplate (template : TemplateDistribution.NewTemplate) (rewards : List Output)
  | setNewPrevHash (message : TemplateDistribution.SetNewPrevHash)
  | setTip (tip : ChainTip)
  /-- One member changes its extranonce. -/
  | setExtranoncePrefix (member : ι) (extranoncePrefix : Bytes)

/-- The group after an event. -/
def groupAfter (crew : Crew ι) : Event ι → GroupChannel
  | .newTemplate template rewards => (crew.group.newTemplate template rewards).1
  | .setNewPrevHash message => (crew.group.setNewPrevHash message).1
  | .setTip tip => crew.group.setTip tip
  | .setExtranoncePrefix _ _ => crew.group

/-- A member after an event; of a template it sees only the job that the group made of it. -/
def memberAfter (crew : Crew ι) (member : ι) : Event ι → StandardChannel
  | .newTemplate template rewards =>
    match (crew.group.newTemplate template rewards).2 with
    | .error _ => crew.member member
    | .ok job => ((crew.member member).groupJob job).1
  | .setNewPrevHash message => (Channel.setNewPrevHash (crew.member member) message).1
  | .setTip tip => Channel.setTip (crew.member member) tip
  | .setExtranoncePrefix changing extranoncePrefix =>
    if changing = member then ((crew.member member).setExtranoncePrefix extranoncePrefix).1
    else crew.member member

/-- The group and its members after an event. -/
def after (crew : Crew ι) (event : Event ι) : Crew ι :=
  ⟨crew.groupAfter event, fun member => crew.memberAfter member event⟩

/-- The group and its members after a course, which lists the latest event first. -/
def run (crew : Crew ι) : List (Event ι) → Crew ι
  | [] => crew
  | event :: earlier => (crew.run earlier).after event

/-- The job that the group makes at an event, with the extranonce of a member at that time. -/
def receipt? (crew : Crew ι) (member : ι) : Event ι → Option (ExtendedJob × Bytes)
  | .newTemplate template rewards =>
    (crew.group.newTemplate template rewards).2.toOption.map
      fun job => (job, (crew.member member).extranoncePrefix)
  | _ => none

/-- What a member received in a course, the latest first. -/
def receipts (crew : Crew ι) (member : ι) : List (Event ι) → List (ExtendedJob × Bytes)
  | [] => []
  | event :: earlier =>
    ((crew.run earlier).receipt? member event).toList ++ crew.receipts member earlier

/-- The members succeed in what an event asks of them exactly if the group does. -/
def Unanimous (crew : Crew ι) : Event ι → Prop
  | .newTemplate template rewards =>
    ∀ job, (crew.group.newTemplate template rewards).2 = .ok job →
      ∀ member, ((crew.member member).groupJob job).2.isOk = true
  | .setNewPrevHash message =>
    ∀ member, (Channel.setNewPrevHash (crew.member member) message).2.isOk =
      (crew.group.setNewPrevHash message).2.isOk
  | .setTip _ | .setExtranoncePrefix _ _ => True

/-! ## Jobs of the group and of a member -/

/-- A member's job stands for a job of the group that it received, and that may be active since. -/
structure Counterpart
    (received : List (ExtendedJob × Bytes))
    (job : ExtendedJob)
    (own : StandardJob) :
    Prop where
  id : Job.id own = Job.id job
  templateId : Job.templateId own = Job.templateId job
  version : own.message.version = job.message.version
  minNtime : Job.minNtime own = Job.minNtime job
  /-- The extranonce is the one that the member had when it received the job. -/
  received : ∃ made, (made, own.extranoncePrefix) ∈ received ∧
    (job = made ∨ ∃ time, job = Job.activate made time)
  root : job.merkleRoot? own.extranoncePrefix = some own.message.merkleRoot
  /-- The root is that of the coinbase of the group's job with this extranonce. -/
  commits : ∃ transaction,
    Commits (job.coinbase own.extranoncePrefix) own.extranoncePrefix
      job.message.merklePath.items own.message.merkleRoot transaction

theorem Counterpart.mono
    {received later : List (ExtendedJob × Bytes)}
    {job : ExtendedJob}
    {own : StandardJob}
    (counterpart : Counterpart received job own)
    (still : received ⊆ later) :
    Counterpart later job own :=
  { counterpart with
    received := by
      obtain ⟨made, member, since⟩ := counterpart.received
      exact ⟨made, still member, since⟩ }

/-- Being activated changes neither the coinbase nor the root. -/
theorem Counterpart.activate
    {received : List (ExtendedJob × Bytes)}
    {job : ExtendedJob}
    {own : StandardJob}
    (counterpart : Counterpart received job own)
    (time : UInt32) :
    Counterpart received (Job.activate job time) (Job.activate own time) where
  id := counterpart.id
  templateId := counterpart.templateId
  version := counterpart.version
  minNtime := rfl
  received := by
    obtain ⟨made, member, rfl | ⟨before, rfl⟩⟩ := counterpart.received
    · exact ⟨_, member, .inr ⟨time, rfl⟩⟩
    · exact ⟨made, member, .inr ⟨time, rfl⟩⟩
  root := counterpart.root
  commits := counterpart.commits

/-- A member can take every job that was put together from a template. -/
theorem exists_counterpart
    {received : List (ExtendedJob × Bytes)}
    {job : ExtendedJob}
    {draft : Draft}
    {template : TemplateDistribution.NewTemplate}
    (assembled : job.Assembled draft)
    (origin : job.origin = .template template)
    (channelId : UInt32)
    (extranoncePrefix : Bytes)
    (whole : extranoncePrefix.length = extranonceSize)
    (member : (job, extranoncePrefix) ∈ received) :
    ∃ own, job.toStandard channelId extranoncePrefix = .ok own ∧
      own.template = template ∧ Counterpart received job own := by
  obtain ⟨root, computed⟩ := assembled.exists_root extranoncePrefix whole
  refine ⟨_, (job.toStandard_eq_ok_iff channelId extranoncePrefix _).mpr
    ⟨template, root, origin, computed, rfl⟩, rfl, ?_⟩
  exact
    { id := rfl
      templateId := (congrArg JobOrigin.templateId origin).symm
      version := rfl
      minNtime := rfl
      received := ⟨job, member, .inl rfl⟩
      root := computed
      commits := ⟨_, assembled.commits extranoncePrefix whole root computed⟩ }

/-! ## Events -/

/-- A member has what its group has. -/
structure Follows
    (group : GroupChannel)
    (member : StandardChannel)
    (received : List (ExtendedJob × Bytes)) :
    Prop where
  whole : member.extranoncePrefix.length = extranonceSize
  tip : member.tip = group.tip
  jobs : JobStore.Mirrors (Counterpart received) group.jobs member.jobs

section Follows

variable
  {group : GroupChannel}
  {channel : StandardChannel}
  {received : List (ExtendedJob × Bytes)}
  (follows : Follows group channel received)

include follows

/-- A member takes the job that its group makes. -/
theorem Follows.groupJob
    {later : GroupChannel}
    {template : TemplateDistribution.NewTemplate}
    {rewards : List Output}
    {job : ExtendedJob}
    (made : group.newTemplate template rewards = (later, .ok job)) :
    ∃ member, channel.groupJob job = (member, .ok ()) ∧
      Follows later member ((job, channel.extranoncePrefix) :: received) := by
  obtain ⟨origin, ⟨draft, assembled⟩, tip, jobs⟩ := GroupChannel.newTemplate_ok _ _ _ _ _ made
  obtain ⟨own, converted, source, counterpart⟩ :=
    exists_counterpart assembled origin channel.id channel.extranoncePrefix follows.whole
      List.mem_cons_self
  have waits : Job.isFuture own = Job.isFuture job :=
    congrArg Option.isNone counterpart.minNtime
  have mirrors := follows.jobs.mono fun _ _ old =>
    old.mono (List.subset_cons_self (job, channel.extranoncePrefix) received)
  refine ⟨channel.addJob own.template.templateId own, ?_, follows.whole, ?_, ?_⟩
  · rw [StandardChannel.groupJob, converted]
  · rw [tip]
    exact follows.tip
  · rw [jobs, source]
    exact mirrors.add counterpart counterpart.id template.templateId waits

/-- A member finds a job that waits for a block exactly if its group does. -/
theorem Follows.setNewPrevHash (message : TemplateDistribution.SetNewPrevHash) :
    (Channel.setNewPrevHash channel message).2.isOk = (group.setNewPrevHash message).2.isOk ∧
      Follows (group.setNewPrevHash message).1
        (Channel.setNewPrevHash channel message).1 received := by
  have together := follows.jobs.activate? message.templateId message.headerTimestamp
    (fun _ _ both => both.id) (fun _ _ both => both.activate message.headerTimestamp)
  unfold Channel.setNewPrevHash GroupChannel.setNewPrevHash
  generalize group.jobs.activate? message.templateId message.headerTimestamp = later at together ⊢
  generalize channel.jobs.activate? message.templateId message.headerTimestamp = own at together ⊢
  cases together with
  | none => exact ⟨rfl, follows⟩
  | some mirrors => exact ⟨rfl, follows.whole, rfl, mirrors⟩

theorem Follows.setTip (tip : ChainTip) :
    Follows (group.setTip tip) (Channel.setTip channel tip) received :=
  ⟨follows.whole, rfl, follows.jobs⟩

/-- A member has a whole extranonce also when it tried to change it to another size. -/
theorem Follows.setExtranoncePrefix (extranoncePrefix : Bytes) :
    Follows group (channel.setExtranoncePrefix extranoncePrefix).1 received := by
  have exits := StandardChannel.restarts_setExtranoncePrefix channel extranoncePrefix
  generalize StandardChannel.setExtranoncePrefix channel extranoncePrefix = outcome at exits ⊢
  cases exits with
  | refused => exact follows
  | restarted whole => exact ⟨whole, follows.tip, follows.jobs⟩

end Follows

section Step

variable
  (crew : Crew ι)
  (received : ι → List (ExtendedJob × Bytes))
  (follow : ∀ member, Follows crew.group (crew.member member) (received member))

include follow

omit [DecidableEq ι] in
theorem unanimous_of_follows (event : Event ι) : crew.Unanimous event := by
  cases event with
  | newTemplate template rewards =>
    intro job made member
    obtain ⟨later, taken, -⟩ := (follow member).groupJob (Prod.ext rfl made)
    rw [taken]
    rfl
  | setNewPrevHash message => exact fun member => ((follow member).setNewPrevHash message).1
  | setTip | setExtranoncePrefix => trivial

theorem follows_after (event : Event ι) (member : ι) :
    Follows (crew.after event).group ((crew.after event).member member)
      ((crew.receipt? member event).toList ++ received member) := by
  cases event with
  | newTemplate template rewards =>
    rcases made : crew.group.newTemplate template rewards with ⟨later, failure | job⟩
    -- A group that makes no job hands out none, though its factory may have moved on.
    · obtain ⟨tip, jobs⟩ := GroupChannel.newTemplate_error _ _ _ _ _ made
      simp only [after, groupAfter, memberAfter, receipt?, made, Except.toOption, Option.map_none,
        Option.toList_none, List.nil_append]
      exact ⟨(follow member).whole, (follow member).tip.trans tip.symm,
        jobs ▸ (follow member).jobs⟩
    · obtain ⟨own, taken, follows⟩ := (follow member).groupJob made
      simp only [after, groupAfter, memberAfter, receipt?, made, taken, Except.toOption,
        Option.map_some, Option.toList_some, List.singleton_append]
      exact follows
  | setNewPrevHash message => exact ((follow member).setNewPrevHash message).2
  | setTip tip => exact (follow member).setTip tip
  | setExtranoncePrefix changing extranoncePrefix =>
    simp only [after, groupAfter, memberAfter, receipt?, Option.toList_none, List.nil_append]
    split
    · exact (follow member).setExtranoncePrefix extranoncePrefix
    · exact follow member

end Step

/-! ## Courses -/

theorem follows_of_new
    (id : UInt32)
    (tag : Option String)
    (opening : Channel.Opening)
    (group : GroupChannel)
    (member : StandardChannel)
    (created : GroupChannel.create id tag = .ok group)
    (opened : StandardChannel.create opening = .ok member) :
    Follows group member [] := by
  obtain ⟨noJobs, noTip, -⟩ := group.create_ok id tag created
  obtain ⟨target, rfl, whole⟩ := StandardChannel.create_ok opening member opened
  refine ⟨whole, noTip.symm, ?_⟩
  rw [noJobs]
  exact .of_empty _

/--
Members follow their group.  Whatever happens to a new group and its new members, the next
event succeeds at all of them or at none.  Each member has the chain tip of the group, waits
for the same templates under the same ids, and holds counterparts of the jobs of the group,
at the same stages and under the same ids.
-/
theorem members_in_lockstep
    (id : UInt32)
    (tag : Option String)
    (opening : ι → Channel.Opening)
    (crew : Crew ι)
    (created : GroupChannel.create id tag = .ok crew.group)
    (opened : ∀ member, StandardChannel.create (opening member) = .ok (crew.member member))
    (course : List (Event ι)) :
    (∀ event, (crew.run course).Unanimous event) ∧
    ∀ member,
      let received := crew.receipts member course
      let group := (crew.run course).group
      let channel := (crew.run course).member member
      channel.tip = group.tip ∧
      (∀ templateId, channel.jobs.futureId? templateId = group.jobs.futureId? templateId) ∧
      (∀ stage id, Option.Rel (Counterpart received)
        (group.jobs.at? stage id) (channel.jobs.at? stage id)) ∧
      Option.Rel (Counterpart received) group.jobs.active channel.jobs.active := by
  have follow : ∀ member,
      Follows (crew.run course).group ((crew.run course).member member)
        (crew.receipts member course) := by
    induction course with
    | nil => exact fun member => follows_of_new _ _ _ _ _ created (opened member)
    | cons event earlier ih => exact (crew.run earlier).follows_after _ ih event
  refine ⟨unanimous_of_follows _ _ follow, fun member => ?_⟩
  have follows := follow member
  exact ⟨follows.tip, follows.jobs.indexed, follows.jobs.held, follows.jobs.active⟩

/-- Two members with extranonces of their own. -/
def pairOpening (member : Bool) : Channel.Opening :=
  { AnyChannel.easyOpening with extranoncePrefix := List.replicate 32 (if member then 7 else 8) }

/-- A job is on the chain tip, and the next one is made when a member has another extranonce. -/
def pairCourse : List (Event Bool) :=
  [.setNewPrevHash ExtendedChannel.soloBlock,
   .newTemplate ExtendedChannel.soloTemplate [⟨50, [0x51]⟩],
   .setExtranoncePrefix true (List.replicate 32 9),
   .newTemplate AnyChannel.tipTemplate [⟨50, [0x51]⟩],
   .setTip AnyChannel.easyTip]

/-- The second job is active at the group and at both members. -/
theorem members_in_lockstep_pair :
    ∃ crew : Crew Bool, GroupChannel.create 2 none = .ok crew.group ∧
      (∀ member, StandardChannel.create (pairOpening member) = .ok (crew.member member)) ∧
      let now := crew.run pairCourse
      now.group.jobs.active.map Job.id = some 2 ∧ (∀ event, now.Unanimous event) ∧
      ∀ member, Option.Rel (Counterpart (crew.receipts member pairCourse))
        now.group.jobs.active (now.member member).jobs.active := by
  have computed :
      ((GroupChannel.create 2 none).toOption.any fun group =>
        (StandardChannel.create (pairOpening true)).toOption.any fun first =>
          (StandardChannel.create (pairOpening false)).toOption.any fun second =>
            let crew : Crew Bool := ⟨group, fun member => if member then first else second⟩
            (crew.run pairCourse).group.jobs.active.map Job.id == some 2) = true := by
    decide +kernel
  cases created : GroupChannel.create 2 none with
  | error failure =>
    rw [created] at computed
    cases computed
  | ok group =>
    cases opened : StandardChannel.create (pairOpening true) with
    | error failure =>
      rw [created, opened] at computed
      cases computed
    | ok first =>
      cases joined : StandardChannel.create (pairOpening false) with
      | error failure =>
        rw [created, opened, joined] at computed
        cases computed
      | ok second =>
        rw [created, opened, joined] at computed
        have opens : ∀ member, StandardChannel.create (pairOpening member) =
            .ok (if member then first else second) := by
          intro member
          cases member
          · exact joined
          · exact opened
        obtain ⟨unanimous, follow⟩ :=
          members_in_lockstep 2 none pairOpening
            ⟨group, fun member => if member then first else second⟩ created opens pairCourse
        exact ⟨_, rfl, opens, eq_of_beq computed, unanimous, fun member => (follow member).2.2.2⟩

end Crew

end MiningPool
