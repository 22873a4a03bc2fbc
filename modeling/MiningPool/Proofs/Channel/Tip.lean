import MiningPool.Proofs.Channel.Lifecycle

/-!
# Jobs and the chain tip

A share is judged on the chain tip of its channel, whichever job it is for.  That is the
tip the job was made active on, because whatever moves the tip makes the jobs before
stale.  When a block is found, the waiting job of its template is the only one left that
shares may name.
-/

namespace MiningPool.ExtendedChannel

open MiningPool.Bitcoin MiningPool.Wire MiningPool.Message

/-- The hash of the block that shares of a channel build on. -/
def prevHash? (channel : ExtendedChannel) : Option (Blob .u256) :=
  channel.tip.map ChainTip.prevHash

/-- The chain tip is set from outside only as long as no job is active. -/
def Disciplined (channel : ExtendedChannel) : List Operation → Prop
  | [] => True
  | .setTip _ :: earlier => (channel.run earlier).jobs.active = none ∧ channel.Disciplined earlier
  | _ :: earlier => channel.Disciplined earlier

/-- The job that an operation makes active. -/
def activated? (channel : ExtendedChannel) : Operation → Option ExtendedJob
  | .newTemplate template rewards =>
    (channel.created? (.newTemplate template rewards)).filter fun job => !Job.isFuture job
  | .setCustomJob request => channel.created? (.setCustomJob request)
  | .setNewPrevHash message =>
    (channel.jobs.activate? message.templateId message.headerTimestamp).bind JobStore.active
  | _ => none

/-- In the course of a history a job was made active on the block that is built on now. -/
def ActiveSince (channel : ExtendedChannel) (history : List Operation) (job : ExtendedJob) : Prop :=
  ∃ later operation earlier, history = later ++ operation :: earlier ∧
    (channel.run earlier).activated? operation = some job ∧
    (channel.run (operation :: earlier)).jobs.active = some job ∧
    (channel.run (operation :: earlier)).prevHash? = (channel.run history).prevHash?

/-- What a channel guarantees of the jobs that shares may name. -/
structure Grounded (channel : ExtendedChannel) (history : List Operation) : Prop where
  /-- No job is active without a chain tip. -/
  tip : (channel.run history).jobs.active ≠ none → (channel.run history).tip ≠ none
  /-- The first job that becomes active is followed by another one at any time. -/
  begun : (channel.run history).jobs.active = none →
    ∀ id, (channel.run history).jobs.at? .past id = none
  active : ∀ job, (channel.run history).jobs.active = some job → channel.ActiveSince history job
  past : ∀ id job,
    (channel.run history).jobs.at? .past id = some job → channel.ActiveSince history job

variable {channel : ExtendedChannel}

theorem ActiveSince.cons
    {earlier : List Operation}
    {job : ExtendedJob}
    (before : channel.ActiveSince earlier job)
    (operation : Operation)
    (same : (channel.run (operation :: earlier)).prevHash? = (channel.run earlier).prevHash?) :
    channel.ActiveSince (operation :: earlier) job := by
  obtain ⟨later, activation, start, rfl, activated, active, hash⟩ := before
  exact ⟨operation :: later, activation, start, rfl, activated, active, hash.trans same.symm⟩

theorem activeSince_active
    (operation : Operation)
    (earlier : List Operation)
    (job : ExtendedJob)
    (activated : (channel.run earlier).activated? operation = some job)
    (active : (channel.run (operation :: earlier)).jobs.active = some job)
    (held : ExtendedJob)
    (running : (channel.run (operation :: earlier)).jobs.active = some held) :
    channel.ActiveSince (operation :: earlier) held := by
  obtain rfl := Option.some.inj (active.symm.trans running)
  exact ⟨[], operation, earlier, rfl, activated, active, rfl⟩

/-! ## Turns -/

/-- What an operation can do to the jobs that shares may name, and to the chain tip. -/
inductive Turn (channel : ExtendedChannel) (operation : Operation) (later : ExtendedChannel) : Prop
  | stays
      (active : later.jobs.active = channel.jobs.active)
      (past : ∀ id, later.jobs.at? .past id = channel.jobs.at? .past id)
      (tip : later.tip = channel.tip)
  | tipped
      (tip : ChainTip)
      (set : operation = .setTip tip)
      (jobs : later.jobs = channel.jobs)
  /-- Another job becomes active, and the one before is past. -/
  | follows
      (job : ExtendedJob)
      (activated : channel.activated? operation = some job)
      (active : later.jobs.active = some job)
      (past : ∀ id, later.jobs.at? .past id =
        (channel.jobs.at? .active id).or (channel.jobs.at? .past id))
      (tip : later.tip ≠ none)
      (hash : later.prevHash? = channel.prevHash?)
  /-- A job becomes active on another block. -/
  | moves
      (job : ExtendedJob)
      (activated : channel.activated? operation = some job)
      (active : later.jobs.active = some job)
      (past : ∀ id, later.jobs.at? .past id = none)
      (tip : later.tip ≠ none)

theorem Change.turn
    {channel later : ExtendedChannel}
    {operation : Operation}
    (change : Change channel operation later) :
    Turn channel operation later := by
  cases change with
  | kept _ _ nothing jobs tip factory =>
    exact .stays (by rw [jobs]) (fun id => by rw [jobs]) tip
  | tipped tip _ jobs tip_eq factory => exact .tipped tip rfl jobs
  | waiting template rewards job _ created future makes jobs tip =>
    refine .stays ?_ ?_ tip
    · rw [jobs]
      rfl
    · intro id
      rw [jobs]
      rfl
  | running template rewards job tip _ created current makes jobs known tip_eq =>
    have runs : Job.isFuture job = false := by
      rw [Job.isFuture, makes.minNtime_eq]
      rfl
    refine .follows job ?_ ?_ ?_ ?_ ?_
    · simp only [activated?, created, Option.filter_some, runs, Bool.not_false, if_true]
    · rw [jobs]
      rfl
    · intro id
      rw [jobs, JobStore.at?_addActive]
    · simp [tip_eq, known]
    · rw [prevHash?, tip_eq, prevHash?]
  | custom request job _ created makes jobs tip =>
    by_cases moved : channel.movesTip (.ofCustomJob request)
    · rw [if_pos moved] at jobs
      refine .moves job created ?_ ?_ (by simp [tip])
      · rw [jobs]
        rfl
      · intro id
        rw [jobs, JobStore.at?_markPastStale]
    · rw [if_neg moved] at jobs
      refine .follows job created ?_ ?_ (by simp [tip]) ?_
      · rw [jobs]
        rfl
      · intro id
        rw [jobs, JobStore.at?_addActive]
      · cases before : channel.tip with
        | none => simp [movesTip, before] at moved
        | some known =>
          simp only [movesTip, before, ne_eq, decide_not, Bool.not_eq_true, Bool.not_eq_false',
            decide_eq_true_eq] at moved
          simp [prevHash?, tip, before, moved]
  | activated message _ jobs tip factory =>
    obtain ⟨id, job, known, waiting, active, forgotten, places⟩ :=
      JobStore.activate?_eq_some _ _ _ _ jobs
    refine .moves _ ?_ active (fun other => places .past other) (by simp [tip])
    simp only [activated?, jobs, Option.bind_some, active]

theorem Grounded.step
    {earlier : List Operation}
    (grounded : channel.Grounded earlier)
    (operation : Operation)
    (disciplined : channel.Disciplined (operation :: earlier)) :
    channel.Grounded (operation :: earlier) := by
  have turn : Turn (channel.run earlier) operation (channel.run (operation :: earlier)) :=
    (change_after (channel.run earlier) operation).turn
  cases turn with
  | stays active past tip =>
    have hash :
        (channel.run (operation :: earlier)).prevHash? = (channel.run earlier).prevHash? := by
      rw [prevHash?, tip, prevHash?]
    refine ⟨?_, ?_, ?_, ?_⟩
    · rw [active, tip]
      exact grounded.tip
    · intro idle id
      rw [past]
      exact grounded.begun (active ▸ idle) id
    · intro job held
      exact (grounded.active job (active ▸ held)).cons operation hash
    · intro id job held
      exact (grounded.past id job (past id ▸ held)).cons operation hash
  | tipped tip set jobs =>
    subst set
    have idle : (channel.run (.setTip tip :: earlier)).jobs.active = none := by
      rw [jobs]
      exact disciplined.1
    have begun : ∀ id, (channel.run (.setTip tip :: earlier)).jobs.at? .past id = none := by
      rw [jobs]
      exact grounded.begun disciplined.1
    refine ⟨fun running => absurd idle running, fun _ => begun, ?_, ?_⟩
    · intro job held
      rw [idle] at held
      cases held
    · intro id job held
      rw [begun] at held
      cases held
  | follows job activated active past tip hash =>
    refine ⟨fun _ => tip, ?_, ?_, ?_⟩
    · intro idle
      rw [active] at idle
      cases idle
    · exact activeSince_active operation earlier job activated active
    · intro id held gone
      rw [past] at gone
      rcases Option.or_eq_some_iff.mp gone with before | ⟨-, before⟩
      · exact (grounded.active held ((JobStore.at?_active _ _ _).mp before).1).cons operation hash
      · exact (grounded.past id held before).cons operation hash
  | moves job activated active past tip =>
    refine ⟨fun _ => tip, ?_, ?_, ?_⟩
    · intro idle
      rw [active] at idle
      cases idle
    · exact activeSince_active operation earlier job activated active
    · intro id held gone
      rw [past] at gone
      cases gone

theorem Disciplined.tail
    {operation : Operation}
    {earlier : List Operation}
    (disciplined : channel.Disciplined (operation :: earlier)) :
    channel.Disciplined earlier := by
  cases operation with
  | setTip tip => exact disciplined.2
  | newTemplate | setNewPrevHash | setCustomJob | setExtranoncePrefix | update | validateShare =>
    exact disciplined

/-- A share is judged for a job that runs, and on the chain tip of the channel. -/
theorem Grounded.judged
    {history : List Operation}
    (grounded : channel.Grounded history)
    (submitted : Mining.SubmitSharesExtended)
    (job : ExtendedJob)
    (found : (channel.run history).jobs.forShare submitted.jobId = .ok job) :
    channel.ActiveSince history job := by
  rw [JobStore.forShare_eq] at found
  split at found
  · cases found
  · split at found
    · cases found
    next runs =>
      cases found
      rcases Option.or_eq_some_iff.mp runs with active | ⟨-, past⟩
      · exact grounded.active job ((JobStore.at?_active _ _ _).mp active).1
      · exact grounded.past _ job past

theorem validateShare_of_unfound
    (channel : ExtendedChannel)
    (submitted : Mining.SubmitSharesExtended)
    (failure : ShareError)
    (unfound : channel.jobs.forShare submitted.jobId = .error failure) :
    channel.validateShare submitted = (channel, .error failure) := by
  rw [validateShare, unfound]

end MiningPool.ExtendedChannel
