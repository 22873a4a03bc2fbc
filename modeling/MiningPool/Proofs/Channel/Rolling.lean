import MiningPool.Proofs.Channel.Course

/-!
# Rolling the version

What a channel asks of the version of a share is that nothing is rolled where the job
does not allow it.  Of the bits outside those that may be rolled and of the time it asks
nothing: a share is examined without them, and then judged by its hash.
-/

namespace MiningPool

open MiningPool.Bitcoin MiningPool.Wire MiningPool.Message

/-- The same share with another version and time. -/
def Submission.altered (version ntime : UInt32) : Submission → Submission
  | standard share => .standard { share with version, ntime }
  | extended share => .extended { share with version, ntime }

/-- Another version and time do not change who is told of a refusal. -/
theorem Submission.refusal_altered (submission : Submission) (version ntime : UInt32) :
    (submission.altered version ntime).refusal = submission.refusal := by
  cases submission <;> rfl

/-- The same candidate with another version and time. -/
def Candidate.altered (version ntime : UInt32) (candidate : Candidate) : Candidate :=
  { candidate with share := { candidate.share with version, ntime } }

theorem ExtendedChannel.examine_altered
    (channel : ExtendedChannel)
    (share : Mining.SubmitSharesExtended)
    (version ntime : UInt32)
    (same : version &&& versionRollingMask = share.version &&& versionRollingMask) :
    channel.examine { share with version, ntime } =
      (channel.examine share).map (Candidate.altered version ntime) := by
  unfold examine extranonceOf
  dsimp only
  rw [same]
  cases channel.jobs.forShare share.jobId with
  | error => rfl
  | ok job =>
    dsimp only
    by_cases size : (job.extranoncePrefix ++ share.extranonce.bytes).length ≠ extranonceSize
    · rw [if_pos size, if_pos size]
      rfl
    · rw [if_neg size, if_neg size]
      cases job.merkleRoot? (job.extranoncePrefix ++ share.extranonce.bytes) with
      | none => rfl
      | some merkleRoot =>
        cases channel.tip with
        | none => rfl
        | some tip =>
          dsimp only
          cases !job.message.versionRollingAllowed &&
            share.version &&& versionRollingMask != 0 <;> rfl

theorem StandardChannel.examine_altered
    (channel : StandardChannel)
    (share : Mining.SubmitSharesStandard)
    (version ntime : UInt32) :
    StandardChannel.examine channel { share with version, ntime } =
      (StandardChannel.examine channel share).map (Candidate.altered version ntime) := by
  unfold StandardChannel.examine
  cases channel.jobs.forShare share.jobId with
  | error => rfl
  | ok job => cases channel.tip <;> rfl

/-- Looking up a job fails for no other reason than the job. -/
theorem JobStore.forShare_error
    {J : Type}
    [Job J]
    (store : JobStore J)
    (id : UInt32)
    (failure : ShareError)
    (failed : store.forShare id = .error failure) :
    failure = .stale ∨ failure = .unknownJob := by
  unfold forShare at failed
  split at failed
  · exact .inl (Except.error.inj failed).symm
  · split at failed
    · exact .inr (Except.error.inj failed).symm
    · cases failed

theorem StandardChannel.examine_ne_rolled
    (channel : StandardChannel)
    (share : Mining.SubmitSharesStandard) :
    StandardChannel.examine channel share ≠ .error .versionRollingNotAllowed := by
  intro refused
  unfold StandardChannel.examine at refused
  split at refused
  next failure unfound =>
    obtain rfl := Except.error.inj refused
    rcases channel.jobs.forShare_error _ _ unfound with other | other <;> cases other
  · split at refused <;> cases refused

theorem ExtendedChannel.rolled_of_examine
    (channel : ExtendedChannel)
    (share : Mining.SubmitSharesExtended)
    (refused : channel.examine share = .error .versionRollingNotAllowed) :
    ∃ job, channel.jobs.forShare share.jobId = .ok job ∧
      job.message.versionRollingAllowed = false ∧
      share.version &&& versionRollingMask ≠ 0 := by
  unfold examine at refused
  split at refused
  next failure unfound =>
    obtain rfl := Except.error.inj refused
    rcases channel.jobs.forShare_error _ _ unfound with other | other <;> cases other
  next job found =>
    refine ⟨job, found, ?_⟩
    split at refused
    · cases refused
    · split at refused
      · cases refused
      · split at refused
        · cases refused
        · split at refused
          next rolled => simpa using rolled
          next => cases refused

/-- A share that passes is refused once it rolls a bit of a job that allows no rolling. -/
theorem ExtendedChannel.examine_of_rolled
    (channel : ExtendedChannel)
    (share : Mining.SubmitSharesExtended)
    (candidate : Candidate)
    (passes : channel.examine share = .ok candidate)
    (job : ExtendedJob)
    (found : channel.jobs.forShare share.jobId = .ok job)
    (forbidden : job.message.versionRollingAllowed = false)
    (version ntime : UInt32)
    (rolls : version &&& versionRollingMask ≠ 0) :
    channel.examine { share with version, ntime } = .error .versionRollingNotAllowed := by
  have rolled : (!job.message.versionRollingAllowed &&
      version &&& versionRollingMask != 0) = true := by
    simp [forbidden, rolls]
  unfold examine extranonceOf at passes ⊢
  dsimp only at passes ⊢
  rw [found] at passes ⊢
  dsimp only at passes ⊢
  split at passes
  · cases passes
  next size =>
    rw [if_neg size]
    split at passes
    · cases passes
    next merkleRoot root =>
      split at passes
      · cases passes
      next tip known => exact if_pos rolled

namespace AnyChannel

/-- Shares are examined without their time and the bits that are not rolled. -/
theorem examine_altered
    (channel : AnyChannel)
    (submission : Submission)
    (version ntime : UInt32)
    (same : version &&& versionRollingMask = submission.version &&& versionRollingMask) :
    channel.examine (submission.altered version ntime) =
      (channel.examine submission).map (Candidate.altered version ntime) := by
  cases channel with
  | group => rfl
  | standard channel =>
    cases submission with
    | extended => rfl
    | standard share =>
      simp only [examine, Submission.altered, StandardChannel.examine_altered]
      cases StandardChannel.examine channel share <;> rfl
  | extended channel =>
    cases submission with
    | standard => rfl
    | extended share =>
      simp only [examine, Submission.altered, channel.examine_altered share version ntime same]
      cases channel.examine share <;> rfl

section Altered

variable
  {channel : AnyChannel}
  {submission : Submission}
  {version ntime : UInt32}
  (same : version &&& versionRollingMask = submission.version &&& versionRollingMask)

include same

/-- A share that is refused before its header is hashed is refused with any such header. -/
theorem validateShare_altered_of_refused
    (refusal : Refusal)
    (examined : channel.examine submission = .error refusal) :
    channel.validateShare (submission.altered version ntime) = (channel, .error refusal) := by
  refine channel.validateShare_of_refused _ refusal ?_
  rw [channel.examine_altered submission version ntime same, examined]
  rfl

/-- Otherwise the hash of the header that it completes decides, and nothing else of it. -/
theorem validateShare_altered_of_examined
    (candidate : Candidate)
    (examined : channel.examine submission = .ok candidate) :
    ∃ shares target judged,
      channel.accounting? = some shares ∧
      channel.target? = some target ∧
      (candidate.altered version ntime).Verdict shares target judged ∧
      channel.validateShare (submission.altered version ntime) =
        (channel.withShares judged.1, judged.2.mapError submission.refusal) := by
  obtain ⟨shares, target, known, aimed⟩ :=
    channel.remembered_of_examined submission candidate examined
  have passes : channel.examine (submission.altered version ntime) =
      .ok (candidate.altered version ntime) := by
    rw [channel.examine_altered submission version ntime same, examined]
    rfl
  have done := validateShare_of_examined passes known aimed
  rw [submission.refusal_altered version ntime] at done
  exact ⟨shares, target, _, known, aimed,
    (candidate.altered version ntime).verdict_judged shares target, done⟩

end Altered

/-- A share is refused for its version only where something is rolled that may not be. -/
theorem rolled_of_refused
    (channel : AnyChannel)
    (submission : Submission)
    (refused : (channel.validateShare submission).2 =
      .error (submission.refusal .versionRollingNotAllowed)) :
    ∃ job, channel.running? submission.jobId = some job ∧
      job.versionRollingAllowed = false ∧
      submission.version &&& versionRollingMask ≠ 0 := by
  have examined : channel.examine submission =
      .error (submission.refusal .versionRollingNotAllowed) := by
    have validates := channel.validates_validateShare submission
    generalize channel.validateShare submission = result at validates refused
    cases validates with
    | refused refusal examined =>
      obtain rfl := Except.error.inj refused
      exact examined
    | judged candidate shares target =>
      have verdict := candidate.verdict_judged shares target
      generalize candidate.judged shares target = judged at verdict refused
      cases verdict <;> cases refused
  cases channel with
  | group => cases examined
  | standard channel =>
    cases submission with
    | extended => cases examined
    | standard share =>
      cases failed : StandardChannel.examine channel share with
      | ok =>
        rw [examine, failed] at examined
        cases examined
      | error failure =>
        rw [examine, failed] at examined
        obtain ⟨-, -, same⟩ := Refusal.share.inj (Except.error.inj examined)
        exact absurd (same ▸ failed) (StandardChannel.examine_ne_rolled channel share)
  | extended channel =>
    cases submission with
    | standard => cases examined
    | extended share =>
      cases failed : channel.examine share with
      | ok =>
        rw [examine, failed] at examined
        cases examined
      | error failure =>
        rw [examine, failed] at examined
        obtain ⟨-, -, same⟩ := Refusal.share.inj (Except.error.inj examined)
        obtain ⟨job, found, rest⟩ := channel.rolled_of_examine share (same ▸ failed)
        refine ⟨.inr job, ?_, rest⟩
        simp only [running?, Submission.jobId, found, Except.toOption, Option.map_some]

/-- Conversely, rolling a bit that may not be rolled makes a share refused that passed. -/
theorem refused_of_rolled
    (channel : AnyChannel)
    (submission : Submission)
    (candidate : Candidate)
    (examined : channel.examine submission = .ok candidate)
    (job : AnyJob)
    (found : channel.running? submission.jobId = some job)
    (forbidden : job.versionRollingAllowed = false)
    (version ntime : UInt32)
    (rolls : version &&& versionRollingMask ≠ 0) :
    channel.validateShare (submission.altered version ntime) =
      (channel, .error (submission.refusal .versionRollingNotAllowed)) := by
  refine channel.validateShare_of_refused _ _ ?_
  cases channel with
  | group => cases examined
  | standard channel =>
    obtain ⟨own, -, rfl⟩ := Option.map_eq_some_iff.mp found
    cases forbidden
  | extended channel =>
    cases submission with
    | standard => cases examined
    | extended share =>
      obtain ⟨own, known, rfl⟩ := Option.map_eq_some_iff.mp found
      cases looked : channel.jobs.forShare share.jobId with
      | error failure =>
        rw [Submission.jobId, looked] at known
        cases known
      | ok other =>
        rw [Submission.jobId, looked] at known
        cases known
        rw [Submission.altered, examine, channel.examine_of_rolled share candidate
          (ok_of_mapError examined) own looked forbidden version ntime rolls]
        rfl

/-- An opening of an extended channel on the easy chain. -/
def rigidOpening : Channel.Opening :=
  { easyOpening with extranoncePrefix := [7] }

/-- A share of the job on the easy chain. -/
def rigidShare (version ntime : UInt32) : Submission :=
  .extended
    { channelId := 1
      sequenceNumber := 1
      jobId := 1
      nonce := 0
      ntime
      version
      extranonce := ⟨List.replicate 31 0, by decide⟩ }

/-- Where every hash meets the target, a share is accepted once it completes a header. -/
theorem accepted_of_easiest
    (channel : AnyChannel)
    (submission : Submission)
    (candidate : Candidate)
    (shares : ShareAccounting)
    (examined : channel.examine submission = .ok candidate)
    (known : channel.accounting? = some shares)
    (aimed : channel.target? = some .easiest)
    (unseen : ∀ hash, shares.hasSeen hash = false) :
    ∃ outcome, (channel.validateShare submission).2 = .ok outcome := by
  by_cases found : candidate.IsBlock
  · obtain ⟨later, done, -⟩ := validateShare_of_block examined known aimed found
    exact ⟨_, congrArg Prod.snd done⟩
  · have within : ¬ Target.easiest < candidate.hash :=
      Nat.not_lt.mpr (Nat.le_sub_one_of_lt (Target.isLt _))
    obtain ⟨later, done, -⟩ :=
      validateShare_of_new examined known aimed found within (unseen _)
    exact ⟨_, congrArg Prod.snd done⟩

/-- Whether a channel on the easy chain is new and has a job that allows no rolling. -/
def startsRigid (channel : AnyChannel) : Bool :=
  (channel.running? 1).any (fun job =>
    job.version == 0x20000000 && !job.versionRollingAllowed &&
      Job.minNtime job == some 1700000000) &&
  (channel.examine (rigidShare 0 0)).toOption.isSome &&
  channel.target? == some .easiest &&
  channel.accounting?.any fun shares => shares.seen.isEmpty

/-- On the easy chain, a job forbids rolling; a share that rolls nothing is accepted. -/
theorem exists_rigid :
    ∃ opened job outcome, Opened opened ∧
      let channel := opened.run easyCourse
      channel.running? 1 = some job ∧
      job.version = 0x20000000 ∧
      job.versionRollingAllowed = false ∧
      Job.minNtime job = some 1700000000 ∧
      (channel.validateShare (rigidShare 0 0)).2 = .ok outcome ∧
      (channel.validateShare (rigidShare 0x20002000 0)).2 =
        .error ((rigidShare 0x20002000 0).refusal .versionRollingNotAllowed) := by
  have computed :
      (createExtended rigidOpening false 4).toOption.any
        (fun opened => (opened.run easyCourse).startsRigid) = true := by
    decide +kernel
  cases done : createExtended rigidOpening false 4 with
  | error failure =>
    rw [done] at computed
    cases computed
  | ok opened =>
    rw [done] at computed
    have rigid : (opened.run easyCourse).startsRigid = true := computed
    have opens : Opened opened := .extended rigidOpening false 4 opened done
    generalize run_eq : opened.run easyCourse = channel at rigid
    simp only [startsRigid, Bool.and_eq_true, Option.any_eq_true, beq_iff_eq,
      Bool.not_eq_true', Option.isSome_iff_exists] at rigid
    obtain ⟨⟨⟨⟨job, found, ⟨version, forbidden⟩, time⟩, candidate, passes⟩, aimed⟩, shares, known,
      unseen⟩ := rigid
    have examined : channel.examine (rigidShare 0 0) = .ok candidate := by
      cases result : channel.examine (rigidShare 0 0) with
      | error refusal =>
        rw [result] at passes
        cases passes
      | ok other =>
        rw [result] at passes
        cases passes
        rfl
    obtain ⟨outcome, accepted⟩ := channel.accepted_of_easiest (rigidShare 0 0) candidate shares
      examined known aimed (fun hash => Std.TreeSet.contains_of_isEmpty unseen)
    have refused := channel.refused_of_rolled (rigidShare 0 0) candidate examined job found
      forbidden 0x20002000 0 (by decide)
    refine ⟨opened, job, outcome, opens, ?_⟩
    simp only [run_eq]
    exact ⟨found, version, forbidden, time, accepted, congrArg Prod.snd refused⟩

/--
What shares may roll.  A share that is accepted for a job that allows no rolling, and has
none of the bits that may be rolled in its own version, has none of them either.  Only a
job that allows no rolling makes a share refused for its version, and not if the share
leaves the version of a job without such bits as it is.  The time and the other bits of
the version are not looked at before the header is hashed: with others a share is refused
for the same reason, or it completes the header that they make, and the hash of this header
decides.
-/
theorem rolling_respected (channel : AnyChannel) (submission : Submission) :
    (∀ outcome, (channel.validateShare submission).2 = .ok outcome →
      ∃ job, channel.running? submission.jobId = some job ∧
        (job.versionRollingAllowed = false → job.version &&& versionRollingMask = 0 →
          submission.version &&& versionRollingMask = job.version &&& versionRollingMask)) ∧
    ((channel.validateShare submission).2 =
        .error (submission.refusal .versionRollingNotAllowed) →
      ∃ job, channel.running? submission.jobId = some job ∧
        job.versionRollingAllowed = false ∧
        (job.version &&& versionRollingMask = 0 → submission.version ≠ job.version)) ∧
    ∀ version ntime,
      version &&& versionRollingMask = submission.version &&& versionRollingMask →
        channel.examine (submission.altered version ntime) =
          (channel.examine submission).map (Candidate.altered version ntime) ∧
        (∀ refusal, channel.examine submission = .error refusal →
          channel.validateShare (submission.altered version ntime) =
            (channel, .error refusal)) ∧
        ∀ candidate, channel.examine submission = .ok candidate →
          ∃ shares target judged,
            channel.accounting? = some shares ∧
            channel.target? = some target ∧
            (candidate.altered version ntime).Verdict shares target judged ∧
            channel.validateShare (submission.altered version ntime) =
              (channel.withShares judged.1, judged.2.mapError submission.refusal) := by
  refine ⟨?_, ?_, fun version ntime same =>
    ⟨channel.examine_altered submission version ntime same,
      validateShare_altered_of_refused same, validateShare_altered_of_examined same⟩⟩
  · intro outcome accepted
    obtain ⟨candidate, examined⟩ := channel.examined_of_accepted submission outcome accepted
    obtain ⟨job, completes⟩ := channel.completes_examine submission candidate examined
    refine ⟨job, completes.found, fun forbidden plain => ?_⟩
    rcases completes.rolling with allowed | unrolled
    · rw [forbidden] at allowed
      cases allowed
    · rw [unrolled, plain]
  · intro refused
    obtain ⟨job, found, forbidden, rolled⟩ := channel.rolled_of_refused submission refused
    refine ⟨job, found, forbidden, fun plain same => rolled ?_⟩
    rw [same, plain]

/-- A share that rolls nothing is accepted, and one that rolls a bit is refused. -/
theorem rolling_respected_easy :
    ∃ opened job, Opened opened ∧
      let channel := opened.run easyCourse
      channel.running? 1 = some job ∧
      job.versionRollingAllowed = false ∧
      (rigidShare 0 0).version &&& versionRollingMask = job.version &&& versionRollingMask ∧
      (rigidShare 0x20002000 0).version ≠ job.version ∧
      channel.examine ((rigidShare 0 0).altered 0x20000000 1700000000) =
        (channel.examine (rigidShare 0 0)).map (Candidate.altered 0x20000000 1700000000) := by
  obtain ⟨opened, job, outcome, opens, found, version, forbidden, -, accepted, refused⟩ :=
    exists_rigid
  have plain : job.version &&& versionRollingMask = 0 := by
    rw [version]
    decide
  obtain ⟨agrees, -, unexamined⟩ := rolling_respected (opened.run easyCourse) (rigidShare 0 0)
  obtain ⟨same, foundSame, rolled⟩ := agrees outcome accepted
  obtain rfl := Option.some.inj (found.symm.trans foundSame)
  obtain ⟨other, foundOther, -, differs⟩ :=
    (rolling_respected (opened.run easyCourse) (rigidShare 0x20002000 0)).2.1 refused
  obtain rfl := Option.some.inj (found.symm.trans foundOther)
  exact ⟨opened, job, opens, found, forbidden, rolled forbidden plain, differs plain,
    (unexamined 0x20000000 1700000000 (by decide)).1⟩

/-- Neither the time nor the bits that are not rolled are those of the job. -/
theorem time_and_bits_unchecked :
    ∃ opened job outcome, Opened opened ∧
      let channel := opened.run easyCourse
      let submission := rigidShare 0 0
      channel.running? submission.jobId = some job ∧
      job.versionRollingAllowed = false ∧
      (channel.validateShare submission).2 = .ok outcome ∧
      submission.version &&& ~~~versionRollingMask ≠ job.version &&& ~~~versionRollingMask ∧
      ∃ time, Job.minNtime job = some time ∧ submission.ntime < time := by
  obtain ⟨opened, job, outcome, opens, found, version, forbidden, time, accepted, -⟩ :=
    exists_rigid
  refine ⟨opened, job, outcome, opens, found, forbidden, accepted, ?_, _, time, by decide⟩
  rw [version]
  decide

end AnyChannel

end MiningPool
