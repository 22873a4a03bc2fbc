import MiningPool.Proofs.Channel.Course

/-!
# Shares count once

As long as the chain tip stays, a channel remembers the hash of every share that it
accepted, and a share of the same hash changes nothing any more.  Blocks are an
exception: a share that is a block is accepted whether or not its hash was seen.
-/

namespace MiningPool.AnyChannel

open MiningPool.Bitcoin MiningPool.Wire MiningPool.Message

/-- The chain tip stays all through a course. -/
def Steady (channel : AnyChannel) : List Operation → Prop
  | [] => True
  | operation :: earlier => (channel.run earlier).KeepsTip operation ∧ channel.Steady earlier

theorem tip_run
    (channel : AnyChannel)
    (course : List Operation)
    (steady : channel.Steady course) :
    (channel.run course).tip = channel.tip := by
  induction course with
  | nil => rfl
  | cons operation earlier ih => exact steady.1.tip_eq.trans (ih steady.2)

/-- What was seen on the chain tip stays seen. -/
theorem Entry.seen
    {channel later : AnyChannel}
    {shares remembered : ShareAccounting}
    {operation : Operation}
    (entry : Entry channel shares operation later)
    (keeps : channel.KeepsTip operation)
    (known : channel.accounting? = some shares)
    (after : later.accounting? = some remembered)
    (hash : Nat)
    (seen : shares.hasSeen hash = true) :
    remembered.hasSeen hash = true := by
  cases entry with
  | kept _ _ uncredited same =>
    obtain rfl := Option.some.inj (same.symm.trans after)
    exact seen
  | forgot _ _ uncredited moved => exact absurd keeps moved
  | credited submission candidate target counted outcome examined aimed accepted counts =>
    obtain rfl := Option.some.inj ((channel.accounting?_withShares _ _ known).symm.trans after)
    rw [counts.seen, seen, Bool.or_true]

theorem seen_run
    (channel : AnyChannel)
    (shares remembered : ShareAccounting)
    (course : List Operation)
    (steady : channel.Steady course)
    (known : channel.accounting? = some shares)
    (after : (channel.run course).accounting? = some remembered)
    (hash : Nat)
    (seen : shares.hasSeen hash = true) :
    remembered.hasSeen hash = true := by
  induction course generalizing remembered with
  | nil =>
    obtain rfl := Option.some.inj (known.symm.trans after)
    exact seen
  | cons operation earlier ih =>
    obtain ⟨before, middle⟩ := channel.accounting?_run shares known earlier
    exact ((channel.run earlier).entry_after before middle operation).seen steady.1 middle after
      hash (ih before steady.2 middle)

theorem steady_shares (channel : AnyChannel) (submissions : List Submission) :
    channel.Steady (submissions.map .validateShare) := by
  induction submissions with
  | nil => trivial
  | cons submission earlier ih => exact ⟨keepsTip_validateShare _ submission, ih⟩

theorem target?_run
    (channel : AnyChannel)
    (course : List Operation)
    (untuned : ∀ hashRate maxTarget, .update hashRate maxTarget ∉ course) :
    (channel.run course).target? = channel.target? := by
  induction course with
  | nil => rfl
  | cons operation earlier ih =>
    refine ((channel.run earlier).target?_after operation ?_).trans (ih ?_)
    · rintro hashRate maxTarget rfl
      exact untuned hashRate maxTarget List.mem_cons_self
    · intro hashRate maxTarget member
      exact untuned hashRate maxTarget (List.mem_cons_of_mem _ member)

section Again

variable
  {channel : AnyChannel}
  {first again : Submission}
  {candidate repeated : Candidate}
  {course : List Operation}
  (examined : channel.examine first = .ok candidate)
  (steady : (channel.after (.validateShare first)).Steady course)

include examined steady

/-- The hash of a share that was accepted stays seen. -/
theorem seen_of_accepted
    (outcome : ShareOutcome)
    (accepted : (channel.validateShare first).2 = .ok outcome) :
    ∃ latest, ((channel.after (.validateShare first)).run course).accounting? = some latest ∧
      latest.hasSeen candidate.hash.value = true := by
  obtain ⟨shares, target, known, aimed⟩ :=
    channel.remembered_of_examined first candidate examined
  obtain ⟨later, done, counted, -⟩ :=
    counted_of_accepted examined known aimed outcome accepted
  have remembered : (channel.after (.validateShare first)).accounting? = some later := by
    rw [after, done]
    exact channel.accounting?_withShares shares later known
  obtain ⟨latest, stillKnown⟩ := accounting?_run _ later remembered course
  refine ⟨latest, stillKnown, seen_run _ later latest course steady remembered stillKnown _ ?_⟩
  rw [counted.seen, beq_self_eq_true, Bool.true_or]

/-- Two shares of one hash are both blocks or neither is. -/
theorem isBlock_iff_of_same
    (reexamined : ((channel.after (.validateShare first)).run course).examine again = .ok repeated)
    (same : repeated.hash = candidate.hash) :
    repeated.IsBlock ↔ candidate.IsBlock := by
  obtain ⟨job, completes⟩ := channel.completes_examine first candidate examined
  obtain ⟨other, recompletes⟩ := completes_examine _ again repeated reexamined
  have tip : ((channel.after (.validateShare first)).run course).tip = channel.tip :=
    ((channel.after (.validateShare first)).tip_run course steady).trans
      (channel.keepsTip_validateShare first).tip_eq
  have sameTip : repeated.tip = candidate.tip :=
    Option.some.inj (recompletes.tip.symm.trans (tip.trans completes.tip))
  rw [Candidate.IsBlock, Candidate.IsBlock, same, sameTip]

end Again

/--
A share that is no block counts once.  After it was accepted, and in whatever course that
leaves the chain tip as it is, every share with the same hash is rejected as a duplicate
and changes nothing, under any number and for any job.  Only if the channel was given
another target in the course can the hash be above it, and the share is rejected for that.
-/
theorem credited_once
    (channel : AnyChannel)
    (first again : Submission)
    (candidate repeated : Candidate)
    (outcome : ShareOutcome)
    (examined : channel.examine first = .ok candidate)
    (ordinary : ¬ candidate.IsBlock)
    (accepted : (channel.validateShare first).2 = .ok outcome)
    (course : List Operation)
    (steady : (channel.after (.validateShare first)).Steady course)
    (reexamined :
      ((channel.after (.validateShare first)).run course).examine again = .ok repeated)
    (same : repeated.hash = candidate.hash) :
    let now := (channel.after (.validateShare first)).run course
    now.validateShare again = (now, .error (again.refusal .duplicate)) ∨
      (∃ hashRate maxTarget, .update hashRate maxTarget ∈ course) ∧
        now.validateShare again = (now, .error (again.refusal .aboveTarget)) := by
  intro now
  have stillOrdinary : ¬ repeated.IsBlock :=
    fun found => ordinary ((isBlock_iff_of_same examined steady reexamined same).mp found)
  obtain ⟨latest, stillKnown, stillSeen⟩ := seen_of_accepted examined steady outcome accepted
  obtain ⟨latestTarget, stillAimed⟩ := now.target?_of_accounting? latest stillKnown
  rw [← same] at stillSeen
  have rejected :=
    validateShare_of_seen reexamined stillKnown stillAimed stillOrdinary stillSeen
  by_cases tuned : ∃ hashRate maxTarget, .update hashRate maxTarget ∈ course
  · split at rejected
    · exact .inr ⟨tuned, rejected⟩
    · exact .inl rejected
  · -- The target is the one that the first share met.
    have untuned : now.target? = channel.target? := by
      refine (target?_run _ course fun hashRate maxTarget member => ?_).trans
        (channel.target?_after _ fun hashRate maxTarget other => by cases other)
      exact tuned ⟨hashRate, maxTarget, member⟩
    obtain ⟨shares, target, known, aimed⟩ :=
      channel.remembered_of_examined first candidate examined
    obtain ⟨-, -, -, ⟨found, -⟩ | ⟨-, within, -⟩⟩ :=
      counted_of_accepted examined known aimed outcome accepted
    · exact absurd found ordinary
    · have sameTarget : latestTarget = target :=
        Option.some.inj (stillAimed.symm.trans (untuned.trans aimed))
      rw [same, sameTarget, if_neg within] at rejected
      exact .inl rejected

/-- A share is credited, then another one, and the first one is sent under another number. -/
theorem credited_once_easy :
    ∃ opened, Opened opened ∧
      let channel := opened.run easyCourse
      let now :=
        (channel.after (.validateShare (easyShare 1 1 1))).run [.validateShare (easyShare 2 1 2)]
      now.validateShare (easyShare 3 1 1) =
        (now, .error ((easyShare 3 1 1).refusal .duplicate)) := by
  obtain ⟨opened, shares, coinbase, opens, easy⟩ := exists_onEasyChain
  refine ⟨opened, opens, ?_⟩
  dsimp only
  generalize opened.run easyCourse = channel at easy ⊢
  have examined := easy.examined shares 1 1
  obtain ⟨later, done, -⟩ := easy.counts shares 1 1 easyHash_nonces.2.1 (easy.unseen _)
  rw [easy.start] at examined done
  obtain ⟨latest, run_eq⟩ :=
    channel.run_shares shares easy.remembered [easyShare 2 1 2, easyShare 1 1 1]
  have reexamined : (channel.run ([easyShare 2 1 2, easyShare 1 1 1].map .validateShare)).examine
      (easyShare 3 1 1) = .ok (easyCandidate coinbase 3 1) := by
    rw [run_eq]
    exact easy.examined latest 3 1
  have ordinary : ¬ (easyCandidate coinbase 1 1).IsBlock := by
    rw [Candidate.IsBlock, hash_easyCandidate]
    exact easyHash_nonces.2.1
  have same : (easyCandidate coinbase 3 1).hash = (easyCandidate coinbase 1 1).hash := by
    rw [hash_easyCandidate, hash_easyCandidate]
  rcases credited_once channel (easyShare 1 1 1) (easyShare 3 1 1) _ _ later.outcome examined
    ordinary (congrArg Prod.snd done) [.validateShare (easyShare 2 1 2)]
    (steady_shares _ [easyShare 2 1 2]) reexamined same with once | ⟨⟨_, _, tuned⟩, -⟩
  · exact once
  · simp at tuned

/-- The exception: a block that is sent twice is accepted and credited twice. -/
theorem block_credited_twice :
    ∃ opened once twice coinbase, Opened opened ∧
      let channel := opened.run easyCourse
      let now := channel.after (.validateShare (easyShare 1 1 0))
      channel.validateShare (easyShare 1 1 0) = (now, .ok (.blockFound (some 5) coinbase)) ∧
      now.accounting? = some once ∧ once.accepted = 1 ∧
      (now.validateShare (easyShare 1 1 0)).2 = .ok (.blockFound (some 5) coinbase) ∧
      (now.validateShare (easyShare 1 1 0)).1.accounting? = some twice ∧ twice.accepted = 2 := by
  obtain ⟨opened, shares, coinbase, opens, easy⟩ := exists_onEasyChain
  generalize run_eq : opened.run easyCourse = channel at easy
  obtain ⟨once, first, counted⟩ := easy.finds shares 1 0 easyHash_nonces.1
  obtain ⟨twice, second, recounted⟩ := easy.finds once 1 0 easyHash_nonces.1
  rw [easy.start] at first
  refine ⟨opened, once, twice, coinbase, opens, ?_⟩
  simp only [run_eq, after, first, second, true_and]
  refine ⟨channel.accounting?_withShares shares once easy.remembered, ?_,
    channel.accounting?_withShares shares twice easy.remembered, ?_⟩
  · rw [counted.accepted, easy.accepted]
    rfl
  · rw [recounted.accepted, counted.accepted, easy.accepted]
    rfl

end MiningPool.AnyChannel
