import MiningPool.Proofs.Channel.Acknowledgement

/-!
# The ledger of a channel

What a channel remembers of shares is told by the credits of its course, to the last share.
It counts all of them and adds up their work, up to the largest amount there is, the number
of the latest is the last one, and the hashes that it has seen are those of the credits
since another block was started.  A credit is earned by every share that is accepted and by
nothing else, and it is worth the work of the target at that time.
-/

namespace MiningPool.AnyChannel

open MiningPool.Wire MiningPool.Message

/-- A share is accepted. -/
def Accepts (channel : AnyChannel) : Operation → Prop
  | .validateShare submission => ∃ outcome, (channel.validateShare submission).2 = .ok outcome
  | _ => False

/-- The credits of a course since another block was started, the latest first. -/
def recentCredits (channel : AnyChannel) : List Operation → List Credit
  | [] => []
  | operation :: earlier =>
    if (channel.run earlier).moves operation then []
    else ((channel.run earlier).credit? operation).toList ++ channel.recentCredits earlier

/-- What is remembered of shares is told by credits, of which some are recent. -/
structure Ledger (shares : ShareAccounting) (credits recent : List Credit) : Prop where
  accepted : shares.accepted.toNat = credits.length % UInt32.size
  workSum : shares.workSum.toNat =
    min (credits.foldr (fun credit sum => credit.work.toNat + sum) 0) (UInt64.size - 1)
  last : shares.lastSequenceNumber = (credits.head?.map Credit.sequenceNumber).getD 0
  seen : ∀ hash, shares.hasSeen hash = true ↔ ∃ credit ∈ recent, credit.hash.value = hash

/-- What an operation enters into the ledger of a channel. -/
structure Enters (channel : AnyChannel) (operation : Operation) : Prop where
  earned : (∃ credit, channel.credit? operation = some credit) ↔ channel.Accepts operation
  /-- A credit has the number of a share, the hash of its header and the work of the target. -/
  worth : ∀ credit, channel.credit? operation = some credit →
    ∃ submission candidate target,
      operation = .validateShare submission ∧
      channel.examine submission = .ok candidate ∧
      channel.target? = some target ∧
      (channel.validateShare submission).2 = .ok credit.outcome ∧
      credit.sequenceNumber = submission.sequenceNumber ∧
      credit.hash = candidate.hash ∧
      credit.work = target.work
  flushed : channel.moves operation = true →
    (channel.after operation).accounting? = channel.accounting?.map ShareAccounting.flush
  kept : channel.moves operation = false → ¬ channel.Accepts operation →
    (channel.after operation).accounting? = channel.accounting?

/-! ## Single operations -/

theorem credit?_eq_some_iff
    (channel : AnyChannel)
    (operation : Operation)
    (credit : Credit) :
    channel.credit? operation = some credit ↔
      ∃ submission candidate target,
        operation = .validateShare submission ∧
        channel.examine submission = .ok candidate ∧
        channel.target? = some target ∧
        (channel.validateShare submission).2 = .ok credit.outcome ∧
        credit.sequenceNumber = submission.sequenceNumber ∧
        credit.hash = candidate.hash ∧
        credit.work = target.work := by
  constructor
  · intro earned
    unfold credit? at earned
    split at earned
    next submission =>
      split at earned
      next candidate target outcome examined aimed accepted =>
        cases earned
        exact ⟨submission, candidate, target, rfl, examined, aimed, accepted, rfl, rfl, rfl⟩
      · cases earned
    · cases earned
  · rintro ⟨submission, candidate, target, rfl, examined, aimed, accepted, number, hash, work⟩
    simp only [credit?, examined, aimed, accepted, ← number, ← hash, ← work]

/-- Every share that is accepted earns a credit. -/
theorem exists_credit?_iff
    (channel : AnyChannel)
    (operation : Operation) :
    (∃ credit, channel.credit? operation = some credit) ↔ channel.Accepts operation := by
  constructor
  · rintro ⟨credit, earned⟩
    obtain ⟨submission, _, _, rfl, -, -, accepted, -⟩ :=
      (channel.credit?_eq_some_iff _ credit).mp earned
    exact ⟨_, accepted⟩
  · intro accepts
    cases operation with
    | validateShare submission =>
      obtain ⟨outcome, accepted⟩ := accepts
      obtain ⟨candidate, examined⟩ := channel.examined_of_accepted submission outcome accepted
      obtain ⟨shares, target, -, aimed⟩ :=
        channel.remembered_of_examined submission candidate examined
      exact ⟨⟨submission.sequenceNumber, candidate.hash, target.work, outcome⟩,
        (channel.credit?_eq_some_iff _ _).mpr
          ⟨submission, candidate, target, rfl, examined, aimed, accepted, rfl, rfl, rfl⟩⟩
    | newTemplate | groupJob | setNewPrevHash | setCustomJob | setTip | setExtranoncePrefix
    | update => exact accepts.elim

theorem enters
    (channel : AnyChannel)
    (operation : Operation) :
    channel.Enters operation where
  earned := channel.exists_credit?_iff operation
  worth credit := (channel.credit?_eq_some_iff operation credit).mp
  flushed moved := by
    rw [accounting?_after, if_pos moved]
    rintro submission rfl
    cases moved
  kept stays refused := by
    rcases operation.share_or_other with ⟨submission, rfl⟩ | other
    · cases rejected : (channel.validateShare submission).2 with
      | ok outcome => exact absurd ⟨outcome, rejected⟩ refused
      | error refusal => rw [after, channel.validateShare_of_rejected submission refusal rejected]
    · rw [channel.accounting?_after operation other, stays]
      rfl

/-- A hash is seen after an operation when it is credited, or seen before on the same block. -/
theorem hasSeen_after
    (channel : AnyChannel)
    (shares later : ShareAccounting)
    (operation : Operation)
    (known : channel.accounting? = some shares)
    (remembered : (channel.after operation).accounting? = some later)
    (hash : Nat) :
    later.hasSeen hash = true ↔
      channel.moves operation = false ∧
        ((∃ credit, channel.credit? operation = some credit ∧ credit.hash.value = hash) ∨
          shares.hasSeen hash = true) := by
  by_cases accepts : channel.Accepts operation
  · obtain ⟨credit, earned⟩ := (channel.exists_credit?_iff operation).mpr accepts
    obtain ⟨submission, candidate, target, rfl, examined, aimed, accepted, -, same, -⟩ :=
      (channel.credit?_eq_some_iff _ credit).mp earned
    obtain ⟨counted, done, counts, -⟩ := counted_of_accepted examined known aimed _ accepted
    rw [after, done, channel.accounting?_withShares shares counted known] at remembered
    cases remembered
    rw [counts.seen, earned, ← same, Bool.or_eq_true, beq_iff_eq]
    simp [moves]
  · have uncredited : ¬ ∃ credit, channel.credit? operation = some credit ∧
        credit.hash.value = hash := by
      rintro ⟨credit, earned, -⟩
      exact accepts ((channel.exists_credit?_iff operation).mp ⟨credit, earned⟩)
    cases moved : channel.moves operation with
    | true =>
      rw [(channel.enters operation).flushed moved, known] at remembered
      cases remembered
      simp [ShareAccounting.flush, ShareAccounting.hasSeen]
    | false =>
      rw [(channel.enters operation).kept moved accepts, known] at remembered
      cases remembered
      simp [uncredited]

/-! ## Whole courses -/

theorem Opened.unseen
    {channel : AnyChannel}
    (opened : Opened channel)
    (shares : ShareAccounting)
    (known : channel.accounting? = some shares)
    (hash : Nat) :
    shares.hasSeen hash = false := by
  cases opened.fresh with
  | standard channel batchSize jobs tip start | extended channel batchSize jobs tip start =>
    cases known
    rw [start]
    exact Std.TreeSet.contains_emptyc

/-- The hashes that are seen are those of the recent credits. -/
theorem hasSeen_run
    (channel : AnyChannel)
    (opened : Opened channel)
    (course : List Operation)
    (remembered : ShareAccounting)
    (known : (channel.run course).accounting? = some remembered)
    (hash : Nat) :
    remembered.hasSeen hash = true ↔
      ∃ credit ∈ channel.recentCredits course, credit.hash.value = hash := by
  induction course generalizing remembered with
  | nil => simp [recentCredits, opened.unseen remembered known]
  | cons operation earlier ih =>
    obtain ⟨shares, start⟩ := opened.remembers
    obtain ⟨before, middle⟩ := channel.accounting?_run shares start earlier
    rw [hasSeen_after _ before remembered operation middle known, ih before middle, recentCredits]
    cases moved : (channel.run earlier).moves operation with
    | true => simp
    | false => cases earned : (channel.run earlier).credit? operation <;> simp

/--
The accounting of a channel is exact.  In any course of a new channel the number of accepted
shares is the number of credits, as far as it can be counted; the sum of work is that of the
credits, up to the largest amount there is; the last number is that of the latest credit; and
the hashes that were seen are those of the credits since another block was started, by an
announcement that succeeds or by a job of a miner's own.  Every share that is accepted, and
nothing else, earns a credit, with the hash of its header and the work of the target at that
time.  Starting another block forgets the hashes and changes nothing else of the accounting, and
no other operation changes any of it.
-/
theorem accounting_exact
    (channel : AnyChannel)
    (opened : Opened channel)
    (course : List Operation) :
    ∃ shares,
      (channel.run course).accounting? = some shares ∧
      Ledger shares (channel.credits course) (channel.recentCredits course) ∧
      ∀ operation, (channel.run course).Enters operation := by
  obtain ⟨shares, start⟩ := opened.remembers
  obtain ⟨remembered, known, tallies⟩ := channel.tallies_run opened shares start course
  refine ⟨remembered, known, ⟨?accepted, ?workSum, tallies.last, ?seen⟩, enters _⟩
  case accepted => rw [tallies.accepted, UInt32.toNat_ofNat']
  case workSum => rw [tallies.workSum, toNat_totalWork]
  case seen => exact channel.hasSeen_run opened course remembered known

/-- The first share of a course is its only credit, and its hash the only one that was seen. -/
theorem accounting_exact_easy :
    ∃ opened shares outcome, Opened opened ∧
      let credit : Credit := ⟨1, easyHash 1, Target.easiest.work, outcome⟩
      (opened.run (.validateShare (easyShare 1 1 1) :: easyCourse)).accounting? = some shares ∧
      Ledger shares [credit] [credit] := by
  obtain ⟨opened, before, coinbase, opens, easy⟩ := exists_onEasyChain
  obtain ⟨later, done, -⟩ := easy.counts before 1 1 easyHash_nonces.2.1 (easy.unseen _)
  have examined := easy.examined before 1 1
  rw [easy.start] at done examined
  have earned :
      (opened.run easyCourse).credit? (.validateShare (easyShare 1 1 1)) =
        some ⟨1, easyHash 1, Target.easiest.work, later.outcome⟩ :=
    (credit?_eq_some_iff _ _ _).mpr
      ⟨_, _, _, rfl, examined, easy.aimed, congrArg Prod.snd done, rfl,
        (hash_easyCandidate coinbase 1 1).symm, rfl⟩
  obtain ⟨shares, known, ledger, -⟩ :=
    accounting_exact opened opens (.validateShare (easyShare 1 1 1) :: easyCourse)
  refine ⟨opened, shares, later.outcome, opens, known, ?_⟩
  rw [credits, recentCredits, earned] at ledger
  exact ledger

end MiningPool.AnyChannel
