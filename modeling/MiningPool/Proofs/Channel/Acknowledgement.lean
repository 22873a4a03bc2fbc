import MiningPool.Proofs.Channel.Course

/-!
# Acknowledgements

A channel acknowledges the shares it accepted in batches.  What an acknowledgement states
is not the batch but everything since the channel was opened: the number of accepted
shares and their work.  A share that completes a batch and is a block is answered as a
block, and the acknowledgement is left to the batch that follows.
-/

namespace MiningPool.AnyChannel

open MiningPool.Bitcoin MiningPool.Wire MiningPool.Message

/-- The work of credits, up to the largest amount there is. -/
def totalWork : List Credit → UInt64
  | [] => 0
  | credit :: earlier => ShareAccounting.addWork (totalWork earlier) credit.work

theorem toNat_totalWork (credits : List Credit) :
    (totalWork credits).toNat =
      min (credits.foldr (fun credit sum => credit.work.toNat + sum) 0) (UInt64.size - 1) := by
  induction credits with
  | nil => rfl
  | cons credit earlier ih =>
    have bound := credit.work.toNat_lt
    rw [totalWork, ShareAccounting.addWork, List.foldr_cons]
    split
    next fits =>
      rw [UInt64.toNat_add, Nat.mod_eq_of_lt fits, ih]
      have : UInt64.size = 18446744073709551616 := rfl
      omega
    next full =>
      have : UInt64.size = 18446744073709551616 := rfl
      have : (0xffffffffffffffff : UInt64).toNat = 18446744073709551615 := rfl
      omega

/-- What a channel remembers of shares counts the credits of a course. -/
structure Tallies (shares : ShareAccounting) (batchSize : Nat) (credits : List Credit) :
    Prop where
  accepted : shares.accepted = UInt32.ofNat credits.length
  workSum : shares.workSum = totalWork credits
  last : shares.lastSequenceNumber = (credits.head?.map Credit.sequenceNumber).getD 0
  batchSize : shares.batchSize = batchSize

theorem Opened.tallies
    {channel : AnyChannel}
    (opened : Opened channel)
    (shares : ShareAccounting)
    (known : channel.accounting? = some shares) :
    Tallies shares shares.batchSize [] := by
  cases opened.fresh with
  | standard channel batchSize jobs tip start | extended channel batchSize jobs tip start =>
    cases known
    rw [start]
    exact ⟨rfl, rfl, rfl, rfl⟩

/-- A share that is counted adds its credit. -/
theorem Tallies.counted
    {shares later : ShareAccounting}
    {batchSize : Nat}
    {credits : List Credit}
    (tallies : Tallies shares batchSize credits)
    (credit : Credit)
    (counts : shares.Counts credit.work credit.sequenceNumber credit.hash.value later) :
    Tallies later batchSize (credit :: credits) where
  accepted := by
    rw [counts.accepted, tallies.accepted, List.length_cons, UInt32.ofNat_add]
    rfl
  workSum := by rw [counts.workSum, tallies.workSum, totalWork]
  last := counts.lastSequenceNumber
  batchSize := counts.batchSize.trans tallies.batchSize

/-- How an accepted share is answered after the credits before it. -/
inductive Answers (batchSize : Nat) (earlier : List Credit) (credit : Credit) :
    ShareOutcome → Prop
  | block (templateId : Option UInt64) (coinbase : Bytes) :
      Answers batchSize earlier credit (.blockFound templateId coinbase)
  /-- The batch is still to be completed. -/
  | silent (incomplete : ¬ batchSize ∣ earlier.length + 1) :
      Answers batchSize earlier credit .valid
  /-- The number of the share, and the count and the work of all credits. -/
  | total (complete : batchSize ∣ earlier.length + 1) :
      Answers batchSize earlier credit
        (.acknowledged credit.sequenceNumber (UInt32.ofNat (earlier.length + 1))
          (totalWork (credit :: earlier)))

theorem Tallies.answers
    {shares : ShareAccounting}
    {batchSize : Nat}
    {credit : Credit}
    {earlier : List Credit}
    (tallies : Tallies shares batchSize (credit :: earlier))
    (bounded : (credit :: earlier).length < UInt32.size) :
    Answers batchSize earlier credit shares.outcome := by
  have counted : shares.accepted.toNat = earlier.length + 1 := by
    rw [tallies.accepted, UInt32.toNat_ofNat']
    exact Nat.mod_eq_of_lt bounded
  have complete : shares.completesBatch = true ↔ batchSize ∣ earlier.length + 1 := by
    rw [ShareAccounting.completesBatch, counted, tallies.batchSize, decide_eq_true_eq,
      Nat.dvd_iff_mod_eq_zero]
  unfold ShareAccounting.outcome
  split
  next closes =>
    rw [tallies.last, tallies.accepted, tallies.workSum]
    exact .total (complete.mp closes)
  next stays => exact .silent fun divides => stays (complete.mpr divides)

/-- A step keeps the tally, and a credit it adds is answered as the tally says. -/
theorem Entry.tallies
    {channel later : AnyChannel}
    {shares remembered : ShareAccounting}
    {operation : Operation}
    (entry : Entry channel shares operation later)
    (known : channel.accounting? = some shares)
    (after : later.accounting? = some remembered)
    {batchSize : Nat}
    {credits : List Credit}
    (before : Tallies shares batchSize credits) :
    Tallies remembered batchSize ((channel.credit? operation).toList ++ credits) ∧
      ∀ credit, channel.credit? operation = some credit →
        (credit :: credits).length < UInt32.size →
          Answers batchSize credits credit credit.outcome := by
  cases entry with
  | kept _ _ uncredited same =>
    obtain rfl := Option.some.inj (same.symm.trans after)
    rw [uncredited]
    exact ⟨before, fun _ none => by cases none⟩
  | forgot _ _ uncredited moved same =>
    obtain rfl := Option.some.inj (same.symm.trans after)
    rw [uncredited]
    exact ⟨⟨before.accepted, before.workSum, before.last, before.batchSize⟩,
      fun _ none => by cases none⟩
  | credited submission candidate target counted outcome examined aimed accepted counts earned =>
    obtain rfl := Option.some.inj ((channel.accounting?_withShares _ _ known).symm.trans after)
    obtain ⟨job, completes⟩ := channel.completes_examine submission candidate examined
    have numbered :
        shares.Counts target.work submission.sequenceNumber candidate.hash.value counted := by
      rw [Candidate.CountedIn, completes.share] at counts
      exact counts
    have earns : channel.credit? (.validateShare submission) =
        some ⟨submission.sequenceNumber, candidate.hash, target.work, outcome⟩ := by
      simp only [credit?, examined, aimed, accepted]
    have tallies := before.counted ⟨submission.sequenceNumber, candidate.hash, target.work, outcome⟩
      numbered
    rw [earns]
    refine ⟨tallies, ?_⟩
    rintro credit same bounded
    obtain rfl := Option.some.inj same
    rcases earned with rfl | rfl
    · exact .block _ _
    · exact tallies.answers bounded

theorem credits_length_le
    (channel : AnyChannel)
    (operation : Operation)
    (earlier : List Operation) :
    (channel.credits earlier).length ≤ (channel.credits (operation :: earlier)).length := by
  rw [credits, List.length_append]
  exact Nat.le_add_left _ _

theorem credits_length_le_length (channel : AnyChannel) (course : List Operation) :
    (channel.credits course).length ≤ course.length := by
  induction course with
  | nil => exact Nat.le_refl _
  | cons operation earlier ih =>
    rw [credits, List.length_append, List.length_cons]
    cases (channel.run earlier).credit? operation <;> simp <;> omega

theorem tallies_run
    (channel : AnyChannel)
    (opened : Opened channel)
    (shares : ShareAccounting)
    (known : channel.accounting? = some shares)
    (course : List Operation) :
    ∃ remembered, (channel.run course).accounting? = some remembered ∧
      Tallies remembered shares.batchSize (channel.credits course) := by
  induction course with
  | nil => exact ⟨shares, known, opened.tallies shares known⟩
  | cons operation earlier ih =>
    obtain ⟨before, middle, tallies⟩ := ih
    have entry := (channel.run earlier).entry_after before middle operation
    obtain ⟨remembered, after⟩ := entry.remembers middle
    exact ⟨remembered, after, (entry.tallies middle after tallies).1⟩

/-- Every credit of a course is answered as the credits before it demand. -/
theorem answers_run
    (channel : AnyChannel)
    (opened : Opened channel)
    (shares : ShareAccounting)
    (known : channel.accounting? = some shares)
    (course : List Operation)
    (bounded : (channel.credits course).length < UInt32.size)
    (later earlier : List Credit)
    (credit : Credit)
    (split : channel.credits course = later ++ credit :: earlier) :
    Answers shares.batchSize earlier credit credit.outcome := by
  induction course generalizing later with
  | nil => simp [credits] at split
  | cons operation before ih =>
    have fewer := Nat.lt_of_le_of_lt (channel.credits_length_le operation before) bounded
    rw [credits] at split
    cases earned : (channel.run before).credit? operation with
    | none =>
      rw [earned] at split
      exact ih fewer later split
    | some first =>
      rw [earned, Option.toList_some, List.singleton_append] at split
      cases later with
      | cons _ rest => exact ih fewer rest (List.cons.inj split).2
      | nil =>
        obtain ⟨rfl, rfl⟩ := List.cons.inj split
        obtain ⟨remembered, middle, tallies⟩ := channel.tallies_run opened shares known before
        have entry := (channel.run before).entry_after remembered middle operation
        obtain ⟨latest, after⟩ := entry.remembers middle
        refine (entry.tallies middle after tallies).2 first earned ?_
        simpa [credits, earned] using bounded

/-- Of `size` numbers in a row one is divided by `size`. -/
theorem exists_dvd_between (size start : Nat) (positive : 0 < size) :
    ∃ offset, offset < size ∧ size ∣ start + offset + 1 := by
  have below := Nat.mod_lt start positive
  refine ⟨size - 1 - start % size, by omega, ?_⟩
  have parts := Nat.div_add_mod start size
  refine ⟨start / size + 1, ?_⟩
  rw [Nat.mul_add, Nat.mul_one]
  omega

/--
Acknowledgements state totals.  As long as their count does not start over, the shares
that are accepted in any course of a new channel are answered in this way: a block as a
block; any other share silently, unless the batch size divides the number of shares
accepted since the channel was opened, and then with its own number, that number of
shares and the sum of their work.  So of a whole batch of shares in a row one is
acknowledged or is a block.
-/
theorem acknowledged_totals
    (channel : AnyChannel)
    (opened : Opened channel)
    (shares : ShareAccounting)
    (known : channel.accounting? = some shares)
    (course : List Operation)
    (bounded : (channel.credits course).length < UInt32.size) :
    (∀ later credit earlier, channel.credits course = later ++ credit :: earlier →
      Answers shares.batchSize earlier credit credit.outcome) ∧
    ∀ later batch earlier, channel.credits course = later ++ batch ++ earlier →
      shares.batchSize ≤ batch.length → ∃ credit ∈ batch, credit.outcome ≠ .valid := by
  have answers := channel.answers_run opened shares known course bounded
  refine ⟨fun later credit earlier => answers later earlier credit, ?_⟩
  intro later batch earlier split full
  obtain ⟨offset, inside, divides⟩ :=
    exists_dvd_between shares.batchSize earlier.length shares.batchSize_pos
  -- The credit that completes the batch has `offset` credits of the list behind it.
  have index : batch.length - 1 - offset < batch.length := by omega
  have parts := List.take_append_drop (batch.length - 1 - offset) batch
  rw [List.drop_eq_getElem_cons index] at parts
  have whole : channel.credits course =
      (later ++ batch.take (batch.length - 1 - offset)) ++
        batch[batch.length - 1 - offset] ::
          (batch.drop (batch.length - 1 - offset + 1) ++ earlier) := by
    rw [split]
    conv =>
      lhs
      rw [← parts]
    simp only [List.append_assoc, List.cons_append]
  refine ⟨_, List.getElem_mem index, fun silent => ?_⟩
  have answer := answers _ _ _ whole
  rw [silent] at answer
  cases answer with
  | silent incomplete =>
    refine incomplete ?_
    rw [List.length_append, List.length_drop]
    have place : batch.length - (batch.length - 1 - offset + 1) = offset := by omega
    rw [place, Nat.add_comm offset]
    exact divides

/-- With batches of one share, the two shares of a course are acknowledged. -/
theorem acknowledged_totals_easy :
    ∃ opened shares, Opened opened ∧ opened.accounting? = some shares ∧ shares.batchSize = 1 ∧
      let course :=
        .validateShare (easyShare 2 1 2) :: .validateShare (easyShare 1 1 1) :: easyCourse
      (opened.credits course).length < UInt32.size ∧
      ∀ later credit earlier, opened.credits course = later ++ credit :: earlier →
        Answers 1 earlier credit credit.outcome := by
  obtain ⟨opened, running, coinbase, opens, easy⟩ := exists_onEasyChain
  obtain ⟨shares, known⟩ := opens.remembers
  obtain ⟨remembered, after, tallies⟩ := opened.tallies_run opens shares known easyCourse
  obtain rfl := Option.some.inj (after.symm.trans easy.remembered)
  have single : shares.batchSize = 1 := tallies.batchSize.symm.trans easy.batchSize
  have bounded (course : List Operation) (short : course.length < UInt32.size) :
      (opened.credits course).length < UInt32.size :=
    Nat.lt_of_le_of_lt (opened.credits_length_le_length course) short
  refine ⟨opened, shares, opens, known, single, bounded _ (by decide), ?_⟩
  have totals := acknowledged_totals opened opens shares known
    (.validateShare (easyShare 2 1 2) :: .validateShare (easyShare 1 1 1) :: easyCourse)
    (bounded _ (by decide))
  rw [single] at totals
  exact totals.1

/--
An acknowledgement does not state what was accepted since the one before: of two shares in
batches of one, the second acknowledgement counts two.
-/
theorem acknowledged_twice :
    ∃ opened work both, Opened opened ∧
      let channel := opened.run easyCourse
      let now := channel.after (.validateShare (easyShare 1 1 1))
      (channel.validateShare (easyShare 1 1 1)).2 = .ok (.acknowledged 1 1 work) ∧
      (now.validateShare (easyShare 2 1 2)).2 = .ok (.acknowledged 2 2 both) := by
  obtain ⟨opened, shares, coinbase, opens, easy⟩ := exists_onEasyChain
  generalize run_eq : opened.run easyCourse = channel at easy
  have single (shares : ShareAccounting) (one : shares.batchSize = 1) :
      shares.outcome =
        .acknowledged shares.lastSequenceNumber shares.accepted shares.workSum := by
    rw [ShareAccounting.outcome, ShareAccounting.completesBatch, one, Nat.mod_one]
    rfl
  obtain ⟨once, first, counts⟩ := easy.counts shares 1 1 easyHash_nonces.2.1 (easy.unseen _)
  have new : once.hasSeen (easyHash 2).value = false := by
    rw [counts.seen, easy.unseen, Bool.or_false, beq_eq_false_iff_ne]
    exact easyHash_nonces.2.2.2
  obtain ⟨twice, second, recounts⟩ := easy.counts once 2 2 easyHash_nonces.2.2.1 new
  rw [easy.start] at first
  refine ⟨opened, once.workSum, twice.workSum, opens, ?_⟩
  simp only [run_eq, after, first, second]
  rw [single once (counts.batchSize.trans easy.batchSize),
    single twice (recounts.batchSize.trans (counts.batchSize.trans easy.batchSize)),
    counts.lastSequenceNumber, recounts.lastSequenceNumber, recounts.accepted, counts.accepted,
    easy.accepted]
  exact ⟨rfl, rfl⟩

end MiningPool.AnyChannel
