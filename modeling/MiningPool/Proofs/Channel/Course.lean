import MiningPool.Proofs.Channel.Examination
import MiningPool.Proofs.Channel.Lifecycle

/-!
# The course of a channel

A course lists the operations on a channel, the latest first, whether they succeed or
fail.  Accepted shares are credited in its order.  What an operation can do to what a
channel remembers of shares is said once: it credits a share, forgets the hashes that
were seen because the chain tip moves, or leaves everything as it is.
-/

namespace MiningPool

open MiningPool.Bitcoin MiningPool.Wire MiningPool.Message

/-- A new standard channel has a whole extranonce and is as its opening says. -/
theorem StandardChannel.create_ok
    (opening : Channel.Opening)
    (channel : StandardChannel)
    (opened : create opening = .ok channel) :
    ∃ target, channel = Channel.ofOpening opening target (.start true opening.tag) ∧
      opening.extranoncePrefix.length = extranonceSize := by
  unfold create at opened
  split at opened
  · cases opened
  next target _ =>
    dsimp only at opened
    split at opened
    · cases opened
    next whole =>
      split at opened
      · cases opened
      · cases opened
        exact ⟨target, rfl, Classical.not_not.mp whole⟩

theorem ExtendedChannel.movesTip_iff (channel : ExtendedChannel) (tip : ChainTip) :
    channel.movesTip tip = true ↔ channel.tip.map ChainTip.prevHash ≠ some tip.prevHash := by
  unfold movesTip
  cases channel.tip <;> simp

namespace AnyChannel

/-- An operation on a channel. -/
inductive Operation
  | newTemplate (template : TemplateDistribution.NewTemplate) (rewards : List Output)
  | groupJob (job : ExtendedJob)
  | setNewPrevHash (message : TemplateDistribution.SetNewPrevHash)
  | setCustomJob (request : Mining.SetCustomMiningJob)
  | setTip (tip : ChainTip)
  | setExtranoncePrefix (extranoncePrefix : Bytes)
  | update (hashRate : Single) (maxTarget : Option Target)
  | validateShare (submission : Submission)

/-- The channel after an operation. -/
def after (channel : AnyChannel) : Operation → AnyChannel
  | .newTemplate template rewards => (channel.newTemplate template rewards).1
  | .groupJob job => (channel.groupJob job).1
  | .setNewPrevHash message => (channel.setNewPrevHash message).1
  | .setCustomJob request => (channel.setCustomJob request).1
  | .setTip tip => channel.setTip tip
  | .setExtranoncePrefix extranoncePrefix => (channel.setExtranoncePrefix extranoncePrefix).1
  | .update hashRate maxTarget => (channel.update hashRate maxTarget).1
  | .validateShare submission => (channel.validateShare submission).1

/-- The channel after a course. -/
def run (channel : AnyChannel) : List Operation → AnyChannel
  | [] => channel
  | operation :: earlier => (channel.run earlier).after operation

/-- A channel that was just opened for a miner. -/
inductive Opened : AnyChannel → Prop
  | standard
      (opening : Channel.Opening)
      (channel : AnyChannel)
      (done : createStandard opening = .ok channel) :
      Opened channel
  | extended
      (opening : Channel.Opening)
      (versionRolling : Bool)
      (minRollableSize : UInt16)
      (channel : AnyChannel)
      (done : createExtended opening versionRolling minRollableSize = .ok channel) :
      Opened channel

/-- A new channel has no jobs and no chain tip, and no shares were accepted on it. -/
inductive Fresh : AnyChannel → Prop
  | standard
      (channel : StandardChannel)
      (batchSize : Nat)
      (jobs : channel.jobs = .empty)
      (tip : channel.tip = none)
      (shares : channel.shares = .start batchSize)
      (whole : channel.extranoncePrefix.length = extranonceSize) :
      Fresh (.standard channel)
  | extended
      (channel : ExtendedChannel)
      (batchSize : Nat)
      (jobs : channel.jobs = .empty)
      (tip : channel.tip = none)
      (shares : channel.shares = .start batchSize) :
      Fresh (.extended channel)

/-! ## Openings -/

theorem Opened.fresh
    {channel : AnyChannel}
    (opened : Opened channel) :
    Fresh channel := by
  cases opened with
  | standard opening _ done =>
    unfold createStandard at done
    cases created : StandardChannel.create opening with
    | error failure =>
      rw [created] at done
      cases done
    | ok standard =>
      rw [created] at done
      cases done
      obtain ⟨target, rfl, whole⟩ := StandardChannel.create_ok opening standard created
      exact .standard _ _ rfl rfl rfl whole
  | extended opening versionRolling minRollableSize _ done =>
    unfold createExtended at done
    cases created : ExtendedChannel.create opening versionRolling minRollableSize with
    | error failure =>
      rw [created] at done
      cases done
    | ok extended =>
      rw [created] at done
      cases done
      unfold ExtendedChannel.create at created
      split at created
      · cases created
      · dsimp only at created
        split at created
        · cases created
        · split at created
          · cases created
          · split at created
            · cases created
            · cases created
              exact .extended _ _ rfl rfl rfl

theorem Opened.remembers
    {channel : AnyChannel}
    (opened : Opened channel) :
    ∃ shares, channel.accounting? = some shares := by
  cases opened.fresh <;> exact ⟨_, rfl⟩

/-! ## Credits -/

/-- What an accepted share is credited with. -/
structure Credit where
  sequenceNumber : UInt32
  hash : Target
  /-- The work of the target of the channel at that time. -/
  work : UInt64
  outcome : ShareOutcome
  deriving DecidableEq, Repr

/-- The credit that an operation earns. -/
def credit? (channel : AnyChannel) : Operation → Option Credit
  | .validateShare submission =>
    match channel.examine submission, channel.target?, (channel.validateShare submission).2 with
    | .ok candidate, some target, .ok outcome =>
      some ⟨submission.sequenceNumber, candidate.hash, target.work, outcome⟩
    | _, _, _ => none
  | _ => none

/-- The credits of a course, the latest first. -/
def credits (channel : AnyChannel) : List Operation → List Credit
  | [] => []
  | operation :: earlier =>
    ((channel.run earlier).credit? operation).toList ++ channel.credits earlier

/-- An operation leaves the chain tip as it is, and none is announced. -/
def KeepsTip (channel : AnyChannel) : Operation → Prop
  | .setNewPrevHash message => (channel.setNewPrevHash message).2 ≠ .ok ()
  | operation => (channel.after operation).tip = channel.tip

/-- An operation starts another block: it is announced, or a miner's own job builds on it. -/
def moves (channel : AnyChannel) : Operation → Bool
  | .setNewPrevHash message => (channel.setNewPrevHash message).2.isOk
  | .setCustomJob request =>
    (channel.setCustomJob request).2.isOk &&
      channel.tip.map ChainTip.prevHash ≠ some request.prevHash
  | _ => false

/-- What an operation can do to what a channel remembers of shares. -/
inductive Entry (channel : AnyChannel) (shares : ShareAccounting) : Operation → AnyChannel → Prop
  | kept
      (operation : Operation)
      (later : AnyChannel)
      (uncredited : channel.credit? operation = none)
      (remembered : later.accounting? = some shares) :
      Entry channel shares operation later
  /-- The hashes that were seen are forgotten, since they belong to another chain tip. -/
  | forgot
      (operation : Operation)
      (later : AnyChannel)
      (uncredited : channel.credit? operation = none)
      (moved : ¬ channel.KeepsTip operation)
      (remembered : later.accounting? = some shares.flush) :
      Entry channel shares operation later
  | credited
      (submission : Submission)
      (candidate : Candidate)
      (target : Target)
      (counted : ShareAccounting)
      (outcome : ShareOutcome)
      (examined : channel.examine submission = .ok candidate)
      (aimed : channel.target? = some target)
      (accepted : channel.validateShare submission = (channel.withShares counted, .ok outcome))
      (counts : candidate.CountedIn shares target counted)
      (earned : outcome = .blockFound candidate.templateId candidate.coinbase ∨
        outcome = counted.outcome) :
      Entry channel shares (.validateShare submission) (channel.withShares counted)

theorem entry_validateShare
    (channel : AnyChannel)
    (shares : ShareAccounting)
    (known : channel.accounting? = some shares)
    (submission : Submission) :
    Entry channel shares (.validateShare submission)
      (channel.after (.validateShare submission)) := by
  rw [after]
  cases accepted : (channel.validateShare submission).2 with
  | error refusal =>
    refine .kept _ _ ?_ ?_
    · rw [credit?, accepted]
      cases channel.examine submission <;> cases channel.target? <;> rfl
    · rw [channel.validateShare_of_rejected submission refusal accepted, known]
  | ok outcome =>
    obtain ⟨candidate, examined⟩ := channel.examined_of_accepted submission outcome accepted
    obtain ⟨target, aimed⟩ := channel.target?_of_accounting? shares known
    obtain ⟨later, done, counts, judged⟩ :=
      counted_of_accepted examined known aimed outcome accepted
    rw [done]
    refine .credited submission candidate target later outcome examined aimed done counts ?_
    rcases judged with ⟨-, block⟩ | ⟨-, -, -, ordinary⟩
    · exact .inl block
    · exact .inr ordinary

/-! ## Operations that credit nothing -/

/-- What is remembered of shares and the target are left as they are. -/
structure Spares (channel later : AnyChannel) : Prop where
  accounting : later.accounting? = channel.accounting?
  target : later.target? = channel.target?

/-- The hashes that were seen are forgotten, and nothing else changes of the accounting. -/
structure Forgets (channel later : AnyChannel) : Prop where
  accounting : later.accounting? = channel.accounting?.map ShareAccounting.flush
  target : later.target? = channel.target?

theorem spares_newTemplate
    (channel : AnyChannel)
    (template : TemplateDistribution.NewTemplate)
    (rewards : List Output) :
    channel.Spares (channel.newTemplate template rewards).1 := by
  cases channel with
  | standard channel =>
    have exits := StandardChannel.attempts_newTemplate channel template rewards
    rw [newTemplate]
    generalize StandardChannel.newTemplate channel template rewards = outcome at exits ⊢
    cases exits <;> exact ⟨rfl, rfl⟩
  | extended channel =>
    have exits := channel.attempts_newTemplate template rewards
    rw [newTemplate]
    generalize channel.newTemplate template rewards = outcome at exits ⊢
    cases exits <;> exact ⟨rfl, rfl⟩
  | group channel => exact ⟨rfl, rfl⟩

theorem spares_groupJob (channel : AnyChannel) (job : ExtendedJob) :
    channel.Spares (channel.groupJob job).1 := by
  cases channel with
  | standard channel =>
    have exits := StandardChannel.receives_groupJob channel job
    rw [groupJob]
    generalize StandardChannel.groupJob channel job = outcome at exits ⊢
    cases exits <;> exact ⟨rfl, rfl⟩
  | extended | group => exact ⟨rfl, rfl⟩

theorem spares_setTip (channel : AnyChannel) (tip : ChainTip) :
    channel.Spares (channel.setTip tip) := by
  cases channel <;> exact ⟨rfl, rfl⟩

theorem spares_setExtranoncePrefix (channel : AnyChannel) (extranoncePrefix : Bytes) :
    channel.Spares (channel.setExtranoncePrefix extranoncePrefix).1 := by
  cases channel with
  | standard channel =>
    have exits := StandardChannel.restarts_setExtranoncePrefix channel extranoncePrefix
    rw [setExtranoncePrefix]
    generalize StandardChannel.setExtranoncePrefix channel extranoncePrefix = outcome at exits ⊢
    cases exits <;> exact ⟨rfl, rfl⟩
  | extended channel =>
    have exits := channel.restarts_setExtranoncePrefix extranoncePrefix
    rw [setExtranoncePrefix]
    generalize channel.setExtranoncePrefix extranoncePrefix = outcome at exits ⊢
    cases exits <;> exact ⟨rfl, rfl⟩
  | group channel => exact ⟨rfl, rfl⟩

theorem accounting?_update
    (channel : AnyChannel)
    (hashRate : Single)
    (maxTarget : Option Target) :
    (channel.update hashRate maxTarget).1.accounting? = channel.accounting? := by
  cases channel with
  | standard channel =>
    have exits := Channel.retargets_update channel hashRate maxTarget
    rw [update]
    generalize Channel.update channel hashRate maxTarget = outcome at exits ⊢
    cases exits <;> rfl
  | extended channel =>
    have exits := channel.toChannel.retargets_update hashRate maxTarget
    rw [update, ExtendedChannel.update]
    generalize channel.toChannel.update hashRate maxTarget = outcome at exits ⊢
    cases exits <;> rfl
  | group channel => rfl

/-- A block that is announced changes nothing, or the hashes that were seen are forgotten. -/
theorem spares_setNewPrevHash
    (channel : AnyChannel)
    (message : TemplateDistribution.SetNewPrevHash) :
    channel.moves (.setNewPrevHash message) = false ∧
        (channel.setNewPrevHash message).1 = channel ∨
      (channel.setNewPrevHash message).2 = .ok () ∧
        channel.Forgets (channel.setNewPrevHash message).1 := by
  cases channel with
  | standard channel =>
    have exits := Channel.announces_setNewPrevHash channel message
    rw [moves, setNewPrevHash]
    generalize Channel.setNewPrevHash channel message = outcome at exits ⊢
    cases exits with
    | unknown => exact .inl ⟨rfl, rfl⟩
    | activated => exact .inr ⟨rfl, rfl, rfl⟩
  | extended channel =>
    have exits := channel.toChannel.announces_setNewPrevHash message
    rw [moves, setNewPrevHash, ExtendedChannel.setNewPrevHash]
    generalize channel.toChannel.setNewPrevHash message = outcome at exits ⊢
    cases exits with
    | unknown => exact .inl ⟨rfl, rfl⟩
    | activated => exact .inr ⟨rfl, rfl, rfl⟩
  | group channel =>
    have exits := channel.announces_setNewPrevHash message
    rw [moves, setNewPrevHash]
    generalize channel.setNewPrevHash message = outcome at exits ⊢
    cases exits with
    | unknown => exact .inl ⟨rfl, rfl⟩
    | activated => exact .inr ⟨rfl, rfl, rfl⟩

/-- A job of a miner's own makes the hashes forgotten exactly when it names another block. -/
theorem spares_setCustomJob
    (channel : AnyChannel)
    (request : Mining.SetCustomMiningJob) :
    channel.moves (.setCustomJob request) = false ∧
        channel.Spares (channel.setCustomJob request).1 ∨
      channel.moves (.setCustomJob request) = true ∧
        (channel.setCustomJob request).1.tip ≠ channel.tip ∧
        channel.Forgets (channel.setCustomJob request).1 := by
  cases channel with
  | standard | group => exact .inl ⟨rfl, rfl, rfl⟩
  | extended channel =>
    have exits := channel.grants_setCustomJob request
    rw [moves, setCustomJob]
    generalize channel.setCustomJob request = outcome at exits ⊢
    cases exits with
    | foreign | failed => exact .inl ⟨rfl, rfl, rfl⟩
    | succeeded own factory job made =>
      have names := channel.movesTip_iff (.ofCustomJob request)
      by_cases moved : channel.movesTip (.ofCustomJob request)
      · refine .inr ⟨decide_eq_true (names.mp moved), ?_, ?_, rfl⟩
        · intro same
          simp only [ofExtended, tip] at same
          simp [ExtendedChannel.movesTip, ← same] at moved
        · simp only [ofExtended, accounting?, if_pos moved, Option.map_some]
      · refine .inl ⟨decide_eq_false (mt names.mpr moved), ?_, rfl⟩
        simp only [ofExtended, accounting?, if_neg moved]

theorem Operation.share_or_other (operation : Operation) :
    (∃ submission, operation = .validateShare submission) ∨
      ∀ submission, operation ≠ .validateShare submission := by
  by_cases shared : ∃ submission, operation = .validateShare submission
  · exact .inl shared
  · exact .inr fun submission same => shared ⟨submission, same⟩

/-- Shares apart, only the start of another block changes what is remembered of shares. -/
theorem accounting?_after
    (channel : AnyChannel)
    (operation : Operation)
    (other : ∀ submission, operation ≠ .validateShare submission) :
    (channel.after operation).accounting? =
      if channel.moves operation then channel.accounting?.map ShareAccounting.flush
      else channel.accounting? := by
  cases operation with
  | validateShare submission => exact absurd rfl (other submission)
  | newTemplate template rewards => exact (channel.spares_newTemplate template rewards).accounting
  | groupJob job => exact (channel.spares_groupJob job).accounting
  | setTip tip => exact (channel.spares_setTip tip).accounting
  | setExtranoncePrefix extranoncePrefix =>
    exact (channel.spares_setExtranoncePrefix extranoncePrefix).accounting
  | update hashRate maxTarget => exact channel.accounting?_update hashRate maxTarget
  | setNewPrevHash message =>
    rcases channel.spares_setNewPrevHash message with ⟨fails, same⟩ | ⟨done, forgets⟩
    · rw [fails, after, same]
      rfl
    · rw [moves, done, after, forgets.accounting]
      rfl
  | setCustomJob request =>
    rcases channel.spares_setCustomJob request with ⟨stays, spared⟩ | ⟨moved, -, forgets⟩
    · rw [stays, after, spared.accounting]
      rfl
    · rw [moved, after, forgets.accounting]
      rfl

theorem credit?_of_other
    (channel : AnyChannel)
    (operation : Operation)
    (other : ∀ submission, operation ≠ .validateShare submission) :
    channel.credit? operation = none := by
  cases operation with
  | validateShare submission => exact absurd rfl (other submission)
  | newTemplate | groupJob | setNewPrevHash | setCustomJob | setTip | setExtranoncePrefix
  | update => rfl

theorem not_keepsTip_of_moves
    (channel : AnyChannel)
    (operation : Operation)
    (moved : channel.moves operation = true) :
    ¬ channel.KeepsTip operation := by
  cases operation with
  | setNewPrevHash message =>
    rcases channel.spares_setNewPrevHash message with ⟨fails, -⟩ | ⟨done, -⟩
    · rw [fails] at moved
      cases moved
    · exact fun keeps => keeps done
  | setCustomJob request =>
    rcases channel.spares_setCustomJob request with ⟨stays, -⟩ | ⟨-, other, -⟩
    · rw [stays] at moved
      cases moved
    · exact other
  | newTemplate | groupJob | setTip | setExtranoncePrefix | update | validateShare => cases moved

theorem entry_after
    (channel : AnyChannel)
    (shares : ShareAccounting)
    (known : channel.accounting? = some shares)
    (operation : Operation) :
    Entry channel shares operation (channel.after operation) := by
  rcases operation.share_or_other with ⟨submission, rfl⟩ | other
  · exact channel.entry_validateShare shares known submission
  · have accounted := channel.accounting?_after operation other
    have uncredited := channel.credit?_of_other operation other
    rw [known] at accounted
    split at accounted
    next moved =>
      exact .forgot _ _ uncredited (channel.not_keepsTip_of_moves operation moved) accounted
    · exact .kept _ _ uncredited accounted

/-- Only a new hash rate changes the target. -/
theorem target?_after
    (channel : AnyChannel)
    (operation : Operation)
    (untuned : ∀ hashRate maxTarget, operation ≠ .update hashRate maxTarget) :
    (channel.after operation).target? = channel.target? := by
  cases operation with
  | update hashRate maxTarget => exact absurd rfl (untuned hashRate maxTarget)
  | newTemplate template rewards => exact (channel.spares_newTemplate template rewards).target
  | groupJob job => exact (channel.spares_groupJob job).target
  | setTip tip => exact (channel.spares_setTip tip).target
  | setExtranoncePrefix extranoncePrefix =>
    exact (channel.spares_setExtranoncePrefix extranoncePrefix).target
  | setNewPrevHash message =>
    rcases channel.spares_setNewPrevHash message with ⟨-, same⟩ | ⟨-, forgets⟩
    · exact congrArg target? same
    · exact forgets.target
  | setCustomJob request =>
    rcases channel.spares_setCustomJob request with ⟨-, spared⟩ | ⟨-, -, forgets⟩
    · exact spared.target
    · exact forgets.target
  | validateShare submission =>
    have validates := channel.validates_validateShare submission
    rw [after]
    generalize channel.validateShare submission = result at validates ⊢
    cases validates with
    | refused => rfl
    | judged => exact channel.target?_withShares _

theorem KeepsTip.tip_eq
    {channel : AnyChannel}
    {operation : Operation}
    (keeps : channel.KeepsTip operation) :
    (channel.after operation).tip = channel.tip := by
  cases operation with
  | setNewPrevHash message =>
    rcases channel.spares_setNewPrevHash message with ⟨-, same⟩ | ⟨done, -⟩
    · exact congrArg tip same
    · exact absurd done keeps
  | newTemplate | groupJob | setCustomJob | setTip | setExtranoncePrefix | update
  | validateShare => exact keeps

theorem keepsTip_validateShare (channel : AnyChannel) (submission : Submission) :
    channel.KeepsTip (.validateShare submission) := by
  have validates := channel.validates_validateShare submission
  rw [KeepsTip, after]
  · generalize channel.validateShare submission = result at validates ⊢
    cases validates with
    | refused => rfl
    | judged => exact channel.tip_withShares _
  · intro message other
    cases other

theorem Entry.remembers
    {channel later : AnyChannel}
    {shares : ShareAccounting}
    {operation : Operation}
    (entry : Entry channel shares operation later)
    (known : channel.accounting? = some shares) :
    ∃ remembered, later.accounting? = some remembered := by
  cases entry with
  | kept _ _ uncredited remembered => exact ⟨_, remembered⟩
  | forgot _ _ uncredited moved remembered => exact ⟨_, remembered⟩
  | credited submission candidate target counted =>
    exact ⟨_, channel.accounting?_withShares _ _ known⟩

theorem accounting?_run
    (channel : AnyChannel)
    (shares : ShareAccounting)
    (known : channel.accounting? = some shares)
    (course : List Operation) :
    ∃ remembered, (channel.run course).accounting? = some remembered := by
  induction course with
  | nil => exact ⟨shares, known⟩
  | cons operation earlier ih =>
    obtain ⟨before, remembered⟩ := ih
    exact ((channel.run earlier).entry_after before remembered operation).remembers remembered

/-- Shares change nothing but what is remembered of them. -/
theorem run_shares
    (channel : AnyChannel)
    (shares : ShareAccounting)
    (known : channel.accounting? = some shares)
    (submissions : List Submission) :
    ∃ later, channel.run (submissions.map .validateShare) = channel.withShares later := by
  induction submissions with
  | nil => exact ⟨shares, (channel.withShares_self shares known).symm⟩
  | cons submission earlier ih =>
    obtain ⟨before, run_eq⟩ := ih
    rw [List.map_cons, run, run_eq, after]
    have validates := (channel.withShares before).validates_validateShare submission
    generalize (channel.withShares before).validateShare submission = result at validates ⊢
    cases validates with
    | refused => exact ⟨before, rfl⟩
    | judged => exact ⟨_, channel.withShares_withShares before _⟩

/-! ## An easy chain -/

/-- An opening for so small a hash rate that every hash meets the target. -/
def easyOpening : Channel.Opening :=
  { ExtendedChannel.soloOpening with
    batchSize := 1
    hashRate := ⟨0x3a83126f⟩
    extranoncePrefix := List.replicate 32 7 }

/-- A chain tip with the easiest target, which about half of all hashes meet. -/
def easyTip : ChainTip where
  prevHash := ExtendedChannel.soloBlock.prevHash
  nbits := 0x207fffff
  minNtime := 1700000000

/-- A job of a template on the easy chain. -/
def easyCourse : List Operation :=
  [.newTemplate { ExtendedChannel.soloTemplate with futureTemplate := false } [⟨50, [0x51]⟩],
   .setTip easyTip]

/-- The root of the tree of transactions of the job, whose coinbase is the only one. -/
def easyRoot : Hash where
  bytes :=
    [0x8d, 0xf4, 0x3c, 0x9f, 0x39, 0xa0, 0x9e, 0x31, 0x3c, 0x8f, 0xb7, 0x86, 0x73, 0x99, 0x9f, 0x95,
     0x77, 0x47, 0xce, 0x1a, 0xf6, 0xd0, 0x16, 0x4c, 0x61, 0xcd, 0xd5, 0x17, 0x58, 0xd9, 0x23, 0xc7]
  admitted := by decide

/-- A share on the easy chain. -/
def easyShare (sequenceNumber jobId nonce : UInt32) : Submission :=
  .standard
    { channelId := 1
      sequenceNumber
      jobId
      nonce
      ntime := 1700000000
      version := 0x20000000 }

/-- The candidate of a share for the job. -/
def easyCandidate (coinbase : Bytes) (sequenceNumber nonce : UInt32) : Candidate where
  tip := easyTip
  share := (easyShare sequenceNumber 1 nonce).share easyRoot
  templateId := some 5
  coinbase := coinbase

/-- The hash of the header with a nonce. -/
def easyHash (nonce : UInt32) : Target :=
  .ofBlob (((easyShare 0 1 nonce).share easyRoot).header easyTip).hash

theorem hash_easyCandidate (coinbase : Bytes) (sequenceNumber nonce : UInt32) :
    (easyCandidate coinbase sequenceNumber nonce).hash = easyHash nonce := by
  unfold Candidate.hash easyHash easyCandidate
  rfl

/-- The nonce 0 makes a block; 1 and 2 make shares that are none, and not the same. -/
theorem easyHash_nonces :
    easyHash 0 ≤ targetOfBits easyTip.nbits ∧
      ¬ easyHash 1 ≤ targetOfBits easyTip.nbits ∧
      ¬ easyHash 2 ≤ targetOfBits easyTip.nbits ∧
      (easyHash 1).value ≠ (easyHash 2).value := by
  -- The last two hashes lie on either side of a number above the target.
  have above : targetOfBits easyTip.nbits ≤ .ofNat (0x97 <<< 248) := by decide +kernel
  have near : easyHash 1 ≤ .ofNat (0x97 <<< 248) := by decide +kernel
  have far : ¬ easyHash 2 ≤ .ofNat (0x97 <<< 248) := by decide +kernel
  refine ⟨by decide +kernel, by decide +kernel, ?_, ?_⟩
  · exact fun found => far (Target.le_trans found above)
  · exact fun same => far (Target.le_of_value_eq same.symm near)

/-- Shares for the job complete known headers, whatever is remembered of shares before. -/
structure OnEasyChain
    (channel : AnyChannel)
    (shares : ShareAccounting)
    (coinbase : Bytes) :
    Prop where
  remembered : channel.accounting? = some shares
  accepted : shares.accepted = 0
  batchSize : shares.batchSize = 1
  unseen : ∀ hash, shares.hasSeen hash = false
  aimed : channel.target? = some .easiest
  examined : ∀ later sequenceNumber nonce,
    (channel.withShares later).examine (easyShare sequenceNumber 1 nonce) =
      .ok (easyCandidate coinbase sequenceNumber nonce)

section OnEasyChain

variable
  {channel : AnyChannel}
  {shares : ShareAccounting}
  {coinbase : Bytes}
  (easy : channel.OnEasyChain shares coinbase)
  (before : ShareAccounting)
  (sequenceNumber nonce : UInt32)

include easy

theorem OnEasyChain.start : channel.withShares shares = channel :=
  channel.withShares_self shares easy.remembered

theorem OnEasyChain.counts
    (ordinary : ¬ easyHash nonce ≤ targetOfBits easyTip.nbits)
    (new : before.hasSeen (easyHash nonce).value = false) :
    ∃ later,
      (channel.withShares before).validateShare (easyShare sequenceNumber 1 nonce) =
        (channel.withShares later, .ok later.outcome) ∧
      before.Counts Target.easiest.work sequenceNumber (easyHash nonce).value later := by
  rw [← hash_easyCandidate coinbase sequenceNumber nonce] at ordinary new ⊢
  have within : ¬ Target.easiest < (easyCandidate coinbase sequenceNumber nonce).hash :=
    Nat.not_lt.mpr (Nat.le_sub_one_of_lt (Target.isLt _))
  obtain ⟨later, done, counted⟩ := validateShare_of_new (easy.examined before sequenceNumber nonce)
    (channel.accounting?_withShares shares before easy.remembered)
    ((channel.target?_withShares before).trans easy.aimed) ordinary within new
  rw [withShares_withShares] at done
  exact ⟨later, done, counted⟩

theorem OnEasyChain.finds
    (found : easyHash nonce ≤ targetOfBits easyTip.nbits) :
    ∃ later,
      (channel.withShares before).validateShare (easyShare sequenceNumber 1 nonce) =
        (channel.withShares later, .ok (.blockFound (some 5) coinbase)) ∧
      before.Counts Target.easiest.work sequenceNumber (easyHash nonce).value later := by
  rw [← hash_easyCandidate coinbase sequenceNumber nonce] at found ⊢
  obtain ⟨later, done, counted⟩ := validateShare_of_block
    (easy.examined before sequenceNumber nonce)
    (channel.accounting?_withShares shares before easy.remembered)
    ((channel.target?_withShares before).trans easy.aimed) found
  rw [withShares_withShares] at done
  exact ⟨later, done, counted⟩

end OnEasyChain

/-- A job with the known root on a channel that is new otherwise. -/
theorem onEasyChain_of_job
    (channel : StandardChannel)
    (job : StandardJob)
    (found : channel.jobs.forShare 1 = .ok job)
    (root : job.message.merkleRoot = easyRoot)
    (made : Job.templateId job = some 5)
    (tip : channel.tip = some easyTip)
    (aimed : channel.target = .easiest)
    (accepted : channel.shares.accepted = 0)
    (batchSize : channel.shares.batchSize = 1)
    (unseen : channel.shares.seen.isEmpty = true) :
    (standard channel).OnEasyChain channel.shares job.coinbase := by
  refine ⟨rfl, accepted, batchSize, fun hash => ?_, congrArg some aimed, ?_⟩
  · exact Std.TreeSet.contains_of_isEmpty unseen
  · intro later sequenceNumber nonce
    have found' : (Channel.withShares channel later).jobs.forShare 1 = .ok job := found
    have tip' : (Channel.withShares channel later).tip = some easyTip := tip
    simp only [withShares, examine, easyShare, StandardChannel.examine, found', tip', root, made]
    rfl

/-- Whether a channel has such a job and is new otherwise. -/
def startsEasy : AnyChannel → Bool
  | standard channel =>
    match channel.jobs.forShare 1 with
    | .ok job =>
      job.message.merkleRoot == easyRoot && Job.templateId job == some 5 &&
        channel.tip == some easyTip && channel.target == .easiest &&
        channel.shares.accepted == 0 && channel.shares.batchSize == 1 &&
        channel.shares.seen.isEmpty
    | .error _ => false
  | _ => false

theorem onEasyChain_of_startsEasy
    (channel : AnyChannel)
    (computed : channel.startsEasy = true) :
    ∃ shares coinbase, channel.OnEasyChain shares coinbase := by
  unfold startsEasy at computed
  split at computed
  next channel =>
    split at computed
    next job found =>
      simp only [Bool.and_eq_true, beq_iff_eq] at computed
      obtain ⟨⟨⟨⟨⟨⟨root, made⟩, tip⟩, aimed⟩, accepted⟩, batchSize⟩, unseen⟩ := computed
      exact ⟨_, _,
        onEasyChain_of_job channel job found root made tip aimed accepted batchSize unseen⟩
    · cases computed
  · cases computed

theorem exists_onEasyChain :
    ∃ opened shares coinbase, Opened opened ∧
      (opened.run easyCourse).OnEasyChain shares coinbase := by
  have computed :
      (createStandard easyOpening).toOption.any
        (fun opened => (opened.run easyCourse).startsEasy) = true := by
    decide +kernel
  cases done : createStandard easyOpening with
  | error failure =>
    rw [done] at computed
    cases computed
  | ok opened =>
    rw [done] at computed
    obtain ⟨shares, coinbase, easy⟩ := onEasyChain_of_startsEasy _ computed
    exact ⟨opened, shares, coinbase, .standard easyOpening opened done, easy⟩

end AnyChannel

end MiningPool
