import MiningPool.Job.Factory

/-!
# Jobs that a factory makes

A job that is made takes up the next id, names where it comes from and waits when its
template asks for that.  An attempt that fails takes up one id at most, and nothing else
of a factory ever changes.
-/

namespace MiningPool

open MiningPool.Bitcoin MiningPool.Coinbase MiningPool.Message.Mining
open MiningPool.Message.TemplateDistribution

/-- As long as ids do not start over, they increase by one. -/
theorem toNat_idAfter
    (id : UInt32)
    (room : id.toNat + 1 < UInt32.size) :
    (idAfter id).toNat = id.toNat + 1 := by
  have notLast : id ≠ 0xffffffff := by
    rintro rfl
    exact absurd room (by decide)
  rw [idAfter, if_neg notLast, UInt32.toNat_add]
  exact Nat.mod_eq_of_lt room

theorem idAfter_ne_self (id : UInt32) : idAfter id ≠ id := by
  unfold idAfter
  split
  next last =>
    rw [last]
    decide
  next =>
    intro same
    have bound := id.toNat_lt
    have numbers := congrArg UInt32.toNat same
    rw [UInt32.toNat_add, UInt32.toNat_one] at numbers
    omega

namespace JobFactory

/-- What is known of a job that was made. -/
structure Makes
    (factory later : JobFactory)
    (origin : JobOrigin)
    (minNtime : Option UInt32)
    (job : ExtendedJob) :
    Prop where
  later_eq : later = factory.advance
  id_eq : Job.id job = idAfter factory.lastId
  origin_eq : job.origin = origin
  minNtime_eq : Job.minNtime job = minNtime

theorem extendedJob_ok
    (factory later : JobFactory)
    (content : ExtendedContent)
    (extranoncePrefix : Bytes)
    (halves : Halves)
    (job : ExtendedJob)
    (made : factory.extendedJob content extranoncePrefix halves = (later, .ok job)) :
    factory.Makes later content.origin content.minNtime job := by
  unfold extendedJob at made
  split at made
  · cases made
  · dsimp only at made
    split at made
    · cases made
    · cases made
    · cases made
      exact ⟨rfl, rfl, rfl, rfl⟩

/-- A half of the coinbase is too long for the message of the job. -/
def TooLong (failure : JobError) : Prop :=
  failure = .invalidFront ∨ failure = .invalidBack

/-- A job that is not made has taken up an id only when its halves came out too long. -/
theorem extendedJob_error
    (factory later : JobFactory)
    (content : ExtendedContent)
    (extranoncePrefix : Bytes)
    (halves : Halves)
    (failure : JobError)
    (failed : factory.extendedJob content extranoncePrefix halves = (later, .error failure)) :
    later = factory ∨ later = factory.advance ∧ TooLong failure := by
  unfold extendedJob at failed
  split at failed
  · cases failed
    exact .inl rfl
  · dsimp only at failed
    split at failed
    · cases failed
      exact .inr ⟨rfl, .inl rfl⟩
    · cases failed
      exact .inr ⟨rfl, .inr rfl⟩
    · cases failed

/-- A template job waits exactly when its template is one of a block to come. -/
theorem minNtime_ok
    (template : NewTemplate)
    (tip : Option ChainTip)
    (time : Option UInt32)
    (bound : minNtime template tip = .ok time) :
    template.futureTemplate = true ∧ time = none ∨
      template.futureTemplate = false ∧ ∃ known, tip = some known ∧ time = some known.minNtime := by
  unfold minNtime at bound
  split at bound
  next waits =>
    cases bound
    exact .inl ⟨waits, rfl⟩
  next runs =>
    split at bound
    · cases bound
    · cases bound
      exact .inr ⟨by simpa using runs, _, rfl, rfl⟩

/-- A standard job is told by its template, its extranonce, the coinbase and the root. -/
theorem standardJob_eq_ok_iff
    (factory later : JobFactory)
    (channelId : UInt32)
    (tip : Option ChainTip)
    (extranoncePrefix : Bytes)
    (template : NewTemplate)
    (rewards : List Output)
    (job : StandardJob) :
    factory.standardJob channelId tip extranoncePrefix template rewards = (later, .ok job) ↔
      ∃ time halves root,
        minNtime template tip = .ok time ∧
        factory.templateHalves template rewards = .ok halves ∧
        merkleRoot? halves.front halves.back extranoncePrefix template.merklePath.items =
          some root ∧
        later = factory.advance ∧
        job =
          { template
            extranoncePrefix
            outputs := halves.outputs
            fullFront := halves.front
            fullBack := halves.back
            message :=
              { channelId
                jobId := factory.advance.lastId
                minNtime := time
                version := template.version
                merkleRoot := root } } := by
  unfold standardJob
  constructor
  · intro made
    split at made
    · cases made
    next time bound =>
      split at made
      · cases made
      next halves built =>
        split at made
        · cases made
        next root computed =>
          cases made
          exact ⟨time, halves, root, bound, built, computed, rfl, rfl⟩
  · rintro ⟨time, halves, root, bound, built, computed, rfl, rfl⟩
    rw [bound]
    dsimp only
    rw [built]
    dsimp only
    rw [computed]

/-- A standard job takes up the next id, and an attempt that fails takes up none. -/
theorem standardJob_ok
    (factory later : JobFactory)
    (channelId : UInt32)
    (tip : Option ChainTip)
    (extranoncePrefix : Bytes)
    (template : NewTemplate)
    (rewards : List Output)
    (job : StandardJob)
    (made : factory.standardJob channelId tip extranoncePrefix template rewards =
      (later, .ok job)) :
    later = factory.advance ∧ Job.id job = idAfter factory.lastId := by
  obtain ⟨_, _, _, -, -, -, rfl, rfl⟩ :=
    (factory.standardJob_eq_ok_iff _ _ _ _ _ _ _).mp made
  exact ⟨rfl, rfl⟩

theorem standardJob_error
    (factory later : JobFactory)
    (channelId : UInt32)
    (tip : Option ChainTip)
    (extranoncePrefix : Bytes)
    (template : NewTemplate)
    (rewards : List Output)
    (failure : JobError)
    (failed : factory.standardJob channelId tip extranoncePrefix template rewards =
      (later, .error failure)) :
    later = factory := by
  unfold standardJob at failed
  split at failed
  · cases failed
    rfl
  · split at failed
    · cases failed
      rfl
    · split at failed
      · cases failed
        rfl
      · cases failed

theorem templateJob_eq_ok_iff
    (factory later : JobFactory)
    (channelId : UInt32)
    (tip : Option ChainTip)
    (extranoncePrefix : Bytes)
    (template : NewTemplate)
    (rewards : List Output)
    (job : ExtendedJob) :
    factory.templateJob channelId tip extranoncePrefix template rewards = (later, .ok job) ↔
      ∃ time halves,
        minNtime template tip = .ok time ∧
        factory.templateHalves template rewards = .ok halves ∧
        factory.extendedJob
          ⟨.template template, channelId, time, template.version, template.merklePath⟩
          extranoncePrefix halves = (later, .ok job) := by
  unfold templateJob
  constructor
  · intro made
    split at made
    · cases made
    next time bound =>
      split at made
      · cases made
      next halves built => exact ⟨time, halves, bound, built, made⟩
  · rintro ⟨time, halves, bound, built, made⟩
    rw [bound]
    dsimp only
    rw [built]
    exact made

theorem templateJob_ok
    (factory later : JobFactory)
    (channelId : UInt32)
    (tip : Option ChainTip)
    (extranoncePrefix : Bytes)
    (template : NewTemplate)
    (rewards : List Output)
    (job : ExtendedJob)
    (made : factory.templateJob channelId tip extranoncePrefix template rewards =
      (later, .ok job)) :
    ∃ time, minNtime template tip = .ok time ∧
      factory.Makes later (.template template) time job := by
  obtain ⟨time, _, bound, -, made⟩ := (factory.templateJob_eq_ok_iff _ _ _ _ _ _ _).mp made
  exact ⟨time, bound, extendedJob_ok _ _ _ _ _ _ made⟩

theorem templateJob_error
    (factory later : JobFactory)
    (channelId : UInt32)
    (tip : Option ChainTip)
    (extranoncePrefix : Bytes)
    (template : NewTemplate)
    (rewards : List Output)
    (failure : JobError)
    (failed : factory.templateJob channelId tip extranoncePrefix template rewards =
      (later, .error failure)) :
    later = factory ∨ later = factory.advance ∧ TooLong failure := by
  unfold templateJob at failed
  split at failed
  · cases failed
    exact .inl rfl
  · split at failed
    · cases failed
      exact .inl rfl
    · exact extendedJob_error _ _ _ _ _ _ failed

theorem customJob_eq_ok_iff
    (factory later : JobFactory)
    (request : SetCustomMiningJob)
    (extranoncePrefix : Bytes)
    (job : ExtendedJob) :
    factory.customJob request extranoncePrefix = (later, .ok job) ↔
      ∃ halves, customHalves request = .ok halves ∧
        factory.extendedJob
          ⟨.custom request, request.channelId, some request.minNtime, request.version,
           request.merklePath⟩
          extranoncePrefix halves = (later, .ok job) := by
  unfold customJob
  constructor
  · intro made
    split at made
    · cases made
    next halves built => exact ⟨halves, built, made⟩
  · rintro ⟨halves, built, made⟩
    rw [built]
    exact made

theorem customJob_ok
    (factory later : JobFactory)
    (request : SetCustomMiningJob)
    (extranoncePrefix : Bytes)
    (job : ExtendedJob)
    (made : factory.customJob request extranoncePrefix = (later, .ok job)) :
    factory.Makes later (.custom request) (some request.minNtime) job := by
  obtain ⟨_, -, made⟩ := (factory.customJob_eq_ok_iff _ _ _ _).mp made
  exact extendedJob_ok _ _ _ _ _ _ made

theorem customJob_error
    (factory later : JobFactory)
    (request : SetCustomMiningJob)
    (extranoncePrefix : Bytes)
    (failure : JobError)
    (failed : factory.customJob request extranoncePrefix = (later, .error failure)) :
    later = factory ∨ later = factory.advance ∧ TooLong failure := by
  unfold customJob at failed
  split at failed
  · cases failed
    exact .inl rfl
  · exact extendedJob_error _ _ _ _ _ _ failed

end JobFactory

end MiningPool
