import MiningPool.Job.Store
import Std.Data.TreeMap.Lemmas

/-!
# Jobs by stage and id

What is said of a store is said of the jobs it holds at a stage under an id.  Each
operation is described by what it does to these, and then seen to keep a store in order:
a job is held under its own id, at one stage only, and waits exactly as long as it has
no least time.
-/

namespace MiningPool

/-- The stages of the life of a job. -/
inductive JobStage
  | future
  | active
  | past
  | stale
  deriving DecidableEq, Repr

namespace JobStage

/-- A job that is active until another one becomes active is past then. -/
def retire : JobStage → JobStage
  | .active => .past
  | stage => stage

/-- A job that was active before the chain tip moved is stale then. -/
def expire : JobStage → JobStage
  | .active => .stale
  | .past => .stale
  | stage => stage

end JobStage

namespace JobStore

variable {J : Type} [Job J]

/-- The job at a stage that is held under an id. -/
def at? (store : JobStore J) (stage : JobStage) (id : UInt32) : Option J :=
  match stage with
  | .future => store.future[id]?
  | .active => store.active.filter fun job => Job.id job == id
  | .past => store.past[id]?
  | .stale => store.stale[id]?

theorem at?_active (store : JobStore J) (id : UInt32) (job : J) :
    store.at? .active id = some job ↔ store.active = some job ∧ Job.id job = id := by
  simp [at?, Option.filter_eq_some_iff]

/-! ## Operations -/

@[simp]
theorem at?_empty (stage : JobStage) (id : UInt32) :
    (empty : JobStore J).at? stage id = none := by
  cases stage <;> simp [at?, empty]

omit [Job J] in
@[simp]
theorem futureId?_empty (templateId : UInt64) :
    (empty : JobStore J).futureId? templateId = none := by
  simp [futureId?, empty]

theorem at?_addFuture
    (store : JobStore J)
    (templateId : UInt64)
    (job : J)
    (stage : JobStage)
    (id : UInt32) :
    (store.addFuture templateId job).at? stage id =
      if stage = .future ∧ Job.id job = id then some job else store.at? stage id := by
  cases stage <;> simp [at?, addFuture, Std.TreeMap.getElem?_insert]

theorem futureId?_addFuture
    (store : JobStore J)
    (templateId other : UInt64)
    (job : J) :
    (store.addFuture templateId job).futureId? other =
      if templateId = other then some (Job.id job) else store.futureId? other := by
  simp [futureId?, addFuture, Std.TreeMap.getElem?_insert]

theorem at?_addActive
    (store : JobStore J)
    (job : J)
    (stage : JobStage)
    (id : UInt32) :
    (store.addActive job).at? stage id =
      match stage with
      | .active => if Job.id job = id then some job else none
      | .past => (store.at? .active id).or (store.at? .past id)
      | stage => store.at? stage id := by
  cases stage with
  | future | stale => rfl
  | active => simp [at?, addActive, Option.filter]
  | past =>
    cases active : store.active with
    | none => simp [at?, addActive, active]
    | some previous =>
      by_cases same : Job.id previous = id
      · simp [at?, addActive, active, same, Option.filter]
      · simp [at?, addActive, active, Std.TreeMap.getElem?_insert, same, Option.filter]

theorem at?_markPastStale
    (store : JobStore J)
    (stage : JobStage)
    (id : UInt32) :
    store.markPastStale.at? stage id =
      match stage with
      | .past => none
      | .stale => store.at? .past id
      | stage => store.at? stage id := by
  cases stage <;> simp [at?, markPastStale]

/-- A job is activated when it waits for the template. -/
theorem activate?_eq_some
    (store activated : JobStore J)
    (templateId : UInt64)
    (time : UInt32)
    (done : store.activate? templateId time = some activated) :
    ∃ id job, store.futureId? templateId = some id ∧ store.at? .future id = some job ∧
      activated.active = some (Job.activate job time) ∧
      (∀ templateId, activated.futureId? templateId = none) ∧
      ∀ stage id, activated.at? stage id =
        match stage with
        | .active => if Job.id job = id then some (Job.activate job time) else none
        | .stale => (store.at? .active id).or (store.at? .past id)
        | _ => none := by
  unfold activate? at done
  cases known : store.futureId? templateId with
  | none => simp [known] at done
  | some id =>
    simp only [known] at done
    cases waiting : store.future[id]? with
    | none => simp [waiting] at done
    | some job =>
      simp only [waiting, Option.some.injEq] at done
      subst done
      refine ⟨id, job, rfl, waiting, rfl, fun other => ?_, fun stage other => ?_⟩
      · simp [futureId?, markPastStale]
      · have added := at?_addActive store (Job.activate job time)
        cases stage with
        | future => simp [at?, markPastStale]
        | past => simp [at?, markPastStale]
        | active =>
          have active := added .active other
          rw [Job.id_activate] at active
          exact active
        | stale => exact added .past other

/-! ## Stores in order -/

/-- A store in which every job has an id of its own. -/
structure Distinct (store : JobStore J) : Prop where
  /-- A job is held under its own id. -/
  keyed : ∀ stage id job, store.at? stage id = some job → Job.id job = id
  /-- No id is held at two stages. -/
  apart : ∀ stage other id job held,
    store.at? stage id = some job → store.at? other id = some held → stage = other

theorem distinct_empty : (empty : JobStore J).Distinct := by
  constructor <;> simp

/-- A store whose jobs all have ids up to the last one that was given. -/
structure Consistent (store : JobStore J) (lastId : UInt32) : Prop where
  /-- A job is held under its own id. -/
  keyed : ∀ stage id job, store.at? stage id = some job → Job.id job = id
  /-- No id is held at two stages. -/
  apart : ∀ stage other id job held,
    store.at? stage id = some job → store.at? other id = some held → stage = other
  /-- Exactly the jobs that wait have no least time. -/
  waiting : ∀ stage id job,
    store.at? stage id = some job → (Job.minNtime job = none ↔ stage = .future)
  /-- A template leads to a job that waits and was made from it. -/
  indexed : ∀ templateId id, store.futureId? templateId = some id →
    ∃ job, store.at? .future id = some job ∧ Job.templateId job = some templateId
  numbered : ∀ stage id job, store.at? stage id = some job → 0 < id ∧ id ≤ lastId

theorem consistent_empty (lastId : UInt32) : (empty : JobStore J).Consistent lastId := by
  constructor <;> simp

namespace Consistent

variable {store : JobStore J} {lastId : UInt32}

theorem mono
    {later : UInt32}
    (consistent : store.Consistent lastId)
    (since : lastId ≤ later) :
    store.Consistent later where
  keyed := consistent.keyed
  apart := consistent.apart
  waiting := consistent.waiting
  indexed := consistent.indexed
  numbered stage id job present :=
    ⟨(consistent.numbered stage id job present).1,
      UInt32.le_trans (consistent.numbered stage id job present).2 since⟩

/-- An id that is still to be given is held nowhere. -/
theorem fresh
    (consistent : store.Consistent lastId)
    (id : UInt32)
    (new : lastId < id)
    (stage : JobStage) :
    store.at? stage id = none := by
  cases present : store.at? stage id with
  | none => rfl
  | some job =>
    have known := (consistent.numbered stage id job present).2
    exact absurd new (UInt32.not_lt.mpr known)

theorem distinct (consistent : store.Consistent lastId) : store.Distinct :=
  ⟨consistent.keyed, consistent.apart⟩

/-- A job is held at the stage at which its id is held. -/
theorem unique
    (consistent : store.Consistent lastId)
    {stage other : JobStage}
    {id : UInt32}
    {job held : J}
    (first : store.at? stage id = some job)
    (second : store.at? other id = some held) :
    job = held := by
  obtain rfl := consistent.apart _ _ _ _ _ first second
  exact Option.some.inj (first.symm.trans second)

end Consistent

/-! ## Stores that gain a job -/

/--
A store holds one job more, or one at another stage than before; of the other jobs, those
it still holds have moved on without ever starting or ceasing to wait.
-/
structure Gains
    (before after : JobStore J)
    (stage : JobStage)
    (job : J)
    (move : JobStage → JobStage) :
    Prop where
  waits : ∀ origin, move origin = .future ↔ origin = .future
  held : ∀ place id present, after.at? place id = some present →
    place = stage ∧ Job.id job = id ∧ job = present ∨
      Job.id job ≠ id ∧ ∃ origin, before.at? origin id = some present ∧ place = move origin

theorem gains_addFuture
    (store : JobStore J)
    (templateId : UInt64)
    (job : J)
    (fresh : ∀ stage, store.at? stage (Job.id job) = none) :
    store.Gains (store.addFuture templateId job) .future job id := by
  refine ⟨fun _ => Iff.rfl, fun place id present held => ?_⟩
  rw [at?_addFuture] at held
  split at held
  next here => exact .inl ⟨here.1, here.2, Option.some.inj held⟩
  next =>
    refine .inr ⟨?_, place, held, rfl⟩
    rintro rfl
    simp [fresh] at held

theorem gains_addActive
    (store : JobStore J)
    (job : J)
    (fresh : ∀ stage, store.at? stage (Job.id job) = none) :
    store.Gains (store.addActive job) .active job JobStage.retire := by
  refine ⟨fun origin => by cases origin <;> decide, fun place id present held => ?_⟩
  rw [at?_addActive] at held
  have other (origin) (before : store.at? origin id = some present) : Job.id job ≠ id := by
    rintro rfl
    simp [fresh] at before
  cases place with
  | future => exact .inr ⟨other _ held, .future, held, rfl⟩
  | stale => exact .inr ⟨other _ held, .stale, held, rfl⟩
  | active =>
    simp only [Option.ite_none_right_eq_some, Option.some.injEq] at held
    exact .inl ⟨rfl, held⟩
  | past =>
    rcases Option.or_eq_some_iff.mp held with before | ⟨-, before⟩
    · exact .inr ⟨other _ before, .active, before, rfl⟩
    · exact .inr ⟨other _ before, .past, before, rfl⟩

/-- A job that becomes active when the chain tip moves makes all jobs before it stale. -/
theorem gains_of_expire
    (store after : JobStore J)
    (job : J)
    (future : ∀ id present, after.at? .future id = some present →
      Job.id job ≠ id ∧ store.at? .future id = some present)
    (active : ∀ id, after.at? .active id = if Job.id job = id then some job else none)
    (past : ∀ id, after.at? .past id = none)
    (stale : ∀ id, after.at? .stale id = (store.at? .active id).or (store.at? .past id))
    (fresh : ∀ stage, stage ≠ .future → store.at? stage (Job.id job) = none) :
    store.Gains after .active job JobStage.expire := by
  refine ⟨fun origin => by cases origin <;> decide, fun place id present held => ?_⟩
  have other (origin) (running : origin ≠ .future) (before : store.at? origin id = some present) :
      Job.id job ≠ id := by
    rintro rfl
    simp [fresh origin running] at before
  cases place with
  | future => exact .inr ⟨(future id present held).1, .future, (future id present held).2, rfl⟩
  | active =>
    simp only [active, Option.ite_none_right_eq_some, Option.some.injEq] at held
    exact .inl ⟨rfl, held⟩
  | past =>
    rw [past] at held
    cases held
  | stale =>
    rw [stale] at held
    rcases Option.or_eq_some_iff.mp held with before | ⟨-, before⟩
    · exact .inr ⟨other _ (by decide) before, .active, before, rfl⟩
    · exact .inr ⟨other _ (by decide) before, .past, before, rfl⟩

theorem gains_addActive_markPastStale
    (store : JobStore J)
    (job : J)
    (fresh : ∀ stage, store.at? stage (Job.id job) = none) :
    store.Gains (store.addActive job).markPastStale .active job JobStage.expire := by
  refine gains_of_expire store _ job ?_ ?_ ?_ ?_ fun stage _ => fresh stage
  · intro id present held
    simp only [at?_markPastStale, at?_addActive] at held
    refine ⟨?_, held⟩
    rintro rfl
    simp [fresh] at held
  all_goals
    intro id
    simp only [at?_markPastStale, at?_addActive]

/-- What `activate?` does to a store in order. -/
theorem gains_activate?
    (store activated : JobStore J)
    (distinct : store.Distinct)
    (templateId : UInt64)
    (time : UInt32)
    (done : store.activate? templateId time = some activated) :
    ∃ id job, store.futureId? templateId = some id ∧ store.at? .future id = some job ∧
      activated.active = some (Job.activate job time) ∧
      store.Gains activated .active (Job.activate job time) JobStage.expire := by
  obtain ⟨id, job, known, waiting, active, -, places⟩ :=
    activate?_eq_some store activated templateId time done
  refine ⟨id, job, known, waiting, active, gains_of_expire store activated _ ?_ ?_ ?_ ?_ ?_⟩
  · intro other present held
    rw [places] at held
    cases held
  · intro other
    rw [places, Job.id_activate]
  · exact fun other => places .past other
  · exact fun other => places .stale other
  · intro stage running
    rw [Job.id_activate, distinct.keyed _ _ _ waiting]
    cases before : store.at? stage id with
    | none => rfl
    | some held => exact absurd (distinct.apart _ _ _ _ _ before waiting) running

/-- A store that gains a job keeps an id of its own for every job. -/
theorem Distinct.of_gains
    {before after : JobStore J}
    {stage : JobStage}
    {job : J}
    {move : JobStage → JobStage}
    (distinct : before.Distinct)
    (gains : before.Gains after stage job move) :
    after.Distinct where
  keyed place id present held := by
    rcases gains.held place id present held with ⟨-, here, rfl⟩ | ⟨-, origin, earlier, -⟩
    · exact here
    · exact distinct.keyed origin id present earlier
  apart place other id present alike held heldAlike := by
    rcases gains.held place id present held with ⟨rfl, here, -⟩ | ⟨apart, origin, earlier, rfl⟩ <;>
      rcases gains.held other id alike heldAlike with
        ⟨rfl, here', -⟩ | ⟨apart', origin', earlier', rfl⟩
    · rfl
    · exact absurd here apart'
    · exact absurd here' apart
    · rw [distinct.apart _ _ _ _ _ earlier earlier']

/-- A store that gains a job stays in order. -/
theorem Consistent.of_gains
    {before after : JobStore J}
    {lastId later : UInt32}
    {stage : JobStage}
    {job : J}
    {move : JobStage → JobStage}
    (consistent : before.Consistent lastId)
    (gains : before.Gains after stage job move)
    (since : lastId ≤ later)
    (numbered : 0 < Job.id job ∧ Job.id job ≤ later)
    (waiting : Job.minNtime job = none ↔ stage = .future)
    (indexed : ∀ templateId id, after.futureId? templateId = some id →
      ∃ job, after.at? .future id = some job ∧ Job.templateId job = some templateId) :
    after.Consistent later where
  keyed := (consistent.distinct.of_gains gains).keyed
  apart := (consistent.distinct.of_gains gains).apart
  waiting place id present held := by
    rcases gains.held place id present held with ⟨rfl, -, rfl⟩ | ⟨-, origin, earlier, rfl⟩
    · exact waiting
    · rw [gains.waits]
      exact consistent.waiting origin id present earlier
  indexed := indexed
  numbered place id present held := by
    rcases gains.held place id present held with ⟨-, rfl, -⟩ | ⟨-, origin, earlier, -⟩
    · exact numbered
    · have known := consistent.numbered origin id present earlier
      exact ⟨known.1, UInt32.le_trans known.2 since⟩

/-- No ids are held but those that were held before and that of the job. -/
theorem Gains.held_mem
    {before after : JobStore J}
    {stage : JobStage}
    {job : J}
    {move : JobStage → JobStage}
    (gains : before.Gains after stage job move)
    {ids : List UInt32}
    (held_before : ∀ place id present, before.at? place id = some present → id ∈ ids)
    (place : JobStage)
    (id : UInt32)
    (present : J)
    (held : after.at? place id = some present) :
    id ∈ Job.id job :: ids := by
  rcases gains.held place id present held with ⟨-, here, -⟩ | ⟨-, origin, earlier, -⟩
  · rw [here]
    exact List.mem_cons_self
  · exact List.mem_cons_of_mem _ (held_before origin id present earlier)

/-- What is held before and after is the same job, unless it is the one that was gained. -/
theorem Gains.keeps
    {before after : JobStore J}
    {lastId : UInt32}
    {stage : JobStage}
    {job : J}
    {move : JobStage → JobStage}
    (gains : before.Gains after stage job move)
    (consistent : before.Consistent lastId)
    {origin place : JobStage}
    {id : UInt32}
    {held present : J}
    (earlier : before.at? origin id = some held)
    (later : after.at? place id = some present) :
    present = held ∨ place = stage ∧ Job.id job = id ∧ present = job := by
  rcases gains.held place id present later with ⟨here, same, rfl⟩ | ⟨-, source, found, -⟩
  · exact .inr ⟨here, same, rfl⟩
  · exact .inl (consistent.unique found earlier)

namespace Consistent

variable {store : JobStore J} {lastId : UInt32}

theorem addFuture
    (consistent : store.Consistent lastId)
    (templateId : UInt64)
    (job : J)
    (new : lastId < Job.id job)
    (waits : Job.minNtime job = none)
    (made : Job.templateId job = some templateId) :
    (store.addFuture templateId job).Consistent (Job.id job) := by
  have fresh := consistent.fresh (Job.id job) new
  refine consistent.of_gains (gains_addFuture store templateId job fresh) (UInt32.le_of_lt new)
    ⟨UInt32.lt_of_le_of_lt (UInt32.zero_le) new, UInt32.le_refl _⟩ (by simp [waits]) ?_
  intro other id known
  rw [futureId?_addFuture] at known
  by_cases same : templateId = other
  · rw [if_pos same, Option.some.injEq] at known
    refine ⟨job, ?_, same ▸ made⟩
    rw [at?_addFuture, if_pos ⟨rfl, known⟩]
  · rw [if_neg same] at known
    obtain ⟨waiting, held, source⟩ := consistent.indexed other id known
    refine ⟨waiting, ?_, source⟩
    rw [at?_addFuture, if_neg, held]
    rintro ⟨-, rfl⟩
    simp [fresh] at held

theorem addActive
    (consistent : store.Consistent lastId)
    (job : J)
    (new : lastId < Job.id job)
    (runs : Job.minNtime job ≠ none) :
    (store.addActive job).Consistent (Job.id job) := by
  have fresh := consistent.fresh (Job.id job) new
  refine consistent.of_gains (gains_addActive store job fresh) (UInt32.le_of_lt new)
    ⟨UInt32.lt_of_le_of_lt (UInt32.zero_le) new, UInt32.le_refl _⟩ (by simp [runs]) ?_
  intro templateId id known
  rw [at?_addActive]
  exact consistent.indexed templateId id known

theorem addActive_markPastStale
    (consistent : store.Consistent lastId)
    (job : J)
    (new : lastId < Job.id job)
    (runs : Job.minNtime job ≠ none) :
    (store.addActive job).markPastStale.Consistent (Job.id job) := by
  have fresh := consistent.fresh (Job.id job) new
  refine consistent.of_gains (gains_addActive_markPastStale store job fresh)
    (UInt32.le_of_lt new) ⟨UInt32.lt_of_le_of_lt (UInt32.zero_le) new, UInt32.le_refl _⟩
    (by simp [runs]) ?_
  intro templateId id known
  simp only [at?_markPastStale, at?_addActive]
  exact consistent.indexed templateId id known

theorem activate?
    (consistent : store.Consistent lastId)
    (activated : JobStore J)
    (templateId : UInt64)
    (time : UInt32)
    (done : store.activate? templateId time = some activated) :
    activated.Consistent lastId := by
  obtain ⟨id, job, -, waiting, -, gains⟩ :=
    gains_activate? store activated consistent.distinct templateId time done
  obtain ⟨-, -, -, -, -, forgotten, -⟩ := activate?_eq_some store activated templateId time done
  refine consistent.of_gains gains (UInt32.le_refl _) ?_ ?_ ?_
  · rw [Job.id_activate, consistent.keyed _ _ _ waiting]
    exact consistent.numbered _ _ _ waiting
  · simp [Job.minNtime_activate]
  · intro other held known
    rw [forgotten] at known
    cases known

end Consistent

end JobStore

end MiningPool
