import MiningPool.Proofs.Job.Store

/-!
# Stores that mirror each other

Two stores of jobs of different kinds mirror each other when each holds, at the same stages
and under the same ids, counterparts of the jobs of the other, and the same templates lead to
the same ids.  Whatever is done to both of them alike keeps it so, and a job is activated in
both or in neither.
-/

namespace MiningPool.JobStore

variable {J K : Type} [Job J] [Job K]

/-- Two stores hold counterparts at the same places. -/
structure Mirrors
    (counterpart : J → K → Prop)
    (store : JobStore J)
    (mirror : JobStore K) :
    Prop where
  indexed : ∀ templateId, mirror.futureId? templateId = store.futureId? templateId
  held : ∀ stage id, Option.Rel counterpart (store.at? stage id) (mirror.at? stage id)

/-- Related results are both there or both missing. -/
theorem eq_none_iff_of_rel
    {α β : Type}
    {related : α → β → Prop}
    {left : Option α}
    {right : Option β}
    (rel : Option.Rel related left right) :
    left = none ↔ right = none := by
  cases rel <;> simp

theorem rel_or
    {α β : Type}
    {related : α → β → Prop}
    {first second : Option α}
    {other another : Option β}
    (before : Option.Rel related first other)
    (after : Option.Rel related second another) :
    Option.Rel related (first.or second) (other.or another) := by
  cases before with
  | some both => exact .some both
  | none => exact after

/-- A job that waits under the id its template leads to is what activation needs. -/
theorem activate?_eq_none_iff
    (store : JobStore J)
    (templateId : UInt64)
    (time : UInt32) :
    store.activate? templateId time = none ↔
      ∀ id, store.futureId? templateId = some id → store.at? .future id = none := by
  unfold activate?
  cases store.futureId? templateId with
  | none => simp
  | some id =>
    simp only [Option.some.injEq, forall_eq', at?]
    cases store.future[id]? <;> simp

namespace Mirrors

variable
  {counterpart : J → K → Prop}
  {store : JobStore J}
  {mirror : JobStore K}

theorem of_empty (counterpart : J → K → Prop) :
    Mirrors counterpart (empty : JobStore J) (empty : JobStore K) := by
  constructor
  · intro templateId
    rw [futureId?_empty, futureId?_empty]
  · intro stage id
    rw [at?_empty, at?_empty]
    exact .none

theorem mono
    {wider : J → K → Prop}
    (mirrors : Mirrors counterpart store mirror)
    (weaken : ∀ job other, counterpart job other → wider job other) :
    Mirrors wider store mirror where
  indexed := mirrors.indexed
  held stage id := by
    have both := mirrors.held stage id
    generalize store.at? stage id = job at both ⊢
    generalize mirror.at? stage id = other at both ⊢
    cases both with
    | some both => exact .some (weaken _ _ both)
    | none => exact .none

/-- The active jobs are counterparts. -/
theorem active
    (mirrors : Mirrors counterpart store mirror) :
    Option.Rel counterpart store.active mirror.active := by
  cases running : store.active with
  | none =>
    cases shown : mirror.active with
    | none => exact .none
    | some other =>
      have both := mirrors.held .active (Job.id other)
      rw [(mirror.at?_active _ other).mpr ⟨shown, rfl⟩] at both
      have missing : store.at? .active (Job.id other) = none := by
        rw [at?, running, Option.filter_none]
      rw [missing] at both
      cases both
  | some job =>
    have both := mirrors.held .active (Job.id job)
    rw [(store.at?_active _ job).mpr ⟨running, rfl⟩] at both
    generalize found : mirror.at? .active (Job.id job) = other at both
    cases both with
    | some both =>
      rw [((mirror.at?_active _ _).mp found).1]
      exact .some both

section Job

variable
  (mirrors : Mirrors counterpart store mirror)
  {job : J}
  {other : K}
  (new : counterpart job other)
  (ids : Job.id other = Job.id job)

include mirrors new ids

theorem addFuture (templateId : UInt64) :
    Mirrors counterpart (store.addFuture templateId job) (mirror.addFuture templateId other) where
  indexed another := by
    rw [futureId?_addFuture, futureId?_addFuture, ids, mirrors.indexed]
  held stage id := by
    rw [at?_addFuture, at?_addFuture, ids]
    split
    · exact .some new
    · exact mirrors.held stage id

theorem addActive :
    Mirrors counterpart (store.addActive job) (mirror.addActive other) where
  indexed := mirrors.indexed
  held stage id := by
    rw [at?_addActive, at?_addActive, ids]
    cases stage with
    | future | stale => exact mirrors.held _ id
    | active =>
      dsimp only
      split
      · exact .some new
      · exact .none
    | past => exact rel_or (mirrors.held .active id) (mirrors.held .past id)

/-- A new job takes its place in both stores, whether it waits or not. -/
theorem add
    (templateId : UInt64)
    (waits : Job.isFuture other = Job.isFuture job) :
    Mirrors counterpart
      (if Job.isFuture job then store.addFuture templateId job else store.addActive job)
      (if Job.isFuture other then mirror.addFuture templateId other
        else mirror.addActive other) := by
  rw [waits]
  split
  · exact mirrors.addFuture new ids templateId
  · exact mirrors.addActive new ids

end Job

/-- A template activates a job of both stores or of neither, and they still mirror each other. -/
theorem activate?
    (mirrors : Mirrors counterpart store mirror)
    (templateId : UInt64)
    (time : UInt32)
    (ids : ∀ job other, counterpart job other → Job.id other = Job.id job)
    (kept : ∀ job other, counterpart job other →
      counterpart (Job.activate job time) (Job.activate other time)) :
    Option.Rel (Mirrors counterpart)
      (store.activate? templateId time) (mirror.activate? templateId time) := by
  -- The same templates lead to the same ids, and the same ids wait, so neither activates alone.
  have together : store.activate? templateId time = none ↔
      mirror.activate? templateId time = none := by
    simp only [activate?_eq_none_iff, mirrors.indexed, eq_none_iff_of_rel (mirrors.held _ _)]
  cases done : store.activate? templateId time with
  | none =>
    rw [together.mp done]
    exact .none
  | some later =>
    cases shown : mirror.activate? templateId time with
    | none =>
      rw [together.mpr shown] at done
      cases done
    | some mirrored =>
      obtain ⟨id, job, found, waiting, -, cleared, places⟩ :=
        activate?_eq_some store later _ _ done
      obtain ⟨same, other, found', waiting', -, cleared', places'⟩ :=
        activate?_eq_some mirror mirrored _ _ shown
      have both := mirrors.held .future id
      rw [mirrors.indexed, found] at found'
      obtain rfl := Option.some.inj found'
      rw [waiting, waiting'] at both
      cases both with
      | some both =>
        refine .some ⟨fun another => by rw [cleared, cleared'], fun stage at' => ?_⟩
        rw [places, places', ids _ _ both]
        cases stage with
        | future | past => exact .none
        | stale => exact rel_or (mirrors.held .active at') (mirrors.held .past at')
        | active =>
          dsimp only
          split
          · exact .some (kept _ _ both)
          · exact .none

end Mirrors

end MiningPool.JobStore
