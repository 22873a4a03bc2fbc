import MiningPool.Job.Basic
import Std.Data.TreeMap

/-!
# The jobs of a channel

Jobs made for a block that is still to come wait under their ids, and each template
leads to its job.  At most one job is active.  A job that was active before on the same
chain tip is past, and shares of it still count; a job of the chain tip before is stale.
-/

namespace MiningPool

/-- The jobs of a channel by the stage of their life. -/
structure JobStore (J : Type) where
  /-- The waiting job of each template. -/
  byTemplate : Std.TreeMap UInt64 UInt32
  future : Std.TreeMap UInt32 J
  active : Option J
  past : Std.TreeMap UInt32 J
  stale : Std.TreeMap UInt32 J

namespace JobStore

variable {J : Type}

/-- No jobs. -/
def empty : JobStore J :=
  ⟨∅, ∅, none, ∅, ∅⟩

instance : Inhabited (JobStore J) := ⟨empty⟩

/-- The id of the waiting job of a template. -/
def futureId? (store : JobStore J) (templateId : UInt64) : Option UInt32 :=
  store.byTemplate[templateId]?

/-- The stale jobs are forgotten, and the past ones become stale. -/
def markPastStale (store : JobStore J) : JobStore J :=
  { store with past := ∅, stale := store.past }

variable [Job J]

/-- Keep a job that waits for the block of a template. -/
def addFuture (store : JobStore J) (templateId : UInt64) (job : J) : JobStore J :=
  { store with
    byTemplate := store.byTemplate.insert templateId (Job.id job)
    future := store.future.insert (Job.id job) job }

/-- Make a job the active one; the one before is past. -/
def addActive (store : JobStore J) (job : J) : JobStore J :=
  { store with
    active := some job
    past :=
      match store.active with
      | none => store.past
      | some previous => store.past.insert (Job.id previous) previous }

/--
Activate the waiting job of a template.  All jobs that were active before are stale
then, and the other waiting jobs are dropped; none if no job waits for the template.
-/
def activate? (store : JobStore J) (templateId : UInt64) (time : UInt32) :
    Option (JobStore J) :=
  match store.futureId? templateId with
  | none => none
  | some id =>
    match store.future[id]? with
    | none => none
    | some job =>
      let activated := store.addActive (Job.activate job time)
      some { activated with byTemplate := ∅, future := ∅ }.markPastStale

/-- The active or past job of an id. -/
def current? (store : JobStore J) (id : UInt32) : Option J :=
  match store.active with
  | none => store.past[id]?
  | some job => if Job.id job = id then some job else store.past[id]?

/-- A job of an id in any stage except the active one: waiting, past or stale. -/
def kept? (store : JobStore J) (id : UInt32) : Option J :=
  store.future[id]? <|> store.past[id]? <|> store.stale[id]?

end JobStore

end MiningPool
