import MiningPool.Proofs.Job.Coinbase

/-!
# Jobs of a group and jobs of its members

A group makes one job for all of its members and leaves the extranonce out; each member
puts its own in.  A member could as well make the job itself, from the same template.  The
two ways meet: the first computes the root from the halves without the witness, as the job
carries them in its message, the second from those with the witness, and a draft whose
second half fits into a message leads to the same root either way.
-/

namespace MiningPool.JobFactory

open MiningPool.Bitcoin MiningPool.Coinbase MiningPool.Message.Mining
open MiningPool.Message.TemplateDistribution

/--
When a factory makes a job for a group, the job can be turned into that of any member.  It
is the job that the factory would have made for the member alone, with the same id, and
the factory is left alike.
-/
theorem toStandard_eq_standardJob
    (factory later : JobFactory)
    (groupId channelId : UInt32)
    (tip : Option ChainTip)
    (extranoncePrefix : Bytes)
    (whole : extranoncePrefix.length = extranonceSize)
    (template : NewTemplate)
    (rewards : List Output)
    (job : ExtendedJob)
    (made : factory.templateJob groupId tip [] template rewards = (later, .ok job)) :
    ∃ own,
      job.toStandard channelId extranoncePrefix = .ok own ∧
      factory.standardJob channelId tip extranoncePrefix template rewards = (later, .ok own) := by
  obtain ⟨time, cut, bound, built, made⟩ := (factory.templateJob_eq_ok_iff _ _ _ _ _ _ _).mp made
  obtain ⟨outputs, push, fits, -, -, rfl⟩ := factory.templateHalves_ok template rewards cut built
  have readable := (assembled_extendedJob _ _ _ _ _ job rfl made).readable
  obtain ⟨rfl, front, back, frontTaken, backTaken, rfl⟩ :=
    factory.extendedJob_draft _ _ _ _ _ made
  -- The root of either way is that of the hash of the form without the witness.
  have plain := Draft.merkleRoot?_plain readable whole template.merklePath.items
  have full := Draft.merkleRoot?_halves readable whole template.merklePath.items
  refine ⟨_, (ExtendedJob.toStandard_eq_ok_iff _ _ _ _).mpr ⟨template, _, rfl, ?_, rfl⟩,
    (factory.standardJob_eq_ok_iff _ _ _ _ _ _ _).mpr
      ⟨time, _, _, bound, built, full, rfl, rfl⟩⟩
  rw [ExtendedJob.merkleRoot?, frontTaken, backTaken]
  exact plain

/-- A template of the chain tip with an output and with another transaction beside it. -/
def pairedTemplate : NewTemplate :=
  { outputTemplate with
    futureTemplate := false
    merklePath := ⟨[⟨List.replicate 32 3, by decide⟩], by decide⟩ }

/-- A job of a group becomes the one that the member with number 1 would make. -/
theorem toStandard_eq_standardJob_paired :
    ∃ later job own,
      let factory := start true (some "pool")
      let tip : ChainTip := ⟨.blank _, 0x1d00ffff, 1700000000⟩
      let extranoncePrefix := List.replicate 32 7
      factory.templateJob 9 (some tip) [] pairedTemplate [⟨50, [0x51]⟩] = (later, .ok job) ∧
      job.toStandard 1 extranoncePrefix = .ok own ∧
      factory.standardJob 1 (some tip) extranoncePrefix pairedTemplate [⟨50, [0x51]⟩] =
        (later, .ok own) := by
  have computed :
      ((start true (some "pool")).templateJob 9 (some ⟨.blank _, 0x1d00ffff, 1700000000⟩) []
        pairedTemplate [⟨50, [0x51]⟩]).2.toBool = true := by
    decide +kernel
  rcases made : (start true (some "pool")).templateJob 9 (some ⟨.blank _, 0x1d00ffff, 1700000000⟩)
    [] pairedTemplate [⟨50, [0x51]⟩] with ⟨later, failure | job⟩
  · rw [made] at computed
    cases computed
  · obtain ⟨own, converted, direct⟩ := toStandard_eq_standardJob _ later 9 1 _
      (List.replicate 32 7) (by decide) pairedTemplate _ job made
    exact ⟨later, job, own, made, converted, direct⟩

end MiningPool.JobFactory
