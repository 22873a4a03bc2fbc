import MiningPool.Extranonce
import MiningPool.Proofs.Bytes.Order

/-!
# Starts of extranonces are handed out once

An allocator counts the starts that it hands out, and writes the count behind the part
that is the same for all.  Only a start that is handed out moves the counter, so every
count is used once.  When the next count has no room in the bytes of the counter, or in
64 bits, the allocator is exhausted for good.
-/

namespace MiningPool.ExtranonceAllocator

/-- An allocator that was just set up to leave a number of bytes to miners. -/
inductive SetUp (staticPart : Bytes) : Nat → ExtranonceAllocator → Prop
  | standard
      (allocator : ExtranonceAllocator)
      (done : standard staticPart = .ok allocator) :
      SetUp staticPart 0 allocator
  | extended
      (allocation : Nat)
      (allocator : ExtranonceAllocator)
      (done : extended allocation staticPart = .ok allocator) :
      SetUp staticPart allocation allocator

/-- The allocator after requests, each for at least a number of bytes to roll. -/
def run (allocator : ExtranonceAllocator) : List Nat → ExtranonceAllocator
  | [] => allocator
  | minimum :: later => (allocator.next minimum).1.run later

/-- The starts that are handed out upon requests, in their order. -/
def granted (allocator : ExtranonceAllocator) : List Nat → List Bytes
  | [] => []
  | minimum :: later =>
    (allocator.next minimum).2.toOption.toList ++ (allocator.next minimum).1.granted later

/-- The start that a value of the counter stands for. -/
def startOf (allocator : ExtranonceAllocator) (value : Nat) : Bytes :=
  allocator.staticPart ++ Bytes.ofNatBE allocator.counterSize value

/-- A value can be written in the bytes of the counter and in 64 bits. -/
def HasRoom (allocator : ExtranonceAllocator) (value : Nat) : Prop :=
  value < Bytes.capacity allocator.counterSize ∧ value < UInt64.size

/-- The start with a number: the part that is the same for all, and then the number. -/
structure IsStart (staticPart : Bytes) (size number : Nat) (start : Bytes) : Prop where
  length : start.length = size
  same : staticPart <+: start
  counted : Bytes.toNatBE (start.drop staticPart.length) = number

/-! ## One request -/

/-- What a request can be answered, and what it leaves of the allocator. -/
inductive Answers (allocator : ExtranonceAllocator) (minimum : Nat) :
    ExtranonceAllocator × Except ExtranonceError Bytes → Prop
  | refused (tooLarge : allocator.allocation < minimum) :
      Answers allocator minimum (allocator, .error .minimumTooLarge)
  | exhausted
      (rolls : minimum ≤ allocator.allocation)
      (full : ¬ allocator.HasRoom (allocator.counter + 1)) :
      Answers allocator minimum (allocator, .error .exhausted)
  | handed
      (rolls : minimum ≤ allocator.allocation)
      (room : allocator.HasRoom (allocator.counter + 1)) :
      Answers allocator minimum
        ({ allocator with counter := allocator.counter + 1 },
          .ok (allocator.startOf (allocator.counter + 1)))

theorem answers_next (allocator : ExtranonceAllocator) (minimum : Nat) :
    allocator.Answers minimum (allocator.next minimum) := by
  unfold next
  dsimp only
  split
  next tooLarge => exact .refused tooLarge
  next rolls =>
    split
    next full =>
      refine .exhausted (Nat.not_lt.mp rolls) ?_
      rintro ⟨written, counted⟩
      omega
    next room =>
      rw [not_or, Nat.not_le, Nat.not_le] at room
      exact .handed (Nat.not_lt.mp rolls) ⟨room.2, room.1⟩

theorem next_eq_minimumTooLarge (allocator : ExtranonceAllocator) (minimum : Nat) :
    (allocator.next minimum).2 = .error .minimumTooLarge ↔ allocator.allocation < minimum := by
  have answers := allocator.answers_next minimum
  generalize allocator.next minimum = answer at answers ⊢
  cases answers with
  | refused tooLarge => exact iff_of_true rfl tooLarge
  | exhausted rolls => exact iff_of_false (fun same => nomatch same) (Nat.not_lt.mpr rolls)
  | handed rolls => exact iff_of_false (fun same => nomatch same) (Nat.not_lt.mpr rolls)

theorem next_eq_exhausted (allocator : ExtranonceAllocator) (minimum : Nat) :
    (allocator.next minimum).2 = .error .exhausted ↔
      minimum ≤ allocator.allocation ∧ ¬ allocator.HasRoom (allocator.counter + 1) := by
  have answers := allocator.answers_next minimum
  generalize allocator.next minimum = answer at answers ⊢
  cases answers with
  | refused tooLarge =>
    exact iff_of_false (fun same => nomatch same) fun full => Nat.not_lt.mpr full.1 tooLarge
  | exhausted rolls full => exact iff_of_true rfl ⟨rolls, full⟩
  | handed rolls room => exact iff_of_false (fun same => nomatch same) fun full => full.2 room

/-- A request that fails changes nothing, and fails in one of two ways. -/
theorem next_of_error
    (allocator : ExtranonceAllocator)
    (minimum : Nat)
    (failure : ExtranonceError)
    (failed : (allocator.next minimum).2 = .error failure) :
    (allocator.next minimum).1 = allocator ∧
      (failure = .minimumTooLarge ∨ failure = .exhausted) := by
  have answers := allocator.answers_next minimum
  generalize allocator.next minimum = answer at answers failed ⊢
  cases answers with
  | refused tooLarge => exact ⟨rfl, .inl (Except.error.inj failed).symm⟩
  | exhausted rolls full => exact ⟨rfl, .inr (Except.error.inj failed).symm⟩
  | handed rolls room => cases failed

theorem not_hasRoom_iff (allocator : ExtranonceAllocator) (value : Nat) :
    ¬ allocator.HasRoom value ↔
      Bytes.capacity (extranonceSize - allocator.allocation - allocator.staticPart.length) ≤
          value ∨
        UInt64.size ≤ value := by
  rw [HasRoom, counterSize, startSize, Classical.not_and_iff_not_or_not, Nat.not_lt, Nat.not_lt]

/-! ## All requests -/

/-- The starts are those of the values that the counter takes, one after the other. -/
theorem granted_eq (allocator : ExtranonceAllocator) (requests : List Nat) :
    ∃ count,
      allocator.run requests = { allocator with counter := allocator.counter + count } ∧
      allocator.granted requests =
        (List.range' (allocator.counter + 1) count).map allocator.startOf ∧
      ∀ value, allocator.counter < value → value ≤ allocator.counter + count →
        allocator.HasRoom value := by
  induction requests generalizing allocator with
  | nil => exact ⟨0, rfl, rfl, fun value above below => by omega⟩
  | cons minimum later ih =>
    have answers := allocator.answers_next minimum
    rw [run, granted]
    generalize allocator.next minimum = answer at answers ⊢
    cases answers with
    | refused tooLarge => exact ih allocator
    | exhausted rolls full => exact ih allocator
    | handed rolls room =>
      obtain ⟨count, run_eq, granted_eq, rooms⟩ :=
        ih { allocator with counter := allocator.counter + 1 }
      refine ⟨count + 1, ?_, ?_, ?_⟩
      · rw [run_eq, Nat.add_assoc, Nat.add_comm 1 count]
      · rw [granted_eq, List.range'_succ, List.map_cons]
        rfl
      · intro value above below
        rcases Nat.eq_or_lt_of_le (Nat.succ_le_of_lt above) with rfl | more
        · exact room
        · exact rooms value more (by rw [Nat.add_right_comm]; exact below)

/-- Requests move nothing but the counter. -/
theorem staticPart_run (allocator : ExtranonceAllocator) (requests : List Nat) :
    (allocator.run requests).staticPart = allocator.staticPart := by
  obtain ⟨count, run_eq, -⟩ := allocator.granted_eq requests
  rw [run_eq]

theorem allocation_run (allocator : ExtranonceAllocator) (requests : List Nat) :
    (allocator.run requests).allocation = allocator.allocation := by
  obtain ⟨count, run_eq, -⟩ := allocator.granted_eq requests
  rw [run_eq]

/-- The counter counts the starts that are handed out. -/
theorem counter_run (allocator : ExtranonceAllocator) (requests : List Nat) :
    (allocator.run requests).counter =
      allocator.counter + (allocator.granted requests).length := by
  obtain ⟨count, run_eq, granted_eq, -⟩ := allocator.granted_eq requests
  rw [run_eq, granted_eq, List.length_map, List.length_range']

/-- An exhausted allocator hands nothing out any more. -/
theorem run_of_full
    (allocator : ExtranonceAllocator)
    (full : ¬ allocator.HasRoom (allocator.counter + 1))
    (requests : List Nat) :
    allocator.run requests = allocator := by
  induction requests with
  | nil => rfl
  | cons minimum later ih =>
    have answers := allocator.answers_next minimum
    rw [run]
    generalize allocator.next minimum = answer at answers ⊢
    cases answers with
    | refused tooLarge => exact ih
    | exhausted rolls full => exact ih
    | handed rolls room => exact absurd room full

/-! ## Starts -/

theorem startOf_lt
    (allocator : ExtranonceAllocator)
    {less value : Nat}
    (before : less < value)
    (room : allocator.HasRoom value) :
    allocator.startOf less < allocator.startOf value := by
  refine List.append_left_lt ?_
  rw [Bytes.lt_iff_toNatBE_lt _ _ (by simp), Bytes.toNatBE_ofNatBE, Bytes.toNatBE_ofNatBE,
    Nat.mod_eq_of_lt room.1, Nat.mod_eq_of_lt (Nat.lt_trans before room.1)]
  exact before

theorem isStart_startOf
    (allocator : ExtranonceAllocator)
    (value : Nat)
    (room : allocator.HasRoom value) :
    IsStart allocator.staticPart (extranonceSize - allocator.allocation) value
      (allocator.startOf value) where
  length := by
    have roomy := allocator.roomy
    rw [startOf, List.length_append, Bytes.length_ofNatBE, counterSize, startSize]
    omega
  same := List.prefix_append _ _
  counted := by
    rw [startOf, List.drop_left, Bytes.toNatBE_ofNatBE, Nat.mod_eq_of_lt room.1]

theorem pairwise_granted (allocator : ExtranonceAllocator) (requests : List Nat) :
    (allocator.granted requests).Pairwise (· < ·) := by
  obtain ⟨count, -, granted_eq, rooms⟩ := allocator.granted_eq requests
  rw [granted_eq, List.pairwise_map]
  refine List.Pairwise.imp_of_mem ?_ List.pairwise_lt_range'
  intro less value _ member before
  have bounds := List.mem_range'_1.mp member
  exact allocator.startOf_lt before (rooms value (by omega) (by omega))

/-- The starts of an allocator that was just set up are numbered from one. -/
theorem isStart_granted
    (allocator : ExtranonceAllocator)
    (unused : allocator.counter = 0)
    (requests : List Nat)
    (index : Nat)
    (start : Bytes)
    (found : (allocator.granted requests)[index]? = some start) :
    IsStart allocator.staticPart (extranonceSize - allocator.allocation) (index + 1) start := by
  obtain ⟨count, -, granted_eq, rooms⟩ := allocator.granted_eq requests
  simp only [granted_eq, unused, List.getElem?_map, Option.map_eq_some_iff,
    List.getElem?_eq_some_iff, List.length_range', List.getElem_range'] at found
  obtain ⟨_, ⟨bound, rfl⟩, rfl⟩ := found
  have number : 0 + 1 + 1 * index = index + 1 := by omega
  rw [number]
  exact allocator.isStart_startOf (index + 1) (rooms (index + 1) (by omega) (by omega))

theorem SetUp.fresh
    {staticPart : Bytes}
    {allocation : Nat}
    {allocator : ExtranonceAllocator}
    (setUp : SetUp staticPart allocation allocator) :
    allocator.staticPart = staticPart ∧ allocator.allocation = allocation ∧
      allocator.counter = 0 := by
  cases setUp with
  | standard _ done =>
    unfold ExtranonceAllocator.standard at done
    split at done
    · cases done
      exact ⟨rfl, rfl, rfl⟩
    · cases done
  | extended _ _ done =>
    unfold ExtranonceAllocator.extended at done
    split at done
    · cases done
      exact ⟨rfl, rfl, rfl⟩
    · cases done

/--
Whatever is asked of an allocator, and in whichever order, the starts that it hands out
increase, so no two are the same.  The one with a number is as long as the allocation
leaves it, begins with the part that is the same for all and ends in its number, and the
counter tells how many there were.  A request fails when the miner wants to roll more
than is left to it, and else when the next number has no room in the bytes behind the
common part or in 64 bits; then nothing changes, and an allocator that is exhausted
stays so.
-/
theorem starts_never_repeat
    (staticPart : Bytes)
    (allocation : Nat)
    (fresh : ExtranonceAllocator)
    (setUp : SetUp staticPart allocation fresh)
    (requests : List Nat) :
    let allocator := fresh.run requests
    let starts := fresh.granted requests
    let counterSize := extranonceSize - allocation - staticPart.length
    starts.Pairwise (· < ·) ∧ starts.Nodup ∧
      (∀ index start, starts[index]? = some start →
        IsStart staticPart (extranonceSize - allocation) (index + 1) start) ∧
      allocator.counter = starts.length ∧
      ∀ minimum,
        ((allocator.next minimum).2 = .error .minimumTooLarge ↔ allocation < minimum) ∧
        ((allocator.next minimum).2 = .error .exhausted ↔
          minimum ≤ allocation ∧
            (Bytes.capacity counterSize ≤ allocator.counter + 1 ∨
              UInt64.size ≤ allocator.counter + 1)) ∧
        (∀ failure, (allocator.next minimum).2 = .error failure →
          (allocator.next minimum).1 = allocator ∧
            (failure = .minimumTooLarge ∨ failure = .exhausted)) ∧
        ((allocator.next minimum).2 = .error .exhausted →
          ∀ later again, again ≤ allocation →
            ((allocator.run later).next again).2 = .error .exhausted) := by
  obtain ⟨rfl, rfl, unused⟩ := setUp.fresh
  have increasing := fresh.pairwise_granted requests
  refine ⟨increasing, increasing.imp fun before same => ?_,
    fresh.isStart_granted unused requests, ?_, fun minimum => ?_⟩
  · exact List.lt_irrefl _ (same ▸ before)
  · rw [counter_run, unused, Nat.zero_add]
  · have sameStatic := fresh.staticPart_run requests
    have sameAllocation := fresh.allocation_run requests
    generalize fresh.run requests = allocator at sameStatic sameAllocation ⊢
    rw [← sameStatic, ← sameAllocation]
    refine ⟨allocator.next_eq_minimumTooLarge minimum, ?_, allocator.next_of_error minimum, ?_⟩
    · rw [next_eq_exhausted, not_hasRoom_iff]
    · intro exhausted later again rolls
      have full := ((allocator.next_eq_exhausted minimum).mp exhausted).2
      rw [allocator.run_of_full full later, next_eq_exhausted]
      exact ⟨rolls, full⟩

/-- One byte is left to the counter: it lasts for 255 starts, and the next request fails. -/
theorem starts_never_repeat_byte :
    ∃ fresh, extended 30 [7] = .ok fresh ∧
      fresh.granted [8, 31, 30] = [[7, 1], [7, 2]] ∧
      (fresh.granted (List.replicate 255 0)).Nodup ∧
      ((fresh.run (List.replicate 255 0)).next 0).2 = .error .exhausted := by
  have setUp : SetUp [7] 30 _ := .extended 30 _ rfl
  obtain ⟨-, nodup, -, counted, answers⟩ :=
    starts_never_repeat [7] 30 _ setUp (List.replicate 255 0)
  refine ⟨_, rfl, by decide, nodup, (answers 0).2.1.mpr ⟨by decide, .inl ?_⟩⟩
  rw [counted]
  decide +kernel

end MiningPool.ExtranonceAllocator
