import MiningPool.Proofs.Noise.Direction

/-!
# What ciphers produce and accept

A cipher that seals texts one after the other produces each sealed text at a counter value
of its own, and a cipher that opens accepts each at one.  If whatever is accepted at a
counter value was produced at it, then the texts that are opened are those that were sealed,
in their order, whoever carried them: no counter value is left out and none comes twice.
-/

namespace MiningPool.Noise

open MiningPool.Session

/-- A sealed text and the counter value at which it was produced or accepted. -/
abbrev Packet := UInt64 × Bytes

namespace Transport

/-- What the sending cipher produces for texts one after the other, until it fails. -/
def produced (suite : Suite) : List Bytes → Transport → List Packet
  | [], _ => []
  | text :: rest, transport =>
    match transport.encrypt suite text with
    | .error _ => []
    | .ok (sealedText, later) =>
      (transport.sending.counter, sealedText) :: produced suite rest later

/-- What the receiving cipher accepts of sealed texts one after the other, until it fails. -/
def accepted (suite : Suite) : List Bytes → Transport → List Packet
  | [], _ => []
  | sealedText :: rest, transport =>
    match transport.decrypt suite sealedText with
    | .error _ => []
    | .ok (_, later) =>
      (transport.receiving.counter, sealedText) :: accepted suite rest later

end Transport

/-- A packet is the sealed form of one of some texts, at the counter value of this text. -/
def Genuine
    (suite : Suite)
    (direction : Direction)
    (texts : List Bytes)
    (packet : Packet) :
    Prop :=
  ∃ index text,
    texts[index]? = some text ∧
    packet.1.toNat = direction.counter.toNat + index ∧
    packet.2 = suite.sealText direction.key packet.1 [] text

/-! ## Producing -/

section

variable {suite : Suite} {direction receiving : Direction} {texts : List Bytes}

theorem toNat_succ_lt_of_ne_lastCounter
    {counter : UInt64}
    (unused : counter ≠ lastCounter) :
    counter.toNat + 1 < UInt64.size := by
  have bound := counter.toNat_lt
  have different : counter.toNat ≠ lastCounter.toNat := fun same =>
    unused (UInt64.toNat_inj.mp same)
  have last : lastCounter.toNat + 1 = UInt64.size := by decide
  have size : UInt64.size = 2 ^ 64 := rfl
  omega

/-- What does not fail seals the text at a counter value that is not the last. -/
theorem of_encrypt_eq_ok
    {transport later : Transport}
    {text sealedText : Bytes}
    (done : transport.encrypt suite text = .ok (sealedText, later)) :
    transport.sending.counter.toNat + 1 < UInt64.size ∧
      sealedText = suite.sealText transport.sending.key transport.sending.counter [] text ∧
      later = { transport with sending := transport.sending.after 1 } := by
  by_cases unused : transport.sending.counter = lastCounter
  · simp [Transport.encrypt, sealNext, unused] at done
  · simp only [Transport.encrypt, sealNext, unused, if_false, Except.ok.injEq,
      Prod.mk.injEq] at done
    exact ⟨toNat_succ_lt_of_ne_lastCounter unused, done.1.symm, done.2.symm⟩

/-- Sealing texts without failure takes as many counter values as there are texts. -/
theorem of_sealChunks_eq_ok
    {bytes : Bytes}
    {later : Transport}
    (done : sealChunks suite texts ⟨direction, receiving⟩ = .ok (bytes, later)) :
    direction.counter.toNat + texts.length < UInt64.size ∧
      later = ⟨direction.after texts.length, receiving⟩ := by
  induction texts generalizing direction bytes with
  | nil =>
    cases done
    exact ⟨direction.counter.toNat_lt, by simp⟩
  | cons text rest ih =>
    rcases first : Transport.encrypt suite ⟨direction, receiving⟩ text with
      failure | ⟨sealedText, between⟩
    · simp [sealChunks, first] at done
    obtain ⟨room, -, rfl⟩ := of_encrypt_eq_ok first
    rcases others : sealChunks suite rest ⟨direction.after 1, receiving⟩ with
      failure | ⟨sealedRest, final⟩
    · simp [sealChunks, first, others] at done
    simp only [sealChunks, first, others, Except.ok.injEq, Prod.mk.injEq] at done
    obtain ⟨-, rfl⟩ := done
    obtain ⟨more, rfl⟩ := ih others
    rw [direction.toNat_counter_after 1 room] at more
    refine ⟨?_, ?_⟩
    · rw [List.length_cons]
      omega
    · rw [Direction.after_after, List.length_cons, Nat.add_comm]

theorem genuine_of_mem_produced
    {packet : Packet}
    (member : packet ∈ Transport.produced suite texts ⟨direction, receiving⟩) :
    Genuine suite direction texts packet := by
  induction texts generalizing direction with
  | nil => cases member
  | cons text rest ih =>
    rcases first : Transport.encrypt suite ⟨direction, receiving⟩ text with
      failure | ⟨sealedText, between⟩
    · simp [Transport.produced, first] at member
    obtain ⟨room, rfl, rfl⟩ := of_encrypt_eq_ok first
    simp only [Transport.produced, first, List.mem_cons] at member
    rcases member with rfl | member
    · exact ⟨0, text, rfl, rfl, rfl⟩
    · obtain ⟨index, other, found, counted, sealedAlike⟩ := ih member
      rw [direction.toNat_counter_after 1 room] at counted
      exact ⟨index + 1, other, found, by omega, sealedAlike⟩

/-- What is genuine among the texts after the first ones is genuine among all. -/
theorem Genuine.append
    {first rest : List Bytes}
    {packet : Packet}
    (room : direction.counter.toNat + first.length < UInt64.size)
    (genuine : Genuine suite (direction.after first.length) rest packet) :
    Genuine suite direction (first ++ rest) packet := by
  obtain ⟨index, text, found, counted, sealedAlike⟩ := genuine
  rw [direction.toNat_counter_after first.length room] at counted
  refine ⟨first.length + index, text, ?_, by omega, sealedAlike⟩
  rw [List.getElem?_append_right (Nat.le_add_right _ _), Nat.add_sub_cancel_left, found]

theorem Genuine.append_left
    {first : List Bytes}
    {packet : Packet}
    (genuine : Genuine suite direction first packet)
    (rest : List Bytes) :
    Genuine suite direction (first ++ rest) packet := by
  obtain ⟨index, text, found, counted, sealedAlike⟩ := genuine
  have inside : index < first.length := (List.getElem?_eq_some_iff.mp found).1
  exact ⟨index, text, by rw [List.getElem?_append_left inside, found], counted, sealedAlike⟩

end

/-! ## Accepting -/

section

variable {suite : Suite} {direction sending : Direction} {texts : List Bytes}

theorem of_decrypt_eq_ok
    {transport later : Transport}
    {text sealedText : Bytes}
    (done : transport.decrypt suite sealedText = .ok (text, later)) :
    transport.receiving.counter.toNat + 1 < UInt64.size ∧
      suite.openText? transport.receiving.key transport.receiving.counter [] sealedText =
        some text ∧
      later = { transport with receiving := transport.receiving.after 1 } := by
  by_cases unused : transport.receiving.counter = lastCounter
  · simp [Transport.decrypt, openNext, unused] at done
  · cases opened : suite.openText? transport.receiving.key transport.receiving.counter []
      sealedText with
    | none => simp [Transport.decrypt, openNext, unused, opened] at done
    | some plain =>
      simp only [Transport.decrypt, openNext, unused, if_false, opened, Except.ok.injEq,
        Prod.mk.injEq] at done
      exact ⟨toNat_succ_lt_of_ne_lastCounter unused, congrArg some done.1, done.2.symm⟩

/-- A genuine packet that is accepted is opened to the text whose turn it is. -/
theorem Genuine.drop_eq
    (sealing : suite.Sealing)
    {count : Nat}
    {text sealedText : Bytes}
    {later : Transport}
    (room : direction.counter.toNat + count < UInt64.size)
    (genuine : Genuine suite direction texts ((direction.after count).counter, sealedText))
    (done : Transport.decrypt suite ⟨sending, direction.after count⟩ sealedText =
      .ok (text, later)) :
    texts.drop count = text :: texts.drop (count + 1) ∧
      direction.counter.toNat + (count + 1) < UInt64.size ∧
      later = ⟨sending, direction.after (count + 1)⟩ := by
  obtain ⟨unused, opened, rfl⟩ := of_decrypt_eq_ok done
  obtain ⟨index, other, found, counted, sealedAlike⟩ := genuine
  dsimp only at unused opened counted sealedAlike
  rw [direction.toNat_counter_after count room] at unused counted
  obtain rfl : count = index := by omega
  have same : text = other := by
    rw [sealedAlike] at opened
    exact Option.some.inj (opened.symm.trans (sealing.openText?_sealText _ _ [] other))
  obtain ⟨inside, rfl⟩ := List.getElem?_eq_some_iff.mp found
  refine ⟨?_, by omega, ?_⟩
  · rw [same, List.drop_eq_getElem_cons inside]
  · rw [Direction.after_after]

/-- Genuine packets that are accepted one after the other are opened to the next texts. -/
theorem openChunks_genuine
    (sealing : suite.Sealing)
    {count : Nat}
    {sealedTexts : List Bytes}
    {bytes : Bytes}
    {later : Transport}
    (room : direction.counter.toNat + count < UInt64.size)
    (genuine : ∀ packet ∈ Transport.accepted suite sealedTexts ⟨sending, direction.after count⟩,
      Genuine suite direction texts packet)
    (done : openChunks suite sealedTexts ⟨sending, direction.after count⟩ = .ok (bytes, later)) :
    ∃ taken,
      texts.drop count = taken ++ texts.drop (count + sealedTexts.length) ∧
      taken.length = sealedTexts.length ∧
      bytes = taken.flatten ∧
      direction.counter.toNat + (count + sealedTexts.length) < UInt64.size ∧
      later = ⟨sending, direction.after (count + sealedTexts.length)⟩ := by
  induction sealedTexts generalizing count bytes with
  | nil =>
    cases done
    exact ⟨[], rfl, rfl, rfl, room, rfl⟩
  | cons sealedText rest ih =>
    rcases first : Transport.decrypt suite ⟨sending, direction.after count⟩ sealedText with
      failure | ⟨text, between⟩
    · simp [openChunks, first] at done
    simp only [Transport.accepted, first, List.mem_cons, forall_eq_or_imp] at genuine
    obtain ⟨head, more, rfl⟩ := genuine.1.drop_eq sealing room first
    rcases others : openChunks suite rest ⟨sending, direction.after (count + 1)⟩ with
      failure | ⟨openedRest, final⟩
    · simp [openChunks, first, others] at done
    simp only [openChunks, first, others, Except.ok.injEq, Prod.mk.injEq] at done
    obtain ⟨rfl, rfl⟩ := done
    obtain ⟨taken, tail, length, rfl, further, rfl⟩ := ih more genuine.2 others
    have shift : count + 1 + rest.length = count + (sealedText :: rest).length := by
      rw [List.length_cons]
      omega
    rw [shift] at tail further
    refine ⟨text :: taken, ?_, ?_, rfl, further, by rw [shift]⟩
    · rw [head, tail, List.cons_append]
    · rw [List.length_cons, List.length_cons, length]

end

end MiningPool.Noise
