import MiningPool.Proofs.Frame.Clear

/-!
# Where a frame ends

Frames follow each other in a stream without anything between them, so a frame is delimited
by its header alone: by the number of bytes that the header announces.  Bytes that lack some
are answered with how many, and these are not more than the frame itself still lacks, or a
reader that asks for as many would take the beginning of the next frame with them.

Main result: exactly the bytes whose header announces the others are a frame, and a reader
that takes as many bytes as are missing, again and again, has the whole frame after two
takes and never a byte more.
-/

namespace MiningPool.Frame

open Wire

/-! ## Headers byte by byte -/

namespace Header

/-- Read a header from the front of the bytes, byte by byte. -/
def ofOctets : Bytes → Except FrameError Header
  | extension₀ :: extension₁ :: messageType :: length₀ :: length₁ :: length₂ :: _ =>
    .ok {
      extensionType := .ofNat (Bytes.toNatLE [extension₀, extension₁])
      messageType
      length := ⟨Bytes.toNatLE [length₀, length₁, length₂], Bytes.toNatLE_lt _⟩
    }
  | bytes => .error (.shortHeader bytes.length)

theorem ofBytes_of_short
    (bytes : Bytes)
    (short : bytes.length < headerSize) :
    Header.ofBytes bytes = .error (.shortHeader bytes.length) := by
  rw [Header.ofBytes, Bytes.cut?_eq, if_neg (Nat.not_le.mpr short)]

theorem ofOctets_of_short
    (bytes : Bytes)
    (short : bytes.length < headerSize) :
    ofOctets bytes = .error (.shortHeader bytes.length) := by
  unfold ofOctets
  split
  · simp only [List.length_cons, headerSize] at short
    omega
  · rfl

theorem ofOctets_toBytes
    (header : Header)
    (rest : Bytes) :
    ofOctets (header.toBytes ++ rest) = .ok header := by
  obtain ⟨extensionType, messageType, length⟩ := header
  have extension := Bytes.toNatLE_ofNatLE 2 extensionType.toNat
  have announced := Bytes.toNatLE_ofNatLE 3 length.toNat
  have bound : extensionType.toNat < Bytes.capacity 2 :=
    Nat.lt_of_lt_of_eq extensionType.toNat_lt (by decide)
  rw [Nat.mod_eq_of_lt bound] at extension
  rw [Nat.mod_eq_of_lt length.isLt] at announced
  show Except.ok (⟨.ofNat (Bytes.toNatLE (Bytes.ofNatLE 2 extensionType.toNat)),
    .ofNat messageType.toNat,
    ⟨Bytes.toNatLE (Bytes.ofNatLE 3 length.toNat), Bytes.toNatLE_lt _⟩⟩ : Header) = _
  simp only [extension, announced, UInt16.ofNat_toNat, UInt8.ofNat_toNat]

/-- Bytes that are long enough are those of a header and others behind them. -/
theorem exists_toBytes_append
    (bytes : Bytes)
    (headed : headerSize ≤ bytes.length) :
    ∃ header : Header, header.toBytes ++ bytes.drop headerSize = bytes := by
  obtain ⟨header, front⟩ :=
    exists_toBytes_eq (bytes.take headerSize) (List.length_take_of_le headed)
  exact ⟨header, by rw [front, List.take_append_drop]⟩

/-- Reading a header in words comes to reading it byte by byte. -/
theorem ofBytes_eq_ofOctets (bytes : Bytes) : Header.ofBytes bytes = ofOctets bytes := by
  by_cases headed : headerSize ≤ bytes.length
  · obtain ⟨header, same⟩ := exists_toBytes_append bytes headed
    rw [← same, ofBytes_toBytes, ofOctets_toBytes]
  · have short := Nat.not_le.mp headed
    rw [ofBytes_of_short bytes short, ofOctets_of_short bytes short]

/-- A header is read in words off the front of what starts with it. -/
theorem read_of_ofBytes
    {bytes : Bytes}
    {header : Header}
    (headed : headerSize ≤ bytes.length)
    (read : Header.ofBytes bytes = .ok header) :
    Record.read bytes = .ok (header, bytes.drop headerSize) := by
  obtain ⟨found, same⟩ := exists_toBytes_append bytes headed
  have first := found.ofBytes_toBytes (bytes.drop headerSize)
  have words := Record.reads_encoding found (bytes.drop headerSize)
  rw [same, read] at first
  cases first
  rwa [encoding_eq_toBytes, same] at words

end Header

/-! ## Missing bytes -/

/-- The number of bytes that the header announces behind itself. -/
def announcedLength (bytes : Bytes) : Nat :=
  Bytes.toNatLE ((bytes.drop 3).take 3)

/-- The bytes of a header and all those that it announces. -/
structure Whole (bytes : Bytes) : Prop where
  headed : headerSize ≤ bytes.length
  length_eq : bytes.length = headerSize + announcedLength bytes

/-- A header that is read announces what its last three bytes say. -/
theorem announcedLength_of_ofBytes
    {bytes : Bytes}
    {header : Header}
    (read : Header.ofBytes bytes = .ok header) :
    header.length.toNat = announcedLength bytes := by
  rw [Header.ofBytes_eq_ofOctets] at read
  unfold Header.ofOctets at read
  split at read
  · cases read
    rfl
  · cases read

theorem missing_of_short
    (bytes : Bytes)
    (short : bytes.length < headerSize) :
    missing bytes = headerSize - bytes.length := by
  rw [missing, Header.ofBytes_of_short bytes short]

theorem missing_of_headed
    (bytes : Bytes)
    (headed : headerSize ≤ bytes.length) :
    missing bytes = headerSize + announcedLength bytes - bytes.length := by
  obtain ⟨header, read⟩ := Header.exists_ofBytes_eq_ok bytes headed
  rw [missing, read, ← announcedLength_of_ofBytes read]

/-- What follows a header does not change what it announces. -/
theorem announcedLength_append
    (bytes more : Bytes)
    (headed : headerSize ≤ bytes.length) :
    announcedLength (bytes ++ more) = announcedLength bytes := by
  unfold headerSize at headed
  rw [announcedLength, List.drop_append_of_le_length (by omega),
    List.take_append_of_le_length (by rw [List.length_drop]; omega), announcedLength]

theorem missing_eq_zero_iff (bytes : Bytes) : missing bytes = 0 ↔ Whole bytes := by
  by_cases headed : headerSize ≤ bytes.length
  · rw [missing_of_headed bytes headed]
    constructor
    · intro none
      exact ⟨headed, by omega⟩
    · intro whole
      have := whole.length_eq
      omega
  · rw [missing_of_short bytes (Nat.not_le.mp headed)]
    constructor
    · intro none
      omega
    · intro whole
      exact absurd whole.headed headed

/-- Whole frames are taken, and nothing else is. -/
theorem ofBytes_eq_ok_iff
    (bytes : Bytes)
    (frame : Frame) :
    ofBytes bytes = .ok frame ↔
      Whole bytes ∧ Header.ofBytes bytes = .ok frame.header ∧
        frame.content = .received bytes := by
  rw [← missing_eq_zero_iff, ofBytes]
  obtain ⟨header, content⟩ := frame
  cases read : Header.ofBytes bytes with
  | error failure => simp
  | ok found =>
    by_cases none : missing bytes = 0
    · simp [none, eq_comm]
    · simp [none]

/-- What is no frame is refused with the number of bytes that it lacks, which is some. -/
theorem of_ofBytes_eq_error
    {bytes : Bytes}
    {hint : Int}
    (refused : ofBytes bytes = .error hint) :
    hint = missing bytes ∧ hint ≠ 0 := by
  rw [ofBytes] at refused
  cases read : Header.ofBytes bytes with
  | error failure =>
    simp only [read, Except.error.injEq] at refused
    refine ⟨refused.symm, fun zero => ?_⟩
    -- Nothing is missing from a frame only, and a frame has a header.
    have whole := (missing_eq_zero_iff bytes).mp (refused.trans zero)
    obtain ⟨header, found⟩ := Header.exists_ofBytes_eq_ok bytes whole.headed
    rw [read] at found
    cases found
  | ok header =>
    simp only [read] at refused
    split at refused
    · cases refused
    next some =>
      cases refused
      exact ⟨rfl, some⟩

variable {taken rest : Bytes}

/-- Once the header is there, the rest of the frame is what is missing. -/
theorem missing_eq
    (whole : Whole (taken ++ rest))
    (headed : headerSize ≤ taken.length) :
    missing taken = rest.length := by
  have length := whole.length_eq
  rw [announcedLength_append taken rest headed, List.length_append] at length
  rw [missing_of_headed taken headed]
  omega

/-- From the front of a frame, no more bytes are missing than the frame goes on for. -/
theorem missing_le
    (whole : Whole (taken ++ rest)) :
    missing taken ≤ rest.length := by
  by_cases headed : headerSize ≤ taken.length
  · exact Int.le_of_eq (missing_eq whole headed)
  · have enough := whole.headed
    rw [List.length_append] at enough
    rw [missing_of_short taken (Nat.not_le.mp headed)]
    omega

/-- As long as a frame goes on, bytes are missing. -/
theorem missing_pos
    (whole : Whole (taken ++ rest))
    (unfinished : rest ≠ []) :
    0 < missing taken := by
  have more := List.length_pos_iff.mpr unfinished
  by_cases headed : headerSize ≤ taken.length
  · rw [missing_eq whole headed]
    omega
  · rw [missing_of_short taken (Nat.not_le.mp headed)]
    omega

/-- Bytes behind a frame are too many. -/
theorem missing_append
    {frame : Bytes}
    (whole : Whole frame)
    (more : Bytes) :
    missing (frame ++ more) = -(more.length : Int) := by
  have headed := whole.headed
  have length := whole.length_eq
  have longer : (frame ++ more).length = frame.length + more.length := List.length_append
  rw [missing_of_headed _ (by omega), announcedLength_append frame more headed, longer]
  omega

/-! ## Taking from a stream -/

/-- Take from a stream, so many times, as many bytes as are missing from those that are taken. -/
def takeMissing (stream : Bytes) : (count : Nat) → (taken : Bytes) → Bytes
  | 0, taken => taken
  | count + 1, taken =>
    takeMissing stream count (stream.take (taken.length + (missing taken).toNat))

/-- Behind the header, one take is enough. -/
theorem takeMissing_of_headed
    (whole : Whole (taken ++ rest))
    (headed : headerSize ≤ taken.length)
    (more : Bytes)
    (count : Nat)
    (some : 0 < count) :
    takeMissing (taken ++ rest ++ more) count taken = taken ++ rest := by
  induction count generalizing taken rest with
  | zero => exact absurd some (Nat.lt_irrefl 0)
  | succ count ih =>
    have size : taken.length + (missing taken).toNat = (taken ++ rest).length := by
      rw [missing_eq whole headed, Int.toNat_natCast, List.length_append]
    rw [takeMissing, size, List.take_left]
    cases count with
    | zero => rfl
    | succ count =>
      have all : Whole (taken ++ rest ++ []) := by rwa [List.append_nil]
      have again := ih all whole.headed (Nat.succ_pos count)
      simpa only [List.append_nil] using again

/-- The first take ends with the header. -/
theorem takeMissing_of_short
    (whole : Whole (taken ++ rest))
    (short : taken.length < headerSize)
    (more : Bytes)
    (count : Nat) :
    takeMissing (taken ++ rest ++ more) (count + 1) taken =
      takeMissing (taken ++ rest ++ more) count ((taken ++ rest).take headerSize) := by
  have size : taken.length + (missing taken).toNat = headerSize := by
    rw [missing_of_short taken short]
    omega
  rw [takeMissing, size, List.take_append_of_le_length whole.headed]

/-- Whatever is taken so far, the takes stay in the frame and complete it with the second. -/
theorem takeMissing_spec
    (whole : Whole (taken ++ rest))
    (more : Bytes)
    (count : Nat) :
    takeMissing (taken ++ rest ++ more) count taken <+: taken ++ rest ∧
      (2 ≤ count → takeMissing (taken ++ rest ++ more) count taken = taken ++ rest) := by
  cases count with
  | zero => exact ⟨List.prefix_append taken rest, fun two => absurd two (by decide)⟩
  | succ count =>
    by_cases headed : headerSize ≤ taken.length
    · rw [takeMissing_of_headed whole headed more _ (Nat.succ_pos count)]
      exact ⟨List.prefix_rfl, fun _ => rfl⟩
    · rw [takeMissing_of_short whole (Nat.not_le.mp headed)]
      have split := List.take_append_drop headerSize (taken ++ rest)
      have front : headerSize ≤ ((taken ++ rest).take headerSize).length :=
        Nat.le_of_eq (List.length_take_of_le whole.headed).symm
      cases count with
      | zero => exact ⟨List.take_prefix headerSize _, fun two => absurd two (by decide)⟩
      | succ count =>
        have again :=
          takeMissing_of_headed (split.symm ▸ whole) front more _ (Nat.succ_pos count)
        rw [split] at again
        rw [again]
        exact ⟨List.prefix_rfl, fun _ => rfl⟩

/--
Frames are delimited exactly.  Bytes are a frame just when a header starts them and announces
all the others; the frame then holds them, is written as them over any destination with room,
has the bytes behind the header as its payload, and its header is what these bytes say one by
one and in words.  Any other bytes are refused with the number of bytes they lack.  As long
as bytes are the front of a frame they lack some, never more than the frame has left, and
just as many once the header is there; so whoever takes what is missing from a stream stays
in the frame and has all of it after two takes.  Bytes behind a frame are counted as too many.
-/
theorem delimited_exactly (bytes : Bytes) :
    ((∃ frame, ofBytes bytes = .ok frame) ↔
      headerSize ≤ bytes.length ∧
        bytes.length = headerSize + Bytes.toNatLE ((bytes.drop 3).take 3)) ∧
    (∀ hint, ofBytes bytes = .error hint → hint = missing bytes ∧ hint ≠ 0) ∧
    ∀ frame, ofBytes bytes = .ok frame →
      (frame.payload? = some (bytes.drop headerSize) ∧
        (∀ destination, bytes.length ≤ destination.length →
          frame.serialize destination = .ok (bytes ++ destination.drop bytes.length)) ∧
        Header.ofOctets bytes = .ok frame.header ∧
        Record.read bytes = .ok (frame.header, bytes.drop headerSize)) ∧
      (∀ taken rest, taken ++ rest = bytes →
        (rest ≠ [] → 0 < missing taken) ∧
        missing taken ≤ rest.length ∧
        (headerSize ≤ taken.length → missing taken = rest.length) ∧
        ∀ more count,
          takeMissing (bytes ++ more) count taken <+: bytes ∧
          (2 ≤ count → takeMissing (bytes ++ more) count taken = bytes)) ∧
      ∀ more, missing (bytes ++ more) = -(more.length : Int) := by
  refine ⟨?_, ?_, ?_⟩
  · constructor
    · rintro ⟨frame, framed⟩
      have whole := ((ofBytes_eq_ok_iff bytes frame).mp framed).1
      exact ⟨whole.headed, whole.length_eq⟩
    · rintro ⟨headed, length⟩
      obtain ⟨header, read⟩ := Header.exists_ofBytes_eq_ok bytes headed
      exact ⟨⟨header, .received bytes⟩,
        (ofBytes_eq_ok_iff bytes _).mpr ⟨⟨headed, length⟩, read, rfl⟩⟩
  · exact fun hint refused => of_ofBytes_eq_error refused
  · intro frame framed
    obtain ⟨whole, read, content⟩ := (ofBytes_eq_ok_iff bytes frame).mp framed
    refine ⟨⟨?_, ?_, ?_, ?_⟩, ?_, missing_append whole⟩
    · rw [payload?, content]
    · intro destination roomy
      rw [serialize, write, content]
      simp only [place, if_neg (Nat.not_lt.mpr roomy), Bytes.overwrite]
    · rw [← Header.ofBytes_eq_ofOctets, read]
    · exact Header.read_of_ofBytes whole.headed read
    · rintro taken rest rfl
      exact ⟨missing_pos whole, missing_le whole, missing_eq whole, takeMissing_spec whole⟩

/-- The frame of an announced endpoint, followed by the first byte of another frame. -/
theorem delimited_exactly_announcement :
    let frame : Bytes := [0x00, 0x80, 0x03, 4, 0, 0, 7, 0, 0, 0]
    missing (frame.take 7) = 3 ∧
      takeMissing (frame ++ [0x00]) 2 [0x00] = frame ∧
      missing (frame ++ [0x00]) = -1 := by
  intro frame
  obtain ⟨taken, -, frames⟩ := delimited_exactly frame
  obtain ⟨-, fronts, longer⟩ := frames _ (taken.mpr (by decide)).choose_spec
  obtain ⟨-, -, rest, -⟩ := fronts (frame.take 7) (frame.drop 7) rfl
  obtain ⟨-, -, -, takes⟩ := fronts [0x00] (frame.drop 1) rfl
  exact ⟨rest (by decide), (takes [0x00] 2).2 (Nat.le_refl 2), longer [0x00]⟩

end MiningPool.Frame
