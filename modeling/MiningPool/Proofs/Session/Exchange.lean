import MiningPool.Proofs.Session.Frames
import MiningPool.Session.Reader

/-!
# Two parties over a link

Two parties write messages for each other and read what arrives, each in its own time.
If either writes in the flow the other reads, every message arrives as it was written
and in the order in which it was written, however writing and reading interleave, and
whatever was written or read before with the same writers and readers.
-/

namespace MiningPool.Session

open MiningPool.Wire MiningPool.Frame MiningPool.Noise

/-- The ends of a link. -/
inductive End
  | left
  | right
  deriving DecidableEq, Repr

/-- The end across the link. -/
def End.other : End → End
  | left => right
  | right => left

@[simp]
theorem End.other_other (place : End) : place.other.other = place := by
  cases place <;> rfl

@[simp]
theorem End.other_ne (place : End) : place.other ≠ place := by
  cases place <;> decide

@[simp]
theorem End.ne_other (place : End) : place ≠ place.other := by
  cases place <;> decide

/-- What holds at both ends of a link holds at an end and across. -/
theorem End.forall_iff
    (place : End)
    {motive : End → Prop} :
    (∀ other, motive other) ↔ motive place ∧ motive place.other := by
  constructor
  · exact fun all => ⟨all _, all _⟩
  · rintro ⟨here, across⟩ other
    cases place <;> cases other <;> assumption

/-- What is kept at one end of a link. -/
structure Party where
  session : Session
  writer : Writer
  reader : Reader
  /-- The frames on their way to this end, the oldest first. -/
  arriving : List Bytes

/-- The parties at the ends of a link. -/
abbrev Link := End → Party

/-- What a party does. -/
inductive Event
  /-- Write a message and let the frame travel. -/
  | write (writer : End) (message : Message)
  /-- Read the oldest frame that is on its way here. -/
  | read (reader : End)

/-- What became of it. -/
inductive Outcome
  | written (result : Except SessionError Bytes)
  | taken (result : Except SessionError Message)
  /-- No frame was on its way. -/
  | nothing

/-- The messages that one end writes. -/
def writtenBy (place : End) (events : List Event) : List Message :=
  events.filterMap fun
    | .write writer message => if writer = place then some message else none
    | .read _ => none

/-- What one end read, in order. -/
def readBy
    (place : End)
    (transcript : List (Event × Outcome)) :
    List (Except SessionError Message) :=
  transcript.filterMap fun
    | (.read reader, .taken result) => if reader = place then some result else none
    | _ => none

@[simp]
theorem writtenBy_write
    (place : End)
    (message : Message)
    (rest : List Event) :
    writtenBy place (.write place message :: rest) = message :: writtenBy place rest := by
  simp [writtenBy]

@[simp]
theorem writtenBy_write_other
    (place : End)
    (message : Message)
    (rest : List Event) :
    writtenBy place.other (.write place message :: rest) = writtenBy place.other rest := by
  simp [writtenBy]

@[simp]
theorem writtenBy_read
    (place reader : End)
    (rest : List Event) :
    writtenBy place (.read reader :: rest) = writtenBy place rest := by
  simp [writtenBy]

namespace Link

/-- Put a party at one end of a link. -/
def set (link : Link) (place : End) (party : Party) : Link :=
  fun other => if other = place then party else link other

/-- Let a frame travel to one end. -/
def carry (link : Link) (place : End) (frame : Bytes) : Link :=
  link.set place { link place with arriving := (link place).arriving ++ [frame] }

/-- One event. -/
def step (suite : Suite) (link : Link) : Event → Link × Outcome
  | .write place message =>
    let party := link place
    match party.writer.encode suite message party.session with
    | (writer, session, .error failure) =>
      (link.set place { party with writer, session }, .written (.error failure))
    | (writer, session, .ok frame) =>
      ((link.set place { party with writer, session }).carry place.other frame,
        .written (.ok frame))
  | .read place =>
    let party := link place
    match party.arriving with
    | [] => (link, .nothing)
    | frame :: rest =>
      match party.reader.decode suite frame party.session with
      | (reader, session, result) =>
        (link.set place { party with reader, session, arriving := rest }, .taken result)

/-- Events one after the other, with what became of each. -/
def run (suite : Suite) (link : Link) : List Event → Link × List (Event × Outcome)
  | [] => (link, [])
  | event :: rest =>
    let (next, outcome) := link.step suite event
    let (final, transcript) := run suite next rest
    (final, (event, outcome) :: transcript)

/-- Each end reads in the flow in which the other end writes. -/
def Mirrored (link : Link) : Prop :=
  ∀ place, (link place.other).session.outward = (link place).session.inward

/-- No frame is on its way. -/
def Quiet (link : Link) : Prop :=
  ∀ place, (link place).arriving = []

/--
The frames on their way are those of some pending messages, the writer is ahead of the
reader by these frames, and counter values are left for them and for what is still to
be written.
-/
structure Flowing
    (suite : Suite)
    (link : Link)
    (pending : End → List Message)
    (events : List Event) :
    Prop where
  arriving : ∀ place,
    (link place).arriving = (link place).session.inward.frames suite (pending place)
  ahead : ∀ place,
    (link place.other).session.outward =
      (link place).session.inward.after (Message.totalParts (pending place))
  room : ∀ place,
    (link place).session.inward.HasRoom
      (Message.totalParts (pending place ++ writtenBy place.other events))
  fits : ∀ place, ∀ message ∈ pending place ++ writtenBy place.other events,
    message.size ≤ U24.max

variable {suite : Suite} {link : Link} {pending : End → List Message}

@[simp]
theorem set_same (place : End) (party : Party) : link.set place party place = party := by
  simp [set]

@[simp]
theorem set_other (place : End) (party : Party) :
    link.set place party place.other = link place.other := by
  simp [set]

@[simp]
theorem set_across (place : End) (party : Party) :
    link.set place.other party place = link place := by
  simp [set, (End.other_ne place).symm]

end Link

/-- A session that is encrypted stays so, and any other stays what it is. -/
def SameMode (before later : Session) : Prop :=
  later.isEncrypted = before.isEncrypted ∧ (before.isEncrypted = false → later = before)

theorem SameMode.refl (session : Session) : session.SameMode session :=
  ⟨rfl, fun _ => rfl⟩

theorem SameMode.trans
    {first second third : Session}
    (before : first.SameMode second)
    (later : second.SameMode third) :
    first.SameMode third := by
  refine ⟨later.1.trans before.1, fun clear => ?_⟩
  rw [later.2 (before.1.trans clear), before.2 clear]

theorem sameMode_written (session : Session) (count : Nat) :
    session.SameMode (session.written count) := by
  refine ⟨session.isEncrypted_written count, ?_⟩
  cases session with
  | encrypted transport => intro clear; cases clear
  | plain | initiating | responding => exact fun _ => rfl

theorem sameMode_taken (session : Session) (count : Nat) :
    session.SameMode (session.taken count) := by
  refine ⟨session.isEncrypted_taken count, ?_⟩
  cases session with
  | encrypted transport => intro clear; cases clear
  | plain | initiating | responding => exact fun _ => rfl

namespace Link

/-- What an event does to a link whose frames are those of pending messages. -/
structure Progress
    (suite : Suite)
    (link : Link)
    (pending : End → List Message)
    (event : Event)
    (rest : List Event)
    (still : End → List Message) :
    Prop where
  flowing : Flowing suite (link.step suite event).1 still rest
  delivered : ∀ place,
    readBy place [(event, (link.step suite event).2)] ++ (still place).map .ok =
      (pending place ++ writtenBy place.other [event]).map .ok
  sameMode : ∀ place,
    (link place).session.SameMode ((link.step suite event).1 place).session
  wrote : ∀ place message, event = .write place message →
    (link.step suite event).2 =
      .written (.ok ((link place).session.outward.frame suite message))

variable {suite : Suite} {link : Link} {pending : End → List Message} {rest : List Event}

/-- What is written joins the pending messages of the other end. -/
theorem Flowing.write
    {place : End}
    {message : Message}
    (flowing : Flowing suite link pending (.write place message :: rest)) :
    ∃ still, Progress suite link pending (.write place message) rest still := by
  have ahead := flowing.ahead place.other
  have room := flowing.room place.other
  have fits := flowing.fits place.other
  rw [End.other_other] at ahead
  rw [End.other_other, writtenBy_write] at room fits
  have fitsNow := fits message (by simp)
  have roomNow : (link place).session.outward.HasRoom message.partCount := by
    rw [Message.totalParts_append] at room
    rw [ahead]
    exact room.split.2.mono (Nat.le_add_right _ _)
  obtain ⟨later, written⟩ :=
    (link place).writer.encode_of_fits suite message (link place).session fitsNow roomNow
  let still : End → List Message := fun other =>
    if other = place.other then pending other ++ [message] else pending other
  have stillHere : still place = pending place := by
    simp [still]
  have stillAcross : still place.other = pending place.other ++ [message] := by
    simp [still]
  -- What is written passes from the messages to be written to the pending ones.
  have coming : ∀ other, still other ++ writtenBy other.other rest =
      pending other ++ writtenBy other.other (.write place message :: rest) := by
    refine place.forall_iff.mpr ⟨?_, ?_⟩
    · simp [stillHere]
    · simp [stillAcross]
  refine ⟨still, ⟨⟨?_, ?_, ?_, ?_⟩, ?_, ?_, ?_⟩⟩
  · simp only [step, written, carry]
    refine place.forall_iff.mpr ⟨?_, ?_⟩
    · simp [stillHere, flowing.arriving place]
    · simp [stillAcross, flowing.arriving place.other, Flow.frames_append, Flow.frames, ahead]
  · simp only [step, written, carry]
    refine place.forall_iff.mpr ⟨?_, ?_⟩
    · simp [stillHere, flowing.ahead place]
    · simp [stillAcross, ahead, Flow.after_after, Message.totalParts_concat]
  · intro other
    rw [coming]
    simp only [step, written, carry]
    revert other
    refine place.forall_iff.mpr ⟨?_, ?_⟩
    · simpa using flowing.room place
    · simpa using room
  · intro other
    rw [coming]
    exact flowing.fits other
  · refine place.forall_iff.mpr ⟨?_, ?_⟩
    · simp [readBy, writtenBy, stillHere]
    · simp [readBy, writtenBy, stillAcross]
  · simp only [step, written, carry]
    refine place.forall_iff.mpr ⟨?_, ?_⟩
    · simpa using sameMode_written _ _
    · simpa using SameMode.refl _
  · rintro _ _ ⟨⟩
    simp only [step, written]

/-- What is read is the first of the pending messages of this end. -/
theorem Flowing.read
    {place : End}
    (sealing : suite.Sealing)
    (flowing : Flowing suite link pending (.read place :: rest)) :
    ∃ still, Progress suite link pending (.read place) rest still := by
  have arriving := flowing.arriving place
  cases waiting : pending place with
  | nil =>
    rw [waiting, Flow.frames] at arriving
    refine ⟨pending, ⟨⟨?_, ?_, ?_, ?_⟩, ?_, ?_, ?_⟩⟩
    · simpa only [step, arriving] using flowing.arriving
    · simpa only [step, arriving] using flowing.ahead
    · simpa only [step, arriving, writtenBy_read] using flowing.room
    · simpa only [writtenBy_read] using flowing.fits
    · intro other
      simp [step, arriving, readBy, writtenBy]
    · intro other
      simp only [step, arriving]
      exact SameMode.refl _
    · rintro _ _ ⟨⟩
  | cons message others =>
    have fits := flowing.fits place message (by simp [waiting])
    have room := flowing.room place
    rw [waiting, List.cons_append, Message.totalParts] at room
    rw [waiting, Flow.frames] at arriving
    have taken := Session.decode_eq sealing (link place).session message fits
      (room.mono (Nat.le_add_right _ _))
    let still : End → List Message := fun other =>
      if other = place then others else pending other
    have stillHere : still place = others := by
      simp [still]
    have stillAcross : still place.other = pending place.other := by
      simp [still]
    refine ⟨still, ⟨⟨?_, ?_, ?_, ?_⟩, ?_, ?_, ?_⟩⟩
    · simp only [step, arriving, Reader.decode, taken]
      refine place.forall_iff.mpr ⟨?_, ?_⟩
      · simp [stillHere]
      · simp [stillAcross, flowing.arriving place.other]
    · simp only [step, arriving, Reader.decode, taken]
      refine place.forall_iff.mpr ⟨?_, ?_⟩
      · simp [stillHere, flowing.ahead place, waiting, Message.totalParts, Flow.after_after]
      · have across := flowing.ahead place.other
        rw [End.other_other] at across
        simp [stillAcross, across]
    · simp only [step, arriving, Reader.decode, taken]
      refine place.forall_iff.mpr ⟨?_, ?_⟩
      · simpa [stillHere] using room.split.2
      · simpa [stillAcross] using flowing.room place.other
    · refine place.forall_iff.mpr ⟨fun other member => ?_, fun other member => ?_⟩
      · rw [stillHere] at member
        have := flowing.fits place other
        rw [waiting, writtenBy_read] at this
        exact this (List.mem_cons_of_mem _ member)
      · rw [stillAcross] at member
        exact flowing.fits place.other other member
    · simp only [step, arriving, Reader.decode, taken]
      refine place.forall_iff.mpr ⟨?_, ?_⟩
      · simp [readBy, writtenBy, stillHere, waiting]
      · simp [readBy, writtenBy, stillAcross]
    · simp only [step, arriving, Reader.decode, taken]
      refine place.forall_iff.mpr ⟨?_, ?_⟩
      · simpa using sameMode_taken _ _
      · simpa using SameMode.refl _
    · rintro _ _ ⟨⟩

theorem Flowing.step
    (sealing : suite.Sealing)
    (event : Event)
    (flowing : Flowing suite link pending (event :: rest)) :
    ∃ still, Progress suite link pending event rest still := by
  cases event with
  | write place message => exact flowing.write
  | read place => exact flowing.read sealing

/-- What events do to a link whose frames are those of pending messages. -/
structure Course
    (suite : Suite)
    (link : Link)
    (pending : End → List Message)
    (events : List Event)
    (still : End → List Message) :
    Prop where
  flowing : Flowing suite (link.run suite events).1 still []
  delivered : ∀ place,
    readBy place (link.run suite events).2 ++ (still place).map .ok =
      (pending place ++ writtenBy place.other events).map .ok
  sameMode : ∀ place,
    (link place).session.SameMode ((link.run suite events).1 place).session
  wrote : ∀ place message outcome,
    (Event.write place message, outcome) ∈ (link.run suite events).2 →
      ∃ flow : Flow, flow.isSome = (link place).session.isEncrypted ∧
        outcome = .written (.ok (flow.frame suite message))

theorem mem_writtenBy
    (place : End)
    (message : Message)
    (events : List Event)
    (happened : Event.write place message ∈ events) :
    message ∈ writtenBy place events :=
  List.mem_filterMap.mpr ⟨_, happened, if_pos rfl⟩

theorem readBy_cons
    (place : End)
    (entry : Event × Outcome)
    (rest : List (Event × Outcome)) :
    readBy place (entry :: rest) = readBy place [entry] ++ readBy place rest := by
  rw [readBy, ← List.singleton_append, List.filterMap_append]
  rfl

theorem writtenBy_cons
    (place : End)
    (event : Event)
    (rest : List Event) :
    writtenBy place (event :: rest) = writtenBy place [event] ++ writtenBy place rest := by
  rw [writtenBy, ← List.singleton_append, List.filterMap_append]
  rfl

theorem Flowing.run
    (sealing : suite.Sealing)
    (events : List Event)
    (flowing : Flowing suite link pending events) :
    ∃ still, Course suite link pending events still := by
  induction events generalizing link pending with
  | nil =>
    refine ⟨pending, ⟨flowing, ?_, fun place => SameMode.refl _, ?_⟩⟩
    · intro place
      simp [Link.run, readBy, writtenBy]
    · intro place message outcome member
      cases member
  | cons event rest ih =>
    obtain ⟨between, progress⟩ := flowing.step sealing event
    obtain ⟨still, course⟩ := ih progress.flowing
    refine ⟨still, ⟨course.flowing, ?_, ?_, ?_⟩⟩
    · intro place
      have before := progress.delivered place
      have later := course.delivered place
      rw [List.map_append] at later
      calc
        readBy place (link.run suite (event :: rest)).2 ++ (still place).map .ok
        _ = readBy place [(event, (link.step suite event).2)] ++
              ((between place).map .ok ++ (writtenBy place.other rest).map .ok) := by
          rw [Link.run, readBy_cons, List.append_assoc, later]
        _ = (pending place ++ writtenBy place.other [event]).map .ok ++
              (writtenBy place.other rest).map .ok := by
          rw [← List.append_assoc, before]
        _ = (pending place ++ writtenBy place.other (event :: rest)).map .ok := by
          simp only [writtenBy_cons place.other event rest, List.map_append, List.append_assoc]
    · exact fun place => (progress.sameMode place).trans (course.sameMode place)
    · intro place message outcome member
      rcases List.mem_cons.mp member with first | later
      · obtain ⟨rfl, rfl⟩ := Prod.mk.inj first
        exact ⟨_, (link place).session.isSome_outward, progress.wrote place message rfl⟩
      · obtain ⟨flow, mode, wrote⟩ := course.wrote place message outcome later
        exact ⟨flow, mode.trans (progress.sameMode place).1, wrote⟩

theorem run_events
    (suite : Suite)
    (link : Link)
    (events : List Event) :
    (link.run suite events).2.map Prod.fst = events := by
  induction events generalizing link with
  | nil => rfl
  | cons event rest ih => simp [Link.run, ih]

end Link

open Link in
/--
Whatever two mirrored parties write for each other and read from each other: every
message is written, in a frame as long as its header announces, every frame is read as
the message it was written for, in the order of writing, each session stays in its mode,
and once nothing is on its way the parties are mirrored again.  A message is refused as
malformed exactly when its payload is too long, and that changes nothing.
-/
theorem exchange_roundTrip
    (suite : Suite)
    (sealing : suite.Sealing)
    (link : Link)
    (mirrored : link.Mirrored)
    (quiet : link.Quiet)
    (events : List Event)
    (fits : ∀ place, ∀ message ∈ writtenBy place events, message.size ≤ U24.max)
    (room : ∀ place,
      (link place).session.outward.HasRoom (Message.totalParts (writtenBy place events))) :
    let final := (link.run suite events).1
    let transcript := (link.run suite events).2
    transcript.map Prod.fst = events ∧
    (∀ place message outcome, (Event.write place message, outcome) ∈ transcript →
      ∃ header frame,
        Frame.ofMessage message = .ok ⟨header, .message message⟩ ∧
        outcome = .written (.ok frame) ∧
        frame.length =
          if (link place).session.isEncrypted then sealedHeaderSize + header.sealedLength
          else headerSize + header.length.toNat) ∧
    (∀ place, ∃ underway : List Message,
      underway.length = (final place).arriving.length ∧
      readBy place transcript ++ underway.map .ok =
        (writtenBy place.other events).map .ok) ∧
    (∀ place, (link place).session.SameMode (final place).session) ∧
    (final.Quiet → final.Mirrored) ∧
    ∀ (writer : Writer) (message : Message) (session : Session),
      ((writer.encode suite message session).2.2 = .error .malformedFrame ↔
        U24.max < message.size) ∧
      (U24.max < message.size → (writer.encode suite message session).2.1 = session) := by
  have flowing : Flowing suite link (fun _ => []) events := by
    refine ⟨quiet, fun place => ?_, fun place => ?_, fun place => fits place.other⟩
    · simpa [Message.totalParts] using mirrored place
    · rw [← mirrored place]
      exact room place.other
  obtain ⟨still, course⟩ := flowing.run sealing events
  refine ⟨link.run_events suite events, ?_, ?_, course.sameMode, ?_, ?_⟩
  · intro place message outcome member
    have happened : Event.write place message ∈ events := by
      rw [← link.run_events suite events]
      exact List.mem_map_of_mem member
    have among := mem_writtenBy place message events happened
    obtain ⟨flow, mode, wrote⟩ := course.wrote place message outcome member
    refine ⟨_, _, message.ofMessage_of_fits (fits place message among), wrote, ?_⟩
    rw [Flow.length_frame sealing flow message (fits place message among), mode]
    rfl
  · intro place
    refine ⟨still place, ?_, course.delivered place⟩
    rw [course.flowing.arriving place, Flow.length_frames]
  · intro arrived place
    have length := congrArg List.length (course.flowing.arriving place)
    rw [arrived place, Flow.length_frames] at length
    have read : still place = [] := List.length_eq_zero_iff.mp length.symm
    simpa [read, Message.totalParts] using course.flowing.ahead place
  · intro writer message session
    rw [writer.encode_eq]
    refine ⟨session.encode_malformed_iff message, fun large => ?_⟩
    rw [session.encode_of_large message large]

/-- Two parties that share a key for each direction and have used it before. -/
def keyedLink : Link
  | .left => ⟨.encrypted ⟨⟨[1, 2, 3], 41⟩, ⟨[4, 5, 6], 7⟩⟩, ⟨[0xff]⟩, .start, []⟩
  | .right => ⟨.encrypted ⟨⟨[4, 5, 6], 7⟩, ⟨[1, 2, 3], 41⟩⟩, .start, .start, []⟩

/-- Each party announces a channel, and one of them reads. -/
def announcements : List Event :=
  [.write .left ⟨.channelEndpointChanged, (⟨7⟩ : Message.Common.ChannelEndpointChanged)⟩,
    .write .right ⟨.channelEndpointChanged, (⟨8⟩ : Message.Common.ChannelEndpointChanged)⟩,
    .read .right]

theorem exchange_roundTrip_keyedLink :
    ∃ underway : List Message,
      underway.length =
        ((keyedLink.run ellSwiftChaChaPoly announcements).1 .right).arriving.length ∧
      readBy .right (keyedLink.run ellSwiftChaChaPoly announcements).2 ++ underway.map .ok =
        (writtenBy .left announcements).map .ok := by
  have mirrored : keyedLink.Mirrored := by
    rintro (_ | _) <;> rfl
  have quiet : keyedLink.Quiet := by
    rintro (_ | _) <;> rfl
  have fits : ∀ place, ∀ message ∈ writtenBy place announcements, message.size ≤ U24.max := by
    rintro (_ | _) message member
    · cases List.mem_singleton.mp member
      decide
    · cases List.mem_singleton.mp member
      decide
  have room : ∀ place,
      (keyedLink place).session.outward.HasRoom
        (Message.totalParts (writtenBy place announcements)) := by
    rintro (_ | _) direction member
    · cases Option.some.inj member
      decide
    · cases Option.some.inj member
      decide
  exact (exchange_roundTrip ellSwiftChaChaPoly ellSwiftChaChaPoly_sealing keyedLink mirrored quiet
    announcements fits room).2.2.1 .right

end MiningPool.Session
