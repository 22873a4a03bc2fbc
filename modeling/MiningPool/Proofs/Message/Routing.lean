import MiningPool.Proofs.Frame.Clear

/-!
# Routing by channel

A frame that is marked as one of a channel promises that its payload starts with the number
of this channel, so that it can be routed without being parsed.  Nothing ties the mark to
the record behind it: the mark belongs to the kind of a message, and the number is wherever
the schema of the record has it.

Main result: the promise holds of every marked message but the answers to opening a channel.
These start with the number of the request that they answer, and when the channel is refused
there is no number of a channel in them at all.
-/

namespace MiningPool

open Wire

namespace Wire.Schema

/-- The value of the first four byte word with a name. -/
def word? (name : String) : (schema : Schema) → schema.Values → Option UInt32
  | [], _ => none
  | (field, .u32) :: rest, (value, values) =>
    if field = name then some value else word? name rest values
  | (_, _) :: rest, (_, values) => word? name rest values

/-- A word that comes first is found under its name, and the encoding starts with it. -/
theorem encoding_of_first
    {name : String}
    {schema : Schema}
    (first : schema.head? = some (name, .u32))
    (values : schema.Values) :
    ∃ value : UInt32, ∃ rest,
      schema.word? name values = some value ∧
        schema.encoding values = Bytes.ofNatLE 4 value.toNat ++ rest := by
  match schema, values with
  | (_, .u32) :: others, (value, values) =>
    cases first
    exact ⟨value, encoding others values, if_pos rfl, rfl⟩

end Wire.Schema

namespace Message

/-- A number that a message carries under a name. -/
def word? (name : String) (message : Message) : Option UInt32 :=
  (Record.schema message.kind.Body).word? name (Record.toFields message.body)

/-- The channel that a message names. -/
def channelId? : Message → Option UInt32 :=
  word? "channel_id"

/-- The request that a message names. -/
def requestId? : Message → Option UInt32 :=
  word? "request_id"

/-- Whether the payload of a message starts with a number. -/
def StartsWith (message : Message) (number : UInt32) : Prop :=
  ∃ rest, message.write message.size = .ok (Bytes.ofNatLE 4 number.toNat ++ rest)

/-- Whether the payload of a message starts with the channel that the message names. -/
def RoutedTruly (message : Message) : Prop :=
  ∃ channelId, message.channelId? = some channelId ∧ message.StartsWith channelId

/-- The answers to a request to open a channel. -/
def Kind.openingAnswers : List Kind :=
  [.openStandardMiningChannelSuccess, .openExtendedMiningChannelSuccess, .openMiningChannelError]

/-- A marked message that is no answer to opening a channel names its channel first. -/
theorem Kind.head?_schema_of_channelBit
    (kind : Kind)
    (marked : kind.channelBit = true)
    (unasked : kind ∉ openingAnswers) :
    (Record.schema kind.Body).head? = some ("channel_id", .u32) := by
  cases kind <;> first | rfl | exact absurd (by decide) unasked | cases marked

/-- The answers to opening a channel name the request first. -/
theorem Kind.head?_schema_of_openingAnswers
    (kind : Kind)
    (answer : kind ∈ openingAnswers) :
    (Record.schema kind.Body).head? = some ("request_id", .u32) := by
  cases kind <;> first | rfl | exact absurd answer (by decide)

theorem startsWith_of_first
    {name : String}
    {message : Message}
    (first : (Record.schema message.kind.Body).head? = some (name, .u32)) :
    ∃ number, message.word? name = some number ∧ message.StartsWith number := by
  obtain ⟨number, rest, named, encoded⟩ :=
    Schema.encoding_of_first first (Record.toFields message.body)
  refine ⟨number, named, rest, ?_⟩
  rw [← encoded]
  exact (Record.writes_encoding message.body).fits message.size
    (Nat.le_of_eq message.length_payload)

/-- A payload starts with one number only. -/
theorem StartsWith.unique
    {message : Message}
    {one other : UInt32}
    (first : message.StartsWith one)
    (second : message.StartsWith other) :
    one = other := by
  obtain ⟨rest, written⟩ := first
  obtain ⟨rest', written'⟩ := second
  rw [written, Except.ok.injEq] at written'
  have front := List.append_inj_left written' (by simp only [Bytes.length_ofNatLE])
  have number := congrArg Bytes.toNatLE front
  have small (word : UInt32) : word.toNat < Bytes.capacity 4 :=
    Nat.lt_of_lt_of_eq word.toNat_lt (by decide)
  rw [Bytes.toNatLE_ofNatLE, Bytes.toNatLE_ofNatLE, Nat.mod_eq_of_lt (small one),
    Nat.mod_eq_of_lt (small other)] at number
  exact UInt32.toNat_inj.mp number

/-- A message is framed under the mark of its kind. -/
theorem isChannelMessage_of_ofMessage
    {message : Message}
    {frame : Frame}
    (framed : Frame.ofMessage message = .ok frame) :
    frame.header.isChannelMessage = message.kind.channelBit := by
  by_cases fits : message.size ≤ U24.max
  · rw [message.ofMessage_of_fits fits] at framed
    cases framed
    simp only [header, Frame.Header.isChannelMessage]
    cases message.kind.channelBit <;> decide
  · rw [message.ofMessage_of_large (Nat.not_le.mp fits)] at framed
    cases framed

/--
What a message is marked for.  The frame of a marked message has the mark, and the message
names a channel with which its payload starts, unless it answers a request to open a channel.
Such an answer starts with the number of the request; it is routed truly only if a channel
is named and happens to have the same number, and a refusal names none.
-/
theorem routed_unless_opening
    (message : Message)
    (marked : message.kind.channelBit = true) :
    (∀ frame, Frame.ofMessage message = .ok frame → frame.header.isChannelMessage = true) ∧
    (message.kind ∉ Kind.openingAnswers → message.RoutedTruly) ∧
    (message.kind ∈ Kind.openingAnswers →
      ∃ requestId,
        message.requestId? = some requestId ∧
        message.StartsWith requestId ∧
        (message.RoutedTruly ↔ message.channelId? = some requestId)) ∧
    (message.kind = .openMiningChannelError → message.channelId? = none) := by
  refine ⟨?_, ?_, ?_, ?_⟩
  · intro frame framed
    rw [isChannelMessage_of_ofMessage framed, marked]
  · intro unasked
    exact startsWith_of_first (message.kind.head?_schema_of_channelBit marked unasked)
  · intro answer
    obtain ⟨requestId, named, starts⟩ :=
      startsWith_of_first (message.kind.head?_schema_of_openingAnswers answer)
    refine ⟨requestId, named, starts, ?_, fun same => ⟨requestId, same, starts⟩⟩
    rintro ⟨channelId, found, startsToo⟩
    rw [found, startsToo.unique starts]
  · intro refused
    obtain ⟨kind, body⟩ := message
    cases refused
    rfl

/-- The grant of a standard channel with a number other than that of its request. -/
def grant : Message :=
  ⟨.openStandardMiningChannelSuccess,
    ({ requestId := 7
       channelId := 9
       target := ⟨List.replicate 32 0x7f, by decide⟩
       extranoncePrefix := ⟨[1], by decide⟩
       groupChannelId := 0 } : Mining.OpenStandardMiningChannelSuccess)⟩

/-- The refusal of a channel, without a reason. -/
def refusal : Message :=
  ⟨.openMiningChannelError,
    ({ requestId := 7, errorCode := ⟨[], by decide⟩ } : Mining.OpenMiningChannelError)⟩

theorem routed_unless_opening_closing :
    let closing : Message :=
      ⟨.closeChannel,
        ({ channelId := 9, reasonCode := ⟨[], by decide⟩ } : Mining.CloseChannel)⟩
    closing.RoutedTruly ∧ grant.StartsWith 7 := by
  intro closing
  have truly := (routed_unless_opening closing rfl).2.1 (by decide)
  obtain ⟨requestId, named, starts, -⟩ := (routed_unless_opening grant rfl).2.2.1 (by decide)
  have seven : grant.requestId? = some 7 := rfl
  rw [named] at seven
  cases seven
  exact ⟨truly, starts⟩

/-- Not every marked message is routed truly: neither a refusal nor every grant is. -/
theorem answers_misrouted :
    (refusal.kind.channelBit = true ∧
      refusal.write 5 = .ok [7, 0, 0, 0, 0] ∧
      refusal.channelId? = none ∧
      ¬ refusal.RoutedTruly) ∧
    grant.kind.channelBit = true ∧
      grant.StartsWith 7 ∧
      grant.channelId? = some 9 ∧
      ¬ grant.RoutedTruly := by
  have starts : grant.StartsWith 7 := ⟨_, rfl⟩
  refine ⟨⟨rfl, rfl, rfl, ?_⟩, rfl, starts, rfl, ?_⟩
  · rintro ⟨channelId, found, -⟩
    cases found
  · rintro ⟨channelId, found, startsToo⟩
    cases found
    exact absurd (startsToo.unique starts) (by decide)

end Message

end MiningPool
