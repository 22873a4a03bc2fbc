import MiningPool.Channel.Error
import MiningPool.Difficulty
import MiningPool.Policy.Basic
import MiningPool.Session.Error
import MiningPool.Share.Error

/-!
# The catalogue of failures

An incident is what a log keeps of a failure: its name, the numbers it tells and the
incident it comes from.  The catalogue finds the failure again, with its wording and all
that is told to miners.
-/

namespace MiningPool

open MiningPool.Wire MiningPool.Noise MiningPool.Frame MiningPool.Message MiningPool.Coinbase

/-- What a log keeps of a failure. -/
inductive Incident
  | mk (name : String) (numbers : List Int) (origin : Option Incident)

namespace Incident

/-- The name of the failure. -/
def name : Incident → String
  | mk name _ _ => name

/-- The numbers that the failure tells. -/
def numbers : Incident → List Int
  | mk _ numbers _ => numbers

/-- The number at an index. -/
def number (incident : Incident) (index : Nat) : Nat :=
  (incident.numbers.getD index 0).toNat

/-- Whether there are numbers of given widths in bits. -/
def tells (incident : Incident) (widths : List Nat) : Bool :=
  widths.length ≤ incident.numbers.length &&
    (widths.zip incident.numbers).all fun (width, value) => 0 ≤ value && value < (1 <<< width : Nat)

/-- The failure of the name among some, given with the widths of the numbers they tell. -/
def find? {ε : Type} [Failure ε] (incident : Incident) (all : List (List Nat × ε)) : Option ε :=
  match all.find? fun (_, failure) => Failure.name failure == incident.name with
  | none => none
  | some (widths, failure) => if incident.tells widths then some failure else none

/-- The failure of the name among some that tell no numbers. -/
def findPlain? {ε : Type} [Failure ε] (incident : Incident) (all : List ε) : Option ε :=
  incident.find? (all.map fun failure => ([], failure))

/-- The failure that this one comes from. -/
def origin? {ε : Type} (find : Incident → Option ε) : Incident → Option ε
  | mk _ _ none => none
  | mk _ _ (some origin) => find origin

/-- A failure of the wire format. -/
def wire? (incident : Incident) : Option WireError :=
  let first := incident.number 0
  let second := incident.number 1
  incident.find?
    [([], .outOfBounds), ([8], .notABool first),
     ([64, 64], .destinationTooShort first second), ([64, 64], .sourceTooShort first second),
     ([32], .exceedsU24 first), ([64], .notThirtyTwoBytes first),
     ([64, 64], .valueTooLong first second), ([64], .sequenceTooLong first),
     ([8], .severalOptionElements first), ([8], .unknownProtocol first)]

/-- A failure of a frame. -/
def frame? : Incident → Option FrameError
  | mk "UnexpectedHeaderLength" (length :: _) _ => some (.shortHeader length)
  | mk "BinarySv2Error" _ (some origin) => .wire <$> wire? origin
  | _ => none

/-- A failure to parse or to frame a message. -/
def parse? : Incident → Option ParseError
  | mk "BinaryError" _ (some origin) => .malformed <$> wire? origin
  | incident =>
    incident.find?
      [([8], .unexpectedMessage (.ofNat (incident.number 0))), ([], .tooLargeForFrame)]

/-- A failure of a handshake or a cipher; the certificate of a record is a sample. -/
def noise? (incident : Incident) : Option NoiseError :=
  let time (index : Nat) : UInt32 := .ofNat (incident.number index)
  incident.find?
    [([], .unauthentic), ([], .missingKey), ([], .invalidCertificate (List.replicate 74 7)),
     ([32, 32, 32], .certificateExpired (time 0) (time 1) (time 2)), ([], .invalidPublicKey),
     ([], .invalidSecretKey), ([], .keyMismatch), ([], .wrongLength), ([], .nonceExhausted)]

/-- A failure of a session. -/
def session? : Incident → Option SessionError
  | mk "SerializationError" _ (some origin) => .serialization <$> wire? origin
  | mk "HandshakeError" _ (some origin) => .handshake <$> noise? origin
  | incident =>
    let first := incident.number 0
    incident.find?
      [([64], .keyLength first), ([], .badKey), ([], .invalidSignature),
       ([], .certificateExpired), ([], .malformedFrame), ([64], .missingBytes first),
       ([64, 64], .excessBytes first (incident.number 1)), ([], .unauthentic),
       ([], .nonceExhausted), ([], .unexpectedState)]

/-- A failure to hand out an extranonce. -/
def extranonce? (incident : Incident) : Option ExtranonceError :=
  incident.findPlain?
    [.staticTooLong, .invalidAllocation, .minimumTooLarge, .unavailable, .exhausted]

/-- A failure to take out a witness. -/
def witness? (incident : Incident) : Option WitnessError :=
  incident.findPlain? [.frontTooShort, .unexpected]

/-- A failure to make a job. -/
def job? : Incident → Option JobError
  | mk "FailedToStripBip141" _ (some origin) => .witness <$> witness? origin
  | incident =>
    let first := incident.number 0
    incident.find?
      [([], .unwritableOutputs), ([], .malformedOutputs .malformed), ([], .invalidFront),
       ([], .invalidBack), ([64], .scriptTooLong first), ([], .rewardOverflow),
       ([64, 64], .wrongReward first (incident.number 1)), ([], .noMerkleRoot),
       ([], .chainTipRequired)]

/-- A failure to turn a job into one of a single channel. -/
def conversion? (incident : Incident) : Option ConversionError :=
  incident.findPlain? [.noMerkleRoot, .notFromTemplate]

/-- A failure to find a target. -/
def target? (incident : Incident) : Option TargetError :=
  incident.findPlain? [.invalidHashRate, .invalidSharesPerMinute]

/-- A failure of settings; a number of shares is told by its bits. -/
def policy? (incident : Incident) : Option PolicyError :=
  let first := incident.number 0
  incident.find?
    [([], .unreadable), ([32], .invalidSharesPerMinute ⟨.ofNat first⟩), ([], .invalidBatchSize),
     ([64], .tagTooLong first), ([], .invalidPayoutScript)]

/-- A failure of a channel. -/
def channel? : Incident → Option ChannelError
  | mk "JobFactoryError" _ (some origin) => .job <$> job? origin
  | mk "ExtranoncePrefixFactoryError" _ (some origin) => .extranonce <$> extranonce? origin
  | mk "FailedToConvertToStandardJob" _ (some origin) => .conversion <$> conversion? origin
  | incident =>
    incident.findPlain?
      [.invalidHashRate, .maxTargetOutOfRange, .minimumTooLarge, .notCreated, .noChainTip,
       .unknownTemplate, .unknownJob, .extranonceTooLong, .extranonceNotWhole, .scriptTooLong,
       .foreignJob, .tooManyMembers]

/-- A cause for which a share is rejected. -/
def share? (incident : Incident) : Option ShareError :=
  incident.findPlain?
    [.invalid, .stale, .unknownJob, .aboveTarget, .versionRollingNotAllowed, .duplicate,
     .invalidCoinbase, .noChainTip, .wrongExtranonceSize]

end Incident

end MiningPool
