import MiningPool.Message.Common
import MiningPool.Message.Mining
import MiningPool.Message.JobDeclaration
import MiningPool.Message.TemplateDistribution

/-!
# Kinds of messages

Every message has a kind, and the kind fixes all that is the same for every message
of it: the subprotocol, the number that announces it in a frame header, whether it
is routed by channel, its name and the record it carries.
-/

namespace MiningPool.Message

open MiningPool.Wire

/-- The four families of messages. -/
inductive Subprotocol
  | common
  | mining
  | jobDeclaration
  | templateDistribution
  deriving DecidableEq, Repr

namespace Subprotocol

/-- All families. -/
def all : List Subprotocol :=
  [common, mining, jobDeclaration, templateDistribution]

/-- The name of a family. -/
def name : Subprotocol → String
  | common => "Common"
  | mining => "Mining"
  | jobDeclaration => "JobDeclaration"
  | templateDistribution => "TemplateDistribution"

/-- The family of a name. -/
def ofName? (name : String) : Option Subprotocol :=
  all.find? fun subprotocol => subprotocol.name == name

end Subprotocol

/-- The kinds of messages. -/
inductive Kind
  | setupConnection
  | setupConnectionSuccess
  | setupConnectionError
  | channelEndpointChanged
  | reconnect
  | openStandardMiningChannel
  | openStandardMiningChannelSuccess
  | openMiningChannelError
  | openExtendedMiningChannel
  | openExtendedMiningChannelSuccess
  | newMiningJob
  | updateChannel
  | updateChannelError
  | closeChannel
  | setExtranoncePrefix
  | submitSharesStandard
  | submitSharesExtended
  | submitSharesSuccess
  | submitSharesError
  | newExtendedMiningJob
  | setNewPrevHash
  | setTarget
  | setCustomMiningJob
  | setCustomMiningJobSuccess
  | setCustomMiningJobError
  | setGroupChannel
  | allocateMiningJobToken
  | allocateMiningJobTokenSuccess
  | provideMissingTransactions
  | provideMissingTransactionsSuccess
  | declareMiningJob
  | declareMiningJobSuccess
  | declareMiningJobError
  | pushSolution
  | coinbaseOutputConstraints
  | newTemplate
  | setTemplatePrevHash
  | requestTransactionData
  | requestTransactionDataSuccess
  | requestTransactionDataError
  | submitSolution
  deriving DecidableEq, Repr

namespace Kind

/-- All kinds, by ascending number. -/
def all : List Kind :=
  [.setupConnection, .setupConnectionSuccess, .setupConnectionError,
    .channelEndpointChanged, .reconnect, .openStandardMiningChannel,
    .openStandardMiningChannelSuccess, .openMiningChannelError, .openExtendedMiningChannel,
    .openExtendedMiningChannelSuccess, .newMiningJob, .updateChannel, .updateChannelError,
    .closeChannel, .setExtranoncePrefix, .submitSharesStandard, .submitSharesExtended,
    .submitSharesSuccess, .submitSharesError, .newExtendedMiningJob, .setNewPrevHash,
    .setTarget, .setCustomMiningJob, .setCustomMiningJobSuccess, .setCustomMiningJobError,
    .setGroupChannel, .allocateMiningJobToken, .allocateMiningJobTokenSuccess,
    .provideMissingTransactions, .provideMissingTransactionsSuccess, .declareMiningJob,
    .declareMiningJobSuccess, .declareMiningJobError, .pushSolution,
    .coinbaseOutputConstraints, .newTemplate, .setTemplatePrevHash,
    .requestTransactionData, .requestTransactionDataSuccess, .requestTransactionDataError,
    .submitSolution]

/-- The number that announces a message in its frame header. -/
def code : Kind → UInt8
  | setupConnection => 0x00
  | setupConnectionSuccess => 0x01
  | setupConnectionError => 0x02
  | channelEndpointChanged => 0x03
  | reconnect => 0x04
  | openStandardMiningChannel => 0x10
  | openStandardMiningChannelSuccess => 0x11
  | openMiningChannelError => 0x12
  | openExtendedMiningChannel => 0x13
  | openExtendedMiningChannelSuccess => 0x14
  | newMiningJob => 0x15
  | updateChannel => 0x16
  | updateChannelError => 0x17
  | closeChannel => 0x18
  | setExtranoncePrefix => 0x19
  | submitSharesStandard => 0x1a
  | submitSharesExtended => 0x1b
  | submitSharesSuccess => 0x1c
  | submitSharesError => 0x1d
  | newExtendedMiningJob => 0x1f
  | setNewPrevHash => 0x20
  | setTarget => 0x21
  | setCustomMiningJob => 0x22
  | setCustomMiningJobSuccess => 0x23
  | setCustomMiningJobError => 0x24
  | setGroupChannel => 0x25
  | allocateMiningJobToken => 0x50
  | allocateMiningJobTokenSuccess => 0x51
  | provideMissingTransactions => 0x55
  | provideMissingTransactionsSuccess => 0x56
  | declareMiningJob => 0x57
  | declareMiningJobSuccess => 0x58
  | declareMiningJobError => 0x59
  | pushSolution => 0x60
  | coinbaseOutputConstraints => 0x70
  | newTemplate => 0x71
  | setTemplatePrevHash => 0x72
  | requestTransactionData => 0x73
  | requestTransactionDataSuccess => 0x74
  | requestTransactionDataError => 0x75
  | submitSolution => 0x76

/-- The family of a message. -/
def subprotocol : Kind → Subprotocol
  | setupConnection => .common
  | setupConnectionSuccess => .common
  | setupConnectionError => .common
  | channelEndpointChanged => .common
  | reconnect => .common
  | openStandardMiningChannel => .mining
  | openStandardMiningChannelSuccess => .mining
  | openMiningChannelError => .mining
  | openExtendedMiningChannel => .mining
  | openExtendedMiningChannelSuccess => .mining
  | newMiningJob => .mining
  | updateChannel => .mining
  | updateChannelError => .mining
  | closeChannel => .mining
  | setExtranoncePrefix => .mining
  | submitSharesStandard => .mining
  | submitSharesExtended => .mining
  | submitSharesSuccess => .mining
  | submitSharesError => .mining
  | newExtendedMiningJob => .mining
  | setNewPrevHash => .mining
  | setTarget => .mining
  | setCustomMiningJob => .mining
  | setCustomMiningJobSuccess => .mining
  | setCustomMiningJobError => .mining
  | setGroupChannel => .mining
  | allocateMiningJobToken => .jobDeclaration
  | allocateMiningJobTokenSuccess => .jobDeclaration
  | provideMissingTransactions => .jobDeclaration
  | provideMissingTransactionsSuccess => .jobDeclaration
  | declareMiningJob => .jobDeclaration
  | declareMiningJobSuccess => .jobDeclaration
  | declareMiningJobError => .jobDeclaration
  | pushSolution => .jobDeclaration
  | coinbaseOutputConstraints => .templateDistribution
  | newTemplate => .templateDistribution
  | setTemplatePrevHash => .templateDistribution
  | requestTransactionData => .templateDistribution
  | requestTransactionDataSuccess => .templateDistribution
  | requestTransactionDataError => .templateDistribution
  | submitSolution => .templateDistribution

/-- The name of a message. -/
def name : Kind → String
  | setupConnection => "SetupConnection"
  | setupConnectionSuccess => "SetupConnectionSuccess"
  | setupConnectionError => "SetupConnectionError"
  | channelEndpointChanged => "ChannelEndpointChanged"
  | reconnect => "Reconnect"
  | openStandardMiningChannel => "OpenStandardMiningChannel"
  | openStandardMiningChannelSuccess => "OpenStandardMiningChannelSuccess"
  | openMiningChannelError => "OpenMiningChannelError"
  | openExtendedMiningChannel => "OpenExtendedMiningChannel"
  | openExtendedMiningChannelSuccess => "OpenExtendedMiningChannelSuccess"
  | newMiningJob => "NewMiningJob"
  | updateChannel => "UpdateChannel"
  | updateChannelError => "UpdateChannelError"
  | closeChannel => "CloseChannel"
  | setExtranoncePrefix => "SetExtranoncePrefix"
  | submitSharesStandard => "SubmitSharesStandard"
  | submitSharesExtended => "SubmitSharesExtended"
  | submitSharesSuccess => "SubmitSharesSuccess"
  | submitSharesError => "SubmitSharesError"
  | newExtendedMiningJob => "NewExtendedMiningJob"
  | setNewPrevHash => "SetNewPrevHash"
  | setTarget => "SetTarget"
  | setCustomMiningJob => "SetCustomMiningJob"
  | setCustomMiningJobSuccess => "SetCustomMiningJobSuccess"
  | setCustomMiningJobError => "SetCustomMiningJobError"
  | setGroupChannel => "SetGroupChannel"
  | allocateMiningJobToken => "AllocateMiningJobToken"
  | allocateMiningJobTokenSuccess => "AllocateMiningJobTokenSuccess"
  | provideMissingTransactions => "ProvideMissingTransactions"
  | provideMissingTransactionsSuccess => "ProvideMissingTransactionsSuccess"
  | declareMiningJob => "DeclareMiningJob"
  | declareMiningJobSuccess => "DeclareMiningJobSuccess"
  | declareMiningJobError => "DeclareMiningJobError"
  | pushSolution => "PushSolution"
  | coinbaseOutputConstraints => "CoinbaseOutputConstraints"
  | newTemplate => "NewTemplate"
  | setTemplatePrevHash => "SetNewPrevHash"
  | requestTransactionData => "RequestTransactionData"
  | requestTransactionDataSuccess => "RequestTransactionDataSuccess"
  | requestTransactionDataError => "RequestTransactionDataError"
  | submitSolution => "SubmitSolution"

/-- Whether a message announces itself as one of a single channel. -/
def channelBit : Kind → Bool
  | channelEndpointChanged
  | openStandardMiningChannelSuccess
  | openMiningChannelError
  | openExtendedMiningChannelSuccess
  | newMiningJob
  | updateChannel
  | updateChannelError
  | closeChannel
  | setExtranoncePrefix
  | submitSharesStandard
  | submitSharesExtended
  | submitSharesSuccess
  | submitSharesError
  | newExtendedMiningJob
  | setNewPrevHash
  | setTarget => true
  | _ => false

/-- The record that a message of a kind carries. -/
@[reducible]
def Body : Kind → Type
  | setupConnection => Common.SetupConnection
  | setupConnectionSuccess => Common.SetupConnectionSuccess
  | setupConnectionError => Common.SetupConnectionError
  | channelEndpointChanged => Common.ChannelEndpointChanged
  | reconnect => Common.Reconnect
  | openStandardMiningChannel => Mining.OpenStandardMiningChannel
  | openStandardMiningChannelSuccess => Mining.OpenStandardMiningChannelSuccess
  | openMiningChannelError => Mining.OpenMiningChannelError
  | openExtendedMiningChannel => Mining.OpenExtendedMiningChannel
  | openExtendedMiningChannelSuccess => Mining.OpenExtendedMiningChannelSuccess
  | newMiningJob => Mining.NewMiningJob
  | updateChannel => Mining.UpdateChannel
  | updateChannelError => Mining.UpdateChannelError
  | closeChannel => Mining.CloseChannel
  | setExtranoncePrefix => Mining.SetExtranoncePrefix
  | submitSharesStandard => Mining.SubmitSharesStandard
  | submitSharesExtended => Mining.SubmitSharesExtended
  | submitSharesSuccess => Mining.SubmitSharesSuccess
  | submitSharesError => Mining.SubmitSharesError
  | newExtendedMiningJob => Mining.NewExtendedMiningJob
  | setNewPrevHash => Mining.SetNewPrevHash
  | setTarget => Mining.SetTarget
  | setCustomMiningJob => Mining.SetCustomMiningJob
  | setCustomMiningJobSuccess => Mining.SetCustomMiningJobSuccess
  | setCustomMiningJobError => Mining.SetCustomMiningJobError
  | setGroupChannel => Mining.SetGroupChannel
  | allocateMiningJobToken => JobDeclaration.AllocateMiningJobToken
  | allocateMiningJobTokenSuccess => JobDeclaration.AllocateMiningJobTokenSuccess
  | provideMissingTransactions => JobDeclaration.ProvideMissingTransactions
  | provideMissingTransactionsSuccess => JobDeclaration.ProvideMissingTransactionsSuccess
  | declareMiningJob => JobDeclaration.DeclareMiningJob
  | declareMiningJobSuccess => JobDeclaration.DeclareMiningJobSuccess
  | declareMiningJobError => JobDeclaration.DeclareMiningJobError
  | pushSolution => JobDeclaration.PushSolution
  | coinbaseOutputConstraints => TemplateDistribution.CoinbaseOutputConstraints
  | newTemplate => TemplateDistribution.NewTemplate
  | setTemplatePrevHash => TemplateDistribution.SetNewPrevHash
  | requestTransactionData => TemplateDistribution.RequestTransactionData
  | requestTransactionDataSuccess => TemplateDistribution.RequestTransactionDataSuccess
  | requestTransactionDataError => TemplateDistribution.RequestTransactionDataError
  | submitSolution => TemplateDistribution.SubmitSolution

instance record : (kind : Kind) → Record kind.Body
  | setupConnection => inferInstanceAs (Record Common.SetupConnection)
  | setupConnectionSuccess => inferInstanceAs (Record Common.SetupConnectionSuccess)
  | setupConnectionError => inferInstanceAs (Record Common.SetupConnectionError)
  | channelEndpointChanged => inferInstanceAs (Record Common.ChannelEndpointChanged)
  | reconnect => inferInstanceAs (Record Common.Reconnect)
  | openStandardMiningChannel => inferInstanceAs (Record Mining.OpenStandardMiningChannel)
  | openStandardMiningChannelSuccess =>
    inferInstanceAs (Record Mining.OpenStandardMiningChannelSuccess)
  | openMiningChannelError => inferInstanceAs (Record Mining.OpenMiningChannelError)
  | openExtendedMiningChannel => inferInstanceAs (Record Mining.OpenExtendedMiningChannel)
  | openExtendedMiningChannelSuccess =>
    inferInstanceAs (Record Mining.OpenExtendedMiningChannelSuccess)
  | newMiningJob => inferInstanceAs (Record Mining.NewMiningJob)
  | updateChannel => inferInstanceAs (Record Mining.UpdateChannel)
  | updateChannelError => inferInstanceAs (Record Mining.UpdateChannelError)
  | closeChannel => inferInstanceAs (Record Mining.CloseChannel)
  | setExtranoncePrefix => inferInstanceAs (Record Mining.SetExtranoncePrefix)
  | submitSharesStandard => inferInstanceAs (Record Mining.SubmitSharesStandard)
  | submitSharesExtended => inferInstanceAs (Record Mining.SubmitSharesExtended)
  | submitSharesSuccess => inferInstanceAs (Record Mining.SubmitSharesSuccess)
  | submitSharesError => inferInstanceAs (Record Mining.SubmitSharesError)
  | newExtendedMiningJob => inferInstanceAs (Record Mining.NewExtendedMiningJob)
  | setNewPrevHash => inferInstanceAs (Record Mining.SetNewPrevHash)
  | setTarget => inferInstanceAs (Record Mining.SetTarget)
  | setCustomMiningJob => inferInstanceAs (Record Mining.SetCustomMiningJob)
  | setCustomMiningJobSuccess => inferInstanceAs (Record Mining.SetCustomMiningJobSuccess)
  | setCustomMiningJobError => inferInstanceAs (Record Mining.SetCustomMiningJobError)
  | setGroupChannel => inferInstanceAs (Record Mining.SetGroupChannel)
  | allocateMiningJobToken => inferInstanceAs (Record JobDeclaration.AllocateMiningJobToken)
  | allocateMiningJobTokenSuccess =>
    inferInstanceAs (Record JobDeclaration.AllocateMiningJobTokenSuccess)
  | provideMissingTransactions => inferInstanceAs (Record JobDeclaration.ProvideMissingTransactions)
  | provideMissingTransactionsSuccess =>
    inferInstanceAs (Record JobDeclaration.ProvideMissingTransactionsSuccess)
  | declareMiningJob => inferInstanceAs (Record JobDeclaration.DeclareMiningJob)
  | declareMiningJobSuccess => inferInstanceAs (Record JobDeclaration.DeclareMiningJobSuccess)
  | declareMiningJobError => inferInstanceAs (Record JobDeclaration.DeclareMiningJobError)
  | pushSolution => inferInstanceAs (Record JobDeclaration.PushSolution)
  | coinbaseOutputConstraints =>
    inferInstanceAs (Record TemplateDistribution.CoinbaseOutputConstraints)
  | newTemplate => inferInstanceAs (Record TemplateDistribution.NewTemplate)
  | setTemplatePrevHash => inferInstanceAs (Record TemplateDistribution.SetNewPrevHash)
  | requestTransactionData => inferInstanceAs (Record TemplateDistribution.RequestTransactionData)
  | requestTransactionDataSuccess =>
    inferInstanceAs (Record TemplateDistribution.RequestTransactionDataSuccess)
  | requestTransactionDataError =>
    inferInstanceAs (Record TemplateDistribution.RequestTransactionDataError)
  | submitSolution => inferInstanceAs (Record TemplateDistribution.SubmitSolution)

/-- The kind of a number within a family. -/
def ofCode? (subprotocol : Subprotocol) (code : UInt8) : Option Kind :=
  all.find? fun kind => kind.subprotocol == subprotocol && kind.code == code

/-- The kind of a name within a family. -/
def ofName? (subprotocol : Subprotocol) (name : String) : Option Kind :=
  all.find? fun kind => kind.subprotocol == subprotocol && kind.name == name

/-- The kind of a number; no number has two kinds. -/
def ofAnyCode? (code : UInt8) : Option Kind :=
  all.find? fun kind => kind.code == code

end Kind

/-- The name for messages of a number. -/
def nameOfCode (code : UInt8) : String :=
  match Kind.ofAnyCode? code with
  | some kind => kind.name
  | none => "Unknown Message"

end MiningPool.Message
