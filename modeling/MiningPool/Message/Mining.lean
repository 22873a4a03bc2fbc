import MiningPool.Wire.Record

/-!
# Messages of the mining subprotocol

Messages between miners and pools: channels are opened, jobs handed out and shares
submitted.  A job without a least time waits for the block it builds on.
-/

namespace MiningPool.Message.Mining

open MiningPool.Wire

/-- Ask for a channel for header only mining. -/
structure OpenStandardMiningChannel where
  requestId : UInt32
  userIdentity : Blob .str0255
  nominalHashRate : Single
  maxTarget : Blob .u256
  deriving DecidableEq, Repr

instance : Record OpenStandardMiningChannel where
  schema :=
    [("request_id", .u32),
      ("user_identity", .blob .str0255),
      ("nominal_hash_rate", .single),
      ("max_target", .blob .u256)]
  toFields message :=
    (message.requestId, message.userIdentity, message.nominalHashRate, message.maxTarget, ())
  ofFields fields :=
    ⟨fields.1, fields.2.1, fields.2.2.1, fields.2.2.2.1⟩

/-- Grant a standard channel, with its target and its whole extranonce. -/
structure OpenStandardMiningChannelSuccess where
  requestId : UInt32
  channelId : UInt32
  target : Blob .u256
  extranoncePrefix : Blob .b032
  groupChannelId : UInt32
  deriving DecidableEq, Repr

instance : Record OpenStandardMiningChannelSuccess where
  schema :=
    [("request_id", .u32),
      ("channel_id", .u32),
      ("target", .blob .u256),
      ("extranonce_prefix", .blob .b032),
      ("group_channel_id", .u32)]
  toFields message :=
    (message.requestId, message.channelId, message.target, message.extranoncePrefix,
     message.groupChannelId, ())
  ofFields fields :=
    ⟨fields.1, fields.2.1, fields.2.2.1, fields.2.2.2.1, fields.2.2.2.2.1⟩

/-- Refuse to open a channel. -/
structure OpenMiningChannelError where
  requestId : UInt32
  errorCode : Blob .str0255
  deriving DecidableEq, Repr

instance : Record OpenMiningChannelError where
  schema :=
    [("request_id", .u32),
      ("error_code", .blob .str0255)]
  toFields message :=
    (message.requestId, message.errorCode, ())
  ofFields fields :=
    ⟨fields.1, fields.2.1⟩

/-- Ask for a channel on which the miner rolls part of the extranonce. -/
structure OpenExtendedMiningChannel where
  requestId : UInt32
  userIdentity : Blob .str0255
  nominalHashRate : Single
  maxTarget : Blob .u256
  minExtranonceSize : UInt16
  deriving DecidableEq, Repr

instance : Record OpenExtendedMiningChannel where
  schema :=
    [("request_id", .u32),
      ("user_identity", .blob .str0255),
      ("nominal_hash_rate", .single),
      ("max_target", .blob .u256),
      ("min_extranonce_size", .u16)]
  toFields message :=
    (message.requestId, message.userIdentity, message.nominalHashRate, message.maxTarget,
     message.minExtranonceSize, ())
  ofFields fields :=
    ⟨fields.1, fields.2.1, fields.2.2.1, fields.2.2.2.1, fields.2.2.2.2.1⟩

/-- Grant an extended channel, with its target and the fixed start of its extranonce. -/
structure OpenExtendedMiningChannelSuccess where
  requestId : UInt32
  channelId : UInt32
  target : Blob .u256
  extranonceSize : UInt16
  extranoncePrefix : Blob .b032
  deriving DecidableEq, Repr

instance : Record OpenExtendedMiningChannelSuccess where
  schema :=
    [("request_id", .u32),
      ("channel_id", .u32),
      ("target", .blob .u256),
      ("extranonce_size", .u16),
      ("extranonce_prefix", .blob .b032)]
  toFields message :=
    (message.requestId, message.channelId, message.target, message.extranonceSize,
     message.extranoncePrefix, ())
  ofFields fields :=
    ⟨fields.1, fields.2.1, fields.2.2.1, fields.2.2.2.1, fields.2.2.2.2.1⟩

/-- Hand out a job with a fixed merkle root. -/
structure NewMiningJob where
  channelId : UInt32
  jobId : UInt32
  minNtime : Option UInt32
  version : UInt32
  merkleRoot : Blob .u256
  deriving DecidableEq, Repr

instance : Record NewMiningJob where
  schema :=
    [("channel_id", .u32),
      ("job_id", .u32),
      ("min_ntime", .option .u32),
      ("version", .u32),
      ("merkle_root", .blob .u256)]
  toFields message :=
    (message.channelId, message.jobId, message.minNtime, message.version, message.merkleRoot,
     ())
  ofFields fields :=
    ⟨fields.1, fields.2.1, fields.2.2.1, fields.2.2.2.1, fields.2.2.2.2.1⟩

/-- Announce a new hash rate for a channel. -/
structure UpdateChannel where
  channelId : UInt32
  nominalHashRate : Single
  maximumTarget : Blob .u256
  deriving DecidableEq, Repr

instance : Record UpdateChannel where
  schema :=
    [("channel_id", .u32),
      ("nominal_hash_rate", .single),
      ("maximum_target", .blob .u256)]
  toFields message :=
    (message.channelId, message.nominalHashRate, message.maximumTarget, ())
  ofFields fields :=
    ⟨fields.1, fields.2.1, fields.2.2.1⟩

/-- Refuse a channel update. -/
structure UpdateChannelError where
  channelId : UInt32
  errorCode : Blob .str0255
  deriving DecidableEq, Repr

instance : Record UpdateChannelError where
  schema :=
    [("channel_id", .u32),
      ("error_code", .blob .str0255)]
  toFields message :=
    (message.channelId, message.errorCode, ())
  ofFields fields :=
    ⟨fields.1, fields.2.1⟩

/-- Close a channel. -/
structure CloseChannel where
  channelId : UInt32
  reasonCode : Blob .str0255
  deriving DecidableEq, Repr

instance : Record CloseChannel where
  schema :=
    [("channel_id", .u32),
      ("reason_code", .blob .str0255)]
  toFields message :=
    (message.channelId, message.reasonCode, ())
  ofFields fields :=
    ⟨fields.1, fields.2.1⟩

/-- Change the fixed start of the extranonce of a channel. -/
structure SetExtranoncePrefix where
  channelId : UInt32
  extranoncePrefix : Blob .b032
  deriving DecidableEq, Repr

instance : Record SetExtranoncePrefix where
  schema :=
    [("channel_id", .u32),
      ("extranonce_prefix", .blob .b032)]
  toFields message :=
    (message.channelId, message.extranoncePrefix, ())
  ofFields fields :=
    ⟨fields.1, fields.2.1⟩

/-- Submit a share of a standard channel. -/
structure SubmitSharesStandard where
  channelId : UInt32
  sequenceNumber : UInt32
  jobId : UInt32
  nonce : UInt32
  ntime : UInt32
  version : UInt32
  deriving DecidableEq, Repr

instance : Record SubmitSharesStandard where
  schema :=
    [("channel_id", .u32),
      ("sequence_number", .u32),
      ("job_id", .u32),
      ("nonce", .u32),
      ("ntime", .u32),
      ("version", .u32)]
  toFields message :=
    (message.channelId, message.sequenceNumber, message.jobId, message.nonce, message.ntime,
     message.version, ())
  ofFields fields :=
    ⟨fields.1, fields.2.1, fields.2.2.1, fields.2.2.2.1, fields.2.2.2.2.1, fields.2.2.2.2.2.1⟩

/-- Submit a share of an extended channel, with the rolled part of the extranonce. -/
structure SubmitSharesExtended where
  channelId : UInt32
  sequenceNumber : UInt32
  jobId : UInt32
  nonce : UInt32
  ntime : UInt32
  version : UInt32
  extranonce : Blob .b032
  deriving DecidableEq, Repr

instance : Record SubmitSharesExtended where
  schema :=
    [("channel_id", .u32),
      ("sequence_number", .u32),
      ("job_id", .u32),
      ("nonce", .u32),
      ("ntime", .u32),
      ("version", .u32),
      ("extranonce", .blob .b032)]
  toFields message :=
    (message.channelId, message.sequenceNumber, message.jobId, message.nonce, message.ntime,
     message.version, message.extranonce, ())
  ofFields fields :=
    ⟨fields.1, fields.2.1, fields.2.2.1, fields.2.2.2.1, fields.2.2.2.2.1, fields.2.2.2.2.2.1,
     fields.2.2.2.2.2.2.1⟩

/-- Acknowledge a batch of shares. -/
structure SubmitSharesSuccess where
  channelId : UInt32
  lastSequenceNumber : UInt32
  newSubmitsAcceptedCount : UInt32
  newSharesSum : UInt64
  deriving DecidableEq, Repr

instance : Record SubmitSharesSuccess where
  schema :=
    [("channel_id", .u32),
      ("last_sequence_number", .u32),
      ("new_submits_accepted_count", .u32),
      ("new_shares_sum", .u64)]
  toFields message :=
    (message.channelId, message.lastSequenceNumber, message.newSubmitsAcceptedCount,
     message.newSharesSum, ())
  ofFields fields :=
    ⟨fields.1, fields.2.1, fields.2.2.1, fields.2.2.2.1⟩

/-- Reject a share. -/
structure SubmitSharesError where
  channelId : UInt32
  sequenceNumber : UInt32
  errorCode : Blob .str0255
  deriving DecidableEq, Repr

instance : Record SubmitSharesError where
  schema :=
    [("channel_id", .u32),
      ("sequence_number", .u32),
      ("error_code", .blob .str0255)]
  toFields message :=
    (message.channelId, message.sequenceNumber, message.errorCode, ())
  ofFields fields :=
    ⟨fields.1, fields.2.1, fields.2.2.1⟩

/-- Hand out a job whose coinbase is split around the extranonce. -/
structure NewExtendedMiningJob where
  channelId : UInt32
  jobId : UInt32
  minNtime : Option UInt32
  version : UInt32
  versionRollingAllowed : Bool
  merklePath : Sequence .seq0255 (Blob .u256)
  coinbaseTxPrefix : Blob .b064k
  coinbaseTxSuffix : Blob .b064k
  deriving DecidableEq, Repr

instance : Record NewExtendedMiningJob where
  schema :=
    [("channel_id", .u32),
      ("job_id", .u32),
      ("min_ntime", .option .u32),
      ("version", .u32),
      ("version_rolling_allowed", .bool),
      ("merkle_path", .seq .seq0255 (.blob .u256)),
      ("coinbase_tx_prefix", .blob .b064k),
      ("coinbase_tx_suffix", .blob .b064k)]
  toFields message :=
    (message.channelId, message.jobId, message.minNtime, message.version,
     message.versionRollingAllowed, message.merklePath, message.coinbaseTxPrefix,
     message.coinbaseTxSuffix, ())
  ofFields fields :=
    ⟨fields.1, fields.2.1, fields.2.2.1, fields.2.2.2.1, fields.2.2.2.2.1, fields.2.2.2.2.2.1,
     fields.2.2.2.2.2.2.1, fields.2.2.2.2.2.2.2.1⟩

/-- Announce a new block and the job to mine on top of it. -/
structure SetNewPrevHash where
  channelId : UInt32
  jobId : UInt32
  prevHash : Blob .u256
  minNtime : UInt32
  nbits : UInt32
  deriving DecidableEq, Repr

instance : Record SetNewPrevHash where
  schema :=
    [("channel_id", .u32),
      ("job_id", .u32),
      ("prev_hash", .blob .u256),
      ("min_ntime", .u32),
      ("nbits", .u32)]
  toFields message :=
    (message.channelId, message.jobId, message.prevHash, message.minNtime, message.nbits, ())
  ofFields fields :=
    ⟨fields.1, fields.2.1, fields.2.2.1, fields.2.2.2.1, fields.2.2.2.2.1⟩

/-- Change the target of a channel. -/
structure SetTarget where
  channelId : UInt32
  maximumTarget : Blob .u256
  deriving DecidableEq, Repr

instance : Record SetTarget where
  schema :=
    [("channel_id", .u32),
      ("maximum_target", .blob .u256)]
  toFields message :=
    (message.channelId, message.maximumTarget, ())
  ofFields fields :=
    ⟨fields.1, fields.2.1⟩

/-- Propose a job that the miner has put together. -/
structure SetCustomMiningJob where
  channelId : UInt32
  requestId : UInt32
  miningJobToken : Blob .b0255
  version : UInt32
  prevHash : Blob .u256
  minNtime : UInt32
  nbits : UInt32
  coinbaseTxVersion : UInt32
  coinbasePrefix : Blob .b0255
  coinbaseTxInputNsequence : UInt32
  coinbaseTxOutputs : Blob .b064k
  coinbaseTxLocktime : UInt32
  merklePath : Sequence .seq0255 (Blob .u256)
  deriving DecidableEq, Repr

instance : Record SetCustomMiningJob where
  schema :=
    [("channel_id", .u32),
      ("request_id", .u32),
      ("mining_job_token", .blob .b0255),
      ("version", .u32),
      ("prev_hash", .blob .u256),
      ("min_ntime", .u32),
      ("nbits", .u32),
      ("coinbase_tx_version", .u32),
      ("coinbase_prefix", .blob .b0255),
      ("coinbase_tx_input_nsequence", .u32),
      ("coinbase_tx_outputs", .blob .b064k),
      ("coinbase_tx_locktime", .u32),
      ("merkle_path", .seq .seq0255 (.blob .u256))]
  toFields message :=
    (message.channelId, message.requestId, message.miningJobToken, message.version,
     message.prevHash, message.minNtime, message.nbits, message.coinbaseTxVersion,
     message.coinbasePrefix, message.coinbaseTxInputNsequence, message.coinbaseTxOutputs,
     message.coinbaseTxLocktime, message.merklePath, ())
  ofFields fields :=
    ⟨fields.1, fields.2.1, fields.2.2.1, fields.2.2.2.1, fields.2.2.2.2.1, fields.2.2.2.2.2.1,
     fields.2.2.2.2.2.2.1, fields.2.2.2.2.2.2.2.1, fields.2.2.2.2.2.2.2.2.1,
     fields.2.2.2.2.2.2.2.2.2.1, fields.2.2.2.2.2.2.2.2.2.2.1, fields.2.2.2.2.2.2.2.2.2.2.2.1,
     fields.2.2.2.2.2.2.2.2.2.2.2.2.1⟩

/-- Accept a proposed job and name it. -/
structure SetCustomMiningJobSuccess where
  channelId : UInt32
  requestId : UInt32
  jobId : UInt32
  deriving DecidableEq, Repr

instance : Record SetCustomMiningJobSuccess where
  schema :=
    [("channel_id", .u32),
      ("request_id", .u32),
      ("job_id", .u32)]
  toFields message :=
    (message.channelId, message.requestId, message.jobId, ())
  ofFields fields :=
    ⟨fields.1, fields.2.1, fields.2.2.1⟩

/-- Refuse a proposed job. -/
structure SetCustomMiningJobError where
  channelId : UInt32
  requestId : UInt32
  errorCode : Blob .str0255
  deriving DecidableEq, Repr

instance : Record SetCustomMiningJobError where
  schema :=
    [("channel_id", .u32),
      ("request_id", .u32),
      ("error_code", .blob .str0255)]
  toFields message :=
    (message.channelId, message.requestId, message.errorCode, ())
  ofFields fields :=
    ⟨fields.1, fields.2.1, fields.2.2.1⟩

/-- Name the standard channels that share the jobs of a group. -/
structure SetGroupChannel where
  groupChannelId : UInt32
  channelIds : Sequence .seq064k UInt32
  deriving DecidableEq, Repr

instance : Record SetGroupChannel where
  schema :=
    [("group_channel_id", .u32),
      ("channel_ids", .seq .seq064k .u32)]
  toFields message :=
    (message.groupChannelId, message.channelIds, ())
  ofFields fields :=
    ⟨fields.1, fields.2.1⟩

/-- An error code, or the empty code when it is too long to be written. -/
def codeText (code : String) : Blob .str0255 :=
  match Blob.ofText code with
  | .ok text => text
  | .error _ => Blob.blank .str0255

namespace OpenMiningChannelError

/-- Refuse the request with an error code. -/
def ofCode (requestId : UInt32) (code : String) : OpenMiningChannelError :=
  ⟨requestId, codeText code⟩

/-- The highest acceptable target is out of range. -/
def maxTargetOutOfRange (requestId : UInt32) : OpenMiningChannelError :=
  ofCode requestId "max-target-out-of-range"

/-- The extranonce asked for is too long. -/
def unsupportedExtranonceSize (requestId : UInt32) : OpenMiningChannelError :=
  ofCode requestId "unsupported-min-extranonce-size"

/-- The user is not known. -/
def unknownUser (requestId : UInt32) : OpenMiningChannelError :=
  ofCode requestId "unknown-user"

/-- The refusals with a code of their own. -/
def presets (requestId : UInt32) : List OpenMiningChannelError :=
  [maxTargetOutOfRange requestId, unsupportedExtranonceSize requestId, unknownUser requestId]

end OpenMiningChannelError

namespace SubmitSharesError

/-- Reject the share with an error code. -/
def ofCode (channelId sequenceNumber : UInt32) (code : String) : SubmitSharesError :=
  ⟨channelId, sequenceNumber, codeText code⟩

/-- The code for a share of an unknown channel. -/
def invalidChannelCode : String := "invalid-channel-id"

/-- The code for a share of an earlier block. -/
def staleShareCode : String := "stale-share"

/-- The code for a share above the target. -/
def difficultyTooLowCode : String := "difficulty-too-low"

/-- The code for a share of an unknown job. -/
def invalidJobCode : String := "invalid-job-id"

/-- All codes. -/
def codes : List String :=
  [invalidChannelCode, staleShareCode, difficultyTooLowCode, invalidJobCode]

end SubmitSharesError

namespace NewMiningJob

/-- Whether the job waits for the block it builds on. -/
def isFuture (message : NewMiningJob) : Bool :=
  message.minNtime.isNone

/-- The same job, waiting or bound to the least time given. -/
def withMinNtime (message : NewMiningJob) (minNtime : Option UInt32) : NewMiningJob :=
  { message with minNtime }

end NewMiningJob

namespace NewExtendedMiningJob

/-- Whether the job waits for the block it builds on. -/
def isFuture (message : NewExtendedMiningJob) : Bool :=
  message.minNtime.isNone

/-- The same job, waiting or bound to the least time given. -/
def withMinNtime
    (message : NewExtendedMiningJob)
    (minNtime : Option UInt32) :
    NewExtendedMiningJob :=
  { message with minNtime }

end NewExtendedMiningJob

/-- The same request under another id. -/
def OpenStandardMiningChannel.withRequestId
    (message : OpenStandardMiningChannel)
    (requestId : UInt32) :
    OpenStandardMiningChannel :=
  { message with requestId }

/-- The same answer under another request id. -/
def OpenStandardMiningChannelSuccess.withRequestId
    (message : OpenStandardMiningChannelSuccess)
    (requestId : UInt32) :
    OpenStandardMiningChannelSuccess :=
  { message with requestId }

end MiningPool.Message.Mining
