import MiningPool.Wire.Record

/-!
# Messages of the job declaration subprotocol

Messages with which a miner declares the jobs it wants to work on.
-/

namespace MiningPool.Message.JobDeclaration

open MiningPool.Wire

/-- Ask for a token that identifies jobs to be declared. -/
structure AllocateMiningJobToken where
  userIdentifier : Blob .str0255
  requestId : UInt32
  deriving DecidableEq, Repr

instance : Record AllocateMiningJobToken where
  schema :=
    [("user_identifier", .blob .str0255),
      ("request_id", .u32)]
  toFields message :=
    (message.userIdentifier, message.requestId, ())
  ofFields fields :=
    ⟨fields.1, fields.2.1⟩

/-- Grant a token and name the outputs a declared job has to pay. -/
structure AllocateMiningJobTokenSuccess where
  requestId : UInt32
  miningJobToken : Blob .b0255
  coinbaseTxOutputs : Blob .b064k
  deriving DecidableEq, Repr

instance : Record AllocateMiningJobTokenSuccess where
  schema :=
    [("request_id", .u32),
      ("mining_job_token", .blob .b0255),
      ("coinbase_tx_outputs", .blob .b064k)]
  toFields message :=
    (message.requestId, message.miningJobToken, message.coinbaseTxOutputs, ())
  ofFields fields :=
    ⟨fields.1, fields.2.1, fields.2.2.1⟩

/-- Ask for transactions of a declared job that are not known. -/
structure ProvideMissingTransactions where
  requestId : UInt32
  unknownTxPositionList : Sequence .seq064k UInt16
  deriving DecidableEq, Repr

instance : Record ProvideMissingTransactions where
  schema :=
    [("request_id", .u32),
      ("unknown_tx_position_list", .seq .seq064k .u16)]
  toFields message :=
    (message.requestId, message.unknownTxPositionList, ())
  ofFields fields :=
    ⟨fields.1, fields.2.1⟩

/-- Provide the transactions asked for. -/
structure ProvideMissingTransactionsSuccess where
  requestId : UInt32
  transactionList : Sequence .seq064k (Blob .b016m)
  deriving DecidableEq, Repr

instance : Record ProvideMissingTransactionsSuccess where
  schema :=
    [("request_id", .u32),
      ("transaction_list", .seq .seq064k (.blob .b016m))]
  toFields message :=
    (message.requestId, message.transactionList, ())
  ofFields fields :=
    ⟨fields.1, fields.2.1⟩

/-- Declare a job by its coinbase and its transactions. -/
structure DeclareMiningJob where
  requestId : UInt32
  miningJobToken : Blob .b0255
  version : UInt32
  coinbaseTxPrefix : Blob .b064k
  coinbaseTxSuffix : Blob .b064k
  wtxidList : Sequence .seq064k (Blob .u256)
  excessData : Blob .b064k
  deriving DecidableEq, Repr

instance : Record DeclareMiningJob where
  schema :=
    [("request_id", .u32),
      ("mining_job_token", .blob .b0255),
      ("version", .u32),
      ("coinbase_tx_prefix", .blob .b064k),
      ("coinbase_tx_suffix", .blob .b064k),
      ("wtxid_list", .seq .seq064k (.blob .u256)),
      ("excess_data", .blob .b064k)]
  toFields message :=
    (message.requestId, message.miningJobToken, message.version, message.coinbaseTxPrefix,
     message.coinbaseTxSuffix, message.wtxidList, message.excessData, ())
  ofFields fields :=
    ⟨fields.1, fields.2.1, fields.2.2.1, fields.2.2.2.1, fields.2.2.2.2.1, fields.2.2.2.2.2.1,
     fields.2.2.2.2.2.2.1⟩

/-- Accept a declared job. -/
structure DeclareMiningJobSuccess where
  requestId : UInt32
  newMiningJobToken : Blob .b0255
  deriving DecidableEq, Repr

instance : Record DeclareMiningJobSuccess where
  schema :=
    [("request_id", .u32),
      ("new_mining_job_token", .blob .b0255)]
  toFields message :=
    (message.requestId, message.newMiningJobToken, ())
  ofFields fields :=
    ⟨fields.1, fields.2.1⟩

/-- Refuse a declared job. -/
structure DeclareMiningJobError where
  requestId : UInt32
  errorCode : Blob .str0255
  errorDetails : Blob .b064k
  deriving DecidableEq, Repr

instance : Record DeclareMiningJobError where
  schema :=
    [("request_id", .u32),
      ("error_code", .blob .str0255),
      ("error_details", .blob .b064k)]
  toFields message :=
    (message.requestId, message.errorCode, message.errorDetails, ())
  ofFields fields :=
    ⟨fields.1, fields.2.1, fields.2.2.1⟩

/-- Submit a block found for a declared job. -/
structure PushSolution where
  extranonce : Blob .b032
  prevHash : Blob .u256
  nonce : UInt32
  ntime : UInt32
  nbits : UInt32
  version : UInt32
  deriving DecidableEq, Repr

instance : Record PushSolution where
  schema :=
    [("extranonce", .blob .b032),
      ("prev_hash", .blob .u256),
      ("nonce", .u32),
      ("ntime", .u32),
      ("nbits", .u32),
      ("version", .u32)]
  toFields message :=
    (message.extranonce, message.prevHash, message.nonce, message.ntime, message.nbits,
     message.version, ())
  ofFields fields :=
    ⟨fields.1, fields.2.1, fields.2.2.1, fields.2.2.2.1, fields.2.2.2.2.1, fields.2.2.2.2.2.1⟩

end MiningPool.Message.JobDeclaration
