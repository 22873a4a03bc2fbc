import MiningPool.Wire.Record

/-!
# Messages of the template distribution subprotocol

Messages with which a node offers block templates and takes solutions.
-/

namespace MiningPool.Message.TemplateDistribution

open MiningPool.Wire

/-- Reserve room for outputs to be added to the coinbase. -/
structure CoinbaseOutputConstraints where
  coinbaseOutputMaxAdditionalSize : UInt32
  coinbaseOutputMaxAdditionalSigops : UInt16
  deriving DecidableEq, Repr

instance : Record CoinbaseOutputConstraints where
  schema :=
    [("coinbase_output_max_additional_size", .u32),
      ("coinbase_output_max_additional_sigops", .u16)]
  toFields message :=
    (message.coinbaseOutputMaxAdditionalSize, message.coinbaseOutputMaxAdditionalSigops, ())
  ofFields fields :=
    ⟨fields.1, fields.2.1⟩

/-- Offer a block template. -/
structure NewTemplate where
  templateId : UInt64
  futureTemplate : Bool
  version : UInt32
  coinbaseTxVersion : UInt32
  coinbasePrefix : Blob .b0255
  coinbaseTxInputSequence : UInt32
  coinbaseTxValueRemaining : UInt64
  coinbaseTxOutputsCount : UInt32
  coinbaseTxOutputs : Blob .b064k
  coinbaseTxLocktime : UInt32
  merklePath : Sequence .seq0255 (Blob .u256)
  deriving DecidableEq, Repr

instance : Record NewTemplate where
  schema :=
    [("template_id", .u64),
      ("future_template", .bool),
      ("version", .u32),
      ("coinbase_tx_version", .u32),
      ("coinbase_prefix", .blob .b0255),
      ("coinbase_tx_input_sequence", .u32),
      ("coinbase_tx_value_remaining", .u64),
      ("coinbase_tx_outputs_count", .u32),
      ("coinbase_tx_outputs", .blob .b064k),
      ("coinbase_tx_locktime", .u32),
      ("merkle_path", .seq .seq0255 (.blob .u256))]
  toFields message :=
    (message.templateId, message.futureTemplate, message.version, message.coinbaseTxVersion,
     message.coinbasePrefix, message.coinbaseTxInputSequence, message.coinbaseTxValueRemaining,
     message.coinbaseTxOutputsCount, message.coinbaseTxOutputs, message.coinbaseTxLocktime,
     message.merklePath, ())
  ofFields fields :=
    ⟨fields.1, fields.2.1, fields.2.2.1, fields.2.2.2.1, fields.2.2.2.2.1, fields.2.2.2.2.2.1,
     fields.2.2.2.2.2.2.1, fields.2.2.2.2.2.2.2.1, fields.2.2.2.2.2.2.2.2.1,
     fields.2.2.2.2.2.2.2.2.2.1, fields.2.2.2.2.2.2.2.2.2.2.1⟩

/-- Announce a new block and the template to mine on top of it. -/
structure SetNewPrevHash where
  templateId : UInt64
  prevHash : Blob .u256
  headerTimestamp : UInt32
  nBits : UInt32
  target : Blob .u256
  deriving DecidableEq, Repr

instance : Record SetNewPrevHash where
  schema :=
    [("template_id", .u64),
      ("prev_hash", .blob .u256),
      ("header_timestamp", .u32),
      ("n_bits", .u32),
      ("target", .blob .u256)]
  toFields message :=
    (message.templateId, message.prevHash, message.headerTimestamp, message.nBits,
     message.target, ())
  ofFields fields :=
    ⟨fields.1, fields.2.1, fields.2.2.1, fields.2.2.2.1, fields.2.2.2.2.1⟩

/-- Ask for the transactions of a template. -/
structure RequestTransactionData where
  templateId : UInt64
  deriving DecidableEq, Repr

instance : Record RequestTransactionData where
  schema :=
    [("template_id", .u64)]
  toFields message :=
    (message.templateId, ())
  ofFields fields :=
    ⟨fields.1⟩

/-- Provide the transactions of a template. -/
structure RequestTransactionDataSuccess where
  templateId : UInt64
  excessData : Blob .b064k
  transactionList : Sequence .seq064k (Blob .b016m)
  deriving DecidableEq, Repr

instance : Record RequestTransactionDataSuccess where
  schema :=
    [("template_id", .u64),
      ("excess_data", .blob .b064k),
      ("transaction_list", .seq .seq064k (.blob .b016m))]
  toFields message :=
    (message.templateId, message.excessData, message.transactionList, ())
  ofFields fields :=
    ⟨fields.1, fields.2.1, fields.2.2.1⟩

/-- Refuse to provide the transactions of a template. -/
structure RequestTransactionDataError where
  templateId : UInt64
  errorCode : Blob .str0255
  deriving DecidableEq, Repr

instance : Record RequestTransactionDataError where
  schema :=
    [("template_id", .u64),
      ("error_code", .blob .str0255)]
  toFields message :=
    (message.templateId, message.errorCode, ())
  ofFields fields :=
    ⟨fields.1, fields.2.1⟩

/-- Submit a block found on a template. -/
structure SubmitSolution where
  templateId : UInt64
  version : UInt32
  headerTimestamp : UInt32
  headerNonce : UInt32
  coinbaseTx : Blob .b064k
  deriving DecidableEq, Repr

instance : Record SubmitSolution where
  schema :=
    [("template_id", .u64),
      ("version", .u32),
      ("header_timestamp", .u32),
      ("header_nonce", .u32),
      ("coinbase_tx", .blob .b064k)]
  toFields message :=
    (message.templateId, message.version, message.headerTimestamp, message.headerNonce,
     message.coinbaseTx, ())
  ofFields fields :=
    ⟨fields.1, fields.2.1, fields.2.2.1, fields.2.2.2.1, fields.2.2.2.2.1⟩

end MiningPool.Message.TemplateDistribution
