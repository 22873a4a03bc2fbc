import MiningPool.Bitcoin.Block
import MiningPool.Bitcoin.CompactSize
import MiningPool.Bitcoin.Hash
import MiningPool.Bitcoin.Transaction
import MiningPool.Bytes
import MiningPool.ChainTip
import MiningPool.Channel.Any
import MiningPool.Channel.Basic
import MiningPool.Channel.Error
import MiningPool.Channel.Extended
import MiningPool.Channel.Group
import MiningPool.Channel.Standard
import MiningPool.Cipher.ChaCha20
import MiningPool.Cipher.Poly1305
import MiningPool.Cipher.Sealed
import MiningPool.Coinbase.Halves
import MiningPool.Coinbase.Outputs
import MiningPool.Coinbase.Witness
import MiningPool.Curve.ElligatorSwift
import MiningPool.Curve.Field
import MiningPool.Curve.Key
import MiningPool.Curve.Point
import MiningPool.Curve.Schnorr
import MiningPool.Difficulty
import MiningPool.Digest.Keyed
import MiningPool.Digest.Sha256
import MiningPool.Digest.Stream
import MiningPool.Extranonce
import MiningPool.Failure
import MiningPool.Failure.Catalogue
import MiningPool.Form.Basic
import MiningPool.Form.Channel
import MiningPool.Form.Entry
import MiningPool.Form.Failure
import MiningPool.Form.Job
import MiningPool.Form.Report
import MiningPool.Form.Session
import MiningPool.Frame.Basic
import MiningPool.Frame.Header
import MiningPool.Hex
import MiningPool.Ids
import MiningPool.Job.Basic
import MiningPool.Job.Error
import MiningPool.Job.Factory
import MiningPool.Job.Store
import MiningPool.Message.Basic
import MiningPool.Message.Common
import MiningPool.Message.JobDeclaration
import MiningPool.Message.Kind
import MiningPool.Message.Mining
import MiningPool.Message.TemplateDistribution
import MiningPool.Noise.Agreement
import MiningPool.Noise.Certificate
import MiningPool.Noise.Error
import MiningPool.Noise.Handshake
import MiningPool.Noise.Suite
import MiningPool.Noise.Symmetric
import MiningPool.Noise.Transport
import MiningPool.Number.Binary
import MiningPool.Number.Decimal
import MiningPool.Number.Shortest
import MiningPool.Policy.Basic
import MiningPool.Policy.Configuration
import MiningPool.Policy.Key
import MiningPool.Proofs.Bitcoin.Transaction
import MiningPool.Proofs.Bytes.Chunks
import MiningPool.Proofs.Bytes.Order
import MiningPool.Proofs.Channel.Acknowledgement
import MiningPool.Proofs.Channel.Block
import MiningPool.Proofs.Channel.Course
import MiningPool.Proofs.Channel.Examination
import MiningPool.Proofs.Channel.History
import MiningPool.Proofs.Channel.Ledger
import MiningPool.Proofs.Channel.Lifecycle
import MiningPool.Proofs.Channel.Lockstep
import MiningPool.Proofs.Channel.Numbering
import MiningPool.Proofs.Channel.Once
import MiningPool.Proofs.Channel.Opening
import MiningPool.Proofs.Channel.Refusal
import MiningPool.Proofs.Channel.Rollable
import MiningPool.Proofs.Channel.Rolling
import MiningPool.Proofs.Channel.Script
import MiningPool.Proofs.Channel.Tip
import MiningPool.Proofs.Channel.Validation
import MiningPool.Proofs.Cipher.Sealed
import MiningPool.Proofs.Coinbase.Draft
import MiningPool.Proofs.Coinbase.Root
import MiningPool.Proofs.Extranonce.Allocation
import MiningPool.Proofs.Frame.Clear
import MiningPool.Proofs.Frame.Delimiting
import MiningPool.Proofs.Frame.Filling
import MiningPool.Proofs.Job.Assembly
import MiningPool.Proofs.Job.Coinbase
import MiningPool.Proofs.Job.Conversion
import MiningPool.Proofs.Job.Factory
import MiningPool.Proofs.Job.Mirror
import MiningPool.Proofs.Job.Outputs
import MiningPool.Proofs.Job.Script
import MiningPool.Proofs.Job.Store
import MiningPool.Proofs.Message.Routing
import MiningPool.Proofs.Noise.Admission
import MiningPool.Proofs.Noise.Agreement
import MiningPool.Proofs.Noise.Certificate
import MiningPool.Proofs.Noise.Counting
import MiningPool.Proofs.Noise.Direction
import MiningPool.Proofs.Noise.Genuine
import MiningPool.Proofs.Noise.Opening
import MiningPool.Proofs.Noise.Sealing
import MiningPool.Proofs.Noise.Transcript
import MiningPool.Proofs.Noise.Twins
import MiningPool.Proofs.Number.Widening
import MiningPool.Proofs.Session.Admission
import MiningPool.Proofs.Session.Boundary
import MiningPool.Proofs.Session.Closing
import MiningPool.Proofs.Session.Counters
import MiningPool.Proofs.Session.Exchange
import MiningPool.Proofs.Session.Frames
import MiningPool.Proofs.Session.Incremental
import MiningPool.Proofs.Session.Integrity
import MiningPool.Proofs.Session.Modes
import MiningPool.Proofs.Session.Operation
import MiningPool.Proofs.Session.Passage
import MiningPool.Proofs.Share.Judgement
import MiningPool.Proofs.Target.HashCount
import MiningPool.Proofs.Wire.Canonical
import MiningPool.Proofs.Wire.Codec
import MiningPool.Proofs.Wire.Encoding
import MiningPool.Proofs.Wire.Filling
import MiningPool.Proofs.Wire.Incomplete
import MiningPool.Session.Basic
import MiningPool.Session.Codec
import MiningPool.Session.Error
import MiningPool.Session.Reader
import MiningPool.Session.Writer
import MiningPool.Share.Accounting
import MiningPool.Share.Error
import MiningPool.Share.Validation
import MiningPool.Target
import MiningPool.Toml.Document
import MiningPool.Toml.Moment
import MiningPool.Toml.Scalar
import MiningPool.Toml.Text
import MiningPool.Toml.Value
import MiningPool.Wire.Error
import MiningPool.Wire.Name
import MiningPool.Wire.Record
import MiningPool.Wire.Shape
import MiningPool.Wire.Value
