import ChannelLog.Block
import ChannelLog.Bytes
import ChannelLog.Bytes.Hex
import ChannelLog.Channel.Kind
import ChannelLog.Channel.Parsing
import ChannelLog.Channel.Replay
import ChannelLog.Channel.Validation
import ChannelLog.Channel.Writing
import ChannelLog.ChannelState
import ChannelLog.Crypto.Aes
import ChannelLog.Crypto.Curve
import ChannelLog.Crypto.Ecdsa
import ChannelLog.Crypto.Envelope
import ChannelLog.Crypto.Error
import ChannelLog.Crypto.Keccak
import ChannelLog.Crypto.Key
import ChannelLog.Crypto.RecoverableSignature
import ChannelLog.Crypto.Sealed
import ChannelLog.Crypto.Sha256
import ChannelLog.Dict
import ChannelLog.Double
import ChannelLog.Double.Shortest
import ChannelLog.Identity
import ChannelLog.Json
import ChannelLog.Json.Fingerprint
import ChannelLog.Json.Number
import ChannelLog.Json.Record
import ChannelLog.Json.Source
import ChannelLog.Json.Token
import ChannelLog.Json.Writer
import ChannelLog.KeyHolder
import ChannelLog.Keyring
import ChannelLog.Ledger
import ChannelLog.Log
import ChannelLog.Path
import ChannelLog.Settings
import ChannelLog.Signature
import ChannelLog.Store
import ChannelLog.Store.Folder
import ChannelLog.Store.Manifest
import ChannelLog.Store.Memory
import ChannelLog.Text.Blank
import ChannelLog.Text.CaseRanges
import ChannelLog.Text.HiddenRanges
import ChannelLog.Text.LowerCase
import ChannelLog.Text.Natural
import ChannelLog.Text.Quoted
import ChannelLog.Text.Range
import ChannelLog.TopicIndex
import ChannelLog.Transaction
import ChannelLog.Proofs.Double.Rounding
import ChannelLog.Proofs.Double.Shortest
import ChannelLog.Proofs.Json.Literal
import ChannelLog.Proofs.Json.Numbers
import ChannelLog.Proofs.Block.Reading
import ChannelLog.Proofs.Block.Single
import ChannelLog.Proofs.Channel.Acceptance
import ChannelLog.Proofs.Channel.Origin
import ChannelLog.Proofs.Log.Interleaving
import ChannelLog.Proofs.Log.Readability
import ChannelLog.Proofs.Log.StorageOrder
import ChannelLog.Proofs.Log.Runs
import ChannelLog.Proofs.Log.Restart
import ChannelLog.Proofs.Log.Numbered
import ChannelLog.Proofs.Json.ReadBack
import ChannelLog.Proofs.Log.Fidelity
import ChannelLog.Proofs.Bytes.Hex
import ChannelLog.Proofs.Ledger.Steps
import ChannelLog.Proofs.ChannelState
import ChannelLog.Proofs.Ledger.Secrecy
import ChannelLog.Proofs.Channel.Writing
import ChannelLog.Proofs.Ledger.Appending
import ChannelLog.Proofs.Json.Bytes
import ChannelLog.Proofs.Channel.Wrapping
import ChannelLog.Proofs.Ledger.Landing
import ChannelLog.Proofs.Crypto.Keccak
import ChannelLog.Proofs.Crypto.Sha256
import ChannelLog.Proofs.Crypto.Ecdsa
import ChannelLog.Proofs.Crypto.RecoverableSignature
import ChannelLog.Proofs.Transaction
import ChannelLog.Proofs.Keyring
import ChannelLog.Proofs.Channel.Recipients
import ChannelLog.Proofs.Ledger.Opening
import ChannelLog.Proofs.Ledger.Retrieval
import ChannelLog.Proofs.Json.Distinct
import ChannelLog.Proofs.Json.Fingerprints
import ChannelLog.Proofs.Channel.Stability
import ChannelLog.Proofs.Channel.Agreement
import ChannelLog.Proofs.Block.RoundTrip
import ChannelLog.Proofs.Block.Pushing
import ChannelLog.Proofs.Store.Manifest
import ChannelLog.Proofs.Store.Reopening
import ChannelLog.Proofs.Ledger.Frame
import ChannelLog.Proofs.Log.Safety
import ChannelLog.Proofs.Log.Starting
import ChannelLog.Proofs.Store.Torn
import ChannelLog.Proofs.TopicIndex
import ChannelLog.Proofs.Store.Loading
import ChannelLog.Proofs.Binding
import ChannelLog.Proofs.Block.Retrieval
import ChannelLog.Proofs.Log.Lossless
import ChannelLog.Proofs.Signing
import ChannelLog.Proofs.Text.SmallLetters
import ChannelLog.Proofs.Channel.FirstHeld
