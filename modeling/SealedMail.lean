import SealedMail.Codec.Basic
import SealedMail.Codec.Record
import SealedMail.Config.LogFilter
import SealedMail.Config.Path
import SealedMail.Config.Pattern
import SealedMail.Config.Settings
import SealedMail.Crypto.ChaCha
import SealedMail.Crypto.Curve25519
import SealedMail.Crypto.Ed25519
import SealedMail.Crypto.KeyRing
import SealedMail.Crypto.Sealed
import SealedMail.Crypto.Sha2
import SealedMail.Crypto.Standard
import SealedMail.Crypto.Suite
import SealedMail.Data.Bytes
import SealedMail.Data.CharClass
import SealedMail.Data.Decimal
import SealedMail.Data.Hex
import SealedMail.Data.KeyOrder
import SealedMail.Data.SortedMap
import SealedMail.Data.Text
import SealedMail.Json.Basic
import SealedMail.Json.Quoted
import SealedMail.Json.Reader
import SealedMail.Mailbox.Handles
import SealedMail.Mailbox.Index
import SealedMail.Mailbox.Ledger
import SealedMail.Mailbox.Loop
import SealedMail.Message.Address
import SealedMail.Message.Capability
import SealedMail.Message.Entry
import SealedMail.Message.Envelope
import SealedMail.Message.PayloadHash
import SealedMail.Message.Time
import SealedMail.Overlay.Access
import SealedMail.Overlay.Feed
import SealedMail.Overlay.Store
import SealedMail.Proofs.Codec.JsonForm
import SealedMail.Proofs.Codec.RoundTrip
import SealedMail.Proofs.Codec.Wire
import SealedMail.Proofs.Config.Path
import SealedMail.Proofs.Crypto.Attestation
import SealedMail.Proofs.Crypto.Encryption
import SealedMail.Proofs.Crypto.Envelopes
import SealedMail.Proofs.Crypto.Sealing
import SealedMail.Proofs.Crypto.Signing
import SealedMail.Proofs.Crypto.Transparent
import SealedMail.Proofs.Data.SortedMap
import SealedMail.Proofs.Json.Quoting
import SealedMail.Proofs.Json.Reading
import SealedMail.Proofs.Mailbox.Admission
import SealedMail.Proofs.Mailbox.Attribution
import SealedMail.Proofs.Mailbox.Awaiting
import SealedMail.Proofs.Mailbox.Commutation
import SealedMail.Proofs.Mailbox.Consistency
import SealedMail.Proofs.Mailbox.Coverage
import SealedMail.Proofs.Mailbox.Deferral
import SealedMail.Proofs.Mailbox.Delivery
import SealedMail.Proofs.Mailbox.Editing
import SealedMail.Proofs.Mailbox.Event
import SealedMail.Proofs.Mailbox.Finality
import SealedMail.Proofs.Mailbox.Handling
import SealedMail.Proofs.Mailbox.History
import SealedMail.Proofs.Mailbox.Ignoring
import SealedMail.Proofs.Mailbox.Index
import SealedMail.Proofs.Mailbox.Notification
import SealedMail.Proofs.Mailbox.Opening
import SealedMail.Proofs.Mailbox.Order
import SealedMail.Proofs.Mailbox.Overtaking
import SealedMail.Proofs.Mailbox.Presentation
import SealedMail.Proofs.Mailbox.Recovery
import SealedMail.Proofs.Mailbox.Removal
import SealedMail.Proofs.Mailbox.Replay
import SealedMail.Proofs.Mailbox.Report
import SealedMail.Proofs.Mailbox.Restart
import SealedMail.Proofs.Mailbox.Retention
import SealedMail.Proofs.Mailbox.Scheduling
import SealedMail.Proofs.Mailbox.Withdrawable
import SealedMail.Proofs.Mailbox.Withdrawal
import SealedMail.Proofs.Mailbox.Wrapping
import SealedMail.Proofs.Message.Address
import SealedMail.Proofs.Message.Preimage
import SealedMail.Proofs.Overlay.Acceptance
import SealedMail.Proofs.Overlay.Authority
import SealedMail.Proofs.Overlay.Minting
import SealedMail.Proofs.Overlay.Mirror
import SealedMail.Proofs.Overlay.Reduction
import SealedMail.Proofs.Overlay.Request
import SealedMail.Proofs.Sending.Course
import SealedMail.Proofs.Sending.Stored
import SealedMail.Proofs.Storage.Persistence
import SealedMail.Proofs.Storage.Separation
import SealedMail.Sending.Course
import SealedMail.Sending.Delivery
import SealedMail.Sending.Outcome
import SealedMail.Simulation.Board
import SealedMail.Simulation.Draft
import SealedMail.Simulation.Network
import SealedMail.Simulation.Node
import SealedMail.Storage.Drawer
import SealedMail.Toml.Document
import SealedMail.Toml.Quoted
import SealedMail.Toml.Scalar
import SealedMail.Toml.Table
