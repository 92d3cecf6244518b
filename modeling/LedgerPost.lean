import LedgerPost.Bytes.Base64
import LedgerPost.Bytes.Basic
import LedgerPost.Bytes.Hex
import LedgerPost.Bytes.Varint
import LedgerPost.CommandLine.Report
import LedgerPost.CommandLine.Request
import LedgerPost.CommandLine.Run
import LedgerPost.CommandLine.Setting
import LedgerPost.Curve.Point
import LedgerPost.Curve.Schnorr
import LedgerPost.Funding.Choice
import LedgerPost.Funding.Decision
import LedgerPost.Hash.Blake2b
import LedgerPost.Hash.Sha256
import LedgerPost.Json.Basic
import LedgerPost.Json.Parser
import LedgerPost.Json.Printer
import LedgerPost.Json.Token
import LedgerPost.Ledger.Address.Base32
import LedgerPost.Ledger.Address.Basic
import LedgerPost.Ledger.Address.Checksum
import LedgerPost.Ledger.Amount
import LedgerPost.Ledger.Config
import LedgerPost.Ledger.Error
import LedgerPost.Ledger.Network
import LedgerPost.Ledger.Script
import LedgerPost.Main
import LedgerPost.Message.Body
import LedgerPost.Message.Frame
import LedgerPost.Posting.Posted
import LedgerPost.Posting.Poster
import LedgerPost.Proofs.Bytes.Base64
import LedgerPost.Proofs.Bytes.Delimited
import LedgerPost.Proofs.Bytes.Hex
import LedgerPost.Proofs.Bytes.Text
import LedgerPost.Proofs.Bytes.Varint
import LedgerPost.Proofs.CommandLine.Posted
import LedgerPost.Proofs.CommandLine.Request
import LedgerPost.Proofs.CommandLine.Run
import LedgerPost.Proofs.Except
import LedgerPost.Proofs.Funding.Choice
import LedgerPost.Proofs.Funding.Decision
import LedgerPost.Proofs.Funding.Feasibility
import LedgerPost.Proofs.Funding.Fewest
import LedgerPost.Proofs.Funding.Prefix
import LedgerPost.Proofs.Funding.Reordering
import LedgerPost.Proofs.Funding.Requirement
import LedgerPost.Proofs.Funding.Shortfall
import LedgerPost.Proofs.Json.Lossless
import LedgerPost.Proofs.Json.Parser
import LedgerPost.Proofs.Json.Size
import LedgerPost.Proofs.Json.Spread
import LedgerPost.Proofs.Json.Token
import LedgerPost.Proofs.Ledger.Address
import LedgerPost.Proofs.Ledger.Address.Base32
import LedgerPost.Proofs.Ledger.Address.Spelling
import LedgerPost.Proofs.Ledger.Amount
import LedgerPost.Proofs.Ledger.Config
import LedgerPost.Proofs.Ledger.Script
import LedgerPost.Proofs.Message.Body
import LedgerPost.Proofs.Message.Frame
import LedgerPost.Proofs.Message.Size
import LedgerPost.Proofs.Posting.Answer
import LedgerPost.Proofs.Posting.Assembly
import LedgerPost.Proofs.Posting.Clock
import LedgerPost.Proofs.Posting.Completion
import LedgerPost.Proofs.Posting.Conservation
import LedgerPost.Proofs.Posting.Delivery
import LedgerPost.Proofs.Posting.Dust
import LedgerPost.Proofs.Posting.Enforcement
import LedgerPost.Proofs.Posting.Estimate
import LedgerPost.Proofs.Posting.Fee
import LedgerPost.Proofs.Posting.Order
import LedgerPost.Proofs.Posting.Reordering
import LedgerPost.Proofs.Posting.Shortfall
import LedgerPost.Proofs.Posting.Validity
import LedgerPost.Proofs.Stateful
import LedgerPost.Proofs.Text.Decimal
import LedgerPost.Proofs.Time.Timestamp
import LedgerPost.Proofs.Transaction.Commitment
import LedgerPost.Proofs.Transaction.Document
import LedgerPost.Proofs.Transaction.Encoding
import LedgerPost.Proofs.Transaction.Exactness
import LedgerPost.Proofs.Transaction.Hiding
import LedgerPost.Proofs.Transaction.Mass
import LedgerPost.Proofs.Transaction.Outcome
import LedgerPost.Proofs.Transaction.SignedReport
import LedgerPost.Proofs.Transaction.Signing
import LedgerPost.Proofs.Transaction.SigningOrder
import LedgerPost.Proofs.Transaction.StorageMass
import LedgerPost.Proofs.Transaction.StorageMass.Accuracy
import LedgerPost.Proofs.Transaction.StorageMass.Monotone
import LedgerPost.Proofs.Transaction.Tampering
import LedgerPost.Proofs.Transaction.Verification
import LedgerPost.Text.Blank
import LedgerPost.Text.Case
import LedgerPost.Text.Decimal
import LedgerPost.Time.Date
import LedgerPost.Time.Timestamp
import LedgerPost.Total
import LedgerPost.Transaction.Basic
import LedgerPost.Transaction.Digest
import LedgerPost.Transaction.Document
import LedgerPost.Transaction.Encoding
import LedgerPost.Transaction.Mass
import LedgerPost.Transaction.Report
import LedgerPost.Transaction.Signature
