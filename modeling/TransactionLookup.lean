import TransactionLookup.Calendar.Date
import TransactionLookup.Calendar.Instant
import TransactionLookup.Calendar.Reading
import TransactionLookup.Calendar.Rfc3339
import TransactionLookup.Decimal.Natural
import TransactionLookup.Decimal.Shortest
import TransactionLookup.Http.Exchange
import TransactionLookup.Http.Percent
import TransactionLookup.Http.Refusal
import TransactionLookup.Http.Request
import TransactionLookup.Http.Response
import TransactionLookup.Http.Route
import TransactionLookup.Http.Uri
import TransactionLookup.Json.Container
import TransactionLookup.Json.Numeral
import TransactionLookup.Json.Problem
import TransactionLookup.Json.Quoted
import TransactionLookup.Json.Reader
import TransactionLookup.Json.Scalar
import TransactionLookup.Json.Skip
import TransactionLookup.Json.Value
import TransactionLookup.Lookup.Counters
import TransactionLookup.Lookup.Event
import TransactionLookup.Lookup.Finding
import TransactionLookup.Proofs.Calendar.Date
import TransactionLookup.Proofs.Calendar.Offset
import TransactionLookup.Proofs.Calendar.Text
import TransactionLookup.Proofs.Clients.Linearizability
import TransactionLookup.Proofs.Clients.System
import TransactionLookup.Proofs.Decimal.Padded
import TransactionLookup.Proofs.Http.Dispatch
import TransactionLookup.Proofs.Http.Outcome
import TransactionLookup.Proofs.Http.Percent
import TransactionLookup.Proofs.Http.Transaction
import TransactionLookup.Proofs.Json.Agreement
import TransactionLookup.Proofs.Json.Confined
import TransactionLookup.Proofs.Json.Context
import TransactionLookup.Proofs.Json.Grammar
import TransactionLookup.Proofs.Json.Numeral
import TransactionLookup.Proofs.Json.Passing
import TransactionLookup.Proofs.Json.Quoted
import TransactionLookup.Proofs.Json.Settled
import TransactionLookup.Proofs.Json.Spelled
import TransactionLookup.Proofs.Json.Tree
import TransactionLookup.Proofs.Json.Written
import TransactionLookup.Proofs.Lookup.Page
import TransactionLookup.Proofs.Session.Acts
import TransactionLookup.Proofs.Session.Confinement
import TransactionLookup.Proofs.Session.Confirmations
import TransactionLookup.Proofs.Session.Conservation
import TransactionLookup.Proofs.Session.Counting
import TransactionLookup.Proofs.Session.Dispatch
import TransactionLookup.Proofs.Session.Events
import TransactionLookup.Proofs.Session.Failures
import TransactionLookup.Proofs.Session.Independence
import TransactionLookup.Proofs.Session.Keys
import TransactionLookup.Proofs.Session.Logging
import TransactionLookup.Proofs.Session.Reads
import TransactionLookup.Proofs.Session.Retrieval
import TransactionLookup.Proofs.Session.Serial
import TransactionLookup.Proofs.Session.Update
import TransactionLookup.Proofs.Session.Writes
import TransactionLookup.Proofs.Settings
import TransactionLookup.Proofs.Store.Abreast
import TransactionLookup.Proofs.Store.Identity
import TransactionLookup.Proofs.Store.Insertion
import TransactionLookup.Proofs.Store.Ledger
import TransactionLookup.Proofs.Store.Loading
import TransactionLookup.Proofs.Store.Renumbered
import TransactionLookup.Proofs.Store.Writes
import TransactionLookup.Proofs.Transaction.Agreement
import TransactionLookup.Proofs.Transaction.Confirmation
import TransactionLookup.Proofs.Transaction.Members
import TransactionLookup.Proofs.Transaction.Moment
import TransactionLookup.Proofs.Transaction.Order
import TransactionLookup.Proofs.Transaction.Outbound
import TransactionLookup.Proofs.Transaction.Positional
import TransactionLookup.Proofs.Transaction.RoundTrip
import TransactionLookup.Proofs.Transaction.Tree
import TransactionLookup.Session.Command
import TransactionLookup.Session.Reply
import TransactionLookup.Session.Run
import TransactionLookup.Session.State
import TransactionLookup.Settings
import TransactionLookup.Store.Basic
import TransactionLookup.Store.Fault
import TransactionLookup.Store.Seed
import TransactionLookup.Text.Blank
import TransactionLookup.Text.Literal
import TransactionLookup.Text.Position
import TransactionLookup.Text.Printable
import TransactionLookup.Text.Utf8
import TransactionLookup.Transaction.Field
import TransactionLookup.Transaction.Hash
import TransactionLookup.Transaction.Reading
import TransactionLookup.Transaction.Record
import TransactionLookup.Transaction.Status
import TransactionLookup.Transaction.Timestamp
