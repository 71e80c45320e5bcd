import Dataflow.Text.Blank
import Dataflow.Text.Quoted
import Dataflow.Decimal.Layout
import Dataflow.Decimal.Rounded
import Dataflow.Document.Writer
import Dataflow.Document.Reader
import Dataflow.Document.Decoder
import Dataflow.Fields
import Dataflow.Text.Substitution
import Dataflow.Value.Basic
import Dataflow.Value.Printer
import Dataflow.ValueType.Basic
import Dataflow.ValueType.Kind
import Dataflow.Graph.Basic
import Dataflow.Graph.Journal
import Dataflow.Graph.Order
import Dataflow.Graph.Reach
import Dataflow.Memo.Key
import Dataflow.Memo.Table
import Dataflow.Catalogue
import Dataflow.Engine
import Dataflow.Config.Basic
import Dataflow.Session.Basic
import Dataflow.Config.Codec
import Dataflow.Snapshot.Codec
import Dataflow.Value.Codec
import Dataflow.ValueType.Codec
import Dataflow.Proofs.Tables
import Dataflow.Proofs.Graph.WellFormed
import Dataflow.Proofs.Graph.Undo
import Dataflow.Proofs.Graph.Ledger
import Dataflow.Proofs.Graph.Params
import Dataflow.Proofs.Graph.Acyclic
import Dataflow.Proofs.Session.Effect
import Dataflow.Proofs.Wiring
import Dataflow.Proofs.Session.Batch
import Dataflow.Proofs.Session.Reached
import Dataflow.Proofs.Session.Acyclic
import Dataflow.Proofs.Memo.Frames
import Dataflow.Proofs.Memo.Entries
import Dataflow.Proofs.Engine.Method
import Dataflow.Proofs.Engine.Plain
import Dataflow.Proofs.Engine.Run
import Dataflow.Proofs.Engine.Coherence
import Dataflow.Proofs.Engine.Transparency
import Dataflow.Proofs.Query.Ends
import Dataflow.Proofs.Query.Expansion
import Dataflow.Proofs.Engine.Types
import Dataflow.Proofs.Engine.Bystanders
import Dataflow.Proofs.Session.Memory
import Dataflow.Proofs.Session.Types
import Dataflow.Proofs.Session.Stepwise
import Dataflow.Proofs.Definition.Layered
import Dataflow.Proofs.Engine.Settled
import Dataflow.Proofs.Scope
import Dataflow.Proofs.Query.Alike
import Dataflow.Proofs.Definition.Flowing
import Dataflow.Proofs.Engine.Search
import Dataflow.Proofs.Engine.Scopes
import Dataflow.Proofs.Engine.Combinations
import Dataflow.Proofs.Engine.Values
import Dataflow.Proofs.Session.Values
import Dataflow.Proofs.Engine.Untangled
import Dataflow.Proofs.Engine.Store
import Dataflow.Proofs.Admission
import Dataflow.Proofs.Graph.Cardinality
import Dataflow.Proofs.Session.Replay
import Dataflow.Proofs.Session.Edited
import Dataflow.Proofs.Session.Feedback
import Dataflow.Proofs.Query.Eval
import Dataflow.Proofs.Graph.Order
import Dataflow.Proofs.Engine.Reply
import Dataflow.Proofs.Typing
import Dataflow.Proofs.Session.Audit
import Dataflow.Proofs.ValueType.Shapes
import Dataflow.Proofs.ValueType.Conforms
import Dataflow.Proofs.Definition.Inferred
import Dataflow.Proofs.Engine.Inference
import Dataflow.Proofs.Engine.Delivery
import Dataflow.Proofs.Engine.Rewiring
import Dataflow.Proofs.Session.Proper
import Dataflow.Proofs.Session.Built
import Dataflow.Proofs.Session.WellTyped
import Dataflow.Proofs.Engine.Contract
import Dataflow.Proofs.Engine.Rank
import Dataflow.Proofs.Engine.Descent
import Dataflow.Proofs.Engine.Depth
import Dataflow.Proofs.Session.Schema
import Dataflow.Proofs.Engine.Prediction
import Dataflow.Proofs.Session.Prediction
import Dataflow.Proofs.Engine.Retention
import Dataflow.Proofs.Engine.Log
import Dataflow.Proofs.Engine.Once
import Dataflow.Proofs.Session.Accounts
import Dataflow.Proofs.Reporting
import Dataflow.Proofs.Session.Reporting
import Dataflow.Proofs.ValueType.Mismatch
import Dataflow.Proofs.Engine.Unbroken
import Dataflow.Proofs.Session.Unbroken
import Dataflow.Proofs.Decimal.Numeral
import Dataflow.Proofs.Decimal.Layout
import Dataflow.Proofs.Document.Token
import Dataflow.Proofs.Document.Reader
import Dataflow.Proofs.Document.Decoder
import Dataflow.Proofs.Graph.Codec
import Dataflow.Proofs.Snapshot.Codec
import Dataflow.Proofs.Session.Saving
import Dataflow.Proofs.Fields
import Dataflow.Proofs.ValueType.Parts
import Dataflow.Proofs.ValueType.Laws
import Dataflow.Proofs.ValueType.Reordering
import Dataflow.Proofs.ValueType.Narrowing
import Dataflow.Proofs.Graph.Left
import Dataflow.Proofs.Session.Search
import Dataflow.Proofs.Memo.History
import Dataflow.Proofs.Memo.Index
import Dataflow.Proofs.Session.Dropped
import Dataflow.Proofs.ValueType.EmptyValue
import Dataflow.Proofs.Session.Unconnected
import Dataflow.Proofs.Query.Gets
import Dataflow.Proofs.Query.Product
import Dataflow.Proofs.Query.Combinations
import Dataflow.Proofs.Session.Product
import Dataflow.Proofs.Memo.Brackets
import Dataflow.Proofs.Graph.Worklist
import Dataflow.Proofs.Session.Ancestry
import Dataflow.Proofs.Graph.Sorting
import Dataflow.Proofs.Graph.Stack
import Dataflow.Proofs.Snapshot.Reload
import Dataflow.Proofs.Session.Generation
import Dataflow.Proofs.Session.Parameters
import Dataflow.Proofs.Graph.Listing
import Dataflow.Proofs.Session.Listing
import Dataflow.Proofs.Session.Objects
