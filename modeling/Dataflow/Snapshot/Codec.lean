import Dataflow.Document.Reader
import Dataflow.Document.Writer
import Dataflow.Graph.Codec
import Dataflow.Snapshot.Basic

/-! Snapshots as text. -/

namespace Dataflow.Snapshot

open Document (Decoder)

def toDocument (s : Snapshot) : Document :=
  .record [("name", .str s.name), ("version", .nat s.version),
    ("nodes", .array (s.nodes.map Node.toDocument)),
    ("connections", .array (s.connections.map Connection.toDocument))]

/-- Nodes and connections may be left out. -/
def decoder : Decoder Snapshot :=
  Decoder.record ["name", "version", "nodes", "connections"] fun depth fields => do
    return {
      name := ← Decoder.required Decoder.text "name" depth fields
      version := ← Decoder.required (Decoder.nat countBound) "version" depth fields
      nodes := ← Decoder.defaulted (Decoder.list Node.decoder) [] "nodes" depth fields
      connections :=
        ← Decoder.defaulted (Decoder.list Connection.decoder) [] "connections" depth fields }

/-- The text of a snapshot, indented. -/
def toText (s : Snapshot) : String := s.toDocument.pretty

def ofText? (s : String) : Option Snapshot := (Document.parse? s).bind (Decoder.run decoder)

/-- Why a stored snapshot cannot be read: its bytes are no text, or the text is no snapshot. -/
inductive ReadError where
  | bytes
  | text
  deriving DecidableEq, Repr

def ofBytes (b : ByteArray) : Except ReadError Snapshot :=
  match String.fromUTF8? b with
  | none => .error .bytes
  | some s =>
    match ofText? s with
    | some snapshot => .ok snapshot
    | none => .error .text

def toBytes (s : Snapshot) : ByteArray := s.toText.toUTF8

end Dataflow.Snapshot
