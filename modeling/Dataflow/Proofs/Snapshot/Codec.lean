import Dataflow.Proofs.Graph.Codec
import Dataflow.Snapshot.Codec

/-! A snapshot reads back from its text, unless it holds a number that is not finite
(`ofText?_toText`). -/

namespace Dataflow.Snapshot

open Document (Decoder Proper)

variable {s : Snapshot}

/-- The numbers are within the widths that they are read at. -/
structure Fits (s : Snapshot) : Prop where
  version : s.version < countBound
  nodes : ∀ n ∈ s.nodes, n.id.index < idBound
  connections : ∀ c ∈ s.connections, c.Fits

/-- All parameters can be written. -/
def isFinite (s : Snapshot) : Bool := s.nodes.all Node.isFinite

theorem proper (s : Snapshot) : s.toDocument.Proper := by
  have hnodes : (Document.array (s.nodes.map Node.toDocument)).Proper :=
    .array (List.forall_mem_map.2 fun n _ => n.proper)
  have hconnections : (Document.array (s.connections.map Connection.toDocument)).Proper :=
    .array (List.forall_mem_map.2 fun c _ => c.proper)
  exact Document.proper_record
    (by simp [Document.proper_str, Document.proper_nat, hnodes, hconnections])

theorem decode (hf : s.Fits) (hr : ∀ n ∈ s.nodes, n.ReadsBack) (depth : Nat) :
    decoder (depth + 5) s.toDocument = if s.isFinite then some s else none := by
  refine (Document.decode_record (depth + 4) ?keys ?nodup).trans ?_
  case keys => rfl
  case nodup => decide
  change (do
    let version ← (Decimal.Numeral.ofNat s.version).toNat? countBound
    let nodes ← Decoder.list Node.decoder (depth + 4) (.array (s.nodes.map Node.toDocument))
    let connections ← Decoder.list Connection.decoder (depth + 4)
      (.array (s.connections.map Connection.toDocument))
    return { name := s.name, version, nodes, connections }) = if s.isFinite then some s else none
  have hnodes : Decoder.list Node.decoder (depth + 4) (.array (s.nodes.map Node.toDocument)) =
      if s.isFinite then some s.nodes else none :=
    Document.decode_list fun n hn => Node.decode (hf.nodes n hn) (hr n hn) depth
  have hconnections : Decoder.list Connection.decoder (depth + 4)
      (.array (s.connections.map Connection.toDocument)) = some s.connections :=
    Document.decode_list_of_ok fun c hc => Connection.decode (hf.connections c hc) (depth + 1)
  rw [Decimal.Numeral.toNat?_ofNat hf.version, hnodes, hconnections]
  cases s.isFinite <;> rfl

/-- A snapshot is read back as it was written if all its numbers are finite. If one is not, then
what is written cannot be read at all. -/
theorem ofText?_toText (hf : s.Fits) (hr : ∀ n ∈ s.nodes, n.ReadsBack) :
    ofText? s.toText = if s.isFinite then some s else none := by
  rw [ofText?, toText, Document.parse?_pretty s.proper]
  exact decode hf hr 122

end Dataflow.Snapshot
