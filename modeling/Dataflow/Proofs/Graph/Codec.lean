import Dataflow.Graph.Codec
import Dataflow.Proofs.Document.Decoder
import Dataflow.Proofs.Tables

/-! Ports, nodes and connections read back from their documents.

Numbers have to be within the widths that they are read at (`Connection.Fits`). Of a node, all
parameters have to be such that they can be written (`Node.isFinite`). -/

namespace Dataflow

open Document (Decoder ReadsBack Proper)

variable {depth : Nat}

/-! ## Ports and connections -/

theorem NodeId.decode {id : NodeId} (h : id.index < idBound) (depth : Nat) :
    decoder depth id.toDocument = some id := by
  change mk <$> (Decimal.Numeral.ofNat id.index).toNat? idBound = some id
  rw [Decimal.Numeral.toNat?_ofNat h]
  rfl

theorem ConnectionId.decode {id : ConnectionId} (h : id.index < idBound) (depth : Nat) :
    decoder depth id.toDocument = some id := by
  change mk <$> (Decimal.Numeral.ofNat id.index).toNat? idBound = some id
  rw [Decimal.Numeral.toNat?_ofNat h]
  rfl

theorem PortRole.decode (r : PortRole) (depth : Nat) : decoder depth r.toDocument = some r := by
  cases r <;> rfl

theorem PortMode.decode (m : PortMode) (depth : Nat) : decoder depth m.toDocument = some m := by
  cases m <;> rfl

theorem PortSpec.decode (s : PortSpec) (depth : Nat) :
    decoder (depth + 1) s.toDocument = some s := by
  refine (Document.decode_record depth ?keys ?nodup).trans ?_
  case keys => rfl
  case nodup => decide
  change (do
    let role ← PortRole.decoder depth s.role.toDocument
    let mode ← PortMode.decoder depth s.mode.toDocument
    return { role, key := s.key, mode }) = some s
  rw [PortRole.decode, PortMode.decode]
  rfl

theorem PortRef.decode {p : PortRef} (hnode : p.node.index < idBound) (hslot : p.slot < countBound)
    (depth : Nat) : decoder (depth + 1) p.toDocument = some p := by
  refine (Document.decode_record depth ?keys ?nodup).trans ?_
  case keys => rfl
  case nodup => decide
  change (do
    let node ← NodeId.decoder depth p.node.toDocument
    let role ← PortRole.decoder depth p.role.toDocument
    let slot ← (Decimal.Numeral.ofNat p.slot).toNat? countBound
    return { node, key := p.key, role, slot }) = some p
  rw [NodeId.decode hnode, PortRole.decode, Decimal.Numeral.toNat?_ofNat hslot]
  rfl

/-- The numbers are within the widths that they are read at. -/
structure Connection.Fits (c : Connection) : Prop where
  id : c.id.index < idBound
  src : c.src.node.index < idBound
  srcSlot : c.src.slot < countBound
  dest : c.dest.node.index < idBound
  destSlot : c.dest.slot < countBound

theorem Connection.decode {c : Connection} (h : c.Fits) (depth : Nat) :
    decoder (depth + 2) c.toDocument = some c := by
  refine (Document.decode_record (depth + 1) ?keys ?nodup).trans ?_
  case keys => rfl
  case nodup => decide
  change (do
    let id ← ConnectionId.decoder (depth + 1) c.id.toDocument
    let src ← PortRef.decoder (depth + 1) c.src.toDocument
    let dest ← PortRef.decoder (depth + 1) c.dest.toDocument
    return { id, src, dest }) = some c
  rw [ConnectionId.decode h.id, PortRef.decode h.src h.srcSlot, PortRef.decode h.dest h.destSlot]
  rfl

/-! ## Parameters and nodes -/

/-- Everything but a number that is not finite can be written. -/
def ParamValue.isFinite : ParamValue → Bool
  | number x => Decimal.isFinite x
  | _ => true

/-- A number is read back if it is finite. -/
def ParamValue.ReadsBack : ParamValue → Prop
  | number x => Decimal.isFinite x → Document.ReadsBack x
  | _ => True

instance (v : ParamValue) : Decidable v.ReadsBack :=
  match v with
  | .number x => inferInstanceAs (Decidable (Decimal.isFinite x → Document.ReadsBack x))
  | .text _ | .boolean _ => instDecidableTrue

/-- All parameters can be written. -/
def Node.isFinite (n : Node) : Bool := n.params.toList.all fun kv => kv.2.isFinite

/-- Its finite numbers are read back. -/
def Node.ReadsBack (n : Node) : Prop := ∀ kv ∈ n.params.toList, kv.2.ReadsBack

instance (n : Node) : Decidable n.ReadsBack :=
  inferInstanceAs (Decidable (∀ kv ∈ n.params.toList, kv.2.ReadsBack))

/-- A parameter that cannot be written is not read back. -/
theorem ParamValue.decode {v : ParamValue} (h : v.ReadsBack) (depth : Nat) :
    decoder depth v.toDocument = if v.isFinite then some v else none := by
  cases v with
  | text s => rfl
  | boolean b => rfl
  | number x =>
    rw [toDocument, isFinite]
    rcases Document.float_cases x with ⟨hx, hnull⟩ | ⟨hx, n, hn⟩
    · rw [hnull, hx]
      rfl
    · have hread := (h hx).decode depth
      rw [hn] at hread ⊢
      rw [if_pos hx]
      exact congrArg (number <$> ·) hread

theorem Node.decode {n : Node} (hid : n.id.index < idBound) (h : n.ReadsBack) (depth : Nat) :
    decoder (depth + 3) n.toDocument = if n.isFinite then some n else none := by
  refine (Document.decode_record (depth + 2) ?keys ?nodup).trans ?_
  case keys => rfl
  case nodup => decide
  change (do
    let id ← NodeId.decoder (depth + 2) n.id.toDocument
    let params ← Decoder.entries ParamValue.decoder (depth + 2)
      (.record (n.params.toList.map fun kv => (kv.1, kv.2.toDocument)))
    let ports ← Decoder.list PortSpec.decoder (depth + 2) (.array (n.ports.map PortSpec.toDocument))
    return { id, module := n.module, type := n.type, params := .ofList params compare, ports }) =
      if n.isFinite then some n else none
  have hparams : Decoder.entries ParamValue.decoder (depth + 2)
      (.record (n.params.toList.map fun kv => (kv.1, kv.2.toDocument))) =
        if n.isFinite then some n.params.toList else none :=
    Document.decode_entries fun kv hmem => ParamValue.decode (h kv hmem) _
  have hports : Decoder.list PortSpec.decoder (depth + 2)
      (.array (n.ports.map PortSpec.toDocument)) = some n.ports :=
    Document.decode_list_of_ok fun s _ => PortSpec.decode s _
  rw [NodeId.decode hid, hparams, hports]
  cases n.isFinite with
  | false => rfl
  | true =>
    simp only [if_true, Option.bind_eq_bind, Option.bind_some, Tables.ofList_toList,
      Option.pure_def]

/-! ## Numbers as they are written -/

open Document in
theorem PortSpec.proper (s : PortSpec) : s.toDocument.Proper :=
  proper_record (by simp [PortRole.toDocument, PortMode.toDocument, proper_str])

open Document in
theorem PortRef.proper (p : PortRef) : p.toDocument.Proper :=
  proper_record (by simp [PortRole.toDocument, NodeId.toDocument, proper_str, proper_nat])

open Document in
theorem Connection.proper (c : Connection) : c.toDocument.Proper :=
  proper_record (by simp [ConnectionId.toDocument, PortRef.proper, proper_nat])

open Document in
theorem ParamValue.proper (v : ParamValue) : v.toDocument.Proper := by
  cases v with
  | text s => exact .text _
  | number x => exact proper_float x
  | boolean b => exact .bool b

open Document in
theorem Node.proper (n : Node) : n.toDocument.Proper := by
  have hparams : (record (n.params.toList.map fun kv => (kv.1, kv.2.toDocument))).Proper :=
    proper_record (List.forall_mem_map.2 fun kv _ => ParamValue.proper kv.2)
  have hports : (Document.array (n.ports.map PortSpec.toDocument)).Proper :=
    .array (List.forall_mem_map.2 fun s _ => PortSpec.proper s)
  exact proper_record (by simp [NodeId.toDocument, proper_str, proper_nat, hparams, hports])

end Dataflow
