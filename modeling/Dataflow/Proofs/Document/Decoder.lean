import Dataflow.Document.Decoder
import Dataflow.Proofs.Decimal.Layout
import Dataflow.Proofs.Document.Reader

/-! What the decoders make of documents as they are written. -/

namespace Dataflow.Document

variable {α β : Type} {names : List String} {fs : List (String × Document)}

/-! ## Numbers -/

/-- Whether a number reads back from its own text. -/
def ReadsBack (x : Float) : Prop :=
  (parse? (float x).pretty).bind (Decoder.run Decoder.float) = some x

instance (x : Float) : Decidable (ReadsBack x) :=
  inferInstanceAs (Decidable ((parse? (float x).pretty).bind (Decoder.run Decoder.float) = some x))

theorem proper_float (x : Float) : (float x).Proper := by
  unfold float
  split
  next n hn => exact .number (Decimal.Layout.proper_of_numeral? hn)
  next => exact .null

theorem proper_nat (n : Nat) : (nat n).Proper := .number (Decimal.Numeral.proper_ofNat n)

theorem proper_str (s : String) : (str s).Proper := .text _

theorem proper_record (h : ∀ kd ∈ fs, kd.2.Proper) : (record fs).Proper :=
  .object (List.forall_mem_map.2 h)

/-- A number that is not finite is written as null, and any other as a numeral. -/
theorem float_cases (x : Float) :
    Decimal.isFinite x = false ∧ float x = .null ∨
      Decimal.isFinite x = true ∧ ∃ n, float x = .number n := by
  rw [← Decimal.Layout.numeral?_isSome layout x, float]
  cases layout.numeral? x with
  | none => exact .inl ⟨rfl, rfl⟩
  | some n => exact .inr ⟨rfl, n, rfl⟩

theorem ReadsBack.decode {x : Float} (h : ReadsBack x) (depth : Nat) :
    Decoder.float depth (float x) = some x := by
  rw [ReadsBack, parse?_pretty (proper_float x)] at h
  have hdepth (d : Document) : Decoder.float depth d = Decoder.float Decoder.maxDepth d := by
    cases d <;> rfl
  exact (hdepth _).trans h

/-! ## Records -/

theorem entries?_record (fs : List (String × Document)) : (record fs).entries? = some fs := by
  rw [record, entries?, List.mapM_map]
  induction fs with
  | nil => rfl
  | cons kd fs ih =>
    rw [List.mapM_cons, ih]
    rfl

/-- A record that is written with all its fields has just these. -/
theorem fields?_record (h : fs.map Prod.fst = names) (hn : names.Nodup) :
    (record fs).fields? names = some fs := by
  have hall : fs.filter (fun kd => names.contains kd.1) = fs :=
    List.filter_eq_self.2 fun kd hmem => by
      simpa using h ▸ List.mem_map_of_mem hmem
  change ((record fs).entries?.bind fun es =>
    if ((es.filter fun kd => names.contains kd.1).map Prod.fst).Nodup
    then some (es.filter fun kd => names.contains kd.1) else none) = some fs
  rw [entries?_record, Option.bind_some, hall, h, if_pos hn]

theorem decode_record {build : Nat → List (String × Document) → Option α} (depth : Nat)
    (h : fs.map Prod.fst = names) (hn : names.Nodup) :
    Decoder.record names build (depth + 1) (record fs) = build depth fs := by
  rw [Decoder.record, fields?_record h hn]
  rfl

/-! ## Lists -/

/-- A list is decoded if all its items are. -/
theorem mapM_eq {f : α → Option β} {g : α → β} {ok : α → Bool} {as : List α}
    (h : ∀ a ∈ as, f a = if ok a then some (g a) else none) :
    as.mapM f = if as.all ok then some (as.map g) else none := by
  induction as with
  | nil => rfl
  | cons a as ih =>
    obtain ⟨ha, has⟩ := List.forall_mem_cons.1 h
    rw [List.mapM_cons, ha, ih has, List.all_cons]
    cases ok a <;> cases as.all ok <;> rfl

theorem decode_list {decode : Decoder α} {write : α → Document} {ok : α → Bool} {depth : Nat}
    {as : List α} (h : ∀ a ∈ as, decode depth (write a) = if ok a then some a else none) :
    Decoder.list decode (depth + 1) (.array (as.map write)) =
      if as.all ok then some as else none := by
  have hmap : as.mapM (fun a => decode depth (write a)) =
      if as.all ok then some (as.map id) else none := mapM_eq h
  rw [List.map_id] at hmap
  rw [Decoder.list, items?, ← hmap]
  exact List.mapM_map

theorem decode_list_of_ok {decode : Decoder α} {write : α → Document} {depth : Nat} {as : List α}
    (h : ∀ a ∈ as, decode depth (write a) = some a) :
    Decoder.list decode (depth + 1) (.array (as.map write)) = some as :=
  have hlist : _ = if as.all fun _ => true then some as else none := decode_list h
  hlist.trans (if_pos (by simp))

theorem decode_entries {decode : Decoder α} {write : α → Document} {ok : String × α → Bool}
    {depth : Nat} {as : List (String × α)}
    (h : ∀ ka ∈ as, decode depth (write ka.2) = if ok ka then some ka.2 else none) :
    Decoder.entries decode (depth + 1) (record (as.map fun ka => (ka.1, write ka.2))) =
      if as.all ok then some as else none := by
  have hmap : as.mapM (fun ka => do return (ka.1, ← decode depth (write ka.2))) =
      if as.all ok then some (as.map id) else none := mapM_eq fun ka hmem => by
    rw [h ka hmem]
    cases ok ka <;> rfl
  rw [List.map_id] at hmap
  rw [Decoder.entries, entries?_record, ← hmap]
  exact List.mapM_map

end Dataflow.Document
