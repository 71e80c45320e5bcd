import Dataflow.Decimal.Numeral

/-! Written numbers read back.

A numeral is read as far as it goes. So it reads back from its own text if it is `Proper`, which is
to say written as numerals are, and if what follows it is `Apart`, so that it cannot be taken for
more of it. -/

namespace Dataflow.Decimal

variable {n : Nat} {ds : List Digit} {cs rest : List Char}

/-! ## Digits -/

theorem Digit.ofNat_toNat_char (d : Digit) : Fin.ofNat 10 (d.char.toNat - '0'.toNat) = d := by
  revert d
  decide

theorem Digit.char_ne_minus (d : Digit) : d.char ≠ '-' := by
  revert d
  decide

theorem digitsOf_of_lt (h : n < 10) : digitsOf n = [⟨n, h⟩] := by
  rw [digitsOf, Nat.toDigits_of_lt_base h, List.map_singleton]
  exact congrArg (fun d => [d]) (Digit.ofNat_toNat_char ⟨n, h⟩)

theorem digitsOf_of_le (h : 10 ≤ n) :
    digitsOf n = digitsOf (n / 10) ++ [⟨n % 10, Nat.mod_lt _ (by decide)⟩] := by
  rw [digitsOf, Nat.toDigits_of_base_le (by decide) h, List.map_append, List.map_singleton]
  exact congrArg (fun d => digitsOf (n / 10) ++ [d])
    (Digit.ofNat_toNat_char ⟨n % 10, Nat.mod_lt _ (by decide)⟩)

theorem digitsOf_zero : digitsOf 0 = [0] := digitsOf_of_lt (by decide)

theorem digitsOf_ne_nil (n : Nat) : digitsOf n ≠ [] := by
  rcases Nat.lt_or_ge n 10 with h | h
  · simp [digitsOf_of_lt h]
  · simp [digitsOf_of_le h]

/-- There is no leading zero but that of zero itself. -/
theorem head?_digitsOf (hn : n ≠ 0) : (digitsOf n).head? ≠ some 0 := by
  induction n using Nat.strongRecOn with
  | ind n ih =>
    rcases Nat.lt_or_ge n 10 with h | h
    · rw [digitsOf_of_lt h]
      simpa [Fin.ext_iff] using hn
    · obtain ⟨d, ds, hds⟩ := List.exists_cons_of_ne_nil (digitsOf_ne_nil (n / 10))
      have hhead := ih (n / 10) (by omega) (by omega)
      rw [hds] at hhead
      rw [digitsOf_of_le h, hds]
      exact hhead

theorem valueOf_concat (ds : List Digit) (d : Digit) :
    valueOf (ds ++ [d]) = valueOf ds * 10 + d.val := by
  rw [valueOf, List.foldl_append]
  rfl

theorem valueOf_digitsOf (n : Nat) : valueOf (digitsOf n) = n := by
  induction n using Nat.strongRecOn with
  | ind n ih =>
    rcases Nat.lt_or_ge n 10 with h | h
    · rw [digitsOf_of_lt h]
      simp [valueOf]
    · rw [digitsOf_of_le h, valueOf_concat, ih _ (by omega)]
      exact Nat.div_add_mod' n 10

/-- A text that does not go on with a digit. -/
def Undigited (cs : List Char) : Prop := ∀ c ∈ cs.head?, Digit.ofChar? c = none

theorem takeDigits_text (h : Undigited rest) (ds : List Digit) :
    takeDigits (Digit.text ds ++ rest) = (ds, rest) := by
  induction ds with
  | nil =>
    cases rest with
    | nil => rfl
    | cons c cs =>
      rw [Digit.text, List.map_nil, List.nil_append, takeDigits, h c rfl]
  | cons d ds ih =>
    rw [Digit.text, List.map_cons, List.cons_append, takeDigits, Digit.ofChar?_char]
    exact congrArg (fun r : List Digit × List Char => (d :: r.1, r.2)) ih

/-! ## Numerals -/

namespace Numeral

/-- Written as numerals are: with digits wherever there have to be some, and without zeros in
front. -/
structure Proper (n : Numeral) : Prop where
  whole : n.whole ≠ []
  leading : n.whole.head? = some 0 → n.whole = [0]
  fraction : n.fraction ≠ some []
  exponent : ∀ negative, n.exponent ≠ some (negative, [])

/-- A text that cannot be taken for more of a numeral. -/
def Apart (cs : List Char) : Prop :=
  ∀ c ∈ cs.head?, Digit.ofChar? c = none ∧ c ≠ '.' ∧ c ≠ 'e' ∧ c ≠ 'E'

theorem Apart.undigited (h : Apart cs) : Undigited cs := fun c hc => (h c hc).1

theorem apart_nil : Apart [] := nofun

theorem apart_cons {c : Char} (h : Digit.ofChar? c = none ∧ c ≠ '.' ∧ c ≠ 'e' ∧ c ≠ 'E') :
    Apart (c :: cs) := by
  rintro _ ⟨⟩
  exact h

/-! ### The parts of a numeral -/

def fractionChars : Option (List Digit) → List Char
  | none => []
  | some ds => '.' :: Digit.text ds

def exponentChars : Option (Bool × List Digit) → List Char
  | none => []
  | some (negative, ds) => 'e' :: (if negative then '-' else '+') :: Digit.text ds

theorem chars_append (n : Numeral) (rest : List Char) :
    n.chars ++ rest = (if n.negative then ['-'] else []) ++
      (Digit.text n.whole ++ (fractionChars n.fraction ++ (exponentChars n.exponent ++ rest))) := by
  rw [← List.append_assoc, ← List.append_assoc, ← List.append_assoc]
  rfl

theorem takeExponent_chars {exponent : Option (Bool × List Digit)} (h : Apart rest)
    (hne : ∀ negative, exponent ≠ some (negative, [])) :
    takeExponent (exponentChars exponent ++ rest) = some (exponent, rest) := by
  cases exponent with
  | none =>
    cases rest with
    | nil => rfl
    | cons c cs =>
      rw [exponentChars, List.nil_append]
      unfold takeExponent
      exact if_neg (not_or.2 (h c rfl).2.2)
  | some e =>
    obtain ⟨negative, ds⟩ := e
    cases ds with
    | nil => exact absurd rfl (hne negative)
    | cons d ds =>
      cases negative <;> simp [exponentChars, takeExponent, takeDigits_text h.undigited]

theorem undigited_exponentChars (h : Apart rest) (exponent : Option (Bool × List Digit)) :
    ∀ c ∈ (exponentChars exponent ++ rest).head?, Digit.ofChar? c = none ∧ c ≠ '.' := by
  cases exponent with
  | none => exact fun c hc => ⟨(h c hc).1, (h c hc).2.1⟩
  | some e =>
    rintro _ ⟨⟩
    decide

theorem takeFraction_chars {fraction : Option (List Digit)}
    (h : ∀ c ∈ rest.head?, Digit.ofChar? c = none ∧ c ≠ '.') (hne : fraction ≠ some []) :
    takeFraction (fractionChars fraction ++ rest) = some (fraction, rest) := by
  cases fraction with
  | none =>
    cases rest with
    | nil => rfl
    | cons c cs =>
      rw [fractionChars, List.nil_append, takeFraction]
      intro cs hc
      exact (h c rfl).2 (List.cons.inj hc).1
  | some ds =>
    rw [fractionChars, List.cons_append, takeFraction, takeDigits_text fun c hc => (h c hc).1]
    cases ds with
    | nil => exact absurd rfl hne
    | cons d ds => rfl

theorem undigited_fractionChars (h : Undigited rest) (fraction : Option (List Digit)) :
    Undigited (fractionChars fraction ++ rest) := by
  cases fraction with
  | none => exact h
  | some ds =>
    rintro _ ⟨⟩
    decide

theorem takeWhole_text (h : Undigited rest) (hne : ds ≠ []) (hlead : ds.head? = some 0 → ds = [0]) :
    takeWhole (Digit.text ds ++ rest) = some (ds, rest) := by
  have hdigits := takeDigits_text h ds
  cases ds with
  | nil => exact absurd rfl hne
  | cons d ds =>
    by_cases hd : d = 0
    · subst hd
      obtain rfl : ds = [] := (List.cons.inj (hlead rfl)).2
      rfl
    · have hchar : d.char ≠ '0' := by
        intro hc
        have hread := Digit.ofChar?_char d
        rw [hc] at hread
        exact hd (Option.some.inj hread).symm
      rw [takeWhole]
      · rw [hdigits]
      · intro cs hcs
        exact hchar (List.cons.inj hcs).1

/-- A proper numeral reads back from its text, and no more is taken. -/
theorem Proper.take_chars {n : Numeral} (h : n.Proper) (hrest : Apart rest) :
    take (n.chars ++ rest) = some (n, rest) := by
  have hafter := undigited_exponentChars hrest n.exponent
  have hexponent := takeExponent_chars hrest h.exponent
  have hfraction := takeFraction_chars hafter h.fraction
  have hwhole := takeWhole_text (undigited_fractionChars (fun c hc => (hafter c hc).1) n.fraction)
    h.whole h.leading
  obtain ⟨negative, whole, fraction, exponent⟩ := n
  rw [chars_append]
  cases negative with
  | true =>
    unfold take
    simp only [if_true, List.singleton_append, hwhole, hfraction, hexponent, Option.bind_eq_bind,
      Option.bind_some, Option.pure_def]
  | false =>
    rw [if_neg (by simp), List.nil_append, take]
    · simp only [hwhole, hfraction, hexponent, Option.bind_eq_bind, Option.bind_some,
        Option.pure_def]
    · intro cs hcs
      obtain ⟨d, ds, rfl⟩ := List.exists_cons_of_ne_nil h.whole
      exact d.char_ne_minus (List.cons.inj hcs).1

/-! ### Natural numbers -/

theorem proper_ofNat (n : Nat) : (ofNat n).Proper where
  whole := digitsOf_ne_nil n
  leading h := by
    by_cases hn : n = 0
    · exact hn ▸ digitsOf_zero
    · exact absurd h (head?_digitsOf hn)
  fraction := nofun
  exponent _ := nofun

theorem toNat?_ofNat {n bound : Nat} (h : n < bound) : (ofNat n).toNat? bound = some n := by
  have hint : (ofNat n).toInt? = some (n : Int) := by
    simp [toInt?, ofNat, valueOf_digitsOf]
  rw [toNat?, hint]
  exact if_pos h

end Numeral

end Dataflow.Decimal
