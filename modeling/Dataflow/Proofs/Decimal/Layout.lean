import Mathlib.Algebra.Group.Nat.Defs
import Dataflow.Decimal.Layout
import Dataflow.Proofs.Decimal.Numeral

/-! The search for the shortest decimal comes to an end, and so what is laid out is a numeral.

The coarsest grid that is tried last is finer than the upper half of the interval of the number
(`Binary.den_lt_num`), and so has a point in it (`Binary.exists_onGrid`). -/

namespace Dataflow.Decimal

/-- As the bits of a number give it. -/
structure Binary.Small (b : Binary) : Prop where
  mantissa : b.mantissa < 2 ^ 53
  low : -1074 ≤ b.exponent
  high : b.exponent ≤ 971

variable {b : Binary} {x : Float} {tie : Tie} {e : Int} {digits : Nat}

theorem small_of_magnitude (h : magnitude x = .finite b) : b.Small := by
  have hbits : x.toBits.toNat % Nat.pow 2 63 < 2 ^ 63 := Nat.mod_lt _ (by decide)
  have hleading : leadingBit = 2 ^ 52 := rfl
  unfold magnitude at h
  extract_lets bits field fraction at h
  have hfield : field = bits / 2 ^ 52 := rfl
  have hfraction : fraction = bits % 2 ^ 52 := rfl
  by_cases hspecial : field = 0x7FF
  · rw [if_pos hspecial] at h
    split at h <;> cases h
  rw [if_neg hspecial] at h
  by_cases hzero : field = 0
  · rw [if_pos hzero] at h
    cases h
    exact ⟨by simp only; omega, by simp, by simp⟩
  · rw [if_neg hzero] at h
    cases h
    constructor <;> simp only <;> omega

/-! ## Grids -/

namespace Binary

/-- The points of the grid of `10 ^ e` are the multiples of `den` when the quarter units are
multiples of `num`. -/
def num (b : Binary) (e : Int) : Nat := Nat.pow 2 (b.exponent - 2).toNat * Nat.pow 10 (-e).toNat

def den (b : Binary) (e : Int) : Nat := Nat.pow 2 (2 - b.exponent).toNat * Nat.pow 10 e.toNat

theorem num_pos (b : Binary) (e : Int) : 0 < b.num e :=
  Nat.mul_pos (Nat.pow_pos (by decide)) (Nat.pow_pos (by decide))

theorem den_pos (b : Binary) (e : Int) : 0 < b.den e :=
  Nat.mul_pos (Nat.pow_pos (by decide)) (Nat.pow_pos (by decide))

theorem two_pow_le (r : Nat) : 2 ^ r ≤ 10 ^ (r / 3 + 1) :=
  calc 2 ^ r ≤ 2 ^ (3 * (r / 3 + 1)) := Nat.pow_le_pow_right (by decide) (by omega)
    _ = 8 ^ (r / 3 + 1) := by rw [Nat.pow_mul]
    _ ≤ 10 ^ (r / 3 + 1) := Nat.pow_le_pow_left (by decide) _

/-- The last grid that is tried is finer than half the interval. -/
theorem den_lt_num (hb : b.Small) (he : e ≤ (b.exponent + 53) * 30103 / 100000 - 21) :
    b.den e < 2 * b.num e := by
  obtain ⟨-, hlow, hhigh⟩ := hb
  generalize hq : b.exponent = q at hlow hhigh he
  simp only [num, den, hq, Nat.pow_eq]
  rcases Int.lt_or_le e 0 with hneg | hpos
  · -- the power of ten is in the units
    obtain ⟨n, rfl⟩ : ∃ n : Nat, e = -(n : Int) := ⟨e.natAbs, by omega⟩
    obtain ⟨p, hp⟩ : ∃ p : Nat, (2 - q).toNat = p := ⟨_, rfl⟩
    have hpow : 2 ^ p ≤ 10 ^ n :=
      calc 2 ^ p = (2 ^ 93) ^ (p / 93) * 2 ^ (p % 93) := by
            rw [← Nat.pow_mul, ← Nat.pow_add, Nat.div_add_mod]
        _ ≤ (10 ^ 28) ^ (p / 93) * 10 ^ (p % 93 / 3 + 1) :=
            Nat.mul_le_mul (Nat.pow_le_pow_left (by decide) _) (two_pow_le _)
        _ = 10 ^ (28 * (p / 93) + (p % 93 / 3 + 1)) := by rw [← Nat.pow_mul, ← Nat.pow_add]
        _ ≤ 10 ^ n := Nat.pow_le_pow_right (by decide) (by omega)
    have hunits := Nat.le_mul_of_pos_left (10 ^ n) (Nat.two_pow_pos (q - 2).toNat)
    have hpos : 0 < 10 ^ n := Nat.pow_pos (by decide)
    rw [hp, Int.toNat_of_nonpos (by omega : -(n : Int) ≤ 0), Int.neg_neg, Int.toNat_natCast,
      Nat.pow_zero, Nat.mul_one]
    omega
  · -- the power of ten is in the grid
    obtain ⟨n, rfl⟩ := Int.eq_ofNat_of_zero_le hpos
    obtain ⟨p, hp⟩ : ∃ p : Nat, (q - 2).toNat = p := ⟨_, rfl⟩
    have hpow : 10 ^ n ≤ 2 ^ p :=
      calc 10 ^ n ≤ 10 ^ (3 * ((n + 2) / 3)) := Nat.pow_le_pow_right (by decide) (by omega)
        _ = (10 ^ 3) ^ ((n + 2) / 3) := Nat.pow_mul ..
        _ ≤ (2 ^ 10) ^ ((n + 2) / 3) := Nat.pow_le_pow_left (by decide) _
        _ = 2 ^ (10 * ((n + 2) / 3)) := (Nat.pow_mul ..).symm
        _ ≤ 2 ^ p := Nat.pow_le_pow_right (by decide) (by omega)
    have hpos : 0 < 2 ^ p := Nat.two_pow_pos p
    rw [hp, Int.toNat_of_nonpos (by omega : 2 - q ≤ 0), Int.toNat_natCast,
      Int.toNat_of_nonpos (by omega : -(n : Int) ≤ 0), Nat.pow_zero, Nat.one_mul, Nat.mul_one]
    omega

/-! ## Points in the interval -/

theorem interval_high (b : Binary) : b.interval.high = b.interval.mid + 2 := rfl

theorem interval_low (hm : b.mantissa ≠ 0) :
    0 < b.interval.low ∧ b.interval.low < b.interval.mid := by
  simp only [interval]
  split <;> omega

/-- A point well within the ends is in the interval, whether or not the ends are. -/
theorem holds_of_lt {i : Interval} {num den point : Nat} (hlow : i.low * num < point * den)
    (hhigh : point * den < i.high * num) : i.holds num den point := by
  unfold Interval.holds
  split
  · simp [Nat.le_of_lt hlow, Nat.le_of_lt hhigh]
  · simp [hlow, hhigh]

theorem point_ne_zero {i : Interval} {num den point : Nat} (hlow : 0 < i.low) (hnum : 0 < num)
    (h : i.holds num den point) : point ≠ 0 := by
  rintro rfl
  have hpos := Nat.mul_pos hlow hnum
  unfold Interval.holds at h
  split at h <;> simp only [Bool.and_eq_true, decide_eq_true_eq] at h <;> omega

/-- What is found on a grid is in the interval. -/
theorem holds_of_onGrid (h : b.onGrid? tie e = some digits) :
    b.interval.holds (b.num e) (b.den e) digits := by
  have either {low : Nat} {found : Option Nat}
      (hlow : b.interval.holds (b.num e) (b.den e) low)
      (hnext : b.interval.holds (b.num e) (b.den e) (low + 1))
      (hfound : found = some low ∨ found = some (low + 1)) (h : found = some digits) :
      b.interval.holds (b.num e) (b.den e) digits := by
    rcases hfound with rfl | rfl
    · exact Option.some.inj h ▸ hlow
    · exact Option.some.inj h ▸ hnext
  unfold onGrid? at h
  extract_lets i num den low rest at h
  split at h
  next hlow hnext =>
    refine either hlow hnext ?_ h
    split
    · exact .inl rfl
    split
    · exact .inr rfl
    split
    · exact .inr rfl
    split
    · exact .inl rfl
    · exact .inr rfl
  next hlow hnext => exact Option.some.inj h ▸ hlow
  next hlow hnext => exact Option.some.inj h ▸ hnext
  next => cases h

/-- A grid that is fine enough has a point in the interval. -/
theorem exists_onGrid (hm : b.mantissa ≠ 0) (hfine : b.den e < 2 * b.num e) (tie : Tie) :
    ∃ digits, b.onGrid? tie e = some digits := by
  have hnext : b.interval.holds (b.num e) (b.den e)
      (b.interval.mid * b.num e / b.den e + 1) := by
    have hdiv := Nat.div_add_mod' (b.interval.mid * b.num e) (b.den e)
    have hmod := Nat.mod_lt (b.interval.mid * b.num e) (b.den_pos e)
    have hlow := Nat.mul_lt_mul_of_pos_right (interval_low hm).2 (b.num_pos e)
    refine holds_of_lt ?_ ?_
    · rw [Nat.add_mul]
      omega
    · rw [interval_high, Nat.add_mul, Nat.add_mul]
      omega
  unfold onGrid?
  extract_lets i num den low rest
  have hnext : i.holds num den (low + 1) := hnext
  rw [hnext]
  cases i.holds num den low with
  | true =>
    dsimp only
    split
    · exact ⟨_, rfl⟩
    split
    · exact ⟨_, rfl⟩
    split <;> exact ⟨_, rfl⟩
  | false => exact ⟨_, rfl⟩

/-- The search finds a decimal, and not zero, if it tries a grid that is fine enough
(`exists_onGrid`). What it finds on any grid lies in the interval, above zero. -/
theorem coarsest_ne_zero (hm : b.mantissa ≠ 0) (steps : Nat)
    (hfine : b.den (e - steps) < 2 * b.num (e - steps)) :
    (b.coarsest tie (steps + 1) e).digits ≠ 0 := by
  induction steps generalizing e with
  | zero =>
    obtain ⟨digits, hd⟩ := exists_onGrid hm (e := e) (by simpa using hfine) tie
    rw [coarsest, hd]
    exact point_ne_zero (interval_low hm).1 (b.num_pos e) (holds_of_onGrid hd)
  | succ steps ih =>
    rw [coarsest]
    split
    next digits hd => exact point_ne_zero (interval_low hm).1 (b.num_pos e) (holds_of_onGrid hd)
    next => exact ih (by rwa [show e - 1 - (steps : Int) = e - (steps + 1 : Nat) by omega])

theorem shortest_zero (hb : b.Small) (tie : Tie) (h : (b.shortest tie).digits = 0) :
    (b.shortest tie).exponent = 0 := by
  rw [shortest] at h ⊢
  split at h
  next hm => rw [if_pos hm]
  next hm =>
    refine absurd h (coarsest_ne_zero hm 23 (den_lt_num hb ?_))
    have hlog : b.mantissa.log2 < 53 := (Nat.log2_lt hm).2 hb.mantissa
    rw [above]
    omega

end Binary

/-! ## Layouts -/

namespace Scaled

variable {s : Scaled}

theorem head?_eq_zero (h : s.digits = 0 → s.exponent = 0)
    (hhead : (digitsOf s.digits).head? = some 0) : digitsOf s.digits = [0] ∧ s.exponent = 0 := by
  by_cases hs : s.digits = 0
  · exact ⟨hs ▸ digitsOf_zero, h hs⟩
  · exact absurd hhead (head?_digitsOf hs)

theorem proper_positional (h : s.digits = 0 → s.exponent = 0) (negative keepsPoint : Bool) :
    (s.positional negative keepsPoint).Proper := by
  obtain ⟨d, ds, hds⟩ := List.exists_cons_of_ne_nil (digitsOf_ne_nil s.digits)
  have hhead := head?_eq_zero h
  unfold positional
  rw [hds] at hhead ⊢
  extract_lets digits places zero
  split
  next hexp =>
    refine ⟨by simp [digits], fun hzero => ?_, by cases keepsPoint <;> simp, nofun⟩
    obtain ⟨hone, he⟩ := hhead hzero
    simp [digits, hone, he]
  next hexp =>
    split
    next => exact ⟨by simp, fun _ => rfl, by simp [digits], nofun⟩
    next hlong =>
      have hplaces : 0 < digits.length - places := by omega
      have hafter : digits.length - places < digits.length := by
        simp only [places]
        omega
      refine ⟨?_, fun hzero => ?_, ?_, nofun⟩
      · refine List.ne_nil_of_length_pos ?_
        simp only [List.length_take]
        omega
      · rw [List.head?_take, if_neg (Nat.ne_of_gt hplaces)] at hzero
        exact absurd (hhead hzero).2 (by omega)
      · simpa using hafter

theorem proper_scientific (h : s.digits = 0 → s.exponent = 0) (negative : Bool) :
    (s.scientific negative).Proper := by
  obtain ⟨d, ds, hds⟩ := List.exists_cons_of_ne_nil (digitsOf_ne_nil s.digits)
  have hhead := head?_eq_zero h
  unfold scientific
  rw [hds] at hhead ⊢
  refine ⟨by simp, fun hzero => ?_, ?_, fun sign he => ?_⟩
  · exact congrArg (List.take 1) (hhead hzero).1
  · cases ds <;> simp
  · exact digitsOf_ne_nil _ (Prod.mk.inj (Option.some.inj he)).2

end Scaled

namespace Layout

variable {l : Layout}

/-- What is laid out is a numeral that reads back from its text. It has no zero in front, since by
`shortest_zero` its digits are zero only where the number is. -/
theorem proper_of_numeral? {n : Numeral} (h : l.numeral? x = some n) : n.Proper := by
  unfold numeral? at h
  split at h
  next b hb =>
    obtain rfl := Option.some.inj h
    have hzero := Binary.shortest_zero (small_of_magnitude hb) l.tie
    unfold ofBinary
    extract_lets s
    split
    · exact Scaled.proper_positional hzero _ _
    · exact Scaled.proper_scientific hzero _
  next => cases h

/-- Just the finite numbers have a numeral. -/
theorem numeral?_isSome (l : Layout) (x : Float) : (l.numeral? x).isSome = isFinite x := by
  unfold numeral? isFinite
  cases magnitude x <;> rfl

end Layout

end Dataflow.Decimal
