-- SUMMARY: What rounding to a double does to a fraction that is an integer.
import FlowStudyJudge.Text.Numeral
import Mathlib.Algebra.Order.Group.Int

/-! # Integers as doubles

A fraction whose value is an integer is rounded to a double of the same value where
the last bit of the mantissa lies behind the point, and otherwise to a multiple of
that bit next to it. -/

namespace Double

/-- A magnitude with its sign. -/
def signed (neg : Bool) (n : Nat) : Int :=
  if neg then -n else n

/-- The double is `n / d` with this sign, exactly. -/
def IsRatio (x : Double) (neg : Bool) (n d : Nat) : Prop :=
  match x with
  | .finite neg' m e => neg' = neg ∧
      if 0 ≤ e then m * 2 ^ e.toNat * d = n else m * d = n * 2 ^ (-e).toNat
  | _ => False

@[simp] theorem signed_inj {neg : Bool} {m n : Nat} : signed neg m = signed neg n ↔ m = n := by
  cases neg <;> simp [signed]

theorem abs_signed_sub (neg : Bool) (m n : Nat) :
    |signed neg m - signed neg n| = |(m : Int) - n| := by
  cases neg with
  | true =>
    have hneg : signed true m - signed true n = -((m : Int) - n) := by
      simp only [signed, if_true]
      omega
    rw [hneg, abs_neg]
  | false => rfl

/-! ## One rounding -/

theorem roundNearestEven_mul (q : Nat) {d : Nat} (hd : 0 < d) :
    roundNearestEven (q * d) d = q := by
  have hdiv : q * d / d = q := Nat.mul_div_cancel q hd
  have hmod : q * d % d = 0 := Nat.mul_mod_left q d
  simp only [roundNearestEven, hdiv, hmod]
  exact if_pos (by omega)

/-- Rounding moves by one unit at most. -/
theorem roundNearestEven_error (a : Nat) {b : Nat} (hb : 0 < b) :
    roundNearestEven a b * b ≤ a + b ∧ a ≤ roundNearestEven a b * b + b := by
  have hsplit : a / b * b + a % b = a := Nat.div_add_mod' a b
  have hlt : a % b < b := Nat.mod_lt a hb
  have hup : (a / b + 1) * b = a / b * b + b := Nat.succ_mul _ _
  unfold roundNearestEven
  dsimp only
  split
  · omega
  · split
    · omega
    · have hparity : a / b % 2 = 0 ∨ a / b % 2 = 1 := Nat.mod_two_eq_zero_or_one _
      rcases hparity with h | h
      · rw [h, Nat.add_zero]
        omega
      · rw [h, hup]
        omega

/-! ## The last bit -/

theorem log2_mul_le {q d : Nat} (hq : q ≠ 0) (hd : d ≠ 0) :
    (q * d).log2 ≤ q.log2 + d.log2 + 1 := by
  have hqlt : q < 2 ^ (q.log2 + 1) := Nat.lt_log2_self
  have hdlt : d < 2 ^ (d.log2 + 1) := Nat.lt_log2_self
  have hlt : q * d < 2 ^ (q.log2 + d.log2 + 2) := by
    calc q * d < 2 ^ (q.log2 + 1) * 2 ^ (d.log2 + 1) := Nat.mul_lt_mul'' hqlt hdlt
      _ = 2 ^ (q.log2 + d.log2 + 2) := by rw [← Nat.pow_add]; congr 1; omega
  have hlog := (Nat.log2_lt (Nat.mul_ne_zero hq hd)).mpr hlt
  omega

theorem lastBit_le (n d : Nat) : lastBit n d ≤ max ((n.log2 : Int) - d.log2 - 52) (-1074) := by
  unfold lastBit
  dsimp only
  split <;> omega

theorem lastBit_mul_le {q d k : Nat} (hq : q ≠ 0) (hd : d ≠ 0) (hlt : q < 2 ^ k) :
    lastBit (q * d) d ≤ max ((k : Int) - 52) (-1074) := by
  have hlog : q.log2 < k := (Nat.log2_lt hq).mpr hlt
  have hmul := log2_mul_le hq hd
  have hbit := lastBit_le (q * d) d
  omega

/-! ## Integers below `2 ^ 64` -/

/-- How the double `± m * 2 ^ e` lies to the integer that it was rounded from. -/
inductive Rounded (q m : Nat) (e : Int) : Prop
  | fine (he : e < 0) (h : m = q * 2 ^ (-e).toNat)
  | coarse (he : 0 ≤ e) (hle : e ≤ 12) (hup : m * 2 ^ e.toNat ≤ q + 2 ^ e.toNat)
      (hdown : q ≤ m * 2 ^ e.toNat + 2 ^ e.toNat)

theorem ofRatio_mul (neg : Bool) {q d : Nat} (hd : 0 < d) (hlt : q < 2 ^ 64) (hq : q ≠ 0) :
    ∃ m e, ofRatio neg (q * d) d = .finite neg m e ∧ Rounded q m e ∧ e = lastBit (q * d) d := by
  have hne : q * d ≠ 0 := Nat.mul_ne_zero hq (by omega)
  have hbit : lastBit (q * d) d ≤ 12 := by
    have hle := lastBit_mul_le hq hd.ne' hlt
    omega
  generalize he : lastBit (q * d) d = e at hbit
  have hfinite : ∀ m, ¬ (971 < e ∨ e = 971 ∧ m = 2 ^ 53) := by omega
  have hratio : ofRatio neg (q * d) d =
      .finite neg (roundNearestEven (scale (q * d) d e).1 (scale (q * d) d e).2) e := by
    simp only [ofRatio, if_neg hne, he]
    exact if_neg (hfinite _)
  refine ⟨_, e, hratio, ?_, rfl⟩
  by_cases hsign : 0 ≤ e
  · have hscale : scale (q * d) d e = (q * d, d * 2 ^ e.toNat) := if_pos hsign
    have hpos : 0 < 2 ^ e.toNat := Nat.two_pow_pos _
    have herror := roundNearestEven_error (q * d) (Nat.mul_pos hd hpos)
    rw [hscale]
    generalize roundNearestEven (q * d) (d * 2 ^ e.toNat) = m at herror
    have hm : m * (d * 2 ^ e.toNat) = d * (m * 2 ^ e.toNat) := Nat.mul_left_comm _ _ _
    have hcomm : q * d = d * q := Nat.mul_comm q d
    rw [hm, hcomm] at herror
    refine .coarse hsign hbit ?_ ?_
    · refine Nat.le_of_mul_le_mul_left ?_ hd
      rw [Nat.mul_add]
      exact herror.1
    · refine Nat.le_of_mul_le_mul_left ?_ hd
      rw [Nat.mul_add]
      exact herror.2
  · have hscale : scale (q * d) d e = (q * d * 2 ^ (-e).toNat, d) := if_neg hsign
    have hcomm : q * d * 2 ^ (-e).toNat = q * 2 ^ (-e).toNat * d := Nat.mul_right_comm _ _ _
    rw [hscale, hcomm, roundNearestEven_mul _ hd]
    exact .fine (by omega) rfl

theorem truncate_finite (neg : Bool) (m : Nat) (e : Int) :
    truncate (.finite neg m e) =
      signed neg (if 0 ≤ e then m * 2 ^ e.toNat else m / 2 ^ (-e).toNat) := by
  unfold truncate signed
  by_cases he : 0 ≤ e <;> simp [he]

theorem IsRatio.truncate {x : Double} {neg : Bool} {q d : Nat} (hd : 0 < d)
    (h : x.IsRatio neg (q * d) d) : x.truncate = signed neg q := by
  cases x with
  | finite neg' m e =>
    obtain ⟨rfl, hvalue⟩ := h
    rw [truncate_finite]
    by_cases he : 0 ≤ e
    · rw [if_pos he] at hvalue ⊢
      rw [Nat.eq_of_mul_eq_mul_right hd hvalue]
    · rw [if_neg he] at hvalue ⊢
      have hm : m = q * 2 ^ (-e).toNat := by
        refine Nat.eq_of_mul_eq_mul_right hd ?_
        rw [hvalue]
        exact Nat.mul_right_comm _ _ _
      rw [hm, Nat.mul_div_cancel _ (Nat.two_pow_pos _)]
  | inf neg' => exact h.elim
  | nan => exact h.elim

theorem ofRatio_zero (neg : Bool) (d : Nat) : ofRatio neg (0 * d) d = .finite neg 0 0 := by
  simp [ofRatio]

theorem isRatio_fine {neg : Bool} {q m d : Nat} {e : Int} (he : e < 0)
    (h : m = q * 2 ^ (-e).toNat) : (Double.finite neg m e).IsRatio neg (q * d) d := by
  refine ⟨rfl, ?_⟩
  rw [if_neg (by omega), h]
  exact Nat.mul_right_comm _ _ _

/-- Integers of up to 51 bits are doubles. -/
theorem ofRatio_small (neg : Bool) {q d : Nat} (hd : 0 < d) (hlt : q < 2 ^ 51) :
    (ofRatio neg (q * d) d).IsRatio neg (q * d) d := by
  by_cases hq : q = 0
  · subst hq
    rw [ofRatio_zero]
    exact ⟨rfl, by simp⟩
  · obtain ⟨m, e, hratio, hrounded, he⟩ := ofRatio_mul neg hd (by omega) hq
    have hbit : lastBit (q * d) d < 0 := by
      have hle := lastBit_mul_le hq hd.ne' hlt
      omega
    rw [hratio]
    cases hrounded with
    | fine he h => exact isRatio_fine he h
    | coarse hsign => omega

/-- An integer of up to 64 bits is moved by a small distance at most. -/
theorem ofRatio_near (neg : Bool) {q d : Nat} (hd : 0 < d) (hlt : q < 2 ^ 64) :
    |(ofRatio neg (q * d) d).truncate - signed neg q| ≤ 2 ^ 12 := by
  by_cases hq : q = 0
  · subst hq
    rw [ofRatio_zero, truncate_finite, abs_signed_sub]
    simp
  · obtain ⟨m, e, hratio, hrounded, -⟩ := ofRatio_mul neg hd hlt hq
    rw [hratio]
    cases hrounded with
    | fine he h =>
      have hexact : (Double.finite neg m e).IsRatio neg (q * d) d := isRatio_fine he h
      rw [hexact.truncate hd]
      simp
    | coarse hsign hle hup hdown =>
      have hpow : 2 ^ e.toNat ≤ 2 ^ 12 := Nat.pow_le_pow_right (by omega) (by omega)
      rw [truncate_finite, if_pos hsign, abs_signed_sub, abs_le]
      omega

/-- The double next to an integer truncates to it only if it is that integer. -/
theorem ofRatio_isRatio_iff (neg : Bool) {q d : Nat} (hd : 0 < d) (hlt : q < 2 ^ 64) :
    (ofRatio neg (q * d) d).IsRatio neg (q * d) d ↔
      (ofRatio neg (q * d) d).truncate = signed neg q := by
  constructor
  · exact fun h => h.truncate hd
  · intro h
    by_cases hq : q = 0
    · exact ofRatio_small neg hd (by omega)
    · obtain ⟨m, e, hratio, hrounded, -⟩ := ofRatio_mul neg hd hlt hq
      rw [hratio] at h ⊢
      cases hrounded with
      | fine he hm => exact isRatio_fine he hm
      | coarse hsign =>
        rw [truncate_finite, if_pos hsign, signed_inj] at h
        refine ⟨rfl, ?_⟩
        rw [if_pos hsign, h]

end Double
