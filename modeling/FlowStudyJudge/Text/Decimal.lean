-- SUMMARY: Decimal numerals: the bytes they consist of, and reading them back.
import FlowStudyJudge.Text.Bytes

/-! # Decimal numerals -/

namespace Bytes

/-- The byte of a digit has the digit's code. -/
theorem toNat_ofNat_digit {d : Char} (h : d.isDigit) :
    (UInt8.ofNat d.toNat).toNat = d.toNat ∧ 48 ≤ d.toNat ∧ d.toNat ≤ 57 := by
  have hbounds : 48 ≤ d.toNat ∧ d.toNat ≤ 57 := Char.isDigit_iff_toNat.mp h
  have hlt : d.toNat < 256 := by omega
  exact ⟨UInt8.toNat_ofNat_of_lt' hlt, hbounds⟩

theorem isDigit_of_mem_ofNat {c : UInt8} {n : Nat} (h : c ∈ ofNat n) : isDigit c = true := by
  obtain ⟨d, hd, rfl⟩ := List.mem_map.mp h
  have hdigit : d.isDigit := Nat.isDigit_of_mem_toDigits (by decide) (by decide) hd
  obtain ⟨htoNat, hbounds⟩ := toNat_ofNat_digit hdigit
  simp only [isDigit, Bool.and_eq_true, decide_eq_true_eq, UInt8.le_iff_toNat_le, htoNat]
  exact hbounds

theorem ofNat_ne_nil (n : Nat) : ofNat n ≠ [] := by
  simp [ofNat, Nat.toDigits_ne_nil]

theorem ofInt_ne_nil (n : Int) : ofInt n ≠ [] := by
  cases n with
  | ofNat n => exact ofNat_ne_nil n
  | negSucc n => exact List.cons_ne_nil _ _

/-- A numeral consists of digits and perhaps a minus sign. -/
theorem mem_ofInt {c : UInt8} {n : Int} (h : c ∈ ofInt n) :
    isDigit c = true ∨ c = '-'.toUInt8 := by
  cases n with
  | ofNat n => exact .inl (isDigit_of_mem_ofNat h)
  | negSucc n =>
    rcases List.mem_cons.mp h with rfl | h
    · exact .inr rfl
    · exact .inl (isDigit_of_mem_ofNat h)

/-! ## Reading back -/

/-- The number that a string of digits stands for. -/
def digitsToNat (bs : Bytes) : Nat :=
  bs.foldl (fun n c => 10 * n + (c.toNat - 48)) 0

theorem digitsToNat_ofNat (n : Nat) : digitsToNat (ofNat n) = n := by
  have hfold : ∀ (ds : List Char) (init : Nat), (∀ d ∈ ds, d.isDigit) →
      (ds.map fun c => UInt8.ofNat c.toNat).foldl (fun n c => 10 * n + (c.toNat - 48)) init =
        Nat.ofDigitChars 10 ds init := by
    intro ds
    induction ds with
    | nil =>
      intro init _
      rfl
    | cons d ds ih =>
      intro init hds
      obtain ⟨hd, hds⟩ := List.forall_mem_cons.mp hds
      have hstep := ih (10 * init + (d.toNat - 48)) hds
      simp only [List.map_cons, List.foldl_cons, (toNat_ofNat_digit hd).1,
        Nat.ofDigitChars_cons]
      exact hstep
  have hdigits : ∀ d ∈ Nat.toDigits 10 n, d.isDigit := fun d hd =>
    Nat.isDigit_of_mem_toDigits (by decide) (by decide) hd
  exact (hfold _ 0 hdigits).trans Nat.ofDigitChars_ten_toDigits

theorem ofNat_inj {m n : Nat} (h : ofNat m = ofNat n) : m = n := by
  rw [← digitsToNat_ofNat m, h, digitsToNat_ofNat]

/-- Different numbers have different numerals. -/
theorem ofInt_inj {m n : Int} (h : ofInt m = ofInt n) : m = n := by
  have hminus : ∀ k l : Nat, ofNat k ≠ '-'.toUInt8 :: ofNat l := by
    intro k l heq
    have hdigit := isDigit_of_mem_ofNat (n := k) (heq ▸ List.mem_cons_self ..)
    revert hdigit
    decide
  cases m with
  | ofNat m =>
    cases n with
    | ofNat n => exact congrArg Int.ofNat (ofNat_inj h)
    | negSucc n => exact absurd h (hminus _ _)
  | negSucc m =>
    cases n with
    | ofNat n => exact absurd h.symm (hminus _ _)
    | negSucc n =>
      have hsucc := ofNat_inj (List.cons.inj h).2
      exact congrArg Int.negSucc (Nat.succ.inj hsucc)

end Bytes
