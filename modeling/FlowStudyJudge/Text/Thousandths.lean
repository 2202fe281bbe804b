-- SUMMARY: Fractions as doubles: a quotient that is multiplied by its divisor again and truncated is the dividend or one less; and times in seconds with three decimals.
import FlowStudyJudge.Text.Rounding
import FlowStudyJudge.Text.Decimal

/-! # Fractions as doubles -/

namespace Double

/-! ## The last bit of a fraction -/

theorem lastBit_bounds (n d : Nat) :
    max ((n.log2 : Int) - d.log2 - 53) (-1074) ≤ lastBit n d ∧
      lastBit n d ≤ max ((n.log2 : Int) - d.log2 - 52) (-1074) := by
  unfold lastBit
  dsimp only
  split <;> omega

/-- A double that is not subnormal uses all its bits. -/
theorem lastBit_normal {n d : Nat} (hn : n ≠ 0) (hnegative : lastBit n d < 0)
    (hnormal : -1074 < lastBit n d) : d * 2 ^ 52 ≤ n * 2 ^ (-lastBit n d).toNat := by
  have hle : 2 ^ n.log2 ≤ n := Nat.log2_self_le hn
  have hlt : d < 2 ^ (d.log2 + 1) := Nat.lt_log2_self
  generalize hguess : (n.log2 : Int) - d.log2 = guess
  generalize hscale : scale n d guess = ab
  obtain ⟨a, b⟩ := ab
  have hbit : lastBit n d = max ((if a < b then guess - 1 else guess) - 52) (-1074) := by
    simp only [lastBit, hguess, hscale]
  rw [hbit] at hnegative hnormal ⊢
  split at hnegative
  · -- the exponent that the logarithms give is one too large
    rename_i hsmall
    rw [if_pos hsmall] at hnormal ⊢
    have hbits : d.log2 + 1 + 52 = n.log2 + (-max (guess - 1 - 52) (-1074)).toNat := by omega
    calc d * 2 ^ 52 ≤ 2 ^ (d.log2 + 1) * 2 ^ 52 := Nat.mul_le_mul_right _ hlt.le
      _ = 2 ^ n.log2 * 2 ^ (-max (guess - 1 - 52) (-1074)).toNat := by
        rw [← Nat.pow_add, ← Nat.pow_add, hbits]
      _ ≤ n * 2 ^ (-max (guess - 1 - 52) (-1074)).toNat := Nat.mul_le_mul_right _ hle
  · rename_i hlarge
    rw [if_neg hlarge] at hnormal ⊢
    have hge : b ≤ a := Nat.le_of_not_lt hlarge
    by_cases hsign : 0 ≤ guess
    · obtain ⟨rfl, rfl⟩ := Prod.mk.inj ((if_pos hsign).symm.trans hscale)
      have hbits : guess.toNat + (-max (guess - 52) (-1074)).toNat = 52 := by omega
      calc d * 2 ^ 52 = d * 2 ^ guess.toNat * 2 ^ (-max (guess - 52) (-1074)).toNat := by
            rw [Nat.mul_assoc, ← Nat.pow_add, hbits]
        _ ≤ n * 2 ^ (-max (guess - 52) (-1074)).toNat := Nat.mul_le_mul_right _ hge
    · obtain ⟨rfl, rfl⟩ := Prod.mk.inj ((if_neg hsign).symm.trans hscale)
      have hbits : (-max (guess - 52) (-1074)).toNat = (-guess).toNat + 52 := by omega
      calc d * 2 ^ 52 ≤ n * 2 ^ (-guess).toNat * 2 ^ 52 := Nat.mul_le_mul_right _ hge
        _ = n * 2 ^ (-max (guess - 52) (-1074)).toNat := by
            rw [Nat.mul_assoc, ← Nat.pow_add, hbits]

theorem div_le_roundNearestEven (a b : Nat) : a / b ≤ roundNearestEven a b := by
  unfold roundNearestEven
  dsimp only
  split
  · exact Nat.le_refl _
  · split <;> omega

theorem underflows_eq_false {n d : Nat} (hn : n ≠ 0) (hd : d ≠ 0) (hnegative : lastBit n d < 0)
    (hnormal : -1074 < lastBit n d) : underflows n d = false := by
  -- a name for the shift keeps `2 ^ 1075` from being evaluated
  obtain ⟨shift, hshift⟩ : ∃ shift : Nat, (-(-1075 : Int)).toNat = shift := ⟨_, rfl⟩
  have hscale : scale n d (-1075) = (n * 2 ^ shift, d) := by
    rw [← hshift]
    exact if_neg (by decide)
  have hbits : shift = (-lastBit n d).toNat + (shift - (-lastBit n d).toNat) := by omega
  have hone : 2 ^ 1 ≤ 2 ^ (shift - (-lastBit n d).toNat) :=
    Nat.pow_le_pow_right (by decide) (by omega)
  have hquotient : 2 ^ 53 ≤ n * 2 ^ shift / d := by
    rw [Nat.le_div_iff_mul_le (Nat.pos_of_ne_zero hd), Nat.mul_comm]
    calc d * 2 ^ 53 = d * 2 ^ 52 * 2 ^ 1 := by rw [Nat.mul_assoc, ← Nat.pow_add]
      _ ≤ n * 2 ^ (-lastBit n d).toNat * 2 ^ (shift - (-lastBit n d).toNat) :=
        Nat.mul_le_mul (lastBit_normal hn hnegative hnormal) hone
      _ = n * 2 ^ shift := by rw [Nat.mul_assoc, ← Nat.pow_add, ← hbits]
  have hround := div_le_roundNearestEven (n * 2 ^ shift) d
  simp only [underflows, hscale, Bool.and_eq_false_iff, decide_eq_false_iff_not]
  exact .inl (.inr (by omega))

/-! ## Dividing and multiplying -/

/-- Where the last bit lies behind the point, rounding moves a fraction by one unit of that
    bit at most. -/
theorem ofRatio_fraction (neg : Bool) {n d : Nat} (hn : n ≠ 0) (hd : 0 < d)
    (hnegative : lastBit n d < 0) :
    ∃ m, ofRatio neg n d = .finite neg m (lastBit n d) ∧
      m * d ≤ n * 2 ^ (-lastBit n d).toNat + d ∧ n * 2 ^ (-lastBit n d).toNat ≤ m * d + d := by
  have hscale : scale n d (lastBit n d) = (n * 2 ^ (-lastBit n d).toNat, d) :=
    if_neg (by omega)
  refine ⟨roundNearestEven (n * 2 ^ (-lastBit n d).toNat) d, ?_,
    roundNearestEven_error _ hd⟩
  simp only [ofRatio, if_neg hn, hscale]
  exact if_neg (by omega)

/-- The two roundings together move the dividend by less than one. -/
theorem truncate_between {n d m m' A B : Nat} (hA : 2 * d ≤ A) (hA' : 4 ≤ B)
    (hd : 0 < d) (h₁ : m * d ≤ n * A + d) (h₂ : n * A ≤ m * d + d)
    (h₃ : m' * A ≤ m * d * B + A) (h₄ : m * d * B ≤ m' * A + A) :
    m' / B ≤ n ∧ n ≤ m' / B + 1 := by
  have hApos : 0 < A := by omega
  have hB : 0 < B := by omega
  have hup : m * d * B ≤ (n * A + d) * B := Nat.mul_le_mul_right B h₁
  have hdown : n * A * B ≤ (m * d + d) * B := Nat.mul_le_mul_right B h₂
  have hsmall : d * B + A < A * B := by
    have hhalf : 2 * d * B ≤ A * B := Nat.mul_le_mul_right B hA
    have hfour : A * 4 ≤ A * B := Nat.mul_le_mul_left A hA'
    rw [Nat.mul_assoc] at hhalf
    omega
  have hcomm : n * A * B = n * B * A := Nat.mul_right_comm _ _ _
  have hAB : A * B = B * A := Nat.mul_comm _ _
  rw [Nat.add_mul] at hup hdown
  constructor
  · have hlt : m' * A < (n * B + B) * A := by
      rw [Nat.add_mul]
      omega
    have hm' : m' < (n + 1) * B := by
      rw [Nat.succ_mul]
      exact Nat.lt_of_mul_lt_mul_right hlt
    exact Nat.lt_succ_iff.mp ((Nat.div_lt_iff_lt_mul hB).mpr hm')
  · have hlt : n * B * A < (m' + B) * A := by
      rw [Nat.add_mul]
      omega
    have hm' : n * B < m' + B := Nat.lt_of_mul_lt_mul_right hlt
    have hdiv : n * B / B ≤ (m' + B) / B := Nat.div_le_div_right hm'.le
    rwa [Nat.mul_div_cancel _ hB, Nat.add_div_right _ hB] at hdiv

/-- A quotient of integers, multiplied by the divisor in `double` and truncated, is the
    dividend or one less. -/
theorem mulNat_ofRatio {n d : Nat} (hn : n < 2 ^ 32) (hpos : 0 < d) (hd : d ≤ 2 ^ 20) :
    ((ofRatio false n d).mulNat d).isFinite = true ∧
    ∃ k : Nat, ((ofRatio false n d).mulNat d).truncate = k ∧ k ≤ n ∧ n ≤ k + 1 := by
  by_cases hzero : n = 0
  · subst hzero
    have hratio : ofRatio false 0 d = .finite false 0 0 := by simp [ofRatio]
    rw [hratio]
    refine ⟨?_, 0, ?_, Nat.le_refl _, Nat.zero_le _⟩ <;>
      simp [mulNat, ofRatio, isFinite, truncate]
  · have hlog : n.log2 < 32 := (Nat.log2_lt hzero).mpr hn
    have hbounds := lastBit_bounds n d
    have hnegative : lastBit n d < 0 := by omega
    obtain ⟨m, hratio, hup, hdown⟩ := ofRatio_fraction false hzero hpos hnegative
    generalize hA : 2 ^ (-lastBit n d).toNat = A at hup hdown
    have hbig : 2 ^ 21 ≤ A := by
      rw [← hA]
      exact Nat.pow_le_pow_right (by omega) (by omega)
    have hnA : A ≤ n * A := Nat.le_mul_of_pos_left A (by omega)
    have hproduct : m * d ≠ 0 := by omega
    have hmul : (ofRatio false n d).mulNat d = ofRatio false (m * d) A := by
      simp only [hratio, mulNat, if_neg (show ¬ 0 ≤ lastBit n d by omega), hA]
    -- the product is below `2 ^ 33`, so its last bit lies behind the point as well
    have hAlog : A.log2 = (-lastBit n d).toNat := by rw [← hA, Nat.log2_two_pow]
    have hproductLog : (m * d).log2 < A.log2 + 33 := by
      refine (Nat.log2_lt hproduct).mpr ?_
      have hnA' : n * A < 2 ^ 32 * A := Nat.mul_lt_mul_of_pos_right hn (by omega)
      rw [Nat.pow_add, hAlog, hA]
      omega
    have hbounds' := lastBit_bounds (m * d) A
    have hnegative' : lastBit (m * d) A < 0 := by omega
    obtain ⟨m', hratio', hup', hdown'⟩ :=
      ofRatio_fraction false hproduct (by omega) hnegative'
    generalize hB : 2 ^ (-lastBit (m * d) A).toNat = B at hup' hdown'
    have hbig' : 2 ^ 2 ≤ B := by
      rw [← hB]
      exact Nat.pow_le_pow_right (by omega) (by omega)
    rw [hmul, hratio']
    refine ⟨rfl, m' / B, ?_, truncate_between (by omega) hbig' hpos hup hdown hup' hdown'⟩
    rw [truncate_finite, if_neg (by omega), hB]
    rfl

end Double

namespace Bytes

/-! ## Numerals -/

/-- What the conversions ask about a byte, where it is a digit. -/
theorem isDigit_cases {c : UInt8} (h : isDigit c = true) :
    isSpace c = false ∧ c ≠ '-'.toUInt8 ∧ c ≠ '+'.toUInt8 ∧ toLower c = c ∧
      digitValue c = c.toNat - 48 := by
  revert h
  exact forall_byte (p := fun c => isDigit c = true → isSpace c = false ∧ c ≠ '-'.toUInt8 ∧
    c ≠ '+'.toUInt8 ∧ toLower c = c ∧ digitValue c = c.toNat - 48) (by decide +kernel) c

theorem digitsValue_append (base : Nat) (xs ys : Bytes) :
    digitsValue base (xs ++ ys) =
      ys.foldl (fun n d => n * base + digitValue d) (digitsValue base xs) :=
  List.foldl_append

theorem digitsValue_ofNat (n : Nat) : digitsValue 10 (ofNat n) = n := by
  have hsame : ∀ (ds : Bytes) (init : Nat), (∀ c ∈ ds, isDigit c = true) →
      ds.foldl (fun n d => n * 10 + digitValue d) init =
        ds.foldl (fun n c => 10 * n + (c.toNat - 48)) init := by
    intro ds
    induction ds with
    | nil =>
      intro init _
      rfl
    | cons c ds ih =>
      intro init hds
      obtain ⟨hc, hds⟩ := List.forall_mem_cons.mp hds
      simp only [List.foldl_cons, (isDigit_cases hc).2.2.2.2, Nat.mul_comm init 10]
      exact ih _ hds
  exact (hsame _ 0 fun c hc => isDigit_of_mem_ofNat hc).trans (digitsToNat_ofNat n)

/-- A numeral begins with a digit. -/
theorem ofNat_eq_cons (n : Nat) : ∃ c cs, ofNat n = c :: cs ∧ isDigit c = true := by
  cases hn : ofNat n with
  | nil => exact absurd hn (ofNat_ne_nil n)
  | cons c cs => exact ⟨c, cs, rfl, isDigit_of_mem_ofNat (n := n) (by rw [hn]; simp)⟩

/-- `std::stoi` reads back what `std::to_string` has written. -/
theorem stoi_ofNat {n : Nat} (h : (n : Int) ≤ intMax) : stoi (ofNat n) = .ok n := by
  obtain ⟨c, cs, hcons, hc⟩ := ofNat_eq_cons n
  obtain ⟨hspace, hminus, hplus, -, -⟩ := isDigit_cases hc
  have hdrop : (ofNat n).dropWhile isSpace = ofNat n := by
    rw [hcons, List.dropWhile_cons, hspace]
    rfl
  have hsign : sign (ofNat n) = (false, ofNat n) := by
    rw [hcons]
    simp only [sign, if_neg hminus, if_neg hplus]
  have htake : (ofNat n).takeWhile isDigit = ofNat n :=
    List.takeWhile_eq_self_iff.mpr fun c hc => isDigit_of_mem_ofNat hc
  have hrange : intMin ≤ (n : Int) ∧ (n : Int) ≤ intMax := by
    unfold intMin
    omega
  simp only [stoi, hdrop, hsign, htake, if_neg (ofNat_ne_nil n), digitsValue_ofNat]
  exact if_pos hrange

/-! ## Three decimals -/

/-- The byte of a digit. -/
def digit (d : Nat) : UInt8 :=
  UInt8.ofNat (48 + d % 10)

theorem digit_spec (d : Nat) : isDigit (digit d) = true ∧ digitValue (digit d) = d % 10 := by
  have hall : ∀ k : Fin 10, isDigit (UInt8.ofNat (48 + k)) = true ∧
      digitValue (UInt8.ofNat (48 + k)) = k := by decide +kernel
  exact hall ⟨d % 10, Nat.mod_lt d (by decide)⟩

/-- `n` thousandths with three decimals, as `printf` writes them with `%d.%03d`. -/
def thousandths (n : Nat) : Bytes :=
  ofNat (n / 1000) ++ '.'.toUInt8 :: [digit (n / 100), digit (n / 10), digit n]

theorem mantissa_thousandths (n : Nat) :
    mantissa 10 isDigit (thousandths n) = some (n, 3, []) := by
  have hwhole : ∀ c ∈ ofNat (n / 1000), isDigit c = true := fun c hc => isDigit_of_mem_ofNat hc
  have hdot : isDigit '.'.toUInt8 = false := by decide
  have htake : (thousandths n).takeWhile isDigit = ofNat (n / 1000) := by
    rw [thousandths, List.takeWhile_append_of_pos hwhole, List.takeWhile_cons, hdot]
    simp
  have hdrop : (thousandths n).dropWhile isDigit =
      '.'.toUInt8 :: [digit (n / 100), digit (n / 10), digit n] := by
    rw [thousandths, List.dropWhile_append_of_pos hwhole, List.dropWhile_cons, hdot]
    rfl
  have hdigits : digitsValue 10
      (ofNat (n / 1000) ++ [digit (n / 100), digit (n / 10), digit n]) = n := by
    rw [digitsValue_append, digitsValue_ofNat]
    simp only [List.foldl_cons, List.foldl_nil, (digit_spec _).2]
    omega
  have hfraction : [digit (n / 100), digit (n / 10), digit n].takeWhile isDigit =
      [digit (n / 100), digit (n / 10), digit n] := by
    simp [(digit_spec _).1]
  have hrest : [digit (n / 100), digit (n / 10), digit n].dropWhile isDigit = [] := by
    simp [(digit_spec _).1]
  simp only [mantissa, htake, hdrop, if_pos, hfraction, hrest, hdigits]
  rw [if_neg (by simp)]
  rfl

theorem thousandths_eq_cons (n : Nat) : ∃ c rest, thousandths n = c :: rest ∧
    isDigit c = true ∧ ∀ x ∈ rest.head?, toLower x ≠ 'x'.toUInt8 := by
  obtain ⟨c, cs, hcons, hc⟩ := ofNat_eq_cons (n / 1000)
  refine ⟨c, cs ++ '.'.toUInt8 :: [digit (n / 100), digit (n / 10), digit n], ?_, hc, ?_⟩
  · rw [thousandths, hcons]
    rfl
  · intro x hx
    cases cs with
    | nil =>
      cases hx
      decide
    | cons c' cs =>
      have hx' : c' = x := Option.some.inj hx
      subst hx'
      have hc' : isDigit c' = true :=
        isDigit_of_mem_ofNat (n := n / 1000) (by rw [hcons]; simp)
      rw [(isDigit_cases hc').2.2.2.1]
      rintro rfl
      revert hc'
      decide

/-- `std::stod` on such a text. -/
theorem stod_thousandths (n : Nat) : stod (thousandths n) = toDouble false n 10 (-3) := by
  obtain ⟨c, rest, htext, hc, hsecond⟩ := thousandths_eq_cons n
  obtain ⟨hspace, hminus, hplus, hlower, -⟩ := isDigit_cases hc
  have hdrop : (thousandths n).dropWhile isSpace = thousandths n := by
    rw [htext, List.dropWhile_cons, hspace]
    rfl
  have hsign : sign (thousandths n) = (false, thousandths n) := by
    rw [htext]
    simp only [sign, if_neg hminus, if_neg hplus]
  have hword : ∀ (d : UInt8) (word : Bytes), isDigit d = false →
      ((thousandths n).take 3).map toLower ≠ d :: word := by
    intro d word hd heq
    rw [htext] at heq
    have hhead : toLower c = d := (List.cons.inj heq).1
    rw [← hhead, hlower, hc] at hd
    cases hd
  have hhex : hexMantissa (thousandths n) = none := by
    rw [htext]
    cases rest with
    | nil => rfl
    | cons x rest =>
      simp only [hexMantissa]
      exact if_neg fun hprefixed => hsecond x rfl hprefixed.2
  have hinf : ((thousandths n).take 3).map toLower ≠ "inf" := hword 'i'.toUInt8 "nf" rfl
  have hnan : ((thousandths n).take 3).map toLower ≠ "nan" := hword 'n'.toUInt8 "an" rfl
  simp only [stod, hdrop, hsign, if_neg hinf, if_neg hnan, hhex, mantissa_thousandths]
  rfl

theorem toDouble_thousandths {n m : Nat} {e : Int}
    (hratio : Double.ofRatio false n 1000 = .finite false m e)
    (hunder : Double.underflows n 1000 = false) :
    toDouble false n 10 (-3) = .ok (.finite false m e) := by
  have hneg : ¬ (0 : Int) ≤ -3 := by decide
  have hpow : 10 ^ (-(-3 : Int)).toNat = 1000 := rfl
  simp only [toDouble, if_neg hneg, hpow, hratio, hunder, Bool.false_eq_true, if_false]

/-- Seconds with three decimals, converted to milliseconds by `static_cast<int>(… * 1000)`,
    are as many or one less. -/
theorem stod_thousandths_mul {n : Nat} (h : (n : Int) ≤ intMax) :
    ∃ x, stod (thousandths n) = .ok x ∧
      ∃ k : Nat, (x.mulNat 1000).toInt = k ∧ k ≤ n ∧ n ≤ k + 1 := by
  unfold intMax at h
  obtain ⟨hfinite, k, htruncate, hle, hge⟩ :=
    Double.mulNat_ofRatio (n := n) (d := 1000) (by omega) (by decide) (by decide)
  have htoInt : ((Double.ofRatio false n 1000).mulNat 1000).toInt = k := by
    unfold Double.toInt
    rw [if_pos ⟨hfinite, by rw [htruncate]; unfold intMin; omega,
      by rw [htruncate]; unfold intMax; omega⟩, htruncate]
  refine ⟨Double.ofRatio false n 1000, ?_, k, htoInt, hle, hge⟩
  rw [stod_thousandths]
  by_cases hzero : n = 0
  · subst hzero
    decide +kernel
  · have hbounds := Double.lastBit_bounds n 1000
    have hlog : n.log2 < 31 := (Nat.log2_lt hzero).mpr (by omega)
    have hlog' : Nat.log2 1000 = 9 := by decide +kernel
    have hnegative : Double.lastBit n 1000 < 0 := by omega
    obtain ⟨m, hratio, -, -⟩ := Double.ofRatio_fraction false hzero (by decide) hnegative
    have hunder : Double.underflows n 1000 = false :=
      Double.underflows_eq_false hzero (by decide) hnegative (by omega)
    rw [toDouble_thousandths hratio hunder, hratio]

end Bytes
