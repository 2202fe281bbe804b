-- SUMMARY: The numbers of a message: from the text over the values of the library to the fields.
import FlowStudyJudge.Judge.Format
import FlowStudyJudge.Text.Rounding

/-! # Numbers in a message

A number of the text becomes a value of the library, in 64 bits or as a double, and
this value is cast to the type of its field. Nothing on the way checks a range. -/

open Double (signed)

/-- A number literal of JSON. -/
inductive Literal where
  | integer (neg : Bool) (n : Nat)
  /-- With a fraction or an exponent: `± digits * 10 ^ exp`. -/
  | decimal (neg : Bool) (digits : Nat) (exp : Int)
  deriving DecidableEq, Repr

namespace Literal

def neg : Literal → Bool
  | .integer neg _ => neg
  | .decimal neg _ _ => neg

/-- The magnitude as a fraction. -/
def ratio : Literal → Nat × Nat
  | .integer _ n => (n, 1)
  | .decimal _ digits exp =>
    if 0 ≤ exp then (digits * 10 ^ exp.toNat, 1) else (digits, 10 ^ (-exp).toNat)

def num (l : Literal) : Int :=
  signed l.neg l.ratio.1

def den (l : Literal) : Nat :=
  l.ratio.2

/-- The number is the integer `z`. -/
def Is (l : Literal) (z : Int) : Prop :=
  l.num = z * l.den

/-- JsonText as an integer, and within `int64_t` or `uint64_t`. -/
def fits : Literal → Bool
  | .integer neg n => if neg then n ≤ 2 ^ 63 else n < 2 ^ 64
  | .decimal _ _ _ => false

/-- The double next to the number. -/
def toDouble (l : Literal) : Double :=
  Double.ofRatio l.neg l.ratio.1 l.ratio.2

/-- The library holds the number as it is. -/
def Exact (l : Literal) : Prop :=
  l.fits = true ∨ l.toDouble.IsRatio l.neg l.ratio.1 l.ratio.2

/-- What the library holds: the integer where it fits, otherwise a double. A number
    too large for a double is refused. -/
def hold (l : Literal) : Option Json :=
  if l.fits then some (.integer l.num)
  else if l.toDouble.isFinite then some (.float l.toDouble) else none

/-! ## Casts -/

variable {l : Literal} {v : Json}

theorem den_pos (l : Literal) : 0 < l.den := by
  cases l with
  | integer neg n => exact Nat.one_pos
  | decimal neg digits exp =>
    by_cases hexp : 0 ≤ exp <;> simp [den, ratio, hexp]

theorem is_of_fits (h : l.fits = true) (z : Int) : l.Is z ↔ z = l.num := by
  cases l with
  | integer neg n =>
    have hden : (integer neg n).den = 1 := rfl
    simp only [Is, hden, Nat.cast_one, mul_one]
    exact eq_comm
  | decimal neg digits exp => cases h

/-- A number that is an integer has the magnitude of this integer, over the same
    denominator, and its sign. -/
theorem Is.magnitude {z : Int} (h : l.Is z) :
    l.ratio.1 = z.natAbs * l.den ∧ signed l.neg z.natAbs = z := by
  have hpos := l.den_pos
  have habs : l.ratio.1 = z.natAbs * l.den := by
    have hnum : l.num.natAbs = l.ratio.1 := by
      unfold num signed
      split <;> simp
    rw [← hnum, h, Int.natAbs_mul, Int.natAbs_natCast]
  refine ⟨habs, ?_⟩
  have hcast : (0 : Int) < l.den := by exact_mod_cast hpos
  have hsigned : signed l.neg z.natAbs * l.den = z * l.den := by
    rw [← h]
    unfold num
    rw [habs]
    unfold signed
    split <;> push_cast <;> ring
  exact Int.eq_of_mul_eq_mul_right (ne_of_gt hcast) hsigned

/-- What `hold` makes of a number. -/
theorem hold_cases (h : l.hold = some v) :
    l.fits = true ∧ v = .integer l.num ∨ l.fits = false ∧ v = .float l.toDouble := by
  unfold hold at h
  cases hfits : l.fits with
  | true =>
    rw [hfits, if_pos rfl] at h
    cases h
    exact .inl ⟨rfl, rfl⟩
  | false =>
    rw [hfits, if_neg (by simp)] at h
    split at h
    · cases h
      exact .inr ⟨rfl, rfl⟩
    · cases h

theorem toNat_ofInt (z : Int) : ((UInt64.ofInt z).toNat : Int) = z % 2 ^ 64 := by
  simp [UInt64.ofInt]
  omega

theorem toNat_castUInt64 (x : Double) :
    (-2 ^ 63 ≤ x.truncate ∧ x.truncate < 2 ^ 64 ∧
      ((Json.castUInt64 x).toNat : Int) = x.truncate % 2 ^ 64) ∨
    (2 ^ 64 ≤ x.truncate ∧ (Json.castUInt64 x).toNat = 0) ∨
      (x.truncate < -2 ^ 63 ∧ (Json.castUInt64 x).toNat = 2 ^ 63) := by
  unfold Json.castUInt64
  split
  · next hbelow =>
    have hbound := toNat_ofInt (2 ^ 63)
    exact .inr (.inr ⟨hbelow, by omega⟩)
  · next hbelow =>
    split
    · next habove => exact .inr (.inl ⟨habove, rfl⟩)
    · next habove => exact .inl ⟨by omega, by omega, toNat_ofInt _⟩

/-- The double next to an integer, where the integer is small or a double itself. -/
theorem Is.truncate {z : Int} (h : l.Is z)
    (hexact : l.toDouble.IsRatio l.neg l.ratio.1 l.ratio.2) : l.toDouble.truncate = z := by
  obtain ⟨hmagnitude, hsigned⟩ := h.magnitude
  have hratio : l.toDouble.IsRatio l.neg (z.natAbs * l.den) l.den := hmagnitude ▸ hexact
  exact (hratio.truncate l.den_pos).trans hsigned

/-- The cast to an id keeps a number when and only when it is an integer in the range
    of the id and the library holds it exactly. -/
theorem hold_getUInt64 {id : UInt64} (h : l.hold = some v) (hget : v.getUInt64 = .ok id) :
    l.Is id.toNat ↔ ∃ z, l.Is z ∧ 0 ≤ z ∧ z ≤ 2 ^ 64 - 1 ∧ l.Exact := by
  have hid : id.toNat < 2 ^ 64 := id.toNat_lt
  rcases hold_cases h with ⟨hfits, rfl⟩ | ⟨hfits, rfl⟩
  · have hcast : id = UInt64.ofInt l.num := (Except.ok.inj hget).symm
    have hmod : (id.toNat : Int) = l.num % 2 ^ 64 := hcast ▸ toNat_ofInt l.num
    simp only [is_of_fits hfits]
    constructor
    · intro heq
      exact ⟨l.num, rfl, by omega, by omega, .inl hfits⟩
    · rintro ⟨z, rfl, hleast, hgreatest, -⟩
      omega
  · have hcast : id = Json.castUInt64 l.toDouble := (Except.ok.inj hget).symm
    have hmod := toNat_castUInt64 l.toDouble
    rw [← hcast] at hmod
    constructor
    · intro his
      obtain ⟨hmagnitude, hsigned⟩ := his.magnitude
      have hlt : (id.toNat : Int).natAbs < 2 ^ 64 := by omega
      have hnear := Double.ofRatio_near l.neg l.den_pos hlt
      have hiff := Double.ofRatio_isRatio_iff l.neg l.den_pos hlt
      rw [← hmagnitude] at hnear hiff
      rw [hsigned] at hnear hiff
      have htruncate : l.toDouble.truncate = id.toNat := by
        have hbounds := abs_le.mp hnear
        change -2 ^ 12 ≤ l.toDouble.truncate - _ ∧ l.toDouble.truncate - _ ≤ 2 ^ 12 at hbounds
        omega
      exact ⟨id.toNat, his, by omega, by omega, .inr (hiff.mpr htruncate)⟩
    · rintro ⟨z, his, hleast, hgreatest, hexact⟩
      have hratio : l.toDouble.IsRatio l.neg l.ratio.1 l.ratio.2 := by
        simpa [Exact, hfits] using hexact
      have htruncate : l.toDouble.truncate = z := his.truncate hratio
      have heq : (id.toNat : Int) = z := by omega
      exact heq ▸ his

/-- The cast to `int` keeps a number when and only when it is an integer of that range. -/
theorem hold_getInt {n : Int} (h : l.hold = some v) (hget : v.getInt = .ok n) :
    l.Is n ↔ ∃ z, l.Is z ∧ Bytes.intMin ≤ z ∧ z ≤ Bytes.intMax := by
  rcases hold_cases h with ⟨hfits, rfl⟩ | ⟨hfits, rfl⟩
  · have hcast : n = Json.castInt l.num := (Except.ok.inj hget).symm
    obtain ⟨hleast, hgreatest⟩ := Json.castInt_bounds l.num
    constructor
    · intro his
      exact ⟨n, his, hcast ▸ hleast, hcast ▸ hgreatest⟩
    · rintro ⟨z, his, hrange⟩
      have hz : z = l.num := (is_of_fits hfits z).mp his
      have hsame : n = z := by
        rw [hcast, ← hz]
        exact Json.castInt_of_bounds hrange
      exact hsame ▸ his
  · have hcast : n = l.toDouble.toInt := (Except.ok.inj hget).symm
    obtain ⟨hleast, hgreatest⟩ := Double.toInt_bounds l.toDouble
    constructor
    · intro his
      exact ⟨n, his, hcast ▸ hleast, hcast ▸ hgreatest⟩
    · rintro ⟨z, his, hrange⟩
      obtain ⟨hmagnitude, hsigned⟩ := his.magnitude
      have hlt : z.natAbs < 2 ^ 51 := by
        unfold Bytes.intMin Bytes.intMax at hrange
        omega
      have hsmall := Double.ofRatio_small l.neg l.den_pos hlt
      rw [← hmagnitude] at hsmall
      have htruncate : l.toDouble.truncate = z := his.truncate hsmall
      have hfinite : l.toDouble.isFinite = true := by
        unfold hold at h
        rw [hfits, if_neg (by simp)] at h
        split at h
        · assumption
        · cases h
      have hsame : n = z := by
        rw [hcast, Double.toInt, htruncate]
        exact if_pos ⟨hfinite, hrange⟩
      exact hsame ▸ his

end Literal

/-! ## Texts as trees -/

/-- A JSON text, read up to its number literals. An object has each key once, with the
    value that comes last. -/
inductive JsonText where
  | null
  | boolean (b : Bool)
  | number (l : Literal)
  | string (s : Bytes)
  | array (elements : List JsonText)
  | object (fields : List (Bytes × JsonText))

namespace JsonText

mutual

/-- The value that the library builds. -/
def hold : JsonText → Option Json
  | .null => some .null
  | .boolean b => some (.boolean b)
  | .number l => l.hold
  | .string s => some (.string s)
  | .array elements => (holdElements elements).map .array
  | .object fields => (holdFields fields).map .object

def holdElements : List JsonText → Option (List Json)
  | [] => some []
  | w :: rest =>
    match w.hold, holdElements rest with
    | some j, some js => some (j :: js)
    | _, _ => none

def holdFields : List (Bytes × JsonText) → Option (List (Bytes × Json))
  | [] => some []
  | (key, w) :: rest =>
    match w.hold, holdFields rest with
    | some j, some fields => some ((key, j) :: fields)
    | _, _ => none

end

def isNull : JsonText → Bool
  | .null => true
  | _ => false

def lookup : JsonText → Bytes → Option JsonText
  | .object fields, key => (fields.find? fun f => f.1 = key).map (·.2)
  | _, _ => none

/-- What a range-based `for` visits, as for `Json`. -/
def elements : JsonText → List JsonText
  | .array xs => xs
  | .object fields => fields.map (·.2)
  | .null => []
  | w => [w]

theorem holdElements_cons {w : JsonText} {rest : List JsonText} {js : List Json} :
    holdElements (w :: rest) = some js ↔
      ∃ j js', js = j :: js' ∧ w.hold = some j ∧ holdElements rest = some js' := by
  simp only [holdElements]
  cases w.hold <;> cases holdElements rest <;> simp [eq_comm]

theorem holdFields_cons {key : Bytes} {w : JsonText} {rest : List (Bytes × JsonText)}
    {fields : List (Bytes × Json)} :
    holdFields ((key, w) :: rest) = some fields ↔ ∃ j fields', fields = (key, j) :: fields' ∧
      w.hold = some j ∧ holdFields rest = some fields' := by
  simp only [holdFields]
  cases w.hold <;> cases holdFields rest <;> simp [eq_comm]

theorem holdElements_getElem {ws : List JsonText} {js : List Json} (h : holdElements ws = some js)
    {k : Nat} {w : JsonText} (hk : ws[k]? = some w) : ∃ j, js[k]? = some j ∧ w.hold = some j := by
  induction ws generalizing js k with
  | nil => cases hk
  | cons w' rest ih =>
    obtain ⟨j, js', rfl, hj, hjs'⟩ := holdElements_cons.mp h
    cases k with
    | zero =>
      cases hk
      exact ⟨j, rfl, hj⟩
    | succ k => exact ih hjs' hk

theorem holdFields_find {ws : List (Bytes × JsonText)} {fields : List (Bytes × Json)}
    (h : holdFields ws = some fields) {key : Bytes} {w : JsonText}
    (hw : (ws.find? fun f => f.1 = key).map (·.2) = some w) :
    ∃ j, (fields.find? fun f => f.1 = key).map (·.2) = some j ∧ w.hold = some j := by
  induction ws generalizing fields with
  | nil => cases hw
  | cons f rest ih =>
    obtain ⟨key', w'⟩ := f
    obtain ⟨j, fields', rfl, hj, hfields'⟩ := holdFields_cons.mp h
    by_cases hkey : key' = key
    · simp only [List.find?_cons, hkey, decide_true, Option.map_some, Option.some.injEq] at hw ⊢
      exact ⟨j, rfl, hw ▸ hj⟩
    · simp only [List.find?_cons, hkey, decide_false] at hw ⊢
      exact ih hfields' hw

theorem holdFields_elements {ws : List (Bytes × JsonText)} {fields : List (Bytes × Json)}
    (h : holdFields ws = some fields) :
    holdElements (ws.map (·.2)) = some (fields.map (·.2)) := by
  induction ws generalizing fields with
  | nil =>
    cases h
    rfl
  | cons f rest ih =>
    obtain ⟨j, fields', rfl, hj, hfields'⟩ := holdFields_cons.mp h
    exact holdElements_cons.mpr ⟨j, _, rfl, hj, ih hfields'⟩

variable {w : JsonText} {j : Json}

/-- The value of a key is the value that is built for it. -/
theorem lookup_hold (h : w.hold = some j) {key : Bytes} {v : JsonText}
    (hv : w.lookup key = some v) : ∃ v', j.lookup key = some v' ∧ v.hold = some v' := by
  cases w with
  | object fields =>
    obtain ⟨fields', hfields', rfl⟩ := Option.map_eq_some_iff.mp (by simpa [hold] using h)
    exact holdFields_find hfields' hv
  | _ => cases hv

theorem elements_hold (h : w.hold = some j) : holdElements w.elements = some j.elements := by
  cases w with
  | null =>
    cases h
    rfl
  | boolean b =>
    cases h
    rfl
  | string s =>
    cases h
    rfl
  | number l =>
    have hscalar : j.elements = [j] := by
      rcases Literal.hold_cases h with ⟨-, rfl⟩ | ⟨-, rfl⟩ <;> rfl
    rw [hscalar]
    exact holdElements_cons.mpr ⟨j, [], rfl, h, rfl⟩
  | array xs =>
    obtain ⟨js, hjs, rfl⟩ := Option.map_eq_some_iff.mp (by simpa [hold] using h)
    exact hjs
  | object fields =>
    obtain ⟨fields', hfields', rfl⟩ := Option.map_eq_some_iff.mp (by simpa [hold] using h)
    exact holdFields_elements hfields'

theorem hold_isNull (h : w.hold = some j) : j.isNull = w.isNull := by
  cases w with
  | number l => rcases Literal.hold_cases h with ⟨-, rfl⟩ | ⟨-, rfl⟩ <;> rfl
  | array xs =>
    obtain ⟨js, -, rfl⟩ := Option.map_eq_some_iff.mp (by simpa [hold] using h)
    rfl
  | object fields =>
    obtain ⟨fields', -, rfl⟩ := Option.map_eq_some_iff.mp (by simpa [hold] using h)
    rfl
  | _ =>
    cases h
    rfl

end JsonText

/-! ## The fields -/

/-- The numeric fields of a message, those of the test cases by position. -/
inductive NumericField where
  | runId
  | submissionId
  | problemId
  | timeLimit
  | memoryLimit
  | testcaseId (k : Nat)
  | caseIndex (k : Nat)

namespace NumericField

/-- An id is a `uint64_t`, any other field an `int`. -/
def isId : NumericField → Bool
  | .runId | .submissionId | .problemId | .testcaseId _ => true
  | .timeLimit | .memoryLimit | .caseIndex _ => false

def least (f : NumericField) : Int :=
  if f.isId then 0 else Bytes.intMin

def greatest (f : NumericField) : Int :=
  if f.isId then 2 ^ 64 - 1 else Bytes.intMax

/-- The number lies outside the range of the field. -/
def Excludes (f : NumericField) (l : Literal) : Prop :=
  l.num < f.least * l.den ∨ f.greatest * l.den < l.num

end NumericField

/-- What the text has for a field. -/
def JsonText.field (w : JsonText) : NumericField → Option JsonText
  | .runId => w.lookup "run_id"
  | .submissionId => w.lookup "submission_id"
  | .problemId => w.lookup "problem_id"
  | .timeLimit => w.lookup "time_limit"
  | .memoryLimit => w.lookup "memory_limit"
  | .testcaseId k => do (← (← w.lookup "testcases").elements[k]?).lookup "testcase_id"
  | .caseIndex k => do (← (← w.lookup "testcases").elements[k]?).lookup "case_index"

/-- What the message has for it. -/
def SubmissionMessage.field (msg : SubmissionMessage) : NumericField → Option Int
  | .runId => some msg.runId.toNat
  | .submissionId => some msg.submissionId.toNat
  | .problemId => some msg.problemId.toNat
  | .timeLimit => some msg.timeLimitMs
  | .memoryLimit => some msg.memoryLimitKb
  | .testcaseId k => msg.testcases[k]?.map fun t => (t.testcaseId.toNat : Int)
  | .caseIndex k => msg.testcases[k]?.map fun t => t.caseIndex

/-- Each field is the number that the text has for it. -/
def Unaltered (w : JsonText) (msg : SubmissionMessage) : Prop :=
  ∀ f v, w.field f = some v → v.isNull = false →
    ∃ l n, v = .number l ∧ msg.field f = some n ∧ l.Is n

/-- Each field of the text is an integer in the range of its type, and an id beyond the
    precision of a double is written without fraction and exponent. -/
def Fits (w : JsonText) : Prop :=
  ∀ f v, w.field f = some v → v.isNull = false →
    ∃ l z, v = .number l ∧ l.Is z ∧ f.least ≤ z ∧ z ≤ f.greatest ∧ (f.isId = true → l.Exact)

/-- A number outside the range of its field does not fit it. -/
theorem Fits.not_excludes {w : JsonText} (h : Fits w) {f : NumericField} {l : Literal}
    (hl : w.field f = some (.number l)) : ¬ f.Excludes l := by
  obtain ⟨l', z, heq, his, hleast, hgreatest, -⟩ := h f _ hl rfl
  cases heq
  have hden : (0 : Int) ≤ l.den := Int.natCast_nonneg _
  have hlower : f.least * l.den ≤ l.num := his ▸ Int.mul_le_mul_of_nonneg_right hleast hden
  have hupper : l.num ≤ f.greatest * l.den := his ▸ Int.mul_le_mul_of_nonneg_right hgreatest hden
  rintro (hout | hout)
  · omega
  · omega

namespace JudgeEngine

open Json

/-- The text parser of the library, with its number conversion on top of the reading of
    the text. -/
def parseText (readText : Bytes → Option JsonText) (jsonStr : Bytes) : Option Json :=
  (readText jsonStr).bind JsonText.hold

/-- `parse_message` takes over the numbers of a text as they are, and refuses a text with
    a number outside the range of its field. -/
structure Faithful (readText : Bytes → Option JsonText) (jsonStr : Bytes) : Prop where
  unaltered : ∀ w msg, readText jsonStr = some w →
    parseMessage (parseText readText) jsonStr = some msg → Unaltered w msg
  refused : ∀ w f l, readText jsonStr = some w → w.field f = some (.number l) →
    f.Excludes l → parseMessage (parseText readText) jsonStr = none

/-- What a message has for a field: the cast of the value that was built for it. -/
def Cast (f : NumericField) (v : Json) (n : Int) : Prop :=
  if f.isId then ∃ id, v.getUInt64 = .ok id ∧ n = id.toNat else v.getInt = .ok n

variable {w v : JsonText} {j : Json} {msg : SubmissionMessage}

/-- A number is kept by the cast of its field when and only when it is an integer in the
    range of the field and, for an id, the library holds it exactly. -/
theorem cast_is_iff {f : NumericField} {l : Literal} {v : Json} {n : Int} (h : l.hold = some v)
    (hcast : Cast f v n) :
    l.Is n ↔ ∃ z, l.Is z ∧ f.least ≤ z ∧ z ≤ f.greatest ∧ (f.isId = true → l.Exact) := by
  unfold Cast at hcast
  unfold NumericField.least NumericField.greatest
  cases hid : f.isId with
  | true =>
    simp only [hid, if_true] at hcast
    obtain ⟨id, hget, rfl⟩ := hcast
    simpa using Literal.hold_getUInt64 h hget
  | false =>
    simp only [hid, Bool.false_eq_true, if_false] at hcast
    simpa using Literal.hold_getInt h hcast

theorem optionalId_cast {f : NumericField} (hf : f.isId = true) {key : Bytes} {id : UInt64}
    (hread : optionalId j key = .ok id) {v : Json} (hv : j.lookup key = some v)
    (hnull : v.isNull = false) : Cast f v id.toNat := by
  rcases optionalId_eq_ok.mp hread with ⟨v', hv', -, hget⟩ | ⟨hall, -⟩
  · cases hv.symm.trans hv'
    rw [Cast, if_pos hf]
    exact ⟨id, hget, rfl⟩
  · exact absurd (hall v hv) (by simp [hnull])

theorem value_cast {f : NumericField} (hf : f.isId = false) {key : Bytes} {default n : Int}
    (hread : j.value key getInt default = .ok n) {v : Json} (hv : j.lookup key = some v) :
    Cast f v n := by
  rcases (value_eq_ok.mp hread).2 with ⟨v', hv', hget⟩ | ⟨hnone, -⟩
  · cases hv.symm.trans hv'
    rw [Cast, if_neg (by simp [hf])]
    exact hget
  · cases hv.symm.trans hnone

/-- The element of `testcases` that a test case comes from. -/
theorem Reads.case (h : Reads j msg) (hhold : w.hold = some j) {tests : JsonText}
    (htests : w.lookup "testcases" = some tests) {k : Nat} {tc : JsonText}
    (htc : tests.elements[k]? = some tc) :
    ∃ tc' t, tc.hold = some tc' ∧ msg.testcases[k]? = some t ∧ ReadsCase (0 + k) tc' t := by
  obtain ⟨tests', htests', hholdTests⟩ := JsonText.lookup_hold hhold htests
  obtain ⟨v, hv, hread⟩ := h.testcases
  cases htests'.symm.trans hv
  obtain ⟨tc', htc', hholdCase⟩ :=
    JsonText.holdElements_getElem (JsonText.elements_hold hholdTests) htc
  obtain ⟨hlength, hcases⟩ := readTestcases_getElem hread
  have hlt : k < msg.testcases.length := by
    rw [hlength]
    exact (List.getElem?_eq_some_iff.mp htc').1
  have ht : msg.testcases[k]? = some msg.testcases[k] := List.getElem?_eq_getElem hlt
  exact ⟨tc', _, hholdCase, ht, hcases k tc' _ htc' ht⟩

/-- Every numeric field of a message is the cast of what the text has for it. -/
theorem Reads.field (h : Reads j msg) (hhold : w.hold = some j) {f : NumericField}
    (hv : w.field f = some v) (hnull : v.isNull = false) :
    ∃ v' n, v.hold = some v' ∧ msg.field f = some n ∧ Cast f v' n := by
  have hkeep : ∀ {v' : Json}, v.hold = some v' → v'.isNull = false := fun hhold' =>
    (JsonText.hold_isNull hhold').trans hnull
  cases f with
  | runId =>
    obtain ⟨v', hv', hhold'⟩ := JsonText.lookup_hold hhold hv
    exact ⟨v', _, hhold', rfl, optionalId_cast rfl h.runId hv' (hkeep hhold')⟩
  | submissionId =>
    obtain ⟨v', hv', hhold'⟩ := JsonText.lookup_hold hhold hv
    exact ⟨v', _, hhold', rfl, optionalId_cast rfl h.submissionId hv' (hkeep hhold')⟩
  | problemId =>
    obtain ⟨v', hv', hhold'⟩ := JsonText.lookup_hold hhold hv
    obtain ⟨v'', hv'', hget⟩ := h.problemId
    cases hv'.symm.trans hv''
    exact ⟨v', _, hhold', rfl, msg.problemId, hget, rfl⟩
  | timeLimit =>
    obtain ⟨v', hv', hhold'⟩ := JsonText.lookup_hold hhold hv
    exact ⟨v', _, hhold', rfl, value_cast rfl h.timeLimitMs hv'⟩
  | memoryLimit =>
    obtain ⟨v', hv', hhold'⟩ := JsonText.lookup_hold hhold hv
    exact ⟨v', _, hhold', rfl, value_cast rfl h.memoryLimitKb hv'⟩
  | testcaseId k =>
    obtain ⟨tests, htests, hcase⟩ := Option.bind_eq_some_iff.mp hv
    obtain ⟨tc, htc, hlookup⟩ := Option.bind_eq_some_iff.mp hcase
    obtain ⟨tc', t, hholdCase, ht, hread⟩ := h.case hhold htests htc
    obtain ⟨v', hv', hhold'⟩ := JsonText.lookup_hold hholdCase hlookup
    refine ⟨v', t.testcaseId.toNat, hhold', by simp [SubmissionMessage.field, ht], ?_⟩
    exact optionalId_cast rfl hread.testcaseId hv' (hkeep hhold')
  | caseIndex k =>
    obtain ⟨tests, htests, hcase⟩ := Option.bind_eq_some_iff.mp hv
    obtain ⟨tc, htc, hlookup⟩ := Option.bind_eq_some_iff.mp hcase
    obtain ⟨tc', t, hholdCase, ht, hread⟩ := h.case hhold htests htc
    obtain ⟨v', hv', hhold'⟩ := JsonText.lookup_hold hholdCase hlookup
    refine ⟨v', t.caseIndex, hhold', by simp [SubmissionMessage.field, ht], ?_⟩
    exact value_cast rfl hread.caseIndex hv'

/-- The numbers of an accepted message are kept when and only when those of its text
    fit their fields. -/
theorem Reads.unaltered_iff (h : Reads j msg) (hhold : w.hold = some j) :
    Unaltered w msg ↔ Fits w := by
  constructor
  · intro hunaltered f v hv hnull
    obtain ⟨l, n, rfl, hn, his⟩ := hunaltered f v hv hnull
    obtain ⟨v', n', hhold', hn', hcast⟩ := h.field hhold hv hnull
    cases hn.symm.trans hn'
    obtain ⟨z, hz⟩ := (cast_is_iff hhold' hcast).mp his
    exact ⟨l, z, rfl, hz⟩
  · intro hfits f v hv hnull
    obtain ⟨l, z, rfl, hz⟩ := hfits f v hv hnull
    obtain ⟨v', n, hhold', hn, hcast⟩ := h.field hhold hv hnull
    exact ⟨l, n, rfl, hn, (cast_is_iff hhold' hcast).mpr ⟨z, hz⟩⟩

/-- `parse_message` is faithful to the numbers of a text when and only when the text, if
    it is read at all, has in each numeric field an integer that fits it. -/
theorem parseMessage_faithful_iff (readText : Bytes → Option JsonText) (jsonStr : Bytes) :
    Faithful readText jsonStr ↔ ∀ w j, readText jsonStr = some w → w.hold = some j →
      Readable j → Fits w := by
  have hparse : ∀ {w j}, readText jsonStr = some w → w.hold = some j →
      parseText readText jsonStr = some j := by
    intro w j hw hhold
    simp only [parseText, hw, Option.bind_some, hhold]
  constructor
  · intro h w j hw hhold hreadable
    obtain ⟨msg, hmsg⟩ := parseMessage_isSome.mpr ⟨j, hparse hw hhold, hreadable⟩
    obtain ⟨j', hj', hreads⟩ := parseMessage_eq_some.mp hmsg
    cases (hparse hw hhold).symm.trans hj'
    exact (hreads.unaltered_iff hhold).mp (h.unaltered w msg hw hmsg)
  · intro h
    have haccepted : ∀ w msg, readText jsonStr = some w →
        parseMessage (parseText readText) jsonStr = some msg →
        Fits w ∧ ∃ j, w.hold = some j ∧ Reads j msg := by
      intro w msg hw hmsg
      obtain ⟨j, hj, hreads⟩ := parseMessage_eq_some.mp hmsg
      have hhold : w.hold = some j := by simpa only [parseText, hw, Option.bind_some] using hj
      have hreadable : Readable j := (readMessage_iff j).mp ⟨msg, readMessage_eq_ok.mpr hreads⟩
      exact ⟨h w j hw hhold hreadable, j, hhold, hreads⟩
    constructor
    · intro w msg hw hmsg
      obtain ⟨hfits, j, hhold, hreads⟩ := haccepted w msg hw hmsg
      exact (hreads.unaltered_iff hhold).mpr hfits
    · intro w f l hw hl hexcludes
      cases hmsg : parseMessage (parseText readText) jsonStr with
      | none => rfl
      | some msg => exact absurd hexcludes ((haccepted w msg hw hmsg).1.not_excludes hl)

/-- The tree of a text whose time limit is `2 ^ 32 + 1000`. -/
def wrappedTree : JsonText :=
  .object
    [("submission_id", .number (.integer false 7)), ("problem_id", .number (.integer false 3)),
      ("code", .string "print(1)"), ("time_limit", .number (.integer false 4294968296)),
      ("testcases", .array [])]

def wrappedBody : Bytes :=
  "\x7b\"submission_id\":7,\"problem_id\":3,\"code\":\"print(1)\",\"time_limit\":4294968296,\"testcases\":[]\x7d"

/-- The value that the library builds from it. -/
def wrappedJson : Json :=
  .object
    [("submission_id", .integer 7), ("problem_id", .integer 3), ("code", .string "print(1)"),
      ("time_limit", .integer 4294968296), ("testcases", .array [])]

def wrappedText (jsonStr : Bytes) : Option JsonText :=
  if jsonStr = wrappedBody then some wrappedTree else none

theorem not_always_faithful :
    ¬ ∀ (readText : Bytes → Option JsonText) (jsonStr : Bytes), Faithful readText jsonStr := by
  intro h
  have hwritten : wrappedText wrappedBody = some wrappedTree := if_pos rfl
  have hfield : wrappedTree.field .timeLimit = some (.number (.integer false 4294968296)) := rfl
  have hexcludes : NumericField.timeLimit.Excludes (.integer false 4294968296) := .inr (by decide)
  have hrefused := (h wrappedText wrappedBody).refused _ _ _ hwritten hfield hexcludes
  have hjson : parseText wrappedText wrappedBody = some wrappedJson := by
    simp only [parseText, hwritten]
    rfl
  have hread : readMessage wrappedJson = .ok
      { submissionId := 7, problemId := 3, language := "cpp", code := "print(1)",
        timeLimitMs := 1000, testcases := [] } := by decide +kernel
  cases hrefused.symm.trans (parseMessage_of_some hjson hread)

end JudgeEngine
