-- SUMMARY: `std::stoi`, `std::stod` and the double arithmetic applied to their results.
import FlowStudyJudge.Text.Bytes

/-! # Numeric conversions

`std::stoi` and `std::stod` convert the longest numeric prefix after white space
and throw when there is none or when the value does not fit. A double is its
exact value `± m * 2 ^ e`; results are rounded to nearest, ties to even, with
the precision and the exponent range of IEEE 754 binary64. -/

/-- What the numeric conversions of the standard library throw. -/
inductive StdException where
  | invalidArgument
  | outOfRange
  deriving DecidableEq, Repr

namespace Bytes

/-- An optional sign: whether it is a minus, and the text behind it. -/
def sign : Bytes → Bool × Bytes
  | [] => (false, [])
  | b :: bs =>
    if b = '-'.toUInt8 then (true, bs)
    else if b = '+'.toUInt8 then (false, bs)
    else (false, b :: bs)

/-- The value of one digit, in bases up to sixteen. -/
def digitValue (c : UInt8) : Nat :=
  if isDigit c then c.toNat - 48 else (toLower c).toNat - 87

def digitsValue (base : Nat) (ds : Bytes) : Nat :=
  ds.foldl (fun n d => n * base + digitValue d) 0

def intMin : Int := -2147483648
def intMax : Int := 2147483647

/-- `std::stoi` in base ten. -/
def stoi (s : Bytes) : Except StdException Int :=
  let signed := sign (s.dropWhile isSpace)
  let digits := signed.2.takeWhile isDigit
  if digits = [] then .error .invalidArgument
  else
    let magnitude : Int := digitsValue 10 digits
    let value := if signed.1 then -magnitude else magnitude
    if intMin ≤ value ∧ value ≤ intMax then .ok value else .error .outOfRange

end Bytes

/-! ## Doubles -/

/-- The values of a `double`. A finite one is `± m * 2 ^ e`. -/
inductive Double where
  | finite (neg : Bool) (m : Nat) (e : Int)
  | inf (neg : Bool)
  | nan
  deriving DecidableEq, Repr

namespace Double

/-- The fraction `n / d` divided by `2 ^ e`. -/
def scale (n d : Nat) (e : Int) : Nat × Nat :=
  if 0 ≤ e then (n, d * 2 ^ e.toNat) else (n * 2 ^ (-e).toNat, d)

/-- `n / d` to the nearest integer, ties to even. -/
def roundNearestEven (n d : Nat) : Nat :=
  let q := n / d
  let r := n % d
  if 2 * r < d then q else if d < 2 * r then q + 1 else q + q % 2

/-- The exponent of the last mantissa bit of the double next to `n / d`. -/
def lastBit (n d : Nat) : Int :=
  let guess : Int := (n.log2 : Int) - d.log2
  let (a, b) := scale n d guess
  let log := if a < b then guess - 1 else guess
  max (log - 52) (-1074)

/-- The double next to `± n / d`. -/
def ofRatio (neg : Bool) (n d : Nat) : Double :=
  if n = 0 then .finite neg 0 0
  else
    let e := lastBit n d
    let (a, b) := scale n d e
    let m := roundNearestEven a b
    if 971 < e ∨ (e = 971 ∧ m = 2 ^ 53) then .inf neg else .finite neg m e

/-- Whether `n / d` is no double because it is too small: what `strtod` reports as
    a range error besides overflow. As on x86-64, a value is too small when it lies below
    the normal doubles after rounding to 53 bits with no bound on the exponent; the last of
    these bits is then `2 ^ -1075`, one below the last bit of the subnormal doubles. -/
def underflows (n d : Nat) : Bool :=
  let (a, b) := scale n d (lastBit n d)
  let (a', b') := scale n d (-1075)
  n ≠ 0 && roundNearestEven a' b' < 2 ^ 53 && a % b ≠ 0

/-- Multiplication by a small positive constant. -/
def mulNat (x : Double) (k : Nat) : Double :=
  match x with
  | .finite neg m e => if 0 ≤ e then ofRatio neg (m * k * 2 ^ e.toNat) 1
      else ofRatio neg (m * k) (2 ^ (-e).toNat)
  | .inf neg => .inf neg
  | .nan => .nan

/-- Truncation toward zero. There is nothing to truncate an infinity or a NaN to. -/
def truncate : Double → Int
  | .finite neg m e =>
    let magnitude : Int := if 0 ≤ e then (m * 2 ^ e.toNat : Nat) else (m / 2 ^ (-e).toNat : Nat)
    if neg then -magnitude else magnitude
  | .inf _ => 0
  | .nan => 0

def isFinite : Double → Bool
  | .finite _ _ _ => true
  | _ => false

/-- `static_cast<int>`. C++ leaves a value outside `int` undefined; the x86-64
    conversion instruction answers `INT_MIN` there. -/
def toInt (x : Double) : Int :=
  if x.isFinite ∧ Bytes.intMin ≤ x.truncate ∧ x.truncate ≤ Bytes.intMax then x.truncate
  else Bytes.intMin

theorem toInt_bounds (x : Double) : Bytes.intMin ≤ x.toInt ∧ x.toInt ≤ Bytes.intMax := by
  unfold toInt
  split
  · next h => exact h.2
  · exact ⟨Int.le_refl _, by decide⟩

end Double

namespace Bytes

/-! ## `std::stod` -/

def isHexDigit (c : UInt8) : Bool :=
  isDigit c || (97 ≤ toLower c && toLower c ≤ 102)

/-- Digits with an optional point: the value of the digits, how many of them are
    behind the point, and the text behind. `none` when there is no digit. -/
def mantissa (base : Nat) (isDig : UInt8 → Bool) (s : Bytes) : Option (Nat × Nat × Bytes) :=
  let whole := s.takeWhile isDig
  let (fraction, rest) :=
    match s.dropWhile isDig with
    | [] => ([], [])
    | b :: bs => if b = '.'.toUInt8 then (bs.takeWhile isDig, bs.dropWhile isDig) else ([], b :: bs)
  if whole ++ fraction = [] then none
  else some (digitsValue base (whole ++ fraction), fraction.length, rest)

/-- An optional exponent behind the letter `marker`; `0` where there is none. -/
def exponent (marker : UInt8) : Bytes → Int
  | [] => 0
  | b :: bs =>
    if toLower b = marker then
      let signed := sign bs
      let digits := signed.2.takeWhile isDigit
      let magnitude : Int := digitsValue 10 digits
      if signed.1 then -magnitude else magnitude
    else 0

/-- `m * base ^ e` as a double, with the range errors of `strtod`. -/
def toDouble (neg : Bool) (m base : Nat) (e : Int) : Except StdException Double :=
  let (n, d) := if 0 ≤ e then (m * base ^ e.toNat, 1) else (m, base ^ (-e).toNat)
  match Double.ofRatio neg n d with
  | .finite neg m e => if Double.underflows n d then .error .outOfRange else .ok (.finite neg m e)
  | _ => .error .outOfRange

/-- The hexadecimal digits behind a `0x` prefix, if they form a number. -/
def hexMantissa : Bytes → Option (Nat × Nat × Bytes)
  | z :: x :: rest =>
    if z = '0'.toUInt8 ∧ toLower x = 'x'.toUInt8 then mantissa 16 isHexDigit rest else none
  | _ => none

/-- `std::stod`. -/
def stod (s : Bytes) : Except StdException Double :=
  let (neg, body) := sign (s.dropWhile isSpace)
  if (body.take 3).map toLower = "inf" then .ok (.inf neg)
  else if (body.take 3).map toLower = "nan" then .ok .nan
  else
    match hexMantissa body with
    | some (m, fraction, rest) => toDouble neg m 2 (exponent 'p'.toUInt8 rest - 4 * fraction)
    | none =>
      match mantissa 10 isDigit body with
      | some (m, fraction, rest) => toDouble neg m 10 (exponent 'e'.toUInt8 rest - fraction)
      | none => .error .invalidArgument

example : (stod "0.269").map (fun x => (x.mulNat 1000).toInt) = .ok 269 := by decide +kernel
example : (stod " 1.001 s").map (fun x => (x.mulNat 1000).toInt) = .ok 1000 := by decide +kernel
example : stod "fast" = .error .invalidArgument := by decide +kernel
example : stod "1e999" = .error .outOfRange := by decide +kernel
-- the nearest double is the smallest normal one, and still `strtod` reports an underflow
example : stod "2.2250738585072012e-308" = .error .outOfRange := by decide +kernel

end Bytes
