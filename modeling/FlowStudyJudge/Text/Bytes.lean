-- SUMMARY: Byte strings: literals, decimal numerals, character classes of the C locale, lines and fields.
import Mathlib.Data.List.DropRight
import Mathlib.Data.Nat.Digits.Defs

/-! # Byte strings

A `std::string` is a list of bytes. The functions of this file are the parts of
the C and C++ string library that the judge relies on, at the C locale. -/

abbrev Bytes := List UInt8

namespace Bytes

/-- The bytes of a literal. The literals of the judge are ASCII. -/
def ofString (s : String) : Bytes :=
  s.toList.map fun c => UInt8.ofNat c.toNat

instance : Coe String Bytes := ⟨ofString⟩

/-- `std::to_string` on an unsigned number. -/
def ofNat (n : Nat) : Bytes :=
  (Nat.toDigits 10 n).map fun c => UInt8.ofNat c.toNat

/-- `std::to_string` on a signed number. -/
def ofInt : Int → Bytes
  | .ofNat n => ofNat n
  | .negSucc n => '-'.toUInt8 :: ofNat (n + 1)

/-! ## Character classes -/

def isSpace (c : UInt8) : Bool :=
  c == 32 || (9 ≤ c && c ≤ 13)

def isDigit (c : UInt8) : Bool :=
  48 ≤ c && c ≤ 57

def isAlpha (c : UInt8) : Bool :=
  (65 ≤ c && c ≤ 90) || (97 ≤ c && c ≤ 122)

def isAlnum (c : UInt8) : Bool :=
  isAlpha c || isDigit c

def toLower (c : UInt8) : UInt8 :=
  if 65 ≤ c && c ≤ 90 then c + 32 else c

/-- A decidable fact about bytes is checked byte by byte. -/
theorem forall_byte {p : UInt8 → Prop} (h : ∀ n : Fin 256, p (UInt8.ofNat n)) (c : UInt8) :
    p c := by
  have hc : p (UInt8.ofNat c.toNat) := h ⟨c.toNat, c.toNat_lt⟩
  simpa using hc

/-! ## Lines -/

def newline : UInt8 := 10

/-- The lines that repeated `std::getline` calls return until they fail. A final
    newline ends the last line and does not start another. -/
def getlines : Bytes → List Bytes
  | [] => []
  | b :: bs =>
    if b = newline then [] :: getlines bs
    else
      match getlines bs with
      | [] => [[b]]
      | line :: rest => (b :: line) :: rest

@[simp] theorem getlines_nil : getlines [] = [] := rfl

/-! ## Fields -/

/-- Split at the first `c`, which belongs to neither part: `find`, then `substr`
    on both sides. `none` when `find` returns `npos`. -/
def splitAtFirst (c : UInt8) : Bytes → Option (Bytes × Bytes)
  | [] => none
  | b :: bs =>
    if b = c then some ([], bs)
    else (splitAtFirst c bs).map fun p => (b :: p.1, p.2)

end Bytes
