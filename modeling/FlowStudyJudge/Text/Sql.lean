-- SUMMARY: The tokens of an SQL text: string literals with escapes, signed integers, words and symbols; and texts that are woven from fixed parts and values.
import FlowStudyJudge.Text.Decimal

/-! # SQL texts

A lexer for the statements that a client puts together by hand. It runs byte by byte
with one mode of memory. Comments, quoted identifiers, variables and numbers other than
integers are not read: a text with one of them has no tokens. -/

namespace Sql

/-! ## Characters -/

def isBlank (c : UInt8) : Bool :=
  c.toNat == 32 || (9 ≤ c.toNat && c.toNat ≤ 13)

/-- A character of an identifier or a keyword. -/
def isWord (c : UInt8) : Bool :=
  Bytes.isAlpha c || c.toNat == 95 || c.toNat == 36 || 128 ≤ c.toNat

/-- The characters `! % & ( ) * + , . : ; < = > ? ^ | ~`. -/
def isSymbol (c : UInt8) : Bool :=
  [33, 37, 38, 40, 41, 42, 43, 44, 46, 58, 59, 60, 61, 62, 63, 94, 124, 126].contains c.toNat

def isQuote (c : UInt8) : Bool :=
  c.toNat == 39 || c.toNat == 34

/-! ## Literals -/

def digit (c : UInt8) : Nat :=
  c.toNat - 48

/-- What a backslash in front of `c` stands for in a string literal. -/
def unescape (c : UInt8) : Bytes :=
  if c = '0'.toUInt8 then [0]
  else if c = 'b'.toUInt8 then [8]
  else if c = 't'.toUInt8 then [9]
  else if c = 'n'.toUInt8 then [10]
  else if c = 'r'.toUInt8 then [13]
  else if c = 'Z'.toUInt8 then [26]
  else if c = '%'.toUInt8 ∨ c = '_'.toUInt8 then ['\\'.toUInt8, c]
  else [c]

/-- `mysql_real_escape_string` on one byte. -/
def escapeByte (c : UInt8) : Bytes :=
  if c = 0 then ['\\'.toUInt8, '0'.toUInt8]
  else if c = 10 then ['\\'.toUInt8, 'n'.toUInt8]
  else if c = 13 then ['\\'.toUInt8, 'r'.toUInt8]
  else if c = 26 then ['\\'.toUInt8, 'Z'.toUInt8]
  else if c = '\\'.toUInt8 ∨ c = '\''.toUInt8 ∨ c = '"'.toUInt8 then ['\\'.toUInt8, c]
  else [c]

def escape (s : Bytes) : Bytes :=
  s.flatMap escapeByte

/-! ## Tokens -/

inductive Token where
  | word (w : Bytes)
  | symbol (c : UInt8)
  | number (n : Int)
  | string (s : Bytes)
  deriving DecidableEq

inductive Mode where
  /-- Between two tokens. -/
  | between
  | word (w : Bytes)
  /-- Behind a minus sign. -/
  | minus
  | number (negative : Bool) (n : Nat)
  | quoted (quote : UInt8) (s : Bytes)
  | escaped (quote : UInt8) (s : Bytes)
  /-- Behind a quote that ends the literal, unless it is doubled. -/
  | closing (quote : UInt8) (s : Bytes)
  deriving DecidableEq

/-- A character between two tokens. -/
def start (c : UInt8) : Option (List Token × Mode) :=
  if isBlank c then some ([], .between)
  else if Bytes.isDigit c then some ([], .number false (digit c))
  else if isWord c then some ([], .word [c])
  else if isSymbol c then some ([.symbol c], .between)
  else if c = '-'.toUInt8 then some ([], .minus)
  else if isQuote c then some ([], .quoted c [])
  else none

/-- A number with or without a minus sign. -/
def signed (negative : Bool) (n : Nat) : Token :=
  .number (if negative then -(n : Int) else n)

/-- A character: the tokens that it completes, and the mode behind it. -/
def step : Mode → UInt8 → Option (List Token × Mode)
  | .between, c => start c
  | .word w, c =>
    if isWord c ∨ Bytes.isDigit c then some ([], .word (w ++ [c]))
    else (start c).map fun p => (.word w :: p.1, p.2)
  | .minus, c =>
    if Bytes.isDigit c then some ([], .number true (digit c))
    -- two minus signs may begin a comment
    else if c = '-'.toUInt8 then none
    else (start c).map fun p => (.symbol '-'.toUInt8 :: p.1, p.2)
  | .number negative n, c =>
    if Bytes.isDigit c then some ([], .number negative (10 * n + digit c))
    -- a fraction, an exponent, or an identifier that begins with a digit
    else if isWord c ∨ c = '.'.toUInt8 then none
    else (start c).map fun p => (signed negative n :: p.1, p.2)
  | .quoted q s, c =>
    if c = '\\'.toUInt8 then some ([], .escaped q s)
    else if c = q then some ([], .closing q s)
    else some ([], .quoted q (s ++ [c]))
  | .escaped q s, c => some ([], .quoted q (s ++ unescape c))
  | .closing q s, c =>
    if c = q then some ([], .quoted q (s ++ [q]))
    else (start c).map fun p => (.string s :: p.1, p.2)

/-- The end of the text. -/
def finish : Mode → Option (List Token)
  | .between => some []
  | .word w => some [.word w]
  | .minus => some [.symbol '-'.toUInt8]
  | .number negative n => some [signed negative n]
  | .closing _ s => some [.string s]
  | .quoted _ _ | .escaped _ _ => none

def run : Mode → Bytes → Option (List Token × Mode)
  | m, [] => some ([], m)
  | m, c :: cs => do
    let (ts, m') ← step m c
    let (ts', m'') ← run m' cs
    return (ts ++ ts', m'')

/-- The tokens from a mode on. -/
def lexFrom (m : Mode) (bs : Bytes) : Option (List Token) := do
  let (ts, m') ← run m bs
  let last ← finish m'
  return ts ++ last

/-- The tokens of a text. -/
def lex (bs : Bytes) : Option (List Token) :=
  lexFrom .between bs

example : lex "a = 'it\\'s', -5" =
    some [.word "a", .symbol '='.toUInt8, .string "it's", .symbol ','.toUInt8, .number (-5)] := by
  decide +kernel

/-! ## Composing -/

theorem run_append (m : Mode) (a b : Bytes) :
    run m (a ++ b) = (run m a).bind fun p =>
      (run p.2 b).map fun p' => (p.1 ++ p'.1, p'.2) := by
  induction a generalizing m with
  | nil => cases h : run m b <;> simp [run, h]
  | cons c cs ih =>
    simp only [List.cons_append, run]
    cases step m c with
    | none => rfl
    | some p =>
      simp only [bind_pure_comp, Option.bind_eq_bind, Option.bind_some, ih]
      cases run p.2 cs with
      | none => rfl
      | some p' =>
        simp only [Option.map_eq_map, Option.map_some, Option.bind_some]
        cases run p'.2 b <;> simp

/-- A text that leads from one mode to another is in front of the rest. -/
theorem lexFrom_append {m m' : Mode} {a : Bytes} {ts : List Token} (h : run m a = some (ts, m'))
    (b : Bytes) : lexFrom m (a ++ b) = (lexFrom m' b).map (ts ++ ·) := by
  unfold lexFrom
  rw [run_append, h]
  simp only [Option.bind_eq_bind, Option.bind_some]
  cases run m' b with
  | none => rfl
  | some p => cases hfinish : finish p.2 <;> simp [hfinish]

/-! ## Values -/

inductive Value where
  | null
  | number (n : Int)
  | string (s : Bytes)
  deriving DecidableEq

/-- A value as it is written into a statement. -/
def Value.text : Value → Bytes
  | .null => "NULL"
  | .number n => Bytes.ofInt n
  | .string s => "'" ++ escape s ++ "'"

def Value.token : Value → Token
  | .null => .word "NULL"
  | .number n => .number n
  | .string s => .string s

/-- A character that ends every value. -/
def isDelimiter (c : UInt8) : Bool :=
  isBlank c || (isSymbol c && c.toNat != 46)

/-- A text that may follow a value. -/
def Delimited (bs : Bytes) : Prop :=
  ∀ c, bs.head? = some c → isDelimiter c = true

/-- The token `t` is complete but for the character that ends it. -/
structure Ends (m : Mode) (t : Token) : Prop where
  atEnd : finish m = some [t]
  next : ∀ c, isDelimiter c = true → step m c = (start c).map fun p => (t :: p.1, p.2)

theorem Ends.lexFrom {m : Mode} {t : Token} (h : Ends m t) {bs : Bytes} (hbs : Delimited bs) :
    lexFrom m bs = (lexFrom .between bs).map (t :: ·) := by
  cases bs with
  | nil =>
    have hbetween : finish .between = some [] := rfl
    simp [Sql.lexFrom, run, h.atEnd, hbetween]
  | cons c cs =>
    have hnext := h.next c (hbs c rfl)
    have hbetween : step .between c = start c := rfl
    simp only [Sql.lexFrom, run, hnext, hbetween]
    cases start c with
    | none => rfl
    | some p =>
      simp only [Option.map_some, Option.bind_eq_bind, Option.bind_some]
      cases run p.2 cs with
      | none => rfl
      | some p' => cases hfinish : finish p'.2 <;> simp [hfinish]

theorem delimiter_notWord {c : UInt8} (h : isDelimiter c = true) :
    isWord c = false ∧ Bytes.isDigit c = false ∧ isQuote c = false ∧ c ≠ '.'.toUInt8 := by
  have hall : ∀ c, isDelimiter c = true →
      isWord c = false ∧ Bytes.isDigit c = false ∧ isQuote c = false ∧ c ≠ '.'.toUInt8 :=
    Bytes.forall_byte (by decide +kernel)
  exact hall c h

theorem ends_word (w : Bytes) : Ends (.word w) (.word w) where
  atEnd := rfl
  next c hc := by
    obtain ⟨hword, hdigit, -, -⟩ := delimiter_notWord hc
    simp [step, hword, hdigit]

theorem ends_number (negative : Bool) (n : Nat) : Ends (.number negative n) (signed negative n) where
  atEnd := rfl
  next c hc := by
    obtain ⟨hword, hdigit, -, hdot⟩ := delimiter_notWord hc
    simp [step, hword, hdigit, hdot]

theorem ends_closing {q : UInt8} (hq : isQuote q = true) (s : Bytes) :
    Ends (.closing q s) (.string s) where
  atEnd := rfl
  next c hc := by
    obtain ⟨-, -, hquote, -⟩ := delimiter_notWord hc
    have hne : c ≠ q := by
      rintro rfl
      rw [hq] at hquote
      cases hquote
    simp [step, hne]

/-! ## Numbers -/

/-- Digits behind digits. -/
theorem run_digits (negative : Bool) (n : Nat) {ds : Bytes} (h : ∀ c ∈ ds, Bytes.isDigit c = true) :
    run (.number negative n) ds =
      some ([], .number negative (ds.foldl (fun n c => 10 * n + (c.toNat - 48)) n)) := by
  induction ds generalizing n with
  | nil => rfl
  | cons c ds ih =>
    obtain ⟨hc, hds⟩ := List.forall_mem_cons.mp h
    simp [run, step, hc, ih _ hds, digit]

theorem digit_start {c : UInt8} (h : Bytes.isDigit c = true) :
    start c = some ([], .number false (digit c)) := by
  have hblank : ∀ c, Bytes.isDigit c = true → isBlank c = false :=
    Bytes.forall_byte (by decide +kernel)
  simp [start, hblank c h, h]

theorem run_ofNat (n : Nat) :
    run .between (Bytes.ofNat n) = some ([], .number false n) ∧
    run .minus (Bytes.ofNat n) = some ([], .number true n) := by
  have hdigits : ∀ c ∈ Bytes.ofNat n, Bytes.isDigit c = true := fun c hc =>
    Bytes.isDigit_of_mem_ofNat hc
  have hvalue := Bytes.digitsToNat_ofNat n
  cases hbytes : Bytes.ofNat n with
  | nil => exact absurd hbytes (Bytes.ofNat_ne_nil n)
  | cons c ds =>
    rw [hbytes] at hdigits hvalue
    obtain ⟨hc, hds⟩ := List.forall_mem_cons.mp hdigits
    have hfold : ds.foldl (fun n c => 10 * n + (c.toNat - 48)) (digit c) = n := by
      simpa [Bytes.digitsToNat, digit] using hvalue
    constructor
    · simp [run, step, digit_start hc, run_digits false _ hds, hfold]
    · simp [run, step, hc, run_digits true _ hds, hfold]

/-! ## String literals -/

/-- Reading an escaped string gives the string, whatever it is. -/
theorem run_escape (s acc : Bytes) :
    run (.quoted '\''.toUInt8 acc) (escape s) = some ([], .quoted '\''.toUInt8 (acc ++ s)) := by
  induction s generalizing acc with
  | nil => simp [escape, run]
  | cons c s ih =>
    have hbyte : run (.quoted '\''.toUInt8 acc) (escapeByte c) =
        some ([], .quoted '\''.toUInt8 (acc ++ [c])) := by
      unfold escapeByte
      split
      · rename_i hc
        subst hc
        rfl
      split
      · rename_i hc
        subst hc
        rfl
      split
      · rename_i hc
        subst hc
        rfl
      split
      · rename_i hc
        subst hc
        rfl
      split
      · rename_i hc
        rcases hc with rfl | rfl | rfl <;> rfl
      · rename_i hc
        simp only [not_or] at hc
        simp [run, step, hc.1, hc.2.1]
    have hescape : escape (c :: s) = escapeByte c ++ escape s := rfl
    rw [hescape, run_append, hbyte]
    simp [ih]

/-- Every value is one token, whatever it is. -/
theorem Value.run_text (v : Value) : ∃ m, run .between v.text = some ([], m) ∧ Ends m v.token := by
  cases v with
  | null =>
    have hrun : run .between (Value.null).text = some ([], .word "NULL") := by decide +kernel
    exact ⟨_, hrun, ends_word _⟩
  | number n =>
    cases n with
    | ofNat n => exact ⟨_, (run_ofNat n).1, ends_number false n⟩
    | negSucc n =>
      have hminus : run .between ['-'.toUInt8] = some ([], .minus) := by decide +kernel
      have hrun : run .between (['-'.toUInt8] ++ Bytes.ofNat (n + 1)) =
          some ([], .number true (n + 1)) := by
        rw [run_append, hminus]
        simp [(run_ofNat (n + 1)).2]
      exact ⟨_, hrun, ends_number true (n + 1)⟩
  | string s =>
    have hopen : run .between ("'" : Bytes) = some ([], .quoted '\''.toUInt8 []) := by
      decide +kernel
    have hclose : run (.quoted '\''.toUInt8 s) ("'" : Bytes) =
        some ([], .closing '\''.toUInt8 s) := rfl
    have hrun : run .between (Value.string s).text = some ([], .closing '\''.toUInt8 s) := by
      simp only [Value.text, run_append, hopen, Option.bind_some, run_escape, Option.map_some,
        List.nil_append, hclose]
    exact ⟨_, hrun, ends_closing (by decide) s⟩

theorem Value.lexFrom_text (v : Value) {bs : Bytes} (hbs : Delimited bs) :
    lexFrom .between (v.text ++ bs) = (lexFrom .between bs).map (v.token :: ·) := by
  obtain ⟨m, hrun, hends⟩ := v.run_text
  rw [lexFrom_append hrun, hends.lexFrom hbs, Option.map_map]
  rfl

/-! ## Statements -/

/-- The fixed parts of a statement, with the values between them. -/
def weave : List Bytes → List Value → Bytes
  | f :: fs, v :: vs => f ++ v.text ++ weave fs vs
  | f :: _, [] => f
  | [], _ => []

/-- The tokens of a fixed part on its own. -/
def fixedTokens (f : Bytes) : List Token :=
  (lex f).getD []

/-- The tokens of a statement: those of the fixed parts, with one for each value. -/
def weaveTokens : List Bytes → List Value → List Token
  | f :: fs, v :: vs => fixedTokens f ++ v.token :: weaveTokens fs vs
  | f :: _, [] => fixedTokens f
  | [], _ => []

/-- A fixed part consists of whole tokens. -/
def isWhole (f : Bytes) : Bool :=
  match run .between f with
  | some (_, .between) => true
  | _ => false

/-- A fixed part that can stand behind a value. -/
def isNext (f : Bytes) : Bool :=
  isWhole f && f.head?.all isDelimiter

theorem lexFrom_whole {f : Bytes} (h : isWhole f = true) (bs : Bytes) :
    lexFrom .between (f ++ bs) = (lexFrom .between bs).map (fixedTokens f ++ ·) := by
  unfold isWhole at h
  split at h
  · rename_i ts hrun
    have htokens : fixedTokens f = ts := by simp [fixedTokens, lex, lexFrom, hrun, finish]
    rw [lexFrom_append hrun, htokens]
  · cases h

/-- What comes behind a value ends the value. -/
theorem delimited_weave {f : Bytes} {fs : List Bytes} {vs : List Value} (hf : isNext f = true)
    (hne : ∀ g ∈ (f :: fs).dropLast, g ≠ []) (hlength : fs.length = vs.length) :
    Delimited (weave (f :: fs) vs) := by
  intro c hc
  simp only [isNext, Bool.and_eq_true] at hf
  cases vs with
  | nil =>
    have hhead : f.head? = some c := hc
    simpa [hhead] using hf.2
  | cons v vs =>
    cases fs with
    | nil => cases hlength
    | cons g gs =>
      cases f with
      | nil => exact absurd rfl (hne [] (List.mem_cons_self ..))
      | cons d f =>
        have hd : d = c := Option.some.inj hc
        simpa [hd] using hf.2

/-- A statement whose fixed parts can stand behind values has the tokens of its parts,
    and the values keep apart from them. Only the last part may be empty. -/
theorem lex_weave {f : Bytes} {fs : List Bytes} {vs : List Value} (hf : isWhole f = true)
    (hfs : fs.all isNext = true) (hne : ∀ g ∈ fs.dropLast, g ≠ []) (hlength : fs.length = vs.length) :
    lex (weave (f :: fs) vs) = some (weaveTokens (f :: fs) vs) := by
  induction vs generalizing f fs with
  | nil =>
    have hlex := lexFrom_whole hf []
    have hempty : lexFrom .between [] = some [] := rfl
    rw [List.append_nil, hempty, Option.map_some, List.append_nil] at hlex
    exact hlex
  | cons v vs ih =>
    cases fs with
    | nil => cases hlength
    | cons g gs =>
      simp only [List.all_cons, Bool.and_eq_true] at hfs
      have hg : isWhole g = true := by
        have hnext := hfs.1
        simp only [isNext, Bool.and_eq_true] at hnext
        exact hnext.1
      have hne' : ∀ g' ∈ gs.dropLast, g' ≠ [] := by
        intro g' hg'
        cases gs with
        | nil => cases hg'
        | cons g'' gs => exact hne g' (List.mem_cons_of_mem _ hg')
      have hlength' : gs.length = vs.length := Nat.succ.inj hlength
      have hrest : lex (weave (g :: gs) vs) = some (weaveTokens (g :: gs) vs) :=
        ih hg hfs.2 hne' hlength'
      have hvalue := v.lexFrom_text (delimited_weave hfs.1 hne hlength')
      have hwhole := lexFrom_whole hf (v.text ++ weave (g :: gs) vs)
      have hlex : lexFrom .between (weave (g :: gs) vs) = some (weaveTokens (g :: gs) vs) := hrest
      rw [hvalue, hlex] at hwhole
      have hassoc : weave (f :: g :: gs) (v :: vs) = f ++ (v.text ++ weave (g :: gs) vs) :=
        List.append_assoc ..
      rw [lex, hassoc, hwhole]
      rfl

/-! ## Structure -/

inductive Kind where
  | null
  | number
  | string
  deriving DecidableEq

def Value.kind : Value → Kind
  | .null => .null
  | .number _ => .number
  | .string _ => .string

/-- A token without what a literal stands for. -/
inductive Shape where
  | word (w : Bytes)
  | symbol (c : UInt8)
  | number
  | string
  deriving DecidableEq

def Token.shape : Token → Shape
  | .word w => .word w
  | .symbol c => .symbol c
  | .number _ => .number
  | .string _ => .string

/-- The kinds of the values alone decide the structure of a statement. -/
theorem weaveTokens_shape (fs : List Bytes) {vs vs' : List Value}
    (h : vs.map Value.kind = vs'.map Value.kind) :
    (weaveTokens fs vs).map Token.shape = (weaveTokens fs vs').map Token.shape := by
  induction fs generalizing vs vs' with
  | nil => rfl
  | cons f fs ih =>
    cases vs with
    | nil =>
      have hnil : vs' = [] := by simpa using h.symm
      rw [hnil]
    | cons v vs =>
      cases vs' with
      | nil => simp at h
      | cons v' vs' =>
        simp only [List.map_cons, List.cons.injEq] at h
        have hshape : v.token.shape = v'.token.shape := by
          cases v <;> cases v' <;> first | rfl | cases h.1
        simp [weaveTokens, hshape, ih h.2]

/-! ## Bytes -/

theorem escape_nonzero (s : Bytes) : 0 ∉ escape s := by
  intro h
  obtain ⟨c, -, hc⟩ := List.mem_flatMap.mp h
  have hall : ∀ c, 0 ∉ escapeByte c := Bytes.forall_byte (by decide +kernel)
  exact hall c hc

theorem Value.text_nonzero (v : Value) : 0 ∉ v.text := by
  cases v with
  | null => decide +kernel
  | number n =>
    intro h
    rcases Bytes.mem_ofInt h with hdigit | hminus
    · cases hdigit
    · exact absurd hminus (by decide)
  | string s =>
    have hquote : 0 ∉ ("'" : Bytes) := by decide +kernel
    simp [Value.text, hquote, escape_nonzero]

theorem weave_nonzero {fs : List Bytes} (hfs : ∀ f ∈ fs, 0 ∉ f) (vs : List Value) :
    0 ∉ weave fs vs := by
  induction fs generalizing vs with
  | nil => simp [weave]
  | cons f fs ih =>
    obtain ⟨hf, hfs⟩ := List.forall_mem_cons.mp hfs
    cases vs with
    | nil => exact hf
    | cons v vs => simp [weave, hf, v.text_nonzero, ih hfs vs]

/-! ## What a statement carries -/

/-- The values bring no symbol into a statement. -/
theorem symbol_mem_weaveTokens {fs : List Bytes} {vs : List Value} {c : UInt8}
    (h : .symbol c ∈ weaveTokens fs vs) : ∃ f ∈ fs, .symbol c ∈ fixedTokens f := by
  induction fs generalizing vs with
  | nil => cases h
  | cons f fs ih =>
    cases vs with
    | nil => exact ⟨f, List.mem_cons_self .., h⟩
    | cons v vs =>
      rcases List.mem_append.mp h with h | h
      · exact ⟨f, List.mem_cons_self .., h⟩
      · rcases List.mem_cons.mp h with h | h
        · cases v <;> cases h
        · obtain ⟨g, hg, hc⟩ := ih h
          exact ⟨g, List.mem_cons_of_mem _ hg, hc⟩

/-- `text` is one statement, which consists of the fixed parts and the values, and whose
    structure depends on nothing but the kinds of the values. -/
structure Carries (text : Bytes) (parts : List Bytes) (values : List Value) : Prop where
  nonzero : 0 ∉ text
  lexed : lex text = some (weaveTokens parts values)
  single : .symbol ';'.toUInt8 ∉ weaveTokens parts values
  structured : ∀ values' : List Value, values'.map Value.kind = values.map Value.kind →
    (weaveTokens parts values').map Token.shape = (weaveTokens parts values).map Token.shape

/-- The check of the fixed parts of a statement. -/
def isTemplate (parts : List Bytes) : Bool :=
  match parts with
  | [] => false
  | f :: fs =>
    isWhole f && fs.all isNext && fs.dropLast.all (!·.isEmpty) &&
      parts.all fun g => !g.contains 0 && !(fixedTokens g).contains (.symbol ';'.toUInt8)

/-- A statement that is woven from checked parts carries its values. -/
theorem weave_carries {parts : List Bytes} {values : List Value} (hparts : isTemplate parts = true)
    (hlength : parts.length = values.length + 1) : Carries (weave parts values) parts values := by
  cases parts with
  | nil => cases hparts
  | cons f fs =>
    simp only [isTemplate, Bool.and_eq_true, @List.all_eq_true _ _ (f :: fs)] at hparts
    obtain ⟨⟨⟨hf, hfs⟩, hne⟩, hall⟩ := hparts
    have hne' : ∀ g ∈ fs.dropLast, g ≠ [] := by
      intro g hg
      have hg' := List.all_eq_true.mp hne g hg
      simpa using hg'
    have hzero : ∀ g ∈ f :: fs, 0 ∉ g := fun g hg => by simpa using (hall g hg).1
    exact {
      nonzero := weave_nonzero hzero values
      lexed := lex_weave hf hfs hne' (Nat.succ.inj hlength)
      single := by
        intro hmem
        obtain ⟨g, hg, hc⟩ := symbol_mem_weaveTokens hmem
        have hnot := (hall g hg).2
        simp [hc] at hnot
      structured := fun values' hkind => weaveTokens_shape _ hkind }

end Sql
