-- SUMMARY: The lexical structure of Java programs, as far as it takes to see their public classes.
import FlowStudyJudge.Text.Bytes

/-! # Java source texts

Unicode escapes are translated first, then comments and literals are told from the code,
and the code is cut into words and symbols. A class is declared on the top level where no
bracket is open. What no Java program can contain, like a comment without end, has no
characters or no cells here. -/

namespace Java

/-! ## Characters -/

def backslash : UInt8 := 92
def slash : UInt8 := 47
def star : UInt8 := 42
def doubleQuote : UInt8 := 34
def singleQuote : UInt8 := 39

/-- A character and its spelling in the source: itself, or a Unicode escape. The code of a
    character behind ASCII that is escaped is 255. -/
structure Character where
  code : UInt8
  text : Bytes
  spelled : text = [code] ∨ text.head? = some backslash
  deriving DecidableEq

def Character.plain (c : UInt8) : Character :=
  { code := c, text := [c], spelled := .inl rfl }

def hexValue (c : UInt8) : Option Nat :=
  if Bytes.isDigit c then some (c - 48).toNat
  else if 97 ≤ Bytes.toLower c && Bytes.toLower c ≤ 102 then some (Bytes.toLower c - 87).toNat
  else none

/-- The Unicode escape behind a backslash: any number of `u`, and four hexadecimal digits.
    The code, and the length without the backslash. -/
def readEscape (bs : Bytes) : Option (UInt8 × Nat) :=
  let marks := (bs.takeWhile (· == 'u'.toUInt8)).length
  match (bs.drop marks).take 4 |>.map hexValue with
  | [some a, some b, some c, some d] =>
    let value := 4096 * a + 256 * b + 16 * c + d
    some (if value < 128 then UInt8.ofNat value else 255, marks + 4)
  | _ => none

/-- The characters of a source, of which the first `skip` bytes belong to an escape that is
    read. `odd` tells that an odd number of backslashes stands in front: then the next one
    starts no escape. -/
def characters : Nat → Bool → Bytes → Option (List Character)
  | _, _, [] => some []
  | skip + 1, odd, _ :: bs => characters skip odd bs
  | 0, odd, b :: bs =>
    if b = backslash ∧ odd = false ∧ bs.head? = some 'u'.toUInt8 then
      match readEscape bs with
      | none => none
      | some (code, length) =>
        (characters length false bs).map fun cs =>
          { code, text := backslash :: bs.take length, spelled := .inr rfl } :: cs
    else
      (characters 0 (decide (b = backslash) && !odd) bs).map fun cs => Character.plain b :: cs

/-! ## Comments and literals -/

inductive Region where
  | code
  | comment
  | literal
  deriving DecidableEq

/-- What the characters behind belong to. -/
inductive Mode where
  | code
  | lineComment
  /-- At the star that opens a comment. -/
  | commentOpen
  /-- `starred` tells that a star stands in front. -/
  | comment (starred : Bool)
  | literal (quote : UInt8) (escaped : Bool)
  /-- In front of the last `quotes` quotes that open a text block. -/
  | textOpen (quotes : Nat)
  /-- Behind `quotes` quotes in a text block. -/
  | text (quotes : Nat) (escaped : Bool)
  deriving DecidableEq

def isNewline (c : UInt8) : Bool :=
  c == '\n'.toUInt8 || c == '\r'.toUInt8

/-- The region of a character, and the mode behind it. `ahead` are the codes that follow. -/
def Mode.step (mode : Mode) (c : UInt8) (ahead : Bytes) : Option (Region × Mode) :=
  match mode with
  | .code =>
    if c = slash ∧ ahead.head? = some slash then some (.comment, .lineComment)
    else if c = slash ∧ ahead.head? = some star then some (.comment, .commentOpen)
    else if c = doubleQuote ∧ ahead.take 2 = [doubleQuote, doubleQuote] then some (.literal, .textOpen 2)
    else if c = doubleQuote ∨ c = singleQuote then some (.literal, .literal c false)
    else some (.code, .code)
  | .lineComment => some (.comment, if isNewline c then .code else .lineComment)
  | .commentOpen => some (.comment, .comment false)
  | .comment starred =>
    some (.comment,
      if starred && c == slash then .code else .comment (c == star))
  | .literal quote escaped =>
    if isNewline c then none
    else if escaped then some (.literal, .literal quote false)
    else if c = backslash then some (.literal, .literal quote true)
    else some (.literal, if c = quote then .code else .literal quote false)
  | .textOpen quotes =>
    some (.literal, if quotes ≤ 1 then .text 0 false else .textOpen (quotes - 1))
  | .text quotes escaped =>
    if escaped then some (.literal, .text 0 false)
    else if c = backslash then some (.literal, .text 0 true)
    else if c = doubleQuote then
      some (.literal, if quotes = 2 then .code else .text (quotes + 1) false)
    else some (.literal, .text 0 false)

/-- A source may end here. -/
def Mode.final : Mode → Bool
  | .code | .lineComment => true
  | _ => false

/-- A character and the region that it lies in. -/
structure Cell where
  region : Region
  char : Character
  deriving DecidableEq

/-- What is left for the tokens: a comment is a blank, and a literal consists of quotes. -/
def Cell.shown (x : Cell) : UInt8 :=
  match x.region with
  | .code => x.char.code
  | .comment => ' '.toUInt8
  | .literal => doubleQuote

def lex : Mode → List Character → Option (List Cell)
  | mode, [] => if mode.final then some [] else none
  | mode, c :: cs => do
    let (region, mode) ← mode.step c.code (cs.map (·.code))
    return { region, char := c } :: (← lex mode cs)

/-- The source of the cells. -/
def spelling (xs : List Cell) : Bytes :=
  xs.flatMap (·.char.text)

/-! ## Tokens -/

/-- The characters of identifiers, keywords and numbers. -/
def isWordChar (c : UInt8) : Bool :=
  Bytes.isAlnum c || c == '_'.toUInt8 || c == '$'.toUInt8 || 128 ≤ c

inductive Token where
  | word (letters : Bytes)
  | symbol (c : UInt8)
  deriving DecidableEq

/-- A token and the cells from it on. -/
structure Located where
  token : Token
  cells : List Cell
  deriving DecidableEq

/-- `inside` tells that a word goes on. -/
def tokens : Bool → List Cell → List Located
  | _, [] => []
  | inside, x :: xs =>
    if isWordChar x.shown then
      if inside then tokens true xs
      else
        { token := .word (((x :: xs).map Cell.shown).takeWhile isWordChar), cells := x :: xs } ::
          tokens true xs
    else if Bytes.isSpace x.shown then tokens false xs
    else { token := .symbol x.shown, cells := x :: xs } :: tokens false xs

/-! ## Classes -/

/-- A public class of the top level: the source from the word `public` on, the tokens
    between it and the word `class`, and the token behind that. -/
structure PublicClass where
  cells : List Cell
  modifiers : List Token
  name : Option Token
  deriving DecidableEq

def Token.opens : Token → Bool
  | .symbol c => c == '('.toUInt8 || c == '['.toUInt8 || c == '\x7b'.toUInt8
  | .word _ => false

def Token.closes : Token → Bool
  | .symbol c => c == ')'.toUInt8 || c == ']'.toUInt8 || c == '\x7d'.toUInt8
  | .word _ => false

/-- A declaration of the top level ends at a semicolon or with its body. -/
def endsDeclaration (depth : Nat) (t : Token) : Bool :=
  (depth == 0 && t == .symbol ';'.toUInt8) || (depth ≤ 1 && t == .symbol '\x7d'.toUInt8)

/-- The class that a word `class` behind the tokens `header` declares, if it is public. -/
def publicClass (header rest : List Located) : Option PublicClass :=
  match header.dropWhile fun t => t.token != .word "public" with
  | [] => none
  | t :: modifiers =>
    some { cells := t.cells
           modifiers := modifiers.map (·.token)
           name := rest.head?.map (·.token) }

/-- The public classes declared at depth 0. `header` are the tokens of the declaration that
    was begun. -/
def publicClasses (depth : Nat) (header : List Located) : List Located → List PublicClass
  | [] => []
  | t :: rest =>
    if endsDeclaration depth t.token then publicClasses 0 [] rest
    else if depth = 0 ∧ t.token = .word "class" then
      (publicClass header rest).toList ++ publicClasses 0 [] rest
    else
      publicClasses (if t.token.opens then depth + 1
        else if t.token.closes then depth - 1 else depth) (header ++ [t]) rest

/-- The public top-level classes of a source; `none` when it is no Java program. -/
def declarations (src : Bytes) : Option (List PublicClass) := do
  let cs ← characters 0 false src
  let xs ← lex .code cs
  return publicClasses 0 [] (tokens false xs)

example : (declarations "/* a */ public final\nclass B \x7b public class C \x7b\x7d \x7d").map
    (·.map (·.name)) = some [some (.word "B")] := by decide +kernel

/-! ## Spelling -/

theorem characters_text {skip : Nat} {odd : Bool} {bs : Bytes} {cs : List Character}
    (h : characters skip odd bs = some cs) : cs.flatMap (·.text) = bs.drop skip := by
  induction bs generalizing skip odd cs with
  | nil =>
    cases skip <;> cases h <;> rfl
  | cons b bs ih =>
    cases skip with
    | succ skip => exact ih h
    | zero =>
      unfold characters at h
      split at h
      · rename_i hescape
        split at h
        · cases h
        · obtain ⟨cs', hcs, rfl⟩ := Option.map_eq_some_iff.mp h
          rw [List.flatMap_cons, ih hcs, hescape.1, List.cons_append, List.take_append_drop]
          rfl
      · obtain ⟨cs', hcs, rfl⟩ := Option.map_eq_some_iff.mp h
        rw [List.flatMap_cons, ih hcs]
        rfl

theorem lex_cons {mode : Mode} {c : Character} {cs : List Character} {xs : List Cell}
    (h : lex mode (c :: cs) = some xs) : ∃ region mode' xs',
      mode.step c.code (cs.map (·.code)) = some (region, mode') ∧ lex mode' cs = some xs' ∧
        xs = { region, char := c } :: xs' := by
  unfold lex at h
  obtain ⟨⟨region, mode'⟩, hstep, h⟩ := Option.bind_eq_some_iff.mp h
  obtain ⟨xs', hrest, h⟩ := Option.bind_eq_some_iff.mp h
  cases h
  exact ⟨region, mode', xs', hstep, hrest, rfl⟩

theorem lex_chars {mode : Mode} {cs : List Character} {xs : List Cell}
    (h : lex mode cs = some xs) : xs.map (·.char) = cs := by
  induction cs generalizing mode xs with
  | nil =>
    unfold lex at h
    split at h
    · cases h
      rfl
    · cases h
  | cons c cs ih =>
    obtain ⟨region, mode', xs', -, hrest, rfl⟩ := lex_cons h
    rw [List.map_cons, ih hrest]

/-- The cells of a source spell it. -/
theorem spelling_lex {src : Bytes} {cs : List Character} {xs : List Cell}
    (hcs : characters 0 false src = some cs) (hxs : lex .code cs = some xs) :
    spelling xs = src := by
  have htext : xs.flatMap (·.char.text) = (xs.map (·.char)).flatMap (·.text) :=
    (List.flatMap_map ..).symm
  unfold spelling
  rw [htext, lex_chars hxs, characters_text hcs, List.drop_zero]

/-! ## Code -/

/-- The characters that can open a literal, a comment or an escape. -/
def isDelimiter (c : UInt8) : Bool :=
  c == backslash || c == slash || c == doubleQuote || c == singleQuote

theorem isDelimiter_of_isWordChar {c : UInt8} (h : isWordChar c = true) :
    isDelimiter c = false := by
  have hall : ∀ c : UInt8, isWordChar c = true → isDelimiter c = false :=
    Bytes.forall_byte (by decide +kernel)
  exact hall c h

theorem isDelimiter_of_isSpace {c : UInt8} (h : Bytes.isSpace c = true) :
    isDelimiter c = false := by
  have hall : ∀ c : UInt8, Bytes.isSpace c = true → isDelimiter c = false :=
    Bytes.forall_byte (by decide +kernel)
  exact hall c h

theorem isWordChar_of_isSpace {c : UInt8} (h : Bytes.isSpace c = true) :
    isWordChar c = false := by
  have hall : ∀ c : UInt8, Bytes.isSpace c = true → isWordChar c = false :=
    Bytes.forall_byte (by decide +kernel)
  exact hall c h

/-- A character of the code is followed by code, or a delimiter that opens something. -/
theorem Mode.step_code {c : UInt8} {ahead : Bytes} {region : Region} {mode : Mode}
    (h : Mode.code.step c ahead = some (region, mode)) :
    region = .code ∧ mode = .code ∨ isDelimiter c = true := by
  by_cases hdelimiter : isDelimiter c = true
  · exact .inr hdelimiter
  · refine .inl ?_
    have hplain : ¬ c = slash ∧ ¬ c = doubleQuote ∧ ¬ c = singleQuote := by
      simp only [isDelimiter, Bool.or_eq_true, beq_iff_eq, not_or] at hdelimiter
      exact ⟨hdelimiter.1.1.2, hdelimiter.1.2, hdelimiter.2⟩
    simp only [Mode.step, hplain, false_and, or_self, if_false, Option.some.injEq,
      Prod.mk.injEq] at h
    exact ⟨h.1.symm, h.2.symm⟩

theorem Mode.step_region_code {mode mode' : Mode} {c : UInt8} {ahead : Bytes}
    (h : mode.step c ahead = some (.code, mode')) : mode = .code := by
  cases mode with
  | code => rfl
  | literal quote escaped =>
    simp only [Mode.step] at h
    split at h
    · cases h
    · split at h
      · cases h
      · split at h <;> cases h
  | text quotes escaped =>
    simp only [Mode.step] at h
    split at h
    · cases h
    · split at h
      · cases h
      · split at h <;> cases h
  | _ => cases h

/-- A character that stands for itself. -/
def Cell.plain (c : UInt8) : Cell :=
  { region := .code, char := Character.plain c }

@[simp] theorem Cell.plain_shown (c : UInt8) : (Cell.plain c).shown = c := rfl

theorem map_plain_shown (s : Bytes) : (s.map Cell.plain).map Cell.shown = s := by
  rw [List.map_map]
  exact List.map_id s

/-- The first byte of a character is the character itself, or opens an escape. -/
theorem Character.text_append {c : Character} {b : UInt8} {more rest : Bytes}
    (h : c.text ++ more = b :: rest) :
    c = Character.plain b ∧ more = rest ∨ b = backslash := by
  obtain ⟨code, text, spelled⟩ := c
  cases text with
  | nil => rcases spelled with hself | hescape <;> contradiction
  | cons b' text =>
    rw [List.cons_append, List.cons.injEq] at h
    obtain ⟨rfl, hmore⟩ := h
    rcases spelled with hself | hescape
    · cases hself
      exact .inl ⟨rfl, hmore⟩
    · exact .inr (Option.some.inj hescape)

/-- Code that is spelled without delimiters is what it spells. -/
theorem lex_plain {s rest : Bytes} {cs : List Character} {xs : List Cell}
    (hs : ∀ c ∈ s, isDelimiter c = false) (hlex : lex .code cs = some xs)
    (hspelling : spelling xs = s ++ rest) :
    ∃ cs' xs', xs = s.map Cell.plain ++ xs' ∧ lex .code cs' = some xs' ∧ spelling xs' = rest := by
  induction s generalizing cs xs with
  | nil => exact ⟨cs, xs, rfl, hlex, hspelling⟩
  | cons b s ih =>
    rw [List.forall_mem_cons] at hs
    cases cs with
    | nil =>
      cases hlex
      cases hspelling
    | cons c cs =>
      obtain ⟨region, mode', xs, hstep, hrest, rfl⟩ := lex_cons hlex
      have htext : c.text ++ spelling xs = b :: (s ++ rest) := hspelling
      rcases Character.text_append htext with ⟨rfl, hmore⟩ | hescape
      · rcases Mode.step_code hstep with ⟨rfl, rfl⟩ | hdelimiter
        · obtain ⟨cs', xs', rfl, hlex', hspelling'⟩ := ih hs.2 hrest hmore
          exact ⟨cs', xs', rfl, hlex', hspelling'⟩
        · cases hs.1.symm.trans hdelimiter
      · subst hescape
        cases hs.1

/-- Where the code goes on without a word, its source does. -/
theorem lex_head {cs : List Character} {xs : List Cell} (hlex : lex .code cs = some xs)
    (hword : (xs.map Cell.shown).takeWhile isWordChar = []) {b : UInt8} {rest : Bytes}
    (hspelling : spelling xs = b :: rest) : isWordChar b = false := by
  cases cs with
  | nil =>
    cases hlex
    cases hspelling
  | cons c cs =>
    obtain ⟨region, mode', xs, hstep, hrest, rfl⟩ := lex_cons hlex
    have htext : c.text ++ spelling xs = b :: rest := hspelling
    rcases Character.text_append htext with ⟨rfl, hmore⟩ | hescape
    · rcases Mode.step_code hstep with ⟨rfl, rfl⟩ | hdelimiter
      · cases hb : isWordChar b with
        | false => rfl
        | true =>
          have hshown : ((Cell.plain b :: xs).map Cell.shown).takeWhile isWordChar = [] := hword
          rw [List.map_cons, Cell.plain_shown, List.takeWhile_cons_of_pos hb] at hshown
          cases hshown
      · cases hb : isWordChar b with
        | false => rfl
        | true => cases (isDelimiter_of_isWordChar hb).symm.trans hdelimiter
    · subst hescape
      rfl

/-- Each end of the cells is read on its own from some mode on. -/
theorem lex_suffix {mode : Mode} {cs : List Character} {xs ys : List Cell}
    (hlex : lex mode cs = some xs) (hys : ys <:+ xs) : ∃ mode' cs', lex mode' cs' = some ys := by
  induction cs generalizing mode xs with
  | nil =>
    have hnil : xs = [] := by
      unfold lex at hlex
      split at hlex
      · exact (Option.some.inj hlex).symm
      · cases hlex
    subst hnil
    exact ⟨mode, [], (List.suffix_nil.mp hys) ▸ hlex⟩
  | cons c cs ih =>
    obtain ⟨region, mode', xs', -, hrest, rfl⟩ := lex_cons hlex
    rcases List.suffix_cons_iff.mp hys with rfl | hys'
    · exact ⟨mode, c :: cs, hlex⟩
    · exact ih hrest hys'

theorem Cell.region_of_word {x : Cell} (h : isWordChar x.shown = true) : x.region = .code := by
  obtain ⟨region, char⟩ := x
  cases region with
  | code => rfl
  | comment | literal => cases h

/-- A word lies in the code. -/
theorem lex_word {mode : Mode} {cs : List Character} {x : Cell} {xs : List Cell}
    (hlex : lex mode cs = some (x :: xs)) (hword : isWordChar x.shown = true) : mode = .code := by
  cases cs with
  | nil =>
    unfold lex at hlex
    split at hlex <;> cases hlex
  | cons c cs =>
    obtain ⟨region, mode', xs', hstep, -, hcells⟩ := lex_cons hlex
    cases hcells
    have hregion : region = .code := Cell.region_of_word hword
    subst hregion
    exact Mode.step_region_code hstep

/-! ## Tokens of plain code -/

/-- A word starts at a word character. -/
theorem tokens_head {inside : Bool} {xs : List Cell} {t : Located} {w : Bytes}
    (h : t ∈ tokens inside xs) (ht : t.token = .word w) :
    ∃ x ys, t.cells = x :: ys ∧ isWordChar x.shown = true := by
  induction xs generalizing inside with
  | nil => cases h
  | cons x xs ih =>
    rw [tokens] at h
    split at h
    · rename_i hword
      split at h
      · exact ih h
      · rcases List.mem_cons.mp h with rfl | hrest
        · exact ⟨x, xs, rfl, hword⟩
        · exact ih hrest
    · split at h
      · exact ih h
      · rcases List.mem_cons.mp h with rfl | hrest
        · cases ht
        · exact ih hrest

/-- Within a word the rest of it gives no token. -/
theorem tokens_inside {w : Bytes} (hw : ∀ c ∈ w, isWordChar c = true) (xs : List Cell) :
    tokens true (w.map Cell.plain ++ xs) = tokens true xs := by
  induction w with
  | nil => rfl
  | cons c w ih =>
    rw [List.forall_mem_cons] at hw
    have hc : isWordChar (Cell.plain c).shown = true := hw.1
    rw [List.map_cons, List.cons_append, tokens, if_pos hc, if_pos rfl, ih hw.2]

theorem tokens_word {w : Bytes} (hne : w ≠ []) (hw : ∀ c ∈ w, isWordChar c = true)
    (xs : List Cell) :
    tokens false (w.map Cell.plain ++ xs) =
      { token := .word (w ++ (xs.map Cell.shown).takeWhile isWordChar)
        cells := w.map Cell.plain ++ xs } :: tokens true xs := by
  have hletters : ((w.map Cell.plain ++ xs).map Cell.shown).takeWhile isWordChar =
      w ++ (xs.map Cell.shown).takeWhile isWordChar := by
    rw [List.map_append, map_plain_shown, List.takeWhile_append_of_pos hw]
  cases w with
  | nil => contradiction
  | cons c w =>
    rw [List.forall_mem_cons] at hw
    have hc : isWordChar (Cell.plain c).shown = true := hw.1
    rw [List.map_cons, List.cons_append] at hletters ⊢
    rw [tokens, if_pos hc, tokens_inside hw.2, hletters]
    rfl

theorem tokens_space {c : UInt8} (hc : Bytes.isSpace c = true) (inside : Bool) (xs : List Cell) :
    tokens inside (Cell.plain c :: xs) = tokens false xs := by
  have hword : ¬ isWordChar (Cell.plain c).shown = true := by
    rw [Cell.plain_shown, isWordChar_of_isSpace hc]
    exact Bool.false_ne_true
  have hspace : Bytes.isSpace (Cell.plain c).shown = true := hc
  rw [tokens, if_neg hword, if_pos hspace]

theorem tokens_spaces {blanks : Bytes} (hblanks : ∀ c ∈ blanks, Bytes.isSpace c = true)
    (xs : List Cell) : tokens false (blanks.map Cell.plain ++ xs) = tokens false xs := by
  induction blanks with
  | nil => rfl
  | cons c blanks ih =>
    rw [List.forall_mem_cons] at hblanks
    rw [List.map_cons, List.cons_append, tokens_space hblanks.1, ih hblanks.2]

/-- A word that a blank follows. -/
theorem tokens_word_space {w : Bytes} {c : UInt8} (hne : w ≠ [])
    (hw : ∀ b ∈ w, isWordChar b = true) (hc : Bytes.isSpace c = true) (xs : List Cell) :
    ∃ cells, tokens false (w.map Cell.plain ++ Cell.plain c :: xs) =
      { token := .word w, cells } :: tokens false xs := by
  refine ⟨w.map Cell.plain ++ Cell.plain c :: xs, ?_⟩
  have hend : ((Cell.plain c :: xs).map Cell.shown).takeWhile isWordChar = [] := by
    rw [List.map_cons, List.takeWhile_cons_of_neg]
    rw [Cell.plain_shown, isWordChar_of_isSpace hc]
    exact Bool.false_ne_true
  rw [tokens_word hne hw, hend, List.append_nil, tokens_space hc]

/-- From the cells of a token on, the tokens are the same. -/
theorem tokens_suffix {inside : Bool} {xs : List Cell} {t : Located} {rest : List Located}
    (h : t :: rest <:+ tokens inside xs) :
    tokens false t.cells = t :: rest ∧ t.cells <:+ xs := by
  induction xs generalizing inside with
  | nil => cases List.suffix_nil.mp h
  | cons x xs ih =>
    have hlater : ∀ {inside}, t :: rest <:+ tokens inside xs →
        tokens false t.cells = t :: rest ∧ t.cells <:+ x :: xs := by
      intro inside hrest
      obtain ⟨htokens, hcells⟩ := ih hrest
      exact ⟨htokens, hcells.trans (List.suffix_cons ..)⟩
    rw [tokens] at h
    split at h
    · rename_i hword
      split at h
      · exact hlater h
      · rcases List.suffix_cons_iff.mp h with heq | hrest
        · cases heq
          refine ⟨?_, List.suffix_rfl⟩
          rw [tokens, if_pos hword]
          rfl
        · exact hlater hrest
    · rename_i hword
      split at h
      · exact hlater h
      · rename_i hspace
        rcases List.suffix_cons_iff.mp h with heq | hrest
        · cases heq
          refine ⟨?_, List.suffix_rfl⟩
          rw [tokens, if_neg hword, if_neg hspace]
        · exact hlater hrest

/-- From a word on the cells are read as code. -/
theorem lex_token {mode : Mode} {cs : List Character} {xs : List Cell} {t : Located}
    {rest : List Located} {w : Bytes} (hlex : lex mode cs = some xs)
    (h : t :: rest <:+ tokens false xs) (ht : t.token = .word w) :
    ∃ cs', lex .code cs' = some t.cells := by
  obtain ⟨mode', cs', hcells⟩ := lex_suffix hlex (tokens_suffix h).2
  obtain ⟨x, ys, hx, hshown⟩ := tokens_head (h.subset (List.mem_cons_self ..)) ht
  rw [hx] at hcells ⊢
  have hmode : mode' = .code := lex_word hcells hshown
  rw [hmode] at hcells
  exact ⟨cs', hcells⟩

/-! ## Declarations -/

/-- The tokens from the word `public` of a class on. -/
structure Declares (d : PublicClass) (ts : List Located) : Prop where
  tokens : ∃ (p : Located) (modifiers : List Located) (c : Located) (rest : List Located),
    ts = p :: (modifiers ++ c :: rest) ∧ p.token = .word "public" ∧ d.cells = p.cells ∧
      d.modifiers = modifiers.map (·.token) ∧ c.token = .word "class" ∧
      d.name = rest.head?.map (·.token)

theorem publicClass_declares {header rest : List Located} {c : Located} {d : PublicClass}
    (hc : c.token = .word "class") (h : publicClass header rest = some d) :
    ∃ ts, ts <:+ header ++ c :: rest ∧ Declares d ts := by
  unfold publicClass at h
  split at h
  · cases h
  · rename_i p modifiers hheader
    cases h
    have hp : p.token = .word "public" := by
      have hfirst := List.head?_dropWhile_not (fun t : Located => t.token != .word "public") header
      rw [hheader] at hfirst
      simpa using hfirst
    have hmodifiers : p :: modifiers <:+ header := hheader ▸ List.dropWhile_suffix _
    refine ⟨p :: (modifiers ++ c :: rest), ?_, ⟨p, modifiers, c, rest, rfl, hp, rfl, rfl, hc, rfl⟩⟩
    obtain ⟨before, hbefore⟩ := hmodifiers
    exact ⟨before, by rw [← hbefore, List.append_assoc, List.cons_append]⟩

/-- Each class found is declared where the tokens say so. -/
theorem publicClasses_declares {depth : Nat} {header ts : List Located} {d : PublicClass}
    (h : d ∈ publicClasses depth header ts) : ∃ ts', ts' <:+ header ++ ts ∧ Declares d ts' := by
  induction ts generalizing depth header with
  | nil => cases h
  | cons t rest ih =>
    have hbehind : ∀ {ts'}, ts' <:+ [] ++ rest → ts' <:+ header ++ t :: rest := by
      intro ts' hts
      refine hts.trans ⟨header ++ [t], ?_⟩
      rw [List.append_assoc, List.nil_append]
      rfl
    rw [publicClasses] at h
    split at h
    · obtain ⟨ts', hts, hd⟩ := ih h
      exact ⟨ts', hbehind hts, hd⟩
    · split at h
      · rename_i hclass
        rcases List.mem_append.mp h with hhere | hlater
        · exact publicClass_declares hclass.2 (Option.mem_toList.mp hhere)
        · obtain ⟨ts', hts, hd⟩ := ih hlater
          exact ⟨ts', hbehind hts, hd⟩
      · obtain ⟨ts', hts, hd⟩ := ih h
        rw [List.append_assoc] at hts
        exact ⟨ts', hts, hd⟩

/-- The source of a class is an end of the whole source. -/
theorem declarations_spelling {src : Bytes} {ds : List PublicClass} {d : PublicClass}
    (hds : declarations src = some ds) (hd : d ∈ ds) : spelling d.cells <:+ src := by
  obtain ⟨cs, hcs, h⟩ := Option.bind_eq_some_iff.mp hds
  obtain ⟨xs, hxs, h⟩ := Option.bind_eq_some_iff.mp h
  cases h
  obtain ⟨ts, hts, p, modifiers, c, rest, rfl, -, hcells, -⟩ := publicClasses_declares hd
  obtain ⟨before, hbefore⟩ := (tokens_suffix hts).2
  refine ⟨spelling before, ?_⟩
  rw [← spelling_lex hcs hxs, hcells, ← hbefore]
  exact List.flatMap_append.symm

/-- The tokens of a class that is spelled with blanks only between its words. -/
theorem tokens_spelled {blanks name : Bytes} (hblanks : ∀ c ∈ blanks, Bytes.isSpace c = true)
    (hne : name ≠ []) (hword : ∀ c ∈ name, isWordChar c = true) (xs : List Cell) :
    ∃ p c t rest,
      tokens false ((("public class " : Bytes) ++ (blanks ++ name)).map Cell.plain ++ xs) =
        { token := .word "public", cells := p } :: { token := .word "class", cells := c } ::
          { token := .word (name ++ (xs.map Cell.shown).takeWhile isWordChar), cells := t } ::
            rest := by
  have hcut : (("public class " : Bytes) ++ (blanks ++ name)).map Cell.plain ++ xs =
      ("public" : Bytes).map Cell.plain ++ Cell.plain 32 ::
        (("class" : Bytes).map Cell.plain ++ Cell.plain 32 ::
          (blanks.map Cell.plain ++ (name.map Cell.plain ++ xs))) := by
    have hmarker : ("public class " : Bytes) =
        ("public" : Bytes) ++ 32 :: (("class" : Bytes) ++ [32]) := rfl
    rw [hmarker]
    simp only [List.map_append, List.map_cons, List.append_assoc, List.cons_append,
      List.nil_append]
  obtain ⟨p, hpublic⟩ := tokens_word_space (w := ("public" : Bytes)) (by decide)
    (List.all_eq_true.mp rfl) (by decide : Bytes.isSpace 32 = true)
    (("class" : Bytes).map Cell.plain ++ Cell.plain 32 ::
      (blanks.map Cell.plain ++ (name.map Cell.plain ++ xs)))
  obtain ⟨c, hclass⟩ := tokens_word_space (w := ("class" : Bytes)) (by decide)
    (List.all_eq_true.mp rfl) (by decide : Bytes.isSpace 32 = true)
    (blanks.map Cell.plain ++ (name.map Cell.plain ++ xs))
  refine ⟨p, c, name.map Cell.plain ++ xs, tokens true xs, ?_⟩
  rw [hcut, hpublic, hclass, tokens_spaces hblanks, tokens_word hne hword]

/-- The name of such a class ends in the source where the token does. -/
theorem declarations_name_ends {src : Bytes} {ds : List PublicClass} {d : PublicClass}
    {name blanks rest : Bytes} {b : UInt8} (hds : declarations src = some ds) (hd : d ∈ ds)
    (hmodifiers : .word "class" ∉ d.modifiers) (hname : d.name = some (.word name))
    (hne : name ≠ []) (hword : ∀ c ∈ name, isWordChar c = true)
    (hblanks : ∀ c ∈ blanks, Bytes.isSpace c = true)
    (hspelling : spelling d.cells = "public class " ++ (blanks ++ (name ++ b :: rest))) :
    isWordChar b = false := by
  obtain ⟨cs, -, h⟩ := Option.bind_eq_some_iff.mp hds
  obtain ⟨xs, hxs, h⟩ := Option.bind_eq_some_iff.mp h
  cases h
  obtain ⟨ts, hts, p, modifiers, c, ts', rfl, hp, hcells, hmods, hc, hnext⟩ :=
    publicClasses_declares hd
  have htokens := (tokens_suffix hts).1
  obtain ⟨cs', hlex⟩ := lex_token hxs hts hp
  rw [← hcells] at htokens hlex
  generalize hplain : (("public class " : Bytes) ++ (blanks ++ name)) = s
  have hs : ∀ c ∈ s, isDelimiter c = false := by
    intro c hmem
    rw [← hplain, List.mem_append, List.mem_append] at hmem
    rcases hmem with hmarker | hblank | hletter
    · have hall : ("public class " : Bytes).all (fun c => !isDelimiter c) = true := rfl
      simpa using List.all_eq_true.mp hall c hmarker
    · exact isDelimiter_of_isSpace (hblanks c hblank)
    · exact isDelimiter_of_isWordChar (hword c hletter)
  have hspelled : spelling d.cells = s ++ b :: rest := by
    rw [hspelling, ← hplain]
    simp only [List.append_assoc]
  obtain ⟨cs'', xs', hxs', hlex', hrest⟩ := lex_plain hs hlex hspelled
  obtain ⟨p', c', t, more, hread⟩ := tokens_spelled hblanks hne hword xs'
  rw [hplain, ← hxs', htokens] at hread
  -- Behind `public` the word `class` is no modifier, and the name is the next token.
  have hend : (xs'.map Cell.shown).takeWhile isWordChar = [] := by
    cases modifiers with
    | nil =>
      cases hread
      have hsame : name = name ++ (xs'.map Cell.shown).takeWhile isWordChar :=
        Token.word.inj (Option.some.inj (hname.symm.trans hnext))
      exact List.self_eq_append_right.mp hsame
    | cons m modifiers =>
      injection hread with _ hbehind
      injection hbehind with hm _
      rw [hmods, List.map_cons, hm] at hmodifiers
      exact absurd (List.mem_cons_self ..) hmodifiers
  exact lex_head hlex' hend hrest

end Java
