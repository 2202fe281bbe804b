-- SUMMARY: How a POSIX shell splits a command string into words, and the strings it splits at the blanks and nowhere else.
import FlowStudyJudge.Text.Bytes

/-! # Shell commands

The tokens of a command string, and the words of a simple command that needs no
expansion. Where the shell would expand a word, run more than one command, redirect
or wait for more input, `split` gives nothing; so a result of `split` is all that the
shell does with the string. -/

namespace Shell

/-! ## Characters -/

def isBlank (c : UInt8) : Bool :=
  [9, 32].contains c.toNat

/-- The characters that operators are made of: `& ( ) ; < > |` and the newline. -/
def isOperator (c : UInt8) : Bool :=
  [10, 38, 40, 41, 59, 60, 62, 124].contains c.toNat

/-- The double quote, the single quote and the backslash. -/
def isQuote (c : UInt8) : Bool :=
  [34, 39, 92].contains c.toNat

/-- The dollar sign and the backquote, with which expansions begin. -/
def isExpansion (c : UInt8) : Bool :=
  [36, 96].contains c.toNat

/-- The characters `* ? [` of patterns, which are expanded to the names of files. -/
def isPattern (c : UInt8) : Bool :=
  [42, 63, 91].contains c.toNat

example : isOperator '|'.toUInt8 ∧ isOperator ';'.toUInt8 ∧ isOperator '<'.toUInt8 := by decide

/-! ## Tokens -/

/-- A character of a word. -/
inductive Part where
  | plain (c : UInt8)
  | quoted (c : UInt8)
  /-- The beginning of an expansion. What it extends over is not looked at. -/
  | expansion
  deriving DecidableEq

inductive Token where
  | word (w : List Part)
  | operator (c : UInt8)
  deriving DecidableEq

/-- Where the tokenizer stands, with the word that it is reading. -/
inductive Mode where
  | bare (w : Option (List Part))
  /-- Behind a backslash. -/
  | escaped (w : Option (List Part))
  | single (w : List Part)
  | double (w : List Part)
  /-- Behind a backslash between double quotes. -/
  | doubleEscaped (w : List Part)
  | comment

/-- The token of a word that ends here, if there is one. -/
def endWord (w : Option (List Part)) (rest : List Token) : List Token :=
  match w with
  | none => rest
  | some w => .word w :: rest

/-- A character that stands for itself, but for expansions. -/
def part (c : UInt8) : Part :=
  if isExpansion c then .expansion else .plain c

def tokens : Mode → Bytes → Option (List Token)
  | .bare w, [] => some (endWord w [])
  | .comment, [] => some []
  | .escaped _, [] | .single _, [] | .double _, [] | .doubleEscaped _, [] => none
  | .bare w, c :: cs =>
    if isBlank c then (tokens (.bare none) cs).map (endWord w)
    else if isOperator c then
      (tokens (.bare none) cs).map fun rest => endWord w (.operator c :: rest)
    else if c = '#'.toUInt8 ∧ w = none then tokens .comment cs
    else if c = '\\'.toUInt8 then tokens (.escaped w) cs
    else if c = '\''.toUInt8 then tokens (.single (w.getD [])) cs
    else if c = '"'.toUInt8 then tokens (.double (w.getD [])) cs
    else tokens (.bare (some (w.getD [] ++ [part c]))) cs
  | .escaped w, c :: cs =>
    -- an escaped newline is removed
    if c = Bytes.newline then tokens (.bare w) cs
    else tokens (.bare (some (w.getD [] ++ [.quoted c]))) cs
  | .single w, c :: cs =>
    if c = '\''.toUInt8 then tokens (.bare (some w)) cs
    else tokens (.single (w ++ [.quoted c])) cs
  | .double w, c :: cs =>
    if c = '"'.toUInt8 then tokens (.bare (some w)) cs
    else if c = '\\'.toUInt8 then tokens (.doubleEscaped w) cs
    else tokens (.double (w ++ [if isExpansion c then .expansion else .quoted c])) cs
  | .doubleEscaped w, c :: cs =>
    if c = Bytes.newline then tokens (.double w) cs
    else if isExpansion c ∨ c = '"'.toUInt8 ∨ c = '\\'.toUInt8 then
      tokens (.double (w ++ [.quoted c])) cs
    else tokens (.double (w ++ [.quoted '\\'.toUInt8, .quoted c])) cs
  | .comment, c :: cs =>
    if c = Bytes.newline then (tokens (.bare none) cs).map (.operator c :: ·)
    else tokens .comment cs

/-! ## Words -/

/-- The value of a word without expansions, behind the removal of its quotes. -/
def literal : List Part → Option Bytes
  | [] => some []
  | .plain c :: w => if isPattern c then none else (literal w).map (c :: ·)
  | .quoted c :: w => (literal w).map (c :: ·)
  | .expansion :: _ => none

/-- A tilde in front is replaced by a home directory. -/
def isTilde : List Part → Bool
  | .plain c :: _ => c == '~'.toUInt8
  | _ => false

def argument (w : List Part) : Option Bytes :=
  if isTilde w then none else literal w

def reserved : List Bytes :=
  ["!", "\x7b", "\x7d", "case", "do", "done", "elif", "else", "esac", "fi", "for", "if", "in",
    "then", "until", "while"]

/-- The unquoted characters in front of the first that is not. -/
def plainPrefix : List Part → Bytes
  | .plain c :: w => c :: plainPrefix w
  | _ => []

/-- A variable name in front of an equals sign. -/
def isAssignment (w : Bytes) : Bool :=
  match Bytes.splitAtFirst '='.toUInt8 w with
  | some (c :: name, _) =>
    (Bytes.isAlpha c || c == '_'.toUInt8) &&
      name.all fun c => Bytes.isAlnum c || c == '_'.toUInt8
  | _ => false

/-- The first word of a command, which is neither reserved nor an assignment. -/
def commandName (w : List Part) : Option Bytes :=
  if isAssignment (plainPrefix w) ∨ w ∈ reserved.map (·.map Part.plain) then none
  else argument w

def arguments : List Token → Option (List Bytes)
  | [] => some []
  | .word w :: rest => do
    let arg ← argument w
    let args ← arguments rest
    return arg :: args
  | .operator _ :: _ => none

/-- The words of a simple command of literal words. -/
def words : List Token → Option (List Bytes)
  | .word w :: rest => do
    let name ← commandName w
    let args ← arguments rest
    return name :: args
  | _ => none

/-- What the shell makes of the argument of `system`, a C string. -/
def split (command : Bytes) : Option (List Bytes) :=
  (tokens (.bare none) (command.takeWhile (· ≠ 0))).bind words

example : split "a 'b c' \\$d # e" = some (["a", "b c", "$d"] : List Bytes) := by decide +kernel
example : split "a b; c" = none := by decide +kernel
example : split "a $(b)" = none := by decide +kernel

/-! ## Plain words -/

/-- A character without any meaning to the shell, wherever it stands in a word but in
    front. -/
def isOrdinary (c : UInt8) : Bool :=
  !(c.toNat == 0 || isBlank c || isOperator c || isQuote c || isExpansion c || isPattern c)

/-- A word that the shell takes as it stands. -/
def isPlainWord : Bytes → Bool
  | [] => false
  | c :: w => c != '#'.toUInt8 && c != '~'.toUInt8 && (c :: w).all isOrdinary

/-- A word that the shell takes as it stands for the name of a command. -/
def isPlainCommand (w : Bytes) : Bool :=
  isPlainWord w && !isAssignment w && !reserved.contains w

/-- Words, each behind a blank. -/
def spaced (ws : List Bytes) : Bytes :=
  ws.flatMap (' '.toUInt8 :: ·)

@[simp] theorem spaced_nil : spaced [] = [] := rfl

@[simp] theorem spaced_cons (w : Bytes) (ws : List Bytes) :
    spaced (w :: ws) = ' '.toUInt8 :: (w ++ spaced ws) := rfl

@[simp] theorem spaced_append (ws ws' : List Bytes) :
    spaced (ws ++ ws') = spaced ws ++ spaced ws' := by
  simp [spaced]

/-- What makes a character ordinary. -/
structure Ordinary (c : UInt8) : Prop where
  nonzero : c ≠ 0
  blank : isBlank c = false
  operator : isOperator c = false
  backslash : c ≠ '\\'.toUInt8
  single : c ≠ '\''.toUInt8
  double : c ≠ '"'.toUInt8
  expansion : isExpansion c = false
  pattern : isPattern c = false

theorem Ordinary.of_isOrdinary {c : UInt8} (h : isOrdinary c = true) : Ordinary c := by
  simp only [isOrdinary, Bool.not_eq_true', Bool.or_eq_false_iff, beq_eq_false_iff_ne] at h
  obtain ⟨⟨⟨⟨⟨hnonzero, hblank⟩, hoperator⟩, hquote⟩, hexpansion⟩, hpattern⟩ := h
  have hne : ∀ q, isQuote q = true → c ≠ q := by
    rintro q hq rfl
    rw [hq] at hquote
    cases hquote
  exact ⟨fun hc => hnonzero (hc ▸ rfl), hblank, hoperator, hne _ rfl, hne _ rfl, hne _ rfl,
    hexpansion, hpattern⟩

theorem plainWord_ordinary {w : Bytes} (h : isPlainWord w = true) :
    w ≠ [] ∧ ∀ c ∈ w, Ordinary c := by
  cases w with
  | nil => cases h
  | cons c w =>
    simp only [isPlainWord, Bool.and_eq_true, List.all_eq_true] at h
    exact ⟨List.cons_ne_nil _ _, fun d hd => .of_isOrdinary (h.2 d hd)⟩

/-- Ordinary characters are added to the word that is being read. -/
theorem tokens_ordinary {cs : Bytes} (h : ∀ c ∈ cs, Ordinary c) (w : List Part) (rest : Bytes) :
    tokens (.bare (some w)) (cs ++ rest) = tokens (.bare (some (w ++ cs.map .plain))) rest := by
  induction cs generalizing w with
  | nil => simp
  | cons c cs ih =>
    obtain ⟨hc, hcs⟩ := List.forall_mem_cons.mp h
    have hstep := ih hcs (w ++ [.plain c])
    simp only [List.append_assoc, List.singleton_append] at hstep
    simp [tokens, hc.blank, hc.operator, hc.backslash, hc.single, hc.double, part, hc.expansion,
      hstep]

/-- A plain word begins a word. -/
theorem tokens_plainWord {w : Bytes} (h : isPlainWord w = true) (rest : Bytes) :
    tokens (.bare none) (w ++ rest) = tokens (.bare (some (w.map .plain))) rest := by
  obtain ⟨-, hordinary⟩ := plainWord_ordinary h
  cases w with
  | nil => cases h
  | cons c w =>
    obtain ⟨hc, hw⟩ := List.forall_mem_cons.mp hordinary
    have hhash : c ≠ '#'.toUInt8 := by
      simp only [isPlainWord, Bool.and_eq_true, bne_iff_ne] at h
      exact h.1.1
    have hrest := tokens_ordinary hw [.plain c] rest
    simp only [List.singleton_append] at hrest
    simp [tokens, hc.blank, hc.operator, hc.backslash, hc.single, hc.double, part, hc.expansion,
      hhash, hrest]

theorem tokens_spaced {ws : List Bytes} (h : ∀ w ∈ ws, isPlainWord w = true) (first : List Part) :
    tokens (.bare (some first)) (spaced ws) =
      some (.word first :: ws.map fun w => .word (w.map .plain)) := by
  induction ws generalizing first with
  | nil => rfl
  | cons w ws ih =>
    obtain ⟨hw, hws⟩ := List.forall_mem_cons.mp h
    have hblank : isBlank ' '.toUInt8 = true := rfl
    rw [spaced_cons, tokens, if_pos hblank, tokens_plainWord hw, ih hws]
    rfl

theorem literal_ordinary {w : Bytes} (h : ∀ c ∈ w, Ordinary c) :
    literal (w.map .plain) = some w := by
  induction w with
  | nil => rfl
  | cons c w ih =>
    obtain ⟨hc, hw⟩ := List.forall_mem_cons.mp h
    simp [literal, hc.pattern, ih hw]

theorem argument_plainWord {w : Bytes} (h : isPlainWord w = true) :
    argument (w.map .plain) = some w := by
  obtain ⟨-, hordinary⟩ := plainWord_ordinary h
  have htilde : isTilde (w.map .plain) = false := by
    cases w with
    | nil => rfl
    | cons c w =>
      simp only [isPlainWord, Bool.and_eq_true, bne_iff_ne] at h
      simpa [isTilde] using h.1.2
  rw [argument, htilde, if_neg Bool.false_ne_true, literal_ordinary hordinary]

@[simp] theorem plainPrefix_map (w : Bytes) : plainPrefix (w.map .plain) = w := by
  induction w with
  | nil => rfl
  | cons c w ih => simp [plainPrefix, ih]

theorem commandName_plainCommand {w : Bytes} (h : isPlainCommand w = true) :
    commandName (w.map .plain) = some w := by
  simp only [isPlainCommand, Bool.and_eq_true, Bool.not_eq_true'] at h
  obtain ⟨⟨hplain, hassignment⟩, hreserved⟩ := h
  have hnot : w.map Part.plain ∉ reserved.map (·.map Part.plain) := by
    intro hmem
    obtain ⟨r, hr, heq⟩ := List.mem_map.mp hmem
    have hrw : r = w := List.map_injective_iff.mpr (fun a b hab => Part.plain.inj hab) heq
    subst hrw
    simp [hr] at hreserved
  rw [commandName, plainPrefix_map, hassignment, if_neg (by simpa using hnot)]
  exact argument_plainWord hplain

theorem arguments_plainWords {ws : List Bytes} (h : ∀ w ∈ ws, isPlainWord w = true) :
    arguments (ws.map fun w => .word (w.map .plain)) = some ws := by
  induction ws with
  | nil => rfl
  | cons w ws ih =>
    obtain ⟨hw, hws⟩ := List.forall_mem_cons.mp h
    simp [arguments, argument_plainWord hw, ih hws]

theorem nonzero_spaced {ws : List Bytes} (h : ∀ w ∈ ws, isPlainWord w = true) :
    ∀ c ∈ spaced ws, c ≠ 0 := by
  intro c hc
  obtain ⟨w, hw, hmem⟩ := List.mem_flatMap.mp hc
  rcases List.mem_cons.mp hmem with rfl | hmem
  · decide
  · exact ((plainWord_ordinary (h w hw)).2 c hmem).nonzero

/-- A command put together from plain words is split into these words. -/
theorem split_spaced {name : Bytes} {args : List Bytes} (hname : isPlainCommand name = true)
    (hargs : ∀ w ∈ args, isPlainWord w = true) :
    split (name ++ spaced args) = some (name :: args) := by
  have hplain : isPlainWord name = true := by
    simp only [isPlainCommand, Bool.and_eq_true] at hname
    exact hname.1.1
  have hnonzero : ∀ c ∈ name ++ spaced args, decide (c ≠ 0) = true := by
    intro c hc
    apply decide_eq_true
    rcases List.mem_append.mp hc with hc | hc
    · exact ((plainWord_ordinary hplain).2 c hc).nonzero
    · exact nonzero_spaced hargs c hc
  have htokens : tokens (.bare none) (name ++ spaced args) =
      some (.word (name.map .plain) :: args.map fun w => .word (w.map .plain)) := by
    rw [tokens_plainWord hplain, tokens_spaced hargs]
  rw [split, List.takeWhile_eq_self_iff.mpr hnonzero, htokens]
  simp [words, commandName_plainCommand hname, arguments_plainWords hargs]

end Shell
