-- SUMMARY: The command lines that `compile` and `run` hand to the shell: always the same words, whatever a submission contains.
import FlowStudyJudge.Judge.Behaviour
import FlowStudyJudge.Text.Decimal
import FlowStudyJudge.Text.Shell

/-! # Command lines

`execute` joins its arguments with blanks and does not quote them. That the shell takes
them apart again at the same places rests on the characters of every single argument. -/

namespace Sandbox

open Shell

/-! ## What a command line has to be -/

/-- The shell splits `cmd` into the isolate binary and `args`, with the meta option in
    front of the first `--run`; behind `--` stands `program`, which isolate runs. -/
inductive Invokes (isolateBin : Bytes) (args : List Bytes) (metaPath : Bytes)
    (program : List Bytes) (cmd : Bytes) : Prop where
  | intro {options : List Bytes} (hrun : ("--run" : Bytes) ∉ options)
      (hdashes : ("--" : Bytes) ∉ options)
      (hargs : args = options ++ (["--run", "--"] : List Bytes) ++ program)
      (hsplit : split cmd = some (isolateBin ::
        (options ++ (["--meta=" ++ metaPath, "--run", "--"] : List Bytes) ++ program))) :
      Invokes isolateBin args metaPath program cmd

/-- The compiler calls, by the name of the source file. -/
def compileCommand (file : Bytes) : Language → List Bytes
  | .cpp => ["/usr/bin/g++", "-std=c++17", "-O2", "-Wall", "-o", "solution", file]
  | .java =>
    ["/usr/bin/javac", "-J-Xms16m", "-J-Xmx128m", "-J-Xss256k", "-J-Xint",
      "-J-XX:+UseSerialGC", "-J-XX:ActiveProcessorCount=1",
      "-J-XX:-UseCompressedOops", "-J-XX:-UseCompressedClassPointers",
      "-J-XX:ReservedCodeCacheSize=32m", "-J-XX:MaxMetaspaceSize=128m", file]
  | .python => ["/usr/bin/python3", "-m", "py_compile", file]
  | .go => ["/usr/bin/env", "go", "build", "-o", "solution", file]

/-- What a compiler call leaves in the box is what a program call executes. -/
inductive SameArtifact (file : Bytes) : List Bytes → List Bytes → Prop where
  /-- The output file of the compiler. -/
  | binary {flags : List Bytes} {name : Bytes} :
      SameArtifact file (flags ++ (["-o", name, file] : List Bytes)) ["./" ++ name]
  /-- The class that the source file is named after. -/
  | mainClass {flags flags' : List Bytes} {name : Bytes} (hfile : file = name ++ ".java") :
      SameArtifact file (flags ++ [file]) (flags' ++ (["-cp", ".", name] : List Bytes))
  /-- The source file itself. -/
  | script {interpreter : Bytes} :
      SameArtifact file [interpreter, "-m", "py_compile", file] [interpreter, file]

/-- The objects that the judge has: made for a box, and used for compilations. -/
inductive Used (cfg : IsolateConfig) : Sandbox → Prop where
  | make {boxId : Int} : Used cfg (make boxId cfg)
  | compile {sb sb' : Sandbox} {language sourceCode : Bytes} {tr : Trace Op.Res}
      {result : SandboxResult} (h : Used cfg sb)
      (hcompile : (sb.compile language sourceCode).Runs tr (.ok (sb', result))) : Used cfg sb'

/-! ## Class names -/

/-- A string without any character that the shell looks at. -/
def isClassName (name : Bytes) : Bool :=
  !name.isEmpty && name.all isClassNameChar

theorem isClassName_javaClassName (sourceCode : Bytes) :
    isClassName (javaClassName sourceCode) = true := by
  unfold javaClassName
  split
  · rfl
  · rename_i rest _
    dsimp only
    split
    · rfl
    · rename_i hne
      have hall : ((rest.dropWhile Bytes.isSpace).takeWhile isClassNameChar).all
          isClassNameChar = true := by
        rw [List.all_eq_true]
        exact fun c hc => List.mem_takeWhile_imp hc
      simpa [isClassName, hall] using hne

/-! ## The object behind a compilation -/

theorem Compiled.sandbox {sb sb' : Sandbox} {language sourceCode : Bytes} {tr : Trace Op.Res}
    {result : SandboxResult} (h : Compiled sb language sourceCode tr (.ok (sb', result))) :
    sb' = sb ∨ ∃ lang, languageOf language = some lang ∧ sb' = sb.setMainClass lang sourceCode := by
  cases h with
  | unsupported hlang => exact .inl rfl
  | noDirs hlang hdirs => exact .inr ⟨_, hlang, rfl⟩
  | notWritten hlang hdirs => exact .inr ⟨_, hlang, rfl⟩
  | executed hlang hdirs hw hexec htail => exact .inr ⟨_, hlang, rfl⟩

theorem setMainClass_isClassName {sb : Sandbox} (h : isClassName sb.javaMainClass = true)
    (lang : Language) (sourceCode : Bytes) :
    isClassName (sb.setMainClass lang sourceCode).javaMainClass = true := by
  unfold setMainClass
  split
  · exact isClassName_javaClassName sourceCode
  · exact h

/-- The binary stays the configured one, and the class name one without special
    characters. -/
theorem Used.fixed {cfg : IsolateConfig} {sb : Sandbox} (h : Used cfg sb) :
    sb.isolateBin = cfg.binaryPath ∧ isClassName sb.javaMainClass = true := by
  induction h with
  | make =>
    have hmain : isClassName "Main" = true := rfl
    exact ⟨rfl, hmain⟩
  | @compile sb sb' language sourceCode tr result _ hcompile ih =>
    rcases (compile_runs hcompile).sandbox with rfl | ⟨lang, -, rfl⟩
    · exact ih
    · exact ⟨(setMainClass_isolateBin ..).trans ih.1, setMainClass_isClassName ih.2 lang sourceCode⟩

/-! ## Plain arguments -/

theorem isOrdinary_of_isClassNameChar (c : UInt8) (h : isClassNameChar c = true) :
    isOrdinary c = true := by
  have hall : ∀ c, isClassNameChar c = true → isOrdinary c = true :=
    Bytes.forall_byte (by decide +kernel)
  exact hall c h

theorem isOrdinary_of_isDigit (c : UInt8) (h : Bytes.isDigit c = true) : isOrdinary c = true :=
  isOrdinary_of_isClassNameChar c (by simp [isClassNameChar, Bytes.isAlnum, h])

theorem ofInt_ordinary (n : Int) : (Bytes.ofInt n).all isOrdinary = true := by
  rw [List.all_eq_true]
  intro c hc
  rcases Bytes.mem_ofInt hc with hc | rfl
  · exact isOrdinary_of_isDigit c hc
  · rfl

theorem className_ordinary {name : Bytes} (h : isClassName name = true) :
    name.all isOrdinary = true := by
  simp only [isClassName, Bool.and_eq_true, List.all_eq_true] at h
  rw [List.all_eq_true]
  exact fun c hc => isOrdinary_of_isClassNameChar c (h.2 c hc)

/-- A plain word goes on with ordinary characters. -/
theorem isPlainWord_append {w cs : Bytes} (hw : isPlainWord w = true)
    (hcs : cs.all isOrdinary = true) : isPlainWord (w ++ cs) = true := by
  cases w with
  | nil => cases hw
  | cons c w =>
    simp only [isPlainWord, List.cons_append, List.all_cons, List.all_append, Bool.and_eq_true]
      at hw ⊢
    exact ⟨hw.1, hw.2.1, hw.2.2, hcs⟩

/-- A plain word that isolate takes for one of its options. -/
def isOption (w : Bytes) : Bool :=
  isPlainWord w && w != "--run" && w != "--"

theorem isOption_plain {w : Bytes} (h : isOption w = true) : isPlainWord w = true := by
  simp only [isOption, Bool.and_eq_true] at h
  exact h.1.1

theorem not_mem_of_isOption {ws : List Bytes} (h : ws.all isOption = true) :
    ("--run" : Bytes) ∉ ws ∧ ("--" : Bytes) ∉ ws := by
  rw [List.all_eq_true] at h
  constructor
  · intro hmem
    exact absurd (h _ hmem) (by decide)
  · intro hmem
    exact absurd (h _ hmem) (by decide)

/-- An option with a name of its own and a value. -/
theorem isOption_append {w cs : Bytes} (hw : isPlainWord w = true) (hlong : 5 < w.length)
    (hcs : cs.all isOrdinary = true) : isOption (w ++ cs) = true := by
  have hlength : 5 < (w ++ cs).length := by
    rw [List.length_append]
    omega
  have hrun : w ++ cs ≠ "--run" := by
    intro heq
    rw [heq] at hlength
    exact absurd hlength (by decide)
  have hdashes : w ++ cs ≠ "--" := by
    intro heq
    rw [heq] at hlength
    exact absurd hlength (by decide)
  simp [isOption, isPlainWord_append hw hcs, hrun, hdashes]

theorem boxOption_isOption (boxId : Int) : isOption (boxOption boxId) = true :=
  isOption_append rfl (by decide) (ofInt_ordinary boxId)

theorem memOption_isOption (memoryLimitKb : Int) :
    isOption ("--mem=" ++ Bytes.ofInt memoryLimitKb) = true :=
  isOption_append rfl (by decide) (ofInt_ordinary memoryLimitKb)

theorem wallTimeOption_isOption (timeLimitMs : Int) :
    isOption (wallTimeOption timeLimitMs) = true := by
  refine isOption_append rfl (by decide) ?_
  have hdot : ("." : Bytes).all isOrdinary = true := rfl
  have hzeros : ("000" : Bytes).all isOrdinary = true := rfl
  simp [secondsToBytes, List.all_append, hdot, hzeros, ofInt_ordinary]

theorem metaOption_plain (sb : Sandbox) {filename : Bytes} (h : filename.all isOrdinary = true) :
    isPlainWord ("--meta=" ++ sb.path filename) = true := by
  refine isPlainWord_append rfl ?_
  have hfront : ("/var/local/lib/isolate/" : Bytes).all isOrdinary = true := rfl
  have hback : ("/box/" : Bytes).all isOrdinary = true := rfl
  simp [path, boxPath, List.all_append, hfront, hback, ofInt_ordinary, h]

theorem className_plain {name : Bytes} (h : isClassName name = true) :
    isPlainWord name = true := by
  have hordinary := className_ordinary h
  cases name with
  | nil => cases h
  | cons c name =>
    simp only [isClassName, List.all_cons, Bool.and_eq_true] at h
    have hhash : c ≠ '#'.toUInt8 := by
      rintro rfl
      exact absurd h.2.1 (by decide)
    have htilde : c ≠ '~'.toUInt8 := by
      rintro rfl
      exact absurd h.2.1 (by decide)
    simp only [isPlainWord, Bool.and_eq_true, bne_iff_ne]
    exact ⟨⟨hhash, htilde⟩, hordinary⟩

theorem sourceFile_plain (sourceCode : Bytes) (lang : Language) :
    isPlainWord (sourceFile sourceCode lang) = true := by
  cases lang with
  | java =>
    exact isPlainWord_append (className_plain (isClassName_javaClassName sourceCode)) rfl
  | cpp =>
    have hfile : isPlainWord "solution.cpp" = true := rfl
    exact hfile
  | python =>
    have hfile : isPlainWord "solution.py" = true := rfl
    exact hfile
  | go =>
    have hfile : isPlainWord "main.go" = true := rfl
    exact hfile

/-! ## The arguments of `compile` and `run` -/

/-- The options between the box and the program in the calls of `compile`. -/
def compileOptions : Language → List Bytes
  | .cpp => ["--env=PATH=/usr/bin:/bin", "--processes=50", "--wall-time=30", "--stderr=error.txt"]
  | .java =>
    ["--env=PATH=/usr/bin:/bin", "--dir=/etc/alternatives", "--dir=/etc/java-17-openjdk",
      "--dir=/usr/lib/jvm", "--processes=256", "--mem=2097152", "--wall-time=30",
      "--stderr=error.txt"]
  | .python =>
    ["--env=PATH=/usr/bin:/bin", "--processes=20", "--wall-time=10", "--stderr=error.txt"]
  | .go =>
    ["--env=PATH=/usr/local/go/bin:/usr/bin:/bin", "--env=GOCACHE=/tmp/go-cache",
      "--processes=50", "--wall-time=30", "--stderr=error.txt"]

theorem compileArgs_eq (boxId : Int) (file : Bytes) (lang : Language) :
    compileArgs boxId file lang = (boxOption boxId :: compileOptions lang) ++
      (["--run", "--"] : List Bytes) ++ compileCommand file lang := by
  cases lang <;> rfl

/-- The options between the box and the limits in the calls of `run`. -/
def runOptions (lang : Language) : List Bytes :=
  ("--env=PATH=/usr/local/go/bin:/usr/bin:/bin" : Bytes) ::
    ("--processes=" ++ processLimit lang) :: runDirs lang

def redirections : List Bytes :=
  ["--stdin=input.txt", "--stdout=output.txt", "--stderr=error.txt"]

theorem runArgs_eq (sb : Sandbox) (timeLimitMs memoryLimitKb : Int) (lang : Language) :
    sb.runArgs timeLimitMs memoryLimitKb lang =
      (boxOption sb.boxId :: (runOptions lang ++
        ("--mem=" ++ Bytes.ofInt (isolateMemoryKb memoryLimitKb lang)) ::
        wallTimeOption timeLimitMs :: redirections)) ++
      (["--run", "--"] : List Bytes) ++ runCommand sb.javaMainClass lang := by
  cases lang <;> rfl

/-- The file or the class comes last, behind words that never change. -/
theorem compileCommand_eq (file : Bytes) (lang : Language) :
    compileCommand file lang = (compileCommand [] lang).dropLast ++ [file] := by
  cases lang <;> rfl

theorem runCommand_java (name : Bytes) :
    runCommand name .java = (runCommand [] .java).dropLast ++ [name] := rfl

theorem compileCommand_plain {file : Bytes} (h : isPlainWord file = true) (lang : Language) :
    (compileCommand file lang).all isPlainWord = true := by
  have hflags : (compileCommand [] lang).dropLast.all isPlainWord = true := by
    cases lang <;> rfl
  rw [compileCommand_eq, List.all_append, hflags]
  simp [h]

theorem runCommand_plain {name : Bytes} (h : isClassName name = true) (lang : Language) :
    (runCommand name lang).all isPlainWord = true := by
  cases lang with
  | java =>
    have hflags : (runCommand [] .java).dropLast.all isPlainWord = true := rfl
    rw [runCommand_java, List.all_append, hflags]
    simp [className_plain h]
  | cpp | go =>
    have hcommand : (["./solution"] : List Bytes).all isPlainWord = true := rfl
    exact hcommand
  | python =>
    have hcommand : (["/usr/bin/python3", "solution.py"] : List Bytes).all isPlainWord = true :=
      rfl
    exact hcommand

/-! ## Joining the arguments -/

theorem joinArgs_true (metaPath : Bytes) (args : List Bytes) :
    joinArgs metaPath args true = spaced args := by
  induction args with
  | nil => rfl
  | cons a rest ih =>
    have hmeta : ¬ ((!true) = true ∧ a = "--run") := by simp
    rw [joinArgs, if_neg hmeta, ih]
    rfl

/-- The loop of `execute` puts the meta option in front of the first `--run`. -/
theorem joinArgs_run (metaPath : Bytes) {options : List Bytes} (h : ("--run" : Bytes) ∉ options)
    (rest : List Bytes) :
    joinArgs metaPath (options ++ ("--run" : Bytes) :: rest) false =
      spaced (options ++ ("--meta=" ++ metaPath) :: ("--run" : Bytes) :: rest) := by
  induction options with
  | nil =>
    have hmeta : (!false) = true ∧ ("--run" : Bytes) = "--run" := ⟨rfl, rfl⟩
    rw [List.nil_append, joinArgs, if_pos hmeta, joinArgs_true]
    simp only [List.nil_append, spaced_cons, List.append_assoc]
    rfl
  | cons a options ih =>
    simp only [List.mem_cons, not_or] at h
    have hmeta : ¬ ((!false) = true ∧ a = "--run") := fun ha => h.1 ha.2.symm
    rw [List.cons_append, joinArgs, if_neg hmeta, ih h.2]
    rfl

/-- Options, `--run`, `--` and a program are split as `execute` means them. -/
theorem commandLine_invokes {sb : Sandbox} {options program : List Bytes} {filename : Bytes}
    (hbin : isPlainCommand sb.isolateBin = true) (hoptions : options.all isOption = true)
    (hprogram : program.all isPlainWord = true) (hfile : filename.all isOrdinary = true) :
    Invokes sb.isolateBin (options ++ (["--run", "--"] : List Bytes) ++ program)
      (sb.path filename) program
      (sb.commandLine (options ++ (["--run", "--"] : List Bytes) ++ program) filename) := by
  obtain ⟨hrun, hdashes⟩ := not_mem_of_isOption hoptions
  refine .intro hrun hdashes rfl ?_
  have hline : sb.commandLine (options ++ (["--run", "--"] : List Bytes) ++ program) filename =
      sb.isolateBin ++ spaced (options ++
        (["--meta=" ++ sb.path filename, "--run", "--"] : List Bytes) ++ program) := by
    have hjoin := joinArgs_run (sb.path filename) hrun (("--" : Bytes) :: program)
    simp only [List.append_assoc, List.cons_append, List.nil_append]
    exact congrArg (sb.isolateBin ++ ·) hjoin
  have hmeta : isPlainWord ("--meta=" ++ sb.path filename) = true :=
    metaOption_plain sb hfile
  have hdash : (["--run", "--"] : List Bytes).all isPlainWord = true := rfl
  have hplain : options.all isPlainWord = true := by
    rw [List.all_eq_true] at hoptions ⊢
    exact fun w hw => isOption_plain (hoptions w hw)
  have hall : (options ++ (["--meta=" ++ sb.path filename, "--run", "--"] : List Bytes) ++
      program).all isPlainWord = true := by
    rw [List.all_append, List.all_append, List.all_cons, hplain, hmeta, hdash, hprogram]
    rfl
  rw [hline]
  exact split_spaced hbin (List.all_eq_true.mp hall)

/-! ## The command lines of `compile` and `run` -/

theorem compileOptions_isOption (boxId : Int) (lang : Language) :
    (boxOption boxId :: compileOptions lang).all isOption = true := by
  have hfixed : (compileOptions lang).all isOption = true := by
    cases lang <;> rfl
  rw [List.all_cons, boxOption_isOption, hfixed]
  rfl

theorem compile_invokes {sb : Sandbox} (hbin : isPlainCommand sb.isolateBin = true)
    (sourceCode : Bytes) (lang : Language) :
    Invokes sb.isolateBin (compileArgs sb.boxId (sourceFile sourceCode lang) lang)
      (sb.path "compile_meta.txt") (compileCommand (sourceFile sourceCode lang) lang)
      (sb.commandLine (compileArgs sb.boxId (sourceFile sourceCode lang) lang)
        "compile_meta.txt") := by
  have hprogram := compileCommand_plain (sourceFile_plain sourceCode lang) lang
  rw [compileArgs_eq]
  exact commandLine_invokes hbin (compileOptions_isOption sb.boxId lang) hprogram rfl

theorem runOptions_isOption (boxId timeLimitMs memoryLimitKb : Int) (lang : Language) :
    (boxOption boxId :: (runOptions lang ++
      ("--mem=" ++ Bytes.ofInt (isolateMemoryKb memoryLimitKb lang)) ::
      wallTimeOption timeLimitMs :: redirections)).all isOption = true := by
  have hfixed : (runOptions lang).all isOption = true := by
    cases lang <;> rfl
  have hredirections : redirections.all isOption = true := rfl
  rw [List.all_cons, List.all_append, List.all_cons, List.all_cons, boxOption_isOption, hfixed,
    memOption_isOption, wallTimeOption_isOption, hredirections]
  rfl

theorem run_invokes {sb : Sandbox} (hbin : isPlainCommand sb.isolateBin = true)
    (hclass : isClassName sb.javaMainClass = true) (timeLimitMs memoryLimitKb : Int)
    (lang : Language) :
    Invokes sb.isolateBin (sb.runArgs timeLimitMs memoryLimitKb lang) (sb.path "run_meta.txt")
      (runCommand sb.javaMainClass lang)
      (sb.commandLine (sb.runArgs timeLimitMs memoryLimitKb lang) "run_meta.txt") := by
  have hoptions := runOptions_isOption sb.boxId timeLimitMs memoryLimitKb lang
  rw [runArgs_eq]
  exact commandLine_invokes hbin hoptions (runCommand_plain hclass lang) rfl

/-- The one command of `execute`. -/
theorem Executed.command {sb : Sandbox} {args : List Bytes} {f : Bytes} {tr : Trace Op.Res}
    {out : Except Abort SandboxResult} (h : Executed sb args f tr out) {cmd : Bytes}
    {ret : Int} (hmem : ⟨.system cmd, ret⟩ ∈ tr) : cmd = sb.commandLine args f := by
  cases h <;> simp at hmem <;> exact hmem.1

theorem Ran.command {sb : Sandbox} {language : Bytes} {timeLimitMs memoryLimitKb : Int}
    {stdinInput : Bytes} {tr : Trace Op.Res} {out : Except Abort SandboxResult}
    (h : Ran sb language timeLimitMs memoryLimitKb stdinInput tr out) {cmd : Bytes} {ret : Int}
    (hmem : ⟨.system cmd, ret⟩ ∈ tr) :
    ∃ lang, languageOf language = some lang ∧
      cmd = sb.commandLine (sb.runArgs timeLimitMs memoryLimitKb lang) "run_meta.txt" := by
  cases h with
  | notWritten => simp at hmem
  | unsupported hw hlang => simp at hmem
  | @executed w lang tr out hw hlang hexec =>
    rcases List.mem_cons.mp hmem with hmem | hmem
    · cases hmem
    · exact ⟨lang, hlang, hexec.command hmem⟩

theorem Compiled.command {sb : Sandbox} {language sourceCode : Bytes} {tr : Trace Op.Res}
    {out : Except Abort (Sandbox × SandboxResult)}
    (h : Compiled sb language sourceCode tr out) {cmd : Bytes} {ret : Int}
    (hmem : ⟨.system cmd, ret⟩ ∈ tr) :
    ∃ lang, languageOf language = some lang ∧
      cmd = sb.commandLine (compileArgs sb.boxId (sourceFile sourceCode lang) lang)
        "compile_meta.txt" := by
  cases h with
  | unsupported hlang => cases hmem
  | noDirs hlang hdirs => exact absurd rfl (hdirs.noCommand _ hmem cmd)
  | notWritten hlang hdirs =>
    rcases List.mem_append.mp hmem with hmem | hmem
    · exact absurd rfl (hdirs.noCommand _ hmem cmd)
    · simp at hmem
  | @thrown lang dirs tr w x hlang hdirs hw hexec =>
    rcases List.mem_append.mp hmem with hmem | hmem
    · exact absurd rfl (hdirs.noCommand _ hmem cmd)
    · rcases List.mem_cons.mp hmem with hmem | hmem
      · cases hmem
      · exact ⟨lang, hlang, hexec.command hmem⟩
  | @executed lang dirs tr tail w result result' hlang hdirs hw hexec htail =>
    rcases List.mem_append.mp hmem with hmem | hmem
    · exact absurd rfl (hdirs.noCommand _ hmem cmd)
    · rcases List.mem_cons.mp hmem with hmem | hmem
      · cases hmem
      · rcases List.mem_append.mp hmem with hmem | hmem
        · exact ⟨lang, hlang, hexec.command hmem⟩
        · exact absurd rfl (htail.noCommand _ hmem cmd)

/-- The class of a Java source is the one its file is named after; the other languages
    use fixed names. -/
theorem Compiled.sameArtifact {sb sb' : Sandbox} {language sourceCode : Bytes}
    {tr : Trace Op.Res} {result : SandboxResult}
    (h : Compiled sb language sourceCode tr (.ok (sb', result))) {lang : Language}
    (hlang : languageOf language = some lang) :
    SameArtifact (sourceFile sourceCode lang) (compileCommand (sourceFile sourceCode lang) lang)
      (runCommand sb'.javaMainClass lang) := by
  have hsb : sb' = sb.setMainClass lang sourceCode := by
    cases h with
    | unsupported hnone =>
      rw [hnone] at hlang
      cases hlang
    | noDirs hsome | notWritten hsome | executed hsome =>
      rw [hsome] at hlang
      cases hlang
      rfl
  subst hsb
  cases lang with
  | cpp =>
    have hsame : SameArtifact "solution.cpp"
        ((["/usr/bin/g++", "-std=c++17", "-O2", "-Wall"] : List Bytes) ++
          (["-o", "solution", "solution.cpp"] : List Bytes)) ["./" ++ "solution"] := .binary
    exact hsame
  | go =>
    have hsame : SameArtifact "main.go"
        ((["/usr/bin/env", "go", "build"] : List Bytes) ++
          (["-o", "solution", "main.go"] : List Bytes)) ["./" ++ "solution"] := .binary
    exact hsame
  | java =>
    have hclass : (sb.setMainClass .java sourceCode).javaMainClass = javaClassName sourceCode := by
      simp [setMainClass]
    rw [hclass, compileCommand_eq]
    have hsame : SameArtifact (javaClassName sourceCode ++ ".java")
        ((compileCommand [] .java).dropLast ++ [javaClassName sourceCode ++ ".java"])
        (((runCommand [] .java).take 11) ++
          (["-cp", ".", javaClassName sourceCode] : List Bytes)) := .mainClass rfl
    exact hsame
  | python => exact .script

/-- No submission can inject anything into a command: the words are those of `compile`
    and `run`, and the program that `run` starts is the one that `compile` has made. -/
theorem commands_split {cfg : IsolateConfig} {sb : Sandbox}
    (hbin : isPlainCommand cfg.binaryPath = true) (hused : Used cfg sb) (language : Bytes) :
    (∀ sourceCode tr out cmd ret, (sb.compile language sourceCode).Runs tr out →
      ⟨.system cmd, ret⟩ ∈ tr →
      ∃ lang, languageOf language = some lang ∧
        Invokes cfg.binaryPath (compileArgs sb.boxId (sourceFile sourceCode lang) lang)
          (sb.path "compile_meta.txt") (compileCommand (sourceFile sourceCode lang) lang) cmd) ∧
    (∀ timeLimitMs memoryLimitKb stdinInput tr out cmd ret,
      (sb.run language timeLimitMs memoryLimitKb stdinInput).Runs tr out →
      ⟨.system cmd, ret⟩ ∈ tr →
      ∃ lang, languageOf language = some lang ∧
        Invokes cfg.binaryPath (sb.runArgs timeLimitMs memoryLimitKb lang)
          (sb.path "run_meta.txt") (runCommand sb.javaMainClass lang) cmd) ∧
    (∀ sourceCode tr sb' result lang,
      (sb.compile language sourceCode).Runs tr (.ok (sb', result)) →
      languageOf language = some lang →
      SameArtifact (sourceFile sourceCode lang)
        (compileCommand (sourceFile sourceCode lang) lang)
        (runCommand sb'.javaMainClass lang)) := by
  obtain ⟨hsame, hclass⟩ := hused.fixed
  rw [← hsame] at hbin ⊢
  refine ⟨?_, ?_, ?_⟩
  · intro sourceCode tr out cmd ret hruns hmem
    obtain ⟨lang, hlang, rfl⟩ := (compile_runs hruns).command hmem
    exact ⟨lang, hlang, compile_invokes hbin sourceCode lang⟩
  · intro timeLimitMs memoryLimitKb stdinInput tr out cmd ret hruns hmem
    obtain ⟨lang, hlang, rfl⟩ := (run_runs hruns).command hmem
    exact ⟨lang, hlang, run_invokes hbin hclass timeLimitMs memoryLimitKb lang⟩
  · intro sourceCode tr sb' result lang hruns hlang
    exact (compile_runs hruns).sameArtifact hlang

/-- A Java source with a shell command behind its class name. -/
def hostileSource : Bytes :=
  "public class A;reboot"

theorem commands_split_hostile :
    ∃ lang, languageOf "java" = some lang ∧
      Invokes "/usr/local/bin/isolate" (compileArgs 1 (sourceFile hostileSource lang) lang)
        (boxPath 1 ++ "compile_meta.txt") (compileCommand (sourceFile hostileSource lang) lang)
        ((make 1 {}).commandLine (compileArgs 1 "A.java" .java) "compile_meta.txt") := by
  have hruns := Prog.runs_trace ((make 1 {}).compile "java" hostileSource)
    (Host.fixed fun _ => none) ()
  have hused : Used {} (make 1 {}) := .make
  have hcommands := (commands_split rfl hused "java").1 hostileSource _ _
    ((make 1 {}).commandLine (compileArgs 1 "A.java" .java) "compile_meta.txt") 0 hruns
  exact hcommands (.tail _ (.head _))

end Sandbox
