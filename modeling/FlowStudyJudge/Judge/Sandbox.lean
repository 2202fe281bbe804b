-- SUMMARY: The sandbox layer: files of a box, isolate command lines, compilation and runs.
import FlowStudyJudge.Host
import FlowStudyJudge.Judge.Meta

/-! # Sandbox

`Sandbox` wraps one isolate box. Its methods write the source and input files,
call isolate through the shell and read the files that isolate leaves in the
box. A method that changes a field of the object returns the changed object. -/

structure IsolateConfig where
  binaryPath : Bytes := "/usr/local/bin/isolate"
  boxIdStart : Int := 1
  numBoxes : Int := 5
  deriving DecidableEq

structure Sandbox where
  boxId : Int
  isolateBin : Bytes
  javaMainClass : Bytes := "Main"

namespace Sandbox

/-- The constructor. -/
def make (boxId : Int) (cfg : IsolateConfig) : Sandbox :=
  { boxId, isolateBin := cfg.binaryPath }

/-- `box_path_` -/
def boxPath (boxId : Int) : Bytes :=
  "/var/local/lib/isolate/" ++ Bytes.ofInt boxId ++ "/box/"

/-- The full path of a file of the box. -/
def path (sb : Sandbox) (filename : Bytes) : Bytes :=
  boxPath sb.boxId ++ filename

/-- The result of a step that fails before isolate is called. -/
def failure (message : Bytes) : SandboxResult :=
  { exitCode := -1, stderrOutput := message, status := "XX" }

/-! ## Files -/

/-- `write_file`. It reports only that the file could not be opened; what became
    of the content is not looked at. -/
def writeFile (sb : Sandbox) (filename content : Bytes) : Comp Bool := do
  match ← Host.ofstream (sb.path filename) content with
  | .refused => return false
  | .truncated | .complete => return true

/-- `read_file`. A file that cannot be opened reads as empty. -/
def readFile (sb : Sandbox) (filename : Bytes) : Comp Bytes := do
  return (← Host.ifstream (sb.path filename) .binary).getD []

/-! ## Commands -/

/-- The arguments of the command line, each behind a blank. The meta option goes
    in front of the first `--run`, or to the end when there is none. -/
def joinArgs (metaPath : Bytes) : List Bytes → Bool → Bytes
  | [], metaAdded => if metaAdded then [] else " --meta=" ++ metaPath
  | a :: rest, metaAdded =>
    if !metaAdded ∧ a = "--run" then
      " --meta=" ++ metaPath ++ " " ++ a ++ joinArgs metaPath rest true
    else " " ++ a ++ joinArgs metaPath rest metaAdded

def commandLine (sb : Sandbox) (args : List Bytes) (metaFilename : Bytes) : Bytes :=
  sb.isolateBin ++ joinArgs (sb.path metaFilename) args false

def execute (sb : Sandbox) (args : List Bytes) (metaFilename : Bytes) :
    Comp SandboxResult := do
  let ret ← Host.system (sb.commandLine args metaFilename)
  if ret = -1 then
    return failure "Failed to execute isolate binary"
  let metaPath := sb.path metaFilename
  let result ← Prog.ofExcept .thrown (parseMeta metaPath (← Host.ifstream metaPath .text))
  let stdoutOutput ← sb.readFile "output.txt"
  let stderrOutput ← sb.readFile "error.txt"
  return { result with stdoutOutput, stderrOutput }

/-! ## Languages -/

def normalizeLanguage (language : Bytes) : Bytes :=
  let normalized := language.map Bytes.toLower
  if normalized = "c++" then "cpp"
  else if normalized = "py" then "python"
  else normalized

inductive Language where
  | cpp
  | java
  | python
  | go
  deriving DecidableEq, Repr

/-- The comparisons of a normalized language in `compile` and `run`. -/
def Language.ofNormalized (normalized : Bytes) : Option Language :=
  if normalized = "cpp" then some .cpp
  else if normalized = "java" then some .java
  else if normalized = "python" then some .python
  else if normalized = "go" then some .go
  else none

/-- The language that a language string of a message selects. -/
def languageOf (language : Bytes) : Option Language :=
  Language.ofNormalized (normalizeLanguage language)

/-- The text behind the first occurrence of `marker`. -/
def findAfter (marker : Bytes) : Bytes → Option Bytes
  | [] => if marker = [] then some [] else none
  | b :: bs =>
    if marker.isPrefixOf (b :: bs) then some ((b :: bs).drop marker.length)
    else findAfter marker bs

def isClassNameChar (c : UInt8) : Bool :=
  Bytes.isAlnum c || c == '_'.toUInt8

def javaClassName (sourceCode : Bytes) : Bytes :=
  match findAfter "public class " sourceCode with
  | none => "Main"
  | some rest =>
    let className := (rest.dropWhile Bytes.isSpace).takeWhile isClassNameChar
    if className = [] then "Main" else className

/-! ## Compilation -/

def boxOption (boxId : Int) : Bytes :=
  "--box-id=" ++ Bytes.ofInt boxId

def compileArgs (boxId : Int) (sourceFile : Bytes) : Language → List Bytes
  | .cpp =>
    [boxOption boxId, "--env=PATH=/usr/bin:/bin", "--processes=50", "--wall-time=30",
      "--stderr=error.txt", "--run", "--", "/usr/bin/g++", "-std=c++17", "-O2", "-Wall",
      "-o", "solution", sourceFile]
  | .java =>
    [boxOption boxId, "--env=PATH=/usr/bin:/bin", "--dir=/etc/alternatives",
      "--dir=/etc/java-17-openjdk", "--dir=/usr/lib/jvm", "--processes=256",
      "--mem=2097152", "--wall-time=30", "--stderr=error.txt", "--run", "--",
      "/usr/bin/javac", "-J-Xms16m", "-J-Xmx128m", "-J-Xss256k", "-J-Xint",
      "-J-XX:+UseSerialGC", "-J-XX:ActiveProcessorCount=1",
      "-J-XX:-UseCompressedOops", "-J-XX:-UseCompressedClassPointers",
      "-J-XX:ReservedCodeCacheSize=32m", "-J-XX:MaxMetaspaceSize=128m", sourceFile]
  | .python =>
    [boxOption boxId, "--env=PATH=/usr/bin:/bin", "--processes=20", "--wall-time=10",
      "--stderr=error.txt", "--run", "--", "/usr/bin/python3", "-m", "py_compile",
      sourceFile]
  | .go =>
    [boxOption boxId, "--env=PATH=/usr/local/go/bin:/usr/bin:/bin",
      "--env=GOCACHE=/tmp/go-cache", "--processes=50", "--wall-time=30",
      "--stderr=error.txt", "--run", "--", "/usr/bin/env", "go", "build", "-o",
      "solution", sourceFile]

/-- The file the source is written to. For Java it carries the class name. -/
def sourceFile (sourceCode : Bytes) : Language → Bytes
  | .cpp => "solution.cpp"
  | .java => javaClassName sourceCode ++ ".java"
  | .python => "solution.py"
  | .go => "main.go"

/-- The directories that only Go needs; an error is the message of the failure. -/
def makeDirs (sb : Sandbox) : Language → Comp (Option Bytes)
  | .cpp | .java | .python => return none
  | .go => do
    let tmpPath := sb.path "tmp"
    if (← Host.mkdir tmpPath) = .failed then
      return some "Failed to create Go temp directory"
    if (← Host.mkdir (tmpPath ++ "/go-cache")) = .failed then
      return some "Failed to create Go build cache directory"
    return none

/-- The end of `compile`, common to all languages: write the source, call the
    compiler, and fall back on `error.txt` for its messages. -/
def compileSource (sb : Sandbox) (lang : Language) (sourceCode : Bytes) :
    Comp SandboxResult := do
  let file := sourceFile sourceCode lang
  if !(← sb.writeFile file sourceCode) then
    return failure ("Failed to write source file: " ++ file)
  let result ← sb.execute (compileArgs sb.boxId file lang) "compile_meta.txt"
  if result.stderrOutput = [] then
    return { result with stderrOutput := ← sb.readFile "error.txt" }
  return result

/-- `java_main_class_` after `compile` has chosen the language. -/
def setMainClass (sb : Sandbox) (lang : Language) (sourceCode : Bytes) : Sandbox :=
  if lang = .java then { sb with javaMainClass := javaClassName sourceCode } else sb

def compile (sb : Sandbox) (language sourceCode : Bytes) :
    Comp (Sandbox × SandboxResult) := do
  match languageOf language with
  | none => return (sb, failure ("Unsupported language: " ++ language))
  | some lang =>
    let sb := sb.setMainClass lang sourceCode
    match ← sb.makeDirs lang with
    | some message => return (sb, failure message)
    | none => return (sb, ← sb.compileSource lang sourceCode)

/-! ## Runs -/

/-- `wall_time` in milliseconds: `max(5.0, time_limit_ms / 1000.0 * 2.0)` seconds. -/
def wallTimeMs (timeLimitMs : Int) : Int :=
  max 5000 (2 * timeLimitMs)

/-- `std::to_string` of a number of seconds: six decimals. The milliseconds take
    three; the error of the double they are computed in is far below the sixth. -/
def secondsToBytes (ms : Int) : Bytes :=
  Bytes.ofInt (ms / 1000) ++ "." ++ Bytes.ofInt (ms / 100 % 10) ++
    Bytes.ofInt (ms / 10 % 10) ++ Bytes.ofInt (ms % 10) ++ "000"

def wallTimeOption (timeLimitMs : Int) : Bytes :=
  "--wall-time=" ++ secondsToBytes (wallTimeMs timeLimitMs)

def runCommand (javaMainClass : Bytes) : Language → List Bytes
  | .cpp | .go => ["./solution"]
  | .java =>
    ["/usr/bin/java", "-Xms16m", "-Xmx128m", "-Xss256k", "-Xint", "-XX:+UseSerialGC",
      "-XX:ActiveProcessorCount=1", "-XX:-UseCompressedOops",
      "-XX:-UseCompressedClassPointers", "-XX:ReservedCodeCacheSize=32m",
      "-XX:MaxMetaspaceSize=128m", "-cp", ".", javaMainClass]
  | .python => ["/usr/bin/python3", "solution.py"]

def processLimit : Language → Bytes
  | .cpp => "1"
  | .java => "256"
  | .python | .go => "64"

def isolateMemoryKb (memoryLimitKb : Int) : Language → Int
  | .java => max memoryLimitKb 2097152
  | .cpp | .python | .go => memoryLimitKb

/-- The directories that `run` opens to the program, inserted in front of `--mem`. -/
def runDirs : Language → List Bytes
  | .java => ["--dir=/etc/alternatives", "--dir=/etc/java-17-openjdk", "--dir=/usr/lib/jvm"]
  | .cpp | .python | .go => []

def runArgs (sb : Sandbox) (timeLimitMs memoryLimitKb : Int) (lang : Language) : List Bytes :=
  [boxOption sb.boxId, "--env=PATH=/usr/local/go/bin:/usr/bin:/bin",
    "--processes=" ++ processLimit lang] ++
  runDirs lang ++
  ["--mem=" ++ Bytes.ofInt (isolateMemoryKb memoryLimitKb lang), wallTimeOption timeLimitMs,
    "--stdin=input.txt", "--stdout=output.txt", "--stderr=error.txt", "--run", "--"] ++
  runCommand sb.javaMainClass lang

def run (sb : Sandbox) (language : Bytes) (timeLimitMs memoryLimitKb : Int)
    (stdinInput : Bytes) : Comp SandboxResult := do
  if !(← sb.writeFile "input.txt" stdinInput) then
    return failure "Failed to write input file"
  match languageOf language with
  | none => return failure ("Unsupported language: " ++ language)
  | some lang =>
    let result ← sb.execute (sb.runArgs timeLimitMs memoryLimitKb lang) "run_meta.txt"
    return { result with timedOut := decide (result.status = "TO") }

/-- The files of box 1 as isolate may leave them: the two meta files, the output of
    the program, and an empty `error.txt`. -/
def boxFiles (compileMeta runMeta output : Bytes) (path : Bytes) : Option Bytes :=
  if path = boxPath 1 ++ "compile_meta.txt" then some compileMeta
  else if path = boxPath 1 ++ "run_meta.txt" then some runMeta
  else if path = boxPath 1 ++ "output.txt" then some output
  else if path = boxPath 1 ++ "error.txt" then some []
  else none

end Sandbox
