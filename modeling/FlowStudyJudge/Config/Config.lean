-- SUMMARY: The configuration: its sections with their defaults, and `load_config`.
import FlowStudyJudge.Judge.Sandbox
import FlowStudyJudge.Judge.Format

/-! # Configuration

`load_config` starts from the defaults of the structures and overwrites the fields that
the file has. -/

structure RabbitMQConfig where
  hostname : Bytes := "127.0.0.1"
  port : Int := 5672
  vhost : Bytes := "/"
  username : Bytes := "judge"
  password : Bytes := "judge_pass"
  queueName : Bytes := "submission_queue"
  deriving DecidableEq

structure MySQLConfig where
  hostname : Bytes := "127.0.0.1"
  port : Int := 3306
  username : Bytes := "root"
  password : Bytes := ""
  database : Bytes := "flowstudy"
  deriving DecidableEq

structure JudgeConfig where
  concurrency : Int := 1
  deriving DecidableEq

structure AppConfig where
  rabbitmq : RabbitMQConfig := {}
  mysql : MySQLConfig := {}
  isolate : IsolateConfig := {}
  judge : JudgeConfig := {}
  deriving DecidableEq

namespace AppConfig

open Json

/-! ## Reading -/

/-- `if (j.contains(key)) current = j[key];`. Only an object contains anything. -/
def field {α : Type} (j : Json) (key : Bytes) (get : Json → Except JsonException α)
    (current : α) : Except JsonException α :=
  match j.lookup key with
  | some v => get v
  | none => .ok current

def readRabbitmq (cfg : RabbitMQConfig) (r : Json) : Except JsonException RabbitMQConfig := do
  let hostname ← field r "hostname" getString cfg.hostname
  let port ← field r "port" getInt cfg.port
  let vhost ← field r "vhost" getString cfg.vhost
  let username ← field r "username" getString cfg.username
  let password ← field r "password" getString cfg.password
  let queueName ← field r "queue_name" getString cfg.queueName
  return { hostname, port, vhost, username, password, queueName }

def readMysql (cfg : MySQLConfig) (m : Json) : Except JsonException MySQLConfig := do
  let hostname ← field m "hostname" getString cfg.hostname
  let port ← field m "port" getInt cfg.port
  let username ← field m "username" getString cfg.username
  let password ← field m "password" getString cfg.password
  let database ← field m "database" getString cfg.database
  return { hostname, port, username, password, database }

def readIsolate (cfg : IsolateConfig) (i : Json) : Except JsonException IsolateConfig := do
  let binaryPath ← field i "binary_path" getString cfg.binaryPath
  let boxIdStart ← field i "box_id_start" getInt cfg.boxIdStart
  let numBoxes ← field i "num_boxes" getInt cfg.numBoxes
  return { binaryPath, boxIdStart, numBoxes }

def readJudge (cfg : JudgeConfig) (jd : Json) : Except JsonException JudgeConfig := do
  let concurrency ← field jd "concurrency" getInt cfg.concurrency
  return { concurrency }

/-- The body of the `try` block of `load_config`, on the parsed file. -/
def read (j : Json) : Except JsonException AppConfig := do
  let cfg : AppConfig := {}
  let rabbitmq ← field j "rabbitmq" (readRabbitmq cfg.rabbitmq) cfg.rabbitmq
  let mysql ← field j "mysql" (readMysql cfg.mysql) cfg.mysql
  let isolate ← field j "isolate" (readIsolate cfg.isolate) cfg.isolate
  let judge ← field j "judge" (readJudge cfg.judge) cfg.judge
  return { rabbitmq, mysql, isolate, judge }

/-- `load_config`, from the content of the file, if it can be opened. -/
def load (parse : Bytes → Option Json) (file : Option Bytes) : Option AppConfig :=
  match file.bind parse with
  | none => none
  | some j =>
    match read j with
    | .ok cfg => some cfg
    | .error _ => none

/-! ## What is accepted -/

/-- The value of a key of a section. -/
def entry (j : Json) (section_ key : Bytes) : Option Json :=
  (j.lookup section_).bind (·.lookup key)

/-- The field has the value of its key where the file has the key, and its default
    otherwise. -/
def Sets {α : Type} (j : Json) (section_ key : Bytes) (get : Json → Except JsonException α)
    (default value : α) : Prop :=
  match entry j section_ key with
  | some v => get v = .ok value
  | none => value = default

/-- What a file has to do with the configuration that is read from it. -/
structure Configures (j : Json) (cfg : AppConfig) : Prop where
  rabbitmqHostname : Sets j "rabbitmq" "hostname" getString "127.0.0.1" cfg.rabbitmq.hostname
  rabbitmqPort : Sets j "rabbitmq" "port" getInt 5672 cfg.rabbitmq.port
  vhost : Sets j "rabbitmq" "vhost" getString "/" cfg.rabbitmq.vhost
  rabbitmqUsername : Sets j "rabbitmq" "username" getString "judge" cfg.rabbitmq.username
  rabbitmqPassword : Sets j "rabbitmq" "password" getString "judge_pass" cfg.rabbitmq.password
  queueName : Sets j "rabbitmq" "queue_name" getString "submission_queue" cfg.rabbitmq.queueName
  mysqlHostname : Sets j "mysql" "hostname" getString "127.0.0.1" cfg.mysql.hostname
  mysqlPort : Sets j "mysql" "port" getInt 3306 cfg.mysql.port
  mysqlUsername : Sets j "mysql" "username" getString "root" cfg.mysql.username
  mysqlPassword : Sets j "mysql" "password" getString "" cfg.mysql.password
  database : Sets j "mysql" "database" getString "flowstudy" cfg.mysql.database
  binaryPath : Sets j "isolate" "binary_path" getString "/usr/local/bin/isolate"
    cfg.isolate.binaryPath
  boxIdStart : Sets j "isolate" "box_id_start" getInt 1 cfg.isolate.boxIdStart
  numBoxes : Sets j "isolate" "num_boxes" getInt 5 cfg.isolate.numBoxes
  concurrency : Sets j "judge" "concurrency" getInt 1 cfg.judge.concurrency

section

variable {α : Type} {j : Json} {section_ key : Bytes} {get : Json → Except JsonException α}

theorem field_eq_ok {current a : α} : field j key get current = .ok a ↔
    (∃ v, j.lookup key = some v ∧ get v = .ok a) ∨ j.lookup key = none ∧ a = current := by
  unfold field
  cases j.lookup key <;> simp [eq_comm]

theorem sets_of_lookup {s : Json} {default value : α} (h : j.lookup section_ = some s) :
    Sets j section_ key get default value ↔ field s key get default = .ok value := by
  simp only [Sets, entry, h, Option.bind_some, field]
  cases s.lookup key <;> simp [eq_comm]

theorem sets_of_none {default value : α} (h : j.lookup section_ = none) :
    Sets j section_ key get default value ↔ value = default := by
  simp [Sets, entry, h]

end

/-! The sections, one by one. -/

theorem readRabbitmq_eq_ok {cfg c : RabbitMQConfig} {r : Json} : readRabbitmq cfg r = .ok c ↔
    field r "hostname" getString cfg.hostname = .ok c.hostname ∧
    field r "port" getInt cfg.port = .ok c.port ∧
    field r "vhost" getString cfg.vhost = .ok c.vhost ∧
    field r "username" getString cfg.username = .ok c.username ∧
    field r "password" getString cfg.password = .ok c.password ∧
    field r "queue_name" getString cfg.queueName = .ok c.queueName := by
  simp only [readRabbitmq, bind_eq_ok, pure, Except.pure, Except.ok.injEq]
  constructor
  · rintro ⟨hostname, h₁, port, h₂, vhost, h₃, username, h₄, password, h₅, queueName, h₆, rfl⟩
    exact ⟨h₁, h₂, h₃, h₄, h₅, h₆⟩
  · rintro ⟨h₁, h₂, h₃, h₄, h₅, h₆⟩
    exact ⟨_, h₁, _, h₂, _, h₃, _, h₄, _, h₅, _, h₆, rfl⟩

theorem readMysql_eq_ok {cfg c : MySQLConfig} {m : Json} : readMysql cfg m = .ok c ↔
    field m "hostname" getString cfg.hostname = .ok c.hostname ∧
    field m "port" getInt cfg.port = .ok c.port ∧
    field m "username" getString cfg.username = .ok c.username ∧
    field m "password" getString cfg.password = .ok c.password ∧
    field m "database" getString cfg.database = .ok c.database := by
  simp only [readMysql, bind_eq_ok, pure, Except.pure, Except.ok.injEq]
  constructor
  · rintro ⟨hostname, h₁, port, h₂, username, h₃, password, h₄, database, h₅, rfl⟩
    exact ⟨h₁, h₂, h₃, h₄, h₅⟩
  · rintro ⟨h₁, h₂, h₃, h₄, h₅⟩
    exact ⟨_, h₁, _, h₂, _, h₃, _, h₄, _, h₅, rfl⟩

theorem readIsolate_eq_ok {cfg c : IsolateConfig} {i : Json} : readIsolate cfg i = .ok c ↔
    field i "binary_path" getString cfg.binaryPath = .ok c.binaryPath ∧
    field i "box_id_start" getInt cfg.boxIdStart = .ok c.boxIdStart ∧
    field i "num_boxes" getInt cfg.numBoxes = .ok c.numBoxes := by
  simp only [readIsolate, bind_eq_ok, pure, Except.pure, Except.ok.injEq]
  constructor
  · rintro ⟨binaryPath, h₁, boxIdStart, h₂, numBoxes, h₃, rfl⟩
    exact ⟨h₁, h₂, h₃⟩
  · rintro ⟨h₁, h₂, h₃⟩
    exact ⟨_, h₁, _, h₂, _, h₃, rfl⟩

theorem readJudge_eq_ok {cfg c : JudgeConfig} {jd : Json} : readJudge cfg jd = .ok c ↔
    field jd "concurrency" getInt cfg.concurrency = .ok c.concurrency := by
  simp only [readJudge, bind_eq_ok, pure, Except.pure, Except.ok.injEq]
  constructor
  · rintro ⟨concurrency, h₁, rfl⟩
    exact h₁
  · intro h₁
    exact ⟨_, h₁, rfl⟩

/-- A section as a whole: `fields` says what its keys set. -/
theorem section_eq_ok {α : Type} {j : Json} {section_ : Bytes}
    {read : Json → Except JsonException α} {current c : α} {fields : Prop}
    (hread : ∀ s, j.lookup section_ = some s → (read s = .ok c ↔ fields))
    (habsent : j.lookup section_ = none → (c = current ↔ fields)) :
    field j section_ read current = .ok c ↔ fields := by
  rw [field_eq_ok]
  cases hlookup : j.lookup section_ with
  | none => simp [habsent hlookup]
  | some s => simp [hread s hlookup]

theorem rabbitmq_eq_ok {j : Json} {c : RabbitMQConfig} :
    field j "rabbitmq" (readRabbitmq {}) {} = .ok c ↔
      Sets j "rabbitmq" "hostname" getString "127.0.0.1" c.hostname ∧
      Sets j "rabbitmq" "port" getInt 5672 c.port ∧
      Sets j "rabbitmq" "vhost" getString "/" c.vhost ∧
      Sets j "rabbitmq" "username" getString "judge" c.username ∧
      Sets j "rabbitmq" "password" getString "judge_pass" c.password ∧
      Sets j "rabbitmq" "queue_name" getString "submission_queue" c.queueName := by
  apply section_eq_ok
  · intro r h
    simp only [sets_of_lookup h]
    exact readRabbitmq_eq_ok
  · intro h
    simp only [sets_of_none h]
    cases c
    simp only [RabbitMQConfig.mk.injEq]

theorem mysql_eq_ok {j : Json} {c : MySQLConfig} :
    field j "mysql" (readMysql {}) {} = .ok c ↔
      Sets j "mysql" "hostname" getString "127.0.0.1" c.hostname ∧
      Sets j "mysql" "port" getInt 3306 c.port ∧
      Sets j "mysql" "username" getString "root" c.username ∧
      Sets j "mysql" "password" getString "" c.password ∧
      Sets j "mysql" "database" getString "flowstudy" c.database := by
  apply section_eq_ok
  · intro m h
    simp only [sets_of_lookup h]
    exact readMysql_eq_ok
  · intro h
    simp only [sets_of_none h]
    cases c
    simp only [MySQLConfig.mk.injEq]

theorem isolate_eq_ok {j : Json} {c : IsolateConfig} :
    field j "isolate" (readIsolate {}) {} = .ok c ↔
      Sets j "isolate" "binary_path" getString "/usr/local/bin/isolate" c.binaryPath ∧
      Sets j "isolate" "box_id_start" getInt 1 c.boxIdStart ∧
      Sets j "isolate" "num_boxes" getInt 5 c.numBoxes := by
  apply section_eq_ok
  · intro i h
    simp only [sets_of_lookup h]
    exact readIsolate_eq_ok
  · intro h
    simp only [sets_of_none h]
    cases c
    simp only [IsolateConfig.mk.injEq]

theorem judge_eq_ok {j : Json} {c : JudgeConfig} :
    field j "judge" (readJudge {}) {} = .ok c ↔
      Sets j "judge" "concurrency" getInt 1 c.concurrency := by
  apply section_eq_ok
  · intro jd h
    simp only [sets_of_lookup h]
    exact readJudge_eq_ok
  · intro h
    simp only [sets_of_none h]
    cases c
    simp only [JudgeConfig.mk.injEq]

/-- `load_config` sets every field from its own key and from nothing else, and refuses a
    file exactly when one of these does not convert. -/
theorem read_eq_ok {j : Json} {cfg : AppConfig} : read j = .ok cfg ↔ Configures j cfg := by
  simp only [read, bind_eq_ok, pure, Except.pure, Except.ok.injEq]
  constructor
  · rintro ⟨rabbitmq, h₁, mysql, h₂, isolate, h₃, judge, h₄, rfl⟩
    obtain ⟨rHostname, rPort, vhost, rUsername, rPassword, queueName⟩ := rabbitmq_eq_ok.mp h₁
    obtain ⟨mHostname, mPort, mUsername, mPassword, database⟩ := mysql_eq_ok.mp h₂
    obtain ⟨binaryPath, boxIdStart, numBoxes⟩ := isolate_eq_ok.mp h₃
    exact ⟨rHostname, rPort, vhost, rUsername, rPassword, queueName, mHostname, mPort, mUsername,
      mPassword, database, binaryPath, boxIdStart, numBoxes, judge_eq_ok.mp h₄⟩
  · intro h
    have h₁ := rabbitmq_eq_ok.mpr ⟨h.rabbitmqHostname, h.rabbitmqPort, h.vhost,
      h.rabbitmqUsername, h.rabbitmqPassword, h.queueName⟩
    have h₂ := mysql_eq_ok.mpr ⟨h.mysqlHostname, h.mysqlPort, h.mysqlUsername, h.mysqlPassword,
      h.database⟩
    have h₃ := isolate_eq_ok.mpr ⟨h.binaryPath, h.boxIdStart, h.numBoxes⟩
    exact ⟨cfg.rabbitmq, h₁, cfg.mysql, h₂, cfg.isolate, h₃, cfg.judge,
      judge_eq_ok.mpr h.concurrency, rfl⟩

theorem load_eq_some {parse : Bytes → Option Json} {file : Option Bytes} {cfg : AppConfig} :
    load parse file = some cfg ↔
      ∃ content j, file = some content ∧ parse content = some j ∧ Configures j cfg := by
  simp only [← read_eq_ok, load]
  cases file with
  | none => simp
  | some content =>
    cases hparse : parse content with
    | none => simp [hparse]
    | some j => cases hread : read j <;> simp [hparse, hread]

/-! The keys of the file, with the values that their fields can be set from. -/

def settings : List (Bytes × Bytes × (Json → Bool)) :=
  [("rabbitmq", "hostname", isString), ("rabbitmq", "port", isArithmetic),
    ("rabbitmq", "vhost", isString), ("rabbitmq", "username", isString),
    ("rabbitmq", "password", isString), ("rabbitmq", "queue_name", isString),
    ("mysql", "hostname", isString), ("mysql", "port", isArithmetic),
    ("mysql", "username", isString), ("mysql", "password", isString),
    ("mysql", "database", isString), ("isolate", "binary_path", isString),
    ("isolate", "box_id_start", isArithmetic), ("isolate", "num_boxes", isArithmetic),
    ("judge", "concurrency", isArithmetic)]

/-- A field can be set unless its key is there with a value that does not convert. -/
theorem exists_sets {α : Type} {j : Json} {section_ key : Bytes}
    {get : Json → Except JsonException α} {kind : Json → Bool} (hget : Converts get kind)
    (default : α) : (∃ value, Sets j section_ key get default value) ↔
      ∀ v, entry j section_ key = some v → kind v = true := by
  unfold Sets
  cases entry j section_ key with
  | none => simp
  | some v => simp [hget v]

/-- A file is refused when and only when a key that the configuration knows has a value of
    another kind; everything else in it is ignored. -/
theorem load_isSome_iff {parse : Bytes → Option Json} {file : Option Bytes} :
    (load parse file).isSome = true ↔
      ∃ content j, file = some content ∧ parse content = some j ∧
        ∀ s ∈ settings, ∀ v, entry j s.1 s.2.1 = some v → s.2.2 v = true := by
  simp only [Option.isSome_iff_exists, load_eq_some]
  constructor
  · rintro ⟨cfg, content, j, hfile, hparse, h⟩
    refine ⟨content, j, hfile, hparse, ?_⟩
    have hstring {section_ key default value : Bytes}
        (hsets : Sets j section_ key getString default value) :=
      (exists_sets getString_converts default).mp ⟨value, hsets⟩
    have hint {section_ key : Bytes} {default value : Int}
        (hsets : Sets j section_ key getInt default value) :=
      (exists_sets getInt_converts default).mp ⟨value, hsets⟩
    simp only [settings, List.forall_mem_cons]
    exact ⟨hstring h.rabbitmqHostname, hint h.rabbitmqPort, hstring h.vhost,
      hstring h.rabbitmqUsername, hstring h.rabbitmqPassword, hstring h.queueName,
      hstring h.mysqlHostname, hint h.mysqlPort, hstring h.mysqlUsername,
      hstring h.mysqlPassword, hstring h.database, hstring h.binaryPath, hint h.boxIdStart,
      hint h.numBoxes, hint h.concurrency, by simp⟩
  · rintro ⟨content, j, hfile, hparse, h⟩
    simp only [settings, List.forall_mem_cons] at h
    obtain ⟨h₁, h₂, h₃, h₄, h₅, h₆, h₇, h₈, h₉, h₁₀, h₁₁, h₁₂, h₁₃, h₁₄, h₁₅, -⟩ := h
    have hstring {section_ key : Bytes} (default : Bytes)
        (hkind : ∀ v, entry j section_ key = some v → isString v = true) :=
      (exists_sets getString_converts default).mpr hkind
    have hint {section_ key : Bytes} (default : Int)
        (hkind : ∀ v, entry j section_ key = some v → isArithmetic v = true) :=
      (exists_sets getInt_converts default).mpr hkind
    obtain ⟨rHostname, h₁⟩ := hstring "127.0.0.1" h₁
    obtain ⟨rPort, h₂⟩ := hint 5672 h₂
    obtain ⟨vhost, h₃⟩ := hstring "/" h₃
    obtain ⟨rUsername, h₄⟩ := hstring "judge" h₄
    obtain ⟨rPassword, h₅⟩ := hstring "judge_pass" h₅
    obtain ⟨queueName, h₆⟩ := hstring "submission_queue" h₆
    obtain ⟨mHostname, h₇⟩ := hstring "127.0.0.1" h₇
    obtain ⟨mPort, h₈⟩ := hint 3306 h₈
    obtain ⟨mUsername, h₉⟩ := hstring "root" h₉
    obtain ⟨mPassword, h₁₀⟩ := hstring "" h₁₀
    obtain ⟨database, h₁₁⟩ := hstring "flowstudy" h₁₁
    obtain ⟨binaryPath, h₁₂⟩ := hstring "/usr/local/bin/isolate" h₁₂
    obtain ⟨boxIdStart, h₁₃⟩ := hint 1 h₁₃
    obtain ⟨numBoxes, h₁₄⟩ := hint 5 h₁₄
    obtain ⟨concurrency, h₁₅⟩ := hint 1 h₁₅
    let cfg : AppConfig :=
      { rabbitmq := ⟨rHostname, rPort, vhost, rUsername, rPassword, queueName⟩
        mysql := ⟨mHostname, mPort, mUsername, mPassword, database⟩
        isolate := ⟨binaryPath, boxIdStart, numBoxes⟩
        judge := ⟨concurrency⟩ }
    exact ⟨cfg, content, j, hfile, hparse,
      ⟨h₁, h₂, h₃, h₄, h₅, h₆, h₇, h₈, h₉, h₁₀, h₁₁, h₁₂, h₁₃, h₁₄, h₁₅⟩⟩

/-! ## Round trip -/

/-- The sections of a file that sets everything. -/
def sections (cfg : AppConfig) : List (Bytes × List (Bytes × Json)) :=
  [("rabbitmq",
      [("hostname", .string cfg.rabbitmq.hostname), ("port", .integer cfg.rabbitmq.port),
        ("vhost", .string cfg.rabbitmq.vhost), ("username", .string cfg.rabbitmq.username),
        ("password", .string cfg.rabbitmq.password),
        ("queue_name", .string cfg.rabbitmq.queueName)]),
    ("mysql",
      [("hostname", .string cfg.mysql.hostname), ("port", .integer cfg.mysql.port),
        ("username", .string cfg.mysql.username), ("password", .string cfg.mysql.password),
        ("database", .string cfg.mysql.database)]),
    ("isolate",
      [("binary_path", .string cfg.isolate.binaryPath),
        ("box_id_start", .integer cfg.isolate.boxIdStart),
        ("num_boxes", .integer cfg.isolate.numBoxes)]),
    ("judge", [("concurrency", .integer cfg.judge.concurrency)])]

/-- A file with the keys that `keep` selects. -/
def toJson (keep : Bytes → Bytes → Bool) (cfg : AppConfig) : Json :=
  .object (cfg.sections.map fun s => (s.1, .object (s.2.filter fun f => keep s.1 f.1)))

/-- The configuration with the defaults for the keys that `keep` does not select. -/
def restrict (keep : Bytes → Bytes → Bool) (cfg : AppConfig) : AppConfig :=
  let pick {α : Type} (section_ key : Bytes) (value default : α) : α :=
    if keep section_ key then value else default
  { rabbitmq :=
      { hostname := pick "rabbitmq" "hostname" cfg.rabbitmq.hostname "127.0.0.1"
        port := pick "rabbitmq" "port" cfg.rabbitmq.port 5672
        vhost := pick "rabbitmq" "vhost" cfg.rabbitmq.vhost "/"
        username := pick "rabbitmq" "username" cfg.rabbitmq.username "judge"
        password := pick "rabbitmq" "password" cfg.rabbitmq.password "judge_pass"
        queueName := pick "rabbitmq" "queue_name" cfg.rabbitmq.queueName "submission_queue" }
    mysql :=
      { hostname := pick "mysql" "hostname" cfg.mysql.hostname "127.0.0.1"
        port := pick "mysql" "port" cfg.mysql.port 3306
        username := pick "mysql" "username" cfg.mysql.username "root"
        password := pick "mysql" "password" cfg.mysql.password ""
        database := pick "mysql" "database" cfg.mysql.database "flowstudy" }
    isolate :=
      { binaryPath := pick "isolate" "binary_path" cfg.isolate.binaryPath "/usr/local/bin/isolate"
        boxIdStart := pick "isolate" "box_id_start" cfg.isolate.boxIdStart 1
        numBoxes := pick "isolate" "num_boxes" cfg.isolate.numBoxes 5 }
    judge := { concurrency := pick "judge" "concurrency" cfg.judge.concurrency 1 } }

/-- The numbers are in the range of `int`. -/
structure Ranged (cfg : AppConfig) : Prop where
  rabbitmqPort : Bytes.intMin ≤ cfg.rabbitmq.port ∧ cfg.rabbitmq.port ≤ Bytes.intMax
  mysqlPort : Bytes.intMin ≤ cfg.mysql.port ∧ cfg.mysql.port ≤ Bytes.intMax
  boxIdStart : Bytes.intMin ≤ cfg.isolate.boxIdStart ∧ cfg.isolate.boxIdStart ≤ Bytes.intMax
  numBoxes : Bytes.intMin ≤ cfg.isolate.numBoxes ∧ cfg.isolate.numBoxes ≤ Bytes.intMax
  concurrency : Bytes.intMin ≤ cfg.judge.concurrency ∧ cfg.judge.concurrency ≤ Bytes.intMax

theorem sections_nodup (cfg : AppConfig) : (cfg.sections.map (·.1)).Nodup := by
  have hkeys : cfg.sections.map (·.1) = ["rabbitmq", "mysql", "isolate", "judge"] := rfl
  rw [hkeys]
  decide

theorem keys_nodup (cfg : AppConfig) : ∀ s ∈ cfg.sections, (s.2.map (·.1)).Nodup := by
  simp only [sections, List.forall_mem_cons, List.map_cons, List.map_nil, List.not_mem_nil,
    false_implies, implies_true, and_true]
  decide

theorem entry_toJson {keep : Bytes → Bytes → Bool} {cfg : AppConfig} {section_ key : Bytes}
    {fields : List (Bytes × Json)} {v : Json} (hsection : (section_, fields) ∈ cfg.sections)
    (hfield : (key, v) ∈ fields) : entry (cfg.toJson keep) section_ key =
      if keep section_ key then some v else none := by
  have hlookup : (cfg.toJson keep).lookup section_ =
      some (.object (fields.filter fun f => keep section_ f.1)) := by
    apply lookup_of_mem
    · rw [List.map_map]
      exact sections_nodup cfg
    · exact List.mem_map.mpr ⟨_, hsection, rfl⟩
  rw [entry, hlookup, Option.bind_some]
  exact lookup_filter (keys_nodup cfg _ hsection) hfield

theorem sets_of_entry {α : Type} {j v : Json} {section_ key : Bytes}
    {get : Json → Except JsonException α} {default value : α} {keep : Bool}
    (hentry : entry j section_ key = if keep then some v else none) (hget : get v = .ok value) :
    Sets j section_ key get default (if keep then value else default) := by
  unfold Sets
  rw [hentry]
  cases keep
  · rfl
  · exact hget

theorem configures_toJson (keep : Bytes → Bytes → Bool) {cfg : AppConfig} (h : cfg.Ranged) :
    Configures (cfg.toJson keep) (cfg.restrict keep) := by
  have hstring {section_ key value default : Bytes} {fields : List (Bytes × Json)}
      (hsection : (section_, fields) ∈ cfg.sections) (hfield : (key, .string value) ∈ fields) :
      Sets (cfg.toJson keep) section_ key getString default
        (if keep section_ key then value else default) :=
    sets_of_entry (entry_toJson hsection hfield) rfl
  have hint {section_ key : Bytes} {value default : Int} {fields : List (Bytes × Json)}
      (hrange : Bytes.intMin ≤ value ∧ value ≤ Bytes.intMax)
      (hsection : (section_, fields) ∈ cfg.sections) (hfield : (key, .integer value) ∈ fields) :
      Sets (cfg.toJson keep) section_ key getInt default
        (if keep section_ key then value else default) :=
    sets_of_entry (v := .integer value) (entry_toJson hsection hfield)
      (congrArg Except.ok (castInt_of_bounds hrange))
  have hrabbitmq : _ ∈ cfg.sections := .head _
  have hmysql : _ ∈ cfg.sections := .tail _ (.head _)
  have hisolate : _ ∈ cfg.sections := .tail _ (.tail _ (.head _))
  have hjudge : _ ∈ cfg.sections := .tail _ (.tail _ (.tail _ (.head _)))
  exact {
    rabbitmqHostname := hstring hrabbitmq (.head _)
    rabbitmqPort := hint h.rabbitmqPort hrabbitmq (.tail _ (.head _))
    vhost := hstring hrabbitmq (.tail _ (.tail _ (.head _)))
    rabbitmqUsername := hstring hrabbitmq (.tail _ (.tail _ (.tail _ (.head _))))
    rabbitmqPassword := hstring hrabbitmq (.tail _ (.tail _ (.tail _ (.tail _ (.head _)))))
    queueName := hstring hrabbitmq (.tail _ (.tail _ (.tail _ (.tail _ (.tail _ (.head _))))))
    mysqlHostname := hstring hmysql (.head _)
    mysqlPort := hint h.mysqlPort hmysql (.tail _ (.head _))
    mysqlUsername := hstring hmysql (.tail _ (.tail _ (.head _)))
    mysqlPassword := hstring hmysql (.tail _ (.tail _ (.tail _ (.head _))))
    database := hstring hmysql (.tail _ (.tail _ (.tail _ (.tail _ (.head _)))))
    binaryPath := hstring hisolate (.head _)
    boxIdStart := hint h.boxIdStart hisolate (.tail _ (.head _))
    numBoxes := hint h.numBoxes hisolate (.tail _ (.tail _ (.head _)))
    concurrency := hint h.concurrency hjudge (.head _) }

/-- Every configuration can be written to a file and loaded from it, and a key that is left
    out of the file falls back to its default without touching another field. -/
theorem load_toJson {parse : Bytes → Option Json} {content : Bytes}
    {keep : Bytes → Bytes → Bool} {cfg : AppConfig} (hranged : cfg.Ranged)
    (hparse : parse content = some (cfg.toJson keep)) :
    load parse (some content) = some (cfg.restrict keep) :=
  load_eq_some.mpr ⟨content, _, rfl, hparse, configures_toJson keep hranged⟩

/-- A configuration with three boxes. -/
def sampleConfig : AppConfig :=
  { rabbitmq := { hostname := "mq", password := "secret" }
    mysql := { hostname := "db", port := 3307 }
    isolate := { boxIdStart := 10 }
    judge := { concurrency := 3 } }

/-- A file that leaves the passwords out. -/
def sampleFile (_ : Bytes) : Option Json :=
  some (sampleConfig.toJson fun _ key => key != "password")

theorem load_toJson_withoutPasswords :
    load sampleFile (some []) =
      some { sampleConfig with
        rabbitmq := { hostname := "mq", password := "judge_pass" } } := by
  have hranged : sampleConfig.Ranged := by
    constructor <;> decide
  have hparse : sampleFile [] = some (sampleConfig.toJson fun _ key => key != "password") := rfl
  rw [load_toJson hranged hparse]
  decide +kernel

end AppConfig
