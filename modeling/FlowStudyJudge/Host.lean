-- SUMMARY: The operations the judge asks of its host, its database server and its broker, one wrapper for each.
import FlowStudyJudge.Effects.Run
import FlowStudyJudge.Text.Numeral
import FlowStudyJudge.Db.Schema

/-! # The interface of the judge

Every interaction of the judge with something outside its own memory is one
operation. The answers are what the called function reports; what they have to
do with earlier operations is up to the world a program is run in. -/

/-- How an `std::ifstream` is opened. `parse_meta` reads in text mode, `read_file`
    in binary mode. -/
inductive OpenMode where
  | text
  | binary
  deriving DecidableEq, Repr

/-- What became of an `std::ofstream` that was opened, written and closed. -/
inductive Written where
  /-- The file could not be opened. -/
  | refused
  /-- The file was opened, but not all of the content reached it. -/
  | truncated
  | complete
  deriving DecidableEq, Repr

inductive MkdirResult where
  | created
  /-- `errno` is `EEXIST`. -/
  | exists
  | failed
  deriving DecidableEq, Repr

/-- A `MYSQL*`. -/
abbrev Handle := Nat

inductive Op where
  /-- `BoxPool::acquire` -/
  | acquire
  /-- `BoxPool::release` -/
  | release (boxId : Int)
  | ofstream (path content : Bytes)
  | ifstream (path : Bytes) (mode : OpenMode)
  | mkdir (path : Bytes)
  /-- `std::system` -/
  | system (cmd : Bytes)
  | mysqlInit
  | mysqlRealConnect (conn : Handle)
  | mysqlPing (conn : Handle)
  | mysqlQuery (conn : Option Handle) (query : Query)
  | basicAck (deliveryTag : UInt64)
  /-- `amqp_basic_nack` with `requeue = 1` -/
  | basicNack (deliveryTag : UInt64)
  deriving DecidableEq

namespace Op

/-- The operations on the files of a box, and the calls of isolate. -/
def isSandbox : Op → Bool
  | .ofstream _ _ | .ifstream _ _ | .mkdir _ | .system _ => true
  | _ => false

/-- The operations that the database server answers. -/
def isDatabase : Op → Bool
  | .mysqlInit | .mysqlRealConnect _ | .mysqlPing _ | .mysqlQuery _ _ => true
  | _ => false

/-- The operations that settle a delivery. -/
def isSettlement : Op → Bool
  | .basicAck _ | .basicNack _ => true
  | _ => false

theorem isDatabase_not_isSettlement (op : Op) (h : op.isDatabase = true) :
    (!op.isSettlement) = true := by
  cases op <;> first | rfl | cases h

theorem isSandbox_not_isDatabase (op : Op) (h : op.isSandbox = true) :
    (!op.isDatabase) = true := by
  cases op <;> first | rfl | cases h

end Op

/-- The answer to an operation. A call that reports success by a code answers
    `true` for success. -/
abbrev Op.Res : Op → Type
  | .acquire => Int
  | .release _ => Unit
  | .ofstream _ _ => Written
  | .ifstream _ _ => Option Bytes
  | .mkdir _ => MkdirResult
  | .system _ => Int
  | .mysqlInit => Option Handle
  | .mysqlRealConnect _ => Bool
  | .mysqlPing _ => Bool
  | .mysqlQuery _ _ => Bool
  | .basicAck _ => Bool
  | .basicNack _ => Bool

/-- What ends a function that does not return. -/
inductive Abort where
  /-- An exception; only those of the numeric conversions can leave a function. -/
  | thrown (x : StdException)
  /-- `mysql_query` was called with a null handle, which ends the process. -/
  | segfault
  deriving DecidableEq, Repr

/-- A computation of the judge. -/
abbrev Comp := Prog Op.Res Abort

/-! The operations with their answer types written out. -/

namespace Host

def acquire : Comp Int := Prog.perform Op.acquire
def release (boxId : Int) : Comp Unit := Prog.perform (Op.release boxId)
def ofstream (path content : Bytes) : Comp Written := Prog.perform (Op.ofstream path content)
def ifstream (path : Bytes) (mode : OpenMode) : Comp (Option Bytes) :=
  Prog.perform (Op.ifstream path mode)
def mkdir (path : Bytes) : Comp MkdirResult := Prog.perform (Op.mkdir path)
def system (cmd : Bytes) : Comp Int := Prog.perform (Op.system cmd)
def mysqlInit : Comp (Option Handle) := Prog.perform Op.mysqlInit
def mysqlRealConnect (conn : Handle) : Comp Bool := Prog.perform (Op.mysqlRealConnect conn)
def mysqlPing (conn : Handle) : Comp Bool := Prog.perform (Op.mysqlPing conn)
/-- The library follows the handle without a look at it, so there is no answer on a null
    handle. -/
def mysqlQuery (conn : Option Handle) (query : Query) : Comp Bool :=
  match conn with
  | none => .exec (Op.mysqlQuery none query) fun _ => .raise .segfault
  | some conn => Prog.perform (Op.mysqlQuery (some conn) query)
def basicAck (deliveryTag : UInt64) : Comp Bool := Prog.perform (Op.basicAck deliveryTag)
def basicNack (deliveryTag : UInt64) : Comp Bool := Prog.perform (Op.basicNack deliveryTag)

/-- A host on which every call succeeds, isolate exits with code 0 and the files
    have the given contents, whatever is written to them. -/
def fixed (files : Bytes → Option Bytes) : Handler Op.Res Unit := fun op s =>
  match op with
  | .acquire => ((1 : Int), s)
  | .release _ => ((), s)
  | .ofstream _ _ => (Written.complete, s)
  | .ifstream path _ => (files path, s)
  | .mkdir _ => (MkdirResult.created, s)
  | .system _ => ((0 : Int), s)
  | .mysqlInit => (some 0, s)
  | .mysqlRealConnect _ | .mysqlPing _ | .mysqlQuery _ _ => (true, s)
  | .basicAck _ | .basicNack _ => (true, s)

end Host
