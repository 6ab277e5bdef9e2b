import Archivum.PunchlineDb

set_option autoImplicit false

/-!
# The exception queue

Exceptions are opened and resolved by their key: the kind and what they are
about.
-/
namespace Archivum.ExceptionQueue
open ByteStrings StatefulActions PageTxn RecordModel KeyedTables PunchlineData PunchlineDb

structure ExceptionKey where
 kind : ExceptionKind
 employeeId : ℤ := 0
 deviceId : ℤ := 0
 entryId : ℤ := 0
 periodId : ℤ := 0
 deriving DecidableEq

structure Opened where
 id : ℤ
 created : Bool
 deriving DecidableEq

/-- `matches` -/
def isAbout (k:ExceptionKey) (x:Exception) : Bool :=
 x.kind=k.kind ∧ x.employeeId=k.employeeId ∧ x.deviceId=k.deviceId ∧ x.entryId=k.entryId ∧
  x.periodId=k.periodId

def openOnes (db:Db) : List Exception :=
 (db.exceptions.rows.filter fun x=>x.state=.open_).insertionSort fun x y=>x.openedAt ≤ y.openedAt

def openMatching (db:Db) (k:ExceptionKey) : List Exception := (openOnes db).filter (isAbout k)

def openException (env:Env) (k:ExceptionKey) (detail:Bytes) : PunchM Opened := do
 let existing ← Act.reads fun db=>openMatching db k
 match existing with
 | x::_=>return { id:=x.id,created:=false }
 | []=>do
  let id ← nextId exceptions
  insert exceptions {
   id,kind:=k.kind,employeeId:=k.employeeId,deviceId:=k.deviceId,entryId:=k.entryId
   periodId:=k.periodId,detail,openedAt:=env.now }
  return { id,created:=true }

def closeException (env:Env) (id:ℤ) (newState:ExceptionState) (by_:Bytes) : PunchM Unit := do
 match ← Act.reads fun db=>db.exceptionById id with
 | none=>Act.fail (notFound "no such exception")
 | some x=>
  if x.state≠.open_ then Act.fail (constraint ("exception is already " ++ x.state.text))
  else update exceptions {
   x with state:=newState,resolvedAt:=env.now,resolvedBy:=by_,resolutionAuditId:=env.auditId }

def resolveMatching (env:Env) (k:ExceptionKey) (by_:Bytes) : PunchM ℕ := do
 let found ← Act.reads fun db=>openMatching db k
 forAll (fun x=>closeException env x.id .resolved by_) found
 return found.length

def openExceptions (db:Db) (employees:List ℤ) (kind:ExceptionKind) : List Exception :=
 (openOnes db).filter fun x=>x.kind=kind ∧ (employees=[] ∨ x.employeeId∈employees)

end Archivum.ExceptionQueue
