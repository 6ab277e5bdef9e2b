import Archivum.ExceptionRules
import Archivum.Roster

set_option autoImplicit false

/-!
# Who may close an item of the queue

The callers of the server, the employees each may act for, and the request that
resolves or dismisses an exception.
-/
namespace Archivum.QueueAccess
open ByteStrings StatefulActions StatefulActions.Act PageTxn RecordModel KeyedTables PunchlineData PunchlineDb
open Payroll ExceptionQueue ExceptionRules Roster

inductive CallerKind
 | principal
 | device
 | account
 deriving DecidableEq

structure Caller where
 kind : CallerKind := .principal
 tid : Bytes := []
 oid : Bytes := []
 roles : List Bytes := []
 employeeId : Option ℤ := none
 deviceUuid : UuidBytes := zeroUuid
 account : Bytes := []
 accountKind : Bytes := []
 deriving DecidableEq

namespace Caller
variable (c:Caller)

def hasRole (role:String) : Bool := ascii role∈c.roles

def describe : Bytes :=
 match c.kind with
 | .principal=>ascii "principal " ++ c.tid++ascii "/" ++ c.oid
 | .device=>ascii "device " ++ ascii (Value.uuidText c.deviceUuid.1)
 | .account=>ascii "account " ++ c.account

def actsForAll : Bool :=
 c.hasRole "payroll" || c.hasRole "admin" || (c.kind == .account && c.accountKind == ascii "break_glass")

def hidesHolds : Bool := c.hasRole "payroll" && !c.hasRole "admin"

end Caller

/-- The employees a caller may act for who does not act for everyone: the reports of a supervisor,
and the caller. -/
def scopeOf (db:Db) (c:Caller) (nowUs:ℤ) : List ℤ :=
 if c.actsForAll then []
 else
  (if c.hasRole "supervisor" then c.employeeId.elim [] fun id=>reportsOf db id nowUs else [])++c.employeeId.toList

def inScope (scope:List ℤ) (all:Bool) (employeeId:ℤ) : Bool := all || employeeId∈scope

def openHoldPairs (db:Db) : List (ℤ × ℤ) :=
 (db.timesheetHolds.rows.filter fun h=>h.clearedAt=0).map fun h=>(h.employeeId,h.periodId)

/-- The period that an exception is about, itself or through its entry. -/
def periodOf (db:Db) (x:Exception) : ℤ :=
 if x.periodId=0 ∧ x.entryId≠0 then ((db.entryById x.entryId).map TimeEntry.periodId).getD x.periodId
 else x.periodId

def hiddenFrom (db:Db) (c:Caller) (x:Exception) : Bool :=
 c.hidesHolds ∧ x.employeeId≠0 ∧ periodOf db x≠0 ∧ (x.employeeId,periodOf db x)∈openHoldPairs db

inductive Reply
 | ok (state:ExceptionState)
 | error (http:ℕ) (code message:String)
 | failed (s:Status)
 deriving DecidableEq

def recordedClose (env:Env) (id:ℤ) (state:ExceptionState) (by_:Bytes) : PunchM Unit := do
 let auditId ← nextId auditLog
 Act.modify fun db=>{ db with auditLog:=db.auditLog.put ⟨auditId⟩ }
 closeException { env with auditId } id state by_

/-- `POST /api/v1/exceptions/{id}/{action}` of an authenticated caller. -/
def closeRequest (env:Env) (c:Caller) (id:ℤ) (action:Bytes) (db:Db) : Reply × Db :=
 if action≠ascii "resolve" ∧ action≠ascii "dismiss" then (.error 404 "not_found" "no such action",db)
 else match db.exceptionById id with
  | none=>(.error 404 "not_found" "no such exception",db)
  | some x=>
   let own:=c.employeeId=some x.employeeId ∧ !c.hasRole "supervisor"
   let state:=if action=ascii "resolve" then .resolved else .dismissed
   if hiddenFrom db c x then (.error 404 "not_found" "no such exception",db)
   else if own ∨ !inScope (scopeOf db c env.now) c.actsForAll x.employeeId ∨ x.employeeId=0 ∧ !c.actsForAll then
    (.error 403 "forbidden" "not your queue",db)
   else match recordedClose env id state c.describe db with
    | (.ok (),db')=>(.ok state,db')
    | (.error s,_)=>(.failed s,db)

def Supervises (db:Db) (c:Caller) (employeeId nowUs:ℤ) : Prop :=
 ∃ a∈db.supervisorAssignments,a.employeeId=employeeId ∧ c.employeeId=some a.supervisorEmployeeId ∧
  assignmentInForce a nowUs=true

lemma inScope_cases {db:Db} {c:Caller} {nowUs employeeId:ℤ} (h:inScope (scopeOf db c nowUs) c.actsForAll employeeId=true) :
 c.actsForAll=true ∨ Supervises db c employeeId nowUs ∨ c.employeeId=some employeeId := by
 unfold inScope scopeOf at h
 by_cases hall:c.actsForAll=true
 · exact .inl hall
 · rw [if_neg hall,Bool.or_eq_true,decide_eq_true_iff,List.mem_append] at h
   rcases h.resolve_left hall with h | h
   · split at h
     · cases hid:c.employeeId with
       | none=>rw [hid] at h; cases h
       | some id=>
        rw [hid] at h
        obtain ⟨a,ha,he,hforce,hs⟩:=mem_reportsOf.mp h
        exact .inr (.inl ⟨a,ha,he,hid.trans (congrArg some hs.symm),hforce⟩)
     · cases h
   · exact .inr (.inr (Option.mem_toList.mp h))

lemma recordedClose_ok {env:Env} {id:ℤ} {state:ExceptionState} {by_:Bytes} {db db':Db}
 (hstate:state≠.open_) (h:recordedClose env id state by_ db=(.ok (),db')) {x:Exception}
 (hx:OpenIn db x) (hclosed:¬OpenIn db' x) : x.id=id := by
 unfold recordedClose at h
 rw [nextId,bind_reads] at h
 obtain ⟨_,db₁,hmodify,h⟩:=bind_ok_inv h
 cases hmodify
 by_contra hne
 exact hclosed (((closeException_ok hstate h).2 x).mpr ⟨hx,hne⟩)

def exampleItem (id employeeId:ℤ) : Exception := { id,kind:=.approverFlag,employeeId,openedAt:=1 }

/-- Two employees, the second the supervisor of the first, and an exception about each. -/
def exampleQueue : Db where
 employees := exampleStaff.employees
 supervisorAssignments:=
  ⟨[{ id:=1,employeeId:=1,supervisorEmployeeId:=2,effectiveFrom:=1000,effectiveTo:=0
      assignedBy:=ascii "hr",auditId:=0 }],List.pairwise_singleton _ _⟩
 exceptions:=⟨[exampleItem 1 1,exampleItem 2 2],by decide⟩

def exampleSupervisor : Caller := { roles:=[ascii "supervisor"],employeeId:=some 2 }

def exampleNow : Env := { auditId:=0,release:=ascii "2024a",now:=2000 }

lemma openIn_of_mem {db:Db} {x:Exception} (hx:x∈db.exceptions.rows) (hstate:x.state=.open_) : OpenIn db x := ⟨hx,hstate⟩

lemma not_openIn_of_not_mem {db:Db} {x:Exception} (hx:x ∉ db.exceptions.rows) : ¬OpenIn db x :=
 fun h=>hx h.1

end Archivum.QueueAccess
