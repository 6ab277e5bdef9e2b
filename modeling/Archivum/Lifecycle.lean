import Archivum.Sync

set_option autoImplicit false

/-!
# The lifecycle of timesheets

Submission, approval and release of an employee's period, the lock of a period,
and the creation of one. `Call` is any of the calls that write punches, and a
run is a list of them, each in a transaction of its own.
-/
namespace Archivum.Lifecycle
open ByteStrings StatefulActions PageTxn RecordModel KeyedTables PunchlineData PunchlineDb ExceptionQueue Payroll Sync Act

def rank : EntryState → ℕ
 | .recorded=>0
 | .submitted=>1
 | .approved=>2
 | .released=>3
 | .locked=>4

def predecessor : EntryState → Option EntryState
 | .recorded=>none
 | .submitted=>some .recorded
 | .approved=>some .submitted
 | .released=>some .approved
 | .locked=>some .released

def nextState : EntryState → Option EntryState
 | .recorded=>some .submitted
 | .submitted=>some .approved
 | .approved=>some .released
 | .released=>some .locked
 | .locked=>none

structure Standing where
 roles : List Bytes
 employeeId : Option ℤ := none
 overrideReason : Bytes := []
 deriving DecidableEq

def Standing.holds (who:Standing) (role:String) : Bool := ascii role∈who.roles

def supervisorAt (db:Db) (employeeId atUs:ℤ) : Option ℤ :=
 (((db.supervisorAssignments.rows.filter fun a=>a.employeeId=employeeId).insertionSort
  fun a b=>a.effectiveFrom ≤ b.effectiveFrom).find? fun a=>
   a.effectiveFrom ≤ atUs ∧ (a.effectiveTo=0 ∨ atUs<a.effectiveTo)).map SupervisorAssignment.supervisorEmployeeId

def supervises (db:Db) (who:Standing) (employeeId atUs:ℤ) : Bool :=
 who.holds "supervisor" && who.employeeId.isSome && supervisorAt db employeeId atUs == who.employeeId

def transitionAllowed (db:Db) (employeeId:ℤ) (from_ to_:EntryState) (who:Standing) (actedAt:ℤ) :
  Except Status Unit :=
 if nextState from_≠some to_ then
  .error (constraint ("PL-7: transition " ++ from_.text ++ " -> " ++ to_.text ++ " is out of order"))
 else match to_ with
  | .recorded=>.error (constraint "PL-7: unknown transition")
  | .submitted=>
   if who.employeeId=some employeeId then .ok ()
   else if who.holds "payroll" then .ok ()
   else if supervises db who employeeId actedAt then .ok ()
   else .error (constraint "PL-7: only the employee, their supervisor, or payroll may submit")
  | .approved=>
   if supervises db who employeeId actedAt then .ok ()
   else if who.holds "payroll" then
    if who.overrideReason=[] then
     .error (constraint "PL-7: payroll approving in place of the supervisor needs an override reason")
    else .ok ()
   else .error (constraint "PL-7: only the supervisor in force at the time of the action may approve")
  | .released=>
   if who.holds "payroll" then .ok () else .error (constraint "PL-7: only payroll may release")
  | .locked=>
   if who.holds "payroll" || who.holds "admin" then .ok ()
   else .error (constraint "PL-7: only payroll or admin may lock")

structure TransitionRequest where
 periodId : ℤ
 employeeId : ℤ
 toState : Bytes
 who : Standing
 actedByTid : Bytes := []
 actedByOid : Bytes := []
 actedByAccount : Bytes := []
 note : Bytes := []
 deriving DecidableEq

structure TransitionResult where
 fromState : EntryState
 entries : ℕ
 shifts : ℕ
 approvalId : ℤ
 exceptionsResolved : ℕ
 deriving DecidableEq

def stateOf (s:Bytes) : Option EntryState := allStates.find? fun state=>ascii state.text=s

def writeApproval (env:Env) (periodId employeeId:ℤ) (from_ to_:EntryState) (tid oid account note:Bytes) :
  PunchM ℤ := do
 let id ← nextId approvals
 insert approvals {
  id,periodId,employeeId,fromState:=from_,toState:=to_,actedByTid:=tid,actedByOid:=oid
  actedByAccount:=account,actedAt:=env.now,note,auditId:=env.auditId }
 return id

def requestedStep (req:TransitionRequest) : Except Status (EntryState × EntryState) :=
 match (stateOf req.toState).bind fun to_=>(predecessor to_).map fun from_=>(from_,to_) with
 | none=>.error (invalidArgument "to_state must be submitted, approved or released")
 | some step=>
  if step.2=.locked then .error (invalidArgument "to_state must be submitted, approved or released")
  else .ok step

def checkTransition (db:Db) (env:Env) (req:TransitionRequest) (from_ to_:EntryState) : Except Status Unit :=
 match db.periodById req.periodId with
 | none=>.error (notFound "no such pay period")
 | some p=>
  if p.state≠.open_ then .error (constraint ("PL-7: pay period is " ++ p.state.text))
  else match transitionAllowed db req.employeeId from_ to_ req.who env.now with
   | .error e=>.error e
   | .ok ()=>
    if to_=.released then
     match openHold db req.employeeId req.periodId with
     | some h=>.error (constraint ("PL-7: the timesheet is held for overtime authorization (" ++
       text h.detail ++ ")"))
     | none=>.ok ()
    else .ok ()

def checkMovable (entries:List TimeEntry) (from_:EntryState) : Except Status Unit :=
 match (entries.filter fun e=>e.supersededBy=0).find? fun e=>rank e.state < rank from_ with
 | some e=>.error (constraint ("PL-7: entry " ++ toString e.id ++ " is still " ++ e.state.text ++
   "; it must be " ++ from_.text ++ " first"))
 | none=>
  if entries.any fun e=>e.supersededBy=0 ∧ e.state=from_ then .ok ()
  else .error (constraint ("PL-7: nothing is " ++ from_.text ++ " for this employee in this period"))

def moveEntry (env:Env) (to_:EntryState) (e:TimeEntry) : TimeEntry :=
 { e with state:=to_,approvalAuditId:=if to_=.approved then env.auditId else e.approvalAuditId }

def transitionNote (req:TransitionRequest) : Bytes :=
 if req.who.overrideReason=[] then req.note else ascii "override: " ++ req.who.overrideReason

def resolveReviewed (env:Env) (employeeId periodId:ℤ) : PunchM ℕ := do
 let counted ← resolveMatching env { kind:=.deviceAttestedCount,employeeId,periodId } (ascii "approval")
 let cut ← resolveMatching env { kind:=.pastCutoff,employeeId,periodId } (ascii "approval")
 let late ← reads fun db=>
  (openExceptions db [employeeId] .latePunch).filter fun x=>x.periodId=periodId
 forAll (fun x=>closeException env x.id .resolved (ascii "approval")) late
 return counted+cut+late.length

def transition (env:Env) (req:TransitionRequest) : PunchM TransitionResult := do
 let (from_,to_) ← ofExcept (requestedStep req)
 let allowed ← reads fun db=>checkTransition db env req from_ to_
 ofExcept allowed
 let entries ← reads fun db=>db.entriesInPeriod req.periodId req.employeeId
 ofExcept (checkMovable entries from_)
 let moving:=entries.filter fun e=>e.supersededBy=0 ∧ e.state=from_
 forAll (fun e=>update timeEntries (moveEntry env to_ e)) moving
 let moved ← reads fun db=>(db.shiftsInPeriod req.periodId req.employeeId).filter fun sh=>sh.state=from_
 forAll (fun sh=>update shifts { sh with state:=to_ }) moved
 let approvalId ← writeApproval env req.periodId req.employeeId from_ to_ req.actedByTid req.actedByOid
  req.actedByAccount (transitionNote req)
 let resolved ← if to_=.approved then resolveReviewed env req.employeeId req.periodId else pure 0
 return { fromState:=from_,entries:=moving.length,shifts:=moved.length,approvalId
          exceptionsResolved:=resolved }

structure LockResult where
 employees : ℕ
 entries : ℕ
 deriving DecidableEq

def lockEntry (e:TimeEntry) : PunchM Unit :=
 if e.state≠.released then
  fail (constraint ("PL-7: entry " ++ toString e.id ++ " of employee " ++ toString e.employeeId ++ " is " ++
   e.state.text ++ ", not released"))
 else update timeEntries { e with state:=.locked }

def entriesOfPeriod (db:Db) (periodId:ℤ) : List TimeEntry :=
 (db.timeEntries.rows.filter fun e=>e.periodId≠0 ∧ e.periodId=periodId).insertionSort
  fun a b=>a.employeeId ≤ b.employeeId

def shiftsOfPeriod (db:Db) (periodId:ℤ) : List Shift :=
 (db.shifts.rows.filter fun sh=>sh.periodId≠0 ∧ sh.periodId=periodId).insertionSort
  fun a b=>a.employeeId ≤ b.employeeId

def checkLock (db:Db) (env:Env) (periodId:ℤ) (who:Standing) : Except Status PayPeriod :=
 match db.periodById periodId with
 | none=>.error (notFound "no such pay period")
 | some p=>
  if p.state≠.open_ then .error (constraint ("PL-7: pay period is already " ++ p.state.text))
  else match transitionAllowed db 0 .released .locked who env.now with
   | .error e=>.error e
   | .ok ()=>.ok p

def lockPeriod (env:Env) (periodId:ℤ) (who:Standing) (tid oid account:Bytes) : PunchM LockResult := do
 let checked ← reads fun db=>checkLock db env periodId who
 let p ← ofExcept checked
 let all ← reads fun db=>entriesOfPeriod db periodId
 let current:=all.filter fun e=>e.supersededBy=0
 forAll lockEntry current
 let moved ← reads fun db=>(shiftsOfPeriod db periodId).filter fun sh=>sh.state=.released
 forAll (fun sh=>update shifts { sh with state:=.locked }) moved
 let employees:=((current.map TimeEntry.employeeId).insertionSort (· ≤ ·)).dedup
 forAll (fun employeeId=>do
  let _ ← writeApproval env periodId employeeId .released .locked tid oid account []
  return ()) employees
 update payPeriods { p with state:=.locked,releaseAt:=env.now }
 return { employees:=employees.length,entries:=current.length }

structure NewPeriod where
 startDay : ℤ
 endDay : ℤ
 siteZone : Bytes
 submitBy : ℤ := 0
 approveBy : ℤ := 0
 deriving DecidableEq

def assignEntry (p:PayPeriod) (e:TimeEntry) : PunchM Unit :=
 if e.periodId≠0 then return ()
 else match LocalTimes.parseLocalTime e.localTime with
  | .error _=>return ()
  | .ok lt=>
   if lt.localDay<p.startDay ∨ p.endDay<lt.localDay then return ()
   else update timeEntries { e with periodId:=p.id }

def assignShift (p:PayPeriod) (sh:Shift) : PunchM Unit :=
 if sh.periodId≠0 ∨ sh.localDay<p.startDay ∨ p.endDay<sh.localDay then return ()
 else update shifts { sh with periodId:=p.id }

def overlaps (r:NewPeriod) (p:PayPeriod) : Bool := ¬(r.endDay<p.startDay ∨ p.endDay < r.startDay)

def createPeriod (env:Env) (r:NewPeriod) : PunchM PayPeriod := do
 match ← reads fun db=>db.payPeriods.rows.find? (overlaps r) with
 | some p=>fail (constraint ("overlaps pay period " ++ toString p.id))
 | none=>do
  let id ← nextId payPeriods
  let p:PayPeriod:={
   id,startDay:=r.startDay,endDay:=r.endDay,siteZone:=r.siteZone,tzdbVersion:=env.release
   submitBy:=r.submitBy,approveBy:=r.approveBy }
  insert payPeriods p
  let entries ← reads fun db=>db.timeEntries.rows
  forAll (assignEntry p) entries
  let all ← reads fun db=>db.shifts.rows
  forAll (assignShift p) all
  return p

inductive Call
 | sync (deviceId:ℤ) (batch:IncomingBatch)
 | manual (m:ManualEntry)
 | move (req:TransitionRequest)
 | lock (periodId:ℤ) (who:Standing) (tid oid account:Bytes)
 | period (r:NewPeriod)

/-- The request a call handles. A batch comes from a device that is enrolled. -/
def Call.run (env:Env) : Call → PunchM Unit
 | sync deviceId batch=>do
  match ← reads fun db=>db.deviceById deviceId with
  | none=>fail (notFound "no such device")
  | some device=>do
   let _ ← applyBatch env device batch
   return ()
 | manual m=>do
  let _ ← recordManualEntry env m
  return ()
 | move req=>do
  let _ ← transition env req
  return ()
 | lock periodId who tid oid account=>do
  let _ ← lockPeriod env periodId who tid oid account
  return ()
 | period r=>do
  let _ ← createPeriod env r
  return ()

def recorded (cfg:Config) (release:Bytes) (now:ℤ) (c:Call) : PunchM Unit := do
 let auditId ← nextId auditLog
 modify fun db=>{ db with auditLog:=db.auditLog.put ⟨auditId⟩ }
 c.run { cfg,auditId,release,now }

def serve (cfg:Config) (release:Bytes) (c:ℤ × Call) (db:Db) : Db :=
 committed (recorded cfg release c.1 c.2) db

def Unused (db:Db) : Prop :=
 db.timeEntries.rows=[] ∧ db.shifts.rows=[] ∧ db.exceptions.rows=[] ∧ db.mealBreaks.rows=[] ∧
  db.timesheetHolds.rows=[] ∧ db.shiftAnnotations.rows=[] ∧ db.approvals.rows=[] ∧
  db.syncBatches.rows=[] ∧ db.entryEdits.rows=[] ∧ db.entryBreakCodes.rows=[]

instance (db:Db) : Decidable (Unused db) := by
 unfold Unused
 infer_instance

def Reached (cfg:Config) (release:Bytes) (db:Db) : Prop :=
 ∃ db₀ calls,Unused db₀ ∧ db=after (serve cfg release) calls db₀

def exampleSite : Db where
 employees := exampleEmployees
 devices:=exampleDevices
 payPeriods:=examplePeriods

def exampleUuid (n:ℕ) : UuidBytes := ⟨List.replicate 15 0++[UInt8.ofNat n],rfl⟩

def examplePunch (n:ℕ) (kind:String) (deviceTimeUs:ℤ) (localTime:String) : IncomingEntry where
 entryUuid := exampleUuid n
 journalSequence:=n
 kind:=ascii kind
 deviceTimeUs:=deviceTimeUs
 localTime:=ascii localTime

def exampleBatch (n:ℕ) (entries:List IncomingEntry) : IncomingBatch where
 batchUuid := exampleUuid n
 journalId:=zeroUuid
 entries:=entries

end Archivum.Lifecycle
