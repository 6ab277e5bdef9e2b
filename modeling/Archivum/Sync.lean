import Archivum.ExceptionQueue
import Archivum.Payroll

set_option autoImplicit false

/-!
# Punches from devices, manual entries and pairing

`apply_batch`, `record_manual_entry` and the pairing of punches into shifts that
both run.
-/
namespace Archivum.Sync
open ByteStrings StatefulActions PageTxn SlottedPage BTreeModel RecordModel KeyedTables PunchlineData PunchlineDb Act
open ExceptionQueue Payroll LocalTimes

def laterThanSubmitted : EntryState → Bool
 | .recorded=>false
 | .submitted=>false
 | .approved=>true
 | .released=>true
 | .locked=>true

def payCodeActive (db:Db) (code:Bytes) : Bool := (db.payCodes.find? fun c=>c.code=code).any Code.active

/-- The entries that are not superseded, from a time on, in the order of their times. -/
def currentEntriesFrom (db:Db) (employeeId fromUs:ℤ) : List TimeEntry :=
 (db.timeEntries.rows.filter fun e=>
  e.employeeId=employeeId ∧ fromUs ≤ e.deviceTime ∧ e.supersededBy=0).insertionSort earlier

def allStates : List EntryState := [.recorded,.submitted,.approved,.released,.locked]

def shiftsFrom (db:Db) (employeeId fromUs:ℤ) : List Shift :=
 (allStates.flatMap fun state=>db.shifts.rows.filter fun sh=>
  sh.employeeId=employeeId ∧ sh.state=state ∧
   (sh.outEntryId=0 ∨ fromUs ≤ sh.outTime ∨ fromUs ≤ sh.inTime)).insertionSort fun a b=>a.inTime ≤ b.inTime

def noteOpened (o:Opened) : List ℤ := if o.created then [o.id] else []

def flag (env:Env) (k:ExceptionKey) (detail:Bytes) : PunchM (List ℤ) := do
 let o ← openException env k detail
 return noteOpened o

def entryPeriodValid (db:Db) (localDay periodId:ℤ) : Except Status Unit :=
 if periodId=0 then .ok ()
 else match db.periodById periodId with
  | none=>.error (constraint "PL-3: no such pay period")
  | some p=>
   if localDay<p.startDay ∨ p.endDay<localDay then
    .error (constraint "PL-3: entry's local day is outside its pay period")
   else .ok ()

def correctionValid (db:Db) (originalEntryId employeeId:ℤ) (reason:Bytes) : Except Status Unit :=
 if reason=[] then .error (constraint "PL-4: a correction needs a reason")
 else match db.entryById originalEntryId with
  | none=>.error (constraint "PL-4: no such entry to correct")
  | some e=>
   if e.employeeId≠employeeId then
    .error (constraint "PL-4: a correction must be of the same employee's entry")
   else .ok ()

def deviceAttestedValid (db:Db) (deviceId receiptTimeUs:ℤ) : Option String :=
 match db.deviceById deviceId with
 | none=>some "PL-5: no such device"
 | some d=>
  if d.revokedAt≠0 ∧ d.revokedAt ≤ receiptTimeUs then
   some "PL-5: device was revoked before the entry was received"
  else none

/-- `pair_out` accepts the out punch for the open shift. -/
def pairOut (sh:Shift) (e:TimeEntry) : Bool :=
 e.kind=.out ∧ e.employeeId=sh.employeeId ∧ e.deviceId=sh.deviceId ∧ sh.inTime<e.deviceTime

/-- What is wrong with a closed shift by the employee's schedules, and the text that says so. The out punch is
compared only when it is on the same local day. -/
def scheduleFinding (cfg:Config) (schedules:List Schedule) (ltIn ltOut:LocalTime) :
  Option (ExceptionKind × String) :=
 let day:=formatLocalDay ltIn.localDay
 let inForceOnes:=schedules.filter fun s=>inForce s.effectiveFromDay s.effectiveToDay ltIn.localDay
 if inForceOnes=[] then some (.noSchedule,"no schedule on file for " ++ day)
 else match (inForceOnes.filter fun s=>s.weekday=ltIn.weekday).getLast? with
  | none=>some (.nonScheduledDay,"punch on " ++ day ++ ", a non-scheduled day")
  | some s=>
   if ltIn.minuteOfDay<s.startMinute-cfg.scheduleToleranceMinutes then
    some (.outsideSchedule,"in punch before the scheduled hours on " ++ day)
   else if ltOut.localDay=ltIn.localDay ∧ s.endMinute+cfg.scheduleToleranceMinutes<ltOut.minuteOfDay then
    some (.outsideSchedule,"out punch after the scheduled hours on " ++ day)
   else none

def checkSchedule (env:Env) (inEntry outEntry:TimeEntry) : PunchM (List ℤ) := do
 match parseLocalTime inEntry.localTime,parseLocalTime outEntry.localTime with
 | .ok ltIn,.ok ltOut=>do
  match ← reads fun db=>scheduleFinding env.cfg (db.schedulesOf inEntry.employeeId) ltIn ltOut with
  | none=>return []
  | some (kind,detail)=>
   flag env { kind,employeeId:=inEntry.employeeId,entryId:=inEntry.id } (ascii detail)
 | _,_=>return []

def deviceAttested (db:Db) (employeeId periodId:ℤ) : ℤ :=
 ((db.entriesInPeriod periodId employeeId).filter fun e=>e.attestation=.device ∧ e.supersededBy=0).length

def countDeviceAttested (env:Env) (employeeId periodId:ℤ) : PunchM (List ℤ) := do
 let n ← reads fun db=>deviceAttested db employeeId periodId
 let threshold:=env.cfg.deviceAttestedThreshold
 if periodId=0 ∨ threshold ≤ 0 ∨ n<threshold then return []
 else
  flag env { kind:=.deviceAttestedCount,employeeId,periodId } (ascii (toString n ++
   " device-attested entries in the period (threshold " ++ toString threshold ++ ")"))

def forEachOpened {α:Type} (f:α → PunchM (List ℤ)) : List α → PunchM (List ℤ)
 | []=>return []
 | a::as=>do
  let opened ← f a
  let rest ← forEachOpened f as
  return opened++rest

def rebuildable (db:Db) (employeeId start:ℤ) : List Shift :=
 (shiftsFrom db employeeId start).filter fun sh=>!laterThanSubmitted sh.state

/-- The loop that extends the range back until it covers every shift it touches; `fuel` bounds its rounds. -/
def rebuildRange (db:Db) (employeeId:ℤ) : ℕ → ℤ → Option (ℤ × List Shift)
 | 0,_=>none
 | fuel+1,start=>
  let affected := rebuildable db employeeId start
  let newStart:=(affected.map Shift.inTime).foldl min start
  if newStart=start then some (start,affected) else rebuildRange db employeeId fuel newStart

def pairingKinds : List ExceptionKind := [.unpairedPunch,.longShift,.noSchedule,.nonScheduledDay,.outsideSchedule]

/-- `resolve_matching` for a kind and an entry, and nothing for entry 0. -/
def resolvePairing (env:Env) (employeeId:ℤ) (p:ExceptionKind × ℤ) : PunchM Unit :=
 if p.2=0 then return ()
 else do
  let _ ← resolveMatching env { kind:=p.1,employeeId,entryId:=p.2 } (ascii "pairing")
  return ()

def resolveUnpaired (env:Env) (employeeId:ℤ) (e:TimeEntry) : PunchM Unit := do
 let _ ← resolveMatching env { kind:=.unpairedPunch,employeeId,entryId:=e.id } (ascii "pairing")
 return ()

def dropShift (env:Env) (employeeId:ℤ) (sh:Shift) : PunchM Unit := do
 forAll (resolvePairing env employeeId)
  (pairingKinds.flatMap fun kind=>[(kind,sh.inEntryId),(kind,sh.outEntryId)])
 removeAnnotations sh.id
 remove shifts sh.id

def flagUnpaired (env:Env) (employeeId:ℤ) (e:TimeEntry) (why:String) : PunchM (List ℤ) :=
 flag env { kind:=.unpairedPunch,employeeId,entryId:=e.id,deviceId:=e.deviceId } (ascii why)

def kHourUs : ℤ := 3600*1000000

def storeShift (sh:Shift) : PunchM Shift := do
 let id ← nextId shifts
 insert shifts { sh with id }
 return { sh with id }

/-- An open shift is stored as it is; one that a later punch interrupted is flagged, and so is one that has been
open too long. -/
def persistOpen (env:Env) (employeeId:ℤ) (interrupted:Bool) : Option (Shift × TimeEntry) → PunchM (List ℤ)
 | none=>return []
 | some (sh,inEntry)=>do
  let _ ← storeShift sh
  if interrupted then flagUnpaired env employeeId inEntry "in punch without an out punch"
  else if env.cfg.longShiftHours*kHourUs ≤ env.now-sh.inTime then
   flagUnpaired env employeeId inEntry "in punch still open past the long-shift threshold"
  else return []

def beginShift (employeeId:ℤ) (e:TimeEntry) : Shift :=
 { employeeId,deviceId:=e.deviceId,inEntryId:=e.id
   localDay:=match parseLocalTime e.localTime with
     | .ok lt=>lt.localDay
     | .error _=>0
   periodId:=e.periodId,inTime:=e.deviceTime,payCode:=e.payCode,state:=e.state }

def endShift (sh:Shift) (e:TimeEntry) : Shift :=
 { sh with outEntryId:=e.id,outTime:=e.deviceTime,durationUs:=some (e.deviceTime-sh.inTime)
           payCode:=if sh.payCode=[] then e.payCode else sh.payCode }

def flagLong (env:Env) (employeeId:ℤ) (sh:Shift) : PunchM (List ℤ) :=
 if env.cfg.longShiftHours*kHourUs ≤ sh.outTime-sh.inTime then
  flag env { kind:=.longShift,employeeId,entryId:=sh.inEntryId }
   (ascii ("shift of " ++ toString ((sh.outTime-sh.inTime).tdiv kHourUs) ++ " hours"))
 else return []

def closeShift (env:Env) (employeeId:ℤ) (sh:Shift) (inEntry e:TimeEntry) : PunchM (List ℤ) := do
 let sh ← storeShift (endShift sh e)
 let long ← flagLong env employeeId sh
 let scheduled ← checkSchedule env inEntry e
 recordAnnotations env.cfg sh inEntry e
 return long++scheduled

/-- One punch of the fold: the shift that is open after it, and the exceptions it opened. -/
def foldEntry (env:Env) (employeeId:ℤ) (current:Option (Shift × TimeEntry)) (e:TimeEntry) :
  PunchM (Option (Shift × TimeEntry) × List ℤ) :=
 match e.kind,current with
 | .in_,_=>do
  let opened ← persistOpen env employeeId true current
  return (some (beginShift employeeId e,e),opened)
 | .out,none=>do
  let opened ← flagUnpaired env employeeId e "out punch without an in punch"
  return (none,opened)
 | .out,some (sh,inEntry)=>
  if pairOut sh e then do
   let opened ← closeShift env employeeId sh inEntry e
   return (none,opened)
  else if sh.deviceId≠e.deviceId then do
   let opened ← flagUnpaired env employeeId e "out punch from a different device than the open in punch"
   return (some (sh,inEntry),opened)
  else do
   let interrupted ← persistOpen env employeeId true (some (sh,inEntry))
   let opened ← flagUnpaired env employeeId e "out punch without an in punch"
   return (none,interrupted++opened)

def foldEntries (env:Env) (employeeId:ℤ) : List TimeEntry → Option (Shift × TimeEntry) → PunchM (List ℤ)
 | [],current=>persistOpen env employeeId false current
 | e::rest,current=>do
  let (current,opened) ← foldEntry env employeeId current e
  let more ← foldEntries env employeeId rest current
  return opened++more

def idSet (l:List ℤ) : List ℤ := ((l.filter fun id=>id≠0).insertionSort (· ≤ ·)).dedup

def repairPairing (env:Env) (employeeId fromUs:ℤ) : PunchM (List ℤ) := do
 match ← reads fun db=>rebuildRange db employeeId (db.shifts.rows.length+2) fromUs with
 | none=>fail stillRunning
 | some (start,affected)=>do
  forAll (dropShift env employeeId) affected
  let all ← reads fun db=>currentEntriesFrom db employeeId start
  let entries:=all.filter fun e=>!laterThanSubmitted e.state
  forAll (resolveUnpaired env employeeId) entries
  let opened ← foldEntries env employeeId entries none
  rebuildMeals employeeId start
  forAll (evaluateHold env employeeId)
   (idSet (affected.map Shift.periodId++all.map TimeEntry.periodId))
  return opened

structure IncomingEntry where
 entryUuid : UuidBytes
 journalSequence : ℤ
 kind : Bytes
 deviceTimeUs : ℤ
 localTime : Bytes
 siteZone : Bytes := []
 tzdbVersion : Bytes := []
 payCode : Bytes := []
 note : Bytes := []
 breakCode : Bytes := []
 deriving DecidableEq

structure IncomingReport where
 kind : Bytes
 detail : Bytes
 deriving DecidableEq

structure IncomingBatch where
 batchUuid : UuidBytes
 journalId : UuidBytes
 /-- 0: not sent -/
 clientTimeUs : ℤ := 0
 entries : List IncomingEntry
 reports : List IncomingReport := []
 deriving DecidableEq

structure EntryOutcome where
 entryUuid : UuidBytes
 journalSequence : ℤ
 accepted : Bool
 reason : Bytes := []
 deriving DecidableEq

structure SyncOutcome where
 outcomes : List EntryOutcome
 ackedSequences : List ℤ
 lastAckedSequence : ℤ
 accepted : ℤ
 rejected : ℤ
 replayed : Bool
 clockDivergenceUs : Option ℤ
 exceptionsOpened : List ℤ
 deriving DecidableEq

def validateIncoming (e:IncomingEntry) : Except Status LocalTime := do
 if e.kind≠ascii "in" ∧ e.kind≠ascii "out" then throw (invalidArgument "kind must be in or out")
 if e.deviceTimeUs ≤ 0 then throw (invalidArgument "device_time_us must be positive")
 if e.journalSequence<0 then throw (invalidArgument "journal_sequence must be non-negative")
 let lt ← parseLocalTime e.localTime
 if 64<e.siteZone.length then throw (invalidArgument "site_zone is too long")
 if 32<e.tzdbVersion.length then throw (invalidArgument "tzdb_version is too long")
 if 4096<e.note.length then throw (invalidArgument "note is too long")
 if 64<e.payCode.length then throw (invalidArgument "pay_code is too long")
 if 8<e.breakCode.length then throw (invalidArgument "break_code is too long")
 if e.breakCode≠[] ∧ e.kind≠ascii "out" then throw (invalidArgument "a break code applies to an out punch")
 return lt

inductive Verdict
 /-- The uuid was seen earlier in the batch. -/
 | repeated
 /-- The device sent the entry before. -/
 | replayed
 /-- Another device's entry has the uuid. -/
 | foreign
 | refused (why:Bytes)
 | fresh (lt:LocalTime)
 deriving DecidableEq

def sequenceUsed (db:Db) (journalId:UuidBytes) (sequence:ℤ) : Bool :=
 db.timeEntries.rows.any fun e=>e.journalId=some journalId ∧ e.journalSequence=sequence

def judgeNew (db:Db) (env:Env) (device:Device) (journalId:UuidBytes) (e:IncomingEntry) : Verdict :=
 match validateIncoming e with
 | .error s=>.refused (ascii s.message)
 | .ok lt=>
  if sequenceUsed db journalId e.journalSequence then
   .refused (ascii ("journal sequence " ++ toString e.journalSequence ++ " is already stored under another entry uuid"))
  else if e.payCode≠[] ∧ payCodeActive db e.payCode=false then
   .refused (ascii "unknown or inactive pay code '" ++ e.payCode++ascii "'")
  else if e.breakCode≠[] ∧ breakCodeActive db e.breakCode=false then
   .refused (ascii "unknown or inactive break code '" ++ e.breakCode++ascii "'")
  else match deviceAttestedValid db device.id env.now with
   | some why=>.refused (ascii why)
   | none=>.fresh lt

def judge (db:Db) (env:Env) (device:Device) (journalId:UuidBytes) (inBatch:List UuidBytes)
  (e:IncomingEntry) : Verdict :=
 if e.entryUuid∈inBatch then .repeated
 else match db.entryByUuid e.entryUuid with
  | some old=>if old.deviceId≠device.id then .foreign else .replayed
  | none=>judgeNew db env device journalId e

structure Progress where
 outcomes : List EntryOutcome := []
 acked : List ℤ := []
 accepted : ℤ := 0
 rejected : ℤ := 0
 rejectedDetail : Bytes := []
 opened : List ℤ := []
 inBatch : List UuidBytes := []
 /-- 0: none -/
 earliestNew : ℤ := 0
 periodsTouched : List ℤ := []
 firstSeq : ℤ := -1
 lastSeq : ℤ := -1
 /-- `period_settled`: what was found for a period stays. -/
 settled : List (ℤ × Bool) := []
 zoneDisagrees : Bool := false
 zoneAgrees : Bool := false
 zoneClaimed : Bytes := []
 deriving DecidableEq

namespace Progress

def noteZone (p:Progress) (zone:Bytes) (e:IncomingEntry) : Progress :=
 if e.siteZone=[] then p
 else if e.siteZone≠zone then
  { p with zoneDisagrees:=true,zoneClaimed:=if p.zoneClaimed=[] then e.siteZone.take 64 else p.zoneClaimed }
 else { p with zoneAgrees:=true }

def reject (p:Progress) (e:IncomingEntry) (why:Bytes) : Progress :=
 { p with
   rejected:=p.rejected+1
   outcomes:=p.outcomes ++
     [{ entryUuid:=e.entryUuid,journalSequence:=e.journalSequence,accepted:=false,reason:=why }]
   rejectedDetail:=p.rejectedDetail++ascii (Value.uuidText e.entryUuid.1)++ascii ": " ++ why++ascii "\n" }

def accept (p:Progress) (e:IncomingEntry) : Progress :=
 { p with
   accepted:=p.accepted+1
   outcomes:=p.outcomes++[{ entryUuid:=e.entryUuid,journalSequence:=e.journalSequence,accepted:=true }]
   acked:=p.acked++[e.journalSequence]
   firstSeq:=if p.firstSeq<0 ∨ e.journalSequence<p.firstSeq then e.journalSequence else p.firstSeq
   lastSeq:=max p.lastSeq e.journalSequence }

def see (p:Progress) (e:IncomingEntry) : Progress := { p with inBatch:=e.entryUuid::p.inBatch }

end Progress

/-- Entries of the employee in the period are past `recorded`. -/
def periodSettled (db:Db) (employeeId periodId:ℤ) : Bool :=
 (db.entriesInPeriod periodId employeeId).any fun e=>e.supersededBy=0 ∧ e.state≠.recorded

def entryOf (env:Env) (device:Device) (zone:Bytes) (batch:IncomingBatch) (divergence:Option ℤ)
  (e:IncomingEntry) (id periodId:ℤ) : TimeEntry :=
 { id,entryUuid:=e.entryUuid,employeeId:=device.employeeId,deviceId:=device.id
   journalId:=some batch.journalId,journalSequence:=e.journalSequence
   kind:=if e.kind=ascii "out" then .out else .in_
   deviceTime:=e.deviceTimeUs,localTime:=e.localTime,siteZone:=zone,tzdbVersion:=env.release
   receiptTime:=env.now,attestation:=.device,clockDivergenceUs:=divergence,periodId
   state:=.recorded,payCode:=e.payCode,createdAt:=env.now,note:=e.note }

def openPeriodOf (period:Option PayPeriod) : ℤ :=
 match period with
 | some p=>if p.state=.open_ then p.id else 0
 | none=>0

def flagLate (env:Env) (row:TimeEntry) (late:Bool) : PunchM (List ℤ) :=
 if late then flag env { kind:=.latePunch,employeeId:=row.employeeId,entryId:=row.id,periodId:=row.periodId }
  (ascii "punch received after the period's entries were submitted or approved")
 else return []

def flagLocked (env:Env) (row:TimeEntry) (period:Option PayPeriod) : PunchM (List ℤ) :=
 match period.filter fun p=>p.state=.locked with
 | some p=>flag env { kind:=.pastCutoff,employeeId:=row.employeeId,entryId:=row.id,periodId:=p.id }
   (ascii "punch received for a locked pay period; needs a retroactive adjustment")
 | none=>return []

def storeEntry (env:Env) (device:Device) (zone:Bytes) (batch:IncomingBatch) (divergence:Option ℤ)
  (e:IncomingEntry) (lt:LocalTime) (p:Progress) : PunchM Progress := do
 let period ← reads fun db=>db.periodForDay lt.localDay
 let id ← nextId timeEntries
 let row:=entryOf env device zone batch divergence e id (openPeriodOf period)
 let valid ← reads fun db=>entryPeriodValid db lt.localDay row.periodId
 ofExcept valid
 let late ← reads fun db=>
  if row.periodId=0 then false
  else (p.settled.lookup row.periodId).getD (periodSettled db device.employeeId row.periodId)
 let p:=if row.periodId=0 then p else { p with settled:=p.settled++[(row.periodId,late)] }
 insert timeEntries row
 onlyIf (e.breakCode≠[]) (markEntryBreak row.id e.breakCode)
 let p:=(p.see e).accept e
 let lateOpened ← flagLate env row late
 let lockedOpened ← flagLocked env row period
 return { p with
  opened:=p.opened++lateOpened++lockedOpened
  earliestNew:=if p.earliestNew=0 ∨ row.deviceTime<p.earliestNew then row.deviceTime else p.earliestNew
  periodsTouched:=if row.periodId=0 then p.periodsTouched else p.periodsTouched++[row.periodId] }

def takeEntry (env:Env) (device:Device) (zone:Bytes) (batch:IncomingBatch) (divergence:Option ℤ)
  (p:Progress) (e:IncomingEntry) : PunchM Progress := do
 let p:=p.noteZone zone e
 let verdict ← reads fun db=>judge db env device batch.journalId p.inBatch e
 match verdict with
 | .repeated=>return p.accept e
 | .replayed=>return (p.see e).accept e
 | .foreign=>return (p.see e).reject e (ascii "entry uuid belongs to another device")
 | .refused why=>return p.reject e why
 | .fresh lt=>storeEntry env device zone batch divergence e lt p

def takeEntries (env:Env) (device:Device) (zone:Bytes) (batch:IncomingBatch) (divergence:Option ℤ) :
  List IncomingEntry → Progress → PunchM Progress
 | [],p=>return p
 | e::rest,p=>do
  let p ← takeEntry env device zone batch divergence p e
  takeEntries env device zone batch divergence rest p

def inJournalOrder (batch:IncomingBatch) : List IncomingEntry :=
 batch.entries.insertionSort fun a b=>a.journalSequence ≤ b.journalSequence

def aboutDevice (device:Device) (kind:ExceptionKind) : ExceptionKey :=
 { kind,deviceId:=device.id,employeeId:=device.employeeId }

def flagDivergence (env:Env) (device:Device) (divergence:Option ℤ) : PunchM (List ℤ) :=
 match divergence with
 | none=>return []
 | some us=>
  let tol:=env.cfg.clockDivergenceToleranceSeconds*1000000
  if tol<us ∨ us < -tol then
   flag env (aboutDevice device .clockDivergence)
    (ascii ("device clock differs from the server's by " ++ toString (us.tdiv 1000000) ++ " s"))
  else return []

def settleZone (env:Env) (device:Device) (zone:Bytes) (p:Progress) : PunchM (List ℤ) :=
 if p.zoneDisagrees then
  flag env (aboutDevice device .localClockMismatch)
   (ascii "device reports site zone '" ++ p.zoneClaimed++ascii "', the server's record for the employee is '" ++
    zone++ascii "'; the server's record was used")
 else if p.zoneAgrees then do
  let _ ← resolveMatching env (aboutDevice device .localClockMismatch)
   (ascii "device agreed with the server's site zone")
  return []
 else return []

def sameRejections (db:Db) (device:Device) (detail:Bytes) : Bool :=
 (openExceptions db [device.employeeId] .entryRejected).any fun x=>x.deviceId=device.id ∧ x.detail=detail

def flagRejected (env:Env) (device:Device) (p:Progress) : PunchM (List ℤ) :=
 if p.rejectedDetail=[] then return []
 else do
  let detail:=p.rejectedDetail.take 2048
  let same ← reads fun db=>sameRejections db device detail
  if same then return []
  else do
   let _ ← resolveMatching env (aboutDevice device .entryRejected) (ascii "sync")
   flag env (aboutDevice device .entryRejected) detail

def reportKind (kind:Bytes) : Option ExceptionKind :=
 if kind=ascii "retry_exhausted" then some .retryExhausted
 else if kind=ascii "journal_recovery" then some .journalRecovery
 else none

def takeReport (env:Env) (device:Device) (r:IncomingReport) : PunchM (List ℤ) :=
 match reportKind r.kind with
 | none=>fail (invalidArgument "report kind must be retry_exhausted or journal_recovery")
 | some kind=>flag env (aboutDevice device kind) (r.detail.take 512)

def heardFrom (env:Env) (device:Device) (batch:IncomingBatch) (acked:List ℤ) : Device :=
 { device with lastSeenAt:=env.now,lastJournalId:=some batch.journalId
               lastAckedSequence:=acked.foldl max device.lastAckedSequence }

def recordBatch (env:Env) (device:Device) (batch:IncomingBatch) (divergence:Option ℤ) (p:Progress) :
  Option SyncBatch → PunchM Unit
 | some b=>update syncBatches { b with accepted:=p.accepted,rejected:=p.rejected,receivedAt:=env.now }
 | none=>do
  let id ← nextId syncBatches
  insert syncBatches {
   id,batchUuid:=batch.batchUuid,deviceId:=device.id,receivedAt:=env.now
   firstSequence:=max p.firstSeq 0,lastSequence:=max p.lastSeq 0,accepted:=p.accepted
   rejected:=p.rejected,clientTimeUs:=batch.clientTimeUs,clockDivergenceUs:=divergence
   journalId:=some batch.journalId }

def settleNew (env:Env) (device:Device) (p:Progress) : PunchM (List ℤ) := do
 let paired ← if p.earliestNew=0 then pure [] else repairPairing env device.employeeId p.earliestNew
 let counted ← forEachOpened (countDeviceAttested env device.employeeId) (idSet p.periodsTouched)
 return paired++counted

def divergenceOf (env:Env) (batch:IncomingBatch) : Option ℤ :=
 if batch.clientTimeUs=0 then none else some (env.now-batch.clientTimeUs)

def applyBatch (env:Env) (device:Device) (batch:IncomingBatch) : PunchM SyncOutcome := do
 if env.cfg.maxBatchEntries<batch.entries.length then
  fail (invalidArgument ("batch exceeds " ++ toString env.cfg.maxBatchEntries ++ " entries"))
 else do
  let seen ← reads fun db=>db.batchByUuid batch.batchUuid
  match ← reads fun db=>db.employeeById device.employeeId with
  | none=>fail (notFound "the device's employee does not exist")
  | some employee=>do
   let divergence:=divergenceOf env batch
   let diverged ← flagDivergence env device divergence
   let p ← takeEntries env device employee.siteZone batch divergence (inJournalOrder batch) { opened:=diverged }
   let settled ← settleNew env device p
   let zoned ← settleZone env device employee.siteZone p
   let refused ← flagRejected env device p
   let reported ← forEachOpened (takeReport env device) batch.reports
   let heard:=heardFrom env device batch p.acked
   update devices heard
   let _ ← resolveMatching env (aboutDevice device .deviceStale) (ascii "sync")
   recordBatch env device batch divergence p seen
   return {
    outcomes:=p.outcomes,ackedSequences:=(p.acked.insertionSort (· ≤ ·)).dedup
    lastAckedSequence:=heard.lastAckedSequence,accepted:=p.accepted,rejected:=p.rejected
    replayed:=seen.isSome,clockDivergenceUs:=divergence
    exceptionsOpened:=p.opened++settled++zoned++refused++reported }

structure ManualEntry where
 employeeId : ℤ
 kind : Bytes
 deviceTimeUs : ℤ
 localTime : Bytes
 payCode : Bytes := []
 note : Bytes := []
 breakCode : Bytes := []
 correctionOf : ℤ := 0
 reason : Bytes
 editClass : Bytes
 reasonCode : Bytes
 editor : Bytes
 deriving DecidableEq

def reasonChar (c:UInt8) : Bool := 65 ≤ c.toNat ∧ c.toNat ≤ 90 ∨ 48 ≤ c.toNat ∧ c.toNat ≤ 57 ∨ c.toNat=95

def editClassOf (s:Bytes) : Option EditClass :=
 if s=ascii "payroll" then some .payroll else if s=ascii "supervisor" then some .supervisor else none

def validateManual (m:ManualEntry) : Except Status (LocalTime × EditClass) := do
 if m.kind≠ascii "in" ∧ m.kind≠ascii "out" then throw (invalidArgument "kind must be in or out")
 if m.deviceTimeUs ≤ 0 then throw (invalidArgument "device_time_us must be positive")
 let lt ← parseLocalTime m.localTime
 if m.reason=[] then throw (constraint "PL-4: a manual entry needs a reason")
 match editClassOf m.editClass with
 | none=>throw (invalidArgument "edit_class must be payroll or supervisor")
 | some cls=>
  if m.reasonCode=[] ∨ 16 < m.reasonCode.length then
   throw (invalidArgument "a reason_code of 1 to 16 characters is required")
  if !m.reasonCode.all reasonChar then
   throw (invalidArgument "reason_code is upper-case letters, digits and underscore")
  if m.breakCode≠[] ∧ m.kind≠ascii "out" then
   throw (invalidArgument "a break code applies to an out punch")
  return (lt,cls)

def originalOf (db:Db) (m:ManualEntry) : Except Status TimeEntry := do
 correctionValid db m.correctionOf m.employeeId m.reason
 match db.entryById m.correctionOf with
 | none=>throw (constraint "PL-4: no such entry to correct")
 | some o=>
  if o.supersededBy≠0 then throw (constraint "PL-4: that entry has already been corrected")
  if laterThanSubmitted o.state then
   throw (constraint ("PL-4: an entry that is " ++ o.state.text ++
    " takes a retroactive adjustment, not a correction"))
  return o

/-- The employee's devices, the active ones first, then by the time they were revoked. -/
def devicesOf (db:Db) (employeeId:ℤ) : List Device :=
 (db.devices.rows.filter fun d=>d.employeeId=employeeId).insertionSort fun a b=>
  a.revokedAt=0 ∨ b.revokedAt≠0 ∧ a.revokedAt ≤ b.revokedAt

def bestDevice (db:Db) (employeeId:ℤ) : Device :=
 (devicesOf db employeeId).foldl (fun best d=>
  if best.id=0 ∨ d.revokedAt=0 ∨ best.enrolledAt<d.enrolledAt then d else best) {}

/-- The entry that is corrected, if one is, and the device of the new one. -/
def sourceOf (db:Db) (m:ManualEntry) : Except Status (Option TimeEntry × ℤ) :=
 if m.correctionOf≠0 then do
  let o ← originalOf db m
  return (some o,o.deviceId)
 else
  let best:=bestDevice db m.employeeId
  if best.id=0 then .error (constraint "employee has no device to attribute a manual entry to")
  else .ok (none,best.id)

def manualPeriod (db:Db) (m:ManualEntry) (lt:LocalTime) (cls:EditClass) : Except Status (Option PayPeriod) :=
 match db.periodForDay lt.localDay with
 | none=>.ok none
 | some p=>
  if p.state=.locked then
   .error (constraint "pay period is locked; a retroactive adjustment is the payroll console's action")
  else if cls=.payroll ∧ (openHold db m.employeeId p.id).isSome then .error (notFound "no such timesheet")
  else .ok (some p)

def manualUuid (id:ℤ) : UuidBytes :=
 ⟨0xEE::List.replicate 7 0++(toLE 8 (Int64.ofInt id).toUInt64.toNat).reverse,by simp⟩

def manualRow (env:Env) (m:ManualEntry) (employee:Employee) (deviceId:ℤ) (period:Option PayPeriod) (id:ℤ) :
  TimeEntry :=
 { id,entryUuid:=manualUuid id,employeeId:=m.employeeId,deviceId
   kind:=if m.kind=ascii "out" then .out else .in_
   deviceTime:=m.deviceTimeUs,localTime:=m.localTime,siteZone:=employee.siteZone,tzdbVersion:=env.release
   receiptTime:=env.now,attestation:=.manual,periodId:=(period.map PayPeriod.id).getD 0
   state:=.recorded,payCode:=m.payCode,correctionOf:=m.correctionOf,correctionReason:=m.reason
   createdAt:=env.now,note:=m.note }

def resolveCorrected (env:Env) (employeeId:ℤ) (original:TimeEntry) (kind:ExceptionKind) : PunchM Unit := do
 let key:ExceptionKey:={ kind,employeeId,entryId:=original.id }
 let _ ← resolveMatching env key (ascii "correction")
 let _ ← resolveMatching env { key with deviceId:=original.deviceId } (ascii "correction")
 return ()

/-- The corrected entry points to its correction, and its own exceptions are moot. -/
def supersede (env:Env) (row:TimeEntry) : Option TimeEntry → PunchM ℤ
 | none=>return row.deviceTime
 | some original=>do
  update timeEntries { original with supersededBy:=row.id }
  forAll (resolveCorrected env row.employeeId original) pairingKinds
  return min row.deviceTime original.deviceTime

def recordManualEntry (env:Env) (m:ManualEntry) : PunchM TimeEntry := do
 let (lt,cls) ← ofExcept (validateManual m)
 match ← reads fun db=>db.employeeById m.employeeId with
 | none=>fail (notFound "no such employee")
 | some employee=>do
  let source ← reads fun db=>sourceOf db m
  let (original,deviceId) ← ofExcept source
  let active ← reads fun db=>payCodeActive db m.payCode
  if m.payCode≠[] ∧ active=false then
   fail (invalidArgument ("unknown or inactive pay code '" ++ text m.payCode ++ "'"))
  else do
   let found ← reads fun db=>manualPeriod db m lt cls
   let period ← ofExcept found
   let id ← nextId timeEntries
   let row:=manualRow env m employee deviceId period id
   let valid ← reads fun db=>entryPeriodValid db lt.localDay row.periodId
   ofExcept valid
   insert timeEntries row
   onlyIf (m.breakCode≠[]) (markEntryBreak row.id m.breakCode)
   recordEntryEdit env row.id cls m.reasonCode m.editor
   let start ← supersede env row original
   let _ ← repairPairing env m.employeeId start
   return row

end Archivum.Sync
