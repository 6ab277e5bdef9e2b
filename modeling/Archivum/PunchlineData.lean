import Archivum.KeyedTables
import Archivum.LocalTime

set_option autoImplicit false

/-!
# The rows of the Punchline tables

The structs that the module reads rows into, and the rows it writes. A zero
time or id means NULL where the column is nullable, and an empty text likewise.
An integer is an `int64` of the code; no sum here is meant to wrap.
-/
namespace Archivum.PunchlineData
open ByteStrings RecordModel KeyedTables

inductive EntryState
 | recorded | submitted | approved | released | locked
 deriving DecidableEq,Repr

inductive PunchKind
 | in_ | out
 deriving DecidableEq,Repr

inductive Attestation
 | device | server | manual
 deriving DecidableEq,Repr

inductive PeriodState
 | open_ | locked
 deriving DecidableEq,Repr

inductive ExceptionKind
 | outsideSchedule | nonScheduledDay | noSchedule | longShift | clockDivergence | deviceAttestedCount
 | retryExhausted | deviceStale | approverFlag | unpairedPunch | employeeIdAsserted | pastCutoff
 | journalRecovery | latePunch | entryRejected | localClockMismatch
 deriving DecidableEq,Repr

inductive ExceptionState
 | open_ | resolved | dismissed
 deriving DecidableEq,Repr

inductive HoldReason
 | dailyHours | weeklyHours
 deriving DecidableEq,Repr

inductive EditClass
 | payroll | supervisor
 deriving DecidableEq,Repr

inductive Comparison
 | greaterThan | atLeast
 deriving DecidableEq,Repr

def EntryState.text : EntryState → String
 | recorded => "recorded"
 | submitted => "submitted"
 | approved => "approved"
 | released => "released"
 | locked => "locked"

def PunchKind.text : PunchKind → String
 | in_ => "in"
 | out => "out"

def Attestation.text : Attestation → String
 | device => "device"
 | server => "server"
 | manual => "manual"

def PeriodState.text : PeriodState → String
 | open_ => "open"
 | locked => "locked"

def ExceptionKind.text : ExceptionKind → String
 | outsideSchedule => "outside_schedule"
 | nonScheduledDay => "non_scheduled_day"
 | noSchedule => "no_schedule"
 | longShift => "long_shift"
 | clockDivergence => "clock_divergence"
 | deviceAttestedCount => "device_attested_count"
 | retryExhausted => "retry_exhausted"
 | deviceStale => "device_stale"
 | approverFlag => "approver_flag"
 | unpairedPunch => "unpaired_punch"
 | employeeIdAsserted => "employee_id_asserted"
 | pastCutoff => "past_cutoff"
 | journalRecovery => "journal_recovery"
 | latePunch => "late_punch"
 | entryRejected => "entry_rejected"
 | localClockMismatch => "local_clock_mismatch"

def ExceptionState.text : ExceptionState → String
 | open_ => "open"
 | resolved => "resolved"
 | dismissed => "dismissed"

def HoldReason.text : HoldReason → String
 | dailyHours => "daily_hours"
 | weeklyHours => "weekly_hours"

def EditClass.text : EditClass → String
 | payroll => "payroll"
 | supervisor => "supervisor"

def Comparison.text : Comparison → String
 | greaterThan => "greater_than"
 | atLeast => "at_least"

def int (v:ℤ) : Value := .integer (Int64.ofInt v)
def ts (v:ℤ) : Value := .timestamp (Int64.ofInt v)
def str (s:String) : Value := .text (ascii s)

def optText (s:Bytes) : Value := if s=[] then .null else .text s
def optTs (t:ℤ) : Value := if t=0 then .null else ts t
def optId (t:ℤ) : Value := if t=0 then .null else int t
def optInt (v:Option ℤ) : Value := v.elim .null int
def optUuid (u:Option UuidBytes) : Value := u.elim .null .uuid

/-- `UuidBytes{}` -/
def zeroUuid : UuidBytes := ⟨List.replicate 16 0,rfl⟩

structure Employee where
 id : ℤ
 employeeNumber : Bytes
 displayName : Bytes
 email : Bytes := []
 tid : Bytes := []
 oid : Bytes := []
 active : Bool := true
 payGroup : Bytes := []
 siteZone : Bytes
 createdAt : ℤ := 0
 updatedAt : ℤ := 0
 company : Bytes := []
 costCenter : Bytes := []
 deriving DecidableEq

instance : Keyed Employee := ⟨Employee.id⟩

def Employee.toRow (e:Employee) : Row :=
 [int e.id,.text e.employeeNumber,.text e.displayName,optText e.email,optText e.tid,optText e.oid,
  .boolean e.active,optText e.payGroup,.text e.siteZone,ts e.createdAt,ts e.updatedAt,optText e.company,
  optText e.costCenter]

structure Device where
 id : ℤ := 0
 deviceUuid : UuidBytes := zeroUuid
 name : Bytes := []
 employeeId : ℤ := 0
 credentialHash : Bytes := []
 enrolledAt : ℤ := 0
 enrolledBy : Bytes := []
 /-- 0: active -/
 revokedAt : ℤ := 0
 revokedReason : Bytes := []
 lastSeenAt : ℤ := 0
 /-- -1: none -/
 lastAckedSequence : ℤ := -1
 lastJournalId : Option UuidBytes := none
 employeeIdRejections : ℤ := 0
 deriving DecidableEq

instance : Keyed Device := ⟨Device.id⟩

def Device.toRow (d:Device) : Row :=
 [int d.id,.uuid d.deviceUuid,.text d.name,int d.employeeId,.blob d.credentialHash,ts d.enrolledAt,
  .text d.enrolledBy,optTs d.revokedAt,optText d.revokedReason,optTs d.lastSeenAt,
  if d.lastAckedSequence<0 then .null else int d.lastAckedSequence,optUuid d.lastJournalId,
  int d.employeeIdRejections]

structure PayPeriod where
 id : ℤ
 /-- Site-local days since 1970-01-01, both inclusive. -/
 startDay : ℤ
 endDay : ℤ
 siteZone : Bytes
 tzdbVersion : Bytes
 state : PeriodState := .open_
 submitBy : ℤ := 0
 approveBy : ℤ := 0
 releaseAt : ℤ := 0
 deriving DecidableEq

instance : Keyed PayPeriod := ⟨PayPeriod.id⟩

def PayPeriod.toRow (p:PayPeriod) : Row :=
 [int p.id,int p.startDay,int p.endDay,.text p.siteZone,.text p.tzdbVersion,str p.state.text,
  optTs p.submitBy,optTs p.approveBy,optTs p.releaseAt]

structure SupervisorAssignment where
 id : ℤ
 employeeId : ℤ
 supervisorEmployeeId : ℤ
 effectiveFrom : ℤ
 /-- 0: open -/
 effectiveTo : ℤ
 assignedBy : Bytes
 auditId : ℤ
 deriving DecidableEq

instance : Keyed SupervisorAssignment := ⟨SupervisorAssignment.id⟩

def SupervisorAssignment.toRow (a:SupervisorAssignment) : Row :=
 [int a.id,int a.employeeId,int a.supervisorEmployeeId,ts a.effectiveFrom,optTs a.effectiveTo,
  .text a.assignedBy,int a.auditId]

structure Schedule where
 id : ℤ
 employeeId : ℤ
 /-- 0 Sunday to 6 Saturday. -/
 weekday : ℤ
 startMinute : ℤ
 endMinute : ℤ
 /-- Local days, `effectiveTo` excluded; 0: open. -/
 effectiveFromDay : ℤ
 effectiveToDay : ℤ
 deriving DecidableEq

instance : Keyed Schedule := ⟨Schedule.id⟩

def Schedule.toRow (s:Schedule) : Row :=
 [int s.id,int s.employeeId,int s.weekday,int s.startMinute,int s.endMinute,int s.effectiveFromDay,
  optId s.effectiveToDay]

structure TimeEntry where
 id : ℤ
 entryUuid : UuidBytes
 employeeId : ℤ
 deviceId : ℤ
 /-- None for a manual entry. -/
 journalId : Option UuidBytes := none
 journalSequence : ℤ := 0
 kind : PunchKind
 deviceTime : ℤ
 localTime : Bytes
 siteZone : Bytes
 tzdbVersion : Bytes
 receiptTime : ℤ
 attestation : Attestation
 clockDivergenceUs : Option ℤ := none
 /-- 0: none -/
 periodId : ℤ := 0
 state : EntryState := .recorded
 payCode : Bytes := []
 approvalAuditId : ℤ := 0
 correctionOf : ℤ := 0
 correctionReason : Bytes := []
 createdAt : ℤ
 note : Bytes := []
 /-- 0: current -/
 supersededBy : ℤ := 0
 deriving DecidableEq

instance : Keyed TimeEntry := ⟨TimeEntry.id⟩

def TimeEntry.toRow (e:TimeEntry) : Row :=
 [int e.id,.uuid e.entryUuid,int e.employeeId,int e.deviceId,optUuid e.journalId,int e.journalSequence,
  str e.kind.text,ts e.deviceTime,.text e.localTime,.text e.siteZone,.text e.tzdbVersion,ts e.receiptTime,
  str e.attestation.text,optInt e.clockDivergenceUs,optId e.periodId,str e.state.text,optText e.payCode,
  optId e.approvalAuditId,optId e.correctionOf,optText e.correctionReason,ts e.createdAt,optText e.note,
  optId e.supersededBy]

structure Shift where
 id : ℤ := 0
 employeeId : ℤ
 deviceId : ℤ
 inEntryId : ℤ
 /-- 0: open -/
 outEntryId : ℤ := 0
 localDay : ℤ
 periodId : ℤ := 0
 inTime : ℤ
 outTime : ℤ := 0
 durationUs : Option ℤ := none
 payCode : Bytes := []
 state : EntryState := .recorded
 deriving DecidableEq

instance : Keyed Shift := ⟨Shift.id⟩

def Shift.toRow (s:Shift) : Row :=
 [int s.id,int s.employeeId,int s.deviceId,int s.inEntryId,optId s.outEntryId,int s.localDay,
  optId s.periodId,ts s.inTime,optTs s.outTime,optInt s.durationUs,optText s.payCode,str s.state.text]

structure SyncBatch where
 id : ℤ
 batchUuid : UuidBytes
 deviceId : ℤ
 receivedAt : ℤ
 firstSequence : ℤ
 lastSequence : ℤ
 accepted : ℤ
 rejected : ℤ
 clientTimeUs : ℤ
 clockDivergenceUs : Option ℤ
 journalId : Option UuidBytes
 deriving DecidableEq

instance : Keyed SyncBatch := ⟨SyncBatch.id⟩

def SyncBatch.toRow (b:SyncBatch) : Row :=
 [int b.id,.uuid b.batchUuid,int b.deviceId,ts b.receivedAt,int b.firstSequence,int b.lastSequence,
  int b.accepted,int b.rejected,optTs b.clientTimeUs,optInt b.clockDivergenceUs,optUuid b.journalId]

structure Approval where
 id : ℤ
 periodId : ℤ
 employeeId : ℤ
 fromState : EntryState
 toState : EntryState
 actedByTid : Bytes := []
 actedByOid : Bytes := []
 actedByAccount : Bytes := []
 actedAt : ℤ
 note : Bytes := []
 auditId : ℤ
 deriving DecidableEq

instance : Keyed Approval := ⟨Approval.id⟩

def Approval.toRow (a:Approval) : Row :=
 [int a.id,int a.periodId,int a.employeeId,str a.fromState.text,str a.toState.text,optText a.actedByTid,
  optText a.actedByOid,optText a.actedByAccount,ts a.actedAt,optText a.note,int a.auditId]

structure Exception where
 id : ℤ
 kind : ExceptionKind
 state : ExceptionState := .open_
 employeeId : ℤ := 0
 deviceId : ℤ := 0
 entryId : ℤ := 0
 periodId : ℤ := 0
 detail : Bytes := []
 openedAt : ℤ
 resolvedAt : ℤ := 0
 resolvedBy : Bytes := []
 resolutionAuditId : ℤ := 0
 deriving DecidableEq

instance : Keyed Exception := ⟨Exception.id⟩

def Exception.toRow (x:Exception) : Row :=
 [int x.id,str x.kind.text,str x.state.text,optId x.employeeId,optId x.deviceId,optId x.entryId,
  optId x.periodId,optText x.detail,ts x.openedAt,optTs x.resolvedAt,optText x.resolvedBy,
  optId x.resolutionAuditId]

structure ScheduleHours where
 id : ℤ
 employeeId : ℤ
 effectiveFromDay : ℤ
 /-- 0: open -/
 effectiveToDay : ℤ
 dailyMinutes : ℤ
 weeklyMinutes : ℤ
 setBy : Bytes
 auditId : ℤ
 deriving DecidableEq

instance : Keyed ScheduleHours := ⟨ScheduleHours.id⟩

def ScheduleHours.toRow (s:ScheduleHours) : Row :=
 [int s.id,int s.employeeId,int s.effectiveFromDay,optId s.effectiveToDay,int s.dailyMinutes,
  int s.weeklyMinutes,.text s.setBy,int s.auditId]

structure OvertimeAuthorization where
 id : ℤ
 employeeId : ℤ
 periodId : ℤ
 authorizedMinutes : ℤ
 note : Bytes
 authorizedByTid : Bytes
 authorizedByOid : Bytes
 authorizedAt : ℤ
 auditId : ℤ
 deriving DecidableEq

instance : Keyed OvertimeAuthorization := ⟨OvertimeAuthorization.id⟩

def OvertimeAuthorization.toRow (a:OvertimeAuthorization) : Row :=
 [int a.id,int a.employeeId,int a.periodId,int a.authorizedMinutes,.text a.note,.text a.authorizedByTid,
  .text a.authorizedByOid,ts a.authorizedAt,int a.auditId]

structure TimesheetHold where
 id : ℤ
 employeeId : ℤ
 periodId : ℤ
 reason : HoldReason
 detail : Bytes
 openedAt : ℤ
 /-- 0: open -/
 clearedAt : ℤ := 0
 authorizationId : ℤ := 0
 auditId : ℤ
 deriving DecidableEq

instance : Keyed TimesheetHold := ⟨TimesheetHold.id⟩

def TimesheetHold.toRow (h:TimesheetHold) : Row :=
 [int h.id,int h.employeeId,int h.periodId,str h.reason.text,.text h.detail,ts h.openedAt,optTs h.clearedAt,
  optId h.authorizationId,int h.auditId]

structure AnnotationRow where
 id : ℤ
 shiftId : ℤ
 code : Bytes
 detail : Bytes
 deriving DecidableEq

instance : Keyed AnnotationRow := ⟨AnnotationRow.id⟩

def AnnotationRow.toRow (a:AnnotationRow) : Row := [int a.id,int a.shiftId,.text a.code,.text a.detail]

structure BreakPremiumRule where
 id : ℤ
 breakCode : Bytes
 thresholdMinutes : ℤ
 comparison : Comparison
 definition : Bytes
 source : Bytes
 confirmed : Bool
 effectiveFromDay : ℤ
 effectiveToDay : ℤ
 setBy : Bytes
 auditId : ℤ
 deriving DecidableEq

instance : Keyed BreakPremiumRule := ⟨BreakPremiumRule.id⟩

def BreakPremiumRule.toRow (b:BreakPremiumRule) : Row :=
 [int b.id,.text b.breakCode,int b.thresholdMinutes,str b.comparison.text,.text b.definition,.text b.source,
  .boolean b.confirmed,int b.effectiveFromDay,optId b.effectiveToDay,.text b.setBy,int b.auditId]

structure EntryBreakCode where
 entryId : ℤ
 breakCode : Bytes
 deriving DecidableEq

instance : Keyed EntryBreakCode := ⟨EntryBreakCode.entryId⟩

def EntryBreakCode.toRow (b:EntryBreakCode) : Row := [int b.entryId,.text b.breakCode]

structure MealBreak where
 id : ℤ
 employeeId : ℤ
 outEntryId : ℤ
 inEntryId : ℤ := 0
 localDay : ℤ
 startedAt : ℤ
 /-- 0: still on the meal -/
 endedAt : ℤ := 0
 /-- -1: not ended -/
 minutes : ℤ := -1
 premium : Bool := false
 premiumRuleId : ℤ := 0
 deriving DecidableEq

instance : Keyed MealBreak := ⟨MealBreak.id⟩

def MealBreak.toRow (m:MealBreak) : Row :=
 [int m.id,int m.employeeId,int m.outEntryId,optId m.inEntryId,int m.localDay,ts m.startedAt,optTs m.endedAt,
  if m.minutes<0 then .null else int m.minutes,.boolean m.premium,optId m.premiumRuleId]

structure EntryEdit where
 id : ℤ
 entryId : ℤ
 editClass : EditClass
 reasonCode : Bytes
 editor : Bytes
 editedAt : ℤ
 auditId : ℤ
 deriving DecidableEq

instance : Keyed EntryEdit := ⟨EntryEdit.id⟩

def EntryEdit.toRow (e:EntryEdit) : Row :=
 [int e.id,int e.entryId,str e.editClass.text,.text e.reasonCode,.text e.editor,ts e.editedAt,int e.auditId]

/-- A code of `pay_codes` or `break_codes`: the flag is `paid` or `premium_eligible`. -/
structure Code where
 code : Bytes
 description : Bytes
 flag : Bool
 active : Bool
 deriving DecidableEq

def Code.toRow (c:Code) : Row := [.text c.code,.text c.description,.boolean c.flag,.boolean c.active]

structure AnnotationCode where
 code : Bytes
 description : Bytes
 active : Bool
 deriving DecidableEq

def AnnotationCode.toRow (c:AnnotationCode) : Row := [.text c.code,.text c.description,.boolean c.active]

/-- Of the audit log only the ids are kept: they are what other rows refer to. -/
structure AuditEntry where
 id : ℤ
 deriving DecidableEq

instance : Keyed AuditEntry := ⟨AuditEntry.id⟩

def AuditEntry.toRow (a:AuditEntry) : Row := [int a.id]

structure Config where
 longShiftHours : ℤ := 16
 clockDivergenceToleranceSeconds : ℤ := 300
 deviceAttestedThreshold : ℤ := 20
 scheduleToleranceMinutes : ℤ := 30
 maxBatchEntries : ℤ := 500
 weekStartWeekday : ℤ := 0
 deriving DecidableEq

end Archivum.PunchlineData
