import Archivum.ActionRules
import Archivum.PunchlineData
import Archivum.PunchlineSchema
import Archivum.RowRules

set_option autoImplicit false

/-!
# The Punchline tables and their writer

The typed tables of a store and the writes a recorder makes to them. A write is
checked against the schema on the rows the structs stand for; the change feed
row that follows it is not kept here.
-/
namespace Archivum.PunchlineDb
open ByteStrings StatefulActions PageTxn RecordModel TableDefs StoreModel RowRules KeyedTables PunchlineData

structure Db where
 pageSize : ℕ := 4096
 auditLog : Table AuditEntry := default
 employees : Table Employee := default
 devices : Table Device := default
 payPeriods : Table PayPeriod := default
 supervisorAssignments : Table SupervisorAssignment := default
 payCodes : List Code := []
 schedules : Table Schedule := default
 timeEntries : Table TimeEntry := default
 shifts : Table Shift := default
 syncBatches : Table SyncBatch := default
 approvals : Table Approval := default
 exceptions : Table Exception := default
 scheduleHours : Table ScheduleHours := default
 overtimeAuthorizations : Table OvertimeAuthorization := default
 timesheetHolds : Table TimesheetHold := default
 annotationCodes : List AnnotationCode := []
 shiftAnnotations : Table AnnotationRow := default
 breakCodes : List Code := []
 breakPremiumRules : Table BreakPremiumRule := default
 entryBreakCodes : Table EntryBreakCode := default
 mealBreaks : Table MealBreak := default
 entryEdits : Table EntryEdit := default
 deriving DecidableEq

def Db.contents (db:Db) : List (TableDef × List Row) :=
 [(PunchlineSchema.annotationCodes,db.annotationCodes.map AnnotationCode.toRow),
  (PunchlineSchema.approvals,db.approvals.rows.map Approval.toRow),
  (PunchlineSchema.auditLog,db.auditLog.rows.map AuditEntry.toRow),
  (PunchlineSchema.breakCodes,db.breakCodes.map Code.toRow),
  (PunchlineSchema.breakPremiumRules,db.breakPremiumRules.rows.map BreakPremiumRule.toRow),
  (PunchlineSchema.devices,db.devices.rows.map Device.toRow),
  (PunchlineSchema.employees,db.employees.rows.map Employee.toRow),
  (PunchlineSchema.entryBreakCodes,db.entryBreakCodes.rows.map EntryBreakCode.toRow),
  (PunchlineSchema.entryEdits,db.entryEdits.rows.map EntryEdit.toRow),
  (PunchlineSchema.exceptions,db.exceptions.rows.map Exception.toRow),
  (PunchlineSchema.mealBreaks,db.mealBreaks.rows.map MealBreak.toRow),
  (PunchlineSchema.overtimeAuthorizations,db.overtimeAuthorizations.rows.map OvertimeAuthorization.toRow),
  (PunchlineSchema.payCodes,db.payCodes.map Code.toRow),
  (PunchlineSchema.payPeriods,db.payPeriods.rows.map PayPeriod.toRow),
  (PunchlineSchema.scheduleHours,db.scheduleHours.rows.map ScheduleHours.toRow),
  (PunchlineSchema.schedules,db.schedules.rows.map Schedule.toRow),
  (PunchlineSchema.shiftAnnotations,db.shiftAnnotations.rows.map AnnotationRow.toRow),
  (PunchlineSchema.shifts,db.shifts.rows.map Shift.toRow),
  (PunchlineSchema.supervisorAssignments,db.supervisorAssignments.rows.map SupervisorAssignment.toRow),
  (PunchlineSchema.syncBatches,db.syncBatches.rows.map SyncBatch.toRow),
  (PunchlineSchema.timeEntries,db.timeEntries.rows.map TimeEntry.toRow),
  (PunchlineSchema.timesheetHolds,db.timesheetHolds.rows.map TimesheetHold.toRow)]

def catalog : Catalog := { tables:=(({}:Db).contents).map fun t=>(t.1.name,t.1) }

def Db.tables (db:Db) : Tables where
 pageSize := db.pageSize
 catalog:=catalog
 rows name:=((db.contents.find? fun t=>t.1.name == name).map Prod.snd).getD []

abbrev PunchM := Act Status Db

structure Env where
 cfg : Config := {}
 /-- `rec.audit_id()` -/
 auditId : ℤ
 /-- `tz::release_stamp()` -/
 release : Bytes
 /-- `now_us` -/
 now : ℤ

structure Entity (α:Type) [Keyed α] where
 schema : TableDef
 toRow : α → Row
 get : Db → Table α
 set : Table α → Db → Db

section Writes
variable {α:Type} [Keyed α] (T:Entity α)

def checkInsert (a:α) (db:Db) : Except Status Unit := do
 validateRow T.schema (T.toRow a)
 db.tables.checkKeyLength T.schema (T.toRow a)
 if ((T.get db).get? (key a)).isSome then throw (constraint ("primary key of " ++ text T.schema.name))
 db.tables.checkNewRow T.schema (T.toRow a)

/-- `Recorder::insert` -/
def insert (a:α) : PunchM Unit := fun db=>
 match checkInsert T a db with
 | .error e=>(.error e,db)
 | .ok ()=>(.ok (),T.set ((T.get db).put a) db)

def checkUpdate (a:α) (db:Db) : Except Status Unit :=
 match (T.get db).get? (key a) with
 | none=>throw (notFound ("no row to update in " ++ text T.schema.name))
 | some old=>do
  validateRow T.schema (T.toRow a)
  if rowsEqual (T.toRow old) (T.toRow a) then return ()
  else db.tables.checkChange T.schema (T.toRow old) (T.toRow a)

/-- `Recorder::update` -/
def update (a:α) : PunchM Unit := fun db=>
 match checkUpdate T a db with
 | .error e=>(.error e,db)
 | .ok ()=>(.ok (),T.set ((T.get db).put a) db)

def checkRemove (id:ℤ) (db:Db) : Except Status Unit :=
 match (T.get db).get? id with
 | none=>throw (notFound ("no row to remove in " ++ text T.schema.name))
 | some old=>db.tables.checkNoChildren T.schema (T.toRow old) none

/-- `Recorder::remove` of the row with an id. -/
def remove (id:ℤ) : PunchM Unit := fun db=>
 match checkRemove T id db with
 | .error e=>(.error e,db)
 | .ok ()=>(.ok (),T.set ((T.get db).erase id) db)

/-- `core::next_id` -/
def nextId : PunchM ℤ := Act.reads fun db=>(T.get db).lastKey+1

end Writes

section Effects
variable {α:Type} [Keyed α] {T:Entity α} {a:α} {id:ℤ} {db db':Db}

lemma insert_ok (h:insert T a db=(.ok (),db')) : checkInsert T a db=.ok () ∧ db'=T.set ((T.get db).put a) db := by
 unfold insert at h
 split at h
 · cases h
 · rename_i hcheck
   exact ⟨hcheck,(Prod.mk.inj h).2.symm⟩

lemma update_ok (h:update T a db=(.ok (),db')) : checkUpdate T a db=.ok () ∧ db'=T.set ((T.get db).put a) db := by
 unfold update at h
 split at h
 · cases h
 · rename_i hcheck
   exact ⟨hcheck,(Prod.mk.inj h).2.symm⟩

lemma remove_ok (h:remove T id db=(.ok (),db')) : checkRemove T id db=.ok () ∧ db'=T.set ((T.get db).erase id) db := by
 unfold remove at h
 split at h
 · cases h
 · rename_i hcheck
   exact ⟨hcheck,(Prod.mk.inj h).2.symm⟩

lemma checkInsert_fresh (h:checkInsert T a db=.ok ()) : (T.get db).get? (key a)=none := by
 unfold checkInsert at h
 cases hget:(T.get db).get? (key a) with
 | none=>rfl
 | some b=>
  rw [hget] at h
  cases hrow:validateRow T.schema (T.toRow a) with
  | error e=>
   rw [hrow] at h
   cases h
  | ok u=>
   rw [hrow] at h
   cases hlen:db.tables.checkKeyLength T.schema (T.toRow a) with
   | error e=>
    rw [hlen] at h
    cases h
   | ok u=>
    rw [hlen] at h
    cases h

lemma checkUpdate_present (h:checkUpdate T a db=.ok ()) : ∃ old,(T.get db).get? (key a)=some old := by
 unfold checkUpdate at h
 cases hget:(T.get db).get? (key a) with
 | none=>
  rw [hget] at h
  cases h
 | some old=>exact ⟨old,rfl⟩

lemma checkRemove_present (h:checkRemove T id db=.ok ()) : ∃ old,(T.get db).get? id=some old := by
 unfold checkRemove at h
 cases hget:(T.get db).get? id with
 | none=>
  rw [hget] at h
  cases h
 | some old=>exact ⟨old,rfl⟩

/-! A write that fails changes nothing; one that succeeds changes its table. -/

variable {R:Db → Db → Prop} [IsPreorder Db R]

lemma insert_follows
 (h:(T.get db).get? (key a)=none → R db (T.set ((T.get db).put a) db)) : Act.Follows R (insert T a) db := by
 unfold Act.Follows insert
 split
 · exact refl_of R db
 · rename_i hcheck
   exact h (checkInsert_fresh hcheck)

lemma update_follows (h:∀ old,(T.get db).get? (key a)=some old → R db (T.set ((T.get db).put a) db)) :
 Act.Follows R (update T a) db := by
 unfold Act.Follows update
 split
 · exact refl_of R db
 · rename_i hcheck
   obtain ⟨old,hold⟩:=checkUpdate_present hcheck
   exact h old hold

lemma remove_follows (h:∀ old,(T.get db).get? id=some old → R db (T.set ((T.get db).erase id) db)) :
 Act.Follows R (remove T id) db := by
 unfold Act.Follows remove
 split
 · exact refl_of R db
 · rename_i hcheck
   obtain ⟨old,hold⟩:=checkRemove_present hcheck
   exact h old hold

end Effects

def forAll {α:Type} (f:α → PunchM Unit) : List α → PunchM Unit
 | []=>return ()
 | a::as=>do
  f a
  forAll f as

def ofExcept {α:Type} : Except Status α → PunchM α
 | .ok a=>return a
 | .error e=>Act.fail e

lemma bind_ok_cases {α β:Type} {m:Except Status α} {f:α → Except Status β} {b:β}
 (h:(m >>= f)=.ok b) : ∃ a,m=.ok a ∧ f a=.ok b := by
 cases m with
 | error e=>cases h
 | ok a=>exact ⟨a,rfl,h⟩

lemma guard_ok {α:Type} {c:Prop} [Decidable c] {e:Status} {f:PUnit → Except Status α} {a:α}
 (h:(if c then (throw e:Except Status PUnit) >>= f else f ⟨⟩)=.ok a) : ¬c ∧ f ⟨⟩=.ok a := by
 by_cases hc:c
 · rw [if_pos hc] at h
   cases h
 · rw [if_neg hc] at h
   exact ⟨hc,h⟩

lemma ofExcept_ok {α:Type} {r:Except Status α} {a:α} {db db':Db} (h:ofExcept r db=(.ok a,db')) : r=.ok a ∧ db=db' := by
 cases r with
 | error e=>cases h
 | ok b=>
  cases h
  exact ⟨rfl,rfl⟩

/-- The store after a call in a transaction of its own: it is committed where the call succeeds. -/
def committed {α:Type} (m:PunchM α) (db:Db) : Db :=
 match m db with
 | (.ok _,db')=>db'
 | (.error _,_)=>db

lemma run_of_ok {α:Type} {m:PunchM α} {db:Db} (h:(m db).1.isOk=true) : ∃ a,m db=(.ok a,(m db).2) := by
 rcases hm:m db with ⟨_ | a,db'⟩
 · rw [hm] at h
   cases h
 · exact ⟨a,rfl⟩

lemma committed_of_ok {α:Type} {m:PunchM α} {db:Db} (h:(m db).1.isOk=true) : committed m db=(m db).2 := by
 obtain ⟨a,hm⟩:=run_of_ok h
 rw [committed,hm]

lemma committed_cases {α:Type} (m:PunchM α) (db:Db) : (∃ a,m db=(.ok a,committed m db)) ∨ committed m db=db := by
 unfold committed
 rcases m db with ⟨_ | a,db'⟩
 · exact .inr rfl
 · exact .inl ⟨a,rfl⟩

def auditLog : Entity AuditEntry where
 schema := PunchlineSchema.auditLog
 toRow:=AuditEntry.toRow
 get:=Db.auditLog
 set t db:={ db with auditLog:=t }

def devices : Entity Device where
 schema := PunchlineSchema.devices
 toRow:=Device.toRow
 get:=Db.devices
 set t db:={ db with devices:=t }

def payPeriods : Entity PayPeriod where
 schema := PunchlineSchema.payPeriods
 toRow:=PayPeriod.toRow
 get:=Db.payPeriods
 set t db:={ db with payPeriods:=t }

def timeEntries : Entity TimeEntry where
 schema := PunchlineSchema.timeEntries
 toRow:=TimeEntry.toRow
 get:=Db.timeEntries
 set t db:={ db with timeEntries:=t }

def shifts : Entity Shift where
 schema := PunchlineSchema.shifts
 toRow:=Shift.toRow
 get:=Db.shifts
 set t db:={ db with shifts:=t }

def syncBatches : Entity SyncBatch where
 schema := PunchlineSchema.syncBatches
 toRow:=SyncBatch.toRow
 get:=Db.syncBatches
 set t db:={ db with syncBatches:=t }

def approvals : Entity Approval where
 schema := PunchlineSchema.approvals
 toRow:=Approval.toRow
 get:=Db.approvals
 set t db:={ db with approvals:=t }

def exceptions : Entity Exception where
 schema := PunchlineSchema.exceptions
 toRow:=Exception.toRow
 get:=Db.exceptions
 set t db:={ db with exceptions:=t }

def scheduleHours : Entity ScheduleHours where
 schema := PunchlineSchema.scheduleHours
 toRow:=ScheduleHours.toRow
 get:=Db.scheduleHours
 set t db:={ db with scheduleHours:=t }

def overtimeAuthorizations : Entity OvertimeAuthorization where
 schema := PunchlineSchema.overtimeAuthorizations
 toRow:=OvertimeAuthorization.toRow
 get:=Db.overtimeAuthorizations
 set t db:={ db with overtimeAuthorizations:=t }

def timesheetHolds : Entity TimesheetHold where
 schema := PunchlineSchema.timesheetHolds
 toRow:=TimesheetHold.toRow
 get:=Db.timesheetHolds
 set t db:={ db with timesheetHolds:=t }

def shiftAnnotations : Entity AnnotationRow where
 schema := PunchlineSchema.shiftAnnotations
 toRow:=AnnotationRow.toRow
 get:=Db.shiftAnnotations
 set t db:={ db with shiftAnnotations:=t }

def entryBreakCodes : Entity EntryBreakCode where
 schema := PunchlineSchema.entryBreakCodes
 toRow:=EntryBreakCode.toRow
 get:=Db.entryBreakCodes
 set t db:={ db with entryBreakCodes:=t }

def mealBreaks : Entity MealBreak where
 schema := PunchlineSchema.mealBreaks
 toRow:=MealBreak.toRow
 get:=Db.mealBreaks
 set t db:={ db with mealBreaks:=t }

def entryEdits : Entity EntryEdit where
 schema := PunchlineSchema.entryEdits
 toRow:=EntryEdit.toRow
 get:=Db.entryEdits
 set t db:={ db with entryEdits:=t }

def earlier (a b:TimeEntry) : Prop :=
 a.deviceTime<b.deviceTime ∨ a.deviceTime=b.deviceTime ∧ a.id ≤ b.id

instance : DecidableRel earlier := fun a b=>by
 unfold earlier
 infer_instance

namespace Db

variable (db:Db)

def employeeById (id:ℤ) : Option Employee := db.employees.get? id
def deviceById (id:ℤ) : Option Device := db.devices.get? id
def periodById (id:ℤ) : Option PayPeriod := db.payPeriods.get? id
def entryById (id:ℤ) : Option TimeEntry := db.timeEntries.get? id
def exceptionById (id:ℤ) : Option Exception := db.exceptions.get? id

/-- The last period that starts at or before the day, if its end reaches the day. -/
def periodForDay (localDay:ℤ) : Option PayPeriod :=
 (((db.payPeriods.rows.filter fun p=>p.startDay ≤ localDay).insertionSort
  fun p q=>p.startDay ≤ q.startDay).getLast?).filter fun p=>localDay ≤ p.endDay

def entryByUuid (uuid:UuidBytes) : Option TimeEntry := db.timeEntries.rows.find? fun e=>e.entryUuid=uuid

def batchByUuid (uuid:UuidBytes) : Option SyncBatch := db.syncBatches.rows.find? fun b=>b.batchUuid=uuid

def entriesOf (employeeId fromUs toUs:ℤ) : List TimeEntry :=
 (db.timeEntries.rows.filter fun e=>
  e.employeeId=employeeId ∧ fromUs ≤ e.deviceTime ∧ e.deviceTime<toUs).insertionSort earlier

def entriesInPeriod (periodId employeeId:ℤ) : List TimeEntry :=
 (db.timeEntries.rows.filter fun e=>
  e.periodId≠0 ∧ e.periodId=periodId ∧ e.employeeId=employeeId).insertionSort earlier

def shiftsInPeriod (periodId employeeId:ℤ) : List Shift :=
 (db.shifts.rows.filter fun s=>
  s.periodId≠0 ∧ s.periodId=periodId ∧ s.employeeId=employeeId).insertionSort fun a b=>a.inTime ≤ b.inTime

def schedulesOf (employeeId:ℤ) : List Schedule :=
 (db.schedules.rows.filter fun s=>s.employeeId=employeeId).insertionSort fun a b=>
  a.weekday<b.weekday ∨ a.weekday=b.weekday ∧ a.effectiveFromDay ≤ b.effectiveFromDay

end Db

def exampleEmployees : Table Employee :=
 ⟨[{ id:=1,employeeNumber:=ascii "7",displayName:=ascii "Ada",siteZone:=ascii "UTC" }],
  List.pairwise_singleton _ _⟩

def exampleDevices : Table Device :=
 ⟨[{ id:=1,name:=ascii "tablet",employeeId:=1 }],List.pairwise_singleton _ _⟩

def examplePeriods : Table PayPeriod :=
 ⟨[{ id:=1,startDay:=19775,endDay:=19788,siteZone:=ascii "UTC",tzdbVersion:=ascii "2024a" }],
  List.pairwise_singleton _ _⟩

end Archivum.PunchlineDb
