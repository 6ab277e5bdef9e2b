import Archivum.Lifecycle
import Archivum.Timelines

set_option autoImplicit false

/-!
# Supervisors and scheduled hours

Who supervises an employee at an instant, and which hours are scheduled on a
day: rows with half-open ranges, of which a new one may not overlap another.
-/
namespace Archivum.Roster
open ByteStrings StatefulActions StatefulActions.Act PageTxn RecordModel KeyedTables PunchlineData PunchlineDb Payroll Lifecycle Timelines List

def assignmentsOf (db:Db) (employeeId:ℤ) : List SupervisorAssignment :=
 (db.supervisorAssignments.rows.filter fun a=>a.employeeId=employeeId).insertionSort
  fun a b=>a.effectiveFrom ≤ b.effectiveFrom

def supervisorAssignmentValid (db:Db) (employeeId supervisorEmployeeId effectiveFrom effectiveTo exceptAssignment:ℤ) :
  Except Status Unit :=
 if employeeId=supervisorEmployeeId then .error (constraint "PL-2: an employee cannot supervise themself")
 else if effectiveTo≠0 ∧ effectiveTo ≤ effectiveFrom then
  .error (constraint "PL-2: effective_to must be after effective_from")
 else if (assignmentsOf db employeeId).any fun a=>
   a.id≠exceptAssignment ∧ ¬(effectiveTo≠0 ∧ effectiveTo ≤ a.effectiveFrom) ∧
    ¬(a.effectiveTo≠0 ∧ a.effectiveTo ≤ effectiveFrom) then
  .error (constraint "PL-2: overlaps another assignment of this employee")
 else .ok ()

/-- Who reports to a supervisor at an instant, in order and without repetition. -/
def reportsOf (db:Db) (supervisorEmployeeId atUs:ℤ) : List ℤ :=
 (((db.supervisorAssignments.rows.filter fun a=>a.supervisorEmployeeId=supervisorEmployeeId).filter fun a=>
  inForce a.effectiveFrom a.effectiveTo atUs).map SupervisorAssignment.employeeId).insertionSort (· ≤ ·) |>.dedup

def supervisorAssignments : Entity SupervisorAssignment where
 schema := PunchlineSchema.supervisorAssignments
 toRow:=SupervisorAssignment.toRow
 get:=Db.supervisorAssignments
 set t db:={ db with supervisorAssignments:=t }

def assignSupervisor (env:Env) (employeeId supervisorEmployeeId effectiveFrom effectiveTo:ℤ) (assignedBy:Bytes) :
  PunchM ℤ := do
 let valid ← Act.reads fun db=>
  supervisorAssignmentValid db employeeId supervisorEmployeeId effectiveFrom effectiveTo 0
 ofExcept valid
 let id ← nextId supervisorAssignments
 insert supervisorAssignments {
  id,employeeId,supervisorEmployeeId,effectiveFrom,effectiveTo,assignedBy,auditId:=env.auditId }
 return id

inductive Change
 | supervisor (employeeId supervisorEmployeeId effectiveFrom effectiveTo:ℤ) (assignedBy:Bytes)
 | hours (employeeId fromDay toDay dailyMinutes weeklyMinutes:ℤ) (setBy:Bytes)
 deriving DecidableEq

def Change.run (env:Env) : Change → PunchM ℤ
 | supervisor employeeId supervisorEmployeeId effectiveFrom effectiveTo assignedBy=>
  assignSupervisor env employeeId supervisorEmployeeId effectiveFrom effectiveTo assignedBy
 | hours employeeId fromDay toDay dailyMinutes weeklyMinutes setBy=>
  setScheduleHours env employeeId fromDay toDay dailyMinutes weeklyMinutes setBy

def recordedChange (env:Env) (c:Change) : PunchM ℤ := do
 let auditId ← nextId auditLog
 Act.modify fun db=>{ db with auditLog:=db.auditLog.put ⟨auditId⟩ }
 c.run { env with auditId }

def change (x:Env × Change) (db:Db) : Db := committed (recordedChange x.1 x.2) db

def assignmentInForce (a:SupervisorAssignment) (atUs:ℤ) : Bool := inForce a.effectiveFrom a.effectiveTo atUs

def hoursInForce (s:ScheduleHours) (localDay:ℤ) : Bool := inForce s.effectiveFromDay s.effectiveToDay localDay

structure Single (db:Db) : Prop where
 ids : ∀ a∈db.supervisorAssignments,0<a.id
 supervisor : OneAt SupervisorAssignment.employeeId assignmentInForce db.supervisorAssignments
 days : ∀ s∈db.scheduleHours,s.effectiveFromDay<kForever
 hours : OneAt ScheduleHours.employeeId hoursInForce db.scheduleHours

lemma mem_assignmentsOf {db:Db} {employeeId:ℤ} {a:SupervisorAssignment} :
 a∈assignmentsOf db employeeId ↔ a∈db.supervisorAssignments ∧ a.employeeId=employeeId := by
 rw [assignmentsOf,mem_insertionSort,mem_filter,decide_eq_true_iff,Table.mem_rows]

lemma mem_scheduleHoursOf {db:Db} {employeeId:ℤ} {s:ScheduleHours} :
 s∈scheduleHoursOf db employeeId ↔ s∈db.scheduleHours ∧ s.employeeId=employeeId := by
 rw [scheduleHoursOf,mem_insertionSort,mem_filter,decide_eq_true_iff,Table.mem_rows]

lemma inForce_iff {a b t:ℤ} : inForce a b t=true ↔ a≤t ∧ (b=0 ∨ t<b) := by
 rw [inForce,decide_eq_true_iff]

lemma inForce_of_apart {a b c d t:ℤ} (h:b≠0 ∧ b ≤ c ∨ d≠0 ∧ d≤a) (hab:inForce a b t=true) : inForce c d t=false := by
 rw [inForce_iff] at hab
 rw [Bool.eq_false_iff]
 intro hcd
 rw [inForce_iff] at hcd
 omega

lemma apart_of_valid {db:Db} {employeeId supervisorEmployeeId effectiveFrom effectiveTo:ℤ} (hdb:Single db)
 (h:supervisorAssignmentValid db employeeId supervisorEmployeeId effectiveFrom effectiveTo 0=.ok ())
 {a:SupervisorAssignment} (ha:a∈db.supervisorAssignments) (he:a.employeeId=employeeId) :
 a.effectiveTo≠0 ∧ a.effectiveTo≤effectiveFrom ∨ effectiveTo≠0 ∧ effectiveTo≤a.effectiveFrom := by
 unfold supervisorAssignmentValid at h
 split at h
 · cases h
 · split at h
   · cases h
   · split at h
     · cases h
     · rename_i _ _ hno
       by_contra hcross
       rw [not_or] at hcross
       refine hno (any_eq_true.mpr ⟨a,mem_assignmentsOf.mpr ⟨ha,he⟩,decide_eq_true ?_⟩)
       exact ⟨(hdb.ids a ha).ne',hcross.2,hcross.1⟩

lemma assignSupervisor_single {env:Env} {employeeId supervisorEmployeeId effectiveFrom effectiveTo:ℤ}
 {assignedBy:Bytes} {db db':Db} {id:ℤ} (hdb:Single db)
 (h:assignSupervisor env employeeId supervisorEmployeeId effectiveFrom effectiveTo assignedBy db=(.ok id,db')) :
 Single db' := by
 unfold assignSupervisor at h
 rw [bind_reads] at h
 obtain ⟨_,db₁,hvalid,h⟩:=bind_ok_inv h
 cases hcheck:supervisorAssignmentValid db employeeId supervisorEmployeeId effectiveFrom effectiveTo 0 with
 | error e=>rw [hcheck] at hvalid; cases hvalid
 | ok=>
  rw [hcheck] at hvalid
  cases hvalid
  rw [nextId,bind_reads] at h
  obtain ⟨_,db₂,hinsert,h⟩:=bind_ok_inv h
  cases h
  obtain ⟨-,rfl⟩:=insert_ok hinsert
  refine ⟨?_,?_,hdb.days,hdb.hours⟩
  · intro a ha
    rcases Table.mem_put.mp ha with rfl | ⟨ha,-⟩
    · exact Int.lt_add_one_of_le (Table.lastKey_nonneg hdb.ids)
    · exact hdb.ids a ha
  · exact hdb.supervisor.put fun a ha he t hat=>inForce_of_apart (apart_of_valid hdb hcheck ha he) hat

lemma apart_of_ends {a b c d:ℤ} (hc:c<kForever)
 (h:¬(c<(if b=0 then kForever else b) ∧ a < if d=0 then kForever else d)) (ha:a<kForever) :
 b≠0 ∧ b ≤ c ∨ d≠0 ∧ d≤a := by
 split at h <;> split at h <;> omega

lemma setScheduleHours_single {env:Env} {employeeId fromDay toDay dailyMinutes weeklyMinutes:ℤ} {setBy:Bytes}
 {db db':Db} {id:ℤ} (hdb:Single db) (hfrom:fromDay<kForever)
 (h:setScheduleHours env employeeId fromDay toDay dailyMinutes weeklyMinutes setBy db=(.ok id,db')) : Single db' := by
 unfold setScheduleHours at h
 rw [bind_reads] at h
 cases hfind:(scheduleHoursOf db employeeId).find? fun s=>
   fromDay<(if s.effectiveToDay=0 then kForever else s.effectiveToDay) ∧
    s.effectiveFromDay < if toDay=0 then kForever else toDay with
 | some s=>
  simp only [hfind] at h
  cases h
 | none=>
  simp only [hfind] at h
  rw [nextId,bind_reads] at h
  obtain ⟨_,db₁,hinsert,h⟩:=bind_ok_inv h
  cases h
  obtain ⟨-,rfl⟩:=insert_ok hinsert
  refine ⟨hdb.ids,hdb.supervisor,fun s hs=>?_,hdb.hours.put fun s hs he day hday=>?_⟩
  · rcases Table.mem_put.mp hs with rfl | ⟨hs,-⟩
    · exact hfrom
    · exact hdb.days s hs
  · have hno:=find?_eq_none.mp hfind s (mem_scheduleHoursOf.mpr ⟨hs,he⟩)
    exact inForce_of_apart (apart_of_ends hfrom (by simpa using hno) (hdb.days s hs)) hday

/-- Scheduled hours start before the last day that the end of an open range stands for. -/
def Change.Starts : Change → Prop
 | supervisor ..=>True
 | hours _ fromDay _ _ _ _=>fromDay<kForever

instance : (c:Change) → Decidable c.Starts
 | .supervisor ..=>isTrue trivial
 | .hours _ fromDay _ _ _ _=>inferInstanceAs (Decidable (fromDay<kForever))

lemma change_single (x:Env × Change) (db:Db) (hdb:Single db) (hx:x.2.Starts) : Single (change x db) := by
 rcases committed_cases (recordedChange x.1 x.2) db with ⟨id,hrun⟩ | hsame
 · unfold recordedChange at hrun
   rw [nextId,bind_reads] at hrun
   obtain ⟨_,db₁,hmodify,hrun⟩:=bind_ok_inv hrun
   cases hmodify
   have hdb₁:Single { db with auditLog:=db.auditLog.put ⟨db.auditLog.lastKey+1⟩ }:=
    ⟨hdb.ids,hdb.supervisor,hdb.days,hdb.hours⟩
   rcases x with ⟨env,c⟩
   cases c with
   | supervisor=>exact assignSupervisor_single hdb₁ hrun
   | hours=>exact setScheduleHours_single hdb₁ hx hrun
 · rw [change,hsame]
   exact hdb

section Lookups
variable {db:Db} (hdb:Single db) (employeeId:ℤ)
include hdb

lemma one_assignment (t:ℤ) : AtMostOne (fun a=>assignmentInForce a t) (assignmentsOf db employeeId) :=
 (hdb.supervisor.ofOwner employeeId t).congr fun _=>mem_insertionSort _

lemma one_hours (day:ℤ) : AtMostOne (fun s=>hoursInForce s day) (scheduleHoursOf db employeeId) :=
 (hdb.hours.ofOwner employeeId day).congr fun _=>mem_insertionSort _

lemma supervisorAt_eq_some {s t:ℤ} : supervisorAt db employeeId t=some s ↔
 ∃ a∈db.supervisorAssignments,a.employeeId=employeeId ∧ assignmentInForce a t=true ∧ a.supervisorEmployeeId=s := by
 change ((assignmentsOf db employeeId).find? fun a=>assignmentInForce a t).map _=some s ↔ _
 rw [Option.map_eq_some_iff]
 constructor
 · intro ⟨a,hfind,hs⟩
   obtain ⟨ha,hat⟩:=(one_assignment hdb employeeId t).find?_eq_some.mp hfind
   obtain ⟨ha,he⟩:=mem_assignmentsOf.mp ha
   exact ⟨a,ha,he,hat,hs⟩
 · intro ⟨a,ha,he,hat,hs⟩
   exact ⟨a,(one_assignment hdb employeeId t).find?_eq_some.mpr ⟨mem_assignmentsOf.mpr ⟨ha,he⟩,hat⟩,hs⟩

end Lookups

lemma mem_reportsOf {db:Db} {employeeId s t:ℤ} : employeeId∈reportsOf db s t ↔
 ∃ a∈db.supervisorAssignments,a.employeeId=employeeId ∧ assignmentInForce a t=true ∧ a.supervisorEmployeeId=s := by
 rw [reportsOf,mem_dedup,mem_insertionSort,mem_map]
 constructor
 · intro ⟨a,ha,he⟩
   obtain ⟨ha,hat⟩:=mem_filter.mp ha
   obtain ⟨ha,hs⟩:=mem_filter.mp ha
   exact ⟨a,ha,he,hat,of_decide_eq_true hs⟩
 · intro ⟨a,ha,he,hat,hs⟩
   exact ⟨a,mem_filter.mpr ⟨mem_filter.mpr ⟨ha,decide_eq_true hs⟩,hat⟩,he⟩

/-- After any changes whose hours start in time, at most one row is in force, the lookups give it
whichever way the rows are listed, and the reports of a supervisor are those it supervises. -/
theorem one_in_force {db₀:Db} {changes:List (Env × Change)} (hassignments:db₀.supervisorAssignments.rows=[])
  (hhours:db₀.scheduleHours.rows=[]) (hstarts:Meets change (fun x _=>x.2.Starts) changes db₀) :
  let db := after change changes db₀
  (∀ employeeId t,AtMostOne (fun a=>assignmentInForce a t) (assignmentsOf db employeeId)) ∧
  (∀ employeeId day,AtMostOne (fun s=>hoursInForce s day) (scheduleHoursOf db employeeId)) ∧
  (∀ employeeId t (rows:List SupervisorAssignment),rows.Perm (assignmentsOf db employeeId) →
   (rows.find? fun a=>assignmentInForce a t).map SupervisorAssignment.supervisorEmployeeId =
    supervisorAt db employeeId t) ∧
  (∀ employeeId day (rows:List ScheduleHours),rows.Perm (scheduleHoursOf db employeeId) →
   (rows.filter fun s=>hoursInForce s day).getLast? = scheduleHoursAt db employeeId day) ∧
  ∀ employeeId s t,employeeId∈reportsOf db s t ↔ supervisorAt db employeeId t=some s:=by
 intro db
 have hfirst:Single db₀:=by
  refine ⟨fun a ha=>?_,oneAt_of_empty hassignments,fun s hs=>?_,oneAt_of_empty hhours⟩
  · rw [Table.mem_def,hassignments] at ha
    cases ha
  · rw [Table.mem_def,hhours] at hs
    cases hs
 have hdb:Single db:=after_invariant change_single changes hfirst hstarts
 refine ⟨one_assignment hdb,one_hours hdb,fun employeeId t rows hrows=>?_,fun employeeId day rows hrows=>?_,
  fun employeeId s t=>mem_reportsOf.trans (supervisorAt_eq_some hdb employeeId).symm⟩
 · rw [(one_assignment hdb employeeId t).find?_congr fun _=>hrows.mem_iff]
   rfl
 · exact (one_hours hdb employeeId day).getLast?_congr fun _=>hrows.mem_iff

def exampleStaff : Db where
 employees := ⟨[{ id:=1,employeeNumber:=ascii "7",displayName:=ascii "Ada",siteZone:=ascii "UTC" },
         { id:=2,employeeNumber:=ascii "8",displayName:=ascii "Bea",siteZone:=ascii "UTC" }],
  by decide⟩

def exampleAdmin : Env := { auditId:=0,release:=ascii "2024a",now:=0 }

def exampleChanges : List (Env × Change) :=
 [(exampleAdmin,.supervisor 1 2 1000 0 (ascii "hr")),(exampleAdmin,.hours 1 19700 0 480 2400 (ascii "hr"))]

theorem exampleStaff_reports :
  supervisorAt (after change exampleChanges exampleStaff) 1 1000=some 2 ∧
  1∈reportsOf (after change exampleChanges exampleStaff) 2 1000 := by
 have hat:supervisorAt (after change exampleChanges exampleStaff) 1 1000=some 2:=by decide +kernel
 exact ⟨hat,((one_in_force rfl rfl (by decide +kernel)).2.2.2.2 1 2 1000).mpr hat⟩

/-- Hours that start on the last day are taken beside hours that never end. -/
theorem lastDay_two_rows :
  let db := after change [(exampleAdmin,.hours 1 19700 0 480 2400 (ascii "hr")),
   (exampleAdmin,.hours 1 kForever 0 240 1200 (ascii "hr"))] exampleStaff
  ((scheduleHoursOf db 1).filter fun s=>hoursInForce s kForever).map ScheduleHours.id=[1,2]:=by
 decide +kernel

end Archivum.Roster
