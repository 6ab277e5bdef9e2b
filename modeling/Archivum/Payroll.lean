import Archivum.PunchlineDb
import Archivum.Tallies

set_option autoImplicit false

/-!
# The payroll reference rules

Scheduled hours, the hold on a timesheet and the authorization that clears it,
annotations, meals and the record of edits.
-/
namespace Archivum.Payroll
open ByteStrings StatefulActions PageTxn RecordModel KeyedTables PunchlineData PunchlineDb LocalTimes Act

def kUsPerMinute : ℤ := 60000000

def hoursMinutes (minutes:ℤ) : String := toString (minutes.tdiv 60) ++ "h" ++ padded 2 (minutes.tmod 60)

def scheduleHoursOf (db:Db) (employeeId:ℤ) : List ScheduleHours :=
 (db.scheduleHours.rows.filter fun s=>s.employeeId=employeeId).insertionSort
  fun a b=>a.effectiveFromDay ≤ b.effectiveFromDay

def inForce (fromDay toDay localDay:ℤ) : Bool := fromDay ≤ localDay ∧ (toDay=0 ∨ localDay<toDay)

def scheduleHoursAt (db:Db) (employeeId localDay:ℤ) : Option ScheduleHours :=
 ((scheduleHoursOf db employeeId).filter fun s=>inForce s.effectiveFromDay s.effectiveToDay localDay).getLast?

def kForever : ℤ := 2^63-1

def setScheduleHours (env:Env) (employeeId fromDay toDay dailyMinutes weeklyMinutes:ℤ) (setBy:Bytes) :
  PunchM ℤ := do
 let existing ← reads fun db=>scheduleHoursOf db employeeId
 let ending:=fun day:ℤ=>if day=0 then kForever else day
 match existing.find? fun s=>fromDay<ending s.effectiveToDay ∧ s.effectiveFromDay<ending toDay with
 | some s=>fail (constraint ("scheduled hours overlap another row of this employee (" ++
   formatLocalDay s.effectiveFromDay ++ " on)"))
 | none=>do
  let id ← nextId scheduleHours
  insert scheduleHours {
   id,employeeId,effectiveFromDay:=fromDay,effectiveToDay:=toDay,dailyMinutes,weeklyMinutes,setBy
   auditId:=env.auditId }
  return id

/-- Closed-shift time of an employee in a period, in total, by local day and by week. -/
structure Totals where
 totalUs : ℤ
 dayUs : List (ℤ × ℤ)
 weekUs : List (ℤ × ℤ)

def counts (sh:Shift) : Bool := sh.outEntryId≠0 ∧ sh.durationUs.isSome

def worked (sh:Shift) : ℤ := sh.durationUs.getD 0

def weekStart (cfg:Config) (localDay:ℤ) : ℤ :=
 localDay-((weekdayOfDay localDay-cfg.weekStartWeekday).tmod 7+7).tmod 7

def closedShifts (db:Db) (employeeId periodId:ℤ) : List Shift :=
 (db.shiftsInPeriod periodId employeeId).filter counts

def totalsOf (db:Db) (cfg:Config) (employeeId periodId:ℤ) : Totals :=
 let shifts:=closedShifts db employeeId periodId
 { totalUs:=(shifts.map worked).sum
   dayUs:=Tallies.tally Shift.localDay worked shifts
   weekUs:=Tallies.tally (fun sh=>weekStart cfg sh.localDay) worked shifts }

def latestAuthorization (db:Db) (employeeId periodId:ℤ) : Option OvertimeAuthorization :=
 (db.overtimeAuthorizations.rows.filter fun a=>a.employeeId=employeeId ∧ a.periodId=periodId).getLast?

def minutesOver (limit us:ℤ) : ℤ := max 0 (us.tdiv kUsPerMinute-limit)

def dayExcess (db:Db) (employeeId:ℤ) (e:ℤ × ℤ) : ℤ :=
 (scheduleHoursAt db employeeId e.1).elim 0 fun hours=>minutesOver hours.dailyMinutes e.2

def weekExcess (db:Db) (employeeId:ℤ) (e:ℤ × ℤ) : ℤ :=
 (scheduleHoursAt db employeeId e.1).elim 0 fun hours=>minutesOver hours.weeklyMinutes e.2

def overtimeExcessMinutes (db:Db) (employeeId:ℤ) (totals:Totals) : ℤ :=
 max (totals.dayUs.map (dayExcess db employeeId)).sum (totals.weekUs.map (weekExcess db employeeId)).sum

def openHold (db:Db) (employeeId periodId:ℤ) : Option TimesheetHold :=
 (db.timesheetHolds.rows.filter fun h=>
  h.employeeId=employeeId ∧ h.periodId=periodId ∧ h.clearedAt=0).getLast?

def dayBreach (db:Db) (employeeId:ℤ) (e:ℤ × ℤ) : Option (HoldReason × String) := do
 let hours ← scheduleHoursAt db employeeId e.1
 if hours.dailyMinutes*kUsPerMinute<e.2 then
  some (.dailyHours,formatLocalDay e.1 ++ ": " ++ hoursMinutes (e.2.tdiv kUsPerMinute) ++ " worked, " ++
   hoursMinutes hours.dailyMinutes ++ " scheduled a day")
 else none

def weekBreach (db:Db) (employeeId:ℤ) (e:ℤ × ℤ) : Option (HoldReason × String) := do
 let hours ← scheduleHoursAt db employeeId e.1
 if hours.weeklyMinutes*kUsPerMinute<e.2 then
  some (.weeklyHours,"week of " ++ formatLocalDay e.1 ++ ": " ++ hoursMinutes (e.2.tdiv kUsPerMinute) ++
   " worked, " ++ hoursMinutes hours.weeklyMinutes ++ " scheduled a week")
 else none

def breaches (db:Db) (employeeId:ℤ) (totals:Totals) : List (HoldReason × String) :=
 totals.dayUs.filterMap (dayBreach db employeeId)++totals.weekUs.filterMap (weekBreach db employeeId)

def reasonOf (found:List (HoldReason × String)) : HoldReason := (found.head?.map Prod.fst).getD .dailyHours

def detailOf (found:List (HoldReason × String)) : Bytes := ascii ("; ".intercalate (found.map Prod.snd))

def periodOpen (db:Db) (periodId:ℤ) : Bool :=
 periodId≠0 ∧ (db.periodById periodId).any fun p=>p.state=.open_

def holdNeeded (db:Db) (cfg:Config) (employeeId periodId:ℤ) : Bool :=
 let totals:=totalsOf db cfg employeeId periodId
 breaches db employeeId totals≠[] ∧
  ((latestAuthorization db employeeId periodId).map OvertimeAuthorization.authorizedMinutes).getD 0 <
   overtimeExcessMinutes db employeeId totals

def evaluateHold (env:Env) (employeeId periodId:ℤ) : PunchM Unit := do
 let db ← reads id
 if !periodOpen db periodId then return ()
 else do
  let found:=breaches db employeeId (totalsOf db env.cfg employeeId periodId)
  let auth:=latestAuthorization db employeeId periodId
  match openHold db employeeId periodId,holdNeeded db env.cfg employeeId periodId with
  | some h,true=>
   if h.detail=detailOf found ∧ h.reason=reasonOf found then return ()
   else update timesheetHolds { h with detail:=detailOf found,reason:=reasonOf found }
  | none,true=>do
   let id ← nextId timesheetHolds
   insert timesheetHolds {
    id,employeeId,periodId,reason:=reasonOf found,detail:=detailOf found,openedAt:=env.now
    auditId:=env.auditId }
  | some h,false=>
   update timesheetHolds {
    h with clearedAt:=env.now,authorizationId:=(auth.map OvertimeAuthorization.id).getD 0 }
  | none,false=>return ()

def evaluateEmployeeHolds (env:Env) (employeeId:ℤ) : PunchM Unit := do
 let periods ← reads fun db=>db.payPeriods.rows
 forAll (fun p=>evaluateHold env employeeId p.id) (periods.filter fun p=>p.state=.open_)

def authorizeOvertime (env:Env) (employeeId periodId:ℤ) (note tid oid:Bytes) :
  PunchM OvertimeAuthorization := do
 let db ← reads id
 match openHold db employeeId periodId with
 | none=>fail (notFound "no timesheet is held for this employee in this period")
 | some h=>do
  let excess:=overtimeExcessMinutes db employeeId (totalsOf db env.cfg employeeId periodId)
  let id ← nextId overtimeAuthorizations
  let a:OvertimeAuthorization:={
   id,employeeId,periodId,authorizedMinutes:=excess,note,authorizedByTid:=tid,authorizedByOid:=oid
   authorizedAt:=env.now,auditId:=env.auditId }
  insert overtimeAuthorizations a
  update timesheetHolds { h with clearedAt:=env.now,authorizationId:=a.id }
  return a

def removeAnnotations (shiftId:ℤ) : PunchM Unit := do
 let rows ← reads fun db=>db.shiftAnnotations.rows.filter fun r=>r.shiftId=shiftId
 forAll (fun r=>remove shiftAnnotations r.id) rows

/-- `%02d:%02d` -/
def clock (minuteOfDay:ℤ) : String :=
 padded 2 ((minuteOfDay.tdiv 60).tmod 100) ++ ":" ++ padded 2 (minuteOfDay.tmod 60)

def scheduleOn (db:Db) (employeeId:ℤ) (lt:LocalTime) : Option Schedule :=
 ((db.schedulesOf employeeId).filter fun s=>
  inForce s.effectiveFromDay s.effectiveToDay lt.localDay && s.weekday=lt.weekday).getLast?

def annotations (tol:ℤ) (day:Schedule) (ltIn ltOut:LocalTime) : List (String × String) :=
 (if day.startMinute+tol<ltIn.minuteOfDay then
  [("L","in " ++ clock ltIn.minuteOfDay ++ ", scheduled " ++ clock day.startMinute)] else []) ++
 (if ltOut.localDay=ltIn.localDay ∧ ltOut.minuteOfDay<day.endMinute-tol then
  [("E","out " ++ clock ltOut.minuteOfDay ++ ", scheduled " ++ clock day.endMinute)] else [])

def addAnnotations (shiftId:ℤ) (found:String × String) : PunchM Unit := do
 let id ← nextId shiftAnnotations
 insert shiftAnnotations { id,shiftId,code:=ascii found.1,detail:=ascii found.2 }

def recordAnnotations (cfg:Config) (shift:Shift) (inEntry outEntry:TimeEntry) : PunchM Unit := do
 removeAnnotations shift.id
 match parseLocalTime inEntry.localTime,parseLocalTime outEntry.localTime with
 | .ok ltIn,.ok ltOut=>do
  match ← reads fun db=>scheduleOn db inEntry.employeeId ltIn with
  | none=>return ()
  | some day=>forAll (addAnnotations shift.id) (annotations cfg.scheduleToleranceMinutes day ltIn ltOut)
 | _,_=>return ()

def breakCodeActive (db:Db) (code:Bytes) : Bool :=
 (db.breakCodes.find? fun c=>c.code=code).any Code.active

def markEntryBreak (entryId:ℤ) (code:Bytes) : PunchM Unit := do
 let active ← reads fun db=>breakCodeActive db code
 if !active then fail (invalidArgument ("unknown or inactive break code '" ++ text code ++ "'"))
 else insert entryBreakCodes { entryId,breakCode:=code }

def premiumRuleAt (db:Db) (breakCode:Bytes) (localDay:ℤ) : Option BreakPremiumRule :=
 (((db.breakPremiumRules.rows.filter fun b=>b.breakCode=breakCode).insertionSort
  fun a b=>a.effectiveFromDay ≤ b.effectiveFromDay).filter fun b=>
   b.confirmed && inForce b.effectiveFromDay b.effectiveToDay localDay).getLast?

def kDayUs : ℤ := 24*3600*1000000

/-- The meal that an out punch with a break code begins, by the punch after it. -/
def mealOf (db:Db) (employeeId:ℤ) (out:TimeEntry) (next:Option TimeEntry) (code:Bytes) (lt:LocalTime)
  (id:ℤ) : MealBreak :=
 let begun:MealBreak:=
  { id,employeeId,outEntryId:=out.id,localDay:=lt.localDay,startedAt:=out.deviceTime }
 match next.filter fun e=>e.kind=.in_ with
 | none=>begun
 | some e=>
  let minutes:=(e.deviceTime-out.deviceTime).tdiv kUsPerMinute
  let ended:={ begun with inEntryId:=e.id,endedAt:=e.deviceTime,minutes }
  match premiumRuleAt db code lt.localDay with
  | none=>ended
  | some rule=>{ ended with
    premium:=match rule.comparison with
     | .atLeast=>rule.thresholdMinutes ≤ minutes
     | .greaterThan=>rule.thresholdMinutes < minutes
    premiumRuleId:=rule.id }

def removeMeal (e:TimeEntry) : PunchM Unit :=
 if e.kind≠.out then return ()
 else do
  let old ← reads fun db=>db.mealBreaks.rows.filter fun m=>m.outEntryId=e.id
  forAll (fun m=>remove mealBreaks m.id) old

def rebuildMeal (employeeId:ℤ) (out:TimeEntry) (next:Option TimeEntry) : PunchM Unit :=
 if out.kind≠.out then return ()
 else do
  match ← reads fun db=>db.entryBreakCodes.get? out.id with
  | none=>return ()
  | some mark=>
   match parseLocalTime out.localTime with
   | .error _=>return ()
   | .ok lt=>do
    let id ← nextId mealBreaks
    let meal ← reads fun db=>mealOf db employeeId out next mark.breakCode lt id
    insert mealBreaks meal

def withNext : List TimeEntry → List (TimeEntry × Option TimeEntry)
 | []=>[]
 | e::rest=>(e,rest.head?)::withNext rest

def rebuildMeals (employeeId fromUs:ℤ) : PunchM Unit := do
 let live ← reads fun db=>
  (db.entriesOf employeeId (fromUs-kDayUs) (kForever/2)).filter fun e=>e.supersededBy=0
 forAll removeMeal live
 forAll (fun p=>rebuildMeal employeeId p.1 p.2) (withNext live)

def recordEntryEdit (env:Env) (entryId:ℤ) (editClass:EditClass) (reasonCode editor:Bytes) : PunchM Unit := do
 let id ← nextId entryEdits
 insert entryEdits { id,entryId,editClass,reasonCode,editor,editedAt:=env.now,auditId:=env.auditId }

end Archivum.Payroll
