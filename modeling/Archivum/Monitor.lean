import Archivum.Lifecycle

set_option autoImplicit false

/-!
# The module's configuration and its monitor

`modules.punchline` is parsed key by key, each value a positive integer. The
monitor and the sync convert hours and seconds to microseconds.
-/
namespace Archivum.Monitor
open ByteStrings StatefulActions PageTxn RecordModel KeyedTables PunchlineData PunchlineDb ExceptionQueue Sync

/-- The whole configuration: what the server alone reads comes on top. -/
structure ModuleConfig extends Config where
 deviceStaleSeconds : ℤ := 86400
 employeeIdRejectionThreshold : ℤ := 5
 monitorIntervalSeconds : ℤ := 60
 deriving DecidableEq

/-- A value of the section. The parser reads an integer that is not negative as unsigned. -/
inductive Json
 | integer (v:Int64)
 | unsigned (v:UInt64)
 | other
 deriving DecidableEq

/-- `is_number_integer` -/
def Json.isInteger : Json → Bool
 | integer _=>true
 | unsigned _=>true
 | other=>false

/-- `get<std::int64_t>`; an unsigned value is reinterpreted. -/
def Json.getInt64 : Json → ℤ
 | integer v=>v.toInt
 | unsigned v=>v.toInt64.toInt
 | other=>0

/-- `modules.punchline`, none if it is not an object. -/
abbrev Section := Option (List (Bytes × Json))

def find (entries:List (Bytes × Json)) (key:String) : Option Json := entries.lookup (ascii key)

def positive (entries:List (Bytes × Json)) (key:String) (out:ℤ) : Except Status ℤ :=
 match find entries key with
 | none=>.ok out
 | some j=>
  if !j.isInteger then .error (invalidArgument ("modules.punchline." ++ key ++ " must be an integer"))
  else if j.getInt64 ≤ 0 then .error (invalidArgument ("modules.punchline." ++ key ++ " must be positive"))
  else .ok j.getInt64

def allowed : List Bytes :=
 ["long_shift_hours","clock_divergence_tolerance_seconds","device_attested_threshold","device_stale_seconds",
  "schedule_tolerance_minutes","employee_id_rejection_threshold","monitor_interval_seconds",
  "max_batch_entries"].map ascii

def configure : Section → Except Status ModuleConfig
 | none=>.error (invalidArgument "modules.punchline must be an object")
 | some entries=>
  match entries.find? fun e=>e.1 ∉ allowed with
  | some e=>.error (invalidArgument ("unknown key '" ++ text e.1 ++ "' in modules.punchline"))
  | none=>do
   let c : ModuleConfig := {}
   let longShiftHours ← positive entries "long_shift_hours" c.longShiftHours
   let clockDivergenceToleranceSeconds ←
    positive entries "clock_divergence_tolerance_seconds" c.clockDivergenceToleranceSeconds
   let deviceAttestedThreshold ← positive entries "device_attested_threshold" c.deviceAttestedThreshold
   let deviceStaleSeconds ← positive entries "device_stale_seconds" c.deviceStaleSeconds
   let scheduleToleranceMinutes ← positive entries "schedule_tolerance_minutes" c.scheduleToleranceMinutes
   let employeeIdRejectionThreshold ←
    positive entries "employee_id_rejection_threshold" c.employeeIdRejectionThreshold
   let monitorIntervalSeconds ← positive entries "monitor_interval_seconds" c.monitorIntervalSeconds
   let maxBatchEntries ← positive entries "max_batch_entries" c.maxBatchEntries
   if 10000 < maxBatchEntries then
    .error (invalidArgument "modules.punchline.max_batch_entries must be at most 10000")
   else
    .ok { longShiftHours,clockDivergenceToleranceSeconds,deviceAttestedThreshold,deviceStaleSeconds
          scheduleToleranceMinutes,employeeIdRejectionThreshold,monitorIntervalSeconds,maxBatchEntries }

def checkDevice (c:ModuleConfig) (env:Env) (d:Device) : PunchM (List ℤ) :=
 let last:=if d.lastSeenAt≠0 then d.lastSeenAt else d.enrolledAt
 if d.revokedAt≠0 then return []
 else if env.now-last<c.deviceStaleSeconds*1000000 then return []
 else flag env (aboutDevice d .deviceStale)
  (ascii ("no sync or heartbeat for " ++ toString ((env.now-last).tdiv 3600000000) ++ " hours"))

def checkShift (c:ModuleConfig) (env:Env) (sh:Shift) : PunchM (List ℤ) :=
 if sh.outEntryId≠0 ∨ env.now-sh.inTime<c.longShiftHours*kHourUs then return []
 else flag env
  { kind:=.unpairedPunch,employeeId:=sh.employeeId,entryId:=sh.inEntryId,deviceId:=sh.deviceId }
  (ascii "in punch still open past the long-shift threshold")

def behind (db:Db) (p:PayPeriod) (pastSubmit pastApprove:Bool) : List (ℤ × EntryState) :=
 let late:=db.timeEntries.rows.filter fun e=>e.periodId≠0 ∧ e.periodId=p.id ∧ e.supersededBy=0
 let recorded:=if pastSubmit then (late.filter fun e=>e.state=.recorded).map TimeEntry.employeeId else []
 let submitted:=if pastApprove then (late.filter fun e=>e.state=.submitted).map TimeEntry.employeeId else []
 (idSet (recorded++submitted)).flatMap fun employee=>
  (if employee∈recorded then [(employee,.recorded)] else []) ++
   if employee∈submitted then [(employee,.submitted)] else []

def checkPeriod (env:Env) (p:PayPeriod) : PunchM (List ℤ) := do
 let pastSubmit:=decide (p.submitBy≠0 ∧ p.submitBy ≤ env.now)
 let pastApprove:=decide (p.approveBy≠0 ∧ p.approveBy ≤ env.now)
 if p.state≠.open_ ∨ pastSubmit=false ∧ pastApprove=false then return []
 else do
  let late ← Act.reads fun db=>behind db p pastSubmit pastApprove
  forEachOpened (fun x=>flag env { kind:=.pastCutoff,employeeId:=x.1,periodId:=p.id }
   (ascii (if x.2=.recorded then "not submitted by the submit cutoff" else "not approved by the approval cutoff")))
   late

def monitorOnce (c:ModuleConfig) (env:Env) : PunchM (List ℤ) := do
 let devices ← Act.reads fun db=>db.devices.rows
 let stale ← forEachOpened (checkDevice c env) devices
 let shifts ← Act.reads fun db=>db.shifts.rows
 let unpaired ← forEachOpened (checkShift c env) shifts
 let periods ← Act.reads fun db=>db.payPeriods.rows
 let cutoff ← forEachOpened (checkPeriod env) periods
 return stale++unpaired++cutoff

/-- The products that the monitor, `applyBatch` and `repairPairing` form from the configuration. -/
def products (c:ModuleConfig) : List ℤ :=
 [c.longShiftHours*3600,c.longShiftHours*kHourUs,c.clockDivergenceToleranceSeconds*1000000,
  c.deviceStaleSeconds*1000000]

def AtMost (entries:List (Bytes × Json)) (key:String) (bound:ℤ) : Prop :=
 ∀ j,find entries key=some j → j.getInt64 ≤ bound

instance (entries:List (Bytes × Json)) (key:String) (bound:ℤ) : Decidable (AtMost entries key bound) :=
 match h:find entries key with
 | none=>isTrue fun j hj=>nomatch h.symm.trans hj
 | some j=>decidable_of_iff (j.getInt64 ≤ bound)
   ⟨fun hle _ hj=>Option.some_inj.mp (h.symm.trans hj) ▸ hle,fun hall=>hall j h⟩

lemma positive_ok {entries:List (Bytes × Json)} {key:String} {default v:ℤ} (hdefault:0<default)
 (h:positive entries key default=.ok v) : 0<v ∧ ∀ bound,default≤bound → (AtMost entries key bound ↔ v≤bound) := by
 unfold positive at h
 unfold AtMost
 cases hfind:find entries key with
 | none=>
  rw [hfind] at h
  cases h
  exact ⟨hdefault,fun bound hbound=>⟨fun _=>hbound,fun _ j hj=>nomatch hj⟩⟩
 | some j=>
  rw [hfind] at h
  dsimp only at h
  split at h
  · cases h
  · split at h
    · cases h
    · rename_i hpos
      cases h
      refine ⟨not_le.mp hpos,fun bound _=>⟨fun hall=>hall j rfl,fun hle j' hj'=>?_⟩⟩
      cases hj'
      exact hle

lemma configure_ok {entries:List (Bytes × Json)} {c:ModuleConfig} (h:configure (some entries)=.ok c) :
 positive entries "long_shift_hours" 16=.ok c.longShiftHours ∧
 positive entries "clock_divergence_tolerance_seconds" 300=.ok c.clockDivergenceToleranceSeconds ∧
 positive entries "device_stale_seconds" 86400=.ok c.deviceStaleSeconds := by
 unfold configure at h
 dsimp only at h
 split at h
 · cases h
 · obtain ⟨longShift,hlong,h⟩:=bind_ok_cases h
   obtain ⟨tolerance,htolerance,h⟩:=bind_ok_cases h
   obtain ⟨attested,-,h⟩:=bind_ok_cases h
   obtain ⟨stale,hstale,h⟩:=bind_ok_cases h
   obtain ⟨schedule,-,h⟩:=bind_ok_cases h
   obtain ⟨rejections,-,h⟩:=bind_ok_cases h
   obtain ⟨interval,-,h⟩:=bind_ok_cases h
   obtain ⟨entriesMax,-,h⟩:=bind_ok_cases h
   split at h
   · cases h
   · cases h
     exact ⟨hlong,htolerance,hstale⟩

/-- Of what an accepted section gives, every product is positive, and it fits exactly when the
three configured values are small enough. -/
theorem products_fit_iff {entries:List (Bytes × Json)} {c:ModuleConfig} (h:configure (some entries)=.ok c) :
  (∀ p∈products c,0<p ∧ p<2^63) ↔
   AtMost entries "long_shift_hours" 2562047788 ∧
   AtMost entries "clock_divergence_tolerance_seconds" 9223372036854 ∧
   AtMost entries "device_stale_seconds" 9223372036854 := by
 obtain ⟨hlong,htolerance,hstale⟩:=configure_ok h
 obtain ⟨hlong,hlong'⟩:=positive_ok (by decide) hlong
 obtain ⟨htolerance,htolerance'⟩:=positive_ok (by decide) htolerance
 obtain ⟨hstale,hstale'⟩:=positive_ok (by decide) hstale
 rw [hlong' _ (by decide),htolerance' _ (by decide),hstale' _ (by decide)]
 simp only [products,kHourUs,List.forall_mem_cons,List.not_mem_nil,false_implies,implies_true,and_true]
 constructor
 · intro hfit
   omega
 · intro hle
   omega

/-- A shift of three days, a tolerance of a minute and a stale threshold of two days. -/
def exampleSection : List (Bytes × Json) :=
 [(ascii "long_shift_hours",.unsigned 72),(ascii "clock_divergence_tolerance_seconds",.unsigned 60),
  (ascii "device_stale_seconds",.unsigned 172800)]

def exampleConfig : ModuleConfig :=
 { longShiftHours:=72,clockDivergenceToleranceSeconds:=60,deviceStaleSeconds:=172800 }

theorem exampleSection_fits : configure (some exampleSection)=.ok exampleConfig ∧
  ∀ p∈products exampleConfig,0<p ∧ p<2^63 := by
 have h:configure (some exampleSection)=.ok exampleConfig:=by decide +kernel
 exact ⟨h,(products_fit_iff h).mpr (by decide +kernel)⟩

/-- One hour more than fits is accepted, and its product is past the type's range. -/
theorem longShift_overflows : ∃ c,
  configure (some [(ascii "long_shift_hours",.unsigned 2562047789)])=.ok c ∧
  c.longShiftHours*kHourUs∈products c ∧ 2^63 ≤ c.longShiftHours*kHourUs :=
 ⟨{ longShiftHours:=2562047789 },by decide +kernel,by decide,by decide⟩

end Archivum.Monitor
