import Archivum.Payroll

set_option autoImplicit false

/-!
# Holds on timesheets

What an evaluation does to the holds, when it opens one, and what a run of
evaluations and authorizations keeps.
-/
namespace Archivum.HoldRules
open StatefulActions PageTxn RecordModel KeyedTables Tallies PunchlineData PunchlineDb Payroll List

def Holds (db:Db) (employeeId periodId:ℤ) (h:TimesheetHold) : Prop :=
 h∈db.timesheetHolds ∧ h.employeeId=employeeId ∧ h.periodId=periodId ∧ h.clearedAt=0

def OneOpen (db:Db) : Prop :=
 ∀ employeeId periodId h h',Holds db employeeId periodId h → Holds db employeeId periodId h' → h=h'

section Open
variable {db:Db} {employeeId periodId:ℤ} {h:TimesheetHold}

lemma mem_openHolds : h∈db.timesheetHolds.rows.filter (fun h=>
  h.employeeId=employeeId ∧ h.periodId=periodId ∧ h.clearedAt=0) ↔ Holds db employeeId periodId h := by
 rw [mem_filter,decide_eq_true_eq]
 exact Iff.rfl

lemma openHold_some (hopen:openHold db employeeId periodId=some h) : Holds db employeeId periodId h :=
 mem_openHolds.mp (mem_of_getLast? hopen)

lemma openHold_none : openHold db employeeId periodId=none ↔ ∀ h,¬Holds db employeeId periodId h := by
 unfold openHold
 rw [getLast?_eq_none_iff,eq_nil_iff_forall_not_mem]
 exact forall_congr' fun h=>not_congr mem_openHolds

lemma openHold_isSome : (openHold db employeeId periodId).isSome ↔ ∃ h,Holds db employeeId periodId h := by
 rw [← not_iff_not,Option.not_isSome_iff_eq_none,openHold_none,not_exists]

end Open

/-- Everything `evaluateHold` can do to the store. -/
inductive Evaluated (env:Env) (employeeId periodId:ℤ) (db:Db) : Db → Prop
 | notOpen (hperiod:periodOpen db periodId=false) : Evaluated env employeeId periodId db db
 | kept (h:TimesheetHold) (hopen:openHold db employeeId periodId=some h)
   (hneed:holdNeeded db env.cfg employeeId periodId=true) : Evaluated env employeeId periodId db db
 | refreshed (h h':TimesheetHold) (hopen:openHold db employeeId periodId=some h)
   (hneed:holdNeeded db env.cfg employeeId periodId=true) (hid:h'.id=h.id)
   (hnew:h'.employeeId=employeeId ∧ h'.periodId=periodId ∧ h'.clearedAt=0) :
   Evaluated env employeeId periodId db { db with timesheetHolds:=db.timesheetHolds.put h' }
 | opened (h':TimesheetHold) (hopen:openHold db employeeId periodId=none)
   (hneed:holdNeeded db env.cfg employeeId periodId=true) (hid:h'.id=db.timesheetHolds.lastKey+1)
   (hnew:h'.employeeId=employeeId ∧ h'.periodId=periodId ∧ h'.clearedAt=0) :
   Evaluated env employeeId periodId db { db with timesheetHolds:=db.timesheetHolds.put h' }
 | cleared (h h':TimesheetHold) (hopen:openHold db employeeId periodId=some h)
   (hneed:holdNeeded db env.cfg employeeId periodId=false) (hid:h'.id=h.id)
   (hnew:h'.employeeId=employeeId ∧ h'.periodId=periodId ∧ h'.clearedAt=env.now) :
   Evaluated env employeeId periodId db { db with timesheetHolds:=db.timesheetHolds.put h' }
 | idle (hopen:openHold db employeeId periodId=none)
   (hneed:holdNeeded db env.cfg employeeId periodId=false) : Evaluated env employeeId periodId db db

lemma evaluateHold_ok {env:Env} {employeeId periodId:ℤ} {db db':Db}
 (hrun:evaluateHold env employeeId periodId db=(.ok (),db')) : Evaluated env employeeId periodId db db' := by
 unfold evaluateHold at hrun
 rw [Act.bind_reads,id_eq] at hrun
 by_cases hperiod:periodOpen db periodId=true
 · rw [hperiod,if_neg (by decide)] at hrun
   cases hopen:openHold db employeeId periodId with
   | none=>
    cases hneed:holdNeeded db env.cfg employeeId periodId with
    | true=>
     rw [hopen,hneed] at hrun
     rw [(insert_ok hrun).2]
     exact .opened _ hopen hneed rfl ⟨rfl,rfl,rfl⟩
    | false=>
     rw [hopen,hneed] at hrun
     cases hrun
     exact .idle hopen hneed
   | some h=>
    obtain ⟨-,hemp,hper,hclear⟩:=openHold_some hopen
    cases hneed:holdNeeded db env.cfg employeeId periodId with
    | true=>
     rw [hopen,hneed] at hrun
     dsimp only at hrun
     split at hrun
     · cases hrun
       exact .kept h hopen hneed
     · rw [(update_ok hrun).2]
       exact .refreshed h _ hopen hneed rfl ⟨hemp,hper,hclear⟩
    | false=>
     rw [hopen,hneed] at hrun
     rw [(update_ok hrun).2]
     exact .cleared h _ hopen hneed rfl ⟨hemp,hper,rfl⟩
 · have hclosed:periodOpen db periodId=false:=Bool.not_eq_true _ ▸ hperiod
   rw [hclosed] at hrun
   cases hrun
   exact .notOpen hclosed

section Limits
variable (db:Db) (cfg:Config) (employeeId periodId:ℤ)

def dayTotal (day:ℤ) : ℤ := total Shift.localDay worked (closedShifts db employeeId periodId) day

/-- Closed-shift time of the employee in the period in the week that starts on a day. -/
def weekTotal (week:ℤ) : ℤ :=
 total (fun sh=>weekStart cfg sh.localDay) worked (closedShifts db employeeId periodId) week

def workedDays : List ℤ := (closedShifts db employeeId periodId).map Shift.localDay

def workedWeeks : List ℤ := (closedShifts db employeeId periodId).map fun sh=>weekStart cfg sh.localDay

/-- Some day's time is over the daily limit in force that day, or some week's over the weekly limit in force on
its first day. -/
def OverLimit : Prop :=
 (∃ day∈workedDays db employeeId periodId,∃ hours,scheduleHoursAt db employeeId day=some hours ∧
  hours.dailyMinutes*kUsPerMinute<dayTotal db employeeId periodId day) ∨
 ∃ week∈workedWeeks db cfg employeeId periodId,∃ hours,scheduleHoursAt db employeeId week=some hours ∧
  hours.weeklyMinutes*kUsPerMinute<weekTotal db cfg employeeId periodId week

def OverByMinutes : Prop :=
 (∃ day∈workedDays db employeeId periodId,∃ hours,scheduleHoursAt db employeeId day=some hours ∧
  hours.dailyMinutes<(dayTotal db employeeId periodId day).tdiv kUsPerMinute) ∨
 ∃ week∈workedWeeks db cfg employeeId periodId,∃ hours,scheduleHoursAt db employeeId week=some hours ∧
  hours.weeklyMinutes<(weekTotal db cfg employeeId periodId week).tdiv kUsPerMinute

end Limits

lemma minutesOver_nonneg (limit us:ℤ) : 0 ≤ minutesOver limit us := le_max_left _ _

lemma minutesOver_pos_iff (limit us:ℤ) : 0 < minutesOver limit us ↔ limit<us.tdiv kUsPerMinute := by
 unfold minutesOver
 rw [lt_max_iff]
 omega

lemma over_of_minutes {limit us:ℤ} (h:limit<us.tdiv kUsPerMinute) : limit*kUsPerMinute<us := by
 unfold kUsPerMinute at h ⊢
 have hdiv:=Int.mul_tdiv_add_tmod us 60000000
 have hlow : -60000000<us.tmod 60000000:=Int.lt_tmod_of_pos us (by decide)
 omega

lemma minutesOver_of_le {limit us:ℤ} (h:us≤limit*kUsPerMinute) : minutesOver limit us=0 := by
 refine le_antisymm (not_lt.mp fun hpos=>?_) (minutesOver_nonneg limit us)
 exact absurd (over_of_minutes ((minutesOver_pos_iff limit us).mp hpos)) (not_lt.mpr h)

section Excess
variable {db:Db} {cfg:Config} {employeeId periodId:ℤ}

lemma dayExcess_nonneg (e:ℤ × ℤ) : 0≤dayExcess db employeeId e := by
 unfold dayExcess
 cases scheduleHoursAt db employeeId e.1 with
 | none=>exact le_refl 0
 | some hours=>exact minutesOver_nonneg _ _

lemma weekExcess_nonneg (e:ℤ × ℤ) : 0≤weekExcess db employeeId e := by
 unfold weekExcess
 cases scheduleHoursAt db employeeId e.1 with
 | none=>exact le_refl 0
 | some hours=>exact minutesOver_nonneg _ _

lemma dayExcess_pos_iff (e:ℤ × ℤ) : 0<dayExcess db employeeId e ↔
 ∃ hours,scheduleHoursAt db employeeId e.1=some hours ∧ hours.dailyMinutes<e.2.tdiv kUsPerMinute := by
 unfold dayExcess
 cases scheduleHoursAt db employeeId e.1 with
 | none=>simp
 | some hours=>simp [minutesOver_pos_iff]

lemma weekExcess_pos_iff (e:ℤ × ℤ) : 0<weekExcess db employeeId e ↔
 ∃ hours,scheduleHoursAt db employeeId e.1=some hours ∧ hours.weeklyMinutes<e.2.tdiv kUsPerMinute := by
 unfold weekExcess
 cases scheduleHoursAt db employeeId e.1 with
 | none=>simp
 | some hours=>simp [minutesOver_pos_iff]

lemma sum_pos_iff {f:ℤ × ℤ → ℤ} (hf:∀ e,0≤f e) (m:List (ℤ × ℤ)) : 0<(m.map f).sum ↔ ∃ e∈m,0<f e := by
 induction m with
 | nil=>simp
 | cons e m ih=>
  have hrest:0≤(m.map f).sum:=sum_nonneg fun x hx=>by
   obtain ⟨y,-,rfl⟩:=mem_map.mp hx
   exact hf y
  have he:=hf e
  rw [map_cons,sum_cons,exists_mem_cons_iff,← ih]
  omega

lemma exists_day_iff (P:ℤ × ℤ → Prop) : (∃ e∈(totalsOf db cfg employeeId periodId).dayUs,P e) ↔
  ∃ day∈workedDays db employeeId periodId,P (day,dayTotal db employeeId periodId day) := by
 constructor
 · rintro ⟨⟨day,us⟩,he,hp⟩
   obtain ⟨hday,rfl⟩:=(mem_tally _ _ _ day us).mp he
   exact ⟨day,hday,hp⟩
 · rintro ⟨day,hday,hp⟩
   exact ⟨_,(mem_tally _ _ _ day _).mpr ⟨hday,rfl⟩,hp⟩

lemma exists_week_iff (P:ℤ × ℤ → Prop) : (∃ e∈(totalsOf db cfg employeeId periodId).weekUs,P e) ↔
  ∃ week∈workedWeeks db cfg employeeId periodId,P (week,weekTotal db cfg employeeId periodId week) := by
 constructor
 · rintro ⟨⟨week,us⟩,he,hp⟩
   obtain ⟨hweek,rfl⟩:=(mem_tally _ _ _ week us).mp he
   exact ⟨week,hweek,hp⟩
 · rintro ⟨week,hweek,hp⟩
   exact ⟨_,(mem_tally _ _ _ week _).mpr ⟨hweek,rfl⟩,hp⟩

lemma excess_pos_iff : 0<overtimeExcessMinutes db employeeId (totalsOf db cfg employeeId periodId) ↔
  OverByMinutes db cfg employeeId periodId := by
 unfold overtimeExcessMinutes OverByMinutes
 rw [lt_max_iff,sum_pos_iff dayExcess_nonneg,sum_pos_iff weekExcess_nonneg,exists_day_iff,exists_week_iff]
 simp only [dayExcess_pos_iff,weekExcess_pos_iff]

lemma dayBreach_isSome (e:ℤ × ℤ) : (dayBreach db employeeId e).isSome ↔
 ∃ hours,scheduleHoursAt db employeeId e.1=some hours ∧ hours.dailyMinutes*kUsPerMinute<e.2 := by
 unfold dayBreach
 cases scheduleHoursAt db employeeId e.1 with
 | none=>simp
 | some hours=>
  by_cases h:hours.dailyMinutes*kUsPerMinute<e.2
  · simp [h]
  · simp [h]

lemma weekBreach_isSome (e:ℤ × ℤ) : (weekBreach db employeeId e).isSome ↔
 ∃ hours,scheduleHoursAt db employeeId e.1=some hours ∧ hours.weeklyMinutes*kUsPerMinute<e.2 := by
 unfold weekBreach
 cases scheduleHoursAt db employeeId e.1 with
 | none=>simp
 | some hours=>
  by_cases h:hours.weeklyMinutes*kUsPerMinute<e.2
  · simp [h]
  · simp [h]

lemma filterMap_ne_nil {α β:Type} (f:α → Option β) (l:List α) : l.filterMap f≠[] ↔ ∃ a∈l,(f a).isSome := by
 rw [Ne,filterMap_eq_nil_iff]
 push Not
 simp only [Option.ne_none_iff_isSome]

lemma breaches_iff :
 breaches db employeeId (totalsOf db cfg employeeId periodId)≠[] ↔ OverLimit db cfg employeeId periodId := by
 unfold breaches OverLimit
 rw [Ne,append_eq_nil_iff,not_and_or,← Ne,← Ne,filterMap_ne_nil,filterMap_ne_nil,exists_day_iff,exists_week_iff]
 simp only [dayBreach_isSome,weekBreach_isSome]

lemma overLimit_of_minutes (h:OverByMinutes db cfg employeeId periodId) : OverLimit db cfg employeeId periodId := by
 rcases h with ⟨day,hday,hours,hat,hover⟩ | ⟨week,hweek,hours,hat,hover⟩
 · exact .inl ⟨day,hday,hours,hat,over_of_minutes hover⟩
 · exact .inr ⟨week,hweek,hours,hat,over_of_minutes hover⟩

lemma holdNeeded_iff : holdNeeded db cfg employeeId periodId=true ↔ OverLimit db cfg employeeId periodId ∧
  ((latestAuthorization db employeeId periodId).map OvertimeAuthorization.authorizedMinutes).getD 0 <
   overtimeExcessMinutes db employeeId (totalsOf db cfg employeeId periodId) := by
 unfold holdNeeded
 rw [decide_eq_true_eq,breaches_iff]

lemma holdNeeded_unauthorized (h:latestAuthorization db employeeId periodId=none) :
 holdNeeded db cfg employeeId periodId=true ↔ OverByMinutes db cfg employeeId periodId := by
 rw [holdNeeded_iff,h]
 exact ⟨fun hneed=>excess_pos_iff.mp hneed.2,fun hover=>⟨overLimit_of_minutes hover,excess_pos_iff.mpr hover⟩⟩

end Excess

inductive Step
 | evaluate (env:Env) (employeeId periodId:ℤ)
 | authorize (env:Env) (employeeId periodId:ℤ) (note tid oid:ByteStrings.Bytes)
 /-- Anything else that happens to the store: only these two calls write holds. -/
 | change (rest:Db)

def step : Step → Db → Db
 | .evaluate env employeeId periodId,db=>committed (evaluateHold env employeeId periodId) db
 | .authorize env employeeId periodId note tid oid,db=>
  committed (authorizeOvertime env employeeId periodId note tid oid) db
 | .change rest,db=>{ rest with timesheetHolds:=db.timesheetHolds }

def Reachable (db:Db) : Prop :=
 ∃ db₀ steps,db₀.timesheetHolds.rows=[] ∧ db=after step steps db₀

section Put
variable {db:Db} {employeeId periodId:ℤ} {h h' x:TimesheetHold}

lemma holds_put (db:Db) : Holds { db with timesheetHolds:=db.timesheetHolds.put h' } employeeId periodId x ↔
  (x=h' ∧ h'.employeeId=employeeId ∧ h'.periodId=periodId ∧ h'.clearedAt=0) ∨
   (Holds db employeeId periodId x ∧ x.id≠h'.id) := by
 unfold Holds
 rw [Table.mem_put]
 constructor
 · rintro ⟨rfl | ⟨hx,hne⟩,hrest⟩
   · exact .inl ⟨rfl,hrest⟩
   · exact .inr ⟨⟨hx,hrest⟩,hne⟩
 · rintro (⟨rfl,hrest⟩ | ⟨⟨hx,hrest⟩,hne⟩)
   · exact ⟨.inl rfl,hrest⟩
   · exact ⟨.inr ⟨hx,hne⟩,hrest⟩

lemma OneOpen.change (hone:OneOpen db) (hold:Holds db employeeId periodId h) (hid:h'.id=h.id)
  (hemp:h'.employeeId=employeeId) (hper:h'.periodId=periodId) :
  OneOpen { db with timesheetHolds:=db.timesheetHolds.put h' } := by
 have only:∀ x,Holds db employeeId periodId x → x.id=h'.id:=fun x hx=>
  hone employeeId periodId x h hx hold ▸ hid.symm
 intro e p x y hx hy
 rw [holds_put db,hemp,hper] at hx hy
 rcases hx with ⟨rfl,rfl,rfl,_⟩ | ⟨hx,hxne⟩
 · rcases hy with ⟨rfl,_⟩ | ⟨hy,hyne⟩
   · rfl
   · exact absurd (only y hy) hyne
 · rcases hy with ⟨rfl,rfl,rfl,_⟩ | ⟨hy,_⟩
   · exact absurd (only x hx) hxne
   · exact hone e p x y hx hy

lemma OneOpen.open (hone:OneOpen db) (hnone:openHold db employeeId periodId=none)
  (hemp:h'.employeeId=employeeId) (hper:h'.periodId=periodId) :
  OneOpen { db with timesheetHolds:=db.timesheetHolds.put h' } := by
 have none:=openHold_none.mp hnone
 intro e p x y hx hy
 rw [holds_put db,hemp,hper] at hx hy
 rcases hx with ⟨rfl,rfl,rfl,_⟩ | ⟨hx,_⟩
 · rcases hy with ⟨rfl,_⟩ | ⟨hy,_⟩
   · rfl
   · exact absurd hy (none y)
 · rcases hy with ⟨rfl,rfl,rfl,_⟩ | ⟨hy,_⟩
   · exact absurd hx (none x)
   · exact hone e p x y hx hy

end Put

lemma Evaluated.oneOpen {env:Env} {employeeId periodId:ℤ} {db db':Db}
 (hev:Evaluated env employeeId periodId db db') (hone:OneOpen db) : OneOpen db' := by
 cases hev with
 | notOpen _=>exact hone
 | kept _ _ _=>exact hone
 | refreshed h h' hopen _ hid hnew=>exact hone.change (openHold_some hopen) hid hnew.1 hnew.2.1
 | opened h' hopen _ _ hnew=>exact hone.open hopen hnew.1 hnew.2.1
 | cleared h h' hopen _ hid hnew=>exact hone.change (openHold_some hopen) hid hnew.1 hnew.2.1
 | idle _ _=>exact hone

lemma authorizeOvertime_ok {env:Env} {employeeId periodId:ℤ} {note tid oid:ByteStrings.Bytes} {db db':Db}
  {a:OvertimeAuthorization} (hrun:authorizeOvertime env employeeId periodId note tid oid db=(.ok a,db')) :
  ∃ h h',openHold db employeeId periodId=some h ∧ h'.id=h.id ∧ h'.employeeId=employeeId ∧
   h'.periodId=periodId ∧ h'.clearedAt=env.now ∧ a.id=db.overtimeAuthorizations.lastKey+1 ∧
   a.employeeId=employeeId ∧ a.periodId=periodId ∧
   a.authorizedMinutes=overtimeExcessMinutes db employeeId (totalsOf db env.cfg employeeId periodId) ∧
   db'={ db with overtimeAuthorizations:=db.overtimeAuthorizations.put a
                 timesheetHolds:=db.timesheetHolds.put h' } := by
 unfold authorizeOvertime at hrun
 rw [Act.bind_reads,id_eq] at hrun
 cases hopen:openHold db employeeId periodId with
 | none=>
  rw [hopen] at hrun
  cases hrun
 | some h=>
  rw [hopen] at hrun
  obtain ⟨_,s₁,h₁,hrun⟩:=Act.bind_ok_inv hrun
  cases h₁
  obtain ⟨_,s₂,h₂,hrun⟩:=Act.bind_ok_inv hrun
  obtain ⟨_,s₃,h₃,hrun⟩:=Act.bind_ok_inv hrun
  cases hrun
  obtain ⟨-,hemp,hper,-⟩:=openHold_some hopen
  obtain rfl:=(insert_ok h₂).2
  obtain rfl:=(update_ok h₃).2
  exact ⟨h,{ h with clearedAt:=env.now,authorizationId:=db.overtimeAuthorizations.lastKey+1 },rfl,rfl,
   hemp,hper,rfl,rfl,rfl,rfl,rfl,rfl⟩

lemma OneOpen.step {db:Db} (hone:OneOpen db) (s:Step) : OneOpen (step s db) := by
 cases s with
 | evaluate env e p=>
  change OneOpen (committed (evaluateHold env e p) db)
  rcases committed_cases (evaluateHold env e p) db with ⟨_,hrun⟩ | hsame
  · exact (evaluateHold_ok hrun).oneOpen hone
  · rwa [hsame]
 | authorize env e p note tid oid=>
  change OneOpen (committed (authorizeOvertime env e p note tid oid) db)
  rcases committed_cases (authorizeOvertime env e p note tid oid) db with ⟨_,hrun⟩ | hsame
  · obtain ⟨h,h',hopen,hid,hemp,hper,-,-,-,-,-,hdb⟩:=authorizeOvertime_ok hrun
    rw [hdb]
    exact hone.change (openHold_some hopen) hid hemp hper
  · rwa [hsame]
 | change rest=>exact hone

lemma OneOpen.after {db:Db} (hone:OneOpen db) (steps:List Step) : OneOpen (after HoldRules.step steps db) :=
 after_preserves (I:=OneOpen) (fun s _ h=>h.step s) steps hone

lemma OneOpen.empty {db:Db} (h:db.timesheetHolds.rows=[]) : OneOpen db := by
 intro e p x y hx
 have hmem:x∈db.timesheetHolds.rows:=hx.1
 rw [h] at hmem
 cases hmem

lemma Reachable.oneOpen {db:Db} (h:Reachable db) : OneOpen db := by
 obtain ⟨db₀,steps,hempty,rfl⟩:=h
 exact (OneOpen.empty hempty).after steps

lemma Evaluated.open_iff {env:Env} {employeeId periodId:ℤ} {db db':Db}
 (hev:Evaluated env employeeId periodId db db') (hone:OneOpen db) (hperiod:periodOpen db periodId=true)
 (hnow:env.now≠0) : (openHold db' employeeId periodId).isSome ↔ holdNeeded db env.cfg employeeId periodId=true := by
 cases hev with
 | notOpen hclosed=>
  rw [hclosed] at hperiod
  cases hperiod
 | kept h hopen hneed=>simp [hopen,hneed]
 | refreshed h h' hopen hneed hid hnew=>
  rw [hneed,openHold_isSome]
  exact iff_of_true ⟨h',(holds_put db).mpr (.inl ⟨rfl,hnew⟩)⟩ rfl
 | opened h' hopen hneed hid hnew=>
  rw [hneed,openHold_isSome]
  exact iff_of_true ⟨h',(holds_put db).mpr (.inl ⟨rfl,hnew⟩)⟩ rfl
 | cleared h h' hopen hneed hid hnew=>
  rw [hneed,openHold_isSome]
  refine iff_of_false ?_ Bool.false_ne_true
  rintro ⟨x,hx⟩
  rcases (holds_put db).mp hx with ⟨-,-,-,hclear⟩ | ⟨hx,hne⟩
  · exact hnow (hnew.2.2.symm.trans hclear)
  · exact hne (hone employeeId periodId x h hx (openHold_some hopen) ▸ hid.symm)
 | idle hopen hneed=>simp [hopen,hneed]

/-- Without an authorization a timesheet of an open period over a limit is held after its evaluation exactly when
the time over the limit makes a whole minute. -/
theorem held_iff_over_iff {env:Env} {employeeId periodId:ℤ} {db db':Db} (hreach:Reachable db)
  (hperiod:periodOpen db periodId=true) (hauth:latestAuthorization db employeeId periodId=none)
  (hnow:env.now≠0) (hrun:evaluateHold env employeeId periodId db=(.ok (),db')) :
  ((openHold db' employeeId periodId).isSome ↔ OverLimit db env.cfg employeeId periodId) ↔
   (OverLimit db env.cfg employeeId periodId → OverByMinutes db env.cfg employeeId periodId) := by
 rw [(evaluateHold_ok hrun).open_iff hreach.oneOpen hperiod hnow,holdNeeded_unauthorized hauth]
 exact ⟨fun h=>h.mpr,fun h=>⟨overLimit_of_minutes,h⟩⟩

/-! A timesheet with one closed shift in an open period, against eight hours a day and forty a week. -/

def exampleEntry (id:ℤ) (kind:PunchKind) (deviceTime:ℤ) : TimeEntry where
 id := id
 entryUuid:=⟨replicate 15 0++[UInt8.ofNat id.toNat],rfl⟩
 employeeId:=1
 deviceId:=1
 journalId:=some zeroUuid
 journalSequence:=id
 kind:=kind
 deviceTime:=deviceTime
 localTime:=ascii "2024-02-29T07:00:00"
 siteZone:=ascii "UTC"
 tzdbVersion:=ascii "2024a"
 receiptTime:=deviceTime
 attestation:=.device
 periodId:=1
 createdAt:=deviceTime

def exampleSheet (worked:ℤ) : Db where
 auditLog := ⟨[⟨1⟩],pairwise_singleton _ _⟩
 employees:=exampleEmployees
 devices:=exampleDevices
 payPeriods:=examplePeriods
 timeEntries:=⟨[exampleEntry 1 .in_ 1709190000000000,exampleEntry 2 .out (1709190000000000+worked)],
  pairwise_pair.mpr (show (1:ℤ)<2 by decide)⟩
 shifts:=⟨[{ id:=1,employeeId:=1,deviceId:=1,inEntryId:=1,outEntryId:=2,localDay:=19782,
             periodId:=1,inTime:=1709190000000000,outTime:=1709190000000000+worked
             durationUs:=some worked }],pairwise_singleton _ _⟩
 scheduleHours:=⟨[{ id:=1,employeeId:=1,effectiveFromDay:=19000,effectiveToDay:=0,dailyMinutes:=480,
                    weeklyMinutes:=2400,setBy:=ascii "hr",auditId:=1 }],pairwise_singleton _ _⟩

def exampleEnv : Env := { auditId:=1,release:=ascii "2024a",now:=1709300000000000 }

lemma exampleSheet_reachable (worked:ℤ) : Reachable (exampleSheet worked) := ⟨exampleSheet worked,[],rfl,rfl⟩

/-- Eight hours and one minute: the timesheet is held, as its day is over the limit. -/
theorem minute_over_held :
  let db := exampleSheet (481*kUsPerMinute)
  let db':=(evaluateHold exampleEnv 1 1 db).2
  (openHold db' 1 1).isSome ∧ ((openHold db' 1 1).isSome ↔ OverLimit db exampleEnv.cfg 1 1):=by
 have hrun:evaluateHold exampleEnv 1 1 (exampleSheet (481*kUsPerMinute)) =
   (.ok (),(evaluateHold exampleEnv 1 1 (exampleSheet (481*kUsPerMinute))).2):=
  Prod.ext (by decide +kernel) rfl
 refine ⟨by decide +kernel,(held_iff_over_iff (exampleSheet_reachable _) (by decide +kernel) (by decide +kernel)
  (by decide) hrun).mpr fun _=>?_⟩
 exact .inl ⟨19782,by decide +kernel,_,rfl,by decide +kernel⟩

/-- Eight hours and half a minute: the day is over its limit, and the timesheet is not held. -/
theorem half_minute_over_not_held :
  let db := exampleSheet (480*kUsPerMinute+30000000)
  Reachable db ∧ periodOpen db 1=true ∧ latestAuthorization db 1 1=none ∧
   evaluateHold exampleEnv 1 1 db=(.ok (),db) ∧ openHold db 1 1=none ∧
   OverLimit db exampleEnv.cfg 1 1:=
 ⟨exampleSheet_reachable _,by decide +kernel,by decide +kernel,by decide +kernel,by decide +kernel,
  .inl ⟨19782,by decide +kernel,_,rfl,by decide +kernel⟩⟩

section Authorized
variable {db rest:Db} {cfg:Config} {env:Env} {employeeId periodId:ℤ}

/-- The day and the time of the closed shifts that count for a timesheet. -/
def worktimes (db:Db) (employeeId periodId:ℤ) : List (ℤ × ℤ) :=
 (closedShifts db employeeId periodId).map fun sh=>(sh.localDay,worked sh)

/-- A day and its week are within the limits in force, if there are any. -/
def WithinLimits (db:Db) (cfg:Config) (employeeId periodId day:ℤ) : Prop :=
 (∀ hours,scheduleHoursAt db employeeId day=some hours →
  dayTotal db employeeId periodId day ≤ hours.dailyMinutes*kUsPerMinute) ∧
 ∀ hours,scheduleHoursAt db employeeId (weekStart cfg day)=some hours →
  weekTotal db cfg employeeId periodId (weekStart cfg day) ≤ hours.weeklyMinutes*kUsPerMinute

/-- A change of the store that only closes further shifts of a timesheet, each on a day and in a week that stay
within their limits. -/
def ClosesWithin (cfg:Config) (employeeId periodId:ℤ) (db rest:Db) : Prop :=
 rest.scheduleHours=db.scheduleHours ∧ rest.overtimeAuthorizations=db.overtimeAuthorizations ∧
 ∃ more,(worktimes rest employeeId periodId).Perm (worktimes db employeeId periodId++more) ∧
  ∀ w∈more,WithinLimits rest cfg employeeId periodId w.1

/-- The steps of a run under one configuration in which shifts are closed within the limits. -/
def Within (cfg:Config) (employeeId periodId:ℤ) : Step → Db → Prop
 | .evaluate env _ _,_=>env.cfg=cfg
 | .authorize env _ _ _ _ _,_=>env.cfg=cfg
 | .change rest,db=>ClosesWithin cfg employeeId periodId db rest

def Covered (cfg:Config) (employeeId periodId:ℤ) (db:Db) : Prop :=
 ∃ a,latestAuthorization db employeeId periodId=some a ∧
  overtimeExcessMinutes db employeeId (totalsOf db cfg employeeId periodId) ≤ a.authorizedMinutes

lemma dayUs_eq : (totalsOf db cfg employeeId periodId).dayUs =
 tally Prod.fst Prod.snd (worktimes db employeeId periodId) := by
 unfold worktimes
 rw [tally_map]
 rfl

lemma weekUs_eq : (totalsOf db cfg employeeId periodId).weekUs =
 tally (fun w=>weekStart cfg w.1) Prod.snd (worktimes db employeeId periodId) := by
 unfold worktimes
 rw [tally_map]
 rfl

lemma dayTotal_eq (day:ℤ) : dayTotal db employeeId periodId day =
 total Prod.fst Prod.snd (worktimes db employeeId periodId) day := by
 unfold worktimes
 rw [total_map]
 rfl

lemma weekTotal_eq (week:ℤ) : weekTotal db cfg employeeId periodId week =
 total (fun w=>weekStart cfg w.1) Prod.snd (worktimes db employeeId periodId) week := by
 unfold worktimes
 rw [total_map]
 rfl

lemma scheduleHoursAt_congr (h:rest.scheduleHours=db.scheduleHours) (day:ℤ) :
 scheduleHoursAt rest employeeId day=scheduleHoursAt db employeeId day := by
 unfold scheduleHoursAt scheduleHoursOf
 rw [h]

lemma dayExcess_congr (h:rest.scheduleHours=db.scheduleHours) : dayExcess rest employeeId=dayExcess db employeeId := by
 funext e
 unfold dayExcess
 rw [scheduleHoursAt_congr h]

lemma weekExcess_congr (h:rest.scheduleHours=db.scheduleHours) : weekExcess rest employeeId=weekExcess db employeeId := by
 funext e
 unfold weekExcess
 rw [scheduleHoursAt_congr h]

lemma dayExcess_eq_zero {e:ℤ × ℤ}
 (h:∀ hours,scheduleHoursAt db employeeId e.1=some hours → e.2≤hours.dailyMinutes*kUsPerMinute) :
 dayExcess db employeeId e=0 := by
 unfold dayExcess
 cases hat:scheduleHoursAt db employeeId e.1 with
 | none=>rfl
 | some hours=>exact minutesOver_of_le (h hours hat)

lemma weekExcess_eq_zero {e:ℤ × ℤ}
 (h:∀ hours,scheduleHoursAt db employeeId e.1=some hours → e.2≤hours.weeklyMinutes*kUsPerMinute) :
 weekExcess db employeeId e=0 := by
 unfold weekExcess
 cases hat:scheduleHoursAt db employeeId e.1 with
 | none=>rfl
 | some hours=>exact minutesOver_of_le (h hours hat)

lemma ClosesWithin.excess_le (h:ClosesWithin cfg employeeId periodId db rest) :
 overtimeExcessMinutes rest employeeId (totalsOf rest cfg employeeId periodId) ≤
  overtimeExcessMinutes db employeeId (totalsOf db cfg employeeId periodId) := by
 obtain ⟨hhours,-,more,hperm,hwithin⟩:=h
 unfold overtimeExcessMinutes
 rw [dayUs_eq,dayUs_eq,weekUs_eq,weekUs_eq,dayExcess_congr hhours,weekExcess_congr hhours]
 refine max_le_max (sum_tally_le _ _ hperm dayExcess_nonneg fun w hw=>?_)
  (sum_tally_le _ _ hperm weekExcess_nonneg fun w hw=>?_)
 · rw [← dayExcess_congr hhours]
   refine dayExcess_eq_zero fun hours hat=>?_
   rw [← dayTotal_eq]
   exact (hwithin w hw).1 hours hat
 · rw [← weekExcess_congr hhours]
   refine weekExcess_eq_zero fun hours hat=>?_
   rw [← weekTotal_eq]
   exact (hwithin w hw).2 hours hat

lemma latestAuthorization_put {a:OvertimeAuthorization} (hid:a.id=db.overtimeAuthorizations.lastKey+1)
  {holds:Table TimesheetHold} :
  latestAuthorization { db with overtimeAuthorizations:=db.overtimeAuthorizations.put a,timesheetHolds:=holds }
   employeeId periodId =
   if a.employeeId=employeeId ∧ a.periodId=periodId then some a
   else latestAuthorization db employeeId periodId := by
 have hlast:∀ b∈db.overtimeAuthorizations,key b<key a:=fun b hb=>by
  have hle:=Table.key_le_lastKey hb
  change key b<a.id
  omega
 unfold latestAuthorization
 dsimp only
 rw [Table.rows_put_of_lastKey hlast,filter_append]
 by_cases h:a.employeeId=employeeId ∧ a.periodId=periodId
 · rw [if_pos h,filter_cons_of_pos (by simpa using h),filter_nil,getLast?_concat]
 · rw [if_neg h,filter_cons_of_neg (by simpa using h),filter_nil,append_nil]

lemma Covered.not_needed (h:Covered cfg employeeId periodId db) : holdNeeded db cfg employeeId periodId=false := by
 obtain ⟨a,hauth,hle⟩:=h
 refine Bool.eq_false_iff.mpr fun hneed=>?_
 have hlt:=(holdNeeded_iff.mp hneed).2
 rw [hauth] at hlt
 exact absurd hle (not_le.mpr hlt)

lemma Evaluated.same {e p:ℤ} {db':Db} (hev:Evaluated env e p db db') :
  ∃ holds,db'={ db with timesheetHolds:=holds } := by
 cases hev with
 | notOpen _=>exact ⟨_,rfl⟩
 | kept _ _ _=>exact ⟨_,rfl⟩
 | refreshed _ _ _ _ _ _=>exact ⟨_,rfl⟩
 | opened _ _ _ _ _=>exact ⟨_,rfl⟩
 | cleared _ _ _ _ _ _=>exact ⟨_,rfl⟩
 | idle _ _=>exact ⟨_,rfl⟩

lemma Covered.of_authorize {note tid oid:ByteStrings.Bytes} {a:OvertimeAuthorization} {db':Db}
 (hcfg:env.cfg=cfg) (hrun:authorizeOvertime env employeeId periodId note tid oid db=(.ok a,db')) :
 Covered cfg employeeId periodId db' := by
 obtain ⟨h,h',-,-,-,-,-,hid,hemp,hper,hminutes,rfl⟩:=authorizeOvertime_ok hrun
 refine ⟨a,?_,?_⟩
 · rw [latestAuthorization_put hid,if_pos ⟨hemp,hper⟩]
 · rw [hminutes,← hcfg]
   exact le_refl _

lemma Covered.step (h:Covered cfg employeeId periodId db) {s:Step} (hs:Within cfg employeeId periodId s db) :
 Covered cfg employeeId periodId (step s db) := by
 cases s with
 | evaluate env' e p=>
  change Covered cfg employeeId periodId (committed (evaluateHold env' e p) db)
  rcases committed_cases (evaluateHold env' e p) db with ⟨_,hrun⟩ | hsame
  · obtain ⟨holds,hdb⟩:=(evaluateHold_ok hrun).same
    rw [hdb]
    exact h
  · rwa [hsame]
 | authorize env' e p note tid oid=>
  change Covered cfg employeeId periodId (committed (authorizeOvertime env' e p note tid oid) db)
  rcases committed_cases (authorizeOvertime env' e p note tid oid) db with ⟨a,hrun⟩ | hsame
  · by_cases hsheet:e=employeeId ∧ p=periodId
    · obtain ⟨rfl,rfl⟩:=hsheet
      exact .of_authorize hs hrun
    · obtain ⟨b,hauth,hle⟩:=h
      obtain ⟨-,h',-,-,-,-,-,hid,hemp,hper,-,hdb⟩:=authorizeOvertime_ok hrun
      rw [hdb]
      refine ⟨b,?_,hle⟩
      rw [latestAuthorization_put hid,hemp,hper,if_neg hsheet]
      exact hauth
  · rwa [hsame]
 | change rest=>
  obtain ⟨a,hauth,hle⟩:=h
  refine ⟨a,?_,hs.excess_le.trans hle⟩
  unfold latestAuthorization at hauth ⊢
  change ((rest.overtimeAuthorizations.rows.filter _).getLast?)=_
  rw [hs.2.1]
  exact hauth

lemma Covered.stays_closed (h:Covered cfg employeeId periodId db) (hcfg:env.cfg=cfg)
 (hnone:openHold db employeeId periodId=none) :
 openHold (HoldRules.step (.evaluate env employeeId periodId) db) employeeId periodId=none := by
 change openHold (committed (evaluateHold env employeeId periodId) db) employeeId periodId=none
 rcases committed_cases (evaluateHold env employeeId periodId) db with ⟨_,hrun⟩ | hsame
 · have hneed:=h.not_needed
   rw [← hcfg] at hneed
   have hev:=evaluateHold_ok hrun
   generalize committed (evaluateHold env employeeId periodId) db=db' at hev ⊢
   cases hev with
   | notOpen _=>exact hnone
   | kept _ hopen _=>rw [hnone] at hopen; cases hopen
   | refreshed _ _ hopen _ _ _=>rw [hnone] at hopen; cases hopen
   | opened _ _ hneeded _ _=>rw [hneed] at hneeded; cases hneeded
   | cleared _ _ hopen _ _ _=>rw [hnone] at hopen; cases hopen
   | idle _ _=>exact hnone
 · rwa [hsame]

lemma openHold_put_other (db:Db) {h':TimesheetHold} (hne:¬(h'.employeeId=employeeId ∧ h'.periodId=periodId))
  (hnone:openHold db employeeId periodId=none) :
  openHold { db with timesheetHolds:=db.timesheetHolds.put h' } employeeId periodId=none := by
 rw [openHold_none] at hnone ⊢
 intro x hx
 rcases (holds_put db).mp hx with ⟨-,hemp,hper,-⟩ | ⟨hx,-⟩
 · exact hne ⟨hemp,hper⟩
 · exact hnone x hx

lemma Evaluated.openHold_other {e p:ℤ} {db':Db} (hev:Evaluated env e p db db')
 (hne:¬(e=employeeId ∧ p=periodId)) (hnone:openHold db employeeId periodId=none) :
 openHold db' employeeId periodId=none := by
 cases hev with
 | notOpen _=>exact hnone
 | kept _ _ _=>exact hnone
 | refreshed _ h' _ _ _ hnew=>exact openHold_put_other db (by rwa [hnew.1,hnew.2.1]) hnone
 | opened h' _ _ _ hnew=>exact openHold_put_other db (by rwa [hnew.1,hnew.2.1]) hnone
 | cleared _ h' _ _ _ hnew=>exact openHold_put_other db (by rwa [hnew.1,hnew.2.1]) hnone
 | idle _ _=>exact hnone

lemma Covered.closed_step (h:Covered cfg employeeId periodId db) (hnone:openHold db employeeId periodId=none)
 {s:Step} (hs:Within cfg employeeId periodId s db) : openHold (HoldRules.step s db) employeeId periodId=none := by
 cases s with
 | evaluate env' e p=>
  by_cases hsheet:e=employeeId ∧ p=periodId
  · obtain ⟨rfl,rfl⟩:=hsheet
    exact h.stays_closed hs hnone
  · change openHold (committed (evaluateHold env' e p) db) employeeId periodId=none
    rcases committed_cases (evaluateHold env' e p) db with ⟨_,hrun⟩ | hsame
    · exact (evaluateHold_ok hrun).openHold_other hsheet hnone
    · rwa [hsame]
 | authorize env' e p note tid oid=>
  change openHold (committed (authorizeOvertime env' e p note tid oid) db) employeeId periodId=none
  rcases committed_cases (authorizeOvertime env' e p note tid oid) db with ⟨a,hrun⟩ | hsame
  · obtain ⟨h₀,h',hopen,-,hemp,hper,-,-,-,-,-,hdb⟩:=authorizeOvertime_ok hrun
    rw [hdb]
    have hne:¬(e=employeeId ∧ p=periodId):=by
     rintro ⟨rfl,rfl⟩
     rw [hnone] at hopen
     cases hopen
    rw [← hemp,← hper] at hne
    exact openHold_put_other { db with overtimeAuthorizations:=db.overtimeAuthorizations.put a } hne hnone
  · rwa [hsame]
 | change rest=>exact hnone

lemma closed_of_authorize {note tid oid:ByteStrings.Bytes} {a:OvertimeAuthorization} {db':Db}
 (hone:OneOpen db) (hnow:env.now≠0) (hrun:authorizeOvertime env employeeId periodId note tid oid db=(.ok a,db')) :
 openHold db' employeeId periodId=none := by
 obtain ⟨h,h',hopen,hid,-,-,hclear,-,-,-,-,rfl⟩:=authorizeOvertime_ok hrun
 rw [openHold_none]
 intro x hx
 have hput:=(holds_put { db with overtimeAuthorizations:=db.overtimeAuthorizations.put a }).mp hx
 rcases hput with ⟨-,-,-,hopen'⟩ | ⟨hx,hne⟩
 · exact hnow (hclear.symm.trans hopen')
 · exact hne (hone employeeId periodId x h hx (openHold_some hopen) ▸ hid.symm)

end Authorized

/-- No timesheet ever has two open holds. After an authorization, as long as further shifts are closed within
their limits, no evaluation opens a hold on the timesheet, and its hold stays closed. -/
theorem one_hold_and_no_reopening (employeeId periodId:ℤ) :
  (∀ db,Reachable db → ∀ h h',Holds db employeeId periodId h → Holds db employeeId periodId h' → h=h') ∧
  ∀ db env note tid oid a db',Reachable db →
   authorizeOvertime env employeeId periodId note tid oid db=(.ok a,db') →
   ∀ steps,Meets step (Within env.cfg employeeId periodId) steps db' →
    (∀ env',env'.cfg=env.cfg → openHold (after step steps db') employeeId periodId=none →
     openHold (step (.evaluate env' employeeId periodId) (after step steps db')) employeeId periodId=none) ∧
    (env.now≠0 → openHold (after step steps db') employeeId periodId=none) := by
 refine ⟨fun db hdb h h'=>hdb.oneOpen employeeId periodId h h',?_⟩
 intro db env note tid oid a db' hdb hrun steps hmeets
 have hcovered:=Covered.of_authorize rfl hrun
 constructor
 · intro env' hcfg hnone
   have hthen:=after_invariant (I:=Covered env.cfg employeeId periodId) (fun _ _ h hs=>h.step hs) steps
    hcovered hmeets
   exact hthen.stays_closed hcfg hnone
 · intro hnow
   have hthen:=after_invariant
    (I:=fun db=>Covered env.cfg employeeId periodId db ∧ openHold db employeeId periodId=none)
    (fun _ _ h hs=>⟨h.1.step hs,h.1.closed_step h.2 hs⟩) steps
    ⟨hcovered,closed_of_authorize hdb.oneOpen hnow hrun⟩ hmeets
   exact hthen.2

def exampleHeld : Db := (evaluateHold exampleEnv 1 1 (exampleSheet (481*kUsPerMinute))).2

def exampleAuthorized : Db := (authorizeOvertime exampleEnv 1 1 [] (ascii "t") (ascii "o") exampleHeld).2

def exampleNextDay : Db :=
 { exampleAuthorized with
   shifts:=exampleAuthorized.shifts.put
     { id:=2,employeeId:=1,deviceId:=1,inEntryId:=3,outEntryId:=4,localDay:=19783,periodId:=1
       inTime:=1709276400000000,outTime:=1709276400000000+240*kUsPerMinute
       durationUs:=some (240*kUsPerMinute) } }

lemma exampleHeld_reachable : Reachable exampleHeld :=
 ⟨exampleSheet (481*kUsPerMinute),[.evaluate exampleEnv 1 1],rfl,(committed_of_ok (by decide +kernel)).symm⟩

lemma exampleNextDay_within : ClosesWithin exampleEnv.cfg 1 1 exampleAuthorized exampleNextDay := by
 have hday:(scheduleHoursAt exampleNextDay 1 19783).map ScheduleHours.dailyMinutes=some 480:=by decide +kernel
 have hweek:(scheduleHoursAt exampleNextDay 1 (weekStart exampleEnv.cfg 19783)).map ScheduleHours.weeklyMinutes =
   some 2400:=by decide +kernel
 refine ⟨rfl,rfl,[(19783,240*kUsPerMinute)],by decide +kernel,fun w hw=>?_⟩
 obtain rfl:=mem_singleton.mp hw
 constructor
 · intro hours hat
   rw [hat,Option.map_some,Option.some_inj] at hday
   rw [hday]
   decide +kernel
 · intro hours hat
   rw [hat,Option.map_some,Option.some_inj] at hweek
   rw [hweek]
   decide +kernel

theorem authorized_stays_closed :
  (openHold exampleHeld 1 1).isSome ∧
   openHold (after step [.evaluate exampleEnv 1 1,.change exampleNextDay,.evaluate exampleEnv 1 1]
    exampleAuthorized) 1 1=none := by
 have hok:(authorizeOvertime exampleEnv 1 1 [] (ascii "t") (ascii "o") exampleHeld).1.isOk=true:=by
  decide +kernel
 obtain ⟨a,hrun⟩:=run_of_ok hok
 have hidle:step (.evaluate exampleEnv 1 1) exampleAuthorized=exampleAuthorized:=by decide +kernel
 have hmeets:Meets step (Within exampleEnv.cfg 1 1)
   [.evaluate exampleEnv 1 1,.change exampleNextDay,.evaluate exampleEnv 1 1] exampleAuthorized:=by
  refine ⟨rfl,?_,rfl,trivial⟩
  rw [hidle]
  exact exampleNextDay_within
 exact ⟨by decide +kernel,((one_hold_and_no_reopening 1 1).2 exampleHeld exampleEnv _ _ _ a _
  exampleHeld_reachable hrun _ hmeets).2 (by decide)⟩

end Archivum.HoldRules
