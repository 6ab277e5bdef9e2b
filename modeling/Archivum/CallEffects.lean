import Archivum.BatchRules
import Archivum.SettledRows

set_option autoImplicit false

/-!
# What a call does to punches and periods

A call that succeeded has had a few effects, each of one of the kinds below, on
the entries, the shifts, the periods and the approvals. What holds of every
store that calls lead to is shown effect by effect.
-/
namespace Archivum.CallEffects
open ByteStrings StatefulActions StatefulActions.Act RecordModel LocalTimes KeyedTables PunchlineData PunchlineDb List
open PunchlineFrames ExceptionQueue Payroll Sync Lifecycle PairingRules BatchRules SettledRows

section Rows
variable {α:Type} [Keyed α]

def Mapped (f:α → α) (t t':Table α) : Prop := ∀ b,b∈t' ↔ ∃ a∈t,f a=b

lemma put_of_mem {t:Table α} {a:α} (h:a∈t) : t.put a=t := by
 refine Table.ext_mem fun b=>?_
 rw [Table.mem_put]
 constructor
 · rintro (rfl | ⟨hb,-⟩)
   · exact h
   · exact hb
 · intro hb
   by_cases hkey:key b=key a
   · exact .inl (Table.eq_of_key hb h hkey)
   · exact .inr ⟨hb,hkey⟩

lemma nodup_keys (t:Table α) : (t.rows.map key).Nodup := by
 rw [List.Nodup,pairwise_map]
 exact t.ordered.imp fun h=>ne_of_lt h

lemma forAll_put {T:Entity α} {g:α → PunchM Unit} {f:α → α} (hf:∀ a,key (f a)=key a)
 (hg:∀ a db db',a∈T.get db → g a db=(.ok (),db') → T.get db'=(T.get db).put (f a))
 {l:List α} {db db':Db} (hl:∀ a∈l,a∈T.get db) (hkeys:(l.map key).Nodup) (hrun:forAll g l db=(.ok (),db')) (b:α) :
 b∈T.get db' ↔ (∃ a∈l,f a=b) ∨ b∈T.get db ∧ key b ∉ l.map key := by
 induction l generalizing db with
 | nil=>
  cases hrun
  simp
 | cons a l ih=>
  obtain ⟨_,db₁,hfirst,hrest⟩:=bind_ok_inv hrun
  have hput:=hg a db db₁ (hl a mem_cons_self) hfirst
  rw [map_cons,nodup_cons] at hkeys
  have hl₁:∀ c∈l,c∈T.get db₁:=by
   intro c hc
   rw [hput]
   refine Table.mem_put_of_ne (hl c (mem_cons_of_mem a hc)) fun hkey=>hkeys.1 ?_
   rw [← hf a,← hkey]
   exact mem_map_of_mem hc
  rw [ih hl₁ hkeys.2 hrest,hput,Table.mem_put,hf,map_cons,mem_cons]
  constructor
  · rintro (⟨c,hc,rfl⟩ | ⟨rfl | ⟨hb,hne⟩,hnot⟩)
    · exact .inl ⟨c,mem_cons_of_mem a hc,rfl⟩
    · exact .inl ⟨a,mem_cons_self,rfl⟩
    · exact .inr ⟨hb,not_or.mpr ⟨hne,hnot⟩⟩
  · rintro (⟨c,hc,rfl⟩ | ⟨hb,hnot⟩)
    · rcases mem_cons.mp hc with rfl | hc
      · exact .inr ⟨.inl rfl,by rw [hf]; exact hkeys.1⟩
      · exact .inl ⟨c,hc,rfl⟩
    · rw [not_or] at hnot
      exact .inr ⟨.inr ⟨hb,hnot.1⟩,hnot.2⟩

lemma forAll_mapped {T:Entity α} {g:α → PunchM Unit} {f:α → α} (hf:∀ a,key (f a)=key a)
 (hg:∀ a db db',a∈T.get db → g a db=(.ok (),db') → T.get db'=(T.get db).put (f a))
 {l:List α} {db db':Db} {p:α → Bool} (hl:l.Perm ((T.get db).rows.filter p))
 (hrun:forAll g l db=(.ok (),db')) : Mapped (fun a=>if p a then f a else a) (T.get db) (T.get db') := by
 have hmem:∀ a,a∈l ↔ a∈T.get db ∧ p a=true:=fun a=>hl.mem_iff.trans mem_filter
 have hkeys:(l.map key).Nodup:=
  (hl.map key).nodup_iff.mpr ((nodup_keys (T.get db)).sublist (filter_sublist.map key))
 intro b
 rw [forAll_put hf hg (fun a ha=>((hmem a).mp ha).1) hkeys hrun b]
 constructor
 · rintro (⟨a,ha,rfl⟩ | ⟨hb,hnot⟩)
   · exact ⟨a,((hmem a).mp ha).1,if_pos ((hmem a).mp ha).2⟩
   · exact ⟨b,hb,if_neg fun hp=>hnot (mem_map_of_mem ((hmem b).mpr ⟨hb,hp⟩))⟩
 · rintro ⟨a,ha,rfl⟩
   dsimp only
   by_cases hp:p a=true
   · rw [if_pos hp]
     exact .inl ⟨a,(hmem a).mpr ⟨ha,hp⟩,rfl⟩
   · rw [if_neg hp]
     refine .inr ⟨ha,fun hkey=>hp ?_⟩
     obtain ⟨c,hc,hck⟩:=mem_map.mp hkey
     rw [Table.eq_of_key ha ((hmem c).mp hc).1 hck.symm]
     exact ((hmem c).mp hc).2

lemma Mapped.congr {f g:α → α} {t t':Table α} (h:Mapped f t t') (hfg:∀ a∈t,f a=g a) : Mapped g t t' := by
 intro b
 rw [h b]
 exact exists_congr fun a=>and_congr_right fun ha=>by rw [hfg a ha]

lemma filter_insertionSort_perm (r:α → α → Prop) [DecidableRel r] (p q:α → Bool) (l:List α) :
 (((l.filter p).insertionSort r).filter q).Perm (l.filter fun a=>q a && p a) := by
 rw [← filter_filter]
 exact (perm_insertionSort r (l.filter p)).filter q

end Rows

def punches (db:Db) : Table TimeEntry × Table Shift × Table PayPeriod × Table Approval :=
 (db.timeEntries,db.shifts,db.payPeriods,db.approvals)

def besideEntries (db:Db) : Table Shift × Table PayPeriod × Table Approval := (db.shifts,db.payPeriods,db.approvals)

def besideShifts (db:Db) : Table TimeEntry × Table PayPeriod × Table Approval :=
 (db.timeEntries,db.payPeriods,db.approvals)

def besideApprovals (db:Db) : Table TimeEntry × Table Shift × Table PayPeriod :=
 (db.timeEntries,db.shifts,db.payPeriods)

def currentIn (periodId employeeId:ℤ) (e:TimeEntry) : Bool :=
 e.periodId≠0 ∧ e.periodId=periodId ∧ e.employeeId=employeeId ∧ e.supersededBy=0

def stepEntry (env:Env) (periodId employeeId:ℤ) (from_ to_:EntryState) (e:TimeEntry) : TimeEntry :=
 if currentIn periodId employeeId e ∧ e.state=from_ then moveEntry env to_ e else e

def stepShift (periodId employeeId:ℤ) (from_ to_:EntryState) (sh:Shift) : Shift :=
 if sh.periodId≠0 ∧ sh.periodId=periodId ∧ sh.employeeId=employeeId ∧ sh.state=from_ then
  { sh with state:=to_ }
 else sh

def lockedEntry (periodId:ℤ) (e:TimeEntry) : TimeEntry :=
 if e.periodId≠0 ∧ e.periodId=periodId ∧ e.supersededBy=0 then { e with state:=.locked } else e

def lockedShift (periodId:ℤ) (sh:Shift) : Shift :=
 if sh.periodId≠0 ∧ sh.periodId=periodId ∧ sh.state=.released then { sh with state:=.locked } else sh

def inside (p:PayPeriod) (day:ℤ) : Bool := p.startDay ≤ day ∧ day ≤ p.endDay

def assignedEntry (p:PayPeriod) (e:TimeEntry) : TimeEntry :=
 match parseLocalTime e.localTime with
 | .error _=>e
 | .ok lt=>if e.periodId=0 ∧ inside p lt.localDay then { e with periodId:=p.id } else e

def assignedShift (p:PayPeriod) (sh:Shift) : Shift :=
 if sh.periodId=0 ∧ inside p sh.localDay then { sh with periodId:=p.id } else sh

def newPeriod (env:Env) (r:NewPeriod) (id:ℤ) : PayPeriod :=
 { id,startDay:=r.startDay,endDay:=r.endDay,siteZone:=r.siteZone,tzdbVersion:=env.release
   submitBy:=r.submitBy,approveBy:=r.approveBy }

def incomingOf : Call → List IncomingEntry
 | .sync _ batch=>batch.entries
 | _=>[]

def stepsTimesheets : Call → Prop
 | .move _ | .lock ..=>True
 | _=>False

inductive Effect (env:Env) (c:Call) (db db':Db) : Prop
 | other (h:Same punches db db')
 | entered (device:Device) (zone:Bytes) (batch:IncomingBatch) (divergence:Option ℤ) (e:IncomingEntry)
   (lt:LocalTime) (he:e∈incomingOf c) (hnew:db.entryByUuid e.entryUuid=none)
   (hfresh:judgeNew db env device batch.journalId e=.fresh lt)
   (hvalid:entryPeriodValid db lt.localDay (openPeriodOf (db.periodForDay lt.localDay))=.ok ())
   (hrow:db'.timeEntries=db.timeEntries.put (entryOf env device zone batch divergence e
    (db.timeEntries.lastKey+1) (openPeriodOf (db.periodForDay lt.localDay))))
   (hrest:Same besideEntries db db')
 | written (m:ManualEntry) (employee:Employee) (deviceId:ℤ) (lt:LocalTime) (cls:EditClass)
   (period:Option PayPeriod) (hvalid:validateManual m=.ok (lt,cls))
   (hperiod:manualPeriod db m lt cls=.ok period)
   (hrow:db'.timeEntries =
    db.timeEntries.put (manualRow env m employee deviceId period (db.timeEntries.lastKey+1)))
   (hrest:Same besideEntries db db')
 | superseded (o:TimeEntry) (id:ℤ) (ho:o∈db.timeEntries) (hcurrent:o.supersededBy=0)
   (hstate:laterThanSubmitted o.state=false)
   (hrow:db'.timeEntries=db.timeEntries.put { o with supersededBy:=id }) (hrest:Same besideEntries db db')
 | repaired (employeeId fromUs start:ℤ) (affected:List Shift) (id:ℤ)
   (hrange:rebuilt db employeeId fromUs=some (start,affected))
   (hshifts:db'.shifts.rows=(db.shifts.rows.filter fun sh=>sh.id ∉ affected.map Shift.id) ++
    numbered id ((pairUp employeeId (foldable db employeeId start) none).filterMap Decision.shift))
   (hrest:Same besideShifts db db')
 | moved (hsteps:stepsTimesheets c) (req:TransitionRequest) (from_ to_:EntryState) (hstep:requestedStep req=.ok (from_,to_))
   (hchecked:checkTransition db env req from_ to_=.ok ())
   (hmovable:checkMovable (db.entriesInPeriod req.periodId req.employeeId) from_=.ok ())
   (hentries:Mapped (stepEntry env req.periodId req.employeeId from_ to_) db.timeEntries db'.timeEntries)
   (hshifts:Mapped (stepShift req.periodId req.employeeId from_ to_) db.shifts db'.shifts)
   (hperiods:db'.payPeriods=db.payPeriods)
   (happroval:∃ a,db'.approvals=db.approvals.put a ∧ a.id=db.approvals.lastKey+1 ∧
    a.periodId=req.periodId ∧ a.employeeId=req.employeeId ∧ a.fromState=from_ ∧ a.toState=to_)
 | locked (hsteps:stepsTimesheets c) (p:PayPeriod) (hp:p∈db.payPeriods) (hopen:p.state=.open_)
   (hreleased:∀ e∈db.timeEntries,e.periodId≠0 → e.periodId=p.id → e.supersededBy=0 → e.state=.released)
   (hentries:Mapped (lockedEntry p.id) db.timeEntries db'.timeEntries)
   (hshifts:Mapped (lockedShift p.id) db.shifts db'.shifts)
   (hperiods:db'.payPeriods=db.payPeriods.put { p with state:=.locked,releaseAt:=env.now })
   (happrovals:∀ e∈db.timeEntries,e.periodId≠0 → e.periodId=p.id → e.supersededBy=0 →
    ∃ a∈db'.approvals,a ∉ db.approvals ∧ a.periodId=p.id ∧ a.employeeId=e.employeeId ∧
     a.fromState=.released ∧ a.toState=.locked)
 | created (r:NewPeriod) (hasked:c=.period r) (hapart:∀ p∈db.payPeriods,overlaps r p=false)
   (hchecked:checkInsert payPeriods (newPeriod env r (db.payPeriods.lastKey+1)) db=.ok ())
   (hentries:Mapped (assignedEntry (newPeriod env r (db.payPeriods.lastKey+1))) db.timeEntries db'.timeEntries)
   (hshifts:Mapped (assignedShift (newPeriod env r (db.payPeriods.lastKey+1))) db.shifts db'.shifts)
   (hperiods:db'.payPeriods=db.payPeriods.put (newPeriod env r (db.payPeriods.lastKey+1)))
   (happrovals:db'.approvals=db.approvals)

abbrev Effects (env:Env) (c:Call) : Db → Db → Prop := Relation.ReflTransGen (Effect env c)

section Calls
variable {env:Env} {c:Call} {db db':Db}

lemma effects_of_same (h:Same punches db db') : Effects env c db db' := .single (.other h)

section Batch
variable {device:Device} {zone:Bytes} {batch:IncomingBatch} {divergence:Option ℤ} {p p':Progress}

lemma entryByUuid_of_fresh {inBatch:List UuidBytes} {e:IncomingEntry} {lt:LocalTime}
 (hv:judge db env device batch.journalId inBatch e=.fresh lt) : db.entryByUuid e.entryUuid=none := by
 unfold judge at hv
 split at hv
 · cases hv
 · split at hv
   · split at hv
     · cases hv
     · cases hv
   · assumption

lemma takeEntry_effects {e:IncomingEntry} (he:e∈incomingOf c)
 (hrun:takeEntry env device zone batch divergence p e db=(.ok p',db')) : Effects env c db db' := by
 have hbeside:Same besideEntries db db':=
  (takeEntry_always (fun _ _=>rfl) (fun _ _=>rfl) (fun _ _ _=>rfl) env device zone batch divergence p e).ok hrun
 by_cases hv:∃ lt,judge db env device batch.journalId p.inBatch e=.fresh lt
 · obtain ⟨lt,hv⟩:=hv
   unfold takeEntry at hrun
   rw [bind_reads,inBatch_noteZone,hv] at hrun
   have hstored:=storeEntry_stored hrun
   exact .single (.entered device zone batch divergence e lt he (entryByUuid_of_fresh hv) (judgeNew_of_fresh hv)
    hstored.valid hstored.row hbeside)
 · rw [takeEntry_of_not_fresh fun lt h=>hv ⟨lt,h⟩] at hrun
   cases hrun
   exact .refl

lemma takeEntries_effects {entries:List IncomingEntry} (hsub:∀ e∈entries,e∈incomingOf c)
 (hrun:takeEntries env device zone batch divergence entries p db=(.ok p',db')) : Effects env c db db' := by
 induction entries generalizing p db with
 | nil=>
  cases hrun
  exact .refl
 | cons e rest ih=>
  obtain ⟨p₁,db₁,htake,hrun⟩:=bind_ok_inv hrun
  exact (takeEntry_effects (hsub e mem_cons_self) htake).trans (ih (fun e' he'=>hsub e' (mem_cons_of_mem e he')) hrun)

lemma repairPairing_effects {employeeId fromUs:ℤ} {opened:List ℤ}
 (hrun:repairPairing env employeeId fromUs db=(.ok opened,db')) : Effects env c db db' := by
 obtain ⟨start,affected,db₁,db₂,db₃,h⟩:=repairPairing_ok hrun
 have hrest:Same besideShifts db db':=
  h.follows (fun _ _=>rfl) (fun _ _=>rfl) (fun _ _=>rfl) (fun _ _=>rfl) fun _ _=>rfl
 exact .single (.repaired employeeId fromUs start affected _ h.range h.shifts_eq hrest)

lemma settleNew_effects {ids:List ℤ} (hrun:settleNew env device p db=(.ok ids,db')) : Effects env c db db' := by
 have hcount:∀ l,Always (Same punches) (forEachOpened (countDeviceAttested env device.employeeId) l):=fun l=>
  forEachOpened_always fun id _=>countDeviceAttested_always (fun _ _=>rfl) env _ id
 unfold settleNew at hrun
 split at hrun
 · obtain ⟨_,db₁,hpaired,hrun⟩:=bind_ok_inv hrun
   cases hpaired
   obtain ⟨_,db₂,hcounted,hrun⟩:=bind_ok_inv hrun
   cases hrun
   exact effects_of_same ((hcount _).ok hcounted)
 · obtain ⟨_,db₁,hpaired,hrun⟩:=bind_ok_inv hrun
   obtain ⟨_,db₂,hcounted,hrun⟩:=bind_ok_inv hrun
   cases hrun
   exact (repairPairing_effects hpaired).trans (effects_of_same ((hcount _).ok hcounted))

lemma applyBatch_effects {deviceId:ℤ} {out:SyncOutcome} (hrun:applyBatch env device batch db=(.ok out,db')) :
 Effects env (.sync deviceId batch) db db' := by
 obtain ⟨employee,diverged,p,db₁,db₂,db₃,db₄,db₅,db₆,db₇,db₈,h,-⟩:=applyBatch_ok hrun
 have hx:Ignores exceptions (Same punches):=fun _ _=>rfl
 obtain ⟨_,hsettled⟩:=h.settled
 obtain ⟨_,hzoned⟩:=h.zoned
 obtain ⟨_,hrefused⟩:=h.refused
 obtain ⟨_,hreported⟩:=h.reported
 obtain ⟨_,hstale⟩:=h.stale
 have hrest:Same punches db₃ db':=
  trans_of _ ((settleZone_always hx env device _ p).ok hzoned) <|
   trans_of _ ((flagRejected_always hx env device p).ok hrefused) <|
   trans_of _ ((forEachOpened_always fun r _=>takeReport_always hx env device r).ok hreported) <|
   trans_of _ ((update_always (fun _ _=>rfl) _).ok h.heard) <|
   trans_of _ ((resolveMatching_always hx env _ _).ok hstale)
    ((recordBatch_always (fun _ _=>rfl) env device batch _ p _).ok h.recorded)
 have htaken:Effects env (.sync deviceId batch) db₁ db₂:=
  takeEntries_effects (fun e he=>(mem_insertionSort _).mp he) h.taken
 exact (effects_of_same ((flagDivergence_always hx env device _).ok h.divergence)).trans
  (htaken.trans ((settleNew_effects hsettled).trans (effects_of_same hrest)))

end Batch

lemma supersede_effects {row:TimeEntry} {original:Option TimeEntry} {start:ℤ}
 (ho:∀ o∈original,o∈db.timeEntries ∧ o.supersededBy=0 ∧ laterThanSubmitted o.state=false)
 (hrun:supersede env row original db=(.ok start,db')) : Effects env c db db' := by
 cases original with
 | none=>
  cases hrun
  exact .refl
 | some o=>
  obtain ⟨_,db₁,hupdate,hrun⟩:=bind_ok_inv hrun
  obtain ⟨_,db₂,hresolve,hrun⟩:=bind_ok_inv hrun
  cases hrun
  obtain ⟨hmem,hcurrent,hstate⟩:=ho o rfl
  have hresolved:Same punches db₁ db':=
   (forAll_always fun kind _=>resolveCorrected_always (fun _ _=>rfl) env _ o kind).ok hresolve
  obtain ⟨-,rfl⟩:=update_ok hupdate
  exact (Relation.ReflTransGen.single (.superseded o row.id hmem hcurrent hstate rfl rfl)).trans (effects_of_same hresolved)

/-- The parts of a manual entry that was recorded. -/
structure Recorded (env:Env) (m:ManualEntry) (row:TimeEntry) (db:Db) (lt:LocalTime) (cls:EditClass)
  (employee:Employee) (original:Option TimeEntry) (deviceId:ℤ) (period:Option PayPeriod) (start:ℤ)
  (db₁ db₂ db₃ db₄ db':Db) : Prop where
 valid : validateManual m=.ok (lt,cls)
 employee_found : db.employeeById m.employeeId=some employee
 source : sourceOf db m=.ok (original,deviceId)
 period_found : manualPeriod db m lt cls=.ok period
 row_eq : row=manualRow env m employee deviceId period (db.timeEntries.lastKey+1)
 inserted : PunchlineDb.insert timeEntries row db=(.ok (),db₁)
 marked : Act.onlyIf (m.breakCode≠[]) (markEntryBreak row.id m.breakCode) db₁=(.ok (),db₂)
 edited : recordEntryEdit env row.id cls m.reasonCode m.editor db₂=(.ok (),db₃)
 superseded : supersede env row original db₃=(.ok start,db₄)
 repaired : ∃ opened,repairPairing env m.employeeId start db₄=(.ok opened,db')

lemma recordManualEntry_ok {m:ManualEntry} {row:TimeEntry} (hrun:recordManualEntry env m db=(.ok row,db')) :
 ∃ lt cls employee original deviceId period start db₁ db₂ db₃ db₄,
  Recorded env m row db lt cls employee original deviceId period start db₁ db₂ db₃ db₄ db' := by
 unfold recordManualEntry at hrun
 obtain ⟨⟨lt,cls⟩,db₁,hvalid,hrun⟩:=bind_ok_inv hrun
 obtain ⟨hm,rfl⟩:=ofExcept_ok hvalid
 dsimp only at hrun
 rw [bind_reads] at hrun
 cases hemployee:db.employeeById m.employeeId with
 | none=>
  rw [hemployee] at hrun
  cases hrun
 | some employee=>
  rw [hemployee] at hrun
  dsimp only at hrun
  rw [bind_reads] at hrun
  obtain ⟨⟨original,deviceId⟩,db₂,hsource,hrun⟩:=bind_ok_inv hrun
  obtain ⟨hof,rfl⟩:=ofExcept_ok hsource
  dsimp only at hrun
  rw [bind_reads] at hrun
  split at hrun
  · cases hrun
  · rw [bind_reads] at hrun
    obtain ⟨period,db₃,hperiod,hrun⟩:=bind_ok_inv hrun
    obtain ⟨hin,rfl⟩:=ofExcept_ok hperiod
    rw [nextId,bind_reads,bind_reads] at hrun
    obtain ⟨_,db₄,hentry,hrun⟩:=bind_ok_inv hrun
    obtain ⟨-,rfl⟩:=ofExcept_ok hentry
    obtain ⟨_,db₅,hinsert,hrun⟩:=bind_ok_inv hrun
    obtain ⟨_,db₆,hbreak,hrun⟩:=bind_ok_inv hrun
    obtain ⟨_,db₇,hedit,hrun⟩:=bind_ok_inv hrun
    obtain ⟨start,db₈,hsupersede,hrun⟩:=bind_ok_inv hrun
    obtain ⟨opened,db₉,hrepair,hrun⟩:=bind_ok_inv hrun
    cases hrun
    exact ⟨lt,cls,employee,original,deviceId,period,start,db₅,db₆,db₇,db₈,hm,hemployee,hof,hin,rfl,
     hinsert,hbreak,hedit,hsupersede,opened,hrepair⟩

lemma recordManualEntry_effects {m:ManualEntry} {row:TimeEntry}
 (hrun:recordManualEntry env m db=(.ok row,db')) : Effects env c db db' := by
 obtain ⟨lt,cls,employee,original,deviceId,period,start,db₁,db₂,db₃,db₄,h⟩:=recordManualEntry_ok hrun
 obtain ⟨opened,hrepaired⟩:=h.repaired
 have hmarked:Same punches db₁ db₃:=
  trans_of _ ((Always.onlyIf (markEntryBreak_always (fun _ _=>rfl) _ _)).ok h.marked)
   ((recordEntryEdit_always (fun _ _=>rfl) env _ _ _ _).ok h.edited)
 obtain ⟨hcheck,hdb₁⟩:=insert_ok h.inserted
 have hwritten:Effect env c db db₁:=
  .written m employee deviceId lt cls period h.valid h.period_found (by rw [hdb₁,← h.row_eq]; rfl)
   (by rw [hdb₁]; rfl)
 -- the correction does not replace the entry it corrects
 have ho:∀ o∈original,o∈db₃.timeEntries ∧ o.supersededBy=0 ∧ laterThanSubmitted o.state=false:=by
  intro o ho
  obtain ⟨hmem,-,hcurrent,hstate⟩:=originalOf_ok (sourceOf_ok h.source o ho)
  refine ⟨?_,hcurrent,hstate⟩
  rw [(Prod.mk.inj hmarked).1,hdb₁]
  exact mem_put_of_fresh (checkInsert_fresh hcheck) hmem
 exact (Relation.ReflTransGen.single hwritten).trans ((effects_of_same hmarked).trans
  ((supersede_effects ho h.superseded).trans (repairPairing_effects hrepaired)))

lemma moveEntries_mapped {periodId employeeId:ℤ} {from_ to_:EntryState}
 (hrun:forAll (fun e=>update timeEntries (moveEntry env to_ e))
  ((db.entriesInPeriod periodId employeeId).filter fun e=>e.supersededBy=0 ∧ e.state=from_) db=(.ok (),db')) :
 Mapped (stepEntry env periodId employeeId from_ to_) db.timeEntries db'.timeEntries := by
 have hmapped:=forAll_mapped (T:=timeEntries) (f:=moveEntry env to_) (fun _=>rfl)
  (fun a db db' _ h=>by rw [(update_ok h).2]; rfl) (filter_insertionSort_perm _ _ _ _) hrun
 refine hmapped.congr fun e _=>?_
 unfold stepEntry currentIn
 simp only [Bool.and_eq_true,decide_eq_true_eq]
 refine if_congr ?_ rfl rfl
 tauto

lemma moveShifts_mapped {periodId employeeId:ℤ} {from_ to_:EntryState}
  (hrun:forAll (fun sh=>update shifts { sh with state:=to_ })
   ((db.shiftsInPeriod periodId employeeId).filter fun sh=>sh.state=from_) db=(.ok (),db')) :
  Mapped (stepShift periodId employeeId from_ to_) db.shifts db'.shifts := by
 have hmapped:=forAll_mapped (T:=shifts) (f:=fun sh=>{ sh with state:=to_ }) (fun _=>rfl)
  (fun a db db' _ h=>by rw [(update_ok h).2]; rfl) (filter_insertionSort_perm _ _ _ _) hrun
 refine hmapped.congr fun sh _=>?_
 unfold stepShift
 simp only [Bool.and_eq_true,decide_eq_true_eq]
 refine if_congr ?_ rfl rfl
 tauto

lemma writeApproval_ok {periodId employeeId id:ℤ} {from_ to_:EntryState} {tid oid account note:Bytes}
  (hrun:writeApproval env periodId employeeId from_ to_ tid oid account note db=(.ok id,db')) :
  ∃ a : Approval,db'={ db with approvals:=db.approvals.put a } ∧ a.id=db.approvals.lastKey+1 ∧
   a.periodId=periodId ∧ a.employeeId=employeeId ∧ a.fromState=from_ ∧ a.toState=to_ := by
 unfold writeApproval at hrun
 rw [nextId,bind_reads] at hrun
 obtain ⟨_,db₁,hinsert,hrun⟩:=bind_ok_inv hrun
 cases hrun
 exact ⟨_,(insert_ok hinsert).2,rfl,rfl,rfl,rfl,rfl⟩

lemma resolveReviewed_always (employeeId periodId:ℤ) : Always (Same punches) (resolveReviewed env employeeId periodId) :=
 .bind (resolveMatching_always (fun _ _=>rfl) env _ _) fun _=>
  .bind (resolveMatching_always (fun _ _=>rfl) env _ _) fun _=>.bind (.reads _) fun _=>
  .bind (forAll_always fun x _=>closeException_always (fun _ _=>rfl) env x.id _ _) fun _=>.pure _

lemma transition_effect {req:TransitionRequest} {result:TransitionResult}
 (hrun:transition env req db=(.ok result,db')) : ∃ db₁,Effect env (.move req) db db₁ ∧ Same punches db₁ db' := by
 unfold transition at hrun
 obtain ⟨⟨from_,to_⟩,db₁,hstep,hrun⟩:=bind_ok_inv hrun
 obtain ⟨hrequested,rfl⟩:=ofExcept_ok hstep
 dsimp only at hrun
 rw [bind_reads] at hrun
 obtain ⟨_,db₂,hchecked,hrun⟩:=bind_ok_inv hrun
 obtain ⟨hallowed,rfl⟩:=ofExcept_ok hchecked
 rw [bind_reads] at hrun
 obtain ⟨_,db₃,hmovable,hrun⟩:=bind_ok_inv hrun
 obtain ⟨hmay,rfl⟩:=ofExcept_ok hmovable
 obtain ⟨_,db₄,hmoving,hrun⟩:=bind_ok_inv hrun
 rw [bind_reads] at hrun
 obtain ⟨_,db₅,hmoved,hrun⟩:=bind_ok_inv hrun
 obtain ⟨_,db₆,hwritten,hrun⟩:=bind_ok_inv hrun
 have hresolved:Same punches db₆ db':=by
  split at hrun
  · obtain ⟨_,db₇,hresolve,hrun⟩:=bind_ok_inv hrun
    cases hrun
    exact (resolveReviewed_always _ _).ok hresolve
  · obtain ⟨_,db₇,hresolve,hrun⟩:=bind_ok_inv hrun
    cases hresolve
    cases hrun
    rfl
 have hentries:=moveEntries_mapped hmoving
 have hshifts:=moveShifts_mapped hmoved
 have hbeside₄:Same besideEntries db db₄:=(forAll_always fun _ _=>update_always (fun _ _=>rfl) _).ok hmoving
 have hbeside₅:Same besideShifts db₄ db₅:=(forAll_always fun _ _=>update_always (fun _ _=>rfl) _).ok hmoved
 obtain ⟨hshifts₄,hrest₄⟩:=Prod.mk.inj hbeside₄
 obtain ⟨hperiods₄,happrovals₄⟩:=Prod.mk.inj hrest₄
 obtain ⟨hentries₅,hrest₅⟩:=Prod.mk.inj hbeside₅
 obtain ⟨hperiods₅,happrovals₅⟩:=Prod.mk.inj hrest₅
 obtain ⟨a,rfl,hid,happroval⟩:=writeApproval_ok hwritten
 rw [hshifts₄] at hshifts
 rw [← hentries₅] at hentries
 have happrovals:db₅.approvals=db.approvals:=happrovals₅.trans happrovals₄
 refine ⟨{ db₅ with approvals:=db₅.approvals.put a },.moved trivial req from_ to_ hrequested hallowed hmay hentries
  hshifts (hperiods₅.trans hperiods₄) ⟨a,?_,?_,happroval⟩,hresolved⟩
 · rw [← happrovals]
 · rw [← happrovals,hid]

lemma lockEntry_ok {e:TimeEntry} (hrun:lockEntry e db=(.ok (),db')) :
  e.state=.released ∧ db'.timeEntries=db.timeEntries.put { e with state:=.locked } ∧ Same besideEntries db db' := by
 unfold lockEntry at hrun
 split at hrun
 · cases hrun
 · obtain ⟨-,rfl⟩:=update_ok hrun
   exact ⟨not_not.mp ‹_›,rfl,rfl⟩

lemma lockEntries_mapped {periodId:ℤ}
 (hrun:forAll lockEntry ((entriesOfPeriod db periodId).filter fun e=>e.supersededBy=0) db=(.ok (),db')) :
 Mapped (lockedEntry periodId) db.timeEntries db'.timeEntries := by
 have hmapped:=forAll_mapped (T:=timeEntries) (f:=fun e=>{ e with state:=.locked }) (fun _=>rfl)
  (fun _ _ _ _ h=>(lockEntry_ok h).2.1) (filter_insertionSort_perm _ _ _ _) hrun
 refine hmapped.congr fun e _=>?_
 unfold lockedEntry
 simp only [Bool.and_eq_true,decide_eq_true_eq]
 refine if_congr ?_ rfl rfl
 tauto

lemma lockShifts_mapped {periodId:ℤ}
  (hrun:forAll (fun sh=>update shifts { sh with state:=.locked })
   ((shiftsOfPeriod db periodId).filter fun sh=>sh.state=.released) db=(.ok (),db')) :
  Mapped (lockedShift periodId) db.shifts db'.shifts := by
 have hmapped:=forAll_mapped (T:=shifts) (f:=fun sh=>{ sh with state:=.locked }) (fun _=>rfl)
  (fun a db db' _ h=>by rw [(update_ok h).2]; rfl) (filter_insertionSort_perm _ _ _ _) hrun
 refine hmapped.congr fun sh _=>?_
 unfold lockedShift
 simp only [Bool.and_eq_true,decide_eq_true_eq]
 refine if_congr ?_ rfl rfl
 tauto

lemma lockEntries_released {l:List TimeEntry} (hrun:forAll lockEntry l db=(.ok (),db')) : ∀ e∈l,e.state=.released := by
 induction l generalizing db with
 | nil=>simp
 | cons e l ih=>
  obtain ⟨_,db₁,hfirst,hrest⟩:=bind_ok_inv hrun
  exact forall_mem_cons.mpr ⟨(lockEntry_ok hfirst).1,ih hrest⟩

lemma lockApprovals_ok {periodId:ℤ} {tid oid account:Bytes} {l:List ℤ}
  (hrun:forAll (fun employeeId=>do
   let _ ← writeApproval env periodId employeeId .released .locked tid oid account []
   return ()) l db=(.ok (),db')) :
  (∀ a∈db.approvals,a∈db'.approvals) ∧ ∀ employeeId∈l,∃ a∈db'.approvals,db.approvals.lastKey<a.id ∧
   a.periodId=periodId ∧ a.employeeId=employeeId ∧ a.fromState=.released ∧ a.toState=.locked := by
 induction l generalizing db with
 | nil=>
  cases hrun
  simp
 | cons employeeId l ih=>
  obtain ⟨_,db₁,hfirst,hrest⟩:=bind_ok_inv hrun
  obtain ⟨_,db₂,hwritten,hfirst⟩:=bind_ok_inv hfirst
  cases hfirst
  obtain ⟨hkept,hall⟩:=ih hrest
  obtain ⟨a,rfl,hid,happroval⟩:=writeApproval_ok hwritten
  have hfresh:∀ b∈db.approvals,key b<key a:=fun b hb=>by
   have hle:b.id≤db.approvals.lastKey:=Table.key_le_lastKey hb
   show b.id<a.id
   omega
  have hlast:(db.approvals.put a).lastKey=a.id:=Table.lastKey_put hfresh
  have hgrows:∀ b∈db.approvals,b∈db.approvals.put a:=fun b hb=>Table.mem_put_of_ne hb (hfresh b hb).ne
  refine ⟨fun b hb=>hkept b (hgrows b hb),forall_mem_cons.mpr ⟨?_,?_⟩⟩
  · exact ⟨a,hkept a Table.mem_put_self,by omega,happroval⟩
  · intro other hother
    obtain ⟨b,hb,hlt,hnamed⟩:=hall other hother
    refine ⟨b,hb,?_,hnamed⟩
    have:(db.approvals.put a).lastKey<b.id:=hlt
    omega

lemma checkLock_ok {periodId:ℤ} {who:Standing} {p:PayPeriod} (h:checkLock db env periodId who=.ok p) :
 p∈db.payPeriods ∧ p.id=periodId ∧ p.state=.open_ := by
 unfold checkLock at h
 split at h
 · cases h
 · rename_i q hfound
   split at h
   · cases h
   · split at h
     · cases h
     · cases h
       obtain ⟨hmem,hid⟩:=Table.get?_eq_some.mp hfound
       exact ⟨hmem,hid,not_not.mp ‹_›⟩

lemma lockPeriod_effect {periodId:ℤ} {who:Standing} {tid oid account:Bytes} {result:LockResult}
 (hrun:lockPeriod env periodId who tid oid account db=(.ok result,db')) :
 Effect env (.lock periodId who tid oid account) db db' := by
 unfold lockPeriod at hrun
 rw [bind_reads] at hrun
 obtain ⟨p,db₁,hchecked,hrun⟩:=bind_ok_inv hrun
 obtain ⟨hmay,rfl⟩:=ofExcept_ok hchecked
 obtain ⟨hp,rfl,hopen⟩:=checkLock_ok hmay
 rw [bind_reads] at hrun
 obtain ⟨_,db₂,hlocked,hrun⟩:=bind_ok_inv hrun
 rw [bind_reads] at hrun
 obtain ⟨_,db₃,hmoved,hrun⟩:=bind_ok_inv hrun
 obtain ⟨_,db₄,hwritten,hrun⟩:=bind_ok_inv hrun
 obtain ⟨_,db₅,hupdate,hrun⟩:=bind_ok_inv hrun
 cases hrun
 have hmem:∀ e∈db.timeEntries,e.periodId≠0 → e.periodId=p.id → e.supersededBy=0 →
   e∈(entriesOfPeriod db p.id).filter fun e=>e.supersededBy=0:=by
  intro e he hne hin hcurrent
  refine mem_filter.mpr ⟨(mem_insertionSort _).mpr (mem_filter.mpr ⟨he,?_⟩),?_⟩
  · exact decide_eq_true ⟨hne,hin⟩
  · exact decide_eq_true hcurrent
 have hentries:=lockEntries_mapped hlocked
 have hshifts:=lockShifts_mapped hmoved
 have hreleased:=lockEntries_released hlocked
 obtain ⟨-,happrovals⟩:=lockApprovals_ok hwritten
 have hbeside₂:Same besideEntries db db₂:=
  (forAll_always fun _ _=>.ite (.fail _) (update_always (fun _ _=>rfl) _)).ok hlocked
 have hbeside₃:Same besideShifts db₂ db₃:=(forAll_always fun _ _=>update_always (fun _ _=>rfl) _).ok hmoved
 have hbeside₄:Same besideApprovals db₃ db₄:=
  (forAll_always fun _ _=>.bind (.bind (.reads _) fun _=>.bind (insert_always (fun _ _ _=>rfl) _) fun _=>.pure _)
   fun _=>.pure _).ok hwritten
 obtain ⟨hshifts₂,hrest₂⟩:=Prod.mk.inj hbeside₂
 obtain ⟨hperiods₂,happrovals₂⟩:=Prod.mk.inj hrest₂
 obtain ⟨hentries₃,hrest₃⟩:=Prod.mk.inj hbeside₃
 obtain ⟨hperiods₃,happrovals₃⟩:=Prod.mk.inj hrest₃
 obtain ⟨hentries₄,hrest₄⟩:=Prod.mk.inj hbeside₄
 obtain ⟨hshifts₄,hperiods₄⟩:=Prod.mk.inj hrest₄
 obtain ⟨-,rfl⟩:=update_ok hupdate
 rw [← hentries₃,← hentries₄] at hentries
 rw [hshifts₂,← hshifts₄] at hshifts
 rw [happrovals₃,happrovals₂] at happrovals
 refine .locked trivial p hp hopen (fun e he hne hin hcurrent=>hreleased e (hmem e he hne hin hcurrent)) hentries hshifts
  ?_ fun e he hne hin hcurrent=>?_
 · show db₄.payPeriods.put _=_
   rw [hperiods₄,hperiods₃,hperiods₂]
 · obtain ⟨a,ha,hlt,hnamed⟩:=happrovals e.employeeId
    (mem_dedup.mpr ((mem_insertionSort _).mpr (mem_map_of_mem (hmem e he hne hin hcurrent))))
   refine ⟨a,ha,fun hold=>?_,hnamed⟩
   have hle:a.id≤db.approvals.lastKey:=Table.key_le_lastKey hold
   omega

lemma assignedEntry_of_kept {p:PayPeriod} {e:TimeEntry} (h:e.periodId≠0) : assignedEntry p e=e := by
 unfold assignedEntry
 split
 · rfl
 · exact if_neg fun hc=>h hc.1

lemma assignEntry_ok {p:PayPeriod} {e:TimeEntry} (he:e∈db.timeEntries)
 (hrun:assignEntry p e db=(.ok (),db')) : db'.timeEntries=db.timeEntries.put (assignedEntry p e) := by
 unfold assignEntry at hrun
 split at hrun
 · cases hrun
   rw [assignedEntry_of_kept ‹_›,put_of_mem he]
 · unfold assignedEntry
   cases hparse:parseLocalTime e.localTime with
   | error _=>
    rw [hparse] at hrun
    cases hrun
    exact (put_of_mem he).symm
   | ok lt=>
    rw [hparse] at hrun
    dsimp only at hrun ⊢
    split at hrun
    · rename_i hout
      cases hrun
      rw [if_neg (by simp only [inside,decide_eq_true_eq]; omega),put_of_mem he]
    · rename_i hin
      rw [if_pos (by simp only [inside,decide_eq_true_eq]; omega),(update_ok hrun).2]
      rfl

lemma assignEntry_always (p:PayPeriod) (e:TimeEntry) : Always (Same besideEntries) (assignEntry p e) := by
 refine .ite (.pure _) ?_
 cases parseLocalTime e.localTime with
 | error _=>exact .pure _
 | ok lt=>exact .ite (.pure _) (update_always (fun _ _=>rfl) _)

lemma assignShift_ok {p:PayPeriod} {sh:Shift} (hsh:sh∈db.shifts)
 (hrun:assignShift p sh db=(.ok (),db')) : db'.shifts=db.shifts.put (assignedShift p sh) := by
 unfold assignShift at hrun
 unfold assignedShift
 split at hrun
 · rename_i hout
   cases hrun
   rw [if_neg (by simp only [inside,decide_eq_true_eq]; omega),put_of_mem hsh]
 · rename_i hin
   rw [if_pos (by simp only [inside,decide_eq_true_eq]; omega),(update_ok hrun).2]
   rfl

lemma key_assignedEntry (p:PayPeriod) (e:TimeEntry) : key (assignedEntry p e)=key e := by
 unfold assignedEntry
 split
 · rfl
 · split
   · rfl
   · rfl

lemma key_assignedShift (p:PayPeriod) (sh:Shift) : key (assignedShift p sh)=key sh := by
 unfold assignedShift
 split
 · rfl
 · rfl

lemma createPeriod_effects {r:NewPeriod} {p:PayPeriod} (hrun:createPeriod env r db=(.ok p,db')) :
 Effects env (.period r) db db' := by
 unfold createPeriod at hrun
 rw [bind_reads] at hrun
 cases hfind:db.payPeriods.rows.find? (overlaps r) with
 | some q=>
  rw [hfind] at hrun
  cases hrun
 | none=>
  rw [hfind] at hrun
  dsimp only at hrun
  rw [nextId,bind_reads] at hrun
  obtain ⟨_,db₁,hinsert,hrun⟩:=bind_ok_inv hrun
  rw [bind_reads] at hrun
  obtain ⟨_,db₂,hassigned,hrun⟩:=bind_ok_inv hrun
  rw [bind_reads] at hrun
  obtain ⟨_,db₃,hpaired,hrun⟩:=bind_ok_inv hrun
  cases hrun
  have hapart:∀ q∈db.payPeriods,overlaps r q=false:=fun q hq=>
   Bool.eq_false_iff.mpr (find?_eq_none.mp hfind q hq)
  obtain ⟨hcheck,rfl⟩:=insert_ok hinsert
  have hentries:=forAll_mapped (T:=timeEntries) (p:=fun _=>true) (key_assignedEntry _)
   (fun _ _ _ he h=>assignEntry_ok he h) (by rw [filter_true]; rfl) hassigned
  have hshifts:=forAll_mapped (T:=shifts) (p:=fun _=>true) (key_assignedShift _)
   (fun _ _ _ hsh h=>assignShift_ok hsh h) (by rw [filter_true]; rfl) hpaired
  have hbeside₂:Same besideEntries _ db₂:=(forAll_always fun e _=>assignEntry_always _ e).ok hassigned
  have hbeside₃:Same besideShifts db₂ db':=
   (forAll_always fun _ _=>.ite (.pure _) (update_always (fun _ _=>rfl) _)).ok hpaired
  obtain ⟨hshifts₂,hrest₂⟩:=Prod.mk.inj hbeside₂
  obtain ⟨hperiods₂,happrovals₂⟩:=Prod.mk.inj hrest₂
  obtain ⟨hentries₃,hrest₃⟩:=Prod.mk.inj hbeside₃
  obtain ⟨hperiods₃,happrovals₃⟩:=Prod.mk.inj hrest₃
  refine .single (.created r rfl hapart hcheck (fun e=>?_) (fun sh=>?_) (hperiods₃.trans hperiods₂)
   (happrovals₃.trans happrovals₂))
  · rw [hentries₃]
    exact hentries e
  · have hmapped:=hshifts sh
    change _ ↔ ∃ a∈db₂.shifts,_ at hmapped
    rw [hshifts₂] at hmapped
    exact hmapped

lemma call_effects (hrun:c.run env db=(.ok (),db')) : Effects env c db db' := by
 cases c with
 | sync deviceId batch=>
  rw [Call.run,bind_reads] at hrun
  cases hdevice:db.deviceById deviceId with
  | none=>
   rw [hdevice] at hrun
   cases hrun
  | some device=>
   rw [hdevice] at hrun
   obtain ⟨_,db₁,happly,hrun⟩:=bind_ok_inv hrun
   cases hrun
   exact applyBatch_effects happly
 | manual m=>
  obtain ⟨_,db₁,hmanual,hrun⟩:=bind_ok_inv hrun
  cases hrun
  exact recordManualEntry_effects hmanual
 | move req=>
  obtain ⟨_,db₁,hmove,hrun⟩:=bind_ok_inv hrun
  cases hrun
  obtain ⟨db₂,hmoved,hrest⟩:=transition_effect hmove
  exact (Relation.ReflTransGen.single hmoved).trans (effects_of_same hrest)
 | lock periodId who tid oid account=>
  obtain ⟨_,db₁,hlock,hrun⟩:=bind_ok_inv hrun
  cases hrun
  exact .single (lockPeriod_effect hlock)
 | period r=>
  obtain ⟨_,db₁,hcreate,hrun⟩:=bind_ok_inv hrun
  cases hrun
  exact createPeriod_effects hcreate

lemma serve_cases (cfg:Config) (release:Bytes) (c:ℤ × Call) (db:Db) :
  serve cfg release c db=db ∨ ∃ env,env.cfg=cfg ∧ env.now=c.1 ∧
   c.2.run env { db with auditLog:=db.auditLog.put ⟨db.auditLog.lastKey+1⟩ } =
    (.ok (),serve cfg release c db) := by
 rcases committed_cases (recorded cfg release c.1 c.2) db with ⟨_,hrun⟩ | hsame
 · rw [recorded,nextId,bind_reads] at hrun
   obtain ⟨_,db₁,hlogged,hrun⟩:=bind_ok_inv hrun
   cases hlogged
   exact .inr ⟨{ cfg,auditId:=db.auditLog.lastKey+1,release,now:=c.1 },rfl,rfl,hrun⟩
 · exact .inl hsame

lemma serve_effects (cfg:Config) (release:Bytes) (c:ℤ × Call) (db:Db) :
 ∃ env,env.cfg=cfg ∧ Effects env c.2 db (serve cfg release c db) := by
 rcases serve_cases cfg release c db with hsame | ⟨env,hcfg,-,hrun⟩
 · exact ⟨{ cfg,auditId:=0,release,now:=0 },rfl,by rw [hsame]⟩
 · refine ⟨env,hcfg,Relation.ReflTransGen.trans ?_ (call_effects hrun)⟩
   exact effects_of_same rfl

lemma serve_invariant {I:Db → Prop} {cfg:Config} {release:Bytes} {c:ℤ × Call}
 (heffect:∀ env db db',I db → Effect env c.2 db db' → I db') (hdb:I db) : I (serve cfg release c db) := by
 obtain ⟨env,-,heffects⟩:=serve_effects cfg release c db
 have hpreserved:∀ db',Effects env c.2 db db' → I db':=by
  intro db' h
  induction h with
  | refl=>exact hdb
  | tail _ hone ih=>exact heffect env _ _ ih hone
 exact hpreserved _ heffects

end Calls

end Archivum.CallEffects
