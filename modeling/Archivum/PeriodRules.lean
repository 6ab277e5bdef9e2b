import Archivum.CallEffects
import Archivum.PairingExceptions
import Archivum.RowChanges
import Archivum.Timelines

set_option autoImplicit false

/-!
# Pay periods and what lies in them

Periods have no day in common, and entries and shifts are in the period of their
day: in the order in which punches and periods come, and with periods locked in
between.
-/
namespace Archivum.PeriodRules
open ByteStrings StatefulActions StatefulActions.Act PageTxn RecordModel TableDefs StoreModel RowRules LocalTimes List
open KeyedTables PunchlineData PunchlineDb PunchlineFrames Payroll Sync Lifecycle RowChanges PairingRules
open PairingExceptions Timelines BatchRules CallEffects

structure Calendar (periods:Table PayPeriod) : Prop where
 positive : ∀ p∈periods,0<p.id
 ordered : ∀ p∈periods,p.startDay ≤ p.endDay
 apart : OneAt (fun _=>0) inside periods

lemma inside_iff {p:PayPeriod} {day:ℤ} : inside p day=true ↔ p.startDay≤day ∧ day≤p.endDay := by
 unfold inside
 exact decide_eq_true_iff

lemma le_of_getLast? {α:Type} {r:α → α → Prop} {l:List α} {a b:α} (hl:l.Pairwise r)
 (hlast:l.getLast? = some b) (ha:a∈l) : a=b ∨ r a b := by
 obtain ⟨init,rfl⟩:=getLast?_eq_some_iff.mp hlast
 rcases mem_append.mp ha with ha | ha
 · exact .inr ((pairwise_append.mp hl).2.2 a ha b (mem_singleton_self b))
 · exact .inl (mem_singleton.mp ha)

lemma Calendar.eq_of_inside {periods:Table PayPeriod} (h:Calendar periods) {p q:PayPeriod} (hp:p∈periods)
 (hq:q∈periods) {day:ℤ} (hpd:inside p day=true) (hqd:inside q day=true) : p=q :=
 h.apart p hp q hq rfl day hpd hqd

lemma periodForDay_eq_some {db:Db} (h:Calendar db.payPeriods) {day:ℤ} {p:PayPeriod} :
 db.periodForDay day=some p ↔ p∈db.payPeriods ∧ inside p day=true := by
 unfold Db.periodForDay
 rw [Option.filter_eq_some_iff,inside_iff,decide_eq_true_eq]
 constructor
 · intro ⟨hlast,hend⟩
   have hmem:=(mem_insertionSort _).mp (mem_of_getLast? hlast)
   obtain ⟨hp,hstart⟩:=mem_filter.mp hmem
   exact ⟨hp,of_decide_eq_true hstart,hend⟩
 · intro ⟨hp,hstart,hend⟩
   refine ⟨?_,hend⟩
   have hmem:p∈(db.payPeriods.rows.filter fun p=>p.startDay≤day).insertionSort fun p q=>p.startDay≤q.startDay:=
    (mem_insertionSort _).mpr (mem_filter.mpr ⟨hp,decide_eq_true hstart⟩)
   have hsorted:=pairwise_insertionSort (fun p q:PayPeriod=>p.startDay≤q.startDay)
    (db.payPeriods.rows.filter fun p=>p.startDay≤day)
   cases hlast:((db.payPeriods.rows.filter fun p=>p.startDay≤day).insertionSort
     fun p q=>p.startDay≤q.startDay).getLast? with
   | none=>exact absurd (getLast?_eq_none_iff.mp hlast) (ne_nil_of_mem hmem)
   | some q=>
    obtain ⟨hq,hqstart⟩:=mem_filter.mp ((mem_insertionSort _).mp (mem_of_getLast? hlast))
    have hqstart:=of_decide_eq_true hqstart
    rcases le_of_getLast? hsorted hlast hmem with rfl | hle
    · rfl
    · -- the later start lies in both
      have hqq:inside q q.startDay=true:=inside_iff.mpr ⟨le_refl _,h.ordered q hq⟩
      have hpq:inside p q.startDay=true:=inside_iff.mpr ⟨hle,hqstart.trans hend⟩
      rw [h.eq_of_inside hp hq hpq hqq]

/-- A row of the day carries the period that it is in, and no other. -/
structure Placed (periods:Table PayPeriod) (day periodId:ℤ) : Prop where
 inside_own : periodId≠0 → ∃ p∈periods,p.id=periodId ∧ inside p day=true
 carries_open : ∀ p∈periods,p.state=.open_ → inside p day=true → periodId=p.id

def EntryPlaced (periods:Table PayPeriod) (e:TimeEntry) : Prop :=
 ∃ lt,parseLocalTime e.localTime=.ok lt ∧ Placed periods lt.localDay e.periodId

lemma placed_openPeriodOf {db:Db} (h:Calendar db.payPeriods) (day:ℤ) :
 Placed db.payPeriods day (openPeriodOf (db.periodForDay day)) where
 inside_own := by
  intro hne
  cases hfound:db.periodForDay day with
  | none=>
   rw [hfound] at hne
   exact absurd rfl hne
  | some p=>
   obtain ⟨hp,hin⟩:=(periodForDay_eq_some h).mp hfound
   rw [hfound,openPeriodOf] at hne
   split at hne
   · rename_i hopen
     exact ⟨p,hp,by rw [openPeriodOf,if_pos hopen],hin⟩
   · exact absurd rfl hne
 carries_open:=by
  intro p hp hopen hin
  rw [(periodForDay_eq_some h).mpr ⟨hp,hin⟩,openPeriodOf,if_pos hopen]

lemma placed_manualPeriod {db:Db} (h:Calendar db.payPeriods) {m:ManualEntry} {lt:LocalTime} {cls:EditClass}
 {period:Option PayPeriod} (hperiod:manualPeriod db m lt cls=.ok period) :
 Placed db.payPeriods lt.localDay ((period.map PayPeriod.id).getD 0) := by
 have hsame:period=db.periodForDay lt.localDay:=by
  unfold manualPeriod at hperiod
  split at hperiod
  · rename_i hfound
    cases hperiod
    exact hfound.symm
  · rename_i p hfound
    split at hperiod
    · cases hperiod
    · split at hperiod
      · cases hperiod
      · cases hperiod
        exact hfound.symm
 subst hsame
 constructor
 · intro hne
   cases hfound:db.periodForDay lt.localDay with
   | none=>
    rw [hfound] at hne
    exact absurd rfl hne
   | some p=>
    obtain ⟨hp,hin⟩:=(periodForDay_eq_some h).mp hfound
    exact ⟨p,hp,rfl,hin⟩
 · intro p hp _ hin
   rw [(periodForDay_eq_some h).mpr ⟨hp,hin⟩]
   rfl

lemma Placed.lock {periods:Table PayPeriod} {day periodId now:ℤ} {p:PayPeriod} (hp:p∈periods)
  (h:Placed periods day periodId) :
  Placed (periods.put { p with state:=.locked,releaseAt:=now }) day periodId where
 inside_own := by
  intro hne
  obtain ⟨q,hq,hid,hin⟩:=h.inside_own hne
  by_cases hqp:q=p
  · subst q
    exact ⟨_,Table.mem_put_self,hid,hin⟩
  · exact ⟨q,Table.mem_put_of_ne hq fun hkey=>hqp (Table.eq_of_key hq hp hkey),hid,hin⟩
 carries_open:=by
  intro q hq hopen hin
  rcases Table.mem_put.mp hq with rfl | ⟨hq,-⟩
  · cases hopen
  · exact h.carries_open q hq hopen hin

lemma Calendar.of_days {periods periods':Table PayPeriod} (h:Calendar periods)
 (hdays:∀ p∈periods',∃ q∈periods,q.id=p.id ∧ q.startDay=p.startDay ∧ q.endDay=p.endDay) : Calendar periods' where
 positive := by
  intro p hp
  obtain ⟨q,hq,hid,-⟩:=hdays p hp
  rw [← hid]
  exact h.positive q hq
 ordered:=by
  intro p hp
  obtain ⟨q,hq,-,hstart,hend⟩:=hdays p hp
  rw [← hstart,← hend]
  exact h.ordered q hq
 apart:=by
  intro p hp p' hp' _ day hin hin'
  obtain ⟨q,hq,hid,hstart,hend⟩:=hdays p hp
  obtain ⟨q',hq',hid',hstart',hend'⟩:=hdays p' hp'
  rw [inside_iff,← hstart,← hend,← inside_iff] at hin
  rw [inside_iff,← hstart',← hend',← inside_iff] at hin'
  refine Table.eq_of_key hp hp' ?_
  show p.id=p'.id
  rw [← hid,← hid',h.eq_of_inside hq hq' hin hin']

lemma Calendar.lock {periods:Table PayPeriod} {now:ℤ} {p:PayPeriod} (hp:p∈periods) (h:Calendar periods) :
  Calendar (periods.put { p with state:=.locked,releaseAt:=now }) := by
 refine h.of_days fun q hq=>?_
 rcases Table.mem_put.mp hq with rfl | ⟨hq,-⟩
 · exact ⟨p,hp,rfl,rfl,rfl⟩
 · exact ⟨q,hq,rfl,rfl,rfl⟩

/-- The days fit the columns they are stored in, as the days of calendar dates do. -/
def DaysFit (r:NewPeriod) : Prop :=
 -2^63 ≤ r.startDay ∧ r.startDay<2^63 ∧ -2^63 ≤ r.endDay ∧ r.endDay<2^63

instance (r:NewPeriod) : Decidable (DaysFit r) := by
 unfold DaysFit
 infer_instance

lemma newPeriod_ordered {env:Env} {r:NewPeriod} {id:ℤ} {db:Db} (hfit:DaysFit r)
 (hcheck:checkInsert payPeriods (newPeriod env r id) db=.ok ()) : r.startDay ≤ r.endDay := by
 have hvalid:=(seq_ok.mp hcheck).1
 have hholds:=(validateRow_iff.mp hvalid).2.2 (PunchlineSchema.columnAtOrAfter "pay_periods_days_ordered" "end_day" "start_day")
  (mem_cons_of_mem _ mem_cons_self)
 have hcompare:compareHolds .ge (int r.endDay) (int r.startDay)=true:=hholds
 obtain ⟨hlow,hhigh,hlow',hhigh'⟩:=hfit
 by_contra hlt
 have hless:Int64.ofInt r.endDay<Int64.ofInt r.startDay:=by
  rw [Int64.lt_iff_toInt_lt,Int64.toInt_ofInt_of_le hlow' hhigh',Int64.toInt_ofInt_of_le hlow hhigh]
  exact not_le.mp hlt
 have hbefore:(int r.endDay).compare (int r.startDay)=.lt:=if_pos hless
 unfold compareHolds at hcompare
 dsimp only at hcompare
 rw [hbefore] at hcompare
 cases hcompare

lemma inside_newPeriod {env:Env} {r:NewPeriod} {id day:ℤ} {q:PayPeriod} (hapart:overlaps r q=false)
 (hin:inside q day=true) : inside (newPeriod env r id) day=false := by
 have hq:=inside_iff.mp hin
 have hdays:r.endDay<q.startDay ∨ q.endDay < r.startDay:=not_not.mp (of_decide_eq_false hapart)
 refine Bool.eq_false_iff.mpr fun hnew=>?_
 have hr:r.startDay≤day ∧ day ≤ r.endDay:=inside_iff.mp hnew
 omega

section Creation
variable {env:Env} {r:NewPeriod} {db:Db}

lemma Calendar.create (h:Calendar db.payPeriods) (hapart:∀ p∈db.payPeriods,overlaps r p=false)
 (hfit:DaysFit r) (hcheck:checkInsert payPeriods (newPeriod env r (db.payPeriods.lastKey+1)) db=.ok ()) :
 Calendar (db.payPeriods.put (newPeriod env r (db.payPeriods.lastKey+1))) where
 positive := by
  intro p hp
  rcases Table.mem_put.mp hp with rfl | ⟨hp,-⟩
  · have hlast:0≤db.payPeriods.lastKey:=Table.lastKey_nonneg h.positive
    exact Int.lt_add_one_of_le hlast
  · exact h.positive p hp
 ordered:=by
  intro p hp
  rcases Table.mem_put.mp hp with rfl | ⟨hp,-⟩
  · exact newPeriod_ordered hfit hcheck
  · exact h.ordered p hp
 apart:=h.apart.put fun p hp _ _ hin=>inside_newPeriod (hapart p hp) hin

lemma Placed.create {day periodId:ℤ} (hplaced:Placed db.payPeriods day periodId)
 (hapart:∀ p∈db.payPeriods,overlaps r p=false)
 (hkept:¬(periodId=0 ∧ inside (newPeriod env r (db.payPeriods.lastKey+1)) day=true)) :
 Placed (db.payPeriods.put (newPeriod env r (db.payPeriods.lastKey+1))) day periodId where
 inside_own := by
  intro hne
  obtain ⟨q,hq,hid,hin⟩:=hplaced.inside_own hne
  have hle:q.id≤db.payPeriods.lastKey:=Table.key_le_lastKey hq
  refine ⟨q,Table.mem_put_of_ne hq ?_,hid,hin⟩
  show q.id≠db.payPeriods.lastKey+1
  omega
 carries_open:=by
  intro p hp hopen hin
  rcases Table.mem_put.mp hp with rfl | ⟨hp,-⟩
  · by_cases hzero:periodId=0
    · exact absurd ⟨hzero,hin⟩ hkept
    · obtain ⟨q,hq,-,hqin⟩:=hplaced.inside_own hzero
      rw [inside_newPeriod (hapart q hq) hqin] at hin
      cases hin
  · exact hplaced.carries_open p hp hopen hin

lemma Placed.take {day:ℤ} (hapart:∀ p∈db.payPeriods,overlaps r p=false)
 (hin:inside (newPeriod env r (db.payPeriods.lastKey+1)) day=true) :
 Placed (db.payPeriods.put (newPeriod env r (db.payPeriods.lastKey+1))) day
  (newPeriod env r (db.payPeriods.lastKey+1)).id where
 inside_own := fun _=>⟨_,Table.mem_put_self,rfl,hin⟩
 carries_open:=by
  intro p hp _ hpin
  rcases Table.mem_put.mp hp with rfl | ⟨hp,-⟩
  · rfl
  · rw [inside_newPeriod (hapart p hp) hpin] at hin
    cases hin

end Creation

structure InPlace (db:Db) : Prop where
 calendar : Calendar db.payPeriods
 entries : ∀ e∈db.timeEntries,EntryPlaced db.payPeriods e
 shifts : ∀ sh∈db.shifts,Placed db.payPeriods sh.localDay sh.periodId

lemma beginShift_placed {db:Db} (h:InPlace db) {e:TimeEntry} (he:e∈db.timeEntries) (employeeId:ℤ) :
 Placed db.payPeriods (beginShift employeeId e).localDay (beginShift employeeId e).periodId := by
 obtain ⟨lt,hparse,hplaced⟩:=h.entries e he
 unfold beginShift
 rw [hparse]
 exact hplaced

lemma decided_placed {db:Db} (h:InPlace db) {employeeId start:ℤ} {d:Decision} {sh:Shift}
 (hd:d∈pairUp employeeId (foldable db employeeId start) none) (hshift:d.shift=some sh) :
 Placed db.payPeriods sh.localDay sh.periodId := by
 have hbegun:Begun employeeId none:=by
  intro c hc
  cases hc
 have hproper:=pairUp_proper (foldable db employeeId start) hbegun d hd
 cases d with
 | left sh₀ inEntry interrupted=>
  cases hshift
  rw [show sh=beginShift employeeId inEntry from hproper]
  exact beginShift_placed h (mem_foldable.mp (mem_uses hd mem_cons_self)).1 employeeId
 | closed sh₀ inEntry out=>
  cases hshift
  obtain ⟨rfl,-⟩:sh₀=beginShift employeeId inEntry ∧ _:=hproper
  exact beginShift_placed h (mem_foldable.mp (mem_uses hd mem_cons_self)).1 employeeId
 | unpaired e why=>cases hshift

section Effects
variable {env:Env} {c:Call} {db db':Db}

lemma InPlace.of_mapped (h:InPlace db) (hperiods:db'.payPeriods=db.payPeriods)
 (hentries:∀ e'∈db'.timeEntries,∃ e∈db.timeEntries,e.localTime=e'.localTime ∧ e.periodId=e'.periodId)
 (hshifts:∀ sh'∈db'.shifts,∃ sh∈db.shifts,sh.localDay=sh'.localDay ∧ sh.periodId=sh'.periodId) : InPlace db' where
 calendar := by
  rw [hperiods]
  exact h.calendar
 entries:=by
  intro e' he'
  obtain ⟨e,he,htime,hid⟩:=hentries e' he'
  unfold EntryPlaced
  rw [hperiods,← htime,← hid]
  exact h.entries e he
 shifts:=by
  intro sh' hsh'
  obtain ⟨sh,hsh,hday,hid⟩:=hshifts sh' hsh'
  rw [hperiods,← hday,← hid]
  exact h.shifts sh hsh

lemma InPlace.put_entry (h:InPlace db) {row:TimeEntry} (hrow:db'.timeEntries=db.timeEntries.put row)
 (hplaced:EntryPlaced db.payPeriods row) (hrest:Same besideEntries db db') : InPlace db' := by
 obtain ⟨hshifts,hperiods⟩:=Prod.mk.inj hrest
 have hperiods:=(Prod.mk.inj hperiods).1
 refine ⟨by rw [hperiods]; exact h.calendar,fun e he=>?_,fun sh hsh=>?_⟩
 · rw [hrow] at he
   rw [hperiods]
   rcases Table.mem_put.mp he with rfl | ⟨he,-⟩
   · exact hplaced
   · exact h.entries e he
 · rw [hshifts] at hsh
   rw [hperiods]
   exact h.shifts sh hsh

lemma stepEntry_day (env:Env) (periodId employeeId:ℤ) (from_ to_:EntryState) (e:TimeEntry) :
 (stepEntry env periodId employeeId from_ to_ e).localTime=e.localTime ∧
  (stepEntry env periodId employeeId from_ to_ e).periodId=e.periodId := by
 unfold stepEntry
 split
 · exact ⟨rfl,rfl⟩
 · exact ⟨rfl,rfl⟩

lemma stepShift_day (periodId employeeId:ℤ) (from_ to_:EntryState) (sh:Shift) :
 (stepShift periodId employeeId from_ to_ sh).localDay=sh.localDay ∧
  (stepShift periodId employeeId from_ to_ sh).periodId=sh.periodId := by
 unfold stepShift
 split
 · exact ⟨rfl,rfl⟩
 · exact ⟨rfl,rfl⟩

lemma lockedEntry_day (periodId:ℤ) (e:TimeEntry) :
 (lockedEntry periodId e).localTime=e.localTime ∧ (lockedEntry periodId e).periodId=e.periodId := by
 unfold lockedEntry
 split
 · exact ⟨rfl,rfl⟩
 · exact ⟨rfl,rfl⟩

lemma lockedShift_day (periodId:ℤ) (sh:Shift) :
 (lockedShift periodId sh).localDay=sh.localDay ∧ (lockedShift periodId sh).periodId=sh.periodId := by
 unfold lockedShift
 split
 · exact ⟨rfl,rfl⟩
 · exact ⟨rfl,rfl⟩

lemma InPlace.repair (h:InPlace db) {employeeId start id:ℤ} {affected:List Shift}
 (hshifts:db'.shifts.rows=(db.shifts.rows.filter fun sh=>sh.id ∉ affected.map Shift.id) ++
  numbered id ((pairUp employeeId (foldable db employeeId start) none).filterMap Decision.shift))
 (hrest:Same besideShifts db db') : InPlace db' := by
 obtain ⟨hentries,hperiods⟩:=Prod.mk.inj hrest
 have hperiods:=(Prod.mk.inj hperiods).1
 refine ⟨by rw [hperiods]; exact h.calendar,fun e he=>?_,fun sh hsh=>?_⟩
 · rw [hentries] at he
   rw [hperiods]
   exact h.entries e he
 · rw [Table.mem_def,hshifts] at hsh
   rw [hperiods]
   rcases mem_append.mp hsh with hold | hnew
   · exact h.shifts sh (mem_filter.mp hold).1
   · obtain ⟨sh₀,hsh₀,heq⟩:=mem_numbered hnew
     obtain ⟨d,hd,hshift⟩:=mem_filterMap.mp hsh₀
     have hplaced:=decided_placed h hd hshift
     rw [heq]
     exact hplaced

lemma InPlace.create (h:InPlace db) {r:NewPeriod} (hfit:DaysFit r) (hapart:∀ p∈db.payPeriods,overlaps r p=false)
 (hcheck:checkInsert payPeriods (newPeriod env r (db.payPeriods.lastKey+1)) db=.ok ())
 (hentries:Mapped (assignedEntry (newPeriod env r (db.payPeriods.lastKey+1))) db.timeEntries db'.timeEntries)
 (hshifts:Mapped (assignedShift (newPeriod env r (db.payPeriods.lastKey+1))) db.shifts db'.shifts)
 (hperiods:db'.payPeriods=db.payPeriods.put (newPeriod env r (db.payPeriods.lastKey+1))) : InPlace db' := by
 refine ⟨by rw [hperiods]; exact h.calendar.create hapart hfit hcheck,fun e' he'=>?_,fun sh' hsh'=>?_⟩
 · obtain ⟨e,he,rfl⟩:=(hentries e').mp he'
   obtain ⟨lt,hparse,hplaced⟩:=h.entries e he
   rw [hperiods]
   unfold assignedEntry
   rw [hparse]
   dsimp only
   split
   · rename_i htaken
     exact ⟨lt,hparse,.take hapart htaken.2⟩
   · rename_i hkept
     exact ⟨lt,hparse,hplaced.create hapart hkept⟩
 · obtain ⟨sh,hsh,rfl⟩:=(hshifts sh').mp hsh'
   rw [hperiods]
   unfold assignedShift
   split
   · rename_i htaken
     exact .take hapart htaken.2
   · rename_i hkept
     exact (h.shifts sh hsh).create hapart hkept

def CallFits (c:Call) : Prop := ∀ r,c=.period r → DaysFit r

lemma inPlace_effect (hfits:CallFits c) (hdb:InPlace db) (h:Effect env c db db') : InPlace db' := by
 cases h with
 | other h=>
  obtain ⟨hentries,hrest⟩:=Prod.mk.inj h
  obtain ⟨hshifts,hrest⟩:=Prod.mk.inj hrest
  refine hdb.of_mapped (Prod.mk.inj hrest).1 (fun e he=>?_) fun sh hsh=>?_
  · exact ⟨e,by rwa [← hentries],rfl,rfl⟩
  · exact ⟨sh,by rwa [← hshifts],rfl,rfl⟩
 | entered device zone batch divergence e lt _ _ hfresh _ hrow hrest=>
  have hparse:=(validateIncoming_ok (validateIncoming_of_fresh hfresh)).2.2.2.1
  exact hdb.put_entry hrow ⟨lt,hparse,placed_openPeriodOf hdb.calendar lt.localDay⟩ hrest
 | written m employee deviceId lt cls period hvalid hperiod hrow hrest=>
  exact hdb.put_entry hrow ⟨lt,(validateManual_ok hvalid).2,placed_manualPeriod hdb.calendar hperiod⟩ hrest
 | superseded o id ho _ _ hrow hrest=>exact hdb.put_entry hrow (hdb.entries o ho) hrest
 | repaired _ _ _ _ _ _ hshifts hrest=>exact hdb.repair hshifts hrest
 | moved _ req from_ to_ _ _ _ hentries hshifts hperiods _=>
  refine hdb.of_mapped hperiods (fun e' he'=>?_) fun sh' hsh'=>?_
  · obtain ⟨e,he,rfl⟩:=(hentries e').mp he'
    obtain ⟨htime,hid⟩:=stepEntry_day env req.periodId req.employeeId from_ to_ e
    exact ⟨e,he,htime.symm,hid.symm⟩
  · obtain ⟨sh,hsh,rfl⟩:=(hshifts sh').mp hsh'
    obtain ⟨hday,hid⟩:=stepShift_day req.periodId req.employeeId from_ to_ sh
    exact ⟨sh,hsh,hday.symm,hid.symm⟩
 | locked _ p hp _ _ hentries hshifts hperiods _=>
  refine ⟨by rw [hperiods]; exact hdb.calendar.lock hp,fun e' he'=>?_,fun sh' hsh'=>?_⟩
  · obtain ⟨e,he,rfl⟩:=(hentries e').mp he'
    obtain ⟨lt,hparse,hplaced⟩:=hdb.entries e he
    obtain ⟨htime,hid⟩:=lockedEntry_day p.id e
    unfold EntryPlaced
    rw [hperiods,htime,hid]
    exact ⟨lt,hparse,hplaced.lock hp⟩
  · obtain ⟨sh,hsh,rfl⟩:=(hshifts sh').mp hsh'
    obtain ⟨hday,hid⟩:=lockedShift_day p.id sh
    rw [hperiods,hday,hid]
    exact (hdb.shifts sh hsh).lock hp
 | created r hasked hapart hcheck hentries hshifts hperiods _=>
  exact hdb.create (hfits r hasked) hapart hcheck hentries hshifts hperiods

end Effects

lemma inPlace_of_empty {db:Db} (hperiods:db.payPeriods.rows=[]) (hentries:db.timeEntries.rows=[])
 (hshifts:db.shifts.rows=[]) : InPlace db where
 calendar :=
  { positive:=fun p hp=>by rw [Table.mem_def,hperiods] at hp; cases hp
    ordered:=fun p hp=>by rw [Table.mem_def,hperiods] at hp; cases hp
    apart:=oneAt_of_empty hperiods }
 entries:=fun e he=>by rw [Table.mem_def,hentries] at he; cases he
 shifts:=fun sh hsh=>by rw [Table.mem_def,hshifts] at hsh; cases hsh

/-- In every run the periods have no day in common, and entries and shifts are in the period of their day. -/
theorem rows_in_their_period (cfg:Config) (release:Bytes) (calls:List (ℤ × Call)) (db₀:Db)
  (hunused:Unused db₀) (hperiods:db₀.payPeriods.rows=[]) (hfits:∀ c∈calls,CallFits c.2) :
  let db := after (serve cfg release) calls db₀
  (∀ p∈db.payPeriods,∀ q∈db.payPeriods,p≠q → ∀ day,¬(inside p day=true ∧ inside q day=true)) ∧
  (∀ e∈db.timeEntries,∃ lt,parseLocalTime e.localTime=.ok lt ∧
   (e.periodId≠0 → ∃ p∈db.payPeriods,p.id=e.periodId ∧ inside p lt.localDay=true) ∧
   ∀ p∈db.payPeriods,p.state=.open_ → inside p lt.localDay=true → e.periodId=p.id) ∧
  ∀ sh∈db.shifts,
   (sh.periodId≠0 → ∃ p∈db.payPeriods,p.id=sh.periodId ∧ inside p sh.localDay=true) ∧
   ∀ p∈db.payPeriods,p.state=.open_ → inside p sh.localDay=true → sh.periodId=p.id:=by
 intro db
 have hplace:InPlace db:=
  after_invariant (fun _ _ hin hfit=>serve_invariant (fun _ _ _ hin heffect=>inPlace_effect hfit hin heffect) hin)
   calls (inPlace_of_empty hperiods hunused.1 hunused.2.1) (meets_of_forall calls db₀ hfits)
 refine ⟨fun p hp q hq hne day hboth=>hne (hplace.calendar.eq_of_inside hp hq hboth.1 hboth.2),fun e he=>?_,
  fun sh hsh=>⟨(hplace.shifts sh hsh).inside_own,(hplace.shifts sh hsh).carries_open⟩⟩
 obtain ⟨lt,hparse,hplaced⟩:=hplace.entries e he
 exact ⟨lt,hparse,hplaced.inside_own,hplaced.carries_open⟩

def bareSite : Db := { exampleSite with payPeriods:=default }

def punchThenPeriod : List (ℤ × Call) :=
 [(1709300000000000,.sync 1 (exampleBatch 1 [examplePunch 1 "in" 1709190000000000 "2024-02-29T07:00:00"])),
  (1709300000000001,.period { startDay:=19775,endDay:=19788,siteZone:=ascii "UTC" })]

lemma callFits_punchThenPeriod : ∀ c∈punchThenPeriod,CallFits c.2 := by
 intro c hc
 rcases mem_pair.mp hc with rfl | rfl
 · exact fun r hr=>nomatch hr
 · intro r hr
   cases hr
   decide

theorem late_period_takes_punch :
  Unused bareSite ∧ bareSite.payPeriods.rows=[] ∧ (∀ c∈punchThenPeriod,CallFits c.2) ∧
  (after (serve {} []) punchThenPeriod bareSite).shifts.rows.map Shift.periodId=[1] ∧
  ∀ sh∈(after (serve {} []) punchThenPeriod bareSite).shifts,
   (sh.periodId≠0 → ∃ p∈(after (serve {} []) punchThenPeriod bareSite).payPeriods,
    p.id=sh.periodId ∧ inside p sh.localDay=true) ∧
   ∀ p∈(after (serve {} []) punchThenPeriod bareSite).payPeriods,
    p.state=.open_ → inside p sh.localDay=true → sh.periodId=p.id :=
 ⟨by decide,rfl,callFits_punchThenPeriod,by decide +kernel,
  (rows_in_their_period {} [] punchThenPeriod bareSite (by decide) rfl callFits_punchThenPeriod).2.2⟩

end Archivum.PeriodRules
