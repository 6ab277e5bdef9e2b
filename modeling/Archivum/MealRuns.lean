import Archivum.CallEffects
import Archivum.MealRules

set_option autoImplicit false

/-!
# Meals over runs

Batches and manual entries change punches from some time on and rebuild the meals
of the day before it. Where nothing further back depends on the change, the meals
are those of the punches in every store that such calls lead to.
-/
namespace Archivum.MealRuns
open ByteStrings StatefulActions StatefulActions.Act RecordModel LocalTimes KeyedTables PunchlineData PunchlineDb
open PunchlineFrames ExceptionQueue Payroll Sync Lifecycle PairingRules BatchRules SettledRows CallEffects MealRules

def plate (db:Db) : Table TimeEntry × Table EntryBreakCode × Table MealBreak :=
 (db.timeEntries,db.entryBreakCodes,db.mealBreaks)

/-- Every meal is one of a current punch, and every marked one has its meal. -/
structure MealsRight (db:Db) : Prop where
 readable : Readable db
 exact : ∀ employeeId,Exact db employeeId

section Frames
variable {db db':Db}

lemma MealsRight.of_same (h:MealsRight db) (hsame:Same plate db db') : MealsRight db' := by
 obtain ⟨hentries,hrest⟩:=Prod.mk.inj hsame
 obtain ⟨hmarks,hmeals⟩:=Prod.mk.inj hrest
 refine ⟨⟨?_,?_⟩,fun employeeId=>?_⟩
 · rw [hentries]
   exact h.readable.parsed
 · rw [hentries]
   exact h.readable.bounded
 · have hdue:due db'=due db:=due_congr (Prod.ext hentries hmarks)
   unfold Exact mealsOf currentOf
   rw [hdue,hmeals,hentries]
   exact h.exact employeeId

lemma MealsRight.of_marks (h:MealsRight db) (hentries:db'.timeEntries=db.timeEntries) (hmeals:db'.mealBreaks=db.mealBreaks)
 (hmarks:∀ e∈db.timeEntries,db'.entryBreakCodes.get? e.id=db.entryBreakCodes.get? e.id) : MealsRight db' := by
 refine ⟨⟨?_,?_⟩,fun employeeId=>?_⟩
 · rw [hentries]
   exact h.readable.parsed
 · rw [hentries]
   exact h.readable.bounded
 · have hdue:(Successors.pairs (currentOf db employeeId) none).filterMap (due db') =
     (Successors.pairs (currentOf db employeeId) none).filterMap (due db):=by
    refine List.filterMap_congr fun p hp=>?_
    unfold due marked
    rw [hmarks p.1 (mem_currentOf.mp (Successors.mem_of_mem_pairs hp)).1]
   have hsame:currentOf db' employeeId=currentOf db employeeId:=by
    unfold currentOf
    rw [hentries]
   unfold Exact mealsOf
   rw [hsame,hdue,hmeals]
   exact h.exact employeeId

end Frames

section Repair
variable {env:Env} {employeeId fromUs t:ℤ} {db db₀ db':Db}

lemma foldl_min_le (l:List ℤ) (a:ℤ) : l.foldl min a≤a := by
 induction l generalizing a with
 | nil=>exact le_refl a
 | cons b l ih=>exact (ih (min a b)).trans (min_le_left a b)

lemma rebuildRange_le {n:ℕ} {start:ℤ} {affected:List Shift}
 (h:rebuildRange db employeeId n fromUs=some (start,affected)) : start≤fromUs := by
 induction n generalizing fromUs with
 | zero=>cases h
 | succ n ih=>
  rw [rebuildRange] at h
  split at h
  · cases h
    exact le_refl _
  · exact (ih h).trans (foldl_min_le _ _)

lemma repairPairing_meals {opened:List ℤ} (hrun:repairPairing env employeeId fromUs db=(.ok opened,db')) :
 ∃ start≤fromUs,∃ db₁ db₂,Same plate db db₁ ∧ rebuildMeals employeeId start db₁=(.ok (),db₂) ∧ Same plate db₂ db' := by
 unfold repairPairing at hrun
 rw [bind_reads] at hrun
 cases hrange:rebuildRange db employeeId (db.shifts.rows.length+2) fromUs with
 | none=>
  rw [hrange] at hrun
  cases hrun
 | some r=>
  obtain ⟨start,affected⟩:=r
  rw [hrange] at hrun
  obtain ⟨_,db₁,hdrop,hrun⟩:=bind_ok_inv hrun
  rw [bind_reads] at hrun
  obtain ⟨_,db₂,hresolve,hrun⟩:=bind_ok_inv hrun
  obtain ⟨_,db₃,hfold,hrun⟩:=bind_ok_inv hrun
  obtain ⟨_,db₄,hmeals,hrun⟩:=bind_ok_inv hrun
  obtain ⟨_,db₅,hholds,hrun⟩:=bind_ok_inv hrun
  cases hrun
  have hx:Ignores exceptions (Same plate):=fun _ _=>rfl
  refine ⟨start,rebuildRange_le hrange,db₃,db₄,?_,hmeals,?_⟩
  · exact trans_of _ ((dropAll_always hx (fun _ _=>rfl) (fun _ _=>rfl) affected).ok hdrop) <|
     trans_of _ ((resolveAll_always hx _).ok hresolve)
      ((foldEntries_always hx (fun _ _=>rfl) (fun _ _ _=>rfl) env employeeId _ _).ok hfold)
  · exact (forAll_always fun p _=>evaluateHold_always (fun _ _=>rfl) env employeeId p).ok hholds

lemma mealsRight_repaired (h:MealsRight db₀) (hread:Readable db) (hchange:Changed employeeId t db₀ db)
 (hday:WithinADay db₀ employeeId t) {opened:List ℤ}
 (hrun:repairPairing env employeeId t db=(.ok opened,db')) : MealsRight db' := by
 obtain ⟨start,hstart,db₁,db₂,hbefore,hmeals,hafter⟩:=repairPairing_meals hrun
 obtain ⟨hentries,hrest⟩:=Prod.mk.inj hbefore
 obtain ⟨hmarks,hmealBreaks⟩:=Prod.mk.inj hrest
 have hread₁:Readable db₁:=⟨by rw [hentries]; exact hread.parsed,by rw [hentries]; exact hread.bounded⟩
 have hchange₁:Changed employeeId t db₀ db₁:=by
  refine ⟨hmealBreaks.trans hchange.meals,?_,?_,?_,?_⟩
  · rw [hentries]
    exact hchange.others
  · rw [hentries]
    exact hchange.before
  · rw [hentries]
    exact hchange.gone
  · rw [hmarks]
    exact hchange.marks
 have hexact:=exact_rebuilt h.exact hchange₁ hread₁ hday hstart hmeals
 have hsame:Same Db.timeEntries db₁ db₂:=(rebuildMeals_always (fun _ _=>rfl) employeeId start).ok hmeals
 have hright:MealsRight db₂:=
  ⟨⟨by rw [hsame]; exact hread₁.parsed,by rw [hsame]; exact hread₁.bounded⟩,hexact⟩
 exact hright.of_same hafter

end Repair

/-- What the loop over a batch has done to the punches so far. -/
structure Gathered (employeeId:ℤ) (sent:List IncomingEntry) (db:Db) (p:Progress) (db':Db) : Prop where
 meals : db'.mealBreaks=db.mealBreaks
 kept : ∀ e∈db.timeEntries,e∈db'.timeEntries
 added : ∀ row∈db'.timeEntries,row∈db.timeEntries ∨ row.employeeId=employeeId ∧ p.earliestNew≠0 ∧
  p.earliestNew ≤ row.deviceTime ∧ (∃ lt,parseLocalTime row.localTime=.ok lt) ∧
  ∃ e∈sent,db.entryByUuid e.entryUuid=none ∧ row.deviceTime=e.deviceTimeUs
 marks : ∀ e∈db.timeEntries,db'.entryBreakCodes.get? e.id=db.entryBreakCodes.get? e.id
 earliest : p.earliestNew≠0 → ∃ e∈sent,db.entryByUuid e.entryUuid=none ∧ p.earliestNew=e.deviceTimeUs

section Batch
variable {env:Env} {device:Device} {zone:Bytes} {batch:IncomingBatch} {divergence:Option ℤ} {p p':Progress}
 {sent:List IncomingEntry} {employeeId:ℤ} {db db₀ db':Db}

lemma earliest_noteZone {e:IncomingEntry} : (p.noteZone zone e).earliestNew=p.earliestNew := by
 unfold Progress.noteZone
 split
 · rfl
 · split
   · rfl
   · rfl

lemma earliest_report {e:IncomingEntry} {v:Verdict} (hv:∀ lt,v≠.fresh lt) : (report p e v).earliestNew=p.earliestNew := by
 cases v with
 | fresh lt=>exact absurd rfl (hv lt)
 | repeated=>rfl
 | replayed=>rfl
 | foreign=>rfl
 | refused why=>rfl

lemma entryByUuid_none_of_kept {uuid:UuidBytes} (hkept:∀ e∈db₀.timeEntries,e∈db.timeEntries)
 (h:db.entryByUuid uuid=none) : db₀.entryByUuid uuid=none :=
 List.find?_eq_none.mpr fun e he=>List.find?_eq_none.mp h e (hkept e he)

lemma Gathered.take (h:Gathered device.employeeId sent db₀ p db) {e:IncomingEntry} (he:e∈sent)
 (hrun:takeEntry env device zone batch divergence p e db=(.ok p',db')) : Gathered device.employeeId sent db₀ p' db' := by
 by_cases hv:∃ lt,judge db env device batch.journalId p.inBatch e=.fresh lt
 · obtain ⟨lt,hv⟩:=hv
   have hmeals:Same Db.mealBreaks db db':=
    (takeEntry_always (fun _ _=>rfl) (fun _ _=>rfl) (fun _ _ _=>rfl) env device zone batch divergence p e).ok hrun
   unfold takeEntry at hrun
   rw [bind_reads,inBatch_noteZone,hv] at hrun
   have hstored:=storeEntry_stored hrun
   have hearliest:=hstored.earliest
   rw [earliest_noteZone] at hearliest
   obtain ⟨-,hpositive,-,hparse,-⟩:=validateIncoming_ok (validateIncoming_of_fresh (judgeNew_of_fresh hv))
   have hnew:db₀.entryByUuid e.entryUuid=none:=entryByUuid_none_of_kept h.kept (entryByUuid_of_fresh hv)
   have hfresh:∀ row∈db.timeEntries,row.id≠db.timeEntries.lastKey+1:=fun row hrow=>by
    have hle:row.id≤db.timeEntries.lastKey:=Table.key_le_lastKey hrow
    omega
   refine ⟨hmeals.trans h.meals,fun row hrow=>?_,fun row hrow=>?_,fun row hrow=>?_,fun _=>?_⟩
   · rw [hstored.row]
     exact Table.mem_put_of_ne (h.kept row hrow) (hfresh row (h.kept row hrow))
   · rw [hstored.row] at hrow
     rcases Table.mem_put.mp hrow with rfl | ⟨hrow,-⟩
     · refine .inr ⟨rfl,?_,?_,⟨lt,hparse⟩,e,he,hnew,rfl⟩
       · rw [hearliest]
         split
         · exact hpositive.ne'
         · rename_i hnot
           exact fun hzero=>hnot (.inl hzero)
       · show p'.earliestNew≤e.deviceTimeUs
         rw [hearliest]
         split
         · exact le_refl _
         · rename_i hnot
           exact not_lt.mp fun hlt=>hnot (.inr hlt)
     · rcases h.added row hrow with hold | ⟨hemployee,hzero,hle,hrest⟩
       · exact .inl hold
       · refine .inr ⟨hemployee,?_,?_,hrest⟩
         · rw [hearliest]
           split
           · exact hpositive.ne'
           · exact hzero
         · rw [hearliest]
           split
           · rename_i hcase
             rcases hcase with hcase | hcase
             · exact absurd hcase hzero
             · omega
           · exact hle
   · rw [← h.marks row hrow]
     exact hstored.marks row.id (hfresh row (h.kept row hrow))
   · by_cases hcase:p.earliestNew=0 ∨ e.deviceTimeUs<p.earliestNew
     · rw [if_pos hcase] at hearliest
       exact ⟨e,he,hnew,hearliest⟩
     · rw [if_neg hcase] at hearliest
       rw [hearliest]
       exact h.earliest fun hzero=>hcase (.inl hzero)
 · have hnot:∀ lt,judge db env device batch.journalId p.inBatch e≠.fresh lt:=fun lt hlt=>hv ⟨lt,hlt⟩
   rw [takeEntry_of_not_fresh hnot] at hrun
   cases hrun
   refine ⟨h.meals,h.kept,?_,h.marks,?_⟩
   · rw [earliest_report hnot,earliest_noteZone]
     exact h.added
   · rw [earliest_report hnot,earliest_noteZone]
     exact h.earliest

lemma Gathered.takeAll {entries:List IncomingEntry} (h:Gathered device.employeeId sent db₀ p db)
 (hsub:∀ e∈entries,e∈sent) (hrun:takeEntries env device zone batch divergence entries p db=(.ok p',db')) :
 Gathered device.employeeId sent db₀ p' db' := by
 induction entries generalizing p db with
 | nil=>
  cases hrun
  exact h
 | cons e rest ih=>
  obtain ⟨p₁,db₁,htake,hrun⟩:=bind_ok_inv hrun
  exact ih (h.take (hsub e List.mem_cons_self) htake) (fun e' he'=>hsub e' (List.mem_cons_of_mem e he')) hrun

lemma Gathered.changed (h:Gathered employeeId sent db₀ p db) : Changed employeeId p.earliestNew db₀ db where
 meals := h.meals
 others:=by
  intro e hother
  refine ⟨fun he=>?_,h.kept e⟩
  rcases h.added e he with hold | ⟨hemployee,-⟩
  · exact hold
  · exact absurd hemployee hother
 before:=by
  intro e hearly _
  refine ⟨fun he=>?_,h.kept e⟩
  rcases h.added e he with hold | ⟨-,-,hle,-⟩
  · exact hold
  · omega
 gone:=fun e he _=>h.kept e (mem_currentOf.mp he).1
 marks:=h.marks

/-- The device's batch is covered: every entry that is not stored yet is at a time that is looked at, and the punch before
it that begins a meal is at most a day earlier. -/
def BatchCovered (db:Db) (employeeId:ℤ) (entries:List IncomingEntry) : Prop :=
 ∀ e∈entries,db.entryByUuid e.entryUuid=none →
  e.deviceTimeUs<kForever/2 ∧ WithinADay db employeeId e.deviceTimeUs

lemma Gathered.readable (h:Gathered employeeId sent db₀ p db) (hread:Readable db₀)
 (hcovered:BatchCovered db₀ employeeId sent) : Readable db where
 parsed := by
  intro row hrow
  rcases h.added row hrow with hold | ⟨-,-,-,hparse,-⟩
  · exact hread.parsed row hold
  · exact hparse
 bounded:=by
  intro row hrow
  rcases h.added row hrow with hold | ⟨-,-,-,-,e,he,hnew,htime⟩
  · exact hread.bounded row hold
  · rw [htime]
    exact (hcovered e he hnew).1

lemma mealsRight_settled {ids:List ℤ} (h:MealsRight db₀) (hgathered:Gathered device.employeeId sent db₀ p db)
 (hcovered:BatchCovered db₀ device.employeeId sent) (hrun:settleNew env device p db=(.ok ids,db')) : MealsRight db' := by
 have hcount:∀ l,Always (Same plate) (forEachOpened (countDeviceAttested env device.employeeId) l):=fun l=>
  forEachOpened_always fun id _=>countDeviceAttested_always (fun _ _=>rfl) env _ id
 unfold settleNew at hrun
 split at hrun
 · rename_i hzero
   obtain ⟨_,db₁,hpaired,hrun⟩:=bind_ok_inv hrun
   cases hpaired
   obtain ⟨_,db₂,hcounted,hrun⟩:=bind_ok_inv hrun
   cases hrun
   have hentries:db.timeEntries=db₀.timeEntries:=by
    refine Table.ext_mem fun e=>⟨fun he=>?_,hgathered.kept e⟩
    rcases hgathered.added e he with hold | ⟨-,hnot,-⟩
    · exact hold
    · exact absurd hzero hnot
   exact (h.of_marks hentries hgathered.meals hgathered.marks).of_same ((hcount _).ok hcounted)
 · rename_i hnew
   obtain ⟨_,db₁,hpaired,hrun⟩:=bind_ok_inv hrun
   obtain ⟨_,db₂,hcounted,hrun⟩:=bind_ok_inv hrun
   cases hrun
   obtain ⟨e,he,hunknown,hearliest⟩:=hgathered.earliest hnew
   have hday:WithinADay db₀ device.employeeId p.earliestNew:=by
    rw [hearliest]
    exact (hcovered e he hunknown).2
   exact (mealsRight_repaired h (hgathered.readable h.readable hcovered) hgathered.changed hday hpaired).of_same
    ((hcount _).ok hcounted)

lemma mealsRight_batch {out:SyncOutcome} (h:MealsRight db) (hcovered:BatchCovered db device.employeeId batch.entries)
 (hrun:applyBatch env device batch db=(.ok out,db')) : MealsRight db' := by
 obtain ⟨employee,diverged,p,db₁,db₂,db₃,db₄,db₅,db₆,db₇,db₈,happlied,-⟩:=applyBatch_ok hrun
 have hx:Ignores exceptions (Same plate):=fun _ _=>rfl
 obtain ⟨_,hsettled⟩:=happlied.settled
 obtain ⟨_,hzoned⟩:=happlied.zoned
 obtain ⟨_,hrefused⟩:=happlied.refused
 obtain ⟨_,hreported⟩:=happlied.reported
 obtain ⟨_,hstale⟩:=happlied.stale
 have hbefore:Same plate db db₁:=(flagDivergence_always hx env device _).ok happlied.divergence
 have hafter:Same plate db₃ db':=
  trans_of _ ((settleZone_always hx env device _ p).ok hzoned) <|
   trans_of _ ((flagRejected_always hx env device p).ok hrefused) <|
   trans_of _ ((forEachOpened_always fun r _=>takeReport_always hx env device r).ok hreported) <|
   trans_of _ ((update_always (fun _ _=>rfl) _).ok happlied.heard) <|
   trans_of _ ((resolveMatching_always hx env _ _).ok hstale)
    ((recordBatch_always (fun _ _=>rfl) env device batch _ p _).ok happlied.recorded)
 obtain ⟨hentries,hrest⟩:=Prod.mk.inj hbefore
 obtain ⟨hmarks,hmeals⟩:=Prod.mk.inj hrest
 have hstart:Gathered device.employeeId batch.entries db { opened:=diverged } db₁:=by
  refine ⟨hmeals,?_,?_,?_,fun hnot=>absurd rfl hnot⟩
  · rw [hentries]
    exact fun e he=>he
  · rw [hentries]
    exact fun e he=>.inl he
  · rw [hmarks]
    exact fun _ _=>rfl
 have hgathered:=hstart.takeAll (fun e he=>(List.mem_insertionSort _).mp he) happlied.taken
 exact (mealsRight_settled h hgathered hcovered hsettled).of_same hafter

end Batch

section Manual
variable {env:Env} {m:ManualEntry} {db db':Db}

def changesFrom (db:Db) (m:ManualEntry) : ℤ :=
 if m.correctionOf=0 then m.deviceTimeUs
 else match db.entryById m.correctionOf with
  | none=>m.deviceTimeUs
  | some o=>min m.deviceTimeUs o.deviceTime

/-- The manual entry is covered: what it corrects began no meal, it is at a time that is looked at, and the punch before it
that begins a meal is at most a day earlier. -/
def ManualCovered (db:Db) (m:ManualEntry) : Prop :=
 m.deviceTimeUs<kForever/2 ∧
  (m.correctionOf≠0 → ∀ o∈db.entryById m.correctionOf,marked db o=false) ∧
  WithinADay db m.employeeId (changesFrom db m)

lemma originalOf_employee {o:TimeEntry} (h:originalOf db m=.ok o) : o.employeeId=m.employeeId := by
 obtain ⟨hmem,hid,-⟩:=originalOf_ok h
 have hfound:db.entryById m.correctionOf=some o:=Table.get?_eq_some.mpr ⟨hmem,hid⟩
 unfold originalOf at h
 obtain ⟨_,hvalid,-⟩:=bind_ok_cases h
 unfold correctionValid at hvalid
 split at hvalid
 · cases hvalid
 · rw [hfound] at hvalid
   dsimp only at hvalid
   split at hvalid
   · cases hvalid
   · exact not_not.mp ‹_›

lemma sourceOf_none {original:Option TimeEntry} {deviceId:ℤ} (h:sourceOf db m=.ok (original,deviceId)) :
 original=none ↔ m.correctionOf=0 := by
 unfold sourceOf at h
 split at h
 · rename_i hne
   obtain ⟨o,-,h⟩:=bind_ok_cases h
   cases h
   exact iff_of_false nofun hne
 · rename_i hzero
   dsimp only at h
   split at h
   · cases h
   · cases h
     exact iff_of_true rfl (not_not.mp hzero)

lemma supersede_ok {row:TimeEntry} {original:Option TimeEntry} {start:ℤ}
  (hrun:supersede env row original db=(.ok start,db')) :
  (original=none ∧ start=row.deviceTime ∧ db'=db) ∨ ∃ o,original=some o ∧
   start=min row.deviceTime o.deviceTime ∧
   db'.timeEntries=db.timeEntries.put { o with supersededBy:=row.id } ∧ db'.mealBreaks=db.mealBreaks ∧
   db'.entryBreakCodes=db.entryBreakCodes := by
 cases original with
 | none=>
  cases hrun
  exact .inl ⟨rfl,rfl,rfl⟩
 | some o=>
  obtain ⟨_,db₁,hupdate,hrun⟩:=bind_ok_inv hrun
  obtain ⟨_,db₂,hresolve,hrun⟩:=bind_ok_inv hrun
  cases hrun
  have hsame:Same plate db₁ db':=
   (forAll_always fun kind _=>resolveCorrected_always (fun _ _=>rfl) env _ o kind).ok hresolve
  obtain ⟨hentries,hrest⟩:=Prod.mk.inj hsame
  obtain ⟨hmarks,hmeals⟩:=Prod.mk.inj hrest
  obtain ⟨-,rfl⟩:=update_ok hupdate
  exact .inr ⟨o,rfl,rfl,hentries,hmeals,hmarks⟩

lemma recorded_row {row:TimeEntry} {lt:LocalTime} {cls:EditClass} {employee:Employee}
 {original:Option TimeEntry} {deviceId start:ℤ} {period:Option PayPeriod} {db₁ db₂ db₃ db₄:Db}
 (h:Recorded env m row db lt cls employee original deviceId period start db₁ db₂ db₃ db₄ db') :
 db₃.timeEntries=db.timeEntries.put row ∧ db₃.mealBreaks=db.mealBreaks ∧
  ∀ e∈db.timeEntries,db₃.entryBreakCodes.get? e.id=db.entryBreakCodes.get? e.id := by
 have hedited:Same plate db₂ db₃:=(recordEntryEdit_always (fun _ _=>rfl) env _ _ _ _).ok h.edited
 obtain ⟨hentries₃,hrest₃⟩:=Prod.mk.inj hedited
 obtain ⟨hmarks₃,hmeals₃⟩:=Prod.mk.inj hrest₃
 have hmarked:Same (fun db=>(db.timeEntries,db.mealBreaks)) db₁ db₂:=
  (Always.onlyIf (markEntryBreak_always (fun _ _=>rfl) _ _)).ok h.marked
 obtain ⟨hentries₂,hmeals₂⟩:=Prod.mk.inj hmarked
 obtain ⟨-,rfl⟩:=insert_ok h.inserted
 refine ⟨hentries₃.trans hentries₂,hmeals₃.trans hmeals₂,fun e he=>?_⟩
 have hle:e.id≤db.timeEntries.lastKey:=Table.key_le_lastKey he
 have hid:row.id=db.timeEntries.lastKey+1:=by rw [h.row_eq]; rfl
 have hbreak:=h.marked
 rw [hmarks₃]
 unfold Act.onlyIf at hbreak
 split at hbreak
 · exact markEntryBreak_ok hbreak e.id (by omega)
 · cases hbreak
   rfl

lemma mealsRight_manual {row:TimeEntry} (h:MealsRight db) (hcovered:ManualCovered db m)
 (hrun:recordManualEntry env m db=(.ok row,db')) : MealsRight db' := by
 obtain ⟨lt,cls,employee,original,deviceId,period,start,db₁,db₂,db₃,db₄,hrecorded⟩:=recordManualEntry_ok hrun
 obtain ⟨opened,hrepaired⟩:=hrecorded.repaired
 obtain ⟨hbound,hbegan,hday⟩:=hcovered
 obtain ⟨hentries₃,hmeals₃,hmarks₃⟩:=recorded_row hrecorded
 have htime:row.deviceTime=m.deviceTimeUs:=by rw [hrecorded.row_eq]; rfl
 have hparse:∃ lt,parseLocalTime row.localTime=.ok lt:=by
  rw [hrecorded.row_eq]
  exact ⟨lt,(validateManual_ok hrecorded.valid).2⟩
 have hwhose:row.employeeId=m.employeeId:=by rw [hrecorded.row_eq]; rfl
 have hfresh:∀ e∈db.timeEntries,key e≠key row:=fun e he=>by
  have hle:e.id≤db.timeEntries.lastKey:=Table.key_le_lastKey he
  show e.id≠row.id
  rw [hrecorded.row_eq]
  show e.id≠db.timeEntries.lastKey+1
  omega
 have hread₃:Readable db₃:=by
  refine ⟨fun e he=>?_,fun e he=>?_⟩
  · rw [hentries₃] at he
    rcases Table.mem_put.mp he with rfl | ⟨he,-⟩
    · exact hparse
    · exact h.readable.parsed e he
  · rw [hentries₃] at he
    rcases Table.mem_put.mp he with rfl | ⟨he,-⟩
    · rw [htime]
      exact hbound
    · exact h.readable.bounded e he
 have hmem₃:∀ e,e≠row → (e∈db₃.timeEntries ↔ e∈db.timeEntries):=by
  intro e hne
  rw [hentries₃,Table.mem_put]
  constructor
  · rintro (heq | ⟨he,-⟩)
    · exact absurd heq hne
    · exact he
  · exact fun he=>.inr ⟨he,hfresh e he⟩
 rcases supersede_ok hrecorded.superseded with ⟨rfl,rfl,rfl⟩ | ⟨o,rfl,rfl,hentries₄,hmeals₄,hmarks₄⟩
 · -- a new punch
   have hzero:=(sourceOf_none hrecorded.source).mp rfl
   have hfrom:changesFrom db m=row.deviceTime:=by
    unfold changesFrom
    rw [if_pos hzero,htime]
   rw [hfrom] at hday
   refine mealsRight_repaired h hread₃ ⟨hmeals₃,fun e hother=>hmem₃ e ?_,fun e hearly _=>hmem₃ e ?_,
    fun e he _=>(hmem₃ e ?_).mpr (mem_currentOf.mp he).1,hmarks₃⟩ hday hrepaired
   · rintro rfl
     exact hother hwhose
   · rintro rfl
     exact lt_irrefl _ hearly
   · rintro rfl
     exact hfresh e (mem_currentOf.mp he).1 rfl
 · -- a correction: the old punch is no longer current
   have horiginal:=sourceOf_ok hrecorded.source o rfl
   obtain ⟨ho,hid,-,-⟩:=originalOf_ok horiginal
   have howner:=originalOf_employee horiginal
   have hcorrects:m.correctionOf≠0:=fun hzero=>nomatch (sourceOf_none hrecorded.source).mpr hzero
   have hfound:db.entryById m.correctionOf=some o:=Table.get?_eq_some.mpr ⟨ho,hid⟩
   have hunmarked:=hbegan hcorrects o hfound
   have hfrom:changesFrom db m=min row.deviceTime o.deviceTime:=by
    unfold changesFrom
    rw [if_neg hcorrects,hfound,htime]
   rw [hfrom] at hday
   have hmem₄:∀ e,e≠row → e ≠ { o with supersededBy:=row.id } → e≠o →
     (e∈db₄.timeEntries ↔ e∈db.timeEntries):=by
    intro e hrow hnew hold
    rw [hentries₄,Table.mem_put,hmem₃ e hrow]
    constructor
    · rintro (heq | ⟨he,-⟩)
      · exact absurd heq hnew
      · exact he
    · exact fun he=>.inr ⟨he,fun hkey=>hold (Table.eq_of_key he ho hkey)⟩
   have hread₄:Readable db₄:=by
    refine ⟨fun e he=>?_,fun e he=>?_⟩
    · rw [hentries₄] at he
      rcases Table.mem_put.mp he with rfl | ⟨he,-⟩
      · exact h.readable.parsed o ho
      · exact hread₃.parsed e he
    · rw [hentries₄] at he
      rcases Table.mem_put.mp he with rfl | ⟨he,-⟩
      · exact h.readable.bounded o ho
      · exact hread₃.bounded e he
   have hle:=min_le_left row.deviceTime o.deviceTime
   have hle':=min_le_right row.deviceTime o.deviceTime
   refine mealsRight_repaired h hread₄ ⟨hmeals₄.trans hmeals₃,fun e hother=>hmem₄ e ?_ ?_ ?_,
    fun e hearly _=>hmem₄ e ?_ ?_ ?_,fun e he hmarked=>(hmem₄ e ?_ ?_ ?_).mpr (mem_currentOf.mp he).1,
    by rw [hmarks₄]; exact hmarks₃⟩ hday hrepaired
   · rintro rfl
     exact hother hwhose
   · rintro rfl
     exact hother howner
   · rintro rfl
     exact hother howner
   · rintro rfl
     omega
   · rintro rfl
     exact absurd hearly (not_lt.mpr hle')
   · rintro rfl
     omega
   · rintro rfl
     exact hfresh e (mem_currentOf.mp he).1 rfl
   · rintro rfl
     have hmarked':marked db o=true:=hmarked
     rw [hunmarked] at hmarked'
     cases hmarked'
   · rintro rfl
     rw [hunmarked] at hmarked
     cases hmarked

end Manual

def Covered (c:ℤ × Call) (db:Db) : Prop :=
 match c.2 with
 | .sync deviceId batch=>∀ device∈db.deviceById deviceId,BatchCovered db device.employeeId batch.entries
 | .manual m=>ManualCovered db m
 | _=>False

instance (c:ℤ × Call) (db:Db) : Decidable (Covered c db) := by
 unfold Covered BatchCovered ManualCovered
 split
 · infer_instance
 · infer_instance
 · infer_instance

lemma mealsRight_serve {cfg:Config} {release:Bytes} (c:ℤ × Call) (db:Db) (h:MealsRight db)
 (hcovered:Covered c db) : MealsRight (serve cfg release c db) := by
 rcases serve_cases cfg release c db with hsame | ⟨env,-,-,hrun⟩
 · rw [hsame]
   exact h
 · have hlogged:MealsRight { db with auditLog:=db.auditLog.put ⟨db.auditLog.lastKey+1⟩ }:=h.of_same rfl
   unfold Covered at hcovered
   cases hc:c.2 with
   | sync deviceId batch=>
    rw [hc] at hrun hcovered
    rw [Call.run,bind_reads] at hrun
    cases hdevice:Db.deviceById { db with auditLog:=db.auditLog.put ⟨db.auditLog.lastKey+1⟩ } deviceId with
    | none=>
     rw [hdevice] at hrun
     cases hrun
    | some device=>
     rw [hdevice] at hrun
     obtain ⟨_,db₁,happly,hrun⟩:=bind_ok_inv hrun
     cases hrun
     exact mealsRight_batch hlogged (hcovered device hdevice) happly
   | manual m=>
    rw [hc] at hrun hcovered
    obtain ⟨_,db₁,hmanual,hrun⟩:=bind_ok_inv hrun
    cases hrun
    exact mealsRight_manual hlogged hcovered hmanual
   | move req=>
    rw [hc] at hcovered
    exact hcovered.elim
   | lock periodId who tid oid account=>
    rw [hc] at hcovered
    exact hcovered.elim
   | period r=>
    rw [hc] at hcovered
    exact hcovered.elim

/-- In every run of covered batches and manual entries, the meals of each employee are those of the current out punches
with a break code, each once, ended by the next current punch where that is an in punch and open otherwise. -/
theorem meals_of_punches (cfg:Config) (release:Bytes) (calls:List (ℤ × Call)) (db₀:Db) (hunused:Unused db₀)
  (hcovered:Meets (serve cfg release) Covered calls db₀) (employeeId:ℤ) :
  Exact (after (serve cfg release) calls db₀) employeeId := by
 refine (after_invariant mealsRight_serve calls ⟨⟨fun e he=>?_,fun e he=>?_⟩,fun employeeId=>?_⟩ hcovered).exact
  employeeId
 · rw [Table.mem_def,hunused.1] at he
   cases he
 · rw [Table.mem_def,hunused.1] at he
   cases he
 · unfold Exact mealsOf currentOf
   rw [hunused.1,hunused.2.2.2.1]
   exact .refl _

def mealSite : Db := { exampleSite with breakCodes:=[⟨ascii "MEAL",ascii "meal break",true,true⟩] }

def punchAt (n:ℕ) (kind:String) (deviceTimeUs:ℤ) (localTime:String) (breakCode:String) : ℤ × Call :=
 (1709300000000000+n,.sync 1 (exampleBatch n [{ examplePunch n kind deviceTimeUs localTime with
  breakCode:=ascii breakCode }]))

def noonMeal : List (ℤ × Call) :=
 [punchAt 1 "out" 1709208000000000 "2024-02-29T12:00:00" "MEAL",
  punchAt 2 "in" 1709209800000000 "2024-02-29T12:30:00" ""]

theorem noonMeal_ends : Unused mealSite ∧ Meets (serve {} []) Covered noonMeal mealSite ∧
  mealsOf (after (serve {} []) noonMeal mealSite) 1=[(1,1709208000000000,2,1709209800000000)] ∧
  Exact (after (serve {} []) noonMeal mealSite) 1 :=
 ⟨by decide,by decide +kernel,by decide +kernel,
  meals_of_punches {} [] noonMeal mealSite (by decide) (by decide +kernel) 1⟩

def longMeal : List (ℤ × Call) :=
 [punchAt 1 "out" 1709208000000000 "2024-02-29T12:00:00" "MEAL",
  punchAt 2 "in" 1709298000000000 "2024-03-01T13:00:00" ""]

/-- The rebuild does not look back that far: the meal stays open after its in punch. -/
theorem longMeal_stays_open :
  mealsOf (after (serve {} []) longMeal mealSite) 1=[(1,1709208000000000,0,0)] ∧
  ((currentOf (after (serve {} []) longMeal mealSite) 1).map fun e=>(e.id,e.kind))=[(1,.out),(2,.in_)] ∧
  ¬Exact (after (serve {} []) longMeal mealSite) 1 := by
 decide +kernel

end Archivum.MealRuns
