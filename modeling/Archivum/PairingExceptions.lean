import Archivum.PairingRules

set_option autoImplicit false

/-!
# Exceptions about unpaired punches

Which exceptions of the kind `unpaired_punch` are open after a repair.
-/
namespace Archivum.PairingExceptions
open ByteStrings RecordModel StatefulActions StatefulActions.Act KeyedTables PunchlineData PunchlineDb PunchlineFrames List
open ExceptionQueue ExceptionRules Payroll Sync PairingRules Lifecycle

/-- The form of the exceptions that pairing opens about an entry; their device is left open. -/
def OfPairing (employeeId entryId:ℤ) (x:Exception) : Prop :=
 x.kind=.unpairedPunch ∧ x.employeeId=employeeId ∧ x.entryId=entryId ∧ x.periodId=0

instance (employeeId entryId:ℤ) (x:Exception) : Decidable (OfPairing employeeId entryId x) := by
 unfold OfPairing
 infer_instance

lemma openIn_of_head? {db:Db} {x:Exception} (h:db.exceptions.rows.head? = some x) (hopen:x.state=.open_) : OpenIn db x :=
 ⟨mem_of_mem_head? h,hopen⟩

def flagged : Decision → List TimeEntry
 | .left _ inEntry _=>[inEntry]
 | .closed _ _ _=>[]
 | .unpaired e _=>[e]

section Folding
variable {env:Env} {employeeId:ℤ}

lemma flag_other {k:ExceptionKey} {P:Exception → Prop} (hP:∀ x,x.kind=k.kind → P x) (detail:Bytes) :
 Always (OnlyOpens P) (flag env k detail) :=
 (flag_onlyOpens detail).mono fun _ _ h=>onlyOpens_mono h fun x hx=>hP x (isAbout_iff.mp hx).1

lemma scheduleFinding_kind {cfg:Config} {schedules:List Schedule} {ltIn ltOut:LocalTimes.LocalTime}
 {kind:ExceptionKind} {detail:String} (h:scheduleFinding cfg schedules ltIn ltOut=some (kind,detail)) :
 kind≠.unpairedPunch := by
 unfold scheduleFinding at h
 dsimp only at h
 split at h
 · cases h
   decide
 · split at h
   · cases h
     decide
   · split at h
     · cases h
       decide
     · split at h
       · cases h
         decide
       · cases h

lemma checkSchedule_other {P:Exception → Prop} (hP:∀ x,x.kind≠.unpairedPunch → P x)
 (inEntry outEntry:TimeEntry) : Always (OnlyOpens P) (checkSchedule env inEntry outEntry) := by
 intro db
 unfold checkSchedule
 split
 · refine Follows.bind_reads ?_
   cases hfound:scheduleFinding env.cfg (db.schedulesOf inEntry.employeeId) _ _ with
   | none=>exact Follows.pure _
   | some f=>exact flag_other (fun x hx=>hP x (hx ▸ scheduleFinding_kind hfound)) _ db
 · exact Follows.pure _

lemma perform_opens (d:Decision) : Always (OnlyOpens fun x=>x.kind≠.unpairedPunch ∨ ∃ e∈flagged d,x.entryId=e.id)
  (perform env employeeId d) := by
 have hshifts:∀ P,Ignores shifts (OnlyOpens P):=ignores_onlyOpens fun _ _=>rfl
 have hflag:∀ (e:TimeEntry) (why:String),e∈flagged d →
   Always (OnlyOpens fun x=>x.kind≠.unpairedPunch ∨ ∃ e∈flagged d,x.entryId=e.id)
    (flagUnpaired env employeeId e why):=fun e why he=>
  (flag_onlyOpens _).mono fun _ _ h=>onlyOpens_mono h fun x hx=>.inr ⟨e,he,(isAbout_iff.mp hx).2.2.2.1⟩
 cases d with
 | left sh inEntry interrupted=>
  exact .bind (storeShift_always (hshifts _).grows _) fun _=>.ite (hflag _ _ mem_cons_self)
   (.ite (hflag _ _ mem_cons_self) (.pure _))
 | closed sh inEntry out=>
  refine .bind (storeShift_always (hshifts _).grows _) fun _=>.bind (.ite (flag_other ?_ _) (.pure _)) fun _=>
   .bind (checkSchedule_other (fun x hx=>.inl hx) _ _) fun _=>
   .bind (recordAnnotations_always (ignores_onlyOpens (fun _ _=>rfl) _) _ _ _ _) fun _=>.pure _
  intro x hx
  rw [hx]
  exact .inl nofun
 | unpaired e why=>exact hflag e why mem_cons_self

lemma performAll_opens (ds:List Decision) :
 Always (OnlyOpens fun x=>x.kind≠.unpairedPunch ∨ ∃ d∈ds,∃ e∈flagged d,x.entryId=e.id)
  (forEachOpened (perform env employeeId) ds) :=
 forEachOpened_always fun d hd=>(perform_opens d).mono fun _ _ h=>onlyOpens_mono h fun _ hx=>
  hx.imp_right fun he=>⟨d,hd,he⟩

lemma dropAll_closes (l:List Shift) : Always (OnlyOpens fun _=>False) (forAll (dropShift env employeeId) l) := by
 have hresolve:∀ p,Always (OnlyOpens fun _=>False) (resolvePairing env employeeId p):=fun p=>
  .ite (.pure _) (.bind (resolveMatching_onlyOpens _ _) fun _=>.pure _)
 exact forAll_always fun sh _=>.bind (forAll_always fun p _=>hresolve p) fun _=>
  .bind (removeAnnotations_always (ignores_onlyOpens (fun _ _=>rfl) _) _) fun _=>
   remove_always (ignores_onlyOpens (fun _ _=>rfl) _) _

lemma resolveAll_ok {l:List TimeEntry} {db db':Db}
 (hrun:forAll (resolveUnpaired env employeeId) l db=(.ok (),db')) {x:Exception} (hx:OpenIn db' x) :
 OpenIn db x ∧ ∀ e∈l,OfPairing employeeId e.id x → x.deviceId≠0 := by
 induction l generalizing db with
 | nil=>
  cases hrun
  exact ⟨hx,(fun e he=>nomatch he)⟩
 | cons a l ih=>
  obtain ⟨_,s,hfirst,hrest⟩:=bind_ok_inv hrun
  obtain ⟨n,s',hresolve,hfirst⟩:=bind_ok_inv hfirst
  cases hfirst
  obtain ⟨hs,hl⟩:=ih hrest
  obtain ⟨hdb,habout⟩:=(resolveMatching_ok hresolve x).mp hs
  refine ⟨hdb,fun e he hof=>?_⟩
  rcases mem_cons.mp he with rfl | he
  · intro hdevice
    obtain ⟨hkind,hemp,hentry,hperiod⟩:=hof
    rw [isAbout_iff.mpr ⟨hkind,hemp,hdevice,hentry,hperiod⟩] at habout
    cases habout
  · exact hl e he hof

end Folding

section Uses
variable {db:Db} {employeeId start:ℤ} {e:TimeEntry}

lemma mem_foldable : e∈foldable db employeeId start ↔ e∈db.timeEntries ∧ e.employeeId=employeeId ∧
 start≤e.deviceTime ∧ e.supersededBy=0 ∧ laterThanSubmitted e.state=false := by
 unfold foldable currentEntriesFrom
 rw [mem_filter,mem_insertionSort,mem_filter,decide_eq_true_eq,Bool.not_eq_true',and_assoc]
 tauto

lemma foldable_nodup : (foldable db employeeId start).Nodup := by
 have hrows:db.timeEntries.rows.Nodup:=db.timeEntries.ordered.imp fun hab heq=>(heq ▸ hab).ne rfl
 exact ((perm_insertionSort _ _).nodup_iff.mpr (hrows.filter _)).filter _

lemma mem_uses {d:Decision} (hd:d∈pairUp employeeId (foldable db employeeId start) none) (he:e∈d.uses) :
 e∈foldable db employeeId start :=
 (pairUp_uses (foldable db employeeId start) none).mem_iff.mp (mem_flatMap.mpr ⟨d,hd,he⟩)

lemma uses_unique {d d':Decision} (hd:d∈pairUp employeeId (foldable db employeeId start) none)
 (hd':d'∈pairUp employeeId (foldable db employeeId start) none) (he:e∈d.uses) (he':e∈d'.uses) : d=d' := by
 have hnodup:((pairUp employeeId (foldable db employeeId start) none).flatMap Decision.uses).Nodup:=
  (pairUp_uses (foldable db employeeId start) none).nodup_iff.mpr foldable_nodup
 by_contra hne
 have hsymm:Std.Symm (Function.onFun List.Disjoint Decision.uses):=⟨fun _ _ h=>List.Disjoint.symm h⟩
 exact (nodup_flatMap.mp hnodup).2.forall hd hd' hne he he'

end Uses

lemma flagged_uses {d:Decision} {e:TimeEntry} (h:e∈flagged d) : e∈d.uses := by
 cases d with
 | left sh inEntry interrupted=>exact h
 | closed sh inEntry out=>cases h
 | unpaired e why=>exact h

/-- A shift after a repair that the repair stored: it was not there before, or it was among those rebuilt. -/
def Made (db:Db) (employeeId fromUs:ℤ) (db':Db) (sh:Shift) : Prop :=
 sh∈db'.shifts ∧
  ∀ start affected,rebuilt db employeeId fromUs=some (start,affected) → sh∈db.shifts → sh∈affected

lemma made_of_affected {db db':Db} {employeeId fromUs start:ℤ} {affected:List Shift} {sh:Shift}
 (hrange:rebuilt db employeeId fromUs=some (start,affected)) (hsh:sh∈affected) (hmem:sh∈db'.shifts) :
 Made db employeeId fromUs db' sh := by
 refine ⟨hmem,fun start' affected' h _=>?_⟩
 rw [hrange] at h
 cases h
 exact hsh

lemma made_decision {env:Env} {employeeId fromUs start:ℤ} {affected:List Shift} {opened:List ℤ}
  {db db₁ db₂ db₃ db':Db} (h:Repaired env employeeId fromUs db start affected opened db₁ db₂ db₃ db')
  {sh:Shift} (hsh:Made db employeeId fromUs db' sh) :
  ∃ d∈pairUp employeeId (foldable db employeeId start) none,∃ sh₀,d.shift=some sh₀ ∧
   sh={ sh₀ with id:=sh.id } := by
 have hmem:sh∈db'.shifts.rows:=hsh.1
 rw [h.shifts_eq,mem_append] at hmem
 rcases hmem with hkept | hnew
 · obtain ⟨hold,hnot⟩:=mem_filter.mp hkept
   exact absurd (mem_map_of_mem (hsh.2 start affected h.range hold)) (of_decide_eq_true hnot)
 · obtain ⟨sh₀,hsh₀,heq⟩:=mem_numbered hnew
   obtain ⟨d,hd,hshift⟩:=mem_filterMap.mp hsh₀
   exact ⟨d,hd,sh₀,hshift,heq⟩

lemma closed_of_shift {employeeId:ℤ} {d:Decision} (hproper:d.Proper employeeId) {sh:Shift}
 (hshift:d.shift=some sh) (hclosed:sh.outEntryId≠0) :
 ∃ sh₀ inEntry out,d=.closed sh₀ inEntry out ∧ sh.inEntryId=inEntry.id ∧ sh.outEntryId=out.id := by
 cases d with
 | left sh₁ inEntry interrupted=>
  unfold Decision.Proper at hproper
  obtain rfl:sh₁=sh:=Option.some_inj.mp hshift
  rw [hproper] at hclosed
  exact absurd rfl hclosed
 | closed sh₁ inEntry out=>
  unfold Decision.Proper at hproper
  obtain rfl:endShift sh₁ out=sh:=Option.some_inj.mp hshift
  have hin:(endShift sh₁ out).inEntryId=sh₁.inEntryId:=rfl
  rw [hproper.1] at hin
  exact ⟨sh₁,inEntry,out,rfl,by rw [hproper.1]; exact hin,rfl⟩
 | unpaired e why=>cases hshift

lemma made_closed {env:Env} {employeeId fromUs start:ℤ} {affected:List Shift} {opened:List ℤ}
 {db db₁ db₂ db₃ db':Db} (h:Repaired env employeeId fromUs db start affected opened db₁ db₂ db₃ db')
 {sh:Shift} (hsh:Made db employeeId fromUs db' sh) (hclosed:sh.outEntryId≠0) :
 ∃ sh₀ inEntry out,Decision.closed sh₀ inEntry out∈pairUp employeeId (foldable db employeeId start) none ∧
  sh.inEntryId=inEntry.id ∧ sh.outEntryId=out.id := by
 obtain ⟨d,hd,sh₁,hshift,heq⟩:=made_decision h hsh
 have hbegun:Begun employeeId none:=fun c hc=>absurd hc (Option.not_mem_none c)
 have hin:sh.inEntryId=sh₁.inEntryId:=by rw [heq]
 have hout:sh.outEntryId=sh₁.outEntryId:=by rw [heq]
 obtain ⟨sh₀,inEntry,out,rfl,hin',hout'⟩:=closed_of_shift (pairUp_proper _ hbegun d hd) hshift (hout ▸ hclosed)
 exact ⟨sh₀,inEntry,out,hd,hin.trans hin',hout.trans hout'⟩

def pairedDay : Db :=
 after (serve {} (ascii "2024a"))
  [(1709300000000000,.sync 1 (exampleBatch 1 [examplePunch 1 "in" 1709190000000000 "2024-02-29T07:00:00",
   examplePunch 2 "out" 1709218800000000 "2024-02-29T15:00:00"]))] exampleSite

def repairEnv : Env := { auditId:=1,release:=ascii "2024a",now:=1709300002000000 }

def pairedDayShift : Shift where
 id := 1
 employeeId:=1
 deviceId:=1
 inEntryId:=1
 outEntryId:=2
 localDay:=19782
 periodId:=1
 inTime:=1709190000000000
 outTime:=1709218800000000
 durationUs:=some 28800000000

lemma pairedDay_rows : (repairPairing repairEnv 1 1709190000000000 pairedDay).1.isOk=true ∧
 (repairPairing repairEnv 1 1709190000000000 pairedDay).2.shifts.rows=[pairedDayShift] ∧
 rebuilt pairedDay 1 1709190000000000=some (1709190000000000,[pairedDayShift]) ∧
 ∀ x∈pairedDay.exceptions.rows,x.kind≠.unpairedPunch := by decide +kernel

/-- The site after a device has sent an out punch, and then the in punch before it. -/
def lateIn : Db :=
 after (serve {} (ascii "2024a"))
  [(1709300000000000,.sync 1 (exampleBatch 1 [examplePunch 2 "out" 1709218800000000 "2024-02-29T15:00:00"])),
   (1709300001000000,.sync 1 (exampleBatch 2 [examplePunch 1 "in" 1709190000000000 "2024-02-29T07:00:00"]))]
  exampleSite

lemma lateIn_reached : Reached {} (ascii "2024a") lateIn := ⟨exampleSite,_,by decide,rfl⟩

def repairLateIn : Except PageTxn.Status (List ℤ) × Db :=
 repairPairing repairEnv 1 1709190000000000 lateIn

def lateInShift : Shift where
 id := 1
 employeeId:=1
 deviceId:=1
 inEntryId:=2
 outEntryId:=1
 localDay:=19782
 periodId:=1
 inTime:=1709190000000000
 outTime:=1709218800000000
 durationUs:=some 28800000000

def lateInException : Exception where
 id := 1
 kind:=.unpairedPunch
 employeeId:=1
 deviceId:=1
 entryId:=1
 detail:=ascii "out punch without an in punch"
 openedAt:=1709300000000000

lemma repairLateIn_rows : repairLateIn.2.shifts.rows=[lateInShift] ∧
 repairLateIn.2.exceptions.rows.head? = some lateInException := by decide +kernel

end Archivum.PairingExceptions
