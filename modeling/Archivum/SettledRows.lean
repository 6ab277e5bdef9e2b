import Archivum.PairingRules

set_option autoImplicit false

/-!
# Rows that are settled

A shift or an entry that is approved, released or locked is out of reach of
batches, manual entries and pairing.
-/
namespace Archivum.SettledRows
open ByteStrings StatefulActions StatefulActions.Act KeyedTables PunchlineData PunchlineDb PunchlineFrames
open ExceptionQueue Payroll Sync PairingRules

/-- Every settled shift and entry is still there, with every column. -/
structure Keeps (db db':Db) : Prop where
 shifts : ∀ sh∈db.shifts,laterThanSubmitted sh.state=true → sh∈db'.shifts
 entries : ∀ e∈db.timeEntries,laterThanSubmitted e.state=true → e∈db'.timeEntries

instance : IsPreorder Db Keeps where
 refl _ := ⟨fun _ h _=>h,fun _ h _=>h⟩
 trans _ _ _ h h':=⟨fun sh hsh hs=>h'.shifts sh (h.shifts sh hsh hs) hs,
  fun e he hs=>h'.entries e (h.entries e he hs) hs⟩

lemma keeps_of_same {db db':Db} (hshifts:db'.shifts=db.shifts) (hentries:db'.timeEntries=db.timeEntries) : Keeps db db' :=
 ⟨fun _ h _=>hshifts ▸ h,fun _ h _=>hentries ▸ h⟩

lemma mem_put_of_fresh {α:Type} [Keyed α] {t:Table α} {a b:α} (hfresh:t.get? (key a)=none) (hb:b∈t) :
 b∈t.put a := Table.mem_put_of_ne hb (Table.get?_eq_none.mp hfresh b hb)

lemma grows_shifts : Grows shifts Keeps := fun _ _ hfresh=>
 ⟨fun _ hsh _=>mem_put_of_fresh hfresh hsh,fun _ he _=>he⟩

lemma grows_entries : Grows timeEntries Keeps := fun _ _ hfresh=>
 ⟨fun _ hsh _=>hsh,fun _ he _=>mem_put_of_fresh hfresh he⟩

def rows (db:Db) : Table Shift × Table TimeEntry := (db.shifts,db.timeEntries)

lemma keeps_of_rows {db db':Db} (h:Same rows db db') : Keeps db db' := by
 obtain ⟨hshifts,hentries⟩:=Prod.mk.inj h
 exact keeps_of_same hshifts hentries

def Unsettled (db:Db) (id:ℤ) : Prop := ∀ sh∈db.shifts,sh.id=id → laterThanSubmitted sh.state=false

section Pairing
variable {env:Env} {employeeId:ℤ} {db:Db}

lemma remove_keeps {id:ℤ} (h:Unsettled db id) : Follows Keeps (remove shifts id) db := by
 refine remove_follows fun _ _=>⟨fun sh hsh hs=>Table.mem_erase.mpr ⟨hsh,fun hid=>?_⟩,fun _ he _=>he⟩
 rw [h sh hsh hid] at hs
 cases hs

lemma dropShift_keeps {sh:Shift} (h:Unsettled db sh.id) : Follows Keeps (dropShift env employeeId sh) db := by
 have hresolve:Always (Same rows) (forAll (resolvePairing env employeeId)
   (pairingKinds.flatMap fun kind=>[(kind,sh.inEntryId),(kind,sh.outEntryId)])):=
  forAll_always fun p _=>resolvePairing_always (fun _ _=>rfl) env employeeId p
 have hannotations:Always (Same rows) (removeAnnotations sh.id):=removeAnnotations_always (fun _ _=>rfl) sh.id
 refine (hresolve db).bind_of (fun _=>keeps_of_rows) fun _ db₁ h₁=>?_
 refine (hannotations db₁).bind_of (fun _=>keeps_of_rows) fun _ db₂ h₂=>remove_keeps ?_
 have hsame:db₂.shifts=db.shifts:=(Prod.mk.inj h₂).1.trans (Prod.mk.inj h₁).1
 intro sh' hsh'
 rw [hsame] at hsh'
 exact h sh' hsh'

lemma dropAll_keeps {l:List Shift} (h:∀ sh∈l,Unsettled db sh.id) :
 Follows Keeps (forAll (dropShift env employeeId) l) db := by
 induction l generalizing db with
 | nil=>exact .pure ()
 | cons sh l ih=>
  refine Follows.bind_ok (dropShift_keeps (h sh List.mem_cons_self)) fun _ db₁ hrun=>ih fun sh' hsh' a ha=>?_
  rw [dropShift_ok hrun] at ha
  exact h sh' (List.mem_cons_of_mem sh hsh') a (Table.mem_erase.mp ha).1

lemma rebuilt_unsettled {n:ℕ} {fromUs start:ℤ} {affected:List Shift}
 (h:rebuildRange db employeeId n fromUs=some (start,affected)) :
 ∀ sh∈affected,sh∈db.shifts ∧ laterThanSubmitted sh.state=false := by
 induction n generalizing fromUs with
 | zero=>cases h
 | succ n ih=>
  unfold rebuildRange at h
  dsimp only at h
  split at h
  · cases h
    intro sh hsh
    obtain ⟨hfrom,hstate⟩:=List.mem_filter.mp hsh
    refine ⟨?_,by simpa using hstate⟩
    rw [shiftsFrom,List.mem_insertionSort,List.mem_flatMap] at hfrom
    obtain ⟨_,_,hmem⟩:=hfrom
    exact (List.mem_filter.mp hmem).1
  · exact ih h

lemma repairPairing_keeps (fromUs:ℤ) : Always Keeps (repairPairing env employeeId fromUs) := by
 intro db
 refine repairPairing_follows (fun _ _=>keeps_of_same rfl rfl) (fun _ _=>keeps_of_same rfl rfl) grows_shifts env
  employeeId (fun _ _=>keeps_of_same rfl rfl) (fun _ _=>keeps_of_same rfl rfl) fun start affected hrange=>?_
 refine dropAll_keeps fun sh hsh sh' hsh' hid=>?_
 obtain ⟨hmem,hstate⟩:=rebuilt_unsettled hrange sh hsh
 rw [Table.eq_of_key hsh' hmem hid]
 exact hstate

end Pairing

lemma applyBatch_keeps (env:Env) (device:Device) (batch:IncomingBatch) : Always Keeps (applyBatch env device batch) :=
 applyBatch_always (fun _ _=>keeps_of_same rfl rfl) (fun _ _=>keeps_of_same rfl rfl) grows_entries
  (fun _ _=>keeps_of_same rfl rfl) (fun _ _=>keeps_of_same rfl rfl) env device batch
  fun _ fromUs=>repairPairing_keeps fromUs

lemma supersede_keeps {env:Env} {row:TimeEntry} {original:Option TimeEntry} {db:Db}
 (h:∀ o∈original,∀ e∈db.timeEntries,e.id=o.id → laterThanSubmitted e.state=false) :
 Follows Keeps (supersede env row original) db := by
 cases original with
 | none=>exact .pure _
 | some o=>
  have hupdate:Follows Keeps (update timeEntries { o with supersededBy:=row.id }) db:=by
   refine update_follows fun _ _=>⟨fun _ hsh _=>hsh,fun e he hs=>Table.mem_put_of_ne he fun hid=>?_⟩
   rw [h o rfl e he hid] at hs
   cases hs
  have hresolve:Always Keeps (forAll (resolveCorrected env row.employeeId o) pairingKinds):=
   forAll_always fun kind _=>resolveCorrected_always (fun _ _=>keeps_of_same rfl rfl) env _ o kind
  exact hupdate.bind fun _ db₁ _=>(hresolve db₁).bind fun _ _ _=>.pure _

lemma originalOf_ok {db:Db} {m:ManualEntry} {o:TimeEntry} (h:originalOf db m=.ok o) :
 o∈db.timeEntries ∧ o.id=m.correctionOf ∧ o.supersededBy=0 ∧ laterThanSubmitted o.state=false := by
 unfold originalOf at h
 obtain ⟨_,-,h⟩:=bind_ok_cases h
 cases hget:db.entryById m.correctionOf with
 | none=>
  rw [hget] at h
  cases h
 | some e=>
  rw [hget] at h
  dsimp only at h
  split at h
  · cases h
  · rename_i hcurrent
    split at h
    · cases h
    · rename_i hstate
      cases h
      obtain ⟨hmem,hid⟩:=Table.get?_eq_some.mp hget
      exact ⟨hmem,hid,not_not.mp hcurrent,by simpa using hstate⟩

lemma sourceOf_ok {db:Db} {m:ManualEntry} {original:Option TimeEntry} {deviceId:ℤ}
 (h:sourceOf db m=.ok (original,deviceId)) : ∀ o∈original,originalOf db m=.ok o := by
 unfold sourceOf at h
 split at h
 · obtain ⟨o,ho,h⟩:=bind_ok_cases h
   cases h
   intro o' ho'
   cases ho'
   exact ho
 · dsimp only at h
   split at h
   · cases h
   · cases h
     intro o ho
     cases ho

lemma recordManualEntry_keeps (env:Env) (m:ManualEntry) : Always Keeps (recordManualEntry env m) := by
 intro db
 unfold recordManualEntry
 refine (ofExcept_always _ db).bind_ok fun v db₁ hvalid=>?_
 obtain ⟨-,rfl⟩:=ofExcept_ok hvalid
 refine Follows.bind_reads ?_
 cases db.employeeById m.employeeId with
 | none=>exact .fail _
 | some employee=>
  refine Follows.bind_reads ((ofExcept_always _ db).bind_ok fun source db₂ hsource=>?_)
  obtain ⟨hof,rfl⟩:=ofExcept_ok hsource
  refine Follows.bind_reads (Follows.ite (fun _=>.fail _) fun _=>?_)
  refine Follows.bind_reads ((ofExcept_always _ db).bind_ok fun period db₃ hperiod=>?_)
  obtain ⟨-,rfl⟩:=ofExcept_ok hperiod
  refine Follows.bind_reads (Follows.bind_reads ((ofExcept_always _ db).bind_ok fun _ db₄ hentry=>?_))
  obtain ⟨-,rfl⟩:=ofExcept_ok hentry
  refine Follows.bind_ok (insert_always grows_entries _ db) fun _ db₅ hinsert=>?_
  have hbreak:Always (Same rows) (Act.onlyIf (m.breakCode≠[]) (markEntryBreak (db.timeEntries.lastKey+1) m.breakCode)):=
   .onlyIf (markEntryBreak_always (fun _ _=>rfl) _ _)
  have hedit:Always (Same rows) (recordEntryEdit env (db.timeEntries.lastKey+1) v.2 m.reasonCode m.editor):=
   recordEntryEdit_always (fun _ _=>rfl) env _ _ _ _
  refine (hbreak db₅).bind_of (fun _=>keeps_of_rows) fun _ db₆ h₆=>?_
  refine (hedit db₆).bind_of (fun _=>keeps_of_rows) fun _ db₇ h₇=>?_
  refine Follows.bind (supersede_keeps fun o ho e he hid=>?_) fun start db₈ _=>
   (repairPairing_keeps start db₈).bind fun _ _ _=>.pure _
  -- the table at the correction is the old one with the new row
  have hsame:db₇.timeEntries=db₅.timeEntries:=(Prod.mk.inj h₇).2.trans (Prod.mk.inj h₆).2
  obtain ⟨hmem,-,-,hstate⟩:=originalOf_ok (sourceOf_ok hof o ho)
  rw [hsame,(insert_ok hinsert).2] at he
  rcases Table.mem_put.mp he with rfl | ⟨he,-⟩
  · rfl
  · rw [Table.eq_of_key he hmem hid]
    exact hstate

/-- Whether a call succeeds or fails, the settled shifts and entries are as before. -/
theorem settled_rows_kept (env:Env) (db:Db) :
  (∀ device batch,Keeps db (applyBatch env device batch db).2) ∧
  (∀ m,Keeps db (recordManualEntry env m db).2) ∧
  ∀ employeeId fromUs,Keeps db (repairPairing env employeeId fromUs db).2 :=
 ⟨fun device batch=>applyBatch_keeps env device batch db,fun m=>recordManualEntry_keeps env m db,
  fun _ fromUs=>repairPairing_keeps fromUs db⟩

end Archivum.SettledRows
