import Archivum.Lifecycle

set_option autoImplicit false

/-!
# What the calls write

A relation between stores that a table is ignored by holds across every write
to it. Each function of the module follows every relation that ignores the
tables it writes.
-/
namespace Archivum.PunchlineFrames
open StatefulActions StatefulActions.Act PunchlineDb KeyedTables PunchlineData ExceptionQueue Payroll Sync

def Ignores {α:Type} [Keyed α] (T:Entity α) (R:Db → Db → Prop) : Prop := ∀ t db,R db (T.set t db)

def Grows {α:Type} [Keyed α] (T:Entity α) (R:Db → Db → Prop) : Prop :=
 ∀ a db,(T.get db).get? (key a)=none → R db (T.set ((T.get db).put a) db)

lemma Ignores.grows {α:Type} [Keyed α] {T:Entity α} {R:Db → Db → Prop} (h:Ignores T R) : Grows T R :=
 fun _ db _=>h _ db

section Writes
variable {α:Type} [Keyed α] {T:Entity α} {R:Db → Db → Prop} [IsPreorder Db R]

lemma insert_always (h:Grows T R) (a:α) : Always R (insert T a) :=
 fun db=>insert_follows (h a db)

lemma update_always (h:Ignores T R) (a:α) : Always R (update T a) :=
 fun db=>update_follows fun _ _=>h _ db

lemma remove_always (h:Ignores T R) (id:ℤ) : Always R (remove T id) :=
 fun db=>remove_follows fun _ _=>h _ db

end Writes

section Loops
variable {R:Db → Db → Prop} [IsPreorder Db R] {α:Type}

lemma forAll_always {f:α → PunchM Unit} {l:List α} (h:∀ a∈l,Always R (f a)) : Always R (forAll f l) := by
 induction l with
 | nil=>exact .pure ()
 | cons a l ih=>
  exact .bind (h a List.mem_cons_self) fun _=>ih fun b hb=>h b (List.mem_cons_of_mem a hb)

lemma forEachOpened_always {f:α → PunchM (List ℤ)} {l:List α} (h:∀ a∈l,Always R (f a)) : Always R (forEachOpened f l) := by
 induction l with
 | nil=>exact .pure []
 | cons a l ih=>
  exact .bind (h a List.mem_cons_self) fun _=>
   .bind (ih fun b hb=>h b (List.mem_cons_of_mem a hb)) fun _=>.pure _

lemma ofExcept_always (r:Except PageTxn.Status α) : Always R (ofExcept r) := by
 cases r with
 | ok a=>exact .pure a
 | error e=>exact .fail e

end Loops

variable {R:Db → Db → Prop} [IsPreorder Db R]

section Exceptions
variable (hx:Ignores exceptions R) (env:Env)
include hx

lemma openException_always (k:ExceptionKey) (detail:ByteStrings.Bytes) : Always R (openException env k detail) := by
 refine .bind (.reads _) fun existing=>?_
 cases existing with
 | nil=>exact .bind (.reads _) fun id=>.bind (insert_always hx.grows _) fun _=>.pure _
 | cons x rest=>exact .pure _

lemma closeException_always (id:ℤ) (state:ExceptionState) (by_:ByteStrings.Bytes) :
 Always R (closeException env id state by_) := by
 refine .bind (.reads _) fun found=>?_
 cases found with
 | none=>exact .fail _
 | some x=>exact .ite (.fail _) (update_always hx _)

lemma resolveMatching_always (k:ExceptionKey) (by_:ByteStrings.Bytes) : Always R (resolveMatching env k by_) :=
 .bind (.reads _) fun _=>.bind (forAll_always fun x _=>closeException_always hx env x.id _ _) fun _=>.pure _

lemma flag_always (k:ExceptionKey) (detail:ByteStrings.Bytes) : Always R (flag env k detail) :=
 .bind (openException_always hx env k detail) fun _=>.pure _

lemma flagUnpaired_always (employeeId:ℤ) (e:TimeEntry) (why:String) :
 Always R (flagUnpaired env employeeId e why) := flag_always hx env _ _

lemma checkSchedule_always (inEntry outEntry:TimeEntry) : Always R (checkSchedule env inEntry outEntry) := by
 unfold checkSchedule
 split
 · refine .bind (.reads _) fun found=>?_
   cases found with
   | none=>exact .pure _
   | some f=>exact flag_always hx env _ _
 · exact .pure _

lemma countDeviceAttested_always (employeeId periodId:ℤ) : Always R (countDeviceAttested env employeeId periodId) :=
 .bind (.reads _) fun _=>.ite (.pure _) (flag_always hx env _ _)

lemma resolvePairing_always (employeeId:ℤ) (p:ExceptionKind × ℤ) : Always R (resolvePairing env employeeId p) :=
 .ite (.pure _) (.bind (resolveMatching_always hx env _ _) fun _=>.pure _)

lemma resolveUnpaired_always (employeeId:ℤ) (e:TimeEntry) : Always R (resolveUnpaired env employeeId e) :=
 .bind (resolveMatching_always hx env _ _) fun _=>.pure _

lemma flagLong_always (employeeId:ℤ) (sh:Shift) : Always R (flagLong env employeeId sh) :=
 .ite (flag_always hx env _ _) (.pure _)

lemma resolveCorrected_always (employeeId:ℤ) (original:TimeEntry) (kind:ExceptionKind) :
 Always R (resolveCorrected env employeeId original kind) :=
 .bind (resolveMatching_always hx env _ _) fun _=>.bind (resolveMatching_always hx env _ _) fun _=>.pure _

lemma flagDivergence_always (device:Device) (divergence:Option ℤ) : Always R (flagDivergence env device divergence) := by
 cases divergence with
 | none=>exact .pure _
 | some us=>exact .ite (flag_always hx env _ _) (.pure _)

lemma settleZone_always (device:Device) (zone:ByteStrings.Bytes) (p:Progress) : Always R (settleZone env device zone p) :=
 .ite (flag_always hx env _ _) (.ite (.bind (resolveMatching_always hx env _ _) fun _=>.pure _) (.pure _))

lemma flagRejected_always (device:Device) (p:Progress) : Always R (flagRejected env device p) :=
 .ite (.pure _) (.bind (.reads _) fun _=>.ite (.pure _)
  (.bind (resolveMatching_always hx env _ _) fun _=>flag_always hx env _ _))

lemma takeReport_always (device:Device) (r:IncomingReport) : Always R (takeReport env device r) := by
 unfold takeReport
 cases reportKind r.kind with
 | none=>exact .fail _
 | some kind=>exact flag_always hx env _ _

lemma flagLate_always (row:TimeEntry) (late:Bool) : Always R (flagLate env row late) :=
 .ite (flag_always hx env _ _) (.pure _)

lemma flagLocked_always (row:TimeEntry) (period:Option PayPeriod) : Always R (flagLocked env row period) := by
 unfold flagLocked
 cases period.filter fun p=>p.state=.locked with
 | none=>exact .pure _
 | some p=>exact flag_always hx env _ _

end Exceptions

lemma evaluateHold_always (hh:Ignores timesheetHolds R) (env:Env) (employeeId periodId:ℤ) :
 Always R (evaluateHold env employeeId periodId) := by
 refine .bind (.reads _) fun db=>.ite (.pure _) ?_
 cases openHold db employeeId periodId with
 | none=>
  cases holdNeeded db env.cfg employeeId periodId with
  | true=>exact .bind (.reads _) fun _=>insert_always hh.grows _
  | false=>exact .pure _
 | some h=>
  cases holdNeeded db env.cfg employeeId periodId with
  | true=>exact .ite (.pure _) (update_always hh _)
  | false=>exact update_always hh _

lemma removeAnnotations_always (ha:Ignores shiftAnnotations R) (shiftId:ℤ) : Always R (removeAnnotations shiftId) :=
 .bind (.reads _) fun _=>forAll_always fun _ _=>remove_always ha _

lemma recordAnnotations_always (ha:Ignores shiftAnnotations R) (cfg:Config) (shift:Shift)
 (inEntry outEntry:TimeEntry) : Always R (recordAnnotations cfg shift inEntry outEntry) := by
 refine .bind (removeAnnotations_always ha _) fun _=>?_
 split
 · refine .bind (.reads _) fun day=>?_
   cases day with
   | none=>exact .pure _
   | some day=>exact forAll_always fun _ _=>.bind (.reads _) fun _=>insert_always ha.grows _
 · exact .pure _

lemma markEntryBreak_always (hb:Ignores entryBreakCodes R) (entryId:ℤ) (code:ByteStrings.Bytes) :
 Always R (markEntryBreak entryId code) :=
 .bind (.reads _) fun _=>.ite (.fail _) (insert_always hb.grows _)

lemma removeMeal_always (hm:Ignores mealBreaks R) (e:TimeEntry) : Always R (removeMeal e) :=
 .ite (.pure _) (.bind (.reads _) fun _=>forAll_always fun _ _=>remove_always hm _)

lemma rebuildMeal_always (hm:Ignores mealBreaks R) (employeeId:ℤ) (out:TimeEntry) (next:Option TimeEntry) :
 Always R (rebuildMeal employeeId out next) := by
 refine .ite (.pure _) (.bind (.reads _) fun mark=>?_)
 cases mark with
 | none=>exact .pure _
 | some mark=>
  cases LocalTimes.parseLocalTime out.localTime with
  | error e=>exact .pure _
  | ok lt=>exact .bind (.reads _) fun _=>.bind (.reads _) fun _=>insert_always hm.grows _

lemma rebuildMeals_always (hm:Ignores mealBreaks R) (employeeId fromUs:ℤ) : Always R (rebuildMeals employeeId fromUs) :=
 .bind (.reads _) fun _=>.bind (forAll_always fun e _=>removeMeal_always hm e) fun _=>
  forAll_always fun p _=>rebuildMeal_always hm employeeId p.1 p.2

lemma recordEntryEdit_always (he:Ignores entryEdits R) (env:Env) (entryId:ℤ) (cls:EditClass)
 (reasonCode editor:ByteStrings.Bytes) : Always R (recordEntryEdit env entryId cls reasonCode editor) :=
 .bind (.reads _) fun _=>insert_always he.grows _

section Pairing
variable (hx:Ignores exceptions R) (ha:Ignores shiftAnnotations R) (hs:Grows shifts R) (env:Env)
 (employeeId:ℤ)

include hs in
lemma storeShift_always (sh:Shift) : Always R (storeShift sh) :=
 .bind (.reads _) fun _=>.bind (insert_always hs _) fun _=>.pure _

include hx hs in
lemma persistOpen_always (interrupted:Bool) (current:Option (Shift × TimeEntry)) :
 Always R (persistOpen env employeeId interrupted current) := by
 cases current with
 | none=>exact .pure _
 | some c=>
  exact .bind (storeShift_always hs _) fun _=>.ite (flagUnpaired_always hx env _ _ _)
   (.ite (flagUnpaired_always hx env _ _ _) (.pure _))

include hx ha hs in
lemma closeShift_always (sh:Shift) (inEntry e:TimeEntry) : Always R (closeShift env employeeId sh inEntry e) :=
 .bind (storeShift_always hs _) fun _=>.bind (flagLong_always hx env _ _) fun _=>
  .bind (checkSchedule_always hx env _ _) fun _=>.bind (recordAnnotations_always ha _ _ _ _) fun _=>.pure _

include hx ha in
lemma dropShift_always (hs:Ignores shifts R) (sh:Shift) : Always R (dropShift env employeeId sh) :=
 .bind (forAll_always fun p _=>resolvePairing_always hx env _ p) fun _=>
  .bind (removeAnnotations_always ha _) fun _=>remove_always hs _

include hx ha hs in
lemma foldEntry_always (current:Option (Shift × TimeEntry)) (e:TimeEntry) :
 Always R (foldEntry env employeeId current e) := by
 have hflag:∀ why,Always R (flagUnpaired env employeeId e why):=flagUnpaired_always hx env _ _
 have hopen:=persistOpen_always hx hs env employeeId true
 unfold foldEntry
 split
 · exact .bind (hopen _) fun _=>.pure _
 · exact .bind (hflag _) fun _=>.pure _
 · exact .ite (.bind (closeShift_always hx ha hs env employeeId _ _ _) fun _=>.pure _)
    (.ite (.bind (hflag _) fun _=>.pure _) (.bind (hopen _) fun _=>.bind (hflag _) fun _=>.pure _))

include hx ha hs in
lemma foldEntries_always (entries:List TimeEntry) (current:Option (Shift × TimeEntry)) :
 Always R (foldEntries env employeeId entries current) := by
 induction entries generalizing current with
 | nil=>exact persistOpen_always hx hs env employeeId false current
 | cons e rest ih=>
  exact .bind (foldEntry_always hx ha hs env employeeId current e) fun c=>.bind (ih c.1) fun _=>.pure _

variable (hm:Ignores mealBreaks R) (hh:Ignores timesheetHolds R)

include hx ha hs hm hh in
lemma repairPairing_follows {fromUs:ℤ} {db:Db}
 (hdrop:∀ start affected,rebuildRange db employeeId (db.shifts.rows.length+2) fromUs=some (start,affected) →
  Follows R (forAll (dropShift env employeeId) affected) db) : Follows R (repairPairing env employeeId fromUs) db := by
 unfold repairPairing
 refine Follows.bind_reads ?_
 cases hrange:rebuildRange db employeeId (db.shifts.rows.length+2) fromUs with
 | none=>exact Follows.fail _
 | some r=>
  refine Follows.bind (hdrop r.1 r.2 hrange) fun _ db₁ _=>Follows.bind_reads ?_
  refine Always.bind (forAll_always fun e _=>resolveUnpaired_always hx env employeeId e) (fun _=>?_) db₁
  exact .bind (foldEntries_always hx ha hs env employeeId _ _) fun _=>.bind (rebuildMeals_always hm _ _) fun _=>
   .bind (forAll_always fun p _=>evaluateHold_always hh env employeeId p) fun _=>.pure _

include hx ha hm hh in
lemma repairPairing_always (hs:Ignores shifts R) (fromUs:ℤ) : Always R (repairPairing env employeeId fromUs) :=
 fun _=>repairPairing_follows hx ha hs.grows env employeeId hm hh fun _ affected _=>
  forAll_always (fun sh _=>dropShift_always hx ha env employeeId hs sh) _

end Pairing

section Calls
variable (hx:Ignores exceptions R) (ha:Ignores shiftAnnotations R) (hm:Ignores mealBreaks R)
 (hh:Ignores timesheetHolds R) (hb:Ignores entryBreakCodes R) (ht:Grows timeEntries R)

include hx hb ht in
lemma storeEntry_always (env:Env) (device:Device) (zone:ByteStrings.Bytes) (batch:IncomingBatch)
 (divergence:Option ℤ) (e:IncomingEntry) (lt:LocalTimes.LocalTime) (p:Progress) :
 Always R (storeEntry env device zone batch divergence e lt p) :=
 .bind (.reads _) fun _=>.bind (.reads _) fun _=>.bind (.reads _) fun _=>.bind (ofExcept_always _) fun _=>
  .bind (.reads _) fun _=>.bind (insert_always ht _) fun _=>
  .bind (.onlyIf (markEntryBreak_always hb _ _)) fun _=>.bind (flagLate_always hx env _ _) fun _=>
  .bind (flagLocked_always hx env _ _) fun _=>.pure _

include hx hb ht in
lemma takeEntry_always (env:Env) (device:Device) (zone:ByteStrings.Bytes) (batch:IncomingBatch)
 (divergence:Option ℤ) (p:Progress) (e:IncomingEntry) : Always R (takeEntry env device zone batch divergence p e) := by
 refine .bind (.reads _) fun verdict=>?_
 cases verdict with
 | repeated=>exact .pure _
 | replayed=>exact .pure _
 | foreign=>exact .pure _
 | refused why=>exact .pure _
 | fresh lt=>exact storeEntry_always hx hb ht env device zone batch divergence e lt _

include hx hb ht in
lemma takeEntries_always (env:Env) (device:Device) (zone:ByteStrings.Bytes) (batch:IncomingBatch)
 (divergence:Option ℤ) (entries:List IncomingEntry) (p:Progress) :
 Always R (takeEntries env device zone batch divergence entries p) := by
 induction entries generalizing p with
 | nil=>exact .pure _
 | cons e rest ih=>exact .bind (takeEntry_always hx hb ht env device zone batch divergence p e) fun p=>ih p

lemma recordBatch_always (hy:Ignores syncBatches R) (env:Env) (device:Device) (batch:IncomingBatch)
 (divergence:Option ℤ) (p:Progress) (seen:Option SyncBatch) : Always R (recordBatch env device batch divergence p seen) := by
 cases seen with
 | none=>exact .bind (.reads _) fun _=>insert_always hy.grows _
 | some b=>exact update_always hy _

include hx in
lemma settleNew_always (env:Env) (device:Device) (p:Progress)
 (hrepair:∀ employeeId fromUs,Always R (repairPairing env employeeId fromUs)) : Always R (settleNew env device p) := by
 have hcount:∀ ids,Always R (forEachOpened (countDeviceAttested env device.employeeId) ids):=fun ids=>
  forEachOpened_always fun id _=>countDeviceAttested_always hx env _ id
 unfold settleNew
 split
 · exact .bind (.pure _) fun _=>.bind (hcount _) fun _=>.pure _
 · exact .bind (hrepair _ _) fun _=>.bind (hcount _) fun _=>.pure _

include hx hb ht in
lemma applyBatch_always (hd:Ignores devices R) (hy:Ignores syncBatches R) (env:Env) (device:Device)
 (batch:IncomingBatch) (hrepair:∀ employeeId fromUs,Always R (repairPairing env employeeId fromUs)) :
 Always R (applyBatch env device batch) := by
 refine .ite (.fail _) (.bind (.reads _) fun _=>.bind (.reads _) fun employee=>?_)
 cases employee with
 | none=>exact .fail _
 | some employee=>
  exact .bind (flagDivergence_always hx env _ _) fun _=>
   .bind (takeEntries_always hx hb ht env device _ batch _ _ _) fun _=>
   .bind (settleNew_always hx env device _ hrepair) fun _=>.bind (settleZone_always hx env _ _ _) fun _=>
   .bind (flagRejected_always hx env _ _) fun _=>
   .bind (forEachOpened_always fun r _=>takeReport_always hx env device r) fun _=>
   .bind (update_always hd _) fun _=>.bind (resolveMatching_always hx env _ _) fun _=>
   .bind (recordBatch_always hy env device batch _ _ _) fun _=>.pure _

end Calls

end Archivum.PunchlineFrames
