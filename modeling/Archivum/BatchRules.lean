import Archivum.ExceptionRules

set_option autoImplicit false

/-!
# The loop over the entries of a batch

What the loop stores, what it reports, and what a second run over the same
entries finds.
-/
namespace Archivum.BatchRules
open ByteStrings StatefulActions StatefulActions.Act RecordModel LocalTimes KeyedTables PunchlineData PunchlineDb List
open PunchlineFrames ExceptionQueue Payroll Sync Lifecycle

def core (p:Progress) : Progress := { p with opened:=[],earliestNew:=0,periodsTouched:=[],settled:=[] }

def report (p:Progress) (e:IncomingEntry) : Verdict → Progress
 | .repeated=>p.accept e
 | .replayed=>(p.see e).accept e
 | .foreign=>(p.see e).reject e (ascii "entry uuid belongs to another device")
 | .refused why=>p.reject e why
 | .fresh _=>(p.see e).accept e

lemma inBatch_noteZone (p:Progress) (zone:Bytes) (e:IncomingEntry) : (p.noteZone zone e).inBatch=p.inBatch := by
 unfold Progress.noteZone
 split
 · rfl
 · split
   · rfl
   · rfl

lemma outcomes_noteZone (p:Progress) (zone:Bytes) (e:IncomingEntry) : (p.noteZone zone e).outcomes=p.outcomes := by
 unfold Progress.noteZone
 split
 · rfl
 · split
   · rfl
   · rfl

structure RowOf (device:Device) (journalId:UuidBytes) (e:IncomingEntry) (row:TimeEntry) : Prop where
 uuid : row.entryUuid=e.entryUuid
 device : row.deviceId=device.id
 journal : row.journalId=some journalId
 sequence : row.journalSequence=e.journalSequence

section Loop
variable {env:Env} {device:Device} {zone:Bytes} {batch:IncomingBatch} {divergence:Option ℤ}
 {db db':Db} {p p':Progress} {e:IncomingEntry}

structure Stored (env:Env) (device:Device) (zone:Bytes) (batch:IncomingBatch) (divergence:Option ℤ)
  (e:IncomingEntry) (lt:LocalTime) (p p':Progress) (db db':Db) : Prop where
 valid : entryPeriodValid db lt.localDay (openPeriodOf (db.periodForDay lt.localDay))=.ok ()
 row : db'.timeEntries=db.timeEntries.put (entryOf env device zone batch divergence e (db.timeEntries.lastKey+1)
  (openPeriodOf (db.periodForDay lt.localDay)))
 report : core p'=core ((p.see e).accept e)
 earliest : p'.earliestNew =
  if p.earliestNew=0 ∨ e.deviceTimeUs<p.earliestNew then e.deviceTimeUs else p.earliestNew
 marks : ∀ id,id≠db.timeEntries.lastKey+1 → db'.entryBreakCodes.get? id=db.entryBreakCodes.get? id

lemma markEntryBreak_ok {entryId:ℤ} {code:Bytes} (hrun:markEntryBreak entryId code db=(.ok (),db')) (id:ℤ)
 (hid:id≠entryId) : db'.entryBreakCodes.get? id=db.entryBreakCodes.get? id := by
 unfold markEntryBreak at hrun
 rw [bind_reads] at hrun
 split at hrun
 · cases hrun
 · rw [(insert_ok hrun).2]
   exact Table.get?_put_of_ne hid

lemma storeEntry_stored {lt:LocalTime} (hrun:storeEntry env device zone batch divergence e lt p db=(.ok p',db')) :
 Stored env device zone batch divergence e lt p p' db db' := by
 obtain ⟨period,_,hread,hrun⟩:=bind_ok_inv hrun
 cases hread
 obtain ⟨next,_,hread,hrun⟩:=bind_ok_inv hrun
 cases hread
 obtain ⟨valid,_,hread,hrun⟩:=bind_ok_inv hrun
 cases hread
 obtain ⟨_,db₁,hvalid,hrun⟩:=bind_ok_inv hrun
 obtain ⟨hperiod,rfl⟩:=ofExcept_ok hvalid
 obtain ⟨late,_,hread,hrun⟩:=bind_ok_inv hrun
 cases hread
 obtain ⟨_,db₂,hinsert,hrun⟩:=bind_ok_inv hrun
 obtain ⟨_,db₃,hbreak,hrun⟩:=bind_ok_inv hrun
 obtain ⟨_,db₄,hlate,hrun⟩:=bind_ok_inv hrun
 obtain ⟨_,db₅,hlocked,hrun⟩:=bind_ok_inv hrun
 have hrest:Same Db.timeEntries db₂ db₅:=
  trans_of _ ((Always.onlyIf (markEntryBreak_always (fun _ _=>rfl) _ _)).ok hbreak)
   (trans_of _ ((flagLate_always (fun _ _=>rfl) env _ _).ok hlate) ((flagLocked_always (fun _ _=>rfl) env _ _).ok hlocked))
 have hflags:Same Db.entryBreakCodes db₃ db₅:=
  trans_of _ ((flagLate_always (fun _ _=>rfl) env _ _).ok hlate) ((flagLocked_always (fun _ _=>rfl) env _ _).ok hlocked)
 cases hrun
 refine ⟨hperiod,?_,?_,?_,fun id hid=>?_⟩
 · rw [hrest,(insert_ok hinsert).2]
   rfl
 · split
   · rfl
   · rfl
 · split
   · rfl
   · rfl
 · have hinserted:db₂.entryBreakCodes=db.entryBreakCodes:=by
    rw [(insert_ok hinsert).2]
    rfl
   rw [hflags,← hinserted]
   unfold Act.onlyIf at hbreak
   split at hbreak
   · exact markEntryBreak_ok hbreak id hid
   · cases hbreak
     rfl

lemma storeEntry_ok {lt:LocalTime} (hrun:storeEntry env device zone batch divergence e lt p db=(.ok p',db')) :
 (∃ row,RowOf device batch.journalId e row ∧ db'.timeEntries.rows=db.timeEntries.rows++[row]) ∧
  core p'=core ((p.see e).accept e) := by
 have hstored:=storeEntry_stored hrun
 refine ⟨⟨entryOf env device zone batch divergence e (db.timeEntries.lastKey+1)
  (openPeriodOf (db.periodForDay lt.localDay)),⟨rfl,rfl,rfl,rfl⟩,?_⟩,hstored.report⟩
 rw [hstored.row]
 exact Table.rows_put_of_lastKey fun b hb=>Int.lt_add_one_of_le (Table.key_le_lastKey hb)

lemma takeEntry_ok (hrun:takeEntry env device zone batch divergence p e db=(.ok p',db')) :
 core p'=core (report (p.noteZone zone e) e (judge db env device batch.journalId p.inBatch e)) ∧
  ((∃ lt row,judge db env device batch.journalId p.inBatch e=.fresh lt ∧ RowOf device batch.journalId e row ∧
    db'.timeEntries.rows=db.timeEntries.rows++[row]) ∨
   (∀ lt,judge db env device batch.journalId p.inBatch e≠.fresh lt) ∧ db'=db ∧
    p'=report (p.noteZone zone e) e (judge db env device batch.journalId p.inBatch e)) := by
 unfold takeEntry at hrun
 rw [bind_reads,inBatch_noteZone] at hrun
 cases hv:judge db env device batch.journalId p.inBatch e with
 | fresh lt=>
  rw [hv] at hrun
  obtain ⟨⟨row,hrow,hrows⟩,hcore⟩:=storeEntry_ok hrun
  exact ⟨hcore,.inl ⟨lt,row,rfl,hrow,hrows⟩⟩
 | repeated=>
  rw [hv] at hrun
  cases hrun
  exact ⟨rfl,.inr ⟨nofun,rfl,rfl⟩⟩
 | replayed=>
  rw [hv] at hrun
  cases hrun
  exact ⟨rfl,.inr ⟨nofun,rfl,rfl⟩⟩
 | foreign=>
  rw [hv] at hrun
  cases hrun
  exact ⟨rfl,.inr ⟨nofun,rfl,rfl⟩⟩
 | refused why=>
  rw [hv] at hrun
  cases hrun
  exact ⟨rfl,.inr ⟨nofun,rfl,rfl⟩⟩

lemma takeEntry_of_not_fresh (hv:∀ lt,judge db env device batch.journalId p.inBatch e≠.fresh lt) :
 takeEntry env device zone batch divergence p e db =
  (.ok (report (p.noteZone zone e) e (judge db env device batch.journalId p.inBatch e)),db) := by
 unfold takeEntry
 rw [bind_reads,inBatch_noteZone]
 cases h:judge db env device batch.journalId p.inBatch e with
 | fresh lt=>exact absurd h (hv lt)
 | repeated=>rfl
 | replayed=>rfl
 | foreign=>rfl
 | refused why=>rfl

lemma judge_of_seen {inBatch:List UuidBytes} (h:e.entryUuid∈inBatch) :
 judge db env device batch.journalId inBatch e=.repeated := if_pos h

lemma judge_of_found {inBatch:List UuidBytes} {old:TimeEntry} (h:e.entryUuid ∉ inBatch)
 (hold:db.entryByUuid e.entryUuid=some old) :
 judge db env device batch.journalId inBatch e=if old.deviceId≠device.id then .foreign else .replayed := by
 unfold judge
 rw [if_neg h,hold]

lemma judge_of_new {inBatch:List UuidBytes} (h:e.entryUuid ∉ inBatch) (hnew:db.entryByUuid e.entryUuid=none) :
 judge db env device batch.journalId inBatch e=judgeNew db env device batch.journalId e := by
 unfold judge
 rw [if_neg h,hnew]

lemma judgeNew_cases (db:Db) (env:Env) (device:Device) (journalId:UuidBytes) (e:IncomingEntry) :
 (∃ why,judgeNew db env device journalId e=.refused why) ∨ ∃ lt,judgeNew db env device journalId e=.fresh lt := by
 unfold judgeNew
 cases validateIncoming e with
 | error s=>exact .inl ⟨_,rfl⟩
 | ok lt=>
  dsimp only
  split
  · exact .inl ⟨_,rfl⟩
  · split
    · exact .inl ⟨_,rfl⟩
    · split
      · exact .inl ⟨_,rfl⟩
      · cases deviceAttestedValid db device.id env.now with
        | some why=>exact .inl ⟨_,rfl⟩
        | none=>exact .inr ⟨lt,rfl⟩

lemma validateIncoming_ok {e:IncomingEntry} {lt:LocalTime} (h:validateIncoming e=.ok lt) :
 (e.kind=ascii "in" ∨ e.kind=ascii "out") ∧ 0<e.deviceTimeUs ∧ 0≤e.journalSequence ∧
  parseLocalTime e.localTime=.ok lt ∧ (e.breakCode≠[] → e.kind=ascii "out") := by
 unfold validateIncoming at h
 obtain ⟨hkind,h⟩:=guard_ok h
 obtain ⟨htime,h⟩:=guard_ok h
 obtain ⟨hsequence,h⟩:=guard_ok h
 obtain ⟨lt',hparse,h⟩:=bind_ok_cases h
 obtain ⟨-,h⟩:=guard_ok h
 obtain ⟨-,h⟩:=guard_ok h
 obtain ⟨-,h⟩:=guard_ok h
 obtain ⟨-,h⟩:=guard_ok h
 obtain ⟨-,h⟩:=guard_ok h
 obtain ⟨hbreak,h⟩:=guard_ok h
 cases h
 refine ⟨by tauto,not_le.mp htime,not_lt.mp hsequence,hparse,by tauto⟩

lemma validateIncoming_of_fresh {device:Device} {journalId:UuidBytes} {e:IncomingEntry} {lt:LocalTime}
 (h:judgeNew db env device journalId e=.fresh lt) : validateIncoming e=.ok lt := by
 unfold judgeNew at h
 cases hvalid:validateIncoming e with
 | error s=>
  rw [hvalid] at h
  cases h
 | ok lt'=>
  rw [hvalid] at h
  dsimp only at h
  split at h
  · cases h
  · split at h
    · cases h
    · split at h
      · cases h
      · split at h
        · cases h
        · cases h
          rfl

lemma validateManual_ok {m:ManualEntry} {lt:LocalTime} {cls:EditClass} (h:validateManual m=.ok (lt,cls)) :
 0 < m.deviceTimeUs ∧ parseLocalTime m.localTime=.ok lt := by
 unfold validateManual at h
 obtain ⟨-,h⟩:=guard_ok h
 obtain ⟨htime,h⟩:=guard_ok h
 obtain ⟨lt',hparse,h⟩:=bind_ok_cases h
 obtain ⟨-,h⟩:=guard_ok h
 dsimp only at h
 split at h
 · cases h
 · obtain ⟨-,h⟩:=guard_ok h
   obtain ⟨-,h⟩:=guard_ok h
   obtain ⟨-,h⟩:=guard_ok h
   cases h
   exact ⟨not_le.mp htime,hparse⟩

lemma judgeNew_of_fresh {inBatch:List UuidBytes} {lt:LocalTime}
 (hv:judge db env device batch.journalId inBatch e=.fresh lt) : judgeNew db env device batch.journalId e=.fresh lt := by
 by_cases hseen:e.entryUuid∈inBatch
 · rw [judge_of_seen hseen] at hv
   cases hv
 · cases hfound:db.entryByUuid e.entryUuid with
   | none=>rwa [judge_of_new hseen hfound] at hv
   | some old=>
    rw [judge_of_found hseen hfound] at hv
    split at hv
    · cases hv
    · cases hv

def HasEntry (db:Db) (deviceId:ℤ) (uuid:UuidBytes) : Prop :=
 ∃ row∈db.timeEntries,row.entryUuid=uuid ∧ row.deviceId=deviceId

def NoForeignTwice (db:Db) (deviceId:ℤ) (entries:List IncomingEntry) : Prop :=
 ∀ old∈db.timeEntries,old.deviceId≠deviceId → (entries.map IncomingEntry.entryUuid).count old.entryUuid ≤ 1

/-- What holds along the loop: what was accepted is stored, and what was seen is stored or does not come again. -/
structure Sound (deviceId:ℤ) (entries:List IncomingEntry) (p:Progress) (db:Db) : Prop where
 accepted : ∀ o∈p.outcomes,o.accepted=true → HasEntry db deviceId o.entryUuid
 seen : ∀ u∈p.inBatch,HasEntry db deviceId u ∨ u ∉ entries.map IncomingEntry.entryUuid
 foreign : NoForeignTwice db deviceId entries

lemma Sound.tail {deviceId:ℤ} {rest:List IncomingEntry} (h:Sound deviceId (e::rest) p db) : Sound deviceId rest p db := by
 refine ⟨h.accepted,fun u hu=>(h.seen u hu).imp_right fun hnot hmem=>hnot (mem_cons_of_mem _ hmem),?_⟩
 intro old hold hne
 exact count_le_count_cons.trans (h.foreign old hold hne)

lemma Sound.congr {deviceId:ℤ} {entries:List IncomingEntry} (h:Sound deviceId entries p db)
 (houtcomes:p'.outcomes=p.outcomes) (hseen:p'.inBatch=p.inBatch) : Sound deviceId entries p' db :=
 ⟨by rw [houtcomes]; exact h.accepted,by rw [hseen]; exact h.seen,h.foreign⟩

lemma Sound.accept {deviceId:ℤ} {entries:List IncomingEntry} (h:Sound deviceId entries p db)
 (he:HasEntry db deviceId e.entryUuid) : Sound deviceId entries (p.accept e) db := by
 refine ⟨fun o ho hacc=>?_,h.seen,h.foreign⟩
 rcases mem_append.mp ho with ho | ho
 · exact h.accepted o ho hacc
 · obtain rfl:=mem_singleton.mp ho
   exact he

lemma Sound.reject {deviceId:ℤ} {entries:List IncomingEntry} (h:Sound deviceId entries p db) (why:Bytes) :
 Sound deviceId entries (p.reject e why) db := by
 refine ⟨fun o ho hacc=>?_,h.seen,h.foreign⟩
 rcases mem_append.mp ho with ho | ho
 · exact h.accepted o ho hacc
 · obtain rfl:=mem_singleton.mp ho
   cases hacc

lemma Sound.see {deviceId:ℤ} {entries:List IncomingEntry} (h:Sound deviceId entries p db)
 (he:HasEntry db deviceId e.entryUuid ∨ e.entryUuid ∉ entries.map IncomingEntry.entryUuid) :
 Sound deviceId entries (p.see e) db := by
 refine ⟨h.accepted,fun u hu=>?_,h.foreign⟩
 rcases mem_cons.mp hu with rfl | hu
 · exact he
 · exact h.seen u hu

lemma Sound.grow {deviceId:ℤ} {entries:List IncomingEntry} (h:Sound deviceId entries p db) {row:TimeEntry}
 (hrows:db'.timeEntries.rows=db.timeEntries.rows++[row]) (hrow:row.deviceId=deviceId) : Sound deviceId entries p db' := by
 have hmem:∀ r,r∈db'.timeEntries ↔ r∈db.timeEntries ∨ r=row:=by
  intro r
  rw [← Table.mem_rows,hrows,mem_append,mem_singleton,Table.mem_rows]
 have hkeep:∀ u,HasEntry db deviceId u → HasEntry db' deviceId u:=by
  rintro u ⟨r,hr,h⟩
  exact ⟨r,(hmem r).mpr (.inl hr),h⟩
 refine ⟨fun o ho hacc=>hkeep _ (h.accepted o ho hacc),fun u hu=>(h.seen u hu).imp_left (hkeep u),?_⟩
 intro old hold hne
 rcases (hmem old).mp hold with hold | rfl
 · exact h.foreign old hold hne
 · exact absurd hrow hne

lemma entryByUuid_some {uuid:UuidBytes} {old:TimeEntry} (h:db.entryByUuid uuid=some old) :
 old∈db.timeEntries ∧ old.entryUuid=uuid := by
 unfold Db.entryByUuid at h
 have huuid:=find?_some h
 exact ⟨Table.mem_rows.mp (mem_of_find?_eq_some h),of_decide_eq_true huuid⟩

lemma takeEntry_sound {rest:List IncomingEntry} (h:Sound device.id (e::rest) p db)
 (hrun:takeEntry env device zone batch divergence p e db=(.ok p',db')) : Sound device.id rest p' db' := by
 have hnoted:Sound device.id rest (p.noteZone zone e) db:=
  h.tail.congr (outcomes_noteZone p zone e) (inBatch_noteZone p zone e)
 obtain ⟨hcore,hstored⟩:=takeEntry_ok hrun
 have hfrom:∀ q,Sound device.id rest q db' → core p'=core q → Sound device.id rest p' db':=by
  intro q hq heq
  have houtcomes:(core p').outcomes=(core q).outcomes:=by rw [heq]
  have hseen:(core p').inBatch=(core q).inBatch:=by rw [heq]
  exact hq.congr houtcomes hseen
 rcases hstored with ⟨lt,row,hv,hrow,hrows⟩ | ⟨hv,rfl,-⟩
 · rw [hv] at hcore
   have hhas:HasEntry db' device.id e.entryUuid:=by
    refine ⟨row,Table.mem_rows.mp ?_,hrow.uuid,hrow.device⟩
    rw [hrows]
    exact mem_append_right _ mem_cons_self
   exact hfrom _ (((hnoted.grow hrows hrow.device).see (.inl hhas)).accept hhas) hcore
 · refine hfrom _ ?_ hcore
   by_cases hseen:e.entryUuid∈p.inBatch
   · rw [judge_of_seen hseen]
     have hhas:=(h.seen _ hseen).resolve_right fun hnot=>hnot mem_cons_self
     exact hnoted.accept hhas
   · cases hfound:db'.entryByUuid e.entryUuid with
     | none=>
      rw [judge_of_new hseen hfound] at hv ⊢
      rcases judgeNew_cases db' env device batch.journalId e with ⟨why,hwhy⟩ | ⟨lt,hlt⟩
      · rw [hwhy]
        exact hnoted.reject why
      · exact absurd hlt (hv lt)
     | some old=>
      rw [judge_of_found hseen hfound]
      obtain ⟨hold,huuid⟩:=entryByUuid_some hfound
      split
      · rename_i hne
        -- the uuid of another device's entry does not come again
        have hcount:=h.foreign old hold hne
        rw [huuid,map_cons,count_cons_self] at hcount
        have hnot:e.entryUuid ∉ rest.map IncomingEntry.entryUuid:=count_eq_zero.mp (by omega)
        exact (hnoted.see (.inr hnot)).reject _
      · rename_i hne
        have hhas:HasEntry db' device.id e.entryUuid:=⟨old,hold,huuid,not_not.mp hne⟩
        exact (hnoted.see (.inl hhas)).accept hhas

lemma takeEntries_sound {entries:List IncomingEntry} (h:Sound device.id entries p db)
 (hrun:takeEntries env device zone batch divergence entries p db=(.ok p',db')) : Sound device.id [] p' db' := by
 induction entries generalizing p db with
 | nil=>
  cases hrun
  exact h
 | cons e rest ih=>
  obtain ⟨p₁,db₁,htake,hrun⟩:=bind_ok_inv hrun
  exact ih (takeEntry_sound h htake) hrun

end Loop

/-- The parts of a batch that was applied: the store after each of them. -/
structure Applied (env:Env) (device:Device) (batch:IncomingBatch) (db:Db) (employee:Employee)
  (diverged:List ℤ) (p:Progress) (db₁ db₂ db₃ db₄ db₅ db₆ db₇ db₈ db':Db) : Prop where
 size : (batch.entries.length:ℤ) ≤ env.cfg.maxBatchEntries
 found : db.employeeById device.employeeId=some employee
 divergence : flagDivergence env device (divergenceOf env batch) db=(.ok diverged,db₁)
 taken : takeEntries env device employee.siteZone batch (divergenceOf env batch) (inJournalOrder batch)
  { opened:=diverged } db₁=(.ok p,db₂)
 settled : ∃ ids,settleNew env device p db₂=(.ok ids,db₃)
 zoned : ∃ ids,settleZone env device employee.siteZone p db₃=(.ok ids,db₄)
 refused : ∃ ids,flagRejected env device p db₄=(.ok ids,db₅)
 reported : ∃ ids,forEachOpened (takeReport env device) batch.reports db₅=(.ok ids,db₆)
 heard : update devices (heardFrom env device batch p.acked) db₆=(.ok (),db₇)
 stale : ∃ n,resolveMatching env (aboutDevice device .deviceStale) (ascii "sync") db₇=(.ok n,db₈)
 recorded : recordBatch env device batch (divergenceOf env batch) p (db.batchByUuid batch.batchUuid) db₈ =
  (.ok (),db')

section Call
variable {env:Env} {device:Device} {batch:IncomingBatch} {employee:Employee} {diverged:List ℤ} {p:Progress}
 {db db₁ db₂ db₃ db₄ db₅ db₆ db₇ db₈ db':Db} {out:SyncOutcome}

lemma applyBatch_ok (hrun:applyBatch env device batch db=(.ok out,db')) :
 ∃ employee diverged p db₁ db₂ db₃ db₄ db₅ db₆ db₇ db₈,
  Applied env device batch db employee diverged p db₁ db₂ db₃ db₄ db₅ db₆ db₇ db₈ db' ∧ out.outcomes=p.outcomes := by
 unfold applyBatch at hrun
 split at hrun
 · cases hrun
 · rename_i hsize
   rw [bind_reads,bind_reads] at hrun
   cases hemployee:db.employeeById device.employeeId with
   | none=>
    rw [hemployee] at hrun
    cases hrun
   | some employee=>
    rw [hemployee] at hrun
    obtain ⟨diverged,db₁,hdiverged,hrun⟩:=bind_ok_inv hrun
    obtain ⟨p,db₂,htaken,hrun⟩:=bind_ok_inv hrun
    obtain ⟨ids₃,db₃,hsettled,hrun⟩:=bind_ok_inv hrun
    obtain ⟨ids₄,db₄,hzoned,hrun⟩:=bind_ok_inv hrun
    obtain ⟨ids₅,db₅,hrefused,hrun⟩:=bind_ok_inv hrun
    obtain ⟨ids₆,db₆,hreported,hrun⟩:=bind_ok_inv hrun
    obtain ⟨_,db₇,hheard,hrun⟩:=bind_ok_inv hrun
    obtain ⟨n,db₈,hstale,hrun⟩:=bind_ok_inv hrun
    obtain ⟨_,db₉,hrecorded,hrun⟩:=bind_ok_inv hrun
    cases hrun
    exact ⟨employee,diverged,p,db₁,db₂,db₃,db₄,db₅,db₆,db₇,db₈,
     ⟨not_lt.mp hsize,hemployee,hdiverged,htaken,⟨ids₃,hsettled⟩,⟨ids₄,hzoned⟩,⟨ids₅,hrefused⟩,
      ⟨ids₆,hreported⟩,hheard,⟨n,hstale⟩,hrecorded⟩,rfl⟩

variable (h:Applied env device batch db employee diverged p db₁ db₂ db₃ db₄ db₅ db₆ db₇ db₈ db')
include h

lemma Applied.entries : db'.timeEntries=db₂.timeEntries := by
 obtain ⟨ids₃,hsettled⟩:=h.settled
 obtain ⟨ids₄,hzoned⟩:=h.zoned
 obtain ⟨ids₅,hrefused⟩:=h.refused
 obtain ⟨ids₆,hreported⟩:=h.reported
 obtain ⟨n,hstale⟩:=h.stale
 have hx:Ignores exceptions (Same Db.timeEntries):=fun _ _=>rfl
 have hrepair:∀ employeeId fromUs,Always (Same Db.timeEntries) (repairPairing env employeeId fromUs):=
  fun _ _=>repairPairing_always hx (fun _ _=>rfl) env _ (fun _ _=>rfl) (fun _ _=>rfl) (fun _ _=>rfl) _
 have h₃:Same Db.timeEntries db₂ db₃:=(settleNew_always hx env device p hrepair).ok hsettled
 have h₄:Same Db.timeEntries db₃ db₄:=(settleZone_always hx env device _ p).ok hzoned
 have h₅:Same Db.timeEntries db₄ db₅:=(flagRejected_always hx env device p).ok hrefused
 have h₆:Same Db.timeEntries db₅ db₆:=
  (forEachOpened_always fun r _=>takeReport_always hx env device r).ok hreported
 have h₇:Same Db.timeEntries db₆ db₇:=(update_always (fun _ _=>rfl) _).ok h.heard
 have h₈:Same Db.timeEntries db₇ db₈:=(resolveMatching_always hx env _ _).ok hstale
 have h₉:Same Db.timeEntries db₈ db':=(recordBatch_always (fun _ _=>rfl) env device batch _ p _).ok h.recorded
 exact h₉.trans (h₈.trans (h₇.trans (h₆.trans (h₅.trans (h₄.trans h₃)))))

end Call

def otherTablet : Db :=
 after (serve {} (ascii "2024a"))
  [(1709300000000000,.sync 2 (exampleBatch 1 [examplePunch 1 "in" 1709190000000000 "2024-02-29T07:00:00"]))]
  { exampleSite with
    devices:=⟨[{ id:=1,name:=ascii "tablet",employeeId:=1 },
      { id:=2,name:=ascii "phone",employeeId:=1 }],pairwise_pair.mpr (show (1:ℤ)<2 by decide)⟩ }

lemma otherTablet_reached : Reached {} (ascii "2024a") otherTablet := ⟨_,_,by decide,rfl⟩

def batchEnv : Env := { auditId:=1,release:=ascii "2024a",now:=1709300001000000 }

def tablet : Device := { id:=1,name:=ascii "tablet",employeeId:=1 }

def ownPunches : IncomingBatch :=
 exampleBatch 2 [examplePunch 1 "in" 1709190000000000 "2024-02-29T07:00:00",
  examplePunch 2 "out" 1709218800000000 "2024-02-29T15:00:00"]

def accepted? (run:Except PageTxn.Status SyncOutcome × Db) : Except PageTxn.Status (List (UuidBytes × Bool)) :=
 run.1.map fun out=>out.outcomes.map fun o=>(o.entryUuid,o.accepted)

lemma accepted?_ok {run:Except PageTxn.Status SyncOutcome × Db} {l:List (UuidBytes × Bool)}
 (h:accepted? run=.ok l) : ∃ out,run=(.ok out,run.2) ∧ (out.outcomes.map fun o=>(o.entryUuid,o.accepted))=l := by
 rcases run with ⟨_ | out,db⟩
 · cases h
 · exact ⟨out,rfl,Except.ok.inj h⟩

end Archivum.BatchRules
