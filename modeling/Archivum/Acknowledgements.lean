import Archivum.BatchRules

set_option autoImplicit false

/-!
# What a device's row acknowledges

The row of a device has the journal of its last batch and the highest sequence
that was accepted from it, under whichever journal.
-/
namespace Archivum.Acknowledgements
open ByteStrings StatefulActions StatefulActions.Act RecordModel LocalTimes KeyedTables PunchlineData PunchlineDb List
open PunchlineFrames ExceptionQueue Payroll Sync Lifecycle BatchRules

def acceptedOf (outcomes:List EntryOutcome) : List ℤ :=
 (outcomes.filter EntryOutcome.accepted).map EntryOutcome.journalSequence

lemma acceptedOf_append (o o':List EntryOutcome) : acceptedOf (o++o')=acceptedOf o++acceptedOf o' := by
 unfold acceptedOf
 rw [filter_append,map_append]

def Counted (p:Progress) : Prop := p.acked=acceptedOf p.outcomes

section Entries
variable {env:Env} {device:Device} {zone:Bytes} {batch:IncomingBatch} {divergence:Option ℤ} {db db':Db}
 {p p':Progress} {e:IncomingEntry}

lemma acked_of_core (hcore:core p'=core p) : p'.acked=p.acked := by
 have hacked:(core p').acked=(core p).acked:=congrArg Progress.acked hcore
 exact hacked

lemma acked_noteZone : (p.noteZone zone e).acked=p.acked := by
 unfold Progress.noteZone
 split
 · rfl
 · split
   · rfl
   · rfl

lemma Counted.of_core (h:Counted p) (hcore:core p'=core p) : Counted p' := by
 have houtcomes:(core p').outcomes=(core p).outcomes:=congrArg Progress.outcomes hcore
 change p'.outcomes=p.outcomes at houtcomes
 unfold Counted
 rw [acked_of_core hcore,houtcomes]
 exact h

lemma Counted.noteZone (h:Counted p) : Counted (p.noteZone zone e) := by
 unfold Progress.noteZone
 split
 · exact h
 · split
   · exact h
   · exact h

lemma Counted.accept (h:Counted p) : Counted (p.accept e) := by
 show p.acked++[e.journalSequence]=acceptedOf (p.outcomes++_)
 rw [acceptedOf_append,h]
 rfl

lemma Counted.reject (h:Counted p) (why:Bytes) : Counted (p.reject e why) := by
 show p.acked=acceptedOf (p.outcomes++_)
 rw [acceptedOf_append,h]
 exact (append_nil _).symm

lemma Counted.report (h:Counted p) (v:Verdict) : Counted (report p e v) := by
 cases v with
 | repeated=>exact h.accept
 | replayed=>exact Counted.accept (p:=p.see e) h
 | foreign=>exact Counted.reject (p:=p.see e) h _
 | refused why=>exact h.reject why
 | fresh lt=>exact Counted.accept (p:=p.see e) h

lemma takeEntry_counted (h:Counted p) (hrun:takeEntry env device zone batch divergence p e db=(.ok p',db')) :
 Counted p' := (h.noteZone.report _).of_core (takeEntry_ok hrun).1

lemma takeEntries_counted {entries:List IncomingEntry} (h:Counted p)
 (hrun:takeEntries env device zone batch divergence entries p db=(.ok p',db')) : Counted p' := by
 induction entries generalizing p db with
 | nil=>
  cases hrun
  exact h
 | cons e rest ih=>
  obtain ⟨p₁,db₁,htake,hrun⟩:=bind_ok_inv hrun
  exact ih (takeEntry_counted h htake) hrun

lemma mem_acked_report {seq:ℤ} (hseq:seq∈p.acked) (v:Verdict) : seq∈(report p e v).acked := by
 cases v with
 | repeated=>exact mem_append_left _ hseq
 | replayed=>exact mem_append_left _ hseq
 | foreign=>exact hseq
 | refused why=>exact hseq
 | fresh lt=>exact mem_append_left _ hseq

lemma takeEntries_acked {entries:List IncomingEntry}
 (hrun:takeEntries env device zone batch divergence entries p db=(.ok p',db')) {seq:ℤ}
 (hseq:seq∈p.acked) : seq∈p'.acked := by
 induction entries generalizing p db with
 | nil=>
  cases hrun
  exact hseq
 | cons e rest ih=>
  obtain ⟨p₁,db₁,htake,hrun⟩:=bind_ok_inv hrun
  refine ih hrun ?_
  rw [acked_of_core (takeEntry_ok htake).1]
  exact mem_acked_report (by rwa [acked_noteZone]) _

lemma takeEntries_first {rest:List IncomingEntry} {lt:LocalTime}
 (hfresh:judge db env device batch.journalId p.inBatch e=.fresh lt)
 (hrun:takeEntries env device zone batch divergence (e::rest) p db=(.ok p',db')) : e.journalSequence∈p'.acked := by
 obtain ⟨p₁,db₁,htake,hrun⟩:=bind_ok_inv hrun
 refine takeEntries_acked hrun ?_
 rw [acked_of_core (takeEntry_ok htake).1,hfresh]
 exact mem_append_right _ (mem_singleton_self _)

end Entries

def judged (db:Db) : Table TimeEntry × List Code × List Code × Table Device :=
 (db.timeEntries,db.payCodes,db.breakCodes,db.devices)

lemma judge_congr {db db':Db} (h:Same judged db db') (env:Env) (device:Device) (journalId:UuidBytes)
 (inBatch:List UuidBytes) (e:IncomingEntry) :
 judge db' env device journalId inBatch e=judge db env device journalId inBatch e := by
 obtain ⟨hentries,hrest⟩:=Prod.mk.inj h
 obtain ⟨hpay,hrest⟩:=Prod.mk.inj hrest
 obtain ⟨hbreak,hdevices⟩:=Prod.mk.inj hrest
 unfold judge judgeNew sequenceUsed payCodeActive breakCodeActive deviceAttestedValid Db.entryByUuid Db.deviceById
 rw [hentries,hpay,hbreak,hdevices]

lemma foldl_max_mem (l:List ℤ) (a:ℤ) : l.foldl max a=a ∨ l.foldl max a∈l := by
 induction l generalizing a with
 | nil=>exact .inl rfl
 | cons b l ih=>
  rw [foldl_cons]
  rcases ih (max a b) with heq | hmem
  · rw [heq]
    rcases max_choice a b with hmax | hmax
    · exact .inl hmax
    · rw [hmax]
      exact .inr mem_cons_self
  · exact .inr (mem_cons_of_mem b hmem)

lemma le_foldl_max (l:List ℤ) (a:ℤ) : ∀ b∈a::l,b≤l.foldl max a := by
 induction l generalizing a with
 | nil=>exact fun b hb=>(mem_singleton.mp hb).le
 | cons c l ih=>
  intro b hb
  rw [foldl_cons]
  rcases mem_cons.mp hb with rfl | hb
  · exact (le_max_left b c).trans (ih _ _ mem_cons_self)
  · rcases mem_cons.mp hb with rfl | hb
    · exact (le_max_right a b).trans (ih _ _ mem_cons_self)
    · exact ih _ b (mem_cons_of_mem _ hb)

structure Sent where
 now : ℤ
 deviceId : ℤ
 batch : IncomingBatch

def logged (db:Db) : Db := { db with auditLog:=db.auditLog.put ⟨db.auditLog.lastKey+1⟩ }

def envOf (cfg:Config) (release:Bytes) (x:Sent) (db:Db) : Env :=
 { cfg,auditId:=db.auditLog.lastKey+1,release,now:=x.now }

def reply (cfg:Config) (release:Bytes) (x:Sent) : PunchM SyncOutcome := fun db=>
 match db.deviceById x.deviceId with
 | none=>(.error (PageTxn.notFound "no such device"),logged db)
 | some device=>applyBatch (envOf cfg release x db) device x.batch (logged db)

/-- A sequence that a batch of the device was told is accepted, under the batch's journal. -/
structure Accepted where
 deviceId : ℤ
 journalId : UuidBytes
 sequence : ℤ
 deriving DecidableEq

def hear (cfg:Config) (release:Bytes) (x:Sent) (s:Db × List Accepted) : Db × List Accepted :=
 match reply cfg release x s.1 with
 | (.ok out,db)=>(db,s.2++(acceptedOf out.outcomes).map fun seq=>⟨x.deviceId,x.batch.journalId,seq⟩)
 | (.error _,_)=>s

/-- The row names a sequence that was accepted under its journal, or 0 where none was. -/
def Acknowledged (accepted:List Accepted) (d:Device) : Prop :=
 ∃ journalId∈d.lastJournalId,
  (⟨d.id,journalId,d.lastAckedSequence⟩∈accepted ∨
   d.lastAckedSequence=0 ∧ ∀ a∈accepted,a.deviceId=d.id → a.journalId≠journalId)

instance (accepted:List Accepted) (d:Device) : Decidable (Acknowledged accepted d) := by
 unfold Acknowledged
 infer_instance

/-- The batch goes on with the journal of the row, or it begins with an entry that is new and above the row's sequence. -/
def GoesOn (cfg:Config) (release:Bytes) (x:Sent) (s:Db × List Accepted) : Prop :=
 ∀ d∈s.1.devices,d.id=x.deviceId → d.lastJournalId=some x.batch.journalId ∨
  ∃ e∈(inJournalOrder x.batch).head?,d.lastAckedSequence<e.journalSequence ∧ ∃ lt,
   judge s.1 (envOf cfg release x s.1) d x.batch.journalId [] e=.fresh lt

def Named (s:Db × List Accepted) : Prop :=
 ∀ d∈s.1.devices,∀ journalId,d.lastJournalId=some journalId → ⟨d.id,journalId,d.lastAckedSequence⟩∈s.2

lemma reply_ok {cfg:Config} {release:Bytes} {x:Sent} {db db':Db} {out:SyncOutcome}
 (hrun:reply cfg release x db=(.ok out,db')) : ∃ d,db.deviceById x.deviceId=some d ∧
  applyBatch (envOf cfg release x db) d x.batch (logged db)=(.ok out,db') := by
 unfold reply at hrun
 split at hrun
 · cases hrun
 · rename_i d hdevice
   exact ⟨d,hdevice,hrun⟩

lemma applyBatch_heard {env:Env} {device:Device} {batch:IncomingBatch} {db db':Db} {out:SyncOutcome}
 (hrun:applyBatch env device batch db=(.ok out,db')) :
 db'.devices=db.devices.put (heardFrom env device batch (acceptedOf out.outcomes)) ∧
  ∀ e∈(inJournalOrder batch).head?,∀ lt,judge db env device batch.journalId [] e=.fresh lt →
   e.journalSequence∈acceptedOf out.outcomes := by
 obtain ⟨employee,diverged,p,db₁,db₂,db₃,db₄,db₅,db₆,db₇,db₈,h,hout⟩:=applyBatch_ok hrun
 have hx:Ignores exceptions (Same Db.devices):=fun _ _=>rfl
 have hcounted:Counted p:=takeEntries_counted (show Counted { opened:=diverged } from rfl) h.taken
 rw [hout,← hcounted]
 constructor
 · have hbefore:Same Db.devices db db₆:=by
    obtain ⟨ids₃,hsettled⟩:=h.settled
    obtain ⟨ids₄,hzoned⟩:=h.zoned
    obtain ⟨ids₅,hrefused⟩:=h.refused
    obtain ⟨ids₆,hreported⟩:=h.reported
    have hrepair:∀ employeeId fromUs,Always (Same Db.devices) (repairPairing env employeeId fromUs):=
     fun _ _=>repairPairing_always hx (fun _ _=>rfl) env _ (fun _ _=>rfl) (fun _ _=>rfl) (fun _ _=>rfl) _
    exact trans_of _ ((flagDivergence_always hx env device _).ok h.divergence) <|
     trans_of _ ((takeEntries_always hx (fun _ _=>rfl) (fun _ _ _=>rfl) env device _ batch _ _ _).ok h.taken) <|
     trans_of _ ((settleNew_always hx env device p hrepair).ok hsettled) <|
     trans_of _ ((settleZone_always hx env device _ p).ok hzoned) <|
     trans_of _ ((flagRejected_always hx env device p).ok hrefused)
      ((forEachOpened_always fun r _=>takeReport_always hx env device r).ok hreported)
   have hafter:Same Db.devices db₇ db':=by
    obtain ⟨n,hstale⟩:=h.stale
    exact trans_of _ ((resolveMatching_always hx env _ _).ok hstale)
     ((recordBatch_always (fun _ _=>rfl) env device batch _ p _).ok h.recorded)
   have hput:db₇.devices=db₆.devices.put (heardFrom env device batch p.acked):=by
    rw [(update_ok h.heard).2]
    rfl
   rw [hafter,hput,hbefore]
 · intro e he lt hfresh
   have hjudged:Same judged db db₁:=(flagDivergence_always (fun _ _=>rfl) env device _).ok h.divergence
   have htaken:=h.taken
   cases horder:inJournalOrder batch with
   | nil=>
    rw [horder] at he
    cases he
   | cons first rest=>
    rw [horder] at he htaken
    cases he
    exact takeEntries_first ((judge_congr hjudged env device batch.journalId [] e).trans hfresh) htaken

lemma named_hear {cfg:Config} {release:Bytes} (x:Sent) (s:Db × List Accepted) (hs:Named s)
 (hgoes:GoesOn cfg release x s) : Named (hear cfg release x s) := by
 unfold hear
 rcases hreply:reply cfg release x s.1 with ⟨_ | out,db⟩
 · exact hs
 obtain ⟨device,hdevice,hrun⟩:=reply_ok hreply
 obtain ⟨hmem,hid⟩:=Table.get?_eq_some.mp hdevice
 obtain ⟨hdevices,hfirst⟩:=applyBatch_heard hrun
 intro d hd journalId hjournal
 dsimp only at hd ⊢
 rw [hdevices] at hd
 rcases Table.mem_put.mp hd with rfl | ⟨hold,-⟩
 · -- the row of the sender
   obtain rfl:x.batch.journalId=journalId:=Option.some_inj.mp hjournal
   rw [← hid]
   have hnew:(acceptedOf out.outcomes).foldl max device.lastAckedSequence∈acceptedOf out.outcomes →
     (⟨device.id,x.batch.journalId,(acceptedOf out.outcomes).foldl max device.lastAckedSequence⟩:Accepted) ∈
      s.2++(acceptedOf out.outcomes).map fun seq=>⟨device.id,x.batch.journalId,seq⟩:=fun h=>
    mem_append_right _ (mem_map_of_mem h)
   rcases foldl_max_mem (acceptedOf out.outcomes) device.lastAckedSequence with hsame | hlast
   · rcases hgoes device hmem hid with hgoeson | ⟨e,he,habove,lt,hfresh⟩
     · refine mem_append_left _ ?_
       have hnamed:=hs device hmem _ hgoeson
       rw [← hsame] at hnamed
       exact hnamed
     · -- an entry above the row's sequence was accepted
       have hin:=hfirst e he lt hfresh
       have hle:=le_foldl_max (acceptedOf out.outcomes) device.lastAckedSequence _ (mem_cons_of_mem _ hin)
       omega
   · exact hnew hlast
 · exact mem_append_left _ (hs d hold journalId hjournal)

/-- In every run whose batches go on so, the row of each device that was heard from names a sequence that was accepted
under its journal. -/
theorem row_acknowledged (cfg:Config) (release:Bytes) (sent:List Sent) (db₀:Db)
  (hsilent:∀ d∈db₀.devices,d.lastJournalId=none)
  (hgoes:Meets (hear cfg release) (GoesOn cfg release) sent (db₀,[])) :
  ∀ d∈(after (hear cfg release) sent (db₀,[])).1.devices,d.lastJournalId≠none →
   Acknowledged (after (hear cfg release) sent (db₀,[])).2 d := by
 have hnamed:Named (after (hear cfg release) sent (db₀,[])):=by
  refine after_invariant named_hear sent (fun d hd journalId hjournal=>?_) hgoes
  rw [hsilent d hd] at hjournal
  cases hjournal
 intro d hd hheard
 obtain ⟨journalId,hjournal⟩:=Option.ne_none_iff_exists'.mp hheard
 exact ⟨journalId,hjournal,.inl (hnamed d hd journalId hjournal)⟩

def journalA : UuidBytes := exampleUuid 100

def journalB : UuidBytes := exampleUuid 200

def punchIn (journalId:UuidBytes) (n:ℕ) (kind:String) (deviceTimeUs:ℤ) (localTime:String) : Sent where
 now := 1709300000000000
 deviceId:=1
 batch:={ batchUuid:=exampleUuid n,journalId,entries:=[examplePunch n kind deviceTimeUs localTime] }

def morningIn : Sent := punchIn journalA 5 "in" 1709190000000000 "2024-02-29T07:00:00"

lemma morningIn_goesOn : Meets (hear {} []) (GoesOn {} []) [morningIn] (exampleSite,[]) := by
 refine ⟨fun d hd _=>.inr ⟨examplePunch 5 "in" 1709190000000000 "2024-02-29T07:00:00",rfl,?_⟩,trivial⟩
 obtain rfl:=mem_singleton.mp hd
 exact ⟨by decide,{ year:=2024,month:=2,day:=29,hour:=7,minute:=0,second:=0,localDay:=19782,
                    weekday:=4,minuteOfDay:=420 },by decide +kernel⟩

theorem one_journal_acknowledged :
  (∀ d∈exampleSite.devices,d.lastJournalId=none) ∧
  (after (hear {} []) [morningIn] (exampleSite,[])).1.devices.rows.map Device.lastAckedSequence=[5] ∧
  ∀ d∈(after (hear {} []) [morningIn] (exampleSite,[])).1.devices,d.lastJournalId≠none →
   Acknowledged (after (hear {} []) [morningIn] (exampleSite,[])).2 d :=
 ⟨by decide,by decide +kernel,row_acknowledged {} [] [morningIn] exampleSite (by decide) morningIn_goesOn⟩

/-- A tablet that begins a new journal is acknowledged the highest sequence of the old one. -/
theorem new_journal_old_sequence :
  ∃ d∈(after (hear {} []) [morningIn,punchIn journalB 1 "out" 1709218800000000 "2024-02-29T15:00:00"]
    (exampleSite,[])).1.devices.rows,
   d.lastJournalId=some journalB ∧ d.lastAckedSequence=5 ∧
   ¬Acknowledged (after (hear {} []) [morningIn,punchIn journalB 1 "out" 1709218800000000 "2024-02-29T15:00:00"]
    (exampleSite,[])).2 d := by
 decide +kernel

end Archivum.Acknowledgements
