import Archivum.ArchiveShipping
import Archivum.BackupRules
import Archivum.PointInTime

set_option autoImplicit false

/-!
# Runs of a database and its archive shipper

Commits, checkpoints, passes of the shipper, failing operations and power losses,
in any order. Two things are followed through a run: that a segment at the
destination is the local one, and that a pass leaves alone the backups that were
verified.
-/
namespace Archivum.ShippingRuns
open ByteStrings StatefulActions PageTxn PageFormat VfsModel WalModel DbModel RecoveryModel List Act
open ShipperModel Footprints ArchiveShipping PointInTime Histories LogImage DbOpen CheckpointRules BackupRules

/-- What happens next to the process. A call that is cut off by a power loss is one whose remaining
operations all fail, followed by the loss. -/
inductive Event
 /-- Which of the next operations fail, each with the bytes a failing write has written. -/
 | faults (fs:List (Option ℕ))
 | commit (u:Db.Update) (now:ℤ)
 | checkpoint
 | pass (now:ℤ)
 /-- The power goes, with what survives of the pending operations, and the database is reopened. -/
 | powerLoss (survivors:List (ℕ × ℕ))

def decisionOf : Option ℕ → Decision
 | none=>.proceed
 | some n=>.fail n

def restart (survivors:List (ℕ × ℕ)) (s : ShipIO) : ShipIO :=
 match openDb s.db.path s.db.options (s.vfs.crash survivors).recover with
 | (.ok db,σ)=>⟨σ,db,{}⟩
 | (.error _,σ)=>⟨σ,{ s.db with closed:=true },{}⟩

def Event.step (cfg:ShipConfig) : Event → ShipIO → ShipIO
 | faults fs,s=>{ s with vfs:={ s.vfs with decisions:=fs.map decisionOf } }
 | commit u now,s=>(onDb (Db.commit u now) s).2
 | checkpoint,s=>(onDb Db.checkpointLocked s).2
 | pass now,s=>(shipOnce cfg now s).2
 | powerLoss survivors,s=>restart survivors s

/-- The directories of the archive and of the destination are apart, and the database is in
neither. -/
structure Layout (cfg:ShipConfig) (db:Db) : Prop where
 apart : cfg.archiveDir≠cfg.backup.destination
 archive : db.options.archiveDir=cfg.archiveDir
 log : db.wal.path=walPathOf db.path
 data_outside : ∀ n,db.path≠inDir cfg.archiveDir n ∧ db.path≠inDir cfg.backup.destination n
 log_outside : ∀ n,walPathOf db.path≠inDir cfg.archiveDir n ∧
  walPathOf db.path≠inDir cfg.backup.destination n

variable {cfg:ShipConfig}

lemma Layout.of_frame {S:Path → Prop} {s s' : ShipIO} (h:Layout cfg s.db) (hf:ShipFrame S s s') : Layout cfg s'.db where
 apart := h.apart
 archive:=by rw [hf.options,h.archive]
 log:=by rw [hf.log,hf.path,h.log]
 data_outside:=by rw [hf.path]; exact h.data_outside
 log_outside:=by rw [hf.path]; exact h.log_outside

section Open
variable {path:Path}

lemma recover_path (path:Path) (pageSize:ℕ) (o:WalOpenOptions) :
 Act.Returns (fun w=>w.path=path) (Wal.recover path pageSize o) := by
 refine Returns.bind fun size=>Returns.bind fun hbuf=>?_
 cases Wal.ownHeader pageSize o.dbId hbuf with
 | none=>
  refine Returns.ite (Returns.fail _) (Returns.bind fun _=>Returns.bind fun _=>?_)
  exact Returns.bind fun _=>Returns.bind fun _=>Returns.pure rfl
 | some h=>
  refine Returns.bind fun scan=>Returns.ite (Returns.pure rfl) ?_
  exact Returns.bind fun _=>Returns.bind fun _=>Returns.bind fun _=>
   Returns.pure rfl

lemma openLog_path (path:Path) (pageSize:ℕ) (o:WalOpenOptions) :
 Act.Returns (fun w=>w.path=path) (Wal.openLog path pageSize o) := by
 refine Returns.bind fun present=>Returns.ite (Returns.fail _) ?_
 refine Returns.bind fun _=>Returns.ite ?_ (recover_path _ _ _)
 refine Returns.bind fun _=>Returns.bind fun _=>?_
 exact Returns.bind fun _=>Returns.bind fun _=>Returns.pure rfl

lemma recoverPage0_path (path:Path) (pageSize:ℕ) : Act.Returns (fun r=>∀ x,r=some x → x.1.path=path)
  (recoverPage0FromWal path pageSize) := by
 have hnone:∀ x:Wal × Bytes,none=some x → x.1.path=path:=fun _ h=>by cases h
 refine Returns.bind fun present=>Returns.ite (Returns.pure hnone) ?_
 refine Returns.bind fun _=>Returns.bind fun hbuf=>Returns.bind fun _=>?_
 refine Returns.ite (Returns.pure hnone) ?_
 cases WalHeader.decode hbuf with
 | error e=>exact Returns.pure hnone
 | ok wh=>
  refine Returns.ite (Returns.pure hnone) ?_
  refine Returns.bind_of (openLog_path path _ _) fun wal hwal=>?_
  refine Returns.ite (Returns.pure hnone) (Returns.bind fun page0=>?_)
  refine Returns.pure fun x hx=>?_
  cases hx
  exact hwal

lemma replacePage0_path (options:DbOptions) (pageSize size:ℕ) :
 Act.Returns (fun r=>∀ w,r.2=some w → w.path=walPathOf path) (replacePage0 path options pageSize size) := by
 refine Returns.bind_of (recoverPage0_path _ pageSize) fun fromWal hpath=>?_
 rcases fromWal with _ | ⟨wal,page0⟩
 · refine Returns.ite ?_ (Returns.fail _)
   refine Returns.bind fun _=>Returns.bind fun page0=>?_
   cases DbHeader.decode (resize page0 pageSize) with
   | error e=>exact Returns.fail e
   | ok h=>exact Returns.pure fun _ hw=>by cases hw
 · dsimp only
   cases DbHeader.decode page0 with
   | error e=>exact Returns.fail e
   | ok h=>
    refine Returns.pure fun w hw=>?_
    cases hw
    exact hpath _ rfl

/-- The object is that of the path and the options, with the log beside the file. -/
def Opened (path:Path) (options:DbOptions) (db:Db) : Prop :=
 db.path=path ∧ db.options=options ∧ db.wal.path=walPathOf path

lemma openLogFor_opened (options:DbOptions) (hdr:PageFormat.DbHeader) {wal?:Option Wal}
 (hw:∀ w,wal? = some w → w.path=walPathOf path) : Act.Returns (Opened path options) (openLogFor path options hdr wal?) := by
 have hlog:Act.Returns (fun w=>w.path=walPathOf path) (logFor path hdr wal?):=by
  cases wal? with
  | none=>exact openLog_path _ _ _
  | some w=>exact Returns.pure (hw w rfl)
 refine Returns.bind fun _=>Returns.bind fun _=>Returns.bind_of hlog fun w hpath=>?_
 exact Returns.ite (Returns.pure ⟨rfl,rfl,hpath⟩) (Returns.fail _)

lemma openDb_opened (path:Path) (options:DbOptions) : Act.Returns (Opened path options) (openDb path options) := by
 refine Returns.ite (Returns.fail _) (Returns.bind fun _=>?_)
 refine Returns.bind fun present=>Returns.ite (Returns.fail _) ?_
 refine Returns.bind fun _=>Returns.bind fun size=>Returns.bind fun _=>?_
 refine Returns.bind fun probe=>Returns.bind fun page0=>Returns.bind fun size=>?_
 cases usableHeader probe page0 with
 | some h=>exact openLogFor_opened options h fun _ hw=>by cases hw
 | none=>exact Returns.bind_of (replacePage0_path options _ size) fun r hr=>
   openLogFor_opened options r.1 hr

end Open

/-- The power is on and the directories are apart. -/
structure Placed (cfg:ShipConfig) (s : ShipIO) : Prop where
 steady : Steady s.vfs
 layout : Layout cfg s.db

lemma Placed.of_frame {S:Path → Prop} {s s' : ShipIO} (h:Placed cfg s)
 (hf:ShipFrame S s s') : Placed cfg s' := ⟨hf.vfs.steady h.steady,h.layout.of_frame hf⟩

section Runs
variable {s : ShipIO}

/-- A pass touches what it likes at the destination, and leaves the database object alone but for
its cache. -/
theorem shipOnce_frame (now:ℤ) : Act.Follows (ShipFrame fun _=>True) (shipOnce cfg now) s := by
 refine shipOnce_follows (T:=fun _=>True) (fun _ _ _=>⟨trivial,trivial⟩) (fun _ _ h=>h.frame)
  (fun _ _=>⟨Frame.refl _,rfl,rfl,rfl⟩) fun s₁ _=>?_
 exact shipBackup_follows trivial (fun _=>trivial) now

lemma restart_vfs (survivors:List (ℕ × ℕ)) (s : ShipIO) : (restart survivors s).vfs =
  (openDb s.db.path s.db.options (s.vfs.crash survivors).recover).2 := by
 rw [restart]
 rcases openDb s.db.path s.db.options (s.vfs.crash survivors).recover with ⟨_ | _,_⟩ <;> rfl

lemma restart_frame (survivors:List (ℕ × ℕ)) (s : ShipIO) :
 Frame (fun q=>q=s.db.path ∨ q=walPathOf s.db.path) (s.vfs.crash survivors).recover (restart survivors s).vfs := by
 rw [restart_vfs]
 exact openDb_within (Or.inl rfl) (Or.inr rfl) s.db.options _

lemma Placed.restart (h:Placed cfg s) (survivors:List (ℕ × ℕ)) : Placed cfg (restart survivors s) := by
 refine ⟨(restart_frame survivors s).steady ⟨rfl,h.steady.uncut⟩,?_⟩
 have hopened:=openDb_opened s.db.path s.db.options (s.vfs.crash survivors).recover
 rw [ShippingRuns.restart]
 rcases hrun:openDb s.db.path s.db.options (s.vfs.crash survivors).recover with ⟨r,σ'⟩
 cases r with
 | ok db=>
  obtain ⟨hpath,hoptions,hlog⟩:=hopened db σ' hrun
  refine ⟨h.layout.apart,?_,?_,?_,?_⟩
  · rw [hoptions,h.layout.archive]
  · rw [hlog,hpath]
  · rw [hpath]
    exact h.layout.data_outside
  · rw [hpath]
    exact h.layout.log_outside
 | error e=>
  exact ⟨h.layout.apart,h.layout.archive,h.layout.log,h.layout.data_outside,h.layout.log_outside⟩

lemma Placed.step (h:Placed cfg s) (e:Event) : Placed cfg (e.step cfg s) := by
 have howns:Owns (fun _=>True) s.db:=⟨trivial,trivial,trivial,trivial⟩
 cases e with
 | faults fs=>
  refine ⟨⟨h.steady.alive,fun survivors hmem=>?_⟩,h.layout⟩
  obtain ⟨f,-,hf⟩:=mem_map.mp hmem
  cases f <;> cases hf
 | commit u now=>exact h.of_frame (follows_onDb (commit_follows howns u now))
 | checkpoint=>exact h.of_frame (follows_onDb (checkpointLocked_follows howns))
 | pass now=>exact h.of_frame (shipOnce_frame now)
 | powerLoss survivors=>exact h.restart survivors

end Runs

def backupPath (cfg:ShipConfig) (c:ℕ) : Path := inDir cfg.backup.destination (backupName c)

def Segmental (cfg:ShipConfig) (q:Path) : Prop :=
 ∃ n,isSegment n ∧ (q=inDir cfg.backup.destination n ∨
  q=inDir cfg.backup.destination (n++Db.partSuffix))

lemma segmental_names (n:Path) (hn:isSegment n) : Segmental cfg (inDir cfg.backup.destination n) ∧
  Segmental cfg (inDir cfg.backup.destination (n++Db.partSuffix)) :=
 ⟨⟨n,hn,Or.inl rfl⟩,⟨n,hn,Or.inr rfl⟩⟩

lemma getLast?_backupName (c:ℕ) : (backupName c).getLast? = some 'b' := by
 rw [backupName,getLast?_append_of_ne_nil _ (by simp)]
 rfl

lemma backupPath_inj {c c':ℕ} (h:backupPath cfg c=backupPath cfg c') : c=c' := by
 have hdigits:Nat.toDigits 10 c=Nat.toDigits 10 c':=by
  simpa [backupPath,inDir,backupName] using h
 have:=congrArg (fun ds=>Nat.ofDigitChars 10 ds 0) hdigits
 simpa using this

lemma backupPath_not_segmental (c:ℕ) : ¬Segmental cfg (backupPath cfg c) := by
 rintro ⟨n,hs,hq | hq⟩
 · have hn:backupName c=n:=by simpa [backupPath,inDir] using hq
   rw [← hn,not_isSegment_backupName] at hs
   cases hs
 · have hn:backupName c=n++Db.partSuffix:=by simpa [backupPath,inDir] using hq
   have hlast:=getLast?_backupName c
   rw [hn,getLast?_append_of_ne_nil _ (by decide)] at hlast
   revert hlast
   decide

lemma backupPath_ne_part (c:ℕ) : backupPath cfg c≠inDir cfg.backup.destination backupPart := by
 intro hq
 have hn:backupName c=backupPart:=by simpa [backupPath,inDir] using hq
 have hlast:=getLast?_backupName c
 rw [hn] at hlast
 revert hlast
 decide

def Lacking (cfg:ShipConfig) (d:Disk) (q:Path) : Prop :=
 ∃ n,isSegment n ∧ n ∉ d.list cfg.backup.destination ∧ (q=inDir cfg.backup.destination n ∨
  q=inDir cfg.backup.destination (n++Db.partSuffix))

lemma Lacking.segmental {d:Disk} {q:Path} (h:Lacking cfg d q) : Segmental cfg q := by
 obtain ⟨n,hn,-,hq⟩:=h
 exact ⟨n,hn,hq⟩

/-- Only these files are touched, and the database object stays. -/
structure OnlyShips (S:Path → Prop) (s s' : ShipIO) : Prop where
 vfs : Frame S s.vfs s'.vfs
 db : s'.db=s.db

instance (S:Path → Prop) : IsPreorder ShipIO (OnlyShips S) where
 refl _ := ⟨Frame.refl _,rfl⟩
 trans _ _ _ h h':=⟨h.vfs.trans h'.vfs,h'.db.trans h.db⟩

lemma shipOnce_onlyShips {s : ShipIO} (hs:Steady s.vfs) (hzero:(s.vfs.files.find (backupPath cfg 0)).isSome) (now:ℤ) :
 Act.Follows (OnlyShips (Lacking cfg s.vfs.files)) (shipOnce cfg now) s := by
 refine shipOnce_follows (T:=Lacking cfg s.vfs.files) (fun n hn hnot=>⟨⟨n,hn,hnot,Or.inl rfl⟩,⟨n,hn,hnot,Or.inr rfl⟩⟩)
  (fun _ _ h=>⟨h.vfs,h.db⟩) (fun _ _=>⟨Frame.refl _,rfl⟩) fun s' hk=>?_
 have hfiles:=hk.vfs.files.resolve_left (by simp [(hk.vfs.steady hs).alive])
 refine Follows.bind_reads (Follows.ite (fun _=>Follows.pure false) fun _=>?_)
 refine Follows.bind_ok (((pathExists_within _).ship s').mono fun _ h=>⟨h.vfs,h.db⟩)
  fun already s₁ hexists=>Follows.ite (fun _=>Follows.pure true) fun hnot=>?_
 have hrule:=((pathExists_rule (F:=True) (backupPath cfg 0)).zoom (g := ShipIO.vfs)
  (u:=fun s v=>{ s with vfs:=v }) fun _ _=>rfl).ok s'.vfs.at_true hexists
 rw [hfiles _ fun h=>backupPath_not_segmental 0 h.segmental] at hrule
 exact absurd (hrule.1.trans hzero) hnot

lemma Calm.steady {σ:Vfs} (h:σ.Calm) : Steady σ := ⟨h.alive,by simp [h.quiet]⟩

lemma shipOnce_run {s : ShipIO} (hcalm:s.vfs.Calm) (hne:cfg.archiveDir≠cfg.backup.destination)
 (hzero:(s.vfs.files.find (backupPath cfg 0)).isSome) (now:ℤ) : ∃ s',shipOnce cfg now s=(.ok (),s') ∧ s'.vfs.Calm ∧
  Carries cfg s.vfs.files s'.vfs.files ∧ Present cfg s'.vfs.files ∧ s'.db=s.db ∧
  ∀ q,¬Lacking cfg s.vfs.files q → s'.vfs.files.find q=s.vfs.files.find q := by
 obtain ⟨⟨⟩,s',hrun,d',⟨hcarries,hpresent⟩,hat⟩:=
  (shipOnce_rule (F:=False) hne (backupCarries_present hzero now)).run (hcalm.at False) fun _ _ h=>h.1
 obtain ⟨hfiles,hcalm'⟩:=hat.calm
 have hships:=shipOnce_onlyShips (Calm.steady hcalm) hzero now
 unfold Act.Follows at hships
 rw [hrun] at hships
 rw [← hfiles] at hcarries hpresent
 refine ⟨s',hrun,hcalm',hcarries,hpresent,hships.db,?_⟩
 exact hships.vfs.files.resolve_left (by simp [hcalm'.alive])

/-- A segment that is both in the local archive and at the destination is the same there. -/
def Agree (cfg:ShipConfig) (d:Disk) : Prop :=
 ∀ n,'/' ∉ n → isSegment n → ∀ b c,d.find (inDir cfg.archiveDir n)=some b →
  d.find (inDir cfg.backup.destination n)=some c → b=c

lemma Agree.carries {d d':Disk} (h:Agree cfg d) (hc:Carries cfg d d') : Agree cfg d' := by
 intro n hn hs b c hb hcopy
 rw [hc.archive n hn] at hb
 rcases hc.copies n hn hs with he | ⟨b',hb',ha⟩
 · rw [he] at hcopy
   exact h n hn hs b c hb hcopy
 · exact Option.some.inj (hb.symm.trans (ha.trans (hb'.symm.trans hcopy)))

/-- The destination has no segment under the name the next checkpoint archives the log under. -/
def Unshipped (cfg:ShipConfig) (s : ShipIO) : Prop :=
 s.vfs.files.find (inDir cfg.backup.destination
  (Db.archiveSegmentName s.db.dbId s.db.wal.header.baseChangeCounter))=none

/-- A segment that is at the destination after the power loss was there before it, and its local
file is as it was. -/
def Survives (cfg:ShipConfig) (survivors:List (ℕ × ℕ)) (σ:Vfs) : Prop :=
 ∀ n,'/' ∉ n → isSegment n → ∀ c,
  (σ.crash survivors).durable.find (inDir cfg.backup.destination n)=some c →
  σ.files.find (inDir cfg.backup.destination n)=some c ∧
  (σ.crash survivors).durable.find (inDir cfg.archiveDir n)=σ.files.find (inDir cfg.archiveDir n)

/-- A checkpoint, or a commit that may run one, finds its segment not shipped yet; a power loss does
not tear a shipped segment from its local file. -/
def Event.Careful (cfg:ShipConfig) : Event → ShipIO → Prop
 | commit _ _,s=>Unshipped cfg s
 | checkpoint,s=>Unshipped cfg s
 | powerLoss survivors,s=>Survives cfg survivors s.vfs
 | faults _,_=>True
 | pass _,_=>True

structure Sound (cfg:ShipConfig) (s : ShipIO) : Prop extends Placed cfg s where
 agree : Agree cfg s.vfs.files

lemma isSegment_archiveSegmentName (id:DbId) (n:ℕ) :
 isSegment (Db.archiveSegmentName id n)=true := (isSegment_iff _).mpr ⟨_,rfl⟩

def Checkpointed (db:Db) (q:Path) : Prop :=
 q=db.path ∨ q=db.wal.path ∨ q=segmentPath db++Db.partSuffix ∨ q=segmentPath db

lemma owns_checkpointed (db:Db) : Owns (Checkpointed db) db :=
 ⟨Or.inl rfl,Or.inr (Or.inl rfl),Or.inr (Or.inr (Or.inl rfl)),Or.inr (Or.inr (Or.inr rfl))⟩

section Steps
variable {s s' : ShipIO}

lemma Layout.copy_not_checkpointed {db:Db} (h:Layout cfg db) {n:Path} (hn : '/' ∉ n) :
 ¬Checkpointed db (inDir cfg.backup.destination n) := by
 have hname:=slash_not_mem_archiveSegmentName db.dbId db.wal.header.baseChangeCounter
 rintro (hq | hq | hq | hq)
 · exact (h.data_outside n).2 hq.symm
 · rw [h.log] at hq
   exact (h.log_outside n).2 hq.symm
 · rw [segmentPath,h.archive,inDir_append] at hq
   exact h.apart (inDir_inj hn (slash_not_mem_part hname) hq).1.symm
 · rw [segmentPath,h.archive] at hq
   exact h.apart (inDir_inj hn hname hq).1.symm

lemma Layout.segment_of_checkpointed (h:Layout cfg s.db) {n:Path} (hn : '/' ∉ n)
 (hs:isSegment n) (hq:Checkpointed s.db (inDir cfg.archiveDir n)) :
 n=Db.archiveSegmentName s.db.dbId s.db.wal.header.baseChangeCounter := by
 have hname:=slash_not_mem_archiveSegmentName s.db.dbId s.db.wal.header.baseChangeCounter
 rcases hq with hq | hq | hq | hq
 · exact absurd hq.symm (h.data_outside n).1
 · rw [h.log] at hq
   exact absurd hq.symm (h.log_outside n).1
 · rw [segmentPath,h.archive,inDir_append] at hq
   rw [(inDir_inj hn (slash_not_mem_part hname) hq).2,not_isSegment_part] at hs
   cases hs
 · rw [segmentPath,h.archive] at hq
   exact (inDir_inj hn hname hq).2

lemma Sound.agree_of_checkpointed (h:Sound cfg s) (hu:Unshipped cfg s)
 (hf:ShipFrame (Checkpointed s.db) s s') : Agree cfg s'.vfs.files := by
 intro n hn hs b c hb hc
 have hfiles:∀ q,¬Checkpointed s.db q → s'.vfs.files.find q=s.vfs.files.find q:=
  hf.vfs.files.resolve_left (by simp [(hf.vfs.steady h.steady).alive])
 rw [hfiles _ (h.layout.copy_not_checkpointed hn)] at hc
 by_cases hq:Checkpointed s.db (inDir cfg.archiveDir n)
 · -- The copy of the log's segment would have been shipped before.
   rw [h.layout.segment_of_checkpointed hn hs hq,hu] at hc
   cases hc
 · rw [hfiles _ hq] at hb
   exact h.agree n hn hs b c hb hc

lemma Sound.agree_pass (h:Sound cfg s) (now:ℤ) : Agree cfg ((Event.pass now).step cfg s).vfs.files := by
 have hsteady:=(h.toPlaced.step (.pass now)).steady
 have hrule:=shipOnce_rule h.layout.apart (backupCarries h.layout.apart s.vfs.files now) s s.vfs.at_true
 change Steady (shipOnce cfg now s).2.vfs at hsteady
 change Agree cfg (shipOnce cfg now s).2.vfs.files
 rcases hrun:shipOnce cfg now s with ⟨r,s'⟩
 rw [hrun] at hrule hsteady
 have halive:s'.vfs.crashed=false:=hsteady.alive
 cases r with
 | ok _=>
  obtain ⟨d',⟨hc,-⟩,hat⟩:=hrule
  rw [hat.files halive]
  exact h.agree.carries hc
 | error e=>exact h.agree.carries (hrule.2.resolve_left (by simp [halive]))

lemma Sound.agree_powerLoss (h:Sound cfg s) {survivors:List (ℕ × ℕ)} (hk:Survives cfg survivors s.vfs) :
 Agree cfg ((Event.powerLoss survivors).step cfg s).vfs.files := by
 have hsteady:=(h.toPlaced.step (.powerLoss survivors)).steady
 have hfiles:=(restart_frame survivors s).files.resolve_left (by
  have halive:(restart survivors s).vfs.crashed=false:=hsteady.alive
  simp [halive])
 intro n hn hs b c hb hc
 change (restart survivors s).vfs.files.find _=_ at hb hc
 rw [hfiles _ (by
  rintro (hq | hq)
  · exact (h.layout.data_outside n).2 hq.symm
  · exact (h.layout.log_outside n).2 hq.symm)] at hc
 rw [hfiles _ (by
  rintro (hq | hq)
  · exact (h.layout.data_outside n).1 hq.symm
  · exact (h.layout.log_outside n).1 hq.symm)] at hb
 obtain ⟨hc',ha⟩:=hk n hn hs c hc
 exact h.agree n hn hs b c (ha.symm.trans hb) hc'

lemma Sound.step (e:Event) (h:Sound cfg s) (hc:e.Careful cfg s) : Sound cfg (e.step cfg s) := by
 refine ⟨h.toPlaced.step e,?_⟩
 have howns:=owns_checkpointed s.db
 cases e with
 | faults fs=>exact h.agree
 | commit u now=>exact h.agree_of_checkpointed hc (follows_onDb (commit_follows howns u now))
 | checkpoint=>exact h.agree_of_checkpointed hc (follows_onDb (checkpointLocked_follows howns))
 | pass now=>exact h.agree_pass now
 | powerLoss survivors=>exact h.agree_powerLoss hc

end Steps

/-- Every segment of the local archive has a copy of the same bytes at the destination. -/
def Shipped (cfg:ShipConfig) (d:Disk) : Prop :=
 ∀ n∈d.list cfg.archiveDir,isSegment n →
  d.find (inDir cfg.backup.destination n)=d.find (inDir cfg.archiveDir n)

/-- In a careful run, a pass that succeeds leaves every local segment at the destination, byte for
byte. -/
theorem shipOnce_ships_segments {s s' : ShipIO} (hs:Sound cfg s) (events:List Event)
  (hmeets:Meets (Event.step cfg) (Event.Careful cfg) events s) (now:ℤ)
  (hok:shipOnce cfg now (after (Event.step cfg) events s)=(.ok (),s')) :
  Shipped cfg s'.vfs.files := by
 have hsound:=after_invariant (fun e s h hc=>Sound.step e h hc) events hs hmeets
 have hend:Sound cfg s':=by
  have:=Sound.step (.pass now) hsound trivial
  change Sound cfg (shipOnce cfg now _).2 at this
  rwa [hok] at this
 have hrule:=(shipOnce_rule hsound.layout.apart (backupCarries hsound.layout.apart _ now)).ok
  (Vfs.at_true _) hok
 obtain ⟨d',⟨hc,hpresent⟩,hat⟩:=hrule
 rw [← hat.files hend.steady.alive] at hpresent
 intro n hn hseg
 obtain ⟨hslash,hsome⟩:=(Disk.mem_list_iff _ _ _).mp hn
 obtain ⟨b,hb⟩:=Option.isSome_iff_exists.mp hsome
 obtain ⟨c,hc⟩:=Option.isSome_iff_exists.mp (hpresent n hslash hseg hsome)
 have hb':s'.vfs.files.find (inDir cfg.archiveDir n)=some b:=hb
 rw [hb',hc,hend.agree n hslash hseg b c hb' hc]

/-- A database on a history, where nothing is about to go wrong. -/
structure Running (cfg:ShipConfig) (H:Line) (B f:ℕ) (h:WalHeader) (s : ShipIO) : Prop
  extends Placed cfg s where
 calm : s.vfs.Calm
 stored : Stored H B f h s.db s.vfs.files
 archiving : cfg.archiveDir≠[]
 idle : s.db.activeReaders=0

/-- The destination holds `backup-0.db`. -/
structure Working (cfg:ShipConfig) (H:Line) (B f:ℕ) (h:WalHeader) (s : ShipIO) : Prop
  extends Running cfg H B f h s where
 zero : (s.vfs.files.find (backupPath cfg 0)).isSome

section Stale
variable {H:Line} {B f:ℕ} {h:WalHeader} {s : ShipIO}

lemma Layout.separate {db:Db} (hl:Layout cfg db) : Separate db where
 segment_data hq := by
  rw [segmentPath,hl.archive] at hq
  exact (hl.data_outside _).1 hq.symm
 segment_log hq:=by
  rw [segmentPath,hl.archive,hl.log] at hq
  exact (hl.log_outside _).1 hq.symm
 part_data hq:=by
  rw [segmentPath,hl.archive,inDir_append] at hq
  exact (hl.data_outside _).1 hq.symm
 part_log hq:=by
  rw [segmentPath,hl.archive,inDir_append,hl.log] at hq
  exact (hl.log_outside _).1 hq.symm

/-- The name the log of the history from `B` on is archived under. -/
def nameFrom (H:Line) (B:ℕ) : Path := Db.archiveSegmentName H.root.dbId B

lemma isSegment_nameFrom (H:Line) (B:ℕ) : isSegment (nameFrom H B)=true :=
 isSegment_archiveSegmentName _ _

lemma slash_not_mem_nameFrom (H:Line) (B:ℕ) : '/' ∉ nameFrom H B :=
 slash_not_mem_archiveSegmentName _ _

lemma Running.segmentPath_eq (hw:Running cfg H B f h s) : segmentPath s.db=inDir cfg.archiveDir (nameFrom H B) := by
 rw [segmentPath,hw.layout.archive,hw.stored.dbId,hw.stored.header_eq,hw.stored.file.base]
 rfl

lemma Layout.copy_ne {db:Db} (hl:Layout cfg db) {n:Path} (hn : '/' ∉ n) :
 inDir cfg.backup.destination n≠db.path ∧ inDir cfg.backup.destination n≠db.wal.path ∧
  inDir cfg.backup.destination n≠segmentPath db ∧ inDir cfg.backup.destination n≠segmentPath db++Db.partSuffix := by
 have hnot:=hl.copy_not_checkpointed hn
 exact ⟨fun hq=>hnot (Or.inl hq),fun hq=>hnot (Or.inr (Or.inl hq)),
  fun hq=>hnot (Or.inr (Or.inr (Or.inr hq))),fun hq=>hnot (Or.inr (Or.inr (Or.inl hq)))⟩

lemma Working.checkpoint_fails (hw:Working cfg H B f h s) (hlt:B<H.last)
  (hcache:s.db.cache=[]) :
  ∃ k σ,after (Event.step cfg) [.faults (replicate k none++[some 0]),.checkpoint] s =
    { s with vfs:=σ } ∧ Working cfg H B H.last h { s with vfs:=σ } ∧
   σ.files.find (inDir cfg.archiveDir (nameFrom H B))=some (logBytes h (H.between B H.last)) ∧
   ∀ n,'/' ∉ n → σ.files.find (inDir cfg.backup.destination n) =
    s.vfs.files.find (inDir cfg.backup.destination n) := by
 have hsep:=hw.layout.separate
 obtain ⟨k,σ,hcalm,hflushed,e,hrun⟩:=checkpointLocked_fails (s:=⟨s.vfs,s.db⟩) hw.stored hlt
  hsep hw.calm hw.idle (by rw [hw.layout.archive]; exact hw.archiving)
 have hfaults:(replicate k (none:Option ℕ)++[some 0]).map decisionOf =
   replicate k Decision.proceed++[.fail 0]:=by
  rw [map_append,map_replicate]
  rfl
 have hafter:after (Event.step cfg) [.faults (replicate k none++[some 0]),.checkpoint] s =
   { s with vfs:=σ }:=by
  change (onDb Db.checkpointLocked { s with vfs:={ s.vfs with decisions:=(replicate k none++[some 0]).map decisionOf } }).2=_
  rw [hfaults]
  exact congrArg Prod.snd (zoom_of (g:=fun s : ShipIO => DbIO.mk s.vfs s.db) (u:=fun s d=>{ s with vfs:=d.vfs,db:=d.db })
   (s:={ s with vfs:=facing (replicate k .proceed++[.fail 0]) s.vfs }) hrun)
 have hplaced:Placed cfg (after (Event.step cfg) [.faults (replicate k none++[some 0]),.checkpoint] s):=
  (hw.toPlaced.step (.faults (replicate k none++[some 0]))).step .checkpoint
 rw [hafter] at hplaced
 have hcopies:∀ n,'/' ∉ n → σ.files.find (inDir cfg.backup.destination n) =
   s.vfs.files.find (inDir cfg.backup.destination n):=by
  intro n hn
  obtain ⟨hne1,-,hne3,hne4⟩:=hw.layout.copy_ne hn
  exact hflushed.other _ hne1 hne3 hne4
 refine ⟨k,σ,hafter,⟨⟨hplaced,hcalm,hw.stored.flushed hsep hcache hflushed,hw.archiving,hw.idle⟩,?_⟩,?_,hcopies⟩
 · change (σ.files.find (inDir _ _)).isSome
   rw [hcopies _ (slash_not_mem_backupName 0)]
   exact hw.zero
 · rw [← hw.segmentPath_eq]
   exact hflushed.segment

lemma Working.pass (hw:Working cfg H B f h s) (now:ℤ) : ∃ s',shipOnce cfg now s=(.ok (),s') ∧ Working cfg H B f h s' ∧
  s'.db=s.db ∧ Carries cfg s.vfs.files s'.vfs.files ∧ Present cfg s'.vfs.files := by
 obtain ⟨s',hrun,hcalm,hcarries,hpresent,hdb,hother⟩:=
  shipOnce_run hw.calm hw.layout.apart hw.zero now
 refine ⟨s',hrun,⟨⟨?_,hcalm,?_,hw.archiving,?_⟩,?_⟩,hdb,hcarries,hpresent⟩
 · have:=hw.toPlaced.step (.pass now)
   change Placed cfg (shipOnce cfg now s).2 at this
   rwa [hrun] at this
 · rw [hdb]
   refine hw.stored.congr (hother _ ?_) (hother _ ?_)
   · rintro ⟨n,-,-,hq | hq⟩
     · exact (hw.layout.data_outside _).2 hq
     · exact (hw.layout.data_outside _).2 hq
   · rw [hw.layout.log]
     rintro ⟨n,-,-,hq | hq⟩
     · exact (hw.layout.log_outside _).2 hq
     · exact (hw.layout.log_outside _).2 hq
 · rw [hdb]
   exact hw.idle
 · rw [hother _ fun hl=>backupPath_not_segmental 0 hl.segmental]
   exact hw.zero

lemma Working.commit (hw:Working cfg H B f h s) {u:Db.Update} (now:ℤ) {c:Commit}
 (hdirty:c.dirty=u.dirty.map fun x=>(x.1,sealPage x.2)) (hheader:c.header=Db.commitHeader (H.headerAt H.last) u now)
 (hc:c.Follows (H.headerAt H.last)) (hchanged:u.dirty≠[])
 (hbelow:(Line.imagesOf (H.between B H.last)).length+c.images.length < s.db.options.checkpointThresholdFrames) :
 Working cfg (H.extend c hc) B f h ((Event.commit u now).step cfg s) ∧
  ∀ n,'/' ∉ n → ((Event.commit u now).step cfg s).vfs.files.find (inDir cfg.backup.destination n) =
   s.vfs.files.find (inDir cfg.backup.destination n) := by
 obtain ⟨d,hrun,hcalm,hstored,-,-,-,hreaders,hother⟩:=commit_run (s:=⟨s.vfs,s.db⟩) hw.stored
  hw.calm hdirty hheader hc (fun hno=>hchanged hno.1) hbelow
 have hstep:(Event.commit u now).step cfg s={ s with vfs:=d.vfs,db:=d.db }:=
  congrArg Prod.snd (zoom_of (g:=fun s : ShipIO => DbIO.mk s.vfs s.db) (u:=fun s d=>{ s with vfs:=d.vfs,db:=d.db }) hrun)
 have hplaced:=hw.toPlaced.step (.commit u now)
 rw [hstep] at hplaced ⊢
 have hcopies:∀ n,'/' ∉ n → d.vfs.files.find (inDir cfg.backup.destination n) =
   s.vfs.files.find (inDir cfg.backup.destination n):=
  fun n hn=>hother _ (hw.layout.copy_ne hn).2.1
 refine ⟨⟨⟨hplaced,hcalm,hstored,hw.archiving,hreaders.trans hw.idle⟩,?_⟩,hcopies⟩
 change (d.vfs.files.find (inDir _ _)).isSome
 rw [hcopies _ (slash_not_mem_backupName 0)]
 exact hw.zero

lemma Working.checkpoint (hw:Working cfg H B f h s) (hlt:B<H.last) : (Event.checkpoint.step cfg s).vfs.Calm ∧
  (Event.checkpoint.step cfg s).vfs.files.find (inDir cfg.archiveDir (nameFrom H B)) =
   some (logBytes h (H.between B H.last)) ∧
  ∀ n,'/' ∉ n → (Event.checkpoint.step cfg s).vfs.files.find (inDir cfg.backup.destination n) =
   s.vfs.files.find (inDir cfg.backup.destination n) := by
 obtain ⟨d,hrun,hcalm,hsegment,-,hother⟩:=checkpointLocked_run (s:=⟨s.vfs,s.db⟩) hw.stored hlt
  hw.layout.separate hw.calm hw.idle (by rw [hw.layout.archive]; exact hw.archiving)
 have hstep:Event.checkpoint.step cfg s={ s with vfs:=d.vfs,db:=d.db }:=
  congrArg Prod.snd (zoom_of (g:=fun s : ShipIO => DbIO.mk s.vfs s.db) (u:=fun s d=>{ s with vfs:=d.vfs,db:=d.db }) hrun)
 rw [hstep]
 refine ⟨hcalm,?_,fun n hn=>?_⟩
 · rw [← hw.segmentPath_eq]
   exact hsegment
 · obtain ⟨hne1,hne2,hne3,hne4⟩:=hw.layout.copy_ne hn
   exact hother _ hne1 hne2 hne3 hne4

lemma logBytes_ne_longer {cs:List Commit} {c:Commit}
 (hcs:∀ x∈cs++[c],Loggable h.pageSize x) : logBytes h cs≠logBytes h (cs++[c]) := by
 intro heq
 have hlen:=congrArg length heq
 rw [logBytes_length h cs fun x hx=>hcs x (mem_append_left _ hx),logBytes_length h _ hcs,
  Line.imagesOf_append,length_append,frameOffset,frameOffset] at hlen
 have hpos:0<(Line.imagesOf [c]).length:=by simp [Line.imagesOf,Commit.images]
 have hmul:(Line.imagesOf cs).length*frameBytes h.pageSize <
   ((Line.imagesOf cs).length+(Line.imagesOf [c]).length)*frameBytes h.pageSize:=
  Nat.mul_lt_mul_of_pos_right (by omega) (by simp only [frameBytes,kFrameHeaderBytes]; omega)
 simp only [Nat.add_sub_cancel] at hlen
 omega

/-- A pass after a checkpoint that failed ships the segment; the log then grows, the next checkpoint
archives it under the same name, and the next pass succeeds without shipping it. -/
theorem Working.leaves_stale (hw:Working cfg H B f h s) (hlt:B<H.last) (hcache:s.db.cache=[])
 (hunshipped:s.vfs.files.find (inDir cfg.backup.destination (nameFrom H B))=none) (u:Db.Update) (now:ℤ) {c:Commit}
 (hdirty:c.dirty=u.dirty.map fun x=>(x.1,sealPage x.2)) (hheader:c.header=Db.commitHeader (H.headerAt H.last) u now)
 (hc:c.Follows (H.headerAt H.last)) (hchanged:u.dirty≠[])
 (hbelow:(Line.imagesOf (H.between B H.last)).length+c.images.length < s.db.options.checkpointThresholdFrames) (t₁ t₂:ℤ) :
 ∃ events s',shipOnce cfg t₂ (after (Event.step cfg) events s)=(.ok (),s') ∧ ¬Shipped cfg s'.vfs.files := by
 have hn:=slash_not_mem_nameFrom H B
 have hseg:=isSegment_nameFrom H B
 obtain ⟨k,σ₁,hrun₁,hw₁,harch₁,hcopies₁⟩:=hw.checkpoint_fails hlt hcache
 obtain ⟨s₂,hrun₂,hw₂,hdb₂,hcarries₂,hpresent₂⟩:=hw₁.pass t₁
 -- The pass ships the segment as it is now.
 have hcopy₂:s₂.vfs.files.find (inDir cfg.backup.destination (nameFrom H B)) =
   some (logBytes h (H.between B H.last)):=by
  obtain ⟨x,hx⟩:=Option.isSome_iff_exists.mp (hpresent₂ _ hn hseg (by
   rw [hcarries₂.archive _ hn]
   exact Option.isSome_iff_exists.mpr ⟨_,harch₁⟩))
  rcases hcarries₂.copies _ hn hseg with hsame | ⟨b,hb,hlocal⟩
  · rw [hx] at hsame
    have:some x=none:=hsame.trans ((hcopies₁ _ hn).trans hunshipped)
    cases this
  · rw [hb,← harch₁]
    exact hlocal.symm
 obtain ⟨hw₃,hcopies₃⟩:=hw₂.commit now hdirty hheader hc hchanged (by rw [hdb₂]; exact hbelow)
 have hlt₃:B<(H.extend c hc).last:=by
  rw [Line.extend_last]
  omega
 obtain ⟨hcalm₄,harch₄,hcopies₄⟩:=hw₃.checkpoint hlt₃
 set s₄:=Event.checkpoint.step cfg ((Event.commit u now).step cfg s₂) with hs₄
 have hzero₄:(s₄.vfs.files.find (backupPath cfg 0)).isSome:=by
  rw [backupPath,hcopies₄ _ (slash_not_mem_backupName 0)]
  exact hw₃.zero
 obtain ⟨s₅,hrun₅,-,hcarries₅,-,-,hother₅⟩:=shipOnce_run hcalm₄ hw.layout.apart hzero₄ t₂
 refine ⟨[.faults (replicate k none++[some 0]),.checkpoint] ++ [.pass t₁,.commit u now,.checkpoint],s₅,?_,fun hshipped=>?_⟩
 · rw [after_append,hrun₁]
   change shipOnce cfg t₂ (Event.checkpoint.step cfg ((Event.commit u now).step cfg
    (shipOnce cfg t₁ { s with vfs:=σ₁ }).2))=_
   rw [hrun₂]
   exact hrun₅
 · -- The copy is that of the shorter log.
   have hlong:s₅.vfs.files.find (inDir cfg.archiveDir (nameFrom H B)) =
     some (logBytes h ((H.extend c hc).between B (H.extend c hc).last)):=
    (hcarries₅.archive _ hn).trans harch₄
   have hcopy₄:s₄.vfs.files.find (inDir cfg.backup.destination (nameFrom H B)) =
     some (logBytes h (H.between B H.last)):=by
    rw [hcopies₄ _ hn,hcopies₃ _ hn,hcopy₂]
   have hshort:s₅.vfs.files.find (inDir cfg.backup.destination (nameFrom H B)) =
     some (logBytes h (H.between B H.last)):=by
    rw [hother₅ _ ?_,hcopy₄]
    rintro ⟨n,hns,hlacks,hq | hq⟩
    · have hne:nameFrom H B=n:=by simpa [inDir] using hq
      refine hlacks ((Disk.mem_list_iff _ _ _).mpr ⟨by rwa [← hne],?_⟩)
      rw [← hne]
      exact Option.isSome_iff_exists.mpr ⟨_,hcopy₄⟩
    · have hne:nameFrom H B=n++Db.partSuffix:=by simpa [inDir] using hq
      rw [hne,not_isSegment_part] at hseg
      cases hseg
   have hsame:=hshipped (nameFrom H B) ((Disk.mem_list_iff _ _ _).mpr ⟨hn,Option.isSome_iff_exists.mpr ⟨_,hlong⟩⟩) hseg
   have hloggable:=hw₃.stored.file.holds.loggable
   rw [Line.extend_last,Line.extend_between hlt.le] at hlong hloggable
   rw [hshort,hlong] at hsame
   exact logBytes_ne_longer hloggable (Option.some.inj hsame)

end Stale

/-- The archive in `a`, the destination `z`. -/
def exampleConfig : ShipConfig := { archiveDir:=['a'],backup:={ destination:=['z'] } }

def oneCommit : Line := exampleLine (fun _=>1) 1 (by decide)

lemma oneCommit_last : oneCommit.last=1 := exampleLine_last _ _

/-- A database file as it was created, its log with one commit, and the file `rest`. -/
def exampleFiles (rest:Disk) : Disk :=
 (['d'],oneCommit.image 0) ::
  (walPathOf ['d'],logBytes (exampleLogHeader 0) (oneCommit.between 0 1))::rest

lemma exampleFiles_open (rest:Disk) : ∃ s : ShipIO,
  openDb ['d'] { archiveDir:=['a'] } (Vfs.quiet (exampleFiles rest))=(.ok s.db,s.vfs) ∧
   s.status={} ∧ Running exampleConfig oneCommit 0 0 (exampleLogHeader 0) s ∧
   s.db.cache=[] ∧ s.db.options={ archiveDir:=['a'] } ∧
   ∀ q,q≠['d'] → q≠walPathOf ['d'] → s.vfs.files.find q=rest.find q := by
 have hl:=exampleLogFile (fun _=>1) (k:=1) (by decide) (B:=0) (L:=1) (by decide) le_rfl
 have hdata:(Vfs.quiet (exampleFiles rest)).files.find ['d']=some (oneCommit.image 0):=rfl
 obtain ⟨σ,hcalm,hfile,hlog,hyes,-⟩:=openLogFor_run { archiveDir:=['a'] }
  (Vfs.quiet_calm (exampleFiles rest)) (Nat.zero_le _) hdata rfl hl
 have hopen:openDb ['d'] { archiveDir:=['a'] } (Vfs.quiet (exampleFiles rest))=_:=
  openDb_header (Vfs.quiet_calm (exampleFiles rest)) (by decide) (Nat.zero_le _) hdata
 rw [hyes (by decide)] at hopen
 have hframe:=openDb_within (S:=fun q=>q=['d'] ∨ q=walPathOf ['d']) (Or.inl rfl) (Or.inr rfl)
  { archiveDir:=['a'] } (Vfs.quiet (exampleFiles rest))
 unfold Within Act.Follows at hframe
 rw [hopen] at hframe
 have hother:=hframe.files.resolve_left (by simp [hcalm.alive])
 have hfiles:∀ q,q≠['d'] → q≠walPathOf ['d'] → σ.files.find q=rest.find q:=by
  intro q h1 h2
  rw [hother q fun hq=>hq.elim h1 h2]
  change (exampleFiles rest).lookup q=rest.lookup q
  rw [exampleFiles,lookup_cons,beq_false_of_ne h1,lookup_cons,beq_false_of_ne h2]
 refine ⟨⟨σ,openedDb oneCommit ['d'] { archiveDir:=['a'] } (exampleLogHeader 0) 0 1,{}⟩,hopen,rfl,
  ⟨⟨Calm.steady hcalm,⟨by decide,rfl,rfl,?_,?_⟩⟩,hcalm,?_,by decide,rfl⟩,rfl,rfl,hfiles⟩
 · intro n
   simp [openedDb,inDir,exampleConfig]
 · intro n
   simp [openedDb,walPathOf,inDir,exampleConfig]
 · have hstored:=Stored.ofOpened (H:=oneCommit) (B:=0) (f:=0) (h:=exampleLogHeader 0)
    { archiveDir:=['a'] } le_rfl (Nat.zero_le _) hfile (by rw [oneCommit_last]; exact hlog)
    (by rw [oneCommit_last]; exact hl)
   rwa [oneCommit_last] at hstored

/-- The files with a `backup-0.db` at the destination. -/
def backedUpFiles : Disk := exampleFiles [(backupPath exampleConfig 0,[])]

lemma backedUpFiles_sound : ∃ s : ShipIO,
  openDb ['d'] { archiveDir:=['a'] } (Vfs.quiet backedUpFiles)=(.ok s.db,s.vfs) ∧
   s.status={} ∧ Working exampleConfig oneCommit 0 0 (exampleLogHeader 0) s ∧
   s.db.cache=[] ∧ s.db.options={ archiveDir:=['a'] } ∧ Sound exampleConfig s ∧
   s.vfs.files.find (inDir ['z'] (nameFrom oneCommit 0))=none := by
 obtain ⟨s,hopen,hstatus,hr,hcache,hoptions,hother⟩:=
  exampleFiles_open [(backupPath exampleConfig 0,[])]
 have hfind:∀ q,q≠backupPath exampleConfig 0 → Disk.find [(backupPath exampleConfig 0,[])] q=none:=by
  intro q hq
  rw [Disk.find,lookup_cons,beq_false_of_ne hq]
  rfl
 have harchive:∀ n,s.vfs.files.find (inDir ['a'] n)=none:=by
  intro n
  rw [hother _ (by simp [inDir]) (by simp [inDir,walPathOf])]
  exact hfind _ (by simp [inDir,backupPath,exampleConfig])
 have hcopies:∀ n,isSegment n → s.vfs.files.find (inDir ['z'] n)=none:=by
  intro n hn
  rw [hother _ (by simp [inDir]) (by simp [inDir,walPathOf])]
  exact hfind _ fun hq=>backupPath_not_segmental 0 ⟨n,hn,Or.inl hq.symm⟩
 refine ⟨s,hopen,hstatus,⟨hr,?_⟩,hcache,hoptions,⟨hr.toPlaced,fun n _ hn b c hb _=>?_⟩,hcopies _ (isSegment_nameFrom _ _)⟩
 · rw [hother _ (by decide) (by decide)]
   rfl
 · have:=(harchive n).symm.trans hb
   cases this

/-- A checkpoint and a pass: the segment is at the destination. -/
theorem checkpoint_then_ships : ∃ s s' : ShipIO,
  openDb ['d'] { archiveDir:=['a'] } (Vfs.quiet backedUpFiles)=(.ok s.db,s.vfs) ∧
   shipOnce exampleConfig 1 (after (Event.step exampleConfig) [.checkpoint] s)=(.ok (),s') ∧
   s'.vfs.files.find (inDir ['z'] (nameFrom oneCommit 0)) =
    some (logBytes (exampleLogHeader 0) (oneCommit.between 0 1)) := by
 obtain ⟨s,hopen,-,hw,-,-,hsound,hnone⟩:=backedUpFiles_sound
 obtain ⟨hcalm,harch,hcopies⟩:=hw.checkpoint (by rw [oneCommit_last]; decide)
 obtain ⟨s',hrun,-,hcarries,-,-,-⟩:=shipOnce_run hcalm hw.layout.apart (by
  rw [backupPath,hcopies _ (slash_not_mem_backupName 0)]
  exact hw.zero) 1
 have hlocal:s'.vfs.files.find (inDir ['a'] (nameFrom oneCommit 0)) =
   some (logBytes (exampleLogHeader 0) (oneCommit.between 0 1)):=by
  rw [← oneCommit_last]
  exact (hcarries.archive _ (slash_not_mem_nameFrom _ _)).trans harch
 have hunshipped:Unshipped exampleConfig s:=by
  rw [Unshipped,hw.stored.dbId,hw.stored.header_eq]
  exact hnone
 have hshipped:=shipOnce_ships_segments hsound [.checkpoint] ⟨hunshipped,trivial⟩ 1 hrun
  (nameFrom oneCommit 0) ((Disk.mem_list_iff _ _ _).mpr
   ⟨slash_not_mem_nameFrom _ _,Option.isSome_iff_exists.mpr ⟨_,hlocal⟩⟩) (isSegment_nameFrom _ _)
 exact ⟨s,s',hopen,hrun,hshipped.trans hlocal⟩

/-- A pass can succeed with a segment at the destination that is not the local one. -/
theorem shipOnce_leaves_stale_segment : ∃ (s s' : ShipIO) (events:List Event),
  openDb ['d'] { archiveDir:=['a'] } (Vfs.quiet backedUpFiles)=(.ok s.db,s.vfs) ∧ s.status={} ∧
   Sound exampleConfig s ∧
   shipOnce exampleConfig 2 (after (Event.step exampleConfig) events s)=(.ok (),s') ∧
   ¬Shipped exampleConfig s'.vfs.files := by
 obtain ⟨s,hopen,hstatus,hw,hcache,hoptions,hsound,hnone⟩:=backedUpFiles_sound
 have hheader:oneCommit.headerAt oneCommit.last=exampleHeader 2 1:=by
  rw [oneCommit_last]
  exact exampleHeaderAfter (fun _=>1) (k:=1) le_rfl
 have hfollows:(exampleCommit 2 2).Follows (oneCommit.headerAt oneCommit.last):=by
  rw [hheader]
  exact exampleCommit_follows 2 (by decide) le_rfl (by decide)
 have himages:(Line.imagesOf (oneCommit.between 0 oneCommit.last)).length=2:=by
  rw [oneCommit_last]
  rfl
 obtain ⟨events,s',hrun,hnot⟩:=hw.leaves_stale (by rw [oneCommit_last]; decide) hcache
  hnone ⟨[(1,replicate 512 2)],(exampleHeader 2 2).toDbHeader⟩ 2 (c:=exampleCommit 2 2)
  rfl (by rw [hheader]; rfl) hfollows (by decide) (by
   rw [himages,hoptions]
   decide) 1 2
 exact ⟨s,s',events,hopen,hstatus,hsound,hrun,hnot⟩

/-- The copy of a page a read finds: in the cache, in the log, or in the data file. -/
def copyOf (db:Db) (d:Disk) (page frame:ℕ) : Option Bytes :=
 match db.cacheGet (page,frame) with
 | some data=>some data
 | none=>
  if frame≠0 then (d.find db.wal.path).map fun b=>
   slice b (frameOffset db.wal.pageSize frame+kFrameHeaderBytes) db.wal.pageSize
  else (d.find db.path).map fun b=>slice b (page*db.pageSize) db.pageSize

def changeCounter (db:Db) (d:Disk) : Option ℕ :=
 (copyOf db d 0 (db.wal.find 0 db.wal.lastCommit)).bind fun page0=>
  match DbHeader.decode page0 with
  | .ok h=>some h.changeCounter
  | .error _=>none

section Counter
variable {s s' : DbIO}

lemma read_ok_inv {path:Path} {off len:ℕ} {σ σ':Vfs} {x:Bytes} (h:File.read path off len σ=(.ok x,σ')) :
 (σ.files.find path).map (fun b=>slice b off len)=some x := by
 unfold File.read plainOperation at h
 obtain ⟨ds,hact⟩:=operation_ok_inv h
 cases hf:σ.files.find path with
 | none=>
  simp only [hf] at hact
  cases hact
 | some b=>
  simp only [hf] at hact
  cases hact
  rfl

lemma readCopy_ok_inv {db:Db} {page frame:ℕ} {σ σ':Vfs} {x:Bytes}
 (h:db.readCopy page frame σ=(.ok x,σ')) :
 (if frame≠0 then (σ.files.find db.wal.path).map fun b=>
  slice b (frameOffset db.wal.pageSize frame+kFrameHeaderBytes) db.wal.pageSize
 else (σ.files.find db.path).map fun b=>slice b (page*db.pageSize) db.pageSize)=some x := by
 rw [Db.readCopy] at h
 by_cases hz:frame≠0
 · rw [if_pos hz] at h ⊢
   rw [Wal.readFramePage] at h
   split at h
   · cases h
   · obtain ⟨y,σ₁,hread,hrest⟩:=bind_ok_inv h
     have hy:x=y:=by
      split at hrest
      · cases hrest
      · split at hrest
        · cases hrest
        · cases hrest
          rfl
     rw [hy]
     exact read_ok_inv hread
 · rw [if_neg hz] at h ⊢
   obtain ⟨y,σ₁,hread,hrest⟩:=bind_ok_inv h
   have hy:x=y:=by
    split at hrest
    · cases hrest
    · split at hrest
      · cases hrest
      · cases hrest
        rfl
   rw [hy]
   exact read_ok_inv hread

lemma readCommitted_copy {page snapshot:ℕ} {x:Bytes} (h:Db.readCommitted page snapshot s=(.ok x,s')) :
 copyOf s.db s.vfs.files page (s.db.wal.find page snapshot)=some x := by
 rw [Db.readCommitted,bind_reads] at h
 split at h
 · cases h
 · rw [copyOf]
   cases hget:s.db.cacheGet (page,s.db.wal.find page snapshot) with
   | some data=>
    simp only [hget] at h
    obtain ⟨_,s₁,-,hrest⟩:=bind_ok_inv h
    cases hrest
    rfl
   | none=>
    simp only [hget] at h
    obtain ⟨y,s₁,hread,hrest⟩:=bind_ok_inv h
    obtain ⟨_,s₂,-,hrest⟩:=bind_ok_inv hrest
    cases hrest
    have hio:(s.db.readCopy page (s.db.wal.find page snapshot) s.vfs).1=.ok x:=
     congrArg Prod.fst hread
    exact readCopy_ok_inv (Prod.ext hio rfl)

lemma beginRead_counter {t:Db.ReadTxn} (h:Db.beginRead s=(.ok t,s')) :
 changeCounter s.db s.vfs.files=some t.changeCounter := by
 rw [Db.beginRead,bind_reads] at h
 split at h
 · cases h
 · obtain ⟨_,s₁,hset,h⟩:=bind_ok_inv h
   cases hset
   obtain ⟨header,s₂,hheader,h⟩:=bind_ok_inv h
   cases header with
   | error e=>
    obtain ⟨_,s₃,-,h⟩:=bind_ok_inv h
    cases h
   | ok hdr=>
    cases h
    obtain ⟨page0,s₄,hread,hdec⟩:=bind_ok_inv (attempt_inv hheader)
    have hcopy:=readCommitted_copy hread
    change copyOf s.db s.vfs.files 0 (s.db.wal.find 0 s.db.wal.lastCommit)=some page0 at hcopy
    rw [changeCounter,hcopy,Option.bind_some]
    cases hpage:DbHeader.decode page0 with
    | error e=>
     simp only [hpage] at hdec
     cases hdec
    | ok x=>
     simp only [hpage] at hdec
     cases hdec
     rfl

lemma backup_counter {dst:Path} {c:ℕ} (h:Db.backup dst s=(.ok c,s')) : changeCounter s.db s.vfs.files=some c := by
 obtain ⟨t,s₁,hbegin,h⟩:=bind_ok_inv h
 obtain ⟨done,s₂,-,h⟩:=bind_ok_inv h
 obtain ⟨_,s₃,-,h⟩:=bind_ok_inv h
 cases done with
 | error e=>cases h
 | ok _=>
  cases h
  exact beginRead_counter hbegin

lemma changeCounter_congr {db:Db} {d d':Disk} (hdata:d'.find db.path=d.find db.path)
 (hlog:d'.find db.wal.path=d.find db.wal.path) : changeCounter db d'=changeCounter db d := by
 rw [changeCounter,changeCounter,copyOf,copyOf,hdata,hlog]

end Counter

def Event.Verifies (cfg:ShipConfig) : Event → ShipIO → Path → Prop
 | pass now,s,q=>∃ c s',q=backupPath cfg c ∧ shipOnce cfg now s=(.ok (),s') ∧
   s.vfs.touched.count q<s'.vfs.touched.count q
 | _,_,_=>False

structure Watched where
 io : ShipIO
 verified : Path → Prop

def Event.watch (cfg:ShipConfig) (e:Event) (w:Watched) : Watched where
 io := e.step cfg w.io
 verified q:=w.verified q ∨ e.Verifies cfg w.io q

/-- A pass that is due for a backup either finds `backup-0.db` at the destination, or no verified
backup is at the database's change counter. -/
def Event.Spares (cfg:ShipConfig) : Event → Watched → Prop
 | pass now,w=>backupDue cfg now w.io.status.lastBackupUs=false ∨
   (w.io.vfs.files.find (backupPath cfg 0)).isSome ∨
   ∀ c,changeCounter w.io.db w.io.vfs.files=some c → ¬w.verified (backupPath cfg c)
 | _,_=>True

section Spare
variable {w:Watched} {now:ℤ}

/-- What a run keeps of the backups that were verified: they are backups. -/
structure Kept (cfg:ShipConfig) (w:Watched) : Prop extends Placed cfg w.io where
 named : ∀ q,w.verified q → ∃ c,q=backupPath cfg c

lemma Kept.watch (e:Event) (h:Kept cfg w) : Kept cfg (e.watch cfg w) := by
 refine ⟨h.toPlaced.step e,fun q hq=>?_⟩
 rcases hq with hq | hq
 · exact h.named q hq
 · cases e with
   | pass now=>
    obtain ⟨c,-,hc,-⟩:=hq
    exact ⟨c,hc⟩
   | faults fs=>exact hq.elim
   | commit u now=>exact hq.elim
   | checkpoint=>exact hq.elim
   | powerLoss survivors=>exact hq.elim

lemma Kept.shipBackup_follows (h:Kept cfg w) (hs:(Event.pass now).Spares cfg w) {s' : ShipIO}
 (hk:ShipKeeps (Segmental cfg) w.io s') : Act.Follows (ShipFrame fun q=>¬w.verified q) (shipBackup cfg now) s' := by
 have halive:s'.vfs.crashed=false:=(hk.vfs.steady h.steady).alive
 have hfiles:=hk.vfs.files.resolve_left (by simp [halive])
 have hpart:¬w.verified (inDir cfg.backup.destination backupPart):=fun hv=>by
  obtain ⟨c,hc⟩:=h.named _ hv
  exact backupPath_ne_part c hc.symm
 refine Follows.bind_reads (Follows.ite (fun _=>Follows.pure false) fun hdue=>?_)
 rw [id,hk.lastBackup] at hdue
 refine Follows.bind_ok (((pathExists_within _).ship s').mono fun _ h=>h.frame)
  fun already s₁ hexists=>Follows.ite (fun _=>Follows.pure true) fun hnot=>?_
 -- Nothing is named for counter 0, or the pass would not go on to the backup.
 have hrule:=((pathExists_rule (F:=True) (backupPath cfg 0)).zoom (g := ShipIO.vfs)
  (u:=fun s v=>{ s with vfs:=v }) fun _ _=>rfl).ok s'.vfs.at_true hexists
 obtain ⟨halready,-⟩:=hrule
 rw [hfiles _ (backupPath_not_segmental 0)] at halready
 rcases hs with hs | hs | hs
 · exact absurd (by simp [hs]) hdue
 · rw [halready] at hnot
   exact absurd hs hnot
 · have hk₁:ShipKeeps (Segmental cfg) s' s₁:=((pathExists_within _).ship s').ok hexists
   have hkeep:=trans_of (ShipKeeps (Segmental cfg)) hk hk₁
   have hfiles₁:=hkeep.vfs.files.resolve_left (by
    simp [(hkeep.vfs.steady h.steady).alive])
   have hcounter:changeCounter s₁.db s₁.vfs.files=changeCounter w.io.db w.io.vfs.files:=by
    rw [hkeep.db]
    refine changeCounter_congr (hfiles₁ _ ?_) (hfiles₁ _ ?_)
    · rintro ⟨n,-,hq | hq⟩
      · exact (h.layout.data_outside _).2 hq
      · exact (h.layout.data_outside _).2 hq
    · rw [h.layout.log]
      rintro ⟨n,-,hq | hq⟩
      · exact (h.layout.log_outside _).2 hq
      · exact (h.layout.log_outside _).2 hq
   refine Follows.bind ?_ fun _ _ _=>Follows.pure true
   refine Follows.bind_ok (follows_onDb ((backup_follows hpart).mono fun _ h=>h.toDbFrame))
    fun c s₂ hbackup=>(placeBackup_follows hpart ?_).mono fun _ h=>h.frame
   have hc:(Db.backup (inDir cfg.backup.destination backupPart) ⟨s₁.vfs,s₁.db⟩).1=.ok c:=
    congrArg Prod.fst hbackup
   have hcount:=backup_counter (Prod.ext hc rfl)
   exact hs c (hcounter.symm.trans hcount)

lemma Kept.shipOnce_follows (h:Kept cfg w) (hs:(Event.pass now).Spares cfg w) :
 Act.Follows (ShipFrame fun q=>¬w.verified q) (shipOnce cfg now) w.io := by
 refine ArchiveShipping.shipOnce_follows (T:=Segmental cfg) (fun n hn _=>segmental_names n hn) (fun s t hk=>?_)
  (fun _ _=>⟨Frame.refl _,rfl,rfl,rfl⟩) fun s' hk=>h.shipBackup_follows hs hk
 refine ⟨hk.vfs.mono fun q hq hv=>?_,hk.frame.path,hk.frame.options,hk.frame.log⟩
 obtain ⟨c,rfl⟩:=h.named q hv
 exact backupPath_not_segmental c hq

end Spare

/-- In a run whose passes all spare the verified backups, no pass touches one. -/
theorem shipOnce_spares_backups {s : ShipIO} (hs:Placed cfg s) (events:List Event) (now:ℤ)
  (hmeets:Meets (Event.watch cfg) (Event.Spares cfg) (events++[.pass now])
   ⟨s,fun _=>False⟩) {w:Watched}
  (hw:after (Event.watch cfg) events ⟨s,fun _=>False⟩=w) {q:Path} (hq:w.verified q) :
  (shipOnce cfg now w.io).2.vfs.touched.count q=w.io.vfs.touched.count q ∧
   (shipOnce cfg now w.io).2.vfs.files.find q=w.io.vfs.files.find q := by
 obtain ⟨hevents,hpass,-⟩:=(meets_append _ _ _).mp hmeets
 have hstart:Kept cfg ⟨s,fun _=>False⟩:=⟨hs,fun _ h=>h.elim⟩
 have hkept:=after_invariant (fun e w h _=>Kept.watch e h) events hstart hevents
 rw [hw] at hkept hpass
 have hframe:ShipFrame (fun q=>¬w.verified q) w.io (shipOnce cfg now w.io).2:=
  hkept.shipOnce_follows hpass
 constructor
 · obtain ⟨new,hnew,hspared⟩:=hframe.vfs.touched
   have hzero:new.count q=0:=count_eq_zero.mpr fun hmem=>hspared q hmem hq
   rw [hnew,count_append,hzero,Nat.zero_add]
 · have halive:=(hframe.vfs.steady hkept.steady).alive
   exact hframe.vfs.files.resolve_left (by simp [halive]) q (not_not_intro hq)

section Again
variable {H:Line} {B f:ℕ} {h:WalHeader} {s : ShipIO}

lemma shipPass_run (hcalm:s.vfs.Calm) (hne:cfg.archiveDir≠cfg.backup.destination) (now:ℤ) :
  ∃ shipped s',s'.vfs.Calm ∧ ShipKeeps (Segmental cfg) s s' ∧
   shipPass cfg now s=(do
    let done ← shipBackup cfg now
    return (shipped,done)) s' := by
 obtain ⟨have',s₁,hrun₁,-,hat₁⟩:=(destinationNames_rule (F:=False)).run (hcalm.at False)
  fun _ _ h=>h.1
 obtain ⟨-,hcalm₁⟩:=hat₁.calm
 obtain ⟨names,s₂,hrun₂,hnames,hat₂⟩:=(localNames_rule (F:=False)).run
  (hcalm₁.at False) fun _ _ h=>h.1
 obtain ⟨hfiles₂,hcalm₂⟩:=hat₂.calm
 obtain ⟨shipped,s₃,hrun₃,d₃,-,hat₃⟩:=(shipSegments_rule (F:=False) hne have' names (by
  intro n hn
  rw [hnames,← hfiles₂] at hn
  exact (Disk.mem_list_iff _ _ _).mp hn) 0).run (hcalm₂.at False) fun _ _ h=>h.1
 obtain ⟨-,hcalm₃⟩:=hat₃.calm
 have hk₁:ShipKeeps (Segmental cfg) s s₁:=destinationNames_follows.ok hrun₁
 have hk₂:ShipKeeps (Segmental cfg) s₁ s₂:=localNames_follows.ok hrun₂
 have hk₃:ShipKeeps (Segmental cfg) s₂ s₃:=
  (shipSegments_follows (fun n hn _=>segmental_names n hn) _ _).ok hrun₃
 refine ⟨shipped,s₃,hcalm₃,trans_of (ShipKeeps (Segmental cfg)) hk₁
  (trans_of (ShipKeeps (Segmental cfg)) hk₂ hk₃),?_⟩
 rw [shipPass,bind_of_ok _ hrun₁,bind_of_ok _ hrun₂,bind_of_ok _ hrun₃]

lemma Running.keeps {s' : ShipIO} (hr:Running cfg H B f h s) (hcalm:s'.vfs.Calm)
 (hk:ShipKeeps (Segmental cfg) s s') : Running cfg H B f h s' := by
 have hfiles:=hk.vfs.files.resolve_left (by simp [hcalm.alive])
 refine ⟨hr.toPlaced.of_frame hk.frame,hcalm,?_,hr.archiving,?_⟩
 · rw [hk.db]
   refine hr.stored.congr (hfiles _ ?_) (hfiles _ ?_)
   · rintro ⟨n,-,hq | hq⟩
     · exact (hr.layout.data_outside _).2 hq
     · exact (hr.layout.data_outside _).2 hq
   · rw [hr.layout.log]
     rintro ⟨n,-,hq | hq⟩
     · exact (hr.layout.log_outside _).2 hq
     · exact (hr.layout.log_outside _).2 hq
 · rw [hk.db]
   exact hr.idle

lemma rename_calm {σ:Vfs} (hσ:σ.Calm) {src:Path} {b:Bytes} (hsrc:σ.files.find src=some b) (dst:Path) :
 ∃ σ',Vfs.rename src dst σ=(.ok (),σ') ∧ σ'.Calm ∧ σ'.files=(σ.files.remove src).put dst b ∧
  σ'.touched=src::dst::σ.touched := by
 refine ⟨_,(plainOperation_calm hσ _ _).trans (if_pos (by rw [hsrc]; rfl)),⟨hσ.alive,hσ.quiet⟩,?_,rfl⟩
 change σ.files.rename src dst=_
 rw [Disk.rename,hsrc]

lemma Running.takeBackup_run (hr:Running cfg H B f h s) : ∃ s',takeBackup cfg s=(.ok (),s') ∧ Running cfg H B f h s' ∧
  s'.vfs.files.find (backupPath cfg H.last)=some (H.image H.last) ∧
  s.vfs.touched.count (backupPath cfg H.last)<s'.vfs.touched.count (backupPath cfg H.last) ∧ s'.status=s.status ∧
  ∀ q,q≠inDir cfg.backup.destination backupPart → q≠backupPath cfg H.last → s'.vfs.files.find q=s.vfs.files.find q := by
 have hpart:inDir cfg.backup.destination backupPart≠s.db.path ∧
   inDir cfg.backup.destination backupPart≠s.db.wal.path:=by
  rw [hr.layout.log]
  exact ⟨fun hq=>(hr.layout.data_outside _).2 hq.symm,fun hq=>(hr.layout.log_outside _).2 hq.symm⟩
 have hfinal:backupPath cfg H.last≠s.db.path ∧ backupPath cfg H.last≠s.db.wal.path:=by
  rw [hr.layout.log]
  exact ⟨fun hq=>(hr.layout.data_outside _).2 hq.symm,fun hq=>(hr.layout.log_outside _).2 hq.symm⟩
 obtain ⟨σ₁,cache,hbackup,hσ₁,hs₁,hhold⟩:=backup_run (s:=⟨s.vfs,s.db⟩) hr.stored hr.calm hpart.1 hpart.2
 have hkeeps:DbKeeps (fun q=>q=inDir cfg.backup.destination backupPart) ⟨s.vfs,s.db⟩ ⟨σ₁,{ s.db with cache }⟩:=
  (backup_follows (S:=fun q=>q=inDir cfg.backup.destination backupPart) rfl).ok hbackup
 obtain ⟨new,hnew,-⟩:=hkeeps.vfs.touched
 obtain ⟨σ₂,hrename,hσ₂,hf₂,ht₂⟩:=rename_calm hσ₁ hhold.1 (backupPath cfg H.last)
 have hsync:=syncDirectory_calm hσ₂ cfg.backup.destination
 have hσ₃:(σ₂.persist Vfs.isDirOp).Calm:=hσ₂.persist _
 have hplaced:(σ₂.persist Vfs.isDirOp).files.find (backupPath cfg H.last)=some (H.image H.last):=by
  change σ₂.files.find _=_
  rw [hf₂,Disk.find_put_self]
 have hother:∀ q,q≠inDir cfg.backup.destination backupPart → q≠backupPath cfg H.last →
   σ₂.files.find q=s.vfs.files.find q:=by
  intro q h1 h2
  rw [hf₂,Disk.find_put_of_ne _ _ h2,Disk.find_remove_of_ne _ h1]
  exact hhold.2 q h1
 have hrun:takeBackup cfg s=(.ok (),⟨σ₂.persist Vfs.isDirOp,{ s.db with cache },s.status⟩):=by
  rw [takeBackup]
  refine (bind_of_ok _ (zoom_of (g:=fun s : ShipIO => DbIO.mk s.vfs s.db) hbackup)).trans ?_
  refine (bind_of_ok _ (zoom_of (g := ShipIO.vfs) hrename)).trans ?_
  refine (bind_of_ok _ (zoom_of (g := ShipIO.vfs) hsync)).trans ?_
  exact bind_of_ok _ (attempt_of (zoom_of (g := ShipIO.vfs) (verifyBackupFile_calm hσ₃ hplaced le_rfl)))
 refine ⟨_,hrun,⟨hr.toPlaced.of_frame ((takeBackup_follows (S:=fun _=>True) trivial
  fun _=>trivial).ok hrun),hσ₃,?_,hr.archiving,hr.idle⟩,hplaced,?_,rfl,hother⟩
 · exact { hr.stored with
    log:=(hother _ hpart.2.symm hfinal.2.symm).trans hr.stored.log
    data:=(hother _ hpart.1.symm hfinal.1.symm).trans hr.stored.data
    cached:=hs₁.cached }
 · change _<σ₂.touched.count _
   have hcount:σ₁.touched.count (backupPath cfg H.last) =
     new.count (backupPath cfg H.last)+s.vfs.touched.count (backupPath cfg H.last):=by
    rw [show σ₁.touched=new++s.vfs.touched from hnew,count_append]
   rw [ht₂,count_cons,count_cons_self]
   omega

/-- A pass that is due and finds no `backup-0.db` writes the backup of the latest commit, whether or
not it is there. -/
theorem Running.pass_backs_up (hr:Running cfg H B f h s) (now:ℤ) (hpos:0<H.last)
 (hnone:s.vfs.files.find (backupPath cfg 0)=none) (hdue:backupDue cfg now s.status.lastBackupUs=true) :
 ∃ s',shipOnce cfg now s=(.ok (),s') ∧ Running cfg H B f h s' ∧
  s'.vfs.files.find (backupPath cfg 0)=none ∧ s'.status.lastBackupUs=now ∧
  s.vfs.touched.count (backupPath cfg H.last)<s'.vfs.touched.count (backupPath cfg H.last) := by
 obtain ⟨shipped,s₁,hcalm₁,hk,hpass⟩:=shipPass_run
  (s:={ s with status:={ s.status with lastAttemptUs:=now } }) hr.calm hr.layout.apart now
 have hr₁:Running cfg H B f h s₁:=Running.keeps
  (s:={ s with status:={ s.status with lastAttemptUs:=now } }) { hr with } hcalm₁ hk
 have hnone₁:s₁.vfs.files.find (backupPath cfg 0)=none:=
  (hk.vfs.files.resolve_left (by simp [hcalm₁.alive]) _ (backupPath_not_segmental 0)).trans hnone
 obtain ⟨s₂,htake,hr₂,-,hcount,hstatus,hother⟩:=hr₁.takeBackup_run
 have hzero:backupPath cfg 0≠backupPath cfg H.last:=fun hq=>hpos.ne (backupPath_inj hq)
 have hbackup:shipBackup cfg now s₁=(.ok true,s₂):=by
  have hdue₁:backupDue cfg now s₁.status.lastBackupUs=true:=by
   rw [hk.lastBackup]
   exact hdue
  have hexists:io (Vfs.pathExists (backupPath cfg 0)) s₁=(.ok false,s₁):=by
   have:=zoom_of (g := ShipIO.vfs) (u:=fun s v=>{ s with vfs:=v }) (s:=s₁) (pathExists_calm hcalm₁ (backupPath cfg 0))
   rwa [hnone₁] at this
  rw [shipBackup,bind_reads,if_neg (by simpa using hdue₁)]
  refine (bind_of_ok _ hexists).trans ?_
  exact bind_of_ok _ htake
 have htouched:s.vfs.touched.count (backupPath cfg H.last) ≤
   s₁.vfs.touched.count (backupPath cfg H.last):=by
  obtain ⟨new,hnew,-⟩:=hk.vfs.touched
  rw [hnew,count_append]
  exact Nat.le_add_left _ _
 rw [bind_of_ok _ hbackup] at hpass
 refine ⟨{ s₂ with
   status:=
    { s₂.status with
      lastSuccessUs:=now
      lastError := ""
      segmentsShipped:=s₂.status.segmentsShipped+shipped
      lastBackupUs:=now
      backupsShipped:=s₂.status.backupsShipped+1 } },?_,{ hr₂ with },?_,rfl,lt_of_le_of_lt htouched hcount⟩
 · rw [shipOnce]
   refine (bind_of_ok _ (modify_run _ _)).trans ?_
   exact bind_of_ok _ (attempt_of hpass)
 · exact (hother _ (backupPath_ne_part 0) hzero).trans hnone₁

end Again

/-- A pass that is not due leaves alone the backup the pass before it took. -/
theorem second_pass_spares : ∃ s s' : ShipIO,
  openDb ['d'] { archiveDir:=['a'] } (Vfs.quiet (exampleFiles []))=(.ok s.db,s.vfs) ∧
   shipOnce exampleConfig 1 s=(.ok (),s') ∧
   (shipOnce exampleConfig 2 s').2.vfs.files.find (backupPath exampleConfig 1) =
    s'.vfs.files.find (backupPath exampleConfig 1) := by
 obtain ⟨s,hopen,hstatus,hr,-,-,hother⟩:=exampleFiles_open []
 have hnone:s.vfs.files.find (backupPath exampleConfig 0)=none:=hother _ (by decide) (by decide)
 obtain ⟨s',hrun,-,-,hlast,hcount⟩:=hr.pass_backs_up 1 (by rw [oneCommit_last]; decide)
  hnone (by rw [hstatus]; rfl)
 rw [oneCommit_last] at hcount
 have hstep:(shipOnce exampleConfig 1 s).2=s':=by rw [hrun]
 have hspared:=shipOnce_spares_backups hr.toPlaced [.pass 1] 2
  ⟨Or.inr (Or.inr fun _ _ h=>h),Or.inl (by
   change backupDue exampleConfig 2 (shipOnce exampleConfig 1 s).2.status.lastBackupUs=false
   rw [hstep,hlast]
   decide),trivial⟩ rfl (q:=backupPath exampleConfig 1) (Or.inr ⟨1,s',rfl,hrun,hcount⟩)
 refine ⟨s,s',hopen,hrun,?_⟩
 have hfiles:=hspared.2
 change (shipOnce exampleConfig 2 (shipOnce exampleConfig 1 s).2).2.vfs.files.find _ =
  (shipOnce exampleConfig 1 s).2.vfs.files.find _ at hfiles
 rwa [hstep] at hfiles

/-- A day later the same backup is written and renamed over the verified one. -/
theorem daily_pass_rewrites : ∃ s : ShipIO,
  openDb ['d'] { archiveDir:=['a'] } (Vfs.quiet (exampleFiles []))=(.ok s.db,s.vfs) ∧
   s.status={} ∧ Placed exampleConfig s ∧
   ∃ w,after (Event.watch exampleConfig) [.pass 1] ⟨s,fun _=>False⟩=w ∧
    w.verified (backupPath exampleConfig 1) ∧
    w.io.vfs.touched.count (backupPath exampleConfig 1) <
     (shipOnce exampleConfig 86400000001 w.io).2.vfs.touched.count (backupPath exampleConfig 1) := by
 obtain ⟨s,hopen,hstatus,hr,-,-,hother⟩:=exampleFiles_open []
 have hnone:s.vfs.files.find (backupPath exampleConfig 0)=none:=hother _ (by decide) (by decide)
 have hpos:0<oneCommit.last:=by
  rw [oneCommit_last]
  decide
 obtain ⟨s₁,hrun₁,hr₁,hnone₁,hlast₁,hcount₁⟩:=hr.pass_backs_up 1 hpos hnone (by
  rw [hstatus]
  rfl)
 obtain ⟨s₂,hrun₂,-,-,-,hcount₂⟩:=hr₁.pass_backs_up 86400000001 hpos hnone₁ (by
  rw [hlast₁]
  decide)
 rw [oneCommit_last] at hcount₁ hcount₂
 refine ⟨s,hopen,hstatus,hr.toPlaced,_,rfl,Or.inr ⟨1,s₁,rfl,hrun₁,hcount₁⟩,?_⟩
 change (shipOnce exampleConfig 1 s).2.vfs.touched.count _ <
  (shipOnce exampleConfig 86400000001 (shipOnce exampleConfig 1 s).2).2.vfs.touched.count _
 rw [hrun₁,hrun₂]
 exact hcount₂

end Archivum.ShippingRuns
