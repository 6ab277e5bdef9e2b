import Archivum.Footprints
import Archivum.ShipperModel

set_option autoImplicit false

/-!
# What the engine's operations may touch

The log touches its file, a commit the log's file, a checkpoint the data file,
the log and one segment of the archive, a backup the file it writes.
-/
namespace Archivum.Footprints
open ByteStrings StatefulActions PageTxn PageFormat VfsModel WalModel DbModel RecoveryModel Act
open ShipperModel

variable {S:Path → Prop}

section Log
variable {path:Path}

lemma randomSalt_within : Within S randomSalt :=
 (randomBytes_within 4).bind fun _=>Within.pure _

lemma writeHeader_within (hp:S path) (h:WalHeader) : Within S (Wal.writeHeader path h) :=
 (write_within hp 0 _).bind fun _=>sync_within path

lemma scanLoop_within (path:Path) (h:WalHeader) (n frame:ℕ) (s:Wal.Scan) : Within S (Wal.scanLoop path h n frame s) := by
 induction n generalizing frame s with
 | zero=>exact Within.pure s
 | succ n ih=>
  refine (read_within path _ _).bind fun buf=>Within.ite (Within.pure s) ?_
  cases s.frame h frame buf with
  | none=>exact Within.pure s
  | some s'=>exact ih (frame+1) s'

lemma trimTail_within (w:Wal) (hp:S w.path) (size:ℕ) : Within S (w.trimTail size) := by
 refine (Within.onlyIf (truncate_within hp _)).bind fun _=>?_
 refine (sync_within _).bind fun _=>?_
 exact (syncDirectory_within _).bind fun _=>Within.pure w

lemma recover_within (hp:S path) (pageSize:ℕ) (o:WalOpenOptions) : Within S (Wal.recover path pageSize o) := by
 refine (size_within path).bind fun size=>(read_within path _ _).bind fun hbuf=>?_
 cases Wal.ownHeader pageSize o.dbId hbuf with
 | none=>
  refine Within.ite (Within.fail _) ?_
  refine randomSalt_within.bind fun salt1=>randomSalt_within.bind fun salt2=>?_
  refine (truncate_within hp 0).bind fun _=>?_
  exact (writeHeader_within hp _).bind fun _=>Within.pure _
 | some h=>
  refine (scanLoop_within path h _ _ _).bind fun s=>?_
  exact Within.ite (Within.pure _) (trimTail_within _ hp _)

lemma openLog_within (hp:S path) (pageSize:ℕ) (o:WalOpenOptions) : Within S (Wal.openLog path pageSize o) := by
 refine (pathExists_within path).bind fun present=>Within.ite (Within.fail _) ?_
 refine (openFile_within hp _).bind fun _=>Within.ite ?_ (recover_within hp pageSize o)
 refine randomSalt_within.bind fun salt1=>randomSalt_within.bind fun salt2=>?_
 refine (writeHeader_within hp _).bind fun _=>?_
 exact (syncDirectory_within _).bind fun _=>Within.pure _

lemma readFramePage_within (w:Wal) (frame:ℕ) : Within S (w.readFramePage frame) := by
 refine Within.ite (Within.fail _) ((read_within _ _ _).bind fun page=>?_)
 exact Within.ite (Within.fail _) (Within.ite (Within.fail _) (Within.pure page))

lemma copyLoop_within (src:Path) (hp:S path) (total n off:ℕ) : Within S (Wal.copyLoop src path total n off) := by
 induction n generalizing off with
 | zero=>exact Within.pure ()
 | succ n ih=>
  refine Within.ite (Within.pure ()) ((read_within _ _ _).bind fun buf=>?_)
  exact Within.ite (Within.fail _) ((write_within hp _ _).bind fun _=>ih _)

lemma copyCommittedTo_within (w:Wal) (hp:S path) : Within S (w.copyCommittedTo path) := by
 refine (openFile_within hp _).bind fun _=>(copyLoop_within _ hp _ _ _).bind fun _=>?_
 refine (sync_within path).bind fun _=>(close_within path).bind fun _=>?_
 exact syncDirectory_within _

end Log

def segmentPath (db:Db) : Path :=
 inDir db.options.archiveDir (Db.archiveSegmentName db.dbId db.wal.header.baseChangeCounter)

structure WalFrame (S:Path → Prop) (s s' : WalIO) : Prop where
 vfs : Frame S s.vfs s'.vfs
 path : s'.wal.path=s.wal.path

structure WalKeeps (S:Path → Prop) (s s' : WalIO) : Prop extends WalFrame S s s' where
 header : s'.wal.header=s.wal.header

/-- The database object stays the one at its path, with its options. -/
structure DbFrame (S:Path → Prop) (s s' : DbIO) : Prop where
 vfs : Frame S s.vfs s'.vfs
 path : s'.db.path=s.db.path
 options : s'.db.options=s.db.options
 log : s'.db.wal.path=s.db.wal.path

/-- And its next checkpoint archives under the same name. -/
structure DbKeeps (S:Path → Prop) (s s' : DbIO) : Prop extends DbFrame S s s' where
 segment : segmentPath s'.db=segmentPath s.db

structure ShipFrame (S:Path → Prop) (s s' : ShipIO) : Prop where
 vfs : Frame S s.vfs s'.vfs
 path : s'.db.path=s.db.path
 options : s'.db.options=s.db.options
 log : s'.db.wal.path=s.db.wal.path

structure ShipKeeps (S:Path → Prop) (s s' : ShipIO) : Prop where
 vfs : Frame S s.vfs s'.vfs
 db : s'.db=s.db
 lastBackup : s'.status.lastBackupUs=s.status.lastBackupUs

lemma ShipKeeps.frame {S:Path → Prop} {s s' : ShipIO} (h:ShipKeeps S s s') : ShipFrame S s s' := by
 refine ⟨h.vfs,?_,?_,?_⟩
 all_goals rw [h.db]

instance (S:Path → Prop) : IsPreorder WalIO (WalFrame S) where
 refl _ := ⟨Frame.refl _,rfl⟩
 trans _ _ _ h h':=⟨h.vfs.trans h'.vfs,h'.path.trans h.path⟩

instance (S:Path → Prop) : IsPreorder WalIO (WalKeeps S) where
 refl s := ⟨refl_of (WalFrame S) s,rfl⟩
 trans _ _ _ h h':=⟨trans_of (WalFrame S) h.toWalFrame h'.toWalFrame,h'.header.trans h.header⟩

instance (S:Path → Prop) : IsPreorder DbIO (DbFrame S) where
 refl _ := ⟨Frame.refl _,rfl,rfl,rfl⟩
 trans _ _ _ h h':=⟨h.vfs.trans h'.vfs,h'.path.trans h.path,h'.options.trans h.options,
  h'.log.trans h.log⟩

instance (S:Path → Prop) : IsPreorder DbIO (DbKeeps S) where
 refl s := ⟨refl_of (DbFrame S) s,rfl⟩
 trans _ _ _ h h':=⟨trans_of (DbFrame S) h.toDbFrame h'.toDbFrame,h'.segment.trans h.segment⟩

instance (S:Path → Prop) : IsPreorder ShipIO (ShipFrame S) where
 refl _ := ⟨Frame.refl _,rfl,rfl,rfl⟩
 trans _ _ _ h h':=⟨h.vfs.trans h'.vfs,h'.path.trans h.path,h'.options.trans h.options,
  h'.log.trans h.log⟩

instance (S:Path → Prop) : IsPreorder ShipIO (ShipKeeps S) where
 refl _ := ⟨Frame.refl _,rfl,rfl⟩
 trans _ _ _ h h':=⟨h.vfs.trans h'.vfs,h'.db.trans h.db,h'.lastBackup.trans h.lastBackup⟩

section Zooms
variable {α:Type}

lemma Within.wal {m:VfsM α} (h:Within S m) (s : WalIO) :
 Act.Follows (WalKeeps S) (Wal.io m) s := Follows.zoom (h _) fun _ hσ=>⟨⟨hσ,rfl⟩,rfl⟩

lemma Within.db {m:VfsM α} (h:Within S m) (s : DbIO) : Act.Follows (DbKeeps S) (Db.io m) s :=
 Follows.zoom (h _) fun _ hσ=>⟨⟨hσ,rfl,rfl,rfl⟩,rfl⟩

lemma Within.ship {m:VfsM α} (h:Within S m) (s : ShipIO) : Act.Follows (ShipKeeps S) (ShipperModel.io m) s :=
 Follows.zoom (h _) fun _ hσ=>⟨hσ,rfl,rfl⟩

lemma follows_onWal {m:WalM α} {s : DbIO} (h:Act.Follows (WalFrame S) m ⟨s.vfs,s.db.wal⟩) :
 Act.Follows (DbFrame S) (Db.onWal m) s :=
 Follows.zoom h fun _ hσ=>⟨hσ.vfs,rfl,rfl,hσ.path⟩

lemma follows_onDb {m:DbM α} {s : ShipIO} (h:Act.Follows (DbFrame S) m ⟨s.vfs,s.db⟩) :
 Act.Follows (ShipFrame S) (onDb m) s :=
 Follows.zoom h fun _ hσ=>⟨hσ.vfs,hσ.path,hσ.options,hσ.log⟩

end Zooms

lemma appendTransaction_follows {s : WalIO} (hp:S s.wal.path) (images:List (ℕ × Bytes))
 (dbSize:ℕ) : Act.Follows (WalKeeps S) (Wal.appendTransaction images dbSize) s := by
 refine Follows.bind_reads ?_
 refine Follows.ite (fun _=>Follows.fail _) fun _=>?_
 refine Follows.ite (fun _=>Follows.fail _) fun _=>?_
 refine Follows.ite (fun _=>Follows.fail _) fun _=>?_
 refine Follows.ite (fun _=>Follows.fail _) fun _=>?_
 have hwrite:∀ off data,Within S (do
   File.write s.wal.path off data
   File.sync s.wal.path):=fun off data=>
  (write_within hp off data).bind fun _=>sync_within s.wal.path
 refine Follows.bind ((hwrite _ _).wal s).attempt fun done s₁ _=>?_
 cases done with
 | error e=>
  have hdiscard:Within S s.wal.discardUncommitted:=
   (truncate_within hp _).bind fun _=>sync_within s.wal.path
  refine Follows.bind (hdiscard.wal s₁).attempt fun discarded s₂ _=>?_
  refine Follows.bind (Follows.modify ⟨⟨Frame.refl _,rfl⟩,rfl⟩) fun _ s₃ _=>?_
  cases discarded with
  | error d=>exact Follows.fail _
  | ok _=>exact Follows.fail _
 | ok _=>exact Follows.modify ⟨⟨Frame.refl _,rfl⟩,rfl⟩

lemma reset_follows {s : WalIO} (hp:S s.wal.path) (base:ℕ) : Act.Follows (WalFrame S) (Wal.reset base) s := by
 refine Follows.bind_reads ?_
 refine Follows.ite (fun _=>Follows.fail _) fun _=>?_
 refine Follows.ite (fun _=>Follows.fail _) fun _=>?_
 refine Follows.bind ((randomSalt_within.wal s).mono fun _ h=>h.toWalFrame) fun salt1 s₁ h₁=>?_
 refine Follows.bind ((randomSalt_within.wal s₁).mono fun _ h=>h.toWalFrame) fun salt2 s₂ h₂=>?_
 refine Follows.bind (Follows.modify ⟨Frame.refl _,rfl⟩) fun _ s₃ h₃=>?_
 refine Follows.bind (((truncate_within hp 0).wal s₃).mono fun _ h=>h.toWalFrame).attempt fun emptied s₄ h₄=>?_
 cases emptied with
 | error e=>
  exact Follows.bind (Follows.modify ⟨Frame.refl _,rfl⟩) fun _ _ _=>Follows.fail _
 | ok _=>
  have hpath:s₄.wal.path=s.wal.path:=
   h₄.path.trans (h₃.path.trans (h₂.path.trans h₁.path))
  refine Follows.bind (Follows.modify ⟨Frame.refl _,hpath.symm⟩) fun _ s₅ _=>?_
  refine Follows.bind (((writeHeader_within hp _).wal s₅).mono fun _ h=>h.toWalFrame).attempt fun written s₆ _=>?_
  cases written with
  | error e=>
   exact Follows.bind (Follows.modify ⟨Frame.refl _,rfl⟩) fun _ _ _=>
    Follows.fail _
  | ok _=>exact Follows.pure ()

section Open
variable {path:Path}

lemma removeStaleLog_within (hl:S (walPathOf path)) : Within S (removeStaleLog path) := by
 refine (pathExists_within _).attempt.bind fun walExists=>?_
 rcases walExists with e | _ | _
 · exact Within.pure ()
 · exact Within.pure ()
 · exact (remove_within hl).bind fun _=>syncDirectory_within _

lemma initFile_within (hp:S path) (hl:S (walPathOf path)) (options:DbOptions) : Within S (initFile path options) := by
 refine (randomBytes_within 16).bind fun id=>(truncate_within hp 0).bind fun _=>?_
 refine (write_within hp 0 _).bind fun _=>(sync_within path).bind fun _=>?_
 exact (syncDirectory_within _).bind fun _=>removeStaleLog_within hl

lemma recoverPage0_within (hp:S path) (pageSize:ℕ) : Within S (recoverPage0FromWal path pageSize) := by
 refine (pathExists_within path).bind fun present=>Within.ite (Within.pure none) ?_
 refine (openRead_within path).bind fun _=>(read_within path _ _).bind fun hbuf=>?_
 refine (close_within path).bind fun _=>Within.ite (Within.pure none) ?_
 cases WalHeader.decode hbuf with
 | error e=>exact Within.pure none
 | ok wh=>
  refine Within.ite (Within.pure none) ((openLog_within hp _ _).bind fun wal=>?_)
  refine Within.ite (Within.pure none) ((readFramePage_within wal _).bind fun page0=>?_)
  exact Within.pure _

lemma replacePage0_within (hp:S path) (hl:S (walPathOf path)) (options:DbOptions)
 (pageSize size:ℕ) : Within S (replacePage0 path options pageSize size) := by
 refine (recoverPage0_within hl pageSize).bind fun fromWal=>?_
 rcases fromWal with _ | ⟨wal,page0⟩
 · refine Within.ite ?_ (Within.fail _)
   refine (initFile_within hp hl options).bind fun _=>(read_within path _ _).bind fun page0=>?_
   cases DbHeader.decode (resize page0 pageSize) with
   | error e=>exact Within.fail _
   | ok h=>exact Within.pure _
 · cases h:DbHeader.decode page0 with
   | error e=>
    simp only [h]
    exact Within.fail _
   | ok hdr=>
    simp only [h]
    exact Within.pure _

lemma openLogFor_within (hl:S (walPathOf path)) (options:DbOptions)
 (hdr:PageFormat.DbHeader) (wal?:Option Wal) : Within S (openLogFor path options hdr wal?) := by
 refine (sync_within path).bind fun _=>(syncDirectory_within _).bind fun _=>?_
 have hlog:Within S (logFor path hdr wal?):=by
  cases wal? with
  | none=>exact openLog_within hl _ _
  | some wal=>exact Within.pure wal
 exact hlog.bind fun wal=>Within.ite (Within.pure _) (Within.fail _)

lemma openDb_within (hp:S path) (hl:S (walPathOf path)) (options:DbOptions) : Within S (openDb path options) := by
 refine Within.ite (Within.fail _) (initEntropy_within.bind fun _=>?_)
 refine (pathExists_within path).bind fun present=>Within.ite (Within.fail _) ?_
 refine (openFile_within hp _).bind fun _=>(size_within path).bind fun size=>?_
 refine (Within.onlyIf (initFile_within hp hl options)).bind fun _=>?_
 refine (read_within path _ _).bind fun probe=>(read_within path _ _).bind fun page0=>?_
 refine (size_within path).bind fun size=>?_
 cases usableHeader probe page0 with
 | some h=>exact openLogFor_within hl options h none
 | none=>
  refine (replacePage0_within hp hl options _ size).bind fun r=>?_
  exact openLogFor_within hl options r.1 r.2

end Open

section Reads
variable {s : DbIO}

lemma readCopy_within (db:Db) (page frame:ℕ) : Within S (db.readCopy page frame) := by
 refine Within.ite (readFramePage_within _ _) ((read_within _ _ _).bind fun out=>?_)
 exact Within.ite (Within.fail _) (Within.ite (Within.fail _) (Within.pure out))

lemma readCommitted_follows (page snapshot:ℕ) : Act.Follows (DbKeeps S) (Db.readCommitted page snapshot) s := by
 refine Follows.bind_reads (Follows.ite (fun _=>Follows.fail _) fun _=>?_)
 dsimp only
 cases s.db.cacheGet (page,s.db.wal.find page snapshot) with
 | some data=>
  exact Follows.bind (Follows.modify ⟨⟨Frame.refl _,rfl,rfl,rfl⟩,rfl⟩) fun _ _ _=>
   Follows.pure _
 | none=>
  refine Follows.bind ((readCopy_within _ _ _).db s) fun out _ _=>?_
  exact Follows.bind (Follows.modify ⟨⟨Frame.refl _,rfl,rfl,rfl⟩,rfl⟩) fun _ _ _=>
   Follows.pure _

lemma committedHeader_follows (snapshot:ℕ) : Act.Follows (DbKeeps S) (Db.committedHeader snapshot) s := by
 refine Follows.bind (readCommitted_follows 0 snapshot) fun page0 _ _=>?_
 cases DbHeader.decode page0 with
 | ok h=>exact Follows.pure h
 | error e=>exact Follows.fail e

lemma readerEnded_follows : Act.Follows (DbKeeps S) Db.readerEnded s :=
 Follows.modify ⟨⟨Frame.refl _,rfl,rfl,rfl⟩,rfl⟩

lemma beginRead_follows : Act.Follows (DbKeeps S) Db.beginRead s := by
 refine Follows.bind_reads (Follows.ite (fun _=>Follows.fail _) fun _=>?_)
 refine Follows.bind (Follows.modify ⟨⟨Frame.refl _,rfl,rfl,rfl⟩,rfl⟩) fun _ _ _=>?_
 refine Follows.bind (committedHeader_follows _).attempt fun header _ _=>?_
 cases header with
 | error e=>exact Follows.bind readerEnded_follows fun _ _ _=>Follows.fail e
 | ok h=>exact Follows.pure _

lemma backupPages_follows {dst:Path} (hd:S dst) (t:Db.ReadTxn) (n page:ℕ) :
 Act.Follows (DbKeeps S) (Db.backupPages t dst n page) s := by
 induction n generalizing page s with
 | zero=>exact Follows.pure ()
 | succ n ih=>
  refine Follows.bind_reads ?_
  refine Follows.bind ?_ fun buf s₁ _=>?_
  · exact Follows.ite (fun _=>Follows.fail _) fun _=>readCommitted_follows _ _
  · exact Follows.bind ((write_within hd _ _).db s₁) fun _ _ _=>ih _

lemma backupFile_follows {dst:Path} (hd:S dst) (t:Db.ReadTxn) : Act.Follows (DbKeeps S) (Db.backupFile t dst) s := by
 refine Follows.bind ((openFile_within hd _).db s) fun _ s₁ _=>?_
 refine Follows.bind (backupPages_follows hd t _ _) fun _ s₂ _=>Within.db ?_ s₂
 exact (sync_within dst).bind fun _=>(close_within dst).bind fun _=>syncDirectory_within _

lemma backup_follows {dst:Path} (hd:S dst) : Act.Follows (DbKeeps S) (Db.backup dst) s := by
 refine Follows.bind beginRead_follows fun t _ _=>?_
 refine Follows.bind (backupFile_follows hd t).attempt fun done _ _=>?_
 refine Follows.bind readerEnded_follows fun _ _ _=>?_
 cases done with
 | error e=>exact Follows.fail e
 | ok _=>exact Follows.pure _

end Reads

structure Owns (S:Path → Prop) (db:Db) : Prop where
 data : S db.path
 log : S db.wal.path
 part : S (segmentPath db++Db.partSuffix)
 segment : S (segmentPath db)

section Checkpoints
variable {s : DbIO}

lemma copyFrames_within (db:Db) (hp:S db.path) (frames:List (ℕ × ℕ)) : Within S (db.copyFrames frames) := by
 induction frames with
 | nil=>exact Within.pure ()
 | cons x frames ih=>
  refine (readFramePage_within _ _).bind fun buf=>?_
  exact (write_within hp _ _).bind fun _=>ih

lemma archiveLog_within (db:Db) (hpart:S (segmentPath db++Db.partSuffix))
 (hseg:S (segmentPath db)) : Within S db.archiveLog := by
 refine Within.ite (Within.pure ()) ((copyCommittedTo_within _ hpart).bind fun _=>?_)
 exact (rename_within hpart hseg).bind fun _=>syncDirectory_within _

lemma checkpointLocked_follows (h:Owns S s.db) : Act.Follows (DbFrame S) Db.checkpointLocked s := by
 refine Follows.bind_reads (Follows.ite (fun _=>Follows.fail _) fun _=>?_)
 refine Follows.ite (fun _=>Follows.fail _) fun _=>?_
 refine Follows.ite (fun _=>Follows.pure ()) fun _=>?_
 have hkeep:∀ {α:Type} {m:VfsM α},Within S m → ∀ s,Act.Follows (DbFrame S) (Db.io m) s:=
  fun hm s=>(hm.db s).mono fun _ hs=>hs.toDbFrame
 refine Follows.bind (hkeep (copyFrames_within _ h.data _) s) fun _ s₁ h₁=>?_
 refine Follows.bind (hkeep (size_within _) s₁) fun size s₂ h₂=>?_
 refine Follows.bind (hkeep (truncate_within h.data _) s₂).onlyIf fun _ s₃ h₃=>?_
 refine Follows.bind (hkeep (sync_within _) s₃) fun _ s₄ h₄=>?_
 refine Follows.bind (hkeep (archiveLog_within _ h.part h.segment) s₄) fun _ s₅ h₅=>?_
 refine Follows.bind (Follows.modify ⟨Frame.refl _,rfl,rfl,rfl⟩) fun _ s₆ h₆=>?_
 have hlog:s₆.db.wal.path=s.db.wal.path:=h₆.log.trans (h₅.log.trans (h₄.log.trans (h₃.log.trans (h₂.log.trans h₁.log))))
 refine follows_onWal (reset_follows ?_ _)
 change S s₆.db.wal.path
 rw [hlog]
 exact h.log

lemma Owns.keeps {s' : DbIO} (h:Owns S s.db) (hs:DbKeeps S s s') : Owns S s'.db := by
 obtain ⟨hdata,hlog,hpart,hseg⟩:=h
 refine ⟨?_,?_,?_,?_⟩
 · rwa [hs.path]
 · rwa [hs.log]
 · rwa [hs.segment]
 · rwa [hs.segment]

lemma cacheFrames_same (images:List (ℕ × Bytes)) (frame:ℕ) (db:Db) :
  ∃ cache,Db.cacheFrames images frame db={ db with cache } := by
 induction images generalizing frame db with
 | nil=>exact ⟨db.cache,rfl⟩
 | cons x images ih=>exact ih (frame+1) (db.cachePut (x.1,frame) x.2)

lemma commitFrames_follows (h:Owns S s.db) (images:List (ℕ × Bytes)) (dbSize:ℕ) :
 Act.Follows (DbFrame S) (Db.commitFrames images dbSize) s := by
 refine Follows.bind_reads (Follows.ite (fun _=>Follows.fail _) fun _=>?_)
 have hwal:=appendTransaction_follows (s:=⟨s.vfs,s.db.wal⟩) h.log images dbSize
 have happend:Act.Follows (DbKeeps S) (Db.onWal (Wal.appendTransaction images dbSize)) s:=by
  refine Follows.zoom hwal fun t ht=>⟨⟨ht.vfs,rfl,rfl,ht.path⟩,?_⟩
  simp only [segmentPath,ht.header]
 have hcache:∀ s' : DbIO,Act.Follows (DbKeeps S) (Db.set (Db.cacheFrames images s.db.wal.nextFrame)) s':=by
  intro s'
  obtain ⟨cache,hcache⟩:=cacheFrames_same images s.db.wal.nextFrame s'.db
  refine Follows.modify ?_
  rw [hcache]
  exact ⟨⟨Frame.refl _,rfl,rfl,rfl⟩,rfl⟩
 refine Follows.bind_of happend (fun _ hs=>hs.toDbFrame) fun _ s₁ h₁=>?_
 refine Follows.bind_of (hcache s₁) (fun _ hs=>hs.toDbFrame) fun _ s₂ h₂=>?_
 refine Follows.bind_reads (Follows.ite (fun _=>?_) fun _=>Follows.pure ())
 have howns:=h.keeps (trans_of (DbKeeps S) h₁ h₂)
 exact Follows.bind (checkpointLocked_follows howns).attempt fun _ _ _=>Follows.pure ()

lemma beginWrite_follows : Act.Follows (DbKeeps S) Db.beginWrite s := by
 refine Follows.bind_reads (Follows.ite (fun _=>Follows.fail _) fun _=>?_)
 exact Follows.ite (fun _=>Follows.fail _) fun _=>committedHeader_follows _

lemma commit_follows (h:Owns S s.db) (u:Db.Update) (now:ℤ) : Act.Follows (DbFrame S) (Db.commit u now) s := by
 refine Follows.bind_of beginWrite_follows (fun _ hs=>hs.toDbFrame) fun snapshot s₁ h₁=>?_
 refine Follows.ite (fun _=>Follows.pure ()) fun _=>?_
 exact commitFrames_follows (h.keeps h₁) _ _

end Checkpoints

end Archivum.Footprints
