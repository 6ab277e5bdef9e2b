import Archivum.CheckpointRules

set_option autoImplicit false

/-!
# Backups of a database on a history

`Db::backup` reads the latest snapshot page by page, and `verify_backup_file`
accepts what it wrote.
-/
namespace Archivum.BackupRules
open ByteStrings StatefulActions PageTxn PageFormat VfsModel WalModel DbModel Histories LogImage Act
open DbReads DbOpen PagedFiles RecoveryModel ReplayRules CheckpointRules

section Backup
variable {H:Line} {B f:ℕ} {h:WalHeader} {s : DbIO} {dst:Path}

lemma readPage_run (hs:Stored H B f h s.db s.vfs.files) (hσ:s.vfs.Calm) {t:Db.ReadTxn}
  (hsnap:t.snapshot=s.db.wal.lastCommit) (hcount:t.pageCount=H.count H.last) {p:ℕ}
  (hp:p<H.count H.last) :
  ∃ cache,Db.readPage t p s=(.ok (H.pages H.last p),{ s with db:={ s.db with cache } }) ∧
   Stored H B f h { s.db with cache } s.vfs.files := by
 obtain ⟨s',hread,hserving,hvfs,hdb⟩:=(hs.serving hσ).readCommitted_run hp
 have hs':s'={ s with db:={ s.db with cache:=s'.db.cache } }:=by
  rw [← hdb,← hvfs]
 refine ⟨s'.db.cache,?_,{ hs with cached:=?_ }⟩
 · rw [Db.readPage,if_neg (by omega),hsnap,hread]
   exact congrArg _ hs'
 · intro x hx
   have hps:s'.db.pageSize=s.db.pageSize:=by rw [hdb]
   have:=hserving.cached x hx
   rwa [hps] at this

lemma backupPages_run (hdata:dst≠s.db.path) (hlog:dst≠s.db.wal.path) {t:Db.ReadTxn}
  (hcount:t.pageCount=H.count H.last) (n page:ℕ) (hn:page+n=H.count H.last)
  (hs:Stored H B f h s.db s.vfs.files) (hσ:s.vfs.Calm) (hsnap:t.snapshot=s.db.wal.lastCommit)
  (hfile:s.vfs.files.find dst=some ((List.range page).flatMap (H.pages H.last))) :
  ∃ σ cache,Db.backupPages t dst n page s=(.ok (),⟨σ,{ s.db with cache }⟩) ∧ σ.Calm ∧
   Stored H B f h { s.db with cache } σ.files ∧ Holding s.vfs.files dst (H.image H.last) σ.files := by
 induction n generalizing page s with
 | zero=>
  refine ⟨s.vfs,s.db.cache,rfl,hσ,hs,?_,fun _ _=>rfl⟩
  rw [hfile,Line.image,← hn,Nat.add_zero]
 | succ n ih=>
  obtain ⟨cache,hread,hs₁⟩:=readPage_run hs hσ hsnap hcount (p:=page) (by omega)
  have hlen:((List.range page).flatMap (H.pages H.last)).length=page*s.db.pageSize:=by
   rw [hs.pageSize]
   exact flatMap_pages_length _ _ fun p hp=>Line.pages_length le_rfl (by omega)
  obtain ⟨σ₁,hwrite,hσ₁,hf₁⟩:=write_run hσ hfile (page*s.db.pageSize) (H.pages H.last page)
  rw [← hlen,writeAt_end] at hf₁
  obtain ⟨σ,cache',hrest,hσ',hs',hhold⟩:=ih (s:=⟨σ₁,{ s.db with cache }⟩) hdata hlog (page+1) (by omega)
   (hs₁.congr (by rw [hf₁,Disk.find_put_of_ne _ _ hdata.symm])
    (by rw [hf₁,Disk.find_put_of_ne _ _ hlog.symm])) hσ₁ hsnap
   (by rw [hf₁,Disk.find_put_self,List.range_succ,List.flatMap_append,List.flatMap_singleton])
  refine ⟨σ,cache',?_,hσ',hs',hhold.1,fun q hq=>?_⟩
  · rw [Db.backupPages,bind_reads,bind_of_ok _ hread]
    have hio:Db.io (File.write dst (page*s.db.pageSize) (H.pages H.last page))
      { s with db:={ s.db with cache } }=(.ok (),⟨σ₁,{ s.db with cache }⟩):=
     zoom_of (g := DbIO.vfs) hwrite
    exact (bind_of_ok _ hio).trans hrest
  · rw [hhold.2 q hq,hf₁,Disk.find_put_of_ne _ _ hq]

lemma backup_run (hs:Stored H B f h s.db s.vfs.files) (hσ:s.vfs.Calm) (hdata:dst≠s.db.path)
  (hlog:dst≠s.db.wal.path) :
  ∃ σ cache,Db.backup dst s=(.ok H.last,⟨σ,{ s.db with cache }⟩) ∧ σ.Calm ∧
   Stored H B f h { s.db with cache } σ.files ∧ Holding s.vfs.files dst (H.image H.last) σ.files := by
 obtain ⟨s₁,hbegin,hserving₁,hvfs₁,hdb₁⟩:=(hs.serving hσ).beginRead_run (Line.count_pos le_rfl) (decode_pages_zero le_rfl)
 set t:Db.ReadTxn:=⟨s.db.wal.lastCommit,(H.headerAt H.last).pageCount,(H.headerAt H.last).changeCounter⟩ with ht
 have hs₁:Stored H B f h s₁.db s₁.vfs.files:=by
  have hps:s₁.db.pageSize=s.db.pageSize:=by rw [hdb₁]
  rw [hvfs₁,hdb₁]
  refine { hs with cached:=fun x hx=>?_ }
  have:=hserving₁.cached x hx
  rwa [hps] at this
 obtain ⟨⟨⟩,σ₂,hcreate,hat₂⟩:=(createFile_rule (F:=False) s₁.vfs.files dst).run ((hvfs₁ ▸ hσ).at False) fun _ _ h=>h.1
 obtain ⟨hf₂,hσ₂⟩:=hat₂.calm
 have hpath:dst≠s₁.db.path ∧ dst≠s₁.db.wal.path:=by
  rw [hdb₁]
  exact ⟨hdata,hlog⟩
 obtain ⟨σ₃,cache,hpages,hσ₃,hs₃,hhold⟩:=backupPages_run (s:=⟨σ₂,s₁.db⟩) (t:=t) hpath.1
  hpath.2 rfl (H.count H.last) 0 (Nat.zero_add _)
  (hs₁.congr (by rw [hf₂,Disk.find_put_of_ne _ _ hpath.1.symm])
   (by rw [hf₂,Disk.find_put_of_ne _ _ hpath.2.symm])) hσ₂ (by rw [hdb₁])
  (by rw [hf₂,Disk.find_put_self]; rfl)
 obtain ⟨σ₄,hsync,hσ₄,hf₄⟩:=sync_run hσ₃ dst
 obtain ⟨σ₅,hdir,hσ₅,hf₅⟩:=syncDirectory_run hσ₄ (directoryOf dst)
 have hend:(do
   File.sync dst
   File.close dst
   Vfs.syncDirectory (directoryOf dst):VfsM Unit) σ₃=(.ok (),σ₅):=by
  rw [bind_of_ok _ hsync,bind_of_ok _ (close_calm hσ₄ dst),hdir]
 have hfile:Db.backupFile t dst s₁=(.ok (),⟨σ₅,{ s₁.db with cache }⟩):=by
  rw [Db.backupFile]
  refine (bind_of_ok _ (zoom_of (g := DbIO.vfs) hcreate)).trans ?_
  refine (bind_of_ok _ hpages).trans ?_
  exact zoom_of (g := DbIO.vfs) (s:=⟨σ₃,{ s₁.db with cache }⟩) hend
 have hdb:({ s₁.db with cache,activeReaders:=s₁.db.activeReaders-1 }:Db) =
   { s.db with cache }:=by
  rw [hdb₁]
  rfl
 refine ⟨σ₅,cache,?_,hσ₅,?_,?_,fun q hq=>?_⟩
 · rw [Db.backup,bind_of_ok _ hbegin,bind_of_ok _ (attempt_of hfile)]
   refine (bind_of_ok _ (modify_run _ _)).trans ?_
   rw [← hdb]
   refine congrArg (fun n=>(Except.ok n,_)) ?_
   exact Line.headerAt_counter le_rfl
 · rw [← hdb,hf₅,hf₄]
   exact { hs₃ with }
 · rw [hf₅,hf₄]
   exact hhold.1
 · rw [hf₅,hf₄,hhold.2 q hq,hf₂,Disk.find_put_of_ne _ _ hq,hvfs₁]

end Backup

section Verify
variable {H:Line} {σ:Vfs} {path:Path} {n:ℕ}

lemma verifyPages_calm (hσ:σ.Calm) (hfile:σ.files.find path=some (H.image n)) (hn:n≤H.last)
 (k p:ℕ) (hk:p+k=H.count n) : verifyPages path H.pageSize k p σ=(.ok (),σ) := by
 induction k generalizing p with
 | zero=>rfl
 | succ k ih=>
  have hp:p<H.count n:=by omega
  rw [verifyPages,bind_of_ok _ (read_calm hσ hfile _ _),Line.slice_image hn hp,if_neg]
  · exact ih (p+1) (by omega)
  · simp [Line.pages_length hn hp,Line.pages_ok hn hp]

lemma verifyBackupFile_calm (hσ:σ.Calm) (hfile:σ.files.find path=some (H.image n))
 (hn:n≤H.last) : verifyBackupFile path σ=(.ok (),σ) := by
 have hlong:=image_long hn
 have hmin:=(Line.pageSize_bounds (H:=H)).1
 have hlen:(slice (H.image n) 0 kMinPageSize).length=kMinPageSize:=
  slice_length _ _ _ (by omega)
 have hprobe:=probe_image hn
 rw [probeHeader,if_pos (by rw [hlen]; decide)] at hprobe
 rw [verifyBackupFile,bind_of_ok _ (openFile_calm hσ hfile (by simp) rfl),
  bind_of_ok _ (read_calm hσ hfile _ _),if_neg (by rw [hlen]; decide),hprobe]
 simp only
 rw [bind_of_ok _ (size_calm hσ hfile),Line.image_length hn,Line.headerAt_pageSize hn,if_neg (by rw [Line.count]; simp)]
 exact verifyPages_calm hσ hfile hn _ _ (Nat.zero_add _)

end Verify

end Archivum.BackupRules
