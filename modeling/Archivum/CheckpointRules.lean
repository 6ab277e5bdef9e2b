import Archivum.EngineFootprints
import Archivum.ReplayRules

set_option autoImplicit false

/-!
# Checkpoints and appended commits

The copy of the log that goes to the archive, the latest frames that go into the
data file, and the transaction that is appended to the log, as rules that hold
with and without faults.
-/
namespace Archivum.CheckpointRules
open ByteStrings StatefulActions PageTxn PageFormat VfsModel WalModel DbModel Histories LogImage List Act
open Overlays DbReads DbOpen PagedFiles RecoveryModel ReplayRules Footprints

section Copy
variable {F:Prop} {d:Disk} {src dst:Path} {b:Bytes}

lemma copyLoop_rule (hsrc:d.find src=some b) (hne:src≠dst) (n off:ℕ) (hfuel:b.length<off+n) (hoff:off≤b.length) :
 Act.Triple (Vfs.At F (d.put dst (b.take off))) (Wal.copyLoop src dst b.length n off)
  (fun _=>Vfs.At F (d.put dst b)) fun _=>Vfs.Failed F (OnlyAt dst d) := by
 induction n generalizing off with
 | zero=>omega
 | succ n ih=>
  rw [Wal.copyLoop]
  refine Triple.ite (fun hend=>?_) fun hmore=>?_
  · rw [take_of_length_le hend]
    exact Triple.pure fun _ h=>h
  · have hread:(d.put dst (b.take off)).find src=some b:=by
     rw [Disk.find_put_of_ne _ _ hne]
     exact hsrc
    have hlen:(slice b off (min (2^16) (b.length-off))).length =
      min (2^16) (b.length-off):=by
     rw [slice,length_take,length_drop]
     omega
    refine Triple.bind ((read_rule hread off _).onError fun _ _ h=>
     h.imp fun _ hd=>hd ▸ onlyAt_put dst d _) fun buf=>Triple.fact fun hbuf=>?_
    subst hbuf
    rw [if_neg (not_not_intro hlen)]
    have hwrite:=write_rule (F:=F) (Disk.find_put_self d dst (b.take off)) off (slice b off (min (2^16) (b.length-off)))
    have hend:=writeAt_end (b.take off) (slice b off (min (2^16) (b.length-off)))
    rw [length_take,min_eq_left hoff,take_append_slice] at hend
    rw [Disk.put_put,hend] at hwrite
    refine Triple.bind (hwrite.onError fun _ _ h=>h.imp ?_) fun _=>ih _ ?_ ?_
    · rintro _ ⟨k,rfl⟩
      rw [Disk.put_put]
      exact onlyAt_put dst d _
    · omega
    · omega

lemma copyCommittedTo_rule {w:Wal} (hsrc:d.find w.path=some b) (hne:w.path≠dst) (hlen:w.committedBytes=b.length) :
 Act.Triple (Vfs.At F d) (w.copyCommittedTo dst) (fun _=>Vfs.At F (d.put dst b)) fun _=>Vfs.Failed F (OnlyAt dst d) := by
 have hself:∀ d',d'=d → OnlyAt dst d d':=fun _ h=>h ▸ onlyAt_refl dst d
 have hput:∀ c d',d'=d.put dst c → OnlyAt dst d d':=fun c _ h=>h ▸ onlyAt_put dst d c
 rw [Wal.copyCommittedTo,hlen]
 refine Triple.bind ((createFile_rule d dst).onError fun _ _ h=>h.imp hself) fun _=>?_
 refine Triple.bind (copyLoop_rule hsrc hne _ 0 (by omega) (by omega)) fun _=>?_
 refine Triple.bind ((sync_rule dst).onError fun _ _ h=>h.imp (hput b)) fun _=>?_
 refine Triple.bind ((close_rule dst).onError fun _ _ h=>h.imp (hput b)) fun _=>?_
 exact (syncDirectory_rule _).onError fun _ _ h=>h.imp (hput b)

end Copy

section Frames
variable {F:Prop} {d:Disk} {cs:List Commit} {b:Bytes}

/-- The disk differs from `d` at `p` only, where it holds `b`. -/
def Holding (d:Disk) (p:Path) (b:Bytes) (d':Disk) : Prop :=
 d'.find p=some b ∧ OnlyAt p d d'

lemma Holding.put {p:Path} {b c:Bytes} {d':Disk} (h:Holding d p b d') : Holding d p c (d'.put p c) :=
 ⟨Disk.find_put_self d' p c,fun q hq=>(Disk.find_put_of_ne d' c hq).trans (h.2 q hq)⟩

lemma copyFrames_rule (db:Db) (hne:db.wal.path≠db.path)
 (hf:d.find db.wal.path=some b) (hl:LogHolds db.wal.header cs b) (hps:db.wal.header.pageSize=db.wal.pageSize)
 (hnext:db.wal.nextFrame=(Line.imagesOf cs).length+1) (l:List (ℕ × (ℕ × Bytes)))
 (hl':∀ x∈l,(Line.imagesOf cs)[x.1]? = some x.2) (x:Bytes) :
 Act.Triple (fun σ=>∃ d',Holding d db.path x d' ∧ σ.At F d') (db.copyFrames (l.map fun y=>(y.2.1,y.1+1)))
  (fun _ σ=>∃ d',Holding d db.path (writePages db.pageSize (l.map Prod.snd) x) d' ∧ σ.At F d') fun _ _=>F := by
 induction l generalizing x with
 | nil=>exact Triple.pure fun _ h=>h
 | cons y l ih=>
  refine Triple.exists_fact fun d'=>Triple.fact fun hd'=>?_
  have hread:d'.find db.wal.path=some b:=(hd'.2 _ hne).trans hf
  rw [map_cons,Db.copyFrames]
  refine Triple.bind ((readFramePage_rule hread hl hps hnext
   (hl' y mem_cons_self)).onError fun _ _ h=>h.1) fun buf=>Triple.fact fun hbuf=>?_
  subst hbuf
  refine Triple.bind ((write_rule hd'.1 _ _).onError fun _ _ h=>h.1) fun _=>?_
  rw [map_cons,writePages_cons]
  refine (ih (fun z hz=>hl' z (mem_cons_of_mem _ hz)) _).pre fun σ hσ=>?_
  exact ⟨_,hd'.put,hσ⟩

lemma latestFrames_indexOf (cs:List Commit) (s:ℕ → Bytes) : ∃ l : List (ℕ × (ℕ × Bytes)),
  (indexOf cs).latestFrames (indexOf cs).lastCommit=l.map (fun y=>(y.2.1,y.1+1)) ∧
  (∀ x∈l,(Line.imagesOf cs)[x.1]? = some x.2 ∧ x.2.2=overlay (Line.imagesOf cs) s x.2.1) ∧
  ∀ p,p∈(Line.imagesOf cs).map Prod.fst ↔ p∈l.map fun x=>x.2.1 := by
 set x:=indexOf cs with hx
 set ps:=x.framePages.dedup.mergeSort (·≤·) with hps
 have hmem:∀ p,p∈ps ↔ p∈(Line.imagesOf cs).map Prod.fst:=by
  intro p
  rw [hps,mem_mergeSort,mem_dedup]
  rfl
 have hfound:∀ p∈ps,x.find p x.lastCommit≠0:=by
  intro p hp hz
  exact find_indexOf_zero hz ((hmem p).mp hp)
 refine ⟨ps.map fun p=>(x.find p x.lastCommit-1,(p,overlay (Line.imagesOf cs) s p)),?_,?_,?_⟩
 · rw [Index.latestFrames,← hps,map_map]
   rw [filterMap_eq_map_iff_forall_eq_some.mpr]
   intro p hp
   have hz:=hfound p hp
   rw [if_neg hz]
   simp only [Function.comp_apply]
   rw [Nat.sub_add_cancel (Nat.pos_of_ne_zero hz)]
 · intro y hy
   obtain ⟨p,hp,rfl⟩:=mem_map.mp hy
   exact ⟨(find_indexOf_image (hfound p hp) s).2,rfl⟩
 · intro p
   rw [← hmem p,map_map]
   simp [Function.comp_def]

lemma writePages_latest {H:Line} {B f:ℕ} (hBf:B≤f) (hf:f≤H.last) {l:List (ℕ × (ℕ × Bytes))}
 (hl:∀ x∈l,(Line.imagesOf (H.between B H.last))[x.1]? = some x.2 ∧
  x.2.2=overlay (Line.imagesOf (H.between B H.last)) (H.pages H.last) x.2.1)
 (hmem:∀ p,p∈(Line.imagesOf (H.between B H.last)).map Prod.fst ↔ p∈l.map fun x=>x.2.1) :
 writePages H.pageSize (l.map Prod.snd) (H.image f)=H.image H.last := by
 have hpage:∀ x∈l,x.2.2=H.pages H.last x.2.1:=by
  intro x hx
  rw [(hl x hx).2,Line.overlay_end (hBf.trans hf)]
 have himg:∀ x∈l,∃ (n:ℕ) (c:Commit),H.commits[n]? = some c ∧ x.2∈c.images:=by
  intro x hx
  obtain ⟨c,hc,hxc⟩:=mem_flatMap.mp (mem_of_getElem? (hl x hx).1)
  obtain ⟨n,hn⟩:=mem_iff_getElem?.mp (Line.mem_between hc)
  exact ⟨n,c,hn,hxc⟩
 have hlt:∀ x∈l,x.2.1<H.count H.last:=by
  intro x hx
  obtain ⟨n,c,hn,hxc⟩:=himg x hx
  exact lt_of_lt_of_le (Line.image_lt_of_mem hn hxc) (Line.count_mono (Nat.succ_le_of_lt (Line.commits_lt hn)) le_rfl)
 have hstart:Paged H.pageSize (H.image f) (H.count f)
   (padded H.pageSize (H.count f) (H.pages f)):=paged_flatMap fun p hp=>Line.pages_length hf hp
 obtain ⟨m,hnm,hbelow,hm,hpaged⟩:=hstart.writePages (l.map Prod.snd) (by
  intro y hy
  obtain ⟨x,hx,rfl⟩:=mem_map.mp hy
  obtain ⟨n,c,hn,hxc⟩:=himg x hx
  exact Line.image_length_of_mem hn hxc)
 have hfst:∀ p,p∈(l.map Prod.snd).map Prod.fst ↔
   p∈(Line.imagesOf (H.between B H.last)).map Prod.fst:=by
  intro p
  rw [hmem p,map_map]
  rfl
 have hcount:m=H.count H.last:=by
  apply le_antisymm
  · rcases hm with rfl | ⟨x,hx,rfl⟩
    · exact Line.count_mono hf le_rfl
    · obtain ⟨y,hy,rfl⟩:=mem_map.mp hx
      exact hlt y hy
  · by_contra hless
    -- The first page beyond the file would be one that no commit wrote.
    have hnew:m∈(Line.imagesOf (H.between B H.last)).map Prod.fst:=by
     by_contra hnot
     have:=Line.unwritten_lt (hBf.trans hf) le_rfl (Nat.lt_of_not_le hless) hnot
     have:=Line.count_mono hBf hf
     omega
    obtain ⟨y,hy,hym⟩:=mem_map.mp ((hfst m).mpr hnew)
    have:=hbelow y hy
    omega
 subst hcount
 refine eq_flatMap_of_pages hpaged.length fun p hp=>?_
 rw [hpaged.page p hp]
 by_cases hin:p∈(l.map Prod.snd).map Prod.fst
 · obtain ⟨w,hw,hwp,hval⟩:=overlay_mem (l.map Prod.snd) (padded H.pageSize (H.count f) (H.pages f)) p hin
   obtain ⟨y,hy,rfl⟩:=mem_map.mp hw
   rw [hval,hpage y hy,hwp]
 · have hnot:=fun h=>hin ((hfst p).mpr h)
   have hpf:p<H.count f:=lt_of_lt_of_le (Line.unwritten_lt (hBf.trans hf) le_rfl hp hnot) (Line.count_mono hBf hf)
   rw [overlay_other _ _ _ hin,padded,if_pos hpf,Line.unwritten_eq hBf hf hnot]

end Frames

/-- The data file holds the state at `f`, the log the commits after `B`, and the object is that of
the log. -/
structure Stored (H:Line) (B f:ℕ) (h:WalHeader) (db:Db) (d:Disk) : Prop where
 opened : db.closed=false
 wal : db.wal=logObject db.wal.path h false (H.between B H.last)
 apart : db.wal.path≠db.path
 log : d.find db.wal.path=some (logBytes h (H.between B H.last))
 file : LogFile H B H.last h (logBytes h (H.between B H.last))
 data : d.find db.path=some (H.image f)
 base_le : B ≤ f
 le_last : f ≤ H.last
 pageSize : db.pageSize=H.pageSize
 dbId : db.dbId=H.root.dbId
 cached : ∀ x∈db.cache,
  copyAt (H.between B H.last) (H.image f) db.pageSize x.1.1 x.1.2=some x.2

namespace Stored

variable {H:Line} {B f:ℕ} {h:WalHeader} {db:Db} {d:Disk}

lemma header_eq (hs:Stored H B f h db d) : db.wal.header=h := by rw [hs.wal]; rfl

lemma walPageSize (hs:Stored H B f h db d) : db.wal.pageSize=H.pageSize := by
 rw [hs.wal]
 exact hs.file.pageSize

lemma serving {s : DbIO} (hs:Stored H B f h s.db s.vfs.files) (hcalm:s.vfs.Calm) :
 Serving s (H.between B H.last) (H.image f) (H.pages H.last) (H.count H.last) where
 calm := hcalm
 opened:=hs.opened
 log:=⟨_,hs.log,by rw [hs.header_eq]; exact hs.file.holds⟩
 index:=by rw [hs.wal]; rfl
 next:=by rw [hs.wal]; rfl
 walPageSize:=by rw [hs.walPageSize,hs.pageSize]
 headerPageSize:=by rw [hs.header_eq,hs.file.pageSize,hs.pageSize]
 data:=hs.data
 unlogged p hp hnot:=by
  rw [hs.pageSize,Line.unwritten_eq hs.base_le hs.le_last hnot]
  exact Line.slice_image hs.le_last (lt_of_lt_of_le (Line.unwritten_lt (hs.base_le.trans hs.le_last) le_rfl hp hnot)
   (Line.count_mono hs.base_le hs.le_last))
 logged p _ _:=by rw [Line.overlay_end (hs.base_le.trans hs.le_last)]
 length p hp:=by rw [hs.pageSize]; exact Line.pages_length le_rfl hp
 ok _ hp:=Line.pages_ok le_rfl hp
 cached:=hs.cached

lemma ofOpened {path:Path} {σ:Vfs} (options:DbOptions) (hBf:B≤f) (hf:f≤H.last)
 (hfile:σ.files.find path=some (H.image f)) (hlog:σ.files.find (walPathOf path)=some (logBytes h (H.between B H.last)))
 (hl:LogFile H B H.last h (logBytes h (H.between B H.last))) :
 Stored H B f h (openedDb H path options h B H.last) σ.files where
 opened := rfl
 wal:=rfl
 apart:=walPathOf_ne path
 log:=hlog
 file:=hl
 data:=hfile
 base_le:=hBf
 le_last:=hf
 pageSize:=rfl
 dbId:=rfl
 cached x hx:=by cases hx

lemma congr {d':Disk} (hs:Stored H B f h db d) (hdata:d'.find db.path=d.find db.path)
 (hlog:d'.find db.wal.path=d.find db.wal.path) : Stored H B f h db d' :=
 { hs with
   log:=hlog.trans hs.log
   data:=hdata.trans hs.data }

end Stored

lemma walCommits_frame_le (off:ℕ) (cs:List Commit) : ∀ w∈walCommits off cs,w.frame≤off+(Line.imagesOf cs).length := by
 induction cs generalizing off with
 | nil=>simp [walCommits]
 | cons c cs ih=>
  intro w hw
  simp only [walCommits,mem_cons] at hw
  simp only [Line.imagesOf,flatMap_cons,length_append]
  rcases hw with rfl | hw
  · simp
  · have:=ih _ w hw
    simp only [Line.imagesOf] at this
    omega

lemma dbSizeAt_indexOf (cs:List Commit) (c:Commit) :
 (indexOf (cs++[c])).dbSizeAt (indexOf (cs++[c])).lastCommit=c.header.pageCount := by
 have hlen:(Line.imagesOf (cs++[c])).length=(Line.imagesOf cs).length+c.images.length:=by
  simp [Line.imagesOf]
 have hpos:0<c.images.length:=by simp [Commit.images]
 have hnone:(walCommits 0 cs).find?
   (fun w=>decide (w.frame=(Line.imagesOf (cs++[c])).length))=none:=by
  rw [find?_eq_none]
  intro w hw
  have:=walCommits_frame_le 0 cs w hw
  simp only [decide_eq_true_eq]
  omega
 rw [Index.dbSizeAt]
 simp only [indexOf,walCommits_append,find?_append,hnone,Nat.zero_add]
 simp

/-- What a checkpoint does to the files before the archive directory is made durable. -/
def flushAndCopy (db:Db) : VfsM Unit := do
 db.copyFrames (db.wal.latestFrames db.wal.lastCommit)
 let size ← File.size db.path
 onlyIf (db.wal.dbSizeAt db.wal.lastCommit*db.pageSize<size)
  (File.truncate db.path (db.wal.dbSizeAt db.wal.lastCommit*db.pageSize))
 File.sync db.path
 db.wal.copyCommittedTo (segmentPath db++Db.partSuffix)
 Vfs.rename (segmentPath db++Db.partSuffix) (segmentPath db)

/-- The rest: the segment becomes durable, the cache and the log are emptied. -/
def checkpointRest (db:Db) : DbM Unit := do
 Db.io (Vfs.syncDirectory db.options.archiveDir)
 Db.set fun db=>{ db with cache:=[] }
 Db.onWal (Wal.reset ((db.wal.commitList.getLast?.map WalCommit.changeCounter).getD 0))

lemma checkpointLocked_split {s : DbIO} (hopen:s.db.closed=false)
 (hreaders:s.db.activeReaders=0) (hlog:s.db.wal.lastCommit≠0)
 (harchive:s.db.options.archiveDir≠[]) :
 Db.checkpointLocked s=(do
  Db.io (flushAndCopy s.db)
  checkpointRest s.db) s := by
 have hio:∀ {α β γ:Type} (m:VfsM α) (f:α → VfsM β) (k:β → DbM γ) (s : DbIO),
   (Db.io (m >>= f) >>= k) s=(Db.io m >>= fun a=>Db.io (f a) >>= k) s:=fun m f k s=>
  zoom_bind (g := DbIO.vfs) (u:=fun s v=>{ s with vfs:=v }) (fun _ _=>rfl) (fun _ _ _=>rfl) m f k s
 have honly:∀ (c:Prop) [Decidable c] (m:VfsM Unit),Db.io (onlyIf c m)=onlyIf c (Db.io m):=by
  intro c _ m
  by_cases hc:c
  · rw [onlyIf,onlyIf,if_pos hc,if_pos hc]
  · rw [onlyIf,onlyIf,if_neg hc,if_neg hc]
    rfl
 rw [Db.checkpointLocked,bind_reads,if_neg (by simp [hopen]),if_neg (not_not_intro hreaders),if_neg hlog,flushAndCopy,hio]
 refine bind_congr (fun _ s₁=>?_) s
 rw [hio]
 refine bind_congr (fun size s₂=>?_) s₁
 rw [hio,honly]
 refine bind_congr (fun _ s₃=>?_) s₂
 rw [hio]
 refine bind_congr (fun _ s₄=>?_) s₃
 rw [Db.archiveLog,if_neg harchive,hio,hio]
 refine bind_congr (fun _ s₅=>?_) s₄
 rw [hio]
 rfl

/-- The segment and its temporary name are files of their own. -/
structure Separate (db:Db) : Prop where
 segment_data : segmentPath db≠db.path
 segment_log : segmentPath db≠db.wal.path
 part_data : segmentPath db++Db.partSuffix≠db.path
 part_log : segmentPath db++Db.partSuffix≠db.wal.path

section Flush
variable {F:Prop} {H:Line} {B f:ℕ} {h:WalHeader} {db:Db} {d:Disk}

/-- The disk after the segment was renamed into place. -/
structure Flushed (H:Line) (B:ℕ) (h:WalHeader) (db:Db) (d d':Disk) : Prop where
 data : d'.find db.path=some (H.image H.last)
 segment : d'.find (segmentPath db)=some (logBytes h (H.between B H.last))
 other : ∀ q,q≠db.path → q≠segmentPath db → q≠segmentPath db++Db.partSuffix →
  d'.find q=d.find q

lemma flushAndCopy_rule (hs:Stored H B f h db d) (hlt:B<H.last) (hsep:Separate db) :
 Act.Triple (Vfs.At F d) (flushAndCopy db) (fun _ σ=>∃ d',Flushed H B h db d d' ∧ σ.At F d') fun _ _=>F := by
 obtain ⟨l,hframes,hl,hmem⟩:=latestFrames_indexOf (H.between B H.last) (H.pages H.last)
 have hindex:db.wal.toIndex=indexOf (H.between B H.last):=by rw [hs.wal]; rfl
 have hdone:=writePages_latest hs.base_le hs.le_last hl hmem
 have hcopy:=copyFrames_rule (F:=F) (d:=d) db hs.apart hs.log (by rw [hs.header_eq]; exact hs.file.holds)
  (by rw [hs.header_eq,hs.file.pageSize,hs.walPageSize]) (by rw [hs.wal]; rfl) l
  (fun x hx=>(hl x hx).1) (H.image f)
 rw [hs.pageSize,hdone] at hcopy
 -- The last commit records the size the file has got.
 have hsize:db.wal.dbSizeAt db.wal.lastCommit*db.pageSize=(H.image H.last).length:=by
  obtain ⟨n,hn⟩:∃ n,H.last=n+1:=⟨H.last-1,by omega⟩
  obtain ⟨c,hc⟩:=Line.commit_exists (H:=H) (n:=n) (by omega)
  rw [hindex,Line.image_length le_rfl,hs.pageSize,hn,Line.between_succ (by omega) hc,
   dbSizeAt_indexOf,Line.count,Line.headerAt_succ hc]
 have hcommitted:db.wal.committedBytes=(logBytes h (H.between B H.last)).length:=by
  rw [Wal.committedBytes,hindex,hs.walPageSize,← hs.file.pageSize]
  exact (logBytes_length h _ hs.file.holds.loggable).symm
 rw [flushAndCopy,hindex,hframes]
 refine Triple.bind (hcopy.pre fun σ hσ=>⟨d,⟨hs.data,onlyAt_refl _ _⟩,hσ⟩) fun _=>
  Triple.exists_fact fun d₁=>Triple.fact fun h₁=>?_
 refine Triple.bind ((size_rule h₁.1).onError fun _ _ h=>h.1) fun size=>
  Triple.fact fun hsz=>?_
 rw [← hindex,hsize]
 refine Triple.bind (Triple.onlyIf (Q:=fun _=>Vfs.At F d₁) (fun hcut=>?_) fun _ _ h=>h) fun _=>?_
 · omega
 refine Triple.bind ((sync_rule _).onError fun _ _ h=>h.1) fun _=>?_
 have hlog:d₁.find db.wal.path=some (logBytes h (H.between B H.last)):=
  (h₁.2 _ hs.apart).trans hs.log
 refine Triple.bind ((copyCommittedTo_rule hlog hsep.part_log.symm hcommitted).onError fun _ _ h=>h.1) fun _=>?_
 refine (rename_rule (Disk.find_put_self _ _ _)).weaken (fun _ h=>h) (fun _ σ hσ=>?_) fun _ _ h=>h.1
 refine ⟨_,⟨?_,Disk.find_put_self _ _ _,fun q hd hseg hp=>?_⟩,hσ⟩
 · rw [Disk.find_put_of_ne _ _ hsep.segment_data.symm,
    Disk.find_remove_of_ne _ hsep.part_data.symm,Disk.find_put_of_ne _ _ hsep.part_data.symm]
   exact h₁.1
 · rw [Disk.find_put_of_ne _ _ hseg,Disk.find_remove_of_ne _ hp,Disk.find_put_of_ne _ _ hp]
   exact h₁.2 q hd

lemma lastCommit_ne_zero (hs:Stored H B f h db d) (hlt:B<H.last) : db.wal.lastCommit≠0 := by
 rw [hs.wal]
 change (Line.imagesOf (H.between B H.last)).length≠0
 obtain ⟨n,hn⟩:∃ n,H.last=n+1:=⟨H.last-1,by omega⟩
 obtain ⟨c,hc⟩:=Line.commit_exists (H:=H) (n:=n) (by omega)
 rw [hn,Line.between_succ (by omega) hc,Line.imagesOf_append,length_append]
 simp [Line.imagesOf,Commit.images]

lemma Stored.flushed {d':Disk} (hs:Stored H B f h db d) (hsep:Separate db)
 (hcache:db.cache=[]) (hd:Flushed H B h db d d') : Stored H B H.last h db d' :=
 { hs with
   log:=(hd.other _ hs.apart hsep.segment_log.symm hsep.part_log.symm).trans hs.log
   data:=hd.data
   base_le:=hs.base_le.trans hs.le_last
   le_last:=le_rfl
   cached:=by simp [hcache] }

end Flush

lemma readFramePage_polled (w:Wal) (frame:ℕ) : Polled (w.readFramePage frame) := by
 refine Polled.ite (Polled.fail _) ((read_polled _ _ _).bind fun page=>?_)
 exact Polled.ite (Polled.fail _) (Polled.ite (Polled.fail _) (Polled.pure page))

lemma copyFrames_polled (db:Db) (frames:List (ℕ × ℕ)) : Polled (db.copyFrames frames) := by
 induction frames with
 | nil=>exact Polled.pure ()
 | cons x frames ih=>
  refine (readFramePage_polled _ _).bind fun buf=>?_
  exact (write_polled _ _ _).bind fun _=>ih

lemma copyLoop_polled (src dst:Path) (total n off:ℕ) : Polled (Wal.copyLoop src dst total n off) := by
 induction n generalizing off with
 | zero=>exact Polled.pure ()
 | succ n ih=>
  refine Polled.ite (Polled.pure ()) ((read_polled _ _ _).bind fun buf=>?_)
  exact Polled.ite (Polled.fail _) ((write_polled _ _ _).bind fun _=>ih _)

lemma flushAndCopy_polled (db:Db) : Polled (flushAndCopy db) := by
 refine (copyFrames_polled db _).bind fun _=>(size_polled _).bind fun size=>?_
 refine (Polled.onlyIf (truncate_polled _ _)).bind fun _=>(sync_polled _).bind fun _=>?_
 refine Polled.bind ?_ fun _=>rename_polled _ _
 refine (openFile_polled _ _).bind fun _=>(copyLoop_polled _ _ _ _ _).bind fun _=>?_
 exact (sync_polled _).bind fun _=>(close_polled _).bind fun _=>syncDirectory_polled _

lemma checkpointLocked_fails {H:Line} {B f:ℕ} {h:WalHeader} {s : DbIO}
  (hs:Stored H B f h s.db s.vfs.files) (hlt:B<H.last) (hsep:Separate s.db)
  (hcalm:s.vfs.Calm) (hreaders:s.db.activeReaders=0)
  (harchive:s.db.options.archiveDir≠[]) :
  ∃ k σ',σ'.Calm ∧ Flushed H B h s.db s.vfs.files σ'.files ∧
   ∃ e,Db.checkpointLocked
    { s with vfs:=facing (replicate k .proceed++[.fail 0]) s.vfs } =
     (.error e,{ s with vfs:=σ' }) := by
 obtain ⟨⟨⟩,σ',hrun,d',hflushed,hat⟩:=(flushAndCopy_rule (F:=False) hs hlt hsep).run (hcalm.at False) fun _ _ h=>h
 obtain ⟨hfiles,hcalm'⟩:=hat.calm
 obtain ⟨-,k,hk⟩:=flushAndCopy_polled s.db s.vfs hcalm
 rw [hrun] at hk
 have hlog:=lastCommit_ne_zero hs hlt
 have hfail:=plainOperation_fails hcalm' ("sync_directory " ++ s.db.options.archiveDir.text)
  fun σ=>(.ok (),σ.persist Vfs.isDirOp)
 rw [← hfiles] at hflushed
 refine ⟨k,σ',hcalm',hflushed,ioError ("injected failure: " ++ ("sync_directory " ++ s.db.options.archiveDir.text)),?_⟩
 rw [checkpointLocked_split (by exact hs.opened) (by exact hreaders) (by exact hlog)
  (by exact harchive)]
 have hio:Db.io (flushAndCopy s.db) { s with vfs:=facing (replicate k .proceed++[.fail 0]) s.vfs } =
    (.ok (),{ s with vfs:=facing [.fail 0] σ' }):=zoom_of (g := DbIO.vfs) (hk [.fail 0])
 refine (bind_of_ok _ hio).trans ?_
 rw [checkpointRest]
 exact bind_of_error _ (zoom_of (g := DbIO.vfs) (t:=σ') hfail)

section Log
variable {F:Prop} {d:Disk}

lemma io_rule {α:Type} {m:VfsM α} {P:Vfs → Prop} {Q:α → Vfs → Prop} {w:Wal} (h:Act.Triple P m Q fun _ _=>F) :
 Act.Triple (fun s : WalIO=>s.wal=w ∧ P s.vfs) (Wal.io m) (fun a s=>s.wal=w ∧ Q a s.vfs) fun _ _=>F := by
 rintro ⟨σ,w⟩ ⟨rfl,hσ⟩
 have hpost:=h σ hσ
 rcases hrun:m σ with ⟨r,τ⟩
 rw [hrun] at hpost
 rw [Wal.io,zoom_of (g := WalIO.vfs) hrun]
 cases r with
 | ok a=>exact ⟨rfl,hpost⟩
 | error e=>exact hpost

lemma randomSalt_rule : Act.Triple (Vfs.At F d) randomSalt (fun _=>Vfs.At F d) fun _ _=>F := by
 rintro σ (⟨hF,hc⟩ | ⟨hd,h⟩)
 · exact Or.inl ⟨hF,hc⟩
 · exact Or.inr ⟨hd,h.imp_right fun hc=>⟨hc.alive,hc.quiet⟩⟩

lemma give_up {α:Type} {Q:α → WalIO → Prop} (f:Wal → Wal) (s:Status) :
 Act.Triple (fun _=>F) (do Wal.set f; fail s:WalM α) Q fun _ _=>F :=
 Triple.bind (Triple.modify (Q:=fun _ _=>F) fun _ h=>h) fun _=>Triple.fail fun _ h=>h

lemma reset_rule {w:Wal} {b:Bytes} (hlog:d.find w.path=some b) (hro:w.readOnly=false)
  (hok:w.failed=false) (base:ℕ) :
  Act.Triple (fun s : WalIO=>s.wal=w ∧ s.vfs.At F d) (Wal.reset base)
   (fun _ s=>∃ salt1 salt2,
    s.wal=Wal.blank w.path { w.header with salt1,salt2,baseChangeCounter:=base } false ∧ ∃ d',
     Holding d w.path ({ w.header with salt1,salt2,baseChangeCounter:=base }:WalHeader).encode d' ∧
     s.vfs.At F d') fun _ _=>F := by
 rw [Wal.reset]
 refine Triple.bind (Q:=fun v s=>v=w ∧ s.wal=w ∧ s.vfs.At F d) (Triple.reads fun s hs=>⟨hs.1,hs⟩)
  fun v=>Triple.fact fun hv=>?_
 subst hv
 simp only [hro,hok,Bool.false_eq_true,if_false]
 refine Triple.bind (io_rule randomSalt_rule) fun salt1=>Triple.bind (io_rule randomSalt_rule) fun salt2=>?_
 set h:WalHeader:={ v.header with salt1,salt2,baseChangeCounter:=base } with hh
 refine Triple.bind (Q:=fun _ s=>s.wal={ v with header:=h } ∧ s.vfs.At F d)
  (Triple.modify fun s hs=>⟨by rw [hs.1],hs.2⟩) fun _=>?_
 refine Triple.bind (io_rule ((truncate_rule hlog 0).onError fun _ _ h=>h.1)).attempt fun emptied=>?_
 cases emptied with
 | error s=>exact give_up _ s
 | ok _=>
  refine Triple.bind (Q:=fun _ s=>s.wal=Wal.blank v.path h false ∧ s.vfs.At F (d.put v.path (resize b 0)))
   (Triple.modify fun s hs=>⟨rfl,hs.2⟩) fun _=>?_
  have hempty:(d.put v.path (resize b 0)).find v.path=some []:=by
   rw [Disk.find_put_self]
   simp [resize]
  have hwritten:writeAt [] 0 h.encode=h.encode:=writeAt_end [] h.encode
  have hheader:Act.Triple (Vfs.At F (d.put v.path (resize b 0))) (Wal.writeHeader v.path h)
    (fun _=>Vfs.At F ((d.put v.path (resize b 0)).put v.path (writeAt [] 0 h.encode))) fun _ _=>F:=
   Triple.bind ((write_rule hempty 0 h.encode).onError fun _ _ h=>h.1) fun _=>
    (sync_rule v.path).onError fun _ _ h=>h.1
  refine Triple.bind (io_rule hheader).attempt fun written=>?_
  cases written with
  | error s=>exact give_up _ s
  | ok _=>
   refine Triple.pure fun s hs=>⟨salt1,salt2,hs.1,_,⟨?_,fun q hq=>?_⟩,hs.2⟩
   · rw [Disk.find_put_self,hwritten]
   · rw [Disk.find_put_of_ne _ _ hq,Disk.find_put_of_ne _ _ hq]

lemma reset_run {σ:Vfs} {w:Wal} {b:Bytes} (hσ:σ.Calm) (hlog:σ.files.find w.path=some b)
  (hro:w.readOnly=false) (hok:w.failed=false) (base:ℕ) :
  ∃ salt1 salt2 σ',Wal.reset base ⟨σ,w⟩=(.ok (),⟨σ',Wal.blank w.path
    { w.header with salt1,salt2,baseChangeCounter:=base } false⟩) ∧ σ'.Calm ∧
   Holding σ.files w.path
    ({ w.header with salt1,salt2,baseChangeCounter:=base }:WalHeader).encode σ'.files := by
 obtain ⟨⟨⟩,⟨σ',w'⟩,hrun,salt1,salt2,rfl,d',hhold,hat⟩:=
  (reset_rule (F:=False) hlog hro hok base).run (s:=⟨σ,w⟩) ⟨rfl,hσ.at False⟩ fun _ _ h=>h
 obtain ⟨rfl,hcalm⟩:=hat.calm
 exact ⟨salt1,salt2,σ',hrun,hcalm,hhold⟩

end Log

lemma checkpointLocked_run {H:Line} {B f:ℕ} {h:WalHeader} {s : DbIO}
 (hs:Stored H B f h s.db s.vfs.files) (hlt:B<H.last) (hsep:Separate s.db)
 (hcalm:s.vfs.Calm) (hreaders:s.db.activeReaders=0) (harchive:s.db.options.archiveDir≠[]) :
 ∃ s',Db.checkpointLocked s=(.ok (),s') ∧ s'.vfs.Calm ∧
  s'.vfs.files.find (segmentPath s.db)=some (logBytes h (H.between B H.last)) ∧
  s'.vfs.files.find s.db.path=some (H.image H.last) ∧ ∀ q,q≠s.db.path → q≠s.db.wal.path → q≠segmentPath s.db →
   q≠segmentPath s.db++Db.partSuffix → s'.vfs.files.find q=s.vfs.files.find q := by
 obtain ⟨⟨⟩,σ₁,hrun,d',hflushed,hat⟩:=(flushAndCopy_rule (F:=False) hs hlt hsep).run (hcalm.at False) fun _ _ h=>h
 obtain ⟨hfiles,hσ₁⟩:=hat.calm
 rw [← hfiles] at hflushed
 obtain ⟨σ₂,hsync,hσ₂,hf₂⟩:=syncDirectory_run hσ₁ s.db.options.archiveDir
 have hlog₂:σ₂.files.find s.db.wal.path=some (logBytes h (H.between B H.last)):=by
  rw [hf₂,hflushed.other _ hs.apart hsep.segment_log.symm hsep.part_log.symm]
  exact hs.log
 set base:=(s.db.wal.commitList.getLast?.map WalCommit.changeCounter).getD 0 with hbase
 obtain ⟨salt1,salt2,σ₃,hreset,hσ₃,hhold⟩:=reset_run hσ₂ hlog₂ (by rw [hs.wal]; rfl)
  (by rw [hs.wal]; rfl) base
 refine ⟨⟨σ₃,{ s.db with
   cache:=[]
   wal:=Wal.blank s.db.wal.path
    { s.db.wal.header with salt1,salt2,baseChangeCounter:=base } false }⟩,?_,hσ₃,?_,?_,fun q hd hl hseg hp=>?_⟩
 · rw [checkpointLocked_split hs.opened hreaders (lastCommit_ne_zero hs hlt) harchive]
   refine (bind_of_ok _ (zoom_of (g := DbIO.vfs) hrun)).trans ?_
   refine (bind_of_ok _ (zoom_of (g := DbIO.vfs) hsync)).trans ?_
   refine (bind_of_ok _ (modify_run _ _)).trans ?_
   exact zoom_of (g:=fun s : DbIO => WalIO.mk s.vfs s.db.wal) (s:=⟨σ₂,{ s.db with cache:=[] }⟩) hreset
 · rw [hhold.2 _ hsep.segment_log,hf₂]
   exact hflushed.segment
 · rw [hhold.2 _ hs.apart.symm,hf₂]
   exact hflushed.data
 · rw [hhold.2 q hl,hf₂]
   exact hflushed.other q hd hseg hp

section Commits
variable {H:Line} {B f:ℕ} {h:WalHeader}

lemma decode_page0 {c:Commit} (hf:c.header.Fits) : DbHeader.decode c.header.page0=.ok c.header := by
 have hlen:=DbHeader.page0_length c.header
 have hps:=hf.pageSize_le.1
 have:=DbHeader.decode_page0 hf c.header.pageSize (by
  simp only [kMinPageSize,kDbHeaderBytes] at hps ⊢
  omega)
 rwa [← hlen,slice_all] at this

lemma appendTransaction_rule {F:Prop} {d:Disk} {path:Path} {cs:List Commit} {c:Commit}
 (hlog:d.find path=some (logBytes h cs)) (hcs:∀ x∈cs,Loggable h.pageSize x) (hc:Loggable h.pageSize c) :
 Act.Triple (fun s : WalIO=>s.wal=logObject path h false cs ∧ s.vfs.At F d)
  (Wal.appendTransaction c.images c.header.pageCount)
  (fun _ s=>s.wal=logObject path h false (cs++[c]) ∧ s.vfs.At F (d.put path (logBytes h (cs++[c])))) fun _ _=>F := by
 have hne:c.images≠[]:=by simp [Commit.images]
 have hbytes:writeAt (logBytes h cs) (frameOffset h.pageSize ((Line.imagesOf cs).length+1))
   (Wal.encodeFrames h c.header.pageCount c.images (chainAfter h cs h.chainSeed)).1 =
   logBytes h (cs++[c]):=by
  rw [← logBytes_length h cs hcs,writeAt_end,logBytes,logBytes,txnBytes_append,append_assoc,txnBytes,txnBytes,append_nil]
  rfl
 have hwrite:=(write_rule (F:=F) hlog (frameOffset h.pageSize ((Line.imagesOf cs).length+1))
  (Wal.encodeFrames h c.header.pageCount c.images (chainAfter h cs h.chainSeed)).1).onError fun _ _ h=>h.1
 rw [hbytes] at hwrite
 have hlast:Wal.commitOf ((c.images.getLast?.map Prod.snd).getD [])
   ((Line.imagesOf cs).length+1+c.images.length-1) c.header.pageCount =
   ⟨(Line.imagesOf cs).length+c.images.length,c.header.pageCount,c.header.changeCounter,c.header.commitTimeUs⟩:=by
  rw [Commit.images,getLast?_concat,Option.map_some,Option.getD_some,Wal.commitOf,decode_page0 hc.fits]
  simp only [WalCommit.mk.injEq,and_self,and_true]
  omega
 rw [Wal.appendTransaction]
 refine Triple.bind (Q:=fun v s=>v=logObject path h false cs ∧ s.wal=logObject path h false cs ∧ s.vfs.At F d)
  (Triple.reads fun s hs=>⟨hs.1,hs⟩) fun v=>Triple.fact fun hv=>?_
 subst hv
 simp only [logObject,hne,Bool.false_eq_true,if_false]
 refine Triple.ite (fun hany=>?_) fun _=>?_
 · obtain ⟨x,hx,hlen⟩:=any_eq_true.mp hany
   exact absurd (hc.images_length x hx) (of_decide_eq_true hlen)
 refine Triple.bind (io_rule (Triple.bind hwrite fun _=>(sync_rule path).onError fun _ _ h=>h.1)).attempt fun done=>?_
 cases done with
 | error s=>
  refine Triple.bind (Q:=fun _ _=>F) (fun _ hF=>hF) fun discarded=>?_
  refine Triple.bind (Q:=fun _ _=>F) (Triple.modify fun _ hF=>hF) fun _=>?_
  cases discarded with
  | error e=>exact Triple.fail fun _ hF=>hF
  | ok _=>exact Triple.fail fun _ hF=>hF
 | ok _=>
  refine Triple.modify fun s hs=>⟨?_,hs.2⟩
  dsimp only
  rw [hs.1,hlast,chainAfter_concat,indexOf_concat]
  simp only [Wal.mk.injEq,true_and,and_true]
  refine ⟨rfl,?_,rfl⟩
  simp only [Line.imagesOf,flatMap_append,length_append,flatMap_cons,flatMap_nil,append_nil]
  omega

lemma appendTransaction_run {σ:Vfs} {path:Path} {cs:List Commit} {c:Commit}
 (hσ:σ.Calm) (hlog:σ.files.find path=some (logBytes h cs)) (hcs:∀ x∈cs,Loggable h.pageSize x) (hc:Loggable h.pageSize c) :
 ∃ σ',Wal.appendTransaction c.images c.header.pageCount ⟨σ,logObject path h false cs⟩ =
   (.ok (),⟨σ',logObject path h false (cs++[c])⟩) ∧ σ'.Calm ∧ σ'.files=σ.files.put path (logBytes h (cs++[c])) := by
 obtain ⟨⟨⟩,⟨σ',w⟩,hrun,rfl,hat⟩:=
  (appendTransaction_rule (F:=False) hlog hcs hc).run (s:=⟨σ,_⟩) ⟨rfl,hσ.at False⟩ fun _ _ h=>h
 exact ⟨σ',hrun,hat.calm.2,hat.calm.1⟩

lemma cacheFrames_mem (images:List (ℕ × Bytes)) (frame:ℕ) (db:Db) {x:(ℕ × ℕ) × Bytes}
 (hx:x∈(Db.cacheFrames images frame db).cache) : x∈db.cache ∨ ∃ i y,images[i]? = some y ∧ x=((y.1,frame+i),y.2) := by
 induction images generalizing frame db with
 | nil=>exact Or.inl hx
 | cons y images ih=>
  rcases ih (frame+1) (db.cachePut (y.1,frame) y.2) hx with hx | ⟨i,z,hz,rfl⟩
  · rcases mem_cons.mp (mem_of_mem_take hx) with rfl | hx
    · exact Or.inr ⟨0,y,rfl,rfl⟩
    · exact Or.inl (mem_filter.mp hx).1
  · refine Or.inr ⟨i+1,z,hz,?_⟩
    rw [Nat.add_assoc,Nat.add_comm 1 i]

lemma commit_run {s : DbIO} (hs:Stored H B f h s.db s.vfs.files) (hσ:s.vfs.Calm) {u:Db.Update} {now:ℤ} {c:Commit}
 (hdirty:c.dirty=u.dirty.map fun x=>(x.1,sealPage x.2)) (hheader:c.header=Db.commitHeader (H.headerAt H.last) u now)
 (hc:c.Follows (H.headerAt H.last)) (hchanged:¬(u.dirty=[] ∧ u.header=(H.headerAt H.last).toDbHeader))
 (hbelow:(Line.imagesOf (H.between B H.last)).length+c.images.length < s.db.options.checkpointThresholdFrames) :
 ∃ s',Db.commit u now s=(.ok (),s') ∧ s'.vfs.Calm ∧ Stored (H.extend c hc) B f h s'.db s'.vfs.files ∧ s'.db.path=s.db.path ∧
  s'.db.options=s.db.options ∧ s'.db.wal.path=s.db.wal.path ∧ s'.db.activeReaders=s.db.activeReaders ∧
  ∀ q,q≠s.db.wal.path → s'.vfs.files.find q=s.vfs.files.find q := by
 have hserving:=hs.serving hσ
 obtain ⟨s₁,hread,hserving₁,hvfs₁,hdb₁⟩:=hserving.readCommitted_run (Line.count_pos le_rfl)
 have hs₁:Stored H B f h s₁.db s₁.vfs.files:=by
  have hps₁:s₁.db.pageSize=s.db.pageSize:=by rw [hdb₁]
  rw [hvfs₁,hdb₁]
  refine { hs with cached:=fun x hx=>?_ }
  have:=hserving₁.cached x hx
  rwa [hps₁] at this
 have hbegin:Db.beginWrite s=(.ok (H.headerAt H.last),s₁):=by
  rw [Db.beginWrite,bind_reads,if_neg (by simp [hs.opened]),if_neg (by rw [hs.wal]; simp [logObject]),Db.committedHeader]
  refine (bind_of_ok _ hread).trans ?_
  rw [decode_pages_zero le_rfl]
  rfl
 have himages:Db.commitImages (H.headerAt H.last) u now=c.images:=by
  rw [Db.commitImages,Commit.images,hdirty,hheader]
 have hcount:u.header.pageCount=c.header.pageCount:=by rw [hheader]; rfl
 have hloggable:Loggable h.pageSize c:=by
  have:=loggable_of_follows hc
  rwa [Line.headerAt_pageSize le_rfl,← hs.file.pageSize] at this
 obtain ⟨σ₂,happend,hσ₂,hf₂⟩:=appendTransaction_run (by rw [hvfs₁]; exact hσ) hs₁.log
  hs₁.file.holds.loggable hloggable
 rw [← hs₁.wal] at happend
 set w:=logObject s₁.db.wal.path h false (H.between B H.last++[c]) with hw
 set frame:=s₁.db.wal.nextFrame with hframe
 have hnext:frame=(Line.imagesOf (H.between B H.last)).length+1:=by
  rw [hframe,hs₁.wal]
  rfl
 set db₂:=Db.cacheFrames c.images frame { s₁.db with wal:=w } with hdb₂
 obtain ⟨cache,hcache⟩:=cacheFrames_same c.images frame { s₁.db with wal:=w }
 rw [← hdb₂] at hcache
 have himgs:(Line.imagesOf (H.between B H.last++[c])).length =
   (Line.imagesOf (H.between B H.last)).length+c.images.length:=by
  simp [Line.imagesOf]
 have hframes:Db.commitFrames c.images c.header.pageCount s₁=(.ok (),⟨σ₂,db₂⟩):=by
  have honWal:Db.onWal (Wal.appendTransaction c.images c.header.pageCount) s₁ = (.ok (),⟨σ₂,{ s₁.db with wal:=w }⟩):=
   zoom_of (g:=fun s : DbIO => WalIO.mk s.vfs s.db.wal) happend
  rw [Db.commitFrames,bind_reads,if_neg (by simp [hs₁.opened]),bind_of_ok _ honWal]
  refine (bind_of_ok _ (modify_run _ _)).trans ?_
  rw [bind_reads]
  refine (congrFun (if_neg fun hge=>?_) _).trans rfl
  have hthreshold:s₁.db.options=s.db.options:=by rw [hdb₁]
  have h1:db₂.options=s₁.db.options:=by rw [hcache]
  have h2:db₂.wal.nextFrame=(Line.imagesOf (H.between B H.last++[c])).length+1:=by
   rw [hcache]
   rfl
  have hle:db₂.options.checkpointThresholdFrames≤db₂.wal.nextFrame-1:=hge.1
  rw [h1,hthreshold,h2] at hle
  omega
 have hother:∀ q,q≠s₁.db.wal.path → σ₂.files.find q=s₁.vfs.files.find q:=by
  intro q hq
  rw [hf₂,Disk.find_put_of_ne _ _ hq]
 have hpath₁:s₁.db.wal.path=s.db.wal.path:=by rw [hdb₁]
 have hle:B≤H.last:=hs.base_le.trans hs.le_last
 have hsame:H.SameUpTo (H.extend c hc) H.last:=Line.extend_same
 refine ⟨⟨σ₂,db₂⟩,?_,hσ₂,?_,?_,?_,?_,?_,?_⟩
 · rw [Db.commit,bind_of_ok _ hbegin,if_neg hchanged,himages,hcount]
   exact hframes
 · have hbetween:(H.extend c hc).between B (H.extend c hc).last=H.between B H.last++[c]:=by
    rw [Line.extend_last,Line.extend_between hle]
   have hlogs:∀ x∈H.between B H.last++[c],Loggable h.pageSize x:=by
    intro x hx
    rcases mem_append.mp hx with hx | hx
    · exact hs.file.holds.loggable x hx
    · rw [mem_singleton.mp hx]
      exact hloggable
   refine ⟨?_,?_,?_,?_,⟨?_,le_rfl,?_,?_,hs.file.base,?_⟩,?_,hs.base_le,?_,?_,?_,?_⟩
   · rw [hcache]
     exact hs₁.opened
   · rw [hbetween,hcache]
     rfl
   · rw [hcache]
     exact hs₁.apart
   · rw [hbetween,hcache]
     change σ₂.files.find s₁.db.wal.path=_
     rw [hf₂,Disk.find_put_self]
   · rw [Line.extend_last]
     omega
   · rw [hs.file.pageSize,hsame.pageSize]
   · exact hs.file.dbId
   · rw [hbetween]
     exact logHolds_exact hs.file.holds.fits hlogs
   · rw [hcache]
     change σ₂.files.find s₁.db.path=_
     rw [hother _ hs₁.apart.symm,hs₁.data,hsame.image hs.le_last]
   · rw [Line.extend_last]
     exact hs.le_last.trans (Nat.le_succ _)
   · rw [hcache,hsame.pageSize]
     exact hs₁.pageSize
   · rw [hcache]
     exact hs₁.dbId
   · intro x hx
     rw [hbetween,hsame.image hs.le_last]
     have hps₂:db₂.pageSize=s₁.db.pageSize:=by rw [hcache]
     rcases cacheFrames_mem c.images frame _ hx with hx | ⟨i,y,hy,rfl⟩
     · have hold:=hs₁.cached x hx
       rw [hps₂]
       rw [copyAt] at hold ⊢
       split_ifs at hold ⊢ with hz
       · exact hold
       · obtain ⟨z,hz',hzx⟩:=Option.map_eq_some_iff.mp hold
         have hlt:=(List.getElem?_eq_some_iff.mp hz').1
         rw [Line.imagesOf_append,List.getElem?_append_left hlt,hz',Option.map_some,hzx]
     · rw [copyAt,if_neg (by simp only; omega),Line.imagesOf_append,getElem?_append_right (by simp only; omega)]
       have hidx:frame+i-1-(Line.imagesOf (H.between B H.last)).length=i:=by omega
       simp only [hidx]
       simp [Line.imagesOf,hy]
 · rw [hcache,hdb₁]
 · rw [hcache,hdb₁]
 · rw [hcache,← hpath₁]
   rfl
 · rw [hcache,hdb₁]
 · intro q hq
   rw [← hpath₁] at hq
   rw [hother q hq,hvfs₁]

end Commits

end Archivum.CheckpointRules
