import Archivum.DbReads
import Archivum.VfsRules

set_option autoImplicit false

/-!
# Opening a database on a file and a log of one history

The data file holds the committed state at some counter, the log holds the
commits after its base. `openDb` accepts the pair exactly when the file stands
at the log's base or at one of its commits; then every page reads as of the
log's last commit, although the log is laid over a file that has some of its
commits already.
-/
namespace Archivum.DbOpen
open ByteStrings StatefulActions PageTxn PageFormat VfsModel WalModel DbModel Histories LogImage List Act
open Overlays DbReads

def logObject (path:Path) (h:WalHeader) (readOnly:Bool) (cs:List Commit) : Wal where
 toIndex := indexOf cs
 path:=path
 pageSize:=h.pageSize
 header:=h
 nextFrame:=(Line.imagesOf cs).length+1
 chain:=chainAfter h cs h.chainSeed
 readOnly:=readOnly

section Log
variable {F:Prop} {d:Disk} {σ:Vfs} {path:Path} {h:WalHeader} {cs:List Commit} {b:Bytes}

lemma header_slice (hl:LogHolds h cs b) : slice b 0 kWalHeaderBytes=h.encode := by
 obtain ⟨tail,rfl⟩:=hl.bytes
 rw [logBytes,append_assoc]
 have:=slice_middle [] h.encode (txnBytes h cs h.chainSeed++tail) 0 kWalHeaderBytes rfl h.encode_length
 simpa using this

lemma ownHeader_eq (hf:h.Fits) : Wal.ownHeader h.pageSize h.dbId h.encode=some h := by
 rw [Wal.ownHeader,if_neg (by simp),WalHeader.decode_encode hf]
 simp

lemma found_eq (path:Path) (hl:LogHolds h cs b) (readOnly:Bool) :
 Wal.found path h readOnly (recovered h b)=logObject path h readOnly cs := by
 obtain ⟨hi,hc⟩:=hl.recovered_eq
 rw [Wal.found,hi,hc]
 rfl

lemma scanLoop_rule (hf:d.find path=some b) (n frame:ℕ) (s:Wal.Scan) :
 Act.Triple (Vfs.At F d) (Wal.scanLoop path h n frame s)
  (fun r σ=>r=scanBytes h b n frame s ∧ σ.At F d) fun _=>Vfs.Failed F (· = d) := by
 induction n generalizing frame s with
 | zero=>exact Triple.pure fun _ hσ=>⟨rfl,hσ⟩
 | succ n ih=>
  rw [Wal.scanLoop,scanBytes]
  refine Triple.bind (read_rule hf _ _) fun buf=>Triple.fact fun hbuf=>?_
  subst hbuf
  refine Triple.ite (fun hlen=>?_) fun hlen=>?_
  · simp only [if_pos hlen]
    exact Triple.pure fun _ hσ=>⟨rfl,hσ⟩
  · simp only [if_neg hlen]
    cases hs:s.frame h frame (slice b (frameOffset h.pageSize frame) (frameBytes h.pageSize)) with
    | none=>exact Triple.pure fun _ hσ=>⟨rfl,hσ⟩
    | some s'=>exact ih (frame+1) s'

/-- `Wal::open` on a log it finds: what it does with it is left to `hrest`. -/
theorem openLog_found {o:WalOpenOptions} (hid:o.dbId=h.dbId) (hf:d.find path=some b) (hl:LogHolds h cs b)
 {Q:Wal → Vfs → Prop} {E:Status → Vfs → Prop} (hE:∀ e σ,σ.Failed F (· = d) → E e σ)
 (hrest:Act.Triple (Vfs.At F d) (if o.readOnly then return logObject path h o.readOnly cs
  else (logObject path h o.readOnly cs).trimTail b.length) Q E) :
 Act.Triple (Vfs.At F d) (Wal.openLog path h.pageSize o) Q E := by
 rw [Wal.openLog]
 refine Triple.bind ((pathExists_rule path).onError hE) fun present=>Triple.fact fun hp=>?_
 rw [hf] at hp
 subst hp
 rw [if_neg (by simp)]
 refine Triple.bind ((openFile_rule hf (fun h=>h) rfl).onError hE) fun _=>?_
 rw [if_neg (by simp),Wal.recover]
 refine Triple.bind ((size_rule hf).onError hE) fun size=>Triple.fact fun hsize=>?_
 refine Triple.bind ((read_rule hf _ _).onError hE) fun hbuf=>Triple.fact fun hh=>?_
 subst hsize hh
 rw [header_slice hl,hid,ownHeader_eq hl.fits]
 refine Triple.bind ((scanLoop_rule hf _ _ _).onError hE) fun s=>Triple.fact fun hs=>?_
 subst hs
 have hfound:=found_eq path hl o.readOnly
 rw [recovered] at hfound
 rw [hfound]
 exact hrest

lemma openLog_rule (hf:d.find path=some b) (hl:LogHolds h cs b) :
  Act.Triple (Vfs.At F d) (Wal.openLog path h.pageSize { dbId:=h.dbId,readOnly:=true })
   (fun w σ=>w=logObject path h true cs ∧ σ.At F d) fun _=>Vfs.Failed F (· = d) :=
 openLog_found rfl hf hl (fun _ _ h=>h) (Triple.pure fun _ hσ=>⟨rfl,hσ⟩)

lemma trimTail_rule (hf:d.find path=some b) (hl:LogHolds h cs b) :
 Act.Triple (Vfs.At F d) ((logObject path h false cs).trimTail b.length)
  (fun w σ=>w=logObject path h false cs ∧ ∃ d',(d'.find path=some (logBytes h cs) ∧
   ∀ q,q≠path → d'.find q=d.find q) ∧ σ.At F d') fun _ _=>F := by
 have hcommitted:(logObject path h false cs).committedBytes=(logBytes h cs).length:=
  (logBytes_length h cs hl.loggable).symm
 obtain ⟨tail,hb⟩:=hl.bytes
 have hcut:Act.Triple (Vfs.At F d) (onlyIf ((logObject path h false cs).committedBytes<b.length)
   (File.truncate path (logObject path h false cs).committedBytes))
   (fun _ σ=>∃ d',(d'.find path=some (logBytes h cs) ∧ ∀ q,q≠path → d'.find q=d.find q) ∧ σ.At F d')
   fun _ _=>F:=by
  refine Triple.onlyIf (fun hlt=>?_) fun hlt σ hσ=>⟨d,⟨?_,fun q _=>rfl⟩,hσ⟩
  · refine (truncate_rule hf _).weaken (fun _ hσ=>hσ)
     (fun _ σ hσ=>⟨_,⟨?_,fun q hq=>Disk.find_put_of_ne _ _ hq⟩,hσ⟩) fun _ _ h=>h.1
    rw [Disk.find_put_self,resize_of_le _ hlt.le,hcommitted,hb,take_left]
  · have hnil:tail=[]:=by
     rw [hcommitted,hb,length_append] at hlt
     exact length_eq_zero_iff.mp (by omega)
    rw [hf,hb,hnil,append_nil]
 refine Triple.bind hcut fun _=>Triple.exists_fact fun d'=>Triple.fact fun hd'=>?_
 refine Triple.bind ((sync_rule path).onError fun _ _ h=>h.1) fun _=>?_
 refine Triple.bind ((syncDirectory_rule _).onError fun _ _ h=>h.1) fun _=>?_
 exact Triple.pure fun _ hσ=>⟨rfl,d',hd',hσ⟩

/-- Opening for writing cuts off what follows the commits. -/
theorem openLog_write_rule (hf:d.find path=some b) (hl:LogHolds h cs b) (base:ℕ) :
  Act.Triple (Vfs.At F d) (Wal.openLog path h.pageSize { dbId:=h.dbId,newBaseChangeCounter:=base })
   (fun w σ=>w=logObject path h false cs ∧ ∃ d',(d'.find path=some (logBytes h cs) ∧
    ∀ q,q≠path → d'.find q=d.find q) ∧ σ.At F d') fun _ _=>F :=
 openLog_found rfl hf hl (fun _ _ h=>h.1) (trimTail_rule hf hl)

lemma openLog_calm (hσ:σ.Calm) (hf:σ.files.find path=some b) (hl:LogHolds h cs b)
  (base:ℕ) :
  ∃ σ',Wal.openLog path h.pageSize { dbId:=h.dbId,newBaseChangeCounter:=base } σ =
    (.ok (logObject path h false cs),σ') ∧ σ'.Calm ∧
   σ'.files.find path=some (logBytes h cs) ∧
   ∀ q,q≠path → σ'.files.find q=σ.files.find q := by
 obtain ⟨w,σ',hrun,rfl,d',⟨hlog,hother⟩,hat⟩:=(openLog_write_rule hf hl base).run (hσ.at False) fun _ _ h=>h
 obtain ⟨rfl,hcalm⟩:=hat.calm
 exact ⟨σ',hrun,hcalm,hlog,hother⟩

end Log

/-- A log file of the history: its base is `B` and its last commit `L`. -/
structure LogFile (H:Line) (B L:ℕ) (h:WalHeader) (b:Bytes) : Prop where
 base_le : B ≤ L
 last_le : L ≤ H.last
 pageSize : h.pageSize=H.pageSize
 dbId : h.dbId=H.root.dbId
 base : h.baseChangeCounter=B
 holds : LogHolds h (H.between B L) b

lemma walCommits_getLast (off:ℕ) (cs:List Commit) (c:Commit) :
 ((walCommits off (cs++[c])).getLast?.map WalCommit.changeCounter) = some c.header.changeCounter := by
 rw [walCommits_append]
 simp

/-- The log continues a file of the history exactly when the file stands at the log's base or at
one of its commits. -/
theorem continues_iff {H:Line} {B L f:ℕ} {h:WalHeader} (hBL:B≤L) (hL:L≤H.last)
 (hbase:h.baseChangeCounter=B) (path:Path) (readOnly:Bool) :
 continues (logObject path h readOnly (H.between B L)) f=true ↔ B≤f ∧ f≤L := by
 have hobj:(logObject path h readOnly (H.between B L)).header.baseChangeCounter=B:=hbase
 have hlist:(logObject path h readOnly (H.between B L)).commitList = walCommits 0 (H.between B L):=rfl
 rw [continues,hobj,hlist]
 rcases Nat.lt_or_ge B L with hlt | hge
 · obtain ⟨n,rfl⟩:∃ n,L=n+1:=⟨L-1,by omega⟩
   obtain ⟨c,hc⟩:=Line.commit_exists (H:=H) (n:=n) (by omega)
   have hcount:c.header.changeCounter=n+1:=by
    rw [← Line.headerAt_succ hc,Line.headerAt_counter hL]
   have hlast:=walCommits_getLast 0 (H.between B n) c
   rw [← Line.between_succ (by omega) hc,hcount] at hlast
   obtain ⟨w,hw,hwc⟩:=Option.map_eq_some_iff.mp hlast
   rw [hw]
   simp only [hwc,Bool.or_eq_true,Bool.and_eq_true,decide_eq_true_eq]
   omega
 · obtain rfl:B=L:=by omega
   rw [Line.between_self]
   simp only [walCommits,getLast?_nil,Bool.or_false,decide_eq_true_eq]
   omega

section Header
variable {H:Line} {f:ℕ}

lemma image_long (hf:f≤H.last) : H.pageSize≤(H.image f).length := by
 rw [Line.image_length hf]
 exact Nat.le_mul_of_pos_left _ (Line.count_pos hf)

lemma image_page0 (hf:f≤H.last) : slice (H.image f) 0 H.pageSize=(H.headerAt f).page0 := by
 have:=Line.slice_image hf (Line.count_pos hf)
 rwa [Nat.zero_mul,Line.pages_zero hf] at this

lemma probe_image (hf:f≤H.last) : probeHeader (slice (H.image f) 0 kMinPageSize)=.ok (H.headerAt f) := by
 have hlong:=image_long hf
 have hmin:=(Line.pageSize_bounds (H:=H)).1
 have hlen:(slice (H.image f) 0 kMinPageSize).length=kMinPageSize:=
  slice_length _ _ _ (by omega)
 have hslice:slice (H.image f) 0 kMinPageSize=slice (H.headerAt f).page0 0 kMinPageSize:=by
  rw [← image_page0 hf,slice_slice _ _ _ _ _ (by omega)]
 rw [probeHeader,if_pos (by rw [hlen]; decide)]
 rw [resize_of_length hlen,hslice]
 exact DbHeader.decode_page0 (Line.headerAt_fits hf) _ (by decide)

lemma probedPageSize_image (hf:f≤H.last) (options:DbOptions) :
 probedPageSize (slice (H.image f) 0 kMinPageSize) options=H.pageSize := by
 rw [probedPageSize,probe_image hf]
 exact Line.headerAt_pageSize hf

lemma usableHeader_image (hf:f≤H.last) :
 usableHeader (slice (H.image f) 0 kMinPageSize) (slice (H.image f) 0 H.pageSize) = some (H.headerAt f) := by
 rw [usableHeader,probe_image hf]
 simp only
 rw [image_page0 hf,if_pos ⟨DbHeader.page0_length _,DbHeader.page0_ok (Line.headerAt_fits hf)⟩]

end Header

lemma walPathOf_ne (path:Path) : walPathOf path≠path := by
 intro h
 have:=congrArg length h
 simp [walPathOf] at this

section Open
variable {H:Line} {f B L:ℕ} {σ:Vfs} {path:Path} {options:DbOptions} {h:WalHeader}
 {b:Bytes}

lemma openDb_header (hσ:σ.Calm) (hopt:isPageSize options.pageSize=true) (hf:f≤H.last)
 (hfile:σ.files.find path=some (H.image f)) : openDb path options σ=openLogFor path options (H.headerAt f) none σ := by
 have hpos:(H.image f).length≠0:=by
  have h1:=image_long hf
  have h2:=Line.pageSize_pos (H:=H)
  omega
 rw [openDb,if_neg (by simp [hopt]),bind_of_ok _ (initEntropy_calm hσ),
  bind_of_ok _ (pathExists_calm hσ path),hfile,if_neg (by simp),
  bind_of_ok _ (openFile_calm hσ hfile (by simp) rfl),bind_of_ok _ (size_calm hσ hfile)]
 have hskip:onlyIf (¬((some (H.image f)).isSome=true) ∨ (H.image f).length=0)
   (initFile path options) σ=(.ok (),σ):=by
  rw [onlyIf,if_neg (by simpa using hpos)]
  rfl
 rw [bind_of_ok _ hskip,bind_of_ok _ (read_calm hσ hfile 0 _),probedPageSize_image hf,
  bind_of_ok _ (read_calm hσ hfile 0 _),bind_of_ok _ (size_calm hσ hfile),usableHeader_image hf]

/-- What `openDb` builds on a file and a log of one history. -/
def openedDb (H:Line) (path:Path) (options:DbOptions) (h:WalHeader) (B L:ℕ) : Db where
 path := path
 options:=options
 pageSize:=H.pageSize
 dbId:=H.root.dbId
 wal:=logObject (walPathOf path) h false (H.between B L)

lemma openLogFor_run (options:DbOptions) (hσ:σ.Calm) (hf:f≤H.last) (hfile:σ.files.find path=some (H.image f))
 (hwal:σ.files.find (walPathOf path)=some b) (hl:LogFile H B L h b) : ∃ σ',σ'.Calm ∧ σ'.files.find path=some (H.image f) ∧
  σ'.files.find (walPathOf path)=some (logBytes h (H.between B L)) ∧ (B≤f ∧ f≤L →
   openLogFor path options (H.headerAt f) none σ=(.ok (openedDb H path options h B L),σ')) ∧ (¬(B≤f ∧ f≤L) →
   ∃ e,openLogFor path options (H.headerAt f) none σ=(.error e,σ')) := by
 have hσ2:=(hσ.persist (Vfs.isFileOp path)).persist Vfs.isDirOp
 obtain ⟨σ',hopen,hσ',hlog,hother⟩:=openLog_calm hσ2 hwal hl.holds f
 have hlogFor:logFor path (H.headerAt f) none ((σ.persist (Vfs.isFileOp path)).persist Vfs.isDirOp) =
    (.ok (logObject (walPathOf path) h false (H.between B L)),σ'):=by
  rw [logFor,Line.headerAt_pageSize hf,Line.headerAt_dbId hf,Line.headerAt_counter hf,← hl.pageSize,← hl.dbId]
  exact hopen
 have hrun:∀ k:Wal → VfsM Db,(do
   File.sync path
   Vfs.syncDirectory (directoryOf path)
   let wal ← logFor path (H.headerAt f) none
   k wal) σ=k (logObject (walPathOf path) h false (H.between B L)) σ':=by
  intro k
  rw [bind_of_ok _ (sync_calm hσ path),bind_of_ok _ (syncDirectory_calm (hσ.persist _) _),bind_of_ok _ hlogFor]
 have hiff:=continues_iff (f:=f) hl.base_le hl.last_le hl.base (walPathOf path) false
 refine ⟨σ',hσ',?_,hlog,fun hin=>?_,fun hout=>?_⟩
 · rw [hother path (walPathOf_ne path).symm]
   exact hfile
 · rw [openLogFor,hrun,Line.headerAt_counter hf,if_pos (hiff.mpr hin),openedDb,
    Line.headerAt_pageSize hf,Line.headerAt_dbId hf]
   rfl
 · rw [openLogFor,hrun,Line.headerAt_counter hf,if_neg (fun hc=>hout (hiff.mp hc))]
   exact ⟨_,rfl⟩

lemma openedDb_serving (options:DbOptions) (hσ:σ.Calm) (hBf:B≤f) (hfL:f≤L)
 (hfile:σ.files.find path=some (H.image f)) (hwal:σ.files.find (walPathOf path)=some (logBytes h (H.between B L)))
 (hl:LogFile H B L h b) : Serving ⟨σ,openedDb H path options h B L⟩ (H.between B L) (H.image f) (H.pages L) (H.count L) where
 calm := hσ
 opened:=rfl
 log:=⟨_,hwal,logHolds_exact hl.holds.fits hl.holds.loggable⟩
 index:=rfl
 next:=rfl
 walPageSize:=hl.pageSize
 headerPageSize:=hl.pageSize
 data:=hfile
 unlogged p hp hnot:=by
  have hf:f≤H.last:=hfL.trans hl.last_le
  have hpf:p<H.count f:=
   lt_of_lt_of_le (Line.unwritten_lt hl.base_le hl.last_le hp hnot) (Line.count_mono hBf hf)
  rw [Line.unwritten_eq hBf hfL hnot]
  exact Line.slice_image hf hpf
 logged p _ _:=by rw [Line.overlay_end hl.base_le]
 length _ hp:=Line.pages_length hl.last_le hp
 ok _ hp:=Line.pages_ok hl.last_le hp
 cached x hx:=by cases hx

/-- The database opens exactly when the file stands between the log's base and its last commit, and
then any sequence of page reads returns the state at the last commit. -/
theorem openDb_accepts_iff (hσ:σ.Calm) (hopt:isPageSize options.pageSize=true)
  (hf:f ≤ H.last) (hfile:σ.files.find path=some (H.image f))
  (hwal:σ.files.find (walPathOf path)=some b) (hl:LogFile H B L h b) :
  ((∃ db σ',openDb path options σ=(.ok db,σ')) ↔ B ≤ f ∧ f ≤ L) ∧
   ∀ db σ',openDb path options σ=(.ok db,σ') → Serves H L ⟨σ',db⟩ := by
 obtain ⟨τ,hτ,hdata,hlog,hyes,hno⟩:=openLogFor_run options hσ hf hfile hwal hl
 rw [openDb_header hσ hopt hf hfile]
 have hiff:(∃ db σ',openLogFor path options (H.headerAt f) none σ=(.ok db,σ')) ↔
   B ≤ f ∧ f ≤ L:=by
  constructor
  · rintro ⟨db,σ',hok⟩
    by_contra hout
    obtain ⟨e,herr⟩:=hno hout
    rw [herr] at hok
    cases hok
  · intro hin
    exact ⟨_,_,hyes hin⟩
 refine ⟨hiff,fun db σ' hok=>?_⟩
 have hin:=hiff.mp ⟨db,σ',hok⟩
 rw [hyes hin] at hok
 cases hok
 exact (openedDb_serving options hτ hin.1 hin.2 hdata hlog hl).serves hl.last_le

end Open

def exampleLogHeader (base:ℕ) : WalHeader := ⟨512,1,2,(exampleHeader 1 0).dbId,base⟩

lemma exampleLogFile (g:ℕ → UInt8) {k:ℕ} (hk:k<2^63) {B L:ℕ} (hBL:B≤L) (hL:L≤k) :
 LogFile (exampleLine g k hk) B L (exampleLogHeader B)
  (logBytes (exampleLogHeader B) ((exampleLine g k hk).between B L)) where
 base_le := hBL
 last_le:=by
  rw [Line.last,exampleLine,length_map,length_range]
  exact hL
 pageSize:=rfl
 dbId:=rfl
 base:=rfl
 holds:=logHolds_exact ⟨by change 512<2^32; decide,by change B<2^64; omega⟩
  fun _ hc=>loggable_of_line (Line.mem_between hc)

lemma exampleLine_last (g:ℕ → UInt8) {k:ℕ} (hk:k<2^63) : (exampleLine g k hk).last=k := by
 rw [Line.last,exampleLine,length_map,length_range]

/-- A file at counter 1 beside a log with the commits 1 and 2 opens. -/
theorem openDb_accepts_middle :
  ∃ db σ',openDb ['d'] {} (Vfs.quiet
   [(['d'],(exampleLine (fun _=>1) 2 (by decide)).image 1),
    (walPathOf ['d'],logBytes (exampleLogHeader 0)
     ((exampleLine (fun _=>1) 2 (by decide)).between 0 2))])=(.ok db,σ') :=
 (openDb_accepts_iff (H:=exampleLine (fun _=>1) 2 (by decide)) (f:=1) (B:=0) (L:=2)
  (Vfs.quiet_calm _) (by decide) (by rw [exampleLine_last]; decide) rfl rfl
  (exampleLogFile (fun _=>1) (by decide) (by decide) (by decide))).1.mpr (by decide)

end Archivum.DbOpen
