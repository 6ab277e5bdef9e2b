import Archivum.DbOpen

set_option autoImplicit false

/-!
# Opening a database whose page 0 is unusable

The log holds a committed page 0. `openDb` takes it from there, provided it
knows the page size: from what can be read of the file's header, or else from the
options. With another page size the log is not consulted, and a file of at most
one page of that size is initialised anew and the log removed.
-/
namespace Archivum.TornHeader
open ByteStrings StatefulActions PageTxn PageFormat VfsModel WalModel DbModel Histories LogImage List Act
open Overlays DbReads DbOpen

def Unusable (file:Bytes) : Prop :=
 ∀ h,probeHeader (slice file 0 kMinPageSize)=.ok h →
  ¬((slice file 0 h.pageSize).length=h.pageSize ∧ pageChecksumOk (slice file 0 h.pageSize)=true)

/-- A database whose file has lost its page 0 while the log holds one. The pages that are not in
the log are in the file. -/
structure Torn (H:Line) (B L:ℕ) (h:WalHeader) (b file:Bytes) : Prop where
 log : LogFile H B L h b
 committed : B<L
 unusable : Unusable file
 kept : ∀ p<H.count L,p ∉ (Line.imagesOf (H.between B L)).map Prod.fst →
  slice file (p*H.pageSize) H.pageSize=H.pages L p

/-- The outcome is an error or a database that serves the last committed state; the data file is
as it was and the log still starts with its committed frames. -/
def Safe (H:Line) (B L:ℕ) (h:WalHeader) (file:Bytes) (path:Path)
  (r:Except Status Db × Vfs) : Prop :=
 (∀ db,r.1=.ok db → Serves H L ⟨r.2,db⟩) ∧ r.2.files.find path=some file ∧
  ∃ tail,r.2.files.find (walPathOf path)=some (logBytes h (H.between B L)++tail)

/-- The page size `openDb` goes by is the log's, or the file is longer than one page of it. -/
def SizeKnown (h:WalHeader) (file:Bytes) (options:DbOptions) : Prop :=
 file≠[] ∧ (h.pageSize=probedPageSize (slice file 0 kMinPageSize) options ∨
  probedPageSize (slice file 0 kMinPageSize) options<file.length)

section Torn
variable {H:Line} {B L:ℕ} {h:WalHeader} {b file:Bytes} {σ:Vfs} {path:Path}
 {options:DbOptions}

lemma unusable_eq (hu:Unusable file) (options:DbOptions) : usableHeader (slice file 0 kMinPageSize)
  (slice file 0 (probedPageSize (slice file 0 kMinPageSize) options))=none := by
 rw [usableHeader,probedPageSize]
 cases hp:probeHeader (slice file 0 kMinPageSize) with
 | error e=>rfl
 | ok hdr=>exact if_neg (hu hdr hp)

lemma openDb_torn (hσ:σ.Calm) (hopt:isPageSize options.pageSize=true) (hne:file≠[])
 (hfile:σ.files.find path=some file) (hu:Unusable file) : openDb path options σ =
  (replacePage0 path options (probedPageSize (slice file 0 kMinPageSize) options) file.length >>=
   fun r=>openLogFor path options r.1 r.2) σ := by
 rw [openDb,if_neg (by simp [hopt]),bind_of_ok _ (initEntropy_calm hσ),
  bind_of_ok _ (pathExists_calm hσ path),hfile,if_neg (by simp),
  bind_of_ok _ (openFile_calm hσ hfile (by simp) rfl),bind_of_ok _ (size_calm hσ hfile)]
 have hskip:onlyIf (¬((some file).isSome=true) ∨ file.length=0)
   (initFile path options) σ=(.ok (),σ):=by
  rw [onlyIf,if_neg (by simpa using hne)]
  rfl
 rw [bind_of_ok _ hskip,bind_of_ok _ (read_calm hσ hfile 0 _),
  bind_of_ok _ (read_calm hσ hfile 0 _),bind_of_ok _ (size_calm hσ hfile),unusable_eq hu options]

lemma recoverPage0_header (hσ:σ.Calm) {path:Path} {cs:List Commit}
 (hwal:σ.files.find path=some b) (hl:LogHolds h cs b) {pageSize:ℕ}
 (hne:h.pageSize≠pageSize) : recoverPage0FromWal path pageSize σ=(.ok none,σ) := by
 rw [recoverPage0FromWal,bind_of_ok _ (pathExists_calm hσ path),hwal,if_neg (by simp),
  bind_of_ok _ (openFile_calm hσ hwal (by simp) rfl),bind_of_ok _ (read_calm hσ hwal 0 _),
  bind_of_ok _ (close_calm hσ path),header_slice hl,if_neg (by simp),WalHeader.decode_encode hl.fits]
 simp only
 rw [if_pos hne]
 rfl

lemma zero_mem_between (hBL:B<L) (hL:L≤H.last) : 0∈(Line.imagesOf (H.between B L)).map Prod.fst := by
 obtain ⟨n,rfl⟩:∃ n,L=n+1:=⟨L-1,by omega⟩
 obtain ⟨c,hc⟩:=Line.commit_exists (H:=H) (n:=n) hL
 rw [Line.between_succ (by omega) hc,Line.imagesOf_append,map_append]
 apply mem_append_right
 simp [Line.imagesOf,Commit.images]

lemma torn_serving (options:DbOptions) (hσ:σ.Calm) (hfile:σ.files.find path=some file)
 (hwal:σ.files.find (walPathOf path)=some (logBytes h (H.between B L))) (ht:Torn H B L h b file) :
 Serving ⟨σ,openedDb H path options h B L⟩ (H.between B L) file (H.pages L) (H.count L) where
 calm := hσ
 opened:=rfl
 log:=⟨_,hwal,logHolds_exact ht.log.holds.fits ht.log.holds.loggable⟩
 index:=rfl
 next:=rfl
 walPageSize:=ht.log.pageSize
 headerPageSize:=ht.log.pageSize
 data:=hfile
 unlogged:=ht.kept
 logged p _ _:=by rw [Line.overlay_end ht.log.base_le]
 length _ hp:=Line.pages_length ht.log.last_le hp
 ok _ hp:=Line.pages_ok ht.log.last_le hp
 cached x hx:=by cases hx

lemma recoverPage0_found (hσ:σ.Calm) {walPath:Path}
 (hwal:σ.files.find walPath=some b) (hl:LogFile H B L h b) (hBL:B<L) : ∃ σ',recoverPage0FromWal walPath h.pageSize σ =
   (.ok (some (logObject walPath h false (H.between B L),H.pages L 0)),σ') ∧ σ'.Calm ∧
  σ'.files.find walPath=some (logBytes h (H.between B L)) ∧ ∀ q,q≠walPath → σ'.files.find q=σ.files.find q := by
 obtain ⟨τ,hopen,hτ,hlog,hother⟩:=openLog_calm hσ hwal hl.holds h.baseChangeCounter
 have hmem:0∈(Line.imagesOf (H.between B L)).map Prod.fst:=zero_mem_between hBL hl.last_le
 have hfind:(indexOf (H.between B L)).find 0 (indexOf (H.between B L)).lastCommit≠0:=
  fun hz=>find_indexOf_zero hz hmem
 obtain ⟨-,himg⟩:=find_indexOf_image hfind (H.pages L)
 rw [Line.overlay_end hl.base_le] at himg
 have hread:=readFramePage_calm (w:=logObject walPath h false (H.between B L)) hτ hlog
  (logHolds_exact hl.holds.fits hl.holds.loggable) rfl rfl himg
 rw [Nat.sub_add_cancel (Nat.pos_of_ne_zero hfind)] at hread
 refine ⟨τ,?_,hτ,hlog,hother⟩
 rw [recoverPage0FromWal,bind_of_ok _ (pathExists_calm hσ walPath),hwal,if_neg (by simp),
  bind_of_ok _ (openFile_calm hσ hwal (by simp) rfl),bind_of_ok _ (read_calm hσ hwal 0 _),
  bind_of_ok _ (close_calm hσ walPath),header_slice hl.holds,if_neg (by simp),WalHeader.decode_encode hl.holds.fits]
 simp only
 rw [if_neg (not_not_intro rfl),bind_of_ok _ hopen]
 refine (congrFun (if_neg hfind) τ).trans ?_
 exact bind_of_ok _ hread

lemma openDb_from_log (hσ:σ.Calm) (hopt:isPageSize options.pageSize=true) (hne:file≠[])
 (hfile:σ.files.find path=some file) (hwal:σ.files.find (walPathOf path)=some b) (ht:Torn H B L h b file)
 (hps:h.pageSize=probedPageSize (slice file 0 kMinPageSize) options) : Safe H B L h file path (openDb path options σ) := by
 obtain ⟨τ,hrec,hτ,hlog,hother⟩:=recoverPage0_found hσ hwal ht.log ht.committed
 have hL:=ht.log.last_le
 have hreplace:replacePage0 path options h.pageSize file.length σ =
   (.ok (H.headerAt L,some (logObject (walPathOf path) h false (H.between B L))),τ):=by
  rw [replacePage0,bind_of_ok _ hrec]
  simp only
  rw [decode_pages_zero hL]
  rfl
 have hdata:τ.files.find path=some file:=by
  rw [hother path (walPathOf_ne path).symm]
  exact hfile
 have hcont:=(continues_iff (f:=L) ht.log.base_le hL ht.log.base (walPathOf path) false).mpr ⟨ht.log.base_le,le_rfl⟩
 have hτ2:=(hτ.persist (Vfs.isFileOp path)).persist Vfs.isDirOp
 have hrun:openDb path options σ=(.ok (openedDb H path options h B L),
   (τ.persist (Vfs.isFileOp path)).persist Vfs.isDirOp):=by
  rw [openDb_torn hσ hopt hne hfile ht.unusable,← hps,bind_of_ok _ hreplace,openLogFor,bind_of_ok _ (sync_calm hτ path),
   bind_of_ok _ (syncDirectory_calm (hτ.persist _) _),logFor]
  refine (bind_of_ok _ rfl).trans ?_
  rw [Line.headerAt_counter hL,if_pos hcont,openedDb,Line.headerAt_pageSize hL,Line.headerAt_dbId hL]
  rfl
 rw [hrun]
 refine ⟨fun db hok=>?_,hdata,[],by rw [append_nil]; exact hlog⟩
 cases hok
 exact (torn_serving options hτ2 hdata hlog ht).serves hL

lemma openDb_refused (hσ:σ.Calm) (hopt:isPageSize options.pageSize=true) (hne:file≠[])
 (hfile:σ.files.find path=some file) (hwal:σ.files.find (walPathOf path)=some b) (ht:Torn H B L h b file)
 (hps:h.pageSize≠probedPageSize (slice file 0 kMinPageSize) options)
 (hlong:probedPageSize (slice file 0 kMinPageSize) options<file.length) :
 Safe H B L h file path (openDb path options σ) := by
 obtain ⟨e,herr⟩:∃ e,replacePage0 path options
   (probedPageSize (slice file 0 kMinPageSize) options) file.length σ=(.error e,σ):=by
  rw [replacePage0,bind_of_ok _ (recoverPage0_header hσ hwal ht.log.holds hps)]
  exact ⟨_,congrFun (if_neg (by omega)) σ⟩
 have hrun:openDb path options σ=(.error e,σ):=by
  rw [openDb_torn hσ hopt hne hfile ht.unusable,bind_of_error _ herr]
 obtain ⟨tail,hb⟩:=ht.log.holds.bytes
 rw [hrun]
 refine ⟨?_,hfile,tail,hb ▸ hwal⟩
 intro db hok
 cases hok

def freshHeader (options:DbOptions) (id:DbId) : PageFormat.DbHeader :=
 { pageSize:=options.pageSize,dbId:=id }

lemma removeStaleLog_calm (hσ:σ.Calm) (path:Path) : ∃ σ',removeStaleLog path σ=(.ok (),σ') ∧ σ'.Calm ∧
  σ'.files.find (walPathOf path)=none ∧ ∀ q,q≠walPathOf path → σ'.files.find q=σ.files.find q := by
 rw [removeStaleLog,bind_of_ok _ (attempt_of (pathExists_calm hσ _))]
 cases hw:σ.files.find (walPathOf path) with
 | none=>exact ⟨σ,rfl,hσ,hw,fun _ _=>rfl⟩
 | some w=>
  refine ⟨_,(bind_of_ok _ (remove_calm hσ hw)).trans (syncDirectory_calm (hσ.mutate _ _ _) _),(hσ.mutate _ _ _).persist _,
   Disk.find_remove_self _ _,fun q hq=>Disk.find_remove_of_ne _ hq⟩

lemma initFile_calm (options:DbOptions) (hσ:σ.Calm) (hfile:σ.files.find path=some file) :
 ∃ id σ',initFile path options σ=(.ok (),σ') ∧ σ'.Calm ∧ σ'.files.find path=some (freshHeader options id).page0 ∧
  σ'.files.find (walPathOf path)=none := by
 obtain ⟨id,σ₁,hid,hσ₁,hfile₁⟩:∃ id σ₁,randomBytes 16 σ=(.ok id,σ₁) ∧ σ₁.Calm ∧
   σ₁.files.find path=some file:=⟨_,_,rfl,⟨hσ.alive,hσ.quiet⟩,hfile⟩
 obtain ⟨σ₂,hcut,hσ₂,hf₂⟩:=truncate_run hσ₁ hfile₁ 0
 have hnil:resize file 0=[]:=length_eq_zero_iff.mp (resize_length _ _)
 rw [hnil] at hf₂
 have hempty:σ₂.files.find path=some []:=by rw [hf₂,Disk.find_put_self]
 obtain ⟨σ₃,hwrite,hσ₃,hf₃⟩:=write_run hσ₂ hempty 0 (freshHeader options id).page0
 obtain ⟨σ₄,hsync,hσ₄,hf₄⟩:=sync_run hσ₃ path
 obtain ⟨σ₅,hdir,hσ₅,hf₅⟩:=syncDirectory_run hσ₄ (directoryOf path)
 obtain ⟨σ',hstale,hσ',hgone,hother⟩:=removeStaleLog_calm hσ₅ path
 refine ⟨id,σ',?_,hσ',?_,hgone⟩
 · rw [initFile,bind_of_ok _ hid,bind_of_ok _ hcut]
   refine (bind_of_ok _ hwrite).trans ?_
   rw [bind_of_ok _ hsync,bind_of_ok _ hdir]
   exact hstale
 · rw [hother path (walPathOf_ne path).symm,hf₅,hf₄,hf₃,Disk.find_put_self]
   exact congrArg some (writeAt_end [] _)

lemma randomSalt_calm {p:Path} {w:Bytes} (hσ:σ.Calm) (hf:σ.files.find p=some w) :
 ∃ salt σ',randomSalt σ=(.ok salt,σ') ∧ σ'.Calm ∧ σ'.files.find p=some w :=
 ⟨_,_,rfl,⟨hσ.alive,hσ.quiet⟩,hf⟩

lemma openLog_fresh (hσ:σ.Calm) {walPath:Path} (hwal:σ.files.find walPath=none)
  (pageSize:ℕ) (id:DbId) (base:ℕ) :
  ∃ w σ',Wal.openLog walPath pageSize { dbId:=id,newBaseChangeCounter:=base } σ =
    (.ok w,σ') ∧ ∃ b,σ'.files.find walPath=some b ∧ b.length=kWalHeaderBytes := by
 obtain ⟨σ₁,hcreate,hσ₁,hf₁⟩:=create_run hσ hwal { write:=true,create:=true } rfl rfl
 obtain ⟨salt1,σ₂,hsalt1,hσ₂,hf₂⟩:=randomSalt_calm hσ₁ (by rw [hf₁,Disk.find_put_self])
 obtain ⟨salt2,σ₃,hsalt2,hσ₃,hf₃⟩:=randomSalt_calm hσ₂ hf₂
 obtain ⟨σ₄,hwrite,hσ₄,hf₄⟩:=write_run hσ₃ hf₃ 0 (WalHeader.encode ⟨pageSize,salt1,salt2,id,base⟩)
 obtain ⟨σ₅,hsync,hσ₅,hf₅⟩:=sync_run hσ₄ walPath
 obtain ⟨σ₆,hdir,-,hf₆⟩:=syncDirectory_run hσ₅ (directoryOf walPath)
 refine ⟨Wal.blank walPath ⟨pageSize,salt1,salt2,id,base⟩ false,σ₆,?_,
  writeAt [] 0 (WalHeader.encode ⟨pageSize,salt1,salt2,id,base⟩),?_,by simp⟩
 · rw [Wal.openLog,bind_of_ok _ (pathExists_calm hσ walPath),hwal,if_neg (by simp)]
   refine (bind_of_ok _ hcreate).trans ?_
   have hheader:Wal.writeHeader walPath ⟨pageSize,salt1,salt2,id,base⟩ σ₃=(.ok (),σ₅):=
    (bind_of_ok _ hwrite).trans hsync
   rw [if_pos (by simp),bind_of_ok _ hsalt1,bind_of_ok _ hsalt2,bind_of_ok _ hheader,bind_of_ok _ hdir]
   rfl
 · rw [hf₆,hf₅,hf₄,Disk.find_put_self]

lemma openLogFor_fresh (hσ:σ.Calm) (hwal:σ.files.find (walPathOf path)=none) (hdr:PageFormat.DbHeader) {w:Bytes}
 (hw:(openLogFor path options hdr none σ).2.files.find (walPathOf path)=some w) : w.length=kWalHeaderBytes := by
 have hσ₂:=(hσ.persist (Vfs.isFileOp path)).persist Vfs.isDirOp
 obtain ⟨log,σ',hopen,b,hb,hlen⟩:=openLog_fresh hσ₂ hwal hdr.pageSize hdr.dbId hdr.changeCounter
 have hend:(openLogFor path options hdr none σ).2=σ':=by
  rw [openLogFor,bind_of_ok _ (sync_calm hσ path),
   bind_of_ok _ (syncDirectory_calm (hσ.persist _) _),logFor,bind_of_ok _ hopen]
  split <;> rfl
 rw [hend,hb] at hw
 rw [← Option.some.inj hw]
 exact hlen

lemma not_safe_of_short (hl:LogFile H B L h b) (hBL:B<L) {r:Except Status Db × Vfs}
 (hshort:∀ w,r.2.files.find (walPathOf path)=some w → w.length=kWalHeaderBytes) : ¬Safe H B L h file path r := by
 rintro ⟨-,-,tail,htail⟩
 have hlen:=hshort _ htail
 obtain ⟨x,hx,-⟩:=mem_map.mp (zero_mem_between hBL hl.last_le)
 have hpos:0<(Line.imagesOf (H.between B L)).length:=length_pos_of_mem hx
 have hframe:0<(Line.imagesOf (H.between B L)).length*frameBytes h.pageSize:=
  Nat.mul_pos hpos (by simp [frameBytes,kFrameHeaderBytes])
 rw [length_append,logBytes_length h _ hl.holds.loggable,frameOffset,Nat.add_sub_cancel] at hlen
 omega

/-- The last step of `replacePage0`: the header that the new page 0 holds. -/
def decoded (pageSize:ℕ) (page0:Bytes) : VfsM (PageFormat.DbHeader × Option Wal) :=
 match DbHeader.decode (resize page0 pageSize) with
 | .ok h=>return (h,none)
 | .error e=>fail e

lemma openDb_short_loses (hσ:σ.Calm) (hopt:isPageSize options.pageSize=true) (hne:file≠[])
 (hfile:σ.files.find path=some file) (hwal:σ.files.find (walPathOf path)=some b) (ht:Torn H B L h b file)
 (hps:h.pageSize≠probedPageSize (slice file 0 kMinPageSize) options)
 (hshort:file.length≤probedPageSize (slice file 0 kMinPageSize) options) :
 ¬Safe H B L h file path (openDb path options σ) := by
 obtain ⟨id,τ,hinit,hτ,hdata,hgone⟩:=initFile_calm options hσ hfile
 have hreplace:replacePage0 path options (probedPageSize (slice file 0 kMinPageSize) options)
   file.length σ=(File.read path 0 (probedPageSize (slice file 0 kMinPageSize) options) >>=
    fun page0=>decoded (probedPageSize (slice file 0 kMinPageSize) options) page0) τ:=by
  rw [replacePage0,bind_of_ok _ (recoverPage0_header hσ hwal ht.log.holds hps)]
  refine (congrFun (if_pos hshort) σ).trans ?_
  exact bind_of_ok _ hinit
 rw [bind_of_ok _ (read_calm hτ hdata 0 _)] at hreplace
 refine not_safe_of_short ht.log ht.committed fun w hw=>?_
 rw [openDb_torn hσ hopt hne hfile ht.unusable] at hw
 cases hdec:DbHeader.decode (resize (slice (freshHeader options id).page0 0
   (probedPageSize (slice file 0 kMinPageSize) options))
   (probedPageSize (slice file 0 kMinPageSize) options)) with
 | error e=>
  rw [decoded,hdec] at hreplace
  rw [bind_of_error _ hreplace,hgone] at hw
  cases hw
 | ok hdr=>
  rw [decoded,hdec] at hreplace
  rw [bind_of_ok _ hreplace] at hw
  exact openLogFor_fresh hτ hgone hdr hw

def freshLine (options:DbOptions) (id:DbId) (hopt:isPageSize options.pageSize=true) :
  Line where
 root := freshHeader options id
 commits:=[]
 root_fits:=
  { pageSize:=hopt
    version:=rfl
    pageCount_pos:=Nat.one_pos
    pageCount:=Nat.one_lt_two_pow (by decide)
    freelistHead:=Nat.two_pow_pos 64
    freelistCount:=Nat.two_pow_pos 64
    changeCounter:=Nat.two_pow_pos 64
    time_ge:=Int.neg_nonpos_of_nonneg (by decide)
    time_lt:=(by decide:(0:ℤ)<2^63) }
 root_count:=rfl
 root_counter:=rfl
 follows n c hc:=by cases hc

lemma openDb_empty_loses (hσ:σ.Calm) (hopt:isPageSize options.pageSize=true)
 (hfile:σ.files.find path=some []) (ht:Torn H B L h b []) : ¬Safe H B L h [] path (openDb path options σ) := by
 obtain ⟨id,τ,hinit,hτ,hdata,hgone⟩:=initFile_calm options hσ hfile
 have himage:(freshLine options id hopt).image 0=(freshHeader options id).page0:=by
  change ((range 1).flatMap _)=_
  simp [Line.pages,Line.imagesOf,Line.created,Overlays.overlay,freshLine]
 have hprobed:=probedPageSize_image (H:=freshLine options id hopt) (f:=0) (Nat.zero_le _) options
 have huse:=usableHeader_image (H:=freshLine options id hopt) (f:=0) (Nat.zero_le _)
 rw [himage] at hprobed huse
 refine not_safe_of_short ht.log ht.committed fun w hw=>?_
 have hrun:openDb path options σ=openLogFor path options (freshHeader options id) none τ:=by
  rw [openDb,if_neg (by simp [hopt]),bind_of_ok _ (initEntropy_calm hσ),
   bind_of_ok _ (pathExists_calm hσ path),hfile,if_neg (by simp),
   bind_of_ok _ (openFile_calm hσ hfile (by simp) rfl),bind_of_ok _ (size_calm hσ hfile)]
  have hdo:onlyIf (¬((some ([]:Bytes)).isSome=true) ∨ ([]:Bytes).length=0)
    (initFile path options) σ=(.ok (),τ):=by
   rw [onlyIf,if_pos (by simp)]
   exact hinit
  rw [bind_of_ok _ hdo,bind_of_ok _ (read_calm hτ hdata 0 _),hprobed,
   bind_of_ok _ (read_calm hτ hdata 0 _),bind_of_ok _ (size_calm hτ hdata),huse]
  rfl
 rw [hrun] at hw
 exact openLogFor_fresh hτ hgone _ hw

/-- Opening keeps the log's commits and serves the last of them, or refuses, exactly when the file
is not empty and the page size it goes by is the log's or the file is longer than one such page. -/
theorem openDb_torn_safe_iff (hσ:σ.Calm) (hopt:isPageSize options.pageSize=true)
  (hfile:σ.files.find path=some file) (hwal:σ.files.find (walPathOf path)=some b)
  (ht:Torn H B L h b file) :
  Safe H B L h file path (openDb path options σ) ↔ SizeKnown h file options := by
 constructor
 · intro hsafe
   by_contra hnot
   by_cases hne:file=[]
   · subst hne
     exact openDb_empty_loses hσ hopt hfile ht hsafe
   · have hps:h.pageSize≠probedPageSize (slice file 0 kMinPageSize) options:=
      fun hps=>hnot ⟨hne,Or.inl hps⟩
     refine openDb_short_loses hσ hopt hne hfile hwal ht hps ?_ hsafe
     by_contra hlong
     exact hnot ⟨hne,Or.inr (by omega)⟩
 · rintro ⟨hne,hknown⟩
   by_cases hps:h.pageSize=probedPageSize (slice file 0 kMinPageSize) options
   · exact openDb_from_log hσ hopt hne hfile hwal ht hps
   · exact openDb_refused hσ hopt hne hfile hwal ht hps (hknown.resolve_left hps)

end Torn

def zeroedFile : Bytes := replicate 1024 0

lemma zeroedFile_torn :
 Torn (exampleLine (fun _=>1) 1 (by decide)) 0 1 (exampleLogHeader 0)
  (logBytes (exampleLogHeader 0) ((exampleLine (fun _=>1) 1 (by decide)).between 0 1))
  zeroedFile where
 log := exampleLogFile (fun _=>1) (by decide) (by decide) (by decide)
 committed:=by decide
 unusable:=by
  intro h hh
  have hbad:probeHeader (slice zeroedFile 0 kMinPageSize) =
    .error (corrupt "database header magic mismatch"):=by decide +kernel
  rw [hbad] at hh
  cases hh
 kept:=by
  intro p hp hnot
  have hp2:p<2:=hp
  have himages:(Line.imagesOf ((exampleLine (fun _=>1) 1 (by decide)).between 0 1)).map
    Prod.fst=[1,0]:=rfl
  rw [himages] at hnot
  simp only [mem_cons,not_mem_nil,or_false,not_or] at hnot
  omega

def zeroedVfs : Vfs :=
 Vfs.quiet [(['d'],zeroedFile),(walPathOf ['d'],logBytes (exampleLogHeader 0)
  ((exampleLine (fun _=>1) 1 one_lt_bound).between 0 1))]

/-- With the page size of the log the database opens and serves its commit. -/
theorem zeroed_safe :
  Safe (exampleLine (fun _=>1) 1 (by decide)) 0 1 (exampleLogHeader 0) zeroedFile ['d']
   (openDb ['d'] { pageSize:=512 } zeroedVfs) :=
 (openDb_torn_safe_iff (Vfs.quiet_calm _) (by decide) rfl rfl zeroedFile_torn).mpr
  ⟨by decide +kernel,Or.inl (by decide +kernel)⟩

/-- With the default page size the file is initialised anew and the commit is lost. -/
theorem zeroed_lost :
  ¬Safe (exampleLine (fun _=>1) 1 (by decide)) 0 1 (exampleLogHeader 0) zeroedFile ['d']
   (openDb ['d'] {} zeroedVfs) :=
 openDb_short_loses (Vfs.quiet_calm _) (by decide) (by decide +kernel) rfl rfl zeroedFile_torn
  (by decide +kernel) (by decide +kernel)

end Archivum.TornHeader
