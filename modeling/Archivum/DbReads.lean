import Archivum.LogImage

set_option autoImplicit false

/-!
# Reading committed pages

The latest frame of a page in the log, and what a database whose log holds given
commits returns for each page: the page's last image in the log, or the data
file's copy. Reads change nothing but the cache, which stays coherent.
-/
namespace Archivum.DbReads
open ByteStrings StatefulActions PageTxn PageFormat VfsModel WalModel DbModel Histories LogImage List Act
open Overlays

lemma mem_frames_iff (x:Index) (p f:ℕ) : f∈x.frames p ↔ 0<f ∧ x.framePages[f-1]? = some p := by
 simp only [Index.frames,mem_filter,mem_map,mem_range,decide_eq_true_eq]
 constructor
 · rintro ⟨⟨i,-,rfl⟩,hp⟩
   exact ⟨Nat.succ_pos i,hp⟩
 · rintro ⟨hf,hp⟩
   have hlt:f-1<x.framePages.length:=(List.getElem?_eq_some_iff.mp hp).1
   exact ⟨⟨f-1,hlt,by omega⟩,hp⟩

lemma frames_sorted (x:Index) (p:ℕ) : (x.frames p).Pairwise (· < ·) := by
 refine List.Pairwise.filter _ (pairwise_map.mpr ?_)
 exact pairwise_lt_range.imp fun h=>Nat.succ_lt_succ h

lemma find_spec (x:Index) (p snapshot:ℕ) : (x.find p snapshot=0 ∧ ∀ i<snapshot,x.framePages[i]?≠some p) ∨
  (0<x.find p snapshot ∧ x.find p snapshot ≤ snapshot ∧ x.framePages[x.find p snapshot-1]? = some p ∧
   ∀ i,x.find p snapshot ≤ i → i<snapshot → x.framePages[i]?≠some p) := by
 have hsorted:((x.frames p).filter fun f=>decide (f ≤ snapshot)).Pairwise (· < ·):=
  (frames_sorted x p).filter _
 have hmem:∀ f,f∈(x.frames p).filter (fun f=>decide (f ≤ snapshot)) ↔
   (0<f ∧ x.framePages[f-1]? = some p) ∧ f ≤ snapshot:=by
  intro f
  rw [mem_filter,mem_frames_iff,decide_eq_true_eq]
 rw [Index.find]
 generalize (x.frames p).filter (fun f=>decide (f ≤ snapshot))=fs at hsorted hmem
 rcases fs.eq_nil_or_concat with rfl | ⟨gs,f,rfl⟩
 · refine Or.inl ⟨rfl,fun i hi hp=>?_⟩
   exact not_mem_nil ((hmem (i+1)).mpr ⟨⟨Nat.succ_pos i,hp⟩,hi⟩)
 · rw [concat_eq_append] at hsorted hmem ⊢
   rw [getLastD_concat]
   obtain ⟨⟨hpos,hp⟩,hle⟩:=(hmem f).mp (by simp)
   refine Or.inr ⟨hpos,hle,hp,fun i hfi hi hpi=>?_⟩
   have hin:=(hmem (i+1)).mpr ⟨⟨Nat.succ_pos i,hpi⟩,hi⟩
   rcases mem_append.mp hin with hin | hin
   · have:=(pairwise_append.mp hsorted).2.2 _ hin f mem_cons_self
     omega
   · rw [mem_singleton] at hin
     omega

section Find
variable {x:Index} {cs:List Commit} {p:ℕ}

lemma find_indexOf_zero (hz:(indexOf cs).find p (indexOf cs).lastCommit=0) : p ∉ (Line.imagesOf cs).map Prod.fst := by
 intro hmem
 obtain ⟨i,hi⟩:=mem_iff_getElem?.mp hmem
 have hlt:i<(Line.imagesOf cs).length:=by
  simpa using (List.getElem?_eq_some_iff.mp hi).1
 rcases find_spec (indexOf cs) p (indexOf cs).lastCommit with ⟨-,h⟩ | ⟨h,-⟩
 · exact h i hlt hi
 · omega

lemma find_indexOf_image (hz:(indexOf cs).find p (indexOf cs).lastCommit≠0) (s:ℕ → Bytes) :
 (indexOf cs).find p (indexOf cs).lastCommit≤(Line.imagesOf cs).length ∧
  (Line.imagesOf cs)[(indexOf cs).find p (indexOf cs).lastCommit-1]? = some (p,overlay (Line.imagesOf cs) s p) := by
 rcases find_spec (indexOf cs) p (indexOf cs).lastCommit with ⟨h,-⟩ | ⟨hpos,hle,hp,hlast⟩
 · exact absurd h hz
 · set f:=(indexOf cs).find p (indexOf cs).lastCommit
   simp only [indexOf,getElem?_map] at hp
   obtain ⟨w,hw,hwp⟩:=Option.map_eq_some_iff.mp hp
   have hov:=overlay_last (Line.imagesOf cs) s (f-1) hw (by
    intro j hj heq
    have hjlt:j<(Line.imagesOf cs).length:=by
     by_contra hge
     rw [getElem?_eq_none (by omega)] at heq
     cases heq
    refine hlast j (by omega) hjlt ?_
    simp only [indexOf,getElem?_map]
    rw [heq,hwp])
   refine ⟨hle,?_⟩
   rw [hw,← hwp,hov]

end Find

lemma readFramePage_calm {σ:Vfs} {w:Wal} {b:Bytes} {cs:List Commit} (hσ:σ.Calm)
 (hf:σ.files.find w.path=some b) (hl:LogHolds w.header cs b)
 (hps:w.header.pageSize=w.pageSize) (hnext:w.nextFrame=(Line.imagesOf cs).length+1)
 {i:ℕ} {x:ℕ × Bytes} (hx:(Line.imagesOf cs)[i]? = some x) : w.readFramePage (i+1) σ=(.ok x.2,σ) := by
 have hi:i<(Line.imagesOf cs).length:=(List.getElem?_eq_some_iff.mp hx).1
 have hdata:=hl.frame_data hx
 rw [hps] at hdata
 obtain ⟨hlen,hok⟩:=imagesOf_length_eq hl.loggable x (mem_of_getElem? hx)
 rw [hps] at hlen
 rw [Wal.readFramePage,if_neg (by omega),bind_of_ok _ (read_calm hσ hf _ _),hdata,
  if_neg (by simp [hlen]),if_neg (by simp [hok])]
 rfl

/-- The copy of a page a read finds at `frame`: an image in the log, or the data file's. -/
def copyAt (cs:List Commit) (file:Bytes) (ps page frame:ℕ) : Option Bytes :=
 if frame=0 then some (slice file (page*ps) ps)
 else ((Line.imagesOf cs)[frame-1]?).map Prod.snd

/-- The database's log holds the commits `cs`, its data file is `file`, and together they are the
pages `pages` below `count`. -/
structure Serving (s : DbIO) (cs:List Commit) (file:Bytes) (pages:ℕ → Bytes) (count:ℕ) :
  Prop where
 calm : s.vfs.Calm
 opened : s.db.closed=false
 log : ∃ b,s.vfs.files.find s.db.wal.path=some b ∧ LogHolds s.db.wal.header cs b
 index : s.db.wal.toIndex=indexOf cs
 next : s.db.wal.nextFrame=(Line.imagesOf cs).length+1
 walPageSize : s.db.wal.pageSize=s.db.pageSize
 headerPageSize : s.db.wal.header.pageSize=s.db.pageSize
 data : s.vfs.files.find s.db.path=some file
 unlogged : ∀ p<count,p ∉ (Line.imagesOf cs).map Prod.fst →
  slice file (p*s.db.pageSize) s.db.pageSize=pages p
 logged : ∀ p<count,p∈(Line.imagesOf cs).map Prod.fst →
  overlay (Line.imagesOf cs) pages p=pages p
 length : ∀ p<count,(pages p).length=s.db.pageSize
 ok : ∀ p<count,pageChecksumOk (pages p)=true
 cached : ∀ x∈s.db.cache,copyAt cs file s.db.pageSize x.1.1 x.1.2=some x.2

namespace Serving

variable {s : DbIO} {cs:List Commit} {file:Bytes} {pages:ℕ → Bytes} {count:ℕ}

lemma copy_eq (h:Serving s cs file pages count) {p:ℕ} (hp:p<count) :
 copyAt cs file s.db.pageSize p (s.db.wal.find p s.db.wal.lastCommit)=some (pages p) := by
 rw [h.index,copyAt]
 by_cases hz:(indexOf cs).find p (indexOf cs).lastCommit=0
 · rw [if_pos hz,h.unlogged p hp (find_indexOf_zero hz)]
 · obtain ⟨-,himg⟩:=find_indexOf_image hz pages
   have hmem:p∈(Line.imagesOf cs).map Prod.fst:=
    mem_map.mpr ⟨_,mem_of_getElem? himg,rfl⟩
   rw [if_neg hz,himg,h.logged p hp hmem]
   rfl

lemma cachePut (h:Serving s cs file pages count) {p frame:ℕ} {d:Bytes}
  (hcopy:copyAt cs file s.db.pageSize p frame=some d) :
  Serving { s with db:=s.db.cachePut (p,frame) d } cs file pages count :=
 { h with
   cached:=by
     intro x hx
     rcases mem_cons.mp (mem_of_mem_take hx) with rfl | hx
     · exact hcopy
     · exact h.cached x (mem_filter.mp hx).1 }

lemma readCommitted_run (h:Serving s cs file pages count) {p:ℕ} (hp:p<count) :
  ∃ s',Db.readCommitted p s.db.wal.lastCommit s=(.ok (pages p),s') ∧
   Serving s' cs file pages count ∧ s'.vfs=s.vfs ∧ s'.db={ s.db with cache:=s'.db.cache } := by
 have hcopy:=h.copy_eq hp
 set frame:=s.db.wal.find p s.db.wal.lastCommit with hframe
 refine ⟨{ s with db:=s.db.cachePut (p,frame) (pages p) },?_,h.cachePut hcopy,rfl,rfl⟩
 rw [Db.readCommitted,bind_reads,if_neg (by simp [h.opened]),← hframe]
 cases hget:s.db.cacheGet (p,frame) with
 | some d=>
  obtain ⟨l,r,hlist,-⟩:=lookup_eq_some_iff.mp hget
  have hmem:((p,frame),d)∈s.db.cache:=by
   rw [hlist]
   simp
  have hd:d=pages p:=Option.some.inj ((h.cached _ hmem).symm.trans hcopy)
  rw [hd]
  rfl
 | none=>
  have hread:s.db.readCopy p frame s.vfs=(.ok (pages p),s.vfs):=by
   rw [Db.readCopy]
   by_cases hz:frame=0
   · rw [if_neg (not_not_intro hz)]
     rw [copyAt,if_pos hz] at hcopy
     have hslice:=Option.some.inj hcopy
     rw [Db.readFilePage,bind_of_ok _ (read_calm h.calm h.data _ _),hslice,
      if_neg (by simp [h.length p hp]),if_neg (by simp [h.ok p hp])]
     rfl
   · rw [if_pos hz]
     rw [copyAt,if_neg hz] at hcopy
     obtain ⟨x,hx,hxd⟩:=Option.map_eq_some_iff.mp hcopy
     obtain ⟨b,hb,hl⟩:=h.log
     have hrun:=readFramePage_calm h.calm hb hl (h.headerPageSize.trans h.walPageSize.symm) h.next hx
     rwa [Nat.sub_add_cancel (Nat.pos_of_ne_zero hz),hxd] at hrun
  have hio:Db.io (s.db.readCopy p frame) s=(.ok (pages p),s):=
   zoom_of (g := DbIO.vfs) hread
  simp only
  rw [bind_of_ok _ hio]
  rfl

lemma readers (h:Serving s cs file pages count) (n:ℕ) :
  Serving { s with db:={ s.db with activeReaders:=n } } cs file pages count :=
 { h with }

lemma beginRead_run (h:Serving s cs file pages count) {hdr:PageFormat.DbHeader}
  (hpos:0<count) (hdec:DbHeader.decode (pages 0)=.ok hdr) :
  ∃ s',Db.beginRead s=(.ok ⟨s.db.wal.lastCommit,hdr.pageCount,hdr.changeCounter⟩,s') ∧
   Serving s' cs file pages count ∧ s'.vfs=s.vfs ∧
   s'.db={ s.db with cache:=s'.db.cache,activeReaders:=s.db.activeReaders+1 } := by
 obtain ⟨s',hread,hserv,hvfs,hdb⟩:=
  (h.readers (s.db.activeReaders+1)).readCommitted_run hpos
 refine ⟨s',?_,hserv,hvfs,hdb⟩
 have hhdr:Db.committedHeader s.db.wal.lastCommit
   { s with db:={ s.db with activeReaders:=s.db.activeReaders+1 } }=(.ok hdr,s'):=by
  rw [Db.committedHeader]
  refine (bind_of_ok _ hread).trans ?_
  rw [hdec]
  rfl
 rw [Db.beginRead,bind_reads,if_neg (by simp [h.opened])]
 refine (bind_of_ok _ (modify_run _ s)).trans ?_
 exact bind_of_ok _ (attempt_of hhdr)

end Serving

def readPages (t:Db.ReadTxn) : List ℕ → DbM (List Bytes)
 | []=>return []
 | p::ps=>do
  let b ← Db.readPage t p
  let bs ← readPages t ps
  return b::bs

lemma Serving.readPages_run {cs:List Commit} {file:Bytes} {pages:ℕ → Bytes} {count:ℕ}
 {t:Db.ReadTxn} (ps:List ℕ) (hps:∀ p∈ps,p<count) (hcount:t.pageCount=count)
 {s : DbIO} (h:Serving s cs file pages count) (hsnap:t.snapshot=s.db.wal.lastCommit) :
 ∃ s',readPages t ps s=(.ok (ps.map pages),s') ∧ Serving s' cs file pages count := by
 induction ps generalizing s with
 | nil=>exact ⟨s,rfl,h⟩
 | cons p ps ih=>
  have hp:=hps p mem_cons_self
  obtain ⟨s1,hread,h1,-,hdb⟩:=h.readCommitted_run hp
  have hpage:Db.readPage t p s=(.ok (pages p),s1):=by
   rw [Db.readPage,if_neg (by omega),hsnap]
   exact hread
  obtain ⟨s2,hrest,h2⟩:=ih (fun q hq=>hps q (mem_cons_of_mem _ hq)) h1 (by rw [hdb]; exact hsnap)
  refine ⟨s2,?_,h2⟩
  rw [readPages,bind_of_ok _ hpage,bind_of_ok _ hrest]
  rfl

/-- A read transaction on the database finds the state at `n`, whatever pages it reads. -/
def Serves (H:Line) (n:ℕ) (s : DbIO) : Prop :=
 ∃ t s',Db.beginRead s=(.ok t,s') ∧ t.pageCount=H.count n ∧ t.changeCounter=n ∧
  ∀ ps:List ℕ,(∀ p∈ps,p<H.count n) →
   ∃ s'',readPages t ps s'=(.ok (ps.map (H.pages n)),s'')

lemma decode_pages_zero {H:Line} {n:ℕ} (hn:n≤H.last) : DbHeader.decode (H.pages n 0)=.ok (H.headerAt n) := by
 have hps:=(Line.pageSize_bounds (H:=H)).1
 have:=DbHeader.decode_page0 (Line.headerAt_fits hn) H.pageSize (by simp only [kMinPageSize,kDbHeaderBytes] at hps ⊢; omega)
 rw [← Line.headerAt_pageSize hn,← DbHeader.page0_length,slice_all] at this
 rw [Line.pages_zero hn]
 exact this

lemma Serving.serves {H:Line} {n:ℕ} {s : DbIO} {cs:List Commit} {file:Bytes}
 (hn:n≤H.last) (h:Serving s cs file (H.pages n) (H.count n)) : Serves H n s := by
 obtain ⟨s',hbegin,hs,-,hdb⟩:=h.beginRead_run (Line.count_pos hn) (decode_pages_zero hn)
 refine ⟨_,s',hbegin,rfl,Line.headerAt_counter hn,fun ps hps=>?_⟩
 obtain ⟨s'',hread,-⟩:=hs.readPages_run (t:=⟨_,_,_⟩) ps hps rfl (by rw [hdb])
 exact ⟨s'',hread⟩

end Archivum.DbReads
