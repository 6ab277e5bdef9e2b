import Archivum.ByteStrings
import Archivum.StatefulActions

set_option autoImplicit false

/-!
# Write transactions over pages

`WriteTxn` as the engine has it: an overlay of dirty pages over the committed
snapshot, a header with the free-list head, and the set of pages freed by this
transaction. Page I/O is taken to succeed, so `committed` is a total function.

`Pages` is the ownership invariant every tree operation keeps: the pages
`1 .. page_count - 1` are the disjoint union of the pages somebody owns and the
free list, and the free list is the chain threaded through the free pages.
-/
namespace Archivum.PageTxn
open ByteStrings StatefulActions List

inductive ErrorCode
 | ioError | notFound | alreadyExists | corrupt | invalidArgument | unsupported | crashed | busy
 | constraint
 deriving DecidableEq,Repr

structure Status where
 code : ErrorCode
 message : String
 deriving DecidableEq,Repr

def corrupt (message:String) : Status := ⟨.corrupt,message⟩
def invalidArgument (message:String) : Status := ⟨.invalidArgument,message⟩
def notFound (message:String) : Status := ⟨.notFound,message⟩
def constraint (message:String) : Status := ⟨.constraint,message⟩

def kMinPageSize : ℕ := 512
def kMaxPageSize : ℕ := 65536
def kPageTrailerBytes : ℕ := 4

/-- The header fields a write transaction reads and changes. -/
structure DbHeader where
 pageCount : ℕ := 1
 freelistHead : ℕ := 0
 freelistCount : ℕ := 0
 deriving DecidableEq,Repr

/-- `ARCHFREE` -/
def freePageMagic : Bytes := [65,82,67,72,70,82,69,69]

/-- `FreePage::encode` into a zeroed page. -/
def FreePage.encode (pageSize:ℕ) (next:ℕ) : Bytes :=
 patch (patch (replicate pageSize 0) 0 freePageMagic) 8 (toLE 8 next)

/-- `FreePage::decode`: the next free page. -/
def FreePage.decode (page:Bytes) : Except Status ℕ :=
 if page.length<16 ∨ slice page 0 8≠freePageMagic then
  .error (corrupt "free page magic mismatch")
 else
  .ok (getU64 page 8)

@[simp] lemma FreePage.encode_length (ps next:ℕ) : (FreePage.encode ps next).length=ps := by
 simp only [FreePage.encode,patch_length,length_replicate]

lemma FreePage.decode_encode (ps next:ℕ) (h:16≤ps) (hn:next<2^64) :
 FreePage.decode (FreePage.encode ps next)=.ok next := by
 have hm:freePageMagic.length=8:=rfl
 have hr:(replicate ps (0:UInt8)).length=ps:=length_replicate
 have hmagic:slice (FreePage.encode ps next) 0 8=freePageMagic:=by
  have hs:=slice_patch_self (replicate ps (0:UInt8)) 0 freePageMagic (by rw [hr,hm]; omega)
  rw [hm] at hs
  rw [FreePage.encode,slice_patch_disjoint _ _ _ _ _ (Or.inl (by omega)),hs]
 have hnext:getU64 (FreePage.encode ps next) 8=next:=
  getLE_putLE_self 8 _ 8 next (by simp only [patch_length,hr]; omega) (by omega)
 rw [FreePage.decode,if_neg (by rw [hmagic,FreePage.encode_length]; simp; omega),hnext]

structure WriteTxn where
 pageSize : ℕ
 /-- `db_.read_committed(page, snapshot_, ·)` -/
 committed : ℕ → Bytes
 snapshotHeader : DbHeader
 header : DbHeader
 dirty : ℕ → Option Bytes
 freed : List ℕ
 finished : Bool

abbrev TxnM := Act Status WriteTxn

namespace WriteTxn

def page (t:WriteTxn) (p:ℕ) : Bytes := (t.dirty p).getD (t.committed p)

def setDirty (t:WriteTxn) (p:ℕ) (d:Bytes) : WriteTxn :=
 { t with dirty:=Function.update t.dirty p (some d) }

@[simp] lemma setDirty_pageSize (t:WriteTxn) (p:ℕ) (d:Bytes) : (t.setDirty p d).pageSize=t.pageSize := rfl
@[simp] lemma setDirty_header (t:WriteTxn) (p:ℕ) (d:Bytes) : (t.setDirty p d).header=t.header := rfl
@[simp] lemma setDirty_snapshotHeader (t:WriteTxn) (p:ℕ) (d:Bytes) : (t.setDirty p d).snapshotHeader=t.snapshotHeader := rfl
@[simp] lemma setDirty_freed (t:WriteTxn) (p:ℕ) (d:Bytes) : (t.setDirty p d).freed=t.freed := rfl
@[simp] lemma setDirty_finished (t:WriteTxn) (p:ℕ) (d:Bytes) : (t.setDirty p d).finished=t.finished := rfl

@[simp] lemma setDirty_page_self (t:WriteTxn) (p:ℕ) (d:Bytes) : (t.setDirty p d).page p=d := by
 simp [page,setDirty]

lemma setDirty_page_of_ne (t:WriteTxn) {p q:ℕ} (d:Bytes) (h:q≠p) : (t.setDirty p d).page q=t.page q := by
 simp [page,setDirty,Function.update_of_ne h]

lemma setDirty_isSome (t:WriteTxn) (p q:ℕ) (d:Bytes) (h:(t.dirty q).isSome) : ((t.setDirty p d).dirty q).isSome := by
 by_cases hq:q=p
 · simp [setDirty,hq]
 · simpa [setDirty,Function.update_of_ne hq] using h

end WriteTxn

def readPage (page:ℕ) : TxnM Bytes := fun t=>
 if t.finished then (.error (invalidArgument "transaction finished"),t)
 else if t.header.pageCount ≤ page then (.error (invalidArgument "page out of range"),t)
 else match t.dirty page with
  | some d=>(.ok d,t)
  | none=>
   if t.snapshotHeader.pageCount ≤ page then
    (.error (invalidArgument "page allocated but never written in this transaction"),t)
   else (.ok (t.committed page),t)

def writePage (page:ℕ) (data:Bytes) : TxnM Unit := fun t=>
 if t.finished then (.error (invalidArgument "transaction finished"),t)
 else if page=0 then
  (.error (invalidArgument "page 0 is the header and not writable"),t)
 else if t.header.pageCount ≤ page then (.error (invalidArgument "page out of range"),t)
 else if data.length≠t.pageSize then (.error (invalidArgument "page data size"),t)
 else if page∈t.freed then
  (.error (invalidArgument "page was freed in this transaction"),t)
 else (.ok (),t.setDirty page data)

namespace WriteTxn

/-- The free-list head `page` is handed out, zeroed; `next` becomes the head. -/
def popFree (t:WriteTxn) (page next:ℕ) : WriteTxn :=
 { t.setDirty page (replicate t.pageSize 0) with
   header:={ t.header with
     freelistHead:=next
     freelistCount:=(t.header.freelistCount+2^64-1)%2^64 }
   freed:=t.freed.filter (· ≠ page) }

def grow (t:WriteTxn) : WriteTxn :=
 { t.setDirty t.header.pageCount (replicate t.pageSize 0) with
   header:={ t.header with pageCount:=(t.header.pageCount+1)%2^64 } }

/-- `page` becomes the head of the free list. -/
def pushFree (t:WriteTxn) (page:ℕ) : WriteTxn :=
 { t.setDirty page (FreePage.encode t.pageSize t.header.freelistHead) with
   header:={ t.header with
     freelistHead:=page
     freelistCount:=(t.header.freelistCount+1)%2^64 }
   freed:=page::t.freed }

end WriteTxn

def allocatePage : TxnM ℕ := fun t=>
 if t.finished then (.error (invalidArgument "transaction finished"),t)
 else if t.header.freelistHead≠0 then
  match readPage t.header.freelistHead t with
  | (.error e,t')=>(.error e,t')
  | (.ok buf,t')=>
   match FreePage.decode buf with
   | .error _=>
    (.error (corrupt ("free list head page " ++ toString t.header.freelistHead ++
     " invalid")),t')
   | .ok next=>(.ok t.header.freelistHead,t'.popFree t.header.freelistHead next)
 else (.ok t.header.pageCount,t.grow)

def freePage (page:ℕ) : TxnM Unit := fun t=>
 if t.finished then (.error (invalidArgument "transaction finished"),t)
 else if page=0 ∨ t.header.pageCount ≤ page then
  (.error (invalidArgument "page out of range"),t)
 else if page∈t.freed then (.error (invalidArgument "page freed twice"),t)
 else (.ok (),t.pushFree page)

/-- The free list starting at `head` is exactly `free`. -/
def FreeChain (t:WriteTxn) : ℕ → List ℕ → Prop
 | head,[]=>head=0
 | head,p::free=>
  head=p ∧ ∃ next,FreePage.decode (t.page p)=.ok next ∧ FreeChain t next free

lemma FreeChain.of_decode {t t':WriteTxn} {free:List ℕ} {head:ℕ} (hc:FreeChain t head free)
 (h:∀ p∈free,FreePage.decode (t'.page p)=FreePage.decode (t.page p)) : FreeChain t' head free := by
 induction free generalizing head with
 | nil=>exact hc
 | cons p free ih=>
  obtain ⟨hp,next,hd,hrest⟩:=hc
  exact ⟨hp,next,(h p mem_cons_self).trans hd,ih hrest fun q hq=>h q (mem_cons_of_mem _ hq)⟩

lemma FreeChain.congr {t t':WriteTxn} (free:List ℕ) (head:ℕ)
 (h:∀ p∈free,t'.page p=t.page p) (hc:FreeChain t head free) : FreeChain t' head free :=
 hc.of_decode fun p hp=>congrArg FreePage.decode (h p hp)

/-- Every page above 0 is owned or free, never both, and the free pages form the free list. -/
structure Pages (ps:ℕ) (t:WriteTxn) (own free:List ℕ) : Prop where
 open_ : t.finished=false
 size_eq : t.pageSize=ps
 size_min : kMinPageSize ≤ ps
 size_max : ps ≤ kMaxPageSize
 written : ∀ p,p<t.header.pageCount → t.snapshotHeader.pageCount ≤ p → (t.dirty p).isSome
 images : ∀ p,p<t.header.pageCount → (t.page p).length=ps
 count_pos : 0<t.header.pageCount
 count_lt : t.header.pageCount<2^64
 perm : (own++free).Perm (range' 1 (t.header.pageCount-1))
 chain : FreeChain t t.header.freelistHead free
 free_count : t.header.freelistCount=free.length
 freed_free : ∀ p∈t.freed,p∈free

namespace Pages
variable {ps:ℕ} {t:WriteTxn} {own free:List ℕ}

lemma mem_iff (h:Pages ps t own free) (p:ℕ) : p∈own ∨ p∈free ↔ 0<p ∧ p<t.header.pageCount := by
 have hm:=h.perm.mem_iff (a:=p)
 have hc:=h.count_pos
 rw [mem_append,mem_range'_1] at hm
 rw [hm]
 omega

lemma nodup (h:Pages ps t own free) : (own++free).Nodup :=
 h.perm.nodup_iff.mpr nodup_range'

lemma own_pos (h:Pages ps t own free) {p:ℕ} (hp:p∈own) : 0<p :=
 ((h.mem_iff p).mp (Or.inl hp)).1

lemma own_lt (h:Pages ps t own free) {p:ℕ} (hp:p∈own) : p<t.header.pageCount :=
 ((h.mem_iff p).mp (Or.inl hp)).2

lemma own_lt_u64 (h:Pages ps t own free) {p:ℕ} (hp:p∈own) : p<2^64 :=
 (h.own_lt hp).trans h.count_lt

lemma own_nodup (h:Pages ps t own free) : own.Nodup :=
 (nodup_append.mp h.nodup).1

lemma not_free (h:Pages ps t own free) {p:ℕ} (hp:p∈own) : p ∉ free :=
 fun hf=>(nodup_append.mp h.nodup).2.2 p hp p hf rfl

lemma own_length (h:Pages ps t own free) {p:ℕ} (hp:p∈own) : (t.page p).length=ps :=
 h.images p (h.own_lt hp)

lemma reorder {own':List ℕ} (h:Pages ps t own free) (hp:own'.Perm own) : Pages ps t own' free :=
 { h with perm:=(hp.append_right free).trans h.perm }

lemma free_length_lt (h:Pages ps t own free) : free.length<t.header.pageCount := by
 have hl:=h.perm.length_eq
 have hc:=h.count_pos
 rw [length_append,length_range'] at hl
 omega

lemma readPage_run (h:Pages ps t own free) {p:ℕ} (hp:p∈own ∨ p∈free) : readPage p t=(.ok (t.page p),t) := by
 have hlt:=((h.mem_iff p).mp hp).2
 rw [readPage,if_neg (by simp [h.open_]),if_neg (by omega)]
 cases hd:t.dirty p with
 | some d=>simp [WriteTxn.page,hd]
 | none=>
  have hs:p<t.snapshotHeader.pageCount:=by
   by_contra hn
   have:=h.written p hlt (by omega)
   rw [hd] at this
   exact absurd this (by simp)
  simp [WriteTxn.page,hd,hs]

lemma setDirty (h:Pages ps t own free) {p:ℕ} (hp:p∈own) {d:Bytes} (hd:d.length=ps) : Pages ps (t.setDirty p d) own free where
 open_ := h.open_
 size_eq:=h.size_eq
 size_min:=h.size_min
 size_max:=h.size_max
 written q hq hs:=t.setDirty_isSome p q d (h.written q hq hs)
 images q hq:=by
  by_cases hqp:q=p
  · rw [hqp,t.setDirty_page_self,hd]
  · rw [t.setDirty_page_of_ne d hqp]
    exact h.images q hq
 count_pos:=h.count_pos
 count_lt:=h.count_lt
 perm:=h.perm
 chain:=by
  refine FreeChain.congr free _ (fun q hq=>?_) h.chain
  exact t.setDirty_page_of_ne d (fun hqp=>h.not_free hp (hqp ▸ hq))
 free_count:=h.free_count
 freed_free:=h.freed_free

lemma writePage_run (h:Pages ps t own free) {p:ℕ} (hp:p∈own) {d:Bytes}
 (hd:d.length=ps) : writePage p d t=(.ok (),t.setDirty p d) := by
 have hlt:=h.own_lt hp
 have hpos:=h.own_pos hp
 have hf:p ∉ t.freed:=fun hf=>h.not_free hp (h.freed_free p hf)
 rw [writePage,if_neg (by simp [h.open_]),if_neg (by omega),if_neg (by omega),if_neg (by simp [hd,h.size_eq]),if_neg hf]

lemma popFree {p next:ℕ} (h:Pages ps t own (p::free))
 (hrest:FreeChain t next free) : Pages ps (t.popFree p next) (p::own) free := by
 have hpf:p ∉ free:=(nodup_cons.mp (nodup_append.mp h.nodup).2.1).1
 have hcount:=h.free_count
 have hflen:=h.free_length_lt
 have hclt:=h.count_lt
 rw [length_cons] at hcount hflen
 refine ⟨h.open_,h.size_eq,h.size_min,h.size_max,?_,?_,h.count_pos,h.count_lt,?_,?_,?_,?_⟩
 · intro q hq hs
   exact t.setDirty_isSome p q _ (h.written q hq hs)
 · intro q hq
   change ((t.setDirty p _).page q).length=ps
   by_cases hqp:q=p
   · rw [hqp,t.setDirty_page_self,length_replicate,h.size_eq]
   · rw [t.setDirty_page_of_ne _ hqp]
     exact h.images q hq
 · exact perm_middle.symm.trans h.perm
 · refine FreeChain.congr (t:=t) free next (fun q hq=>?_) hrest
   exact t.setDirty_page_of_ne _ (fun hqp=>hpf (hqp ▸ hq))
 · change (t.header.freelistCount+2^64-1)%2^64=_
   rw [hcount]
   omega
 · intro q hq
   obtain ⟨hq1,hq2⟩:=mem_filter.mp hq
   exact (mem_cons.mp (h.freed_free q hq1)).resolve_left (by simpa using hq2)

lemma grow (h:Pages ps t own []) (hroom:t.header.pageCount+1<2^64) : Pages ps t.grow (t.header.pageCount::own) [] := by
 have hc:=h.count_pos
 have hcnt:t.grow.header.pageCount=t.header.pageCount+1:=Nat.mod_eq_of_lt hroom
 refine ⟨h.open_,h.size_eq,h.size_min,h.size_max,?_,?_,?_,?_,?_,h.chain,h.free_count,h.freed_free⟩
 · intro q hq hs
   rw [hcnt] at hq
   by_cases hqp:q=t.header.pageCount
   · simp [WriteTxn.grow,WriteTxn.setDirty,hqp]
   · exact t.setDirty_isSome _ q _ (h.written q (by omega) hs)
 · intro q hq
   rw [hcnt] at hq
   change ((t.setDirty _ _).page q).length=ps
   by_cases hqp:q=t.header.pageCount
   · rw [hqp,t.setDirty_page_self,length_replicate,h.size_eq]
   · rw [t.setDirty_page_of_ne _ hqp]
     exact h.images q (by omega)
 · omega
 · omega
 · have hp:=h.perm
   rw [append_nil] at hp ⊢
   rw [hcnt,show t.header.pageCount+1-1=(t.header.pageCount-1)+1 by omega,
    range'_concat,show 1+1*(t.header.pageCount-1)=t.header.pageCount by omega]
   exact (List.Perm.cons _ hp).trans (perm_append_singleton _ _).symm

lemma freelistHead_lt (h:Pages ps t own free) : t.header.freelistHead<2^64 := by
 have hchain:=h.chain
 have hclt:=h.count_lt
 cases free with
 | nil=>
  rw [show t.header.freelistHead=0 from hchain]
  decide
 | cons q rest=>
  have hq:=(h.mem_iff q).mp (Or.inr mem_cons_self)
  rw [hchain.1]
  omega

lemma pushFree {p:ℕ} (h:Pages ps t (p::own) free) : Pages ps (t.pushFree p) own (p::free) := by
 have hmin:512≤ps:=h.size_min
 have hp:p∈p::own:=mem_cons_self
 have hflen:=h.free_length_lt
 have hclt:=h.count_lt
 refine ⟨h.open_,h.size_eq,h.size_min,h.size_max,?_,?_,h.count_pos,h.count_lt,?_,?_,?_,?_⟩
 · intro q hq hs
   exact t.setDirty_isSome p q _ (h.written q hq hs)
 · intro q hq
   change ((t.setDirty p _).page q).length=ps
   by_cases hqp:q=p
   · rw [hqp,t.setDirty_page_self,h.size_eq,FreePage.encode_length]
   · rw [t.setDirty_page_of_ne _ hqp]
     exact h.images q hq
 · exact perm_middle.trans h.perm
 · refine ⟨rfl,t.header.freelistHead,?_,?_⟩
   · change FreePage.decode ((t.setDirty p _).page p)=_
     rw [t.setDirty_page_self,FreePage.decode_encode _ _ (by rw [h.size_eq]; omega) h.freelistHead_lt]
   · refine FreeChain.congr free _ (fun q hq=>?_) h.chain
     exact t.setDirty_page_of_ne _ (fun hqp=>h.not_free hp (hqp ▸ hq))
 · change (t.header.freelistCount+1)%2^64=_
   rw [h.free_count,length_cons]
   omega
 · intro q hq
   rcases mem_cons.mp hq with hqp | hq
   · rw [hqp]
     exact mem_cons_self
   · exact mem_cons_of_mem _ (h.freed_free q hq)

lemma allocatePage_run (h:Pages ps t own free) (hroom:t.header.pageCount+1<2^64) :
 ∃ p t',allocatePage t=(.ok p,t') ∧ t'.committed=t.committed ∧ Pages ps t' (p::own) (free.erase p) ∧
  (∀ q,q≠p → t'.page q=t.page q) ∧ t'.header.pageCount≤t.header.pageCount+1 := by
 cases free with
 | cons p free=>
  obtain ⟨hp,next,hdec,hrest⟩:=h.chain
  have hmem:p∈own ∨ p∈p::free:=Or.inr mem_cons_self
  have hrange:=(h.mem_iff p).mp hmem
  refine ⟨p,t.popFree p next,?_,rfl,(erase_cons_head p free).symm ▸ h.popFree hrest,
   fun q hq=>t.setDirty_page_of_ne _ hq,Nat.le_succ _⟩
  rw [allocatePage,if_neg (by simp [h.open_]),if_pos (by omega),hp,h.readPage_run hmem]
  simp only [hdec]
 | nil=>
  have hhead:t.header.freelistHead=0:=h.chain
  refine ⟨t.header.pageCount,t.grow,?_,rfl,h.grow hroom,fun q hq=>t.setDirty_page_of_ne _ hq,Nat.mod_le _ _⟩
  rw [allocatePage,if_neg (by simp [h.open_]),if_neg (by simp [hhead])]

lemma freePage_run {p:ℕ} (h:Pages ps t (p::own) free) : freePage p t=(.ok (),t.pushFree p) := by
 have hp:p∈p::own:=mem_cons_self
 have hlt:=h.own_lt hp
 have hpos:=h.own_pos hp
 have hf:p ∉ t.freed:=fun hf=>h.not_free hp (h.freed_free p hf)
 rw [freePage,if_neg (by simp [h.open_]),if_neg (by omega),if_neg hf]

lemma pushFree_page (t:WriteTxn) {p q:ℕ} (hq:q≠p) : (t.pushFree p).page q=t.page q :=
 t.setDirty_page_of_ne _ hq

end Pages

end Archivum.PageTxn
