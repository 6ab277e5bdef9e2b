import Archivum.SeparatorOnPages

set_option autoImplicit false

/-!
# Entries of a leaf and their overflow chains

Between reading a leaf and writing it back, `insert_into_leaf` and `erase` work
on an image in memory while overflow chains are freed and written: `LeafOpen`
is that situation.
-/
namespace Archivum.TreeShape
open ByteStrings StatefulActions PageTxn SlottedPage BTreeModel InteriorSplit List

section Chain
variable {ps:ℕ} {σ:WriteTxn} {xs:List Fact} {O free:List ℕ}

lemma freeOverflowLoop_run (hops:ℕ) (chain:List ℕ) (value:Bytes)
 (h:Holding ps σ xs (chain++O) free) (hc:ChainHolds ps σ chain value) (hops_le:chain.length≤hops) :
 ∃ σ' free',BTree.freeOverflowLoop hops (chain.headD 0) σ=(.ok (),σ') ∧
  Holding ps σ' xs O free' ∧ (∀ q,q ∉ chain → σ'.page q=σ.page q) ∧ σ'.header.pageCount=σ.header.pageCount := by
 induction chain generalizing σ free hops value with
 | nil=>
  refine ⟨σ,free,?_,h,fun _ _=>rfl,rfl⟩
  cases hops <;> simp [BTree.freeOverflowLoop]
 | cons p chain ih=>
  obtain ⟨_,hnext,_,hrest⟩:=hc
  rw [length_cons] at hops_le
  obtain ⟨hops,rfl⟩:∃ k,hops=k+1:=⟨hops-1,by omega⟩
  have hown:p∈xs.flatMap Fact.pages++(p::chain++O):=by simp
  have hpos:=h.pages.own_pos hown
  have hread:=h.pages.readPage_run (Or.inl hown)
  have hpc:p ∉ chain:=by
   have hnd:=(nodup_append.mp h.pages.own_nodup).2.1
   rw [cons_append] at hnd
   exact fun hp=>(nodup_cons.mp hnd).1 (mem_append_left _ hp)
  obtain ⟨hfree,h1⟩:=h.release
  have hsame:∀ q,q≠p → (σ.pushFree p).page q=σ.page q:=
   fun q hq=>Pages.pushFree_page σ hq
  obtain ⟨σ',free',hrun,hheld,hkeep,hcnt⟩:=ih hops _ h1
   (hrest.congr _ _ fun q hq=>hsame q (fun he=>hpc (he ▸ hq))) (by omega)
  refine ⟨σ',free',?_,hheld,?_,hcnt⟩
  · rw [BTree.freeOverflowLoop,headD_cons,if_neg (by omega),Act.bind_of_ok _ hread,Act.bind_of_ok _ hfree,hnext]
    exact hrun
  · intro q hq
    rw [mem_cons,not_or] at hq
    rw [hkeep q hq.2,hsame q hq.1]

lemma allocatePages_run (n:ℕ) (h:Holding ps σ xs O free) (hroom:σ.header.pageCount+n<2^64) :
 ∃ pages σ' free',BTree.allocatePages n σ=(.ok pages,σ') ∧ pages.length=n ∧
  Holding ps σ' xs (pages++O) free' ∧ (∀ q,q ∉ pages → σ'.page q=σ.page q) ∧ σ'.header.pageCount≤σ.header.pageCount+n := by
 induction n generalizing σ O free with
 | zero=>exact ⟨[],σ,free,rfl,rfl,h,fun _ _=>rfl,Nat.le_refl _⟩
 | succ n ih=>
  obtain ⟨p,σ1,free1,halloc,h1,_,hsame,hcnt⟩:=h.allocate (by omega)
  obtain ⟨pages,σ',free',hrun,hlen,h2,hkeep,hcnt'⟩:=ih h1 (by omega)
  refine ⟨p::pages,σ',free',?_,by rw [length_cons,hlen],?_,?_,by omega⟩
  · rw [BTree.allocatePages,Act.bind_of_ok _ halloc,Act.bind_of_ok _ hrun]
    rfl
  · exact ⟨h2.pages.reorder (List.Perm.append_left _ perm_middle.symm),h2.facts⟩
  · intro q hq
    rw [mem_cons,not_or] at hq
    rw [hkeep q hq.2,hsame q hq.1]

lemma overflowImage_spec {b:BTree} (hb:b.pageSize=ps) (hmin:kMinPageSize≤ps)
 {next:ℕ} (hn:next<2^64) {chunk:Bytes} (hc:chunk.length ≤ chunkBytes ps) :
 (b.overflowImage next chunk).length=ps ∧ getU64 (b.overflowImage next chunk) 0=next ∧
  slice (b.overflowImage next chunk) kOverflowHdr chunk.length=chunk := by
 have hmin':512≤ps:=hmin
 simp only [chunkBytes,kPageTrailerBytes,kOverflowHdr] at hc
 have hlen:(putU64 (replicate b.pageSize 0) 0 next).length=ps:=by
  rw [putLE_length,length_replicate,hb]
 refine ⟨?_,?_,?_⟩
 · rw [BTree.overflowImage,patch_length,hlen]
 · rw [BTree.overflowImage,getU64,getLE_patch_disjoint _ _ _ _ _ (by simp only [kOverflowHdr]; omega)]
   exact getLE_putLE_self 8 _ 0 next (by rw [length_replicate,hb]; omega)
    (lt_of_lt_of_eq hn (by norm_num))
 · exact slice_patch_self _ _ _ (by rw [hlen]; simp only [kOverflowHdr]; omega)

lemma writeChunks_run {b:BTree} (hb:b.pageSize=ps) (pages:List ℕ) (value:Bytes) (h:Holding ps σ xs (pages++O) free)
 (hlen:pages.length=(value.length+chunkBytes ps-1)/chunkBytes ps) :
 ∃ σ',b.writeChunks pages value σ=(.ok (),σ') ∧ Holding ps σ' xs (pages++O) free ∧
  ChainHolds ps σ' pages value ∧ (∀ q,q ∉ pages → σ'.page q=σ.page q) ∧ σ'.header=σ.header := by
 have hpos:=chunkBytes_pos h.pages.size_min
 have hcap:b.overflowCap=chunkBytes ps:=by rw [BTree.overflowCap,hb,chunkBytes]
 induction pages generalizing σ value O with
 | nil=>
  refine ⟨σ,rfl,h,?_,fun _ _=>rfl,rfl⟩
  rw [length_nil] at hlen
  have hz:value.length=0:=by
   by_contra hne
   have:1≤(value.length+chunkBytes ps-1)/chunkBytes ps:=by
    rw [Nat.le_div_iff_mul_le (by omega)]
    omega
   omega
  exact length_eq_zero_iff.mp hz
 | cons p pages ih=>
  rw [length_cons] at hlen
  have hne:value≠[]:=by
   rintro rfl
   rw [length_nil,Nat.div_eq_of_lt (by omega)] at hlen
   omega
  have hvpos:=length_pos_of_ne_nil hne
  have hnd:=(nodup_append.mp h.pages.own_nodup).2.1
  rw [cons_append] at hnd
  have hpp:p ∉ pages:=fun hp=>(nodup_cons.mp hnd).1 (mem_append_left _ hp)
  have hnext:pages.headD 0<2^64:=by
   cases hpg:pages with
   | nil=>exact Nat.two_pow_pos 64
   | cons q rest=>exact h.pages.own_lt_u64 (by rw [hpg]; simp)
  have hchunk:(value.take (chunkBytes ps)).length ≤ chunkBytes ps:=by
   rw [length_take]
   omega
  obtain ⟨h1,h2,h3⟩:=overflowImage_spec hb h.pages.size_min hnext hchunk
  obtain ⟨hwrite,hheld⟩:=h.writeOther (p:=p) (by simp) h1
  have hheld':Holding ps (σ.setDirty p (b.overflowImage (pages.headD 0)
    (value.take (chunkBytes ps)))) xs (pages++(p::O)) free:=
   ⟨hheld.pages.reorder (List.Perm.append_left _ perm_middle),hheld.facts⟩
  have hlen':pages.length =
    ((value.drop (chunkBytes ps)).length+chunkBytes ps-1)/chunkBytes ps:=by
   rw [length_drop]
   rcases Nat.lt_or_ge (chunkBytes ps) value.length with hlt | hge
   · have:value.length+chunkBytes ps-1 = (value.length-chunkBytes ps+chunkBytes ps-1)+chunkBytes ps:=by omega
     rw [this,Nat.add_div_right _ (by omega)] at hlen
     omega
   · rw [Nat.sub_eq_zero_of_le hge,Nat.zero_add,Nat.div_eq_of_lt (by omega)]
     have:(value.length+chunkBytes ps-1)/chunkBytes ps=1:=by
      rw [Nat.div_eq_iff (by omega)]
      omega
     omega
  obtain ⟨σ',hrun,hheld2,hchain,hkeep,hhdr⟩:=ih (value.drop (chunkBytes ps)) hheld' hlen'
  refine ⟨σ',?_,⟨hheld2.pages.reorder (List.Perm.append_left _ perm_middle.symm),hheld2.facts⟩,⟨hne,?_,?_,hchain⟩,?_,hhdr⟩
  · rw [BTree.writeChunks,hcap,Act.bind_of_ok _ hwrite]
    exact hrun
  · rw [hkeep p hpp,WriteTxn.setDirty_page_self,h2]
  · rw [hkeep p hpp,WriteTxn.setDirty_page_self]
    rw [length_take] at h3
    exact h3
  · intro q hq
    rw [mem_cons,not_or] at hq
    rw [hkeep q hq.2,WriteTxn.setDirty_page_of_ne _ _ hq.1]

end Chain

/-- The leaf on page `p` has been read; its entries are `es` and its image is `img`, not yet
written back. -/
structure LeafOpen (ps:ℕ) (σ:WriteTxn) (p:ℕ) (img:Bytes) (es:List Entry)
  (xs:List Fact) (O free:List ℕ) : Prop where
 held : Holding ps σ xs (p::(es.flatMap Entry.chain++O)) free
 image : Slotted ps img kLeaf (es.map (Entry.cell ps))
 entries : ∀ e∈es,e.Holds ps σ

namespace LeafOpen
variable {ps:ℕ} {σ:WriteTxn} {p:ℕ} {img:Bytes} {es A B:List Entry} {e:Entry}
 {xs:List Fact} {O free:List ℕ}

lemma ofHeld (h:Holding ps σ (.leaf p es::xs) O free) : LeafOpen ps σ p (σ.page p) es xs O free := by
 obtain ⟨hs,he⟩:=h.facts _ mem_cons_self
 refine ⟨⟨h.pages.reorder ?_,fun x hx=>h.facts x (mem_cons_of_mem _ hx)⟩,hs,he⟩
 rw [flatMap_cons,append_assoc]
 refine perm_middle.trans (List.Perm.cons _ ?_)
 exact perm_append_comm_assoc _ _ _

lemma page_not_chain (h:LeafOpen ps σ p img es xs O free) : p ∉ es.flatMap Entry.chain++O ∧ p ∉ xs.flatMap Fact.pages := by
 have hnd:=nodup_append.mp h.held.pages.own_nodup
 refine ⟨(nodup_cons.mp hnd.2.1).1,fun hp=>?_⟩
 exact hnd.2.2 p hp p mem_cons_self rfl

lemma close (h:LeafOpen ps σ p img es xs O free) : writePage p img σ=(.ok (),σ.setDirty p img) ∧
  Holding ps (σ.setDirty p img) (.leaf p es::xs) O free := by
 obtain ⟨hwrite,hheld⟩:=h.held.writeOther (p:=p) mem_cons_self h.image.length
 refine ⟨hwrite,hheld.adopt (x:=.leaf p es) ?_⟩
 refine ⟨?_,?_⟩
 · rw [σ.setDirty_page_self]
   exact h.image
 · intro e he
   refine (h.entries e he).congr fun q hq=>σ.setDirty_page_of_ne img ?_
   rintro rfl
   exact h.page_not_chain.1 (mem_append_left _ (mem_flatMap.mpr ⟨e,he,hq⟩))

lemma chain_length_le (h:e.Holds ps σ) (hmin:kMinPageSize≤ps) : e.chain.length≤2^24 := by
 cases hin:e.inline ps with
 | true=>
  rw [h.1.chain_nil hin]
  simp
 | false=>
  have hle:=(h.2 hin).length_le_div hmin
  have hv:=h.1.value_lt
  have hpos:=chunkBytes_pos hmin
  have hdiv:e.value.length/chunkBytes ps≤e.value.length/500:=
   Nat.div_le_div_left hpos (by omega)
  omega

lemma removeEntry (h:LeafOpen ps σ p img (A++e::B) xs O free) :
 ∃ σ' free',BTree.freeCellOverflow img A.length σ=(.ok (),σ') ∧
  LeafOpen ps σ' p (Node.removeCell img A.length) (A++B) xs O free' ∧ (∀ q,q ∉ e.chain → σ'.page q=σ.page q) ∧
  σ'.header.pageCount=σ.header.pageCount := by
 have hmem:e∈A++e::B:=by simp
 have he:=h.entries e hmem
 have hk:=he.1.key_lt h.held.pages.size_max
 have himg:=h.image
 rw [map_append,map_cons] at himg
 have hcell:((A++e::B).map (Entry.cell ps))[A.length]? = some (e.cell ps):=by simp
 have hrem:=himg.removeCell
 rw [length_map,← map_append] at hrem
 have hkeep:∀ d∈A++B,d∈A++e::B:=by
  intro d hd
  simp only [mem_append,mem_cons] at hd ⊢
  tauto
 have hperm:(p::((A++e::B).flatMap Entry.chain++O)).Perm
   (e.chain++(p::((A++B).flatMap Entry.chain++O))):=by
  simp only [flatMap_append,flatMap_cons,append_assoc]
  refine List.Perm.trans ?_ perm_middle.symm
  exact (perm_append_comm_assoc _ _ _).cons _
 have hheld:Holding ps σ xs (e.chain++(p::((A++B).flatMap Entry.chain++O))) free:=
  ⟨h.held.pages.reorder (hperm.symm.append_left _),h.held.facts⟩
 rw [BTree.freeCellOverflow]
 cases hin:e.inline ps with
 | true=>
  have hc:e.cell ps=buildLeafCell e.key e.value false e.value.length 0:=by
   rw [Entry.cell,hin]
   rfl
  rw [hc] at hcell
  rw [he.1.chain_nil hin,nil_append] at hheld
  refine ⟨σ,free,?_,⟨hheld,hrem,fun d hd=>h.entries d (hkeep d hd)⟩,fun _ _=>rfl,rfl⟩
  rw [leaf_overflowed h.image hcell,if_neg (by decide)]
  rfl
 | false=>
  have hc:e.cell ps=buildLeafCell e.key [] true e.value.length (e.chain.headD 0):=by
   rw [Entry.cell,hin]
   rfl
  have hfirst:e.chain.headD 0<2^64:=by
   cases hch:e.chain with
   | nil=>exact Nat.two_pow_pos 64
   | cons q rest=>exact hheld.pages.own_lt_u64 (by rw [hch]; simp)
  rw [hc] at hcell
  obtain ⟨σ',free',hrun,hheld',hsame,hcnt⟩:=freeOverflowLoop_run (2^24) e.chain e.value
   hheld (he.2 hin) (chain_length_le he h.held.pages.size_min)
  refine ⟨σ',free',?_,⟨hheld',hrem,?_⟩,hsame,hcnt⟩
  · rw [leaf_overflowed h.image hcell,if_pos rfl,leaf_overflowPage h.image hcell hk hfirst,BTree.freeOverflow]
    exact hrun
  · intro d hd
    refine (h.entries d (hkeep d hd)).congr fun q hq=>hsame q fun hqe=>?_
    have hnd:=(nodup_append.mp hheld.pages.own_nodup).2.1
    refine (nodup_append.mp hnd).2.2 q hqe q ?_ rfl
    exact mem_cons_of_mem _ (mem_append_left _ (mem_flatMap.mpr ⟨d,hd,hq⟩))

lemma makeEntry {b:BTree} (hb:b.pageSize=ps) (h:LeafOpen ps σ p img es xs O free)
 {key value:Bytes} (hne:key≠[]) (hle:key.length ≤ maxKeyBytesFor ps)
 (hv:value.length<2^32) (hroom:σ.header.pageCount+2^24<2^64) : ∃ chain σ' free',
  b.makeLeafCell key value σ=(.ok (Entry.cell ps ⟨key,value,chain⟩),σ') ∧
  LeafOpen ps σ' p img es xs (chain++O) free' ∧ Entry.Holds ps σ' ⟨key,value,chain⟩ ∧
  (∀ q,q ∉ chain → σ'.page q=σ.page q) ∧ σ'.header.pageCount≤σ.header.pageCount+2^24 := by
 have hmod:value.length%2^32=value.length:=Nat.mod_eq_of_lt hv
 rw [BTree.makeLeafCell,hb,hmod]
 by_cases hin:kLeafCellHdr+key.length+value.length ≤ maxCellBytes ps
 · have hin':∀ chain,(Entry.mk key value chain).inline ps=true:=fun _=>by
    simpa [Entry.inline] using hin
   refine ⟨[],σ,free,?_,h,⟨⟨hne,hle,hv,fun _=>rfl⟩,?_⟩,fun _ _=>rfl,by omega⟩
   · rw [if_neg (by omega),Entry.cell,hin' []]
     rfl
   · rw [hin']
     intro hf
     cases hf
 · have hin':∀ chain,(Entry.mk key value chain).inline ps=false:=fun _=>by
    simpa [Entry.inline] using hin
   have hpos:=chunkBytes_pos h.held.pages.size_min
   have hcap:b.overflowCap=chunkBytes ps:=by rw [BTree.overflowCap,hb,chunkBytes]
   have hn:(value.length+chunkBytes ps-1)/chunkBytes ps≤2^24:=by
    have hmul:500*2^24 ≤ chunkBytes ps*2^24:=Nat.mul_le_mul_right _ hpos
    rw [Nat.div_le_iff_le_mul_add_pred (by omega)]
    omega
   obtain ⟨pages,σ1,free1,hrun1,hlen,h1,hsame1,hcnt1⟩:=allocatePages_run
    ((value.length+chunkBytes ps-1)/chunkBytes ps) h.held (by omega)
   obtain ⟨σ2,hrun2,h2,hchain,hsame2,hhdr⟩:=writeChunks_run hb pages value h1 hlen
   have hsame:∀ q,q ∉ pages → σ2.page q=σ.page q:=
    fun q hq=>(hsame2 q hq).trans (hsame1 q hq)
   refine ⟨pages,σ2,free1,?_,⟨⟨h2.pages.reorder ?_,h2.facts⟩,h.image,?_⟩,
    ⟨⟨hne,hle,hv,?_⟩,fun _=>hchain⟩,hsame,by rw [hhdr]; omega⟩
   · rw [if_pos (by omega),BTree.writeOverflow,hcap]
     have hw:(do
       let pages ← BTree.allocatePages ((value.length+chunkBytes ps-1)/chunkBytes ps)
       b.writeChunks pages value
       return pages.headD 0:TxnM ℕ) σ=(.ok (pages.headD 0),σ2):=by
      rw [Act.bind_of_ok _ hrun1,Act.bind_of_ok _ hrun2]
      rfl
     rw [Act.bind_of_ok _ hw,Entry.cell,hin']
     rfl
   · refine List.Perm.append_left _ ?_
     refine List.Perm.trans ?_ perm_middle.symm
     exact (perm_append_comm_assoc _ _ _).cons _
   · intro d hd
     refine (h.entries d hd).congr fun q hq=>hsame q fun hqp=>?_
     have hnd:=(nodup_append.mp h1.pages.own_nodup).2.1
     refine (nodup_append.mp hnd).2.2 q hqp q ?_ rfl
     exact mem_cons_of_mem _ (mem_append_left _ (mem_flatMap.mpr ⟨d,hd,hq⟩))
   · rw [hin']
     intro hf
     cases hf

end LeafOpen

end Archivum.TreeShape
