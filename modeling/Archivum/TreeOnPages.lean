import Archivum.TreeShape

set_option autoImplicit false

/-!
# Trees on pages

`TreeAt ps σ t O free` says that the pages of the transaction `σ` hold the tree
`t`: every fact of `t` is true of its page, keys and separators are in order, the
leaves are linked both ways, and the tree's pages, the pages `O` of others and
the free list partition the file.
-/
namespace Archivum.TreeShape
open ByteStrings StatefulActions PageTxn SlottedPage BTreeModel List

def chunkBytes (ps:ℕ) : ℕ := ps-kPageTrailerBytes-kOverflowHdr

/-- The chain of pages holds `value`, chunk by chunk. -/
def ChainHolds (ps:ℕ) (σ:WriteTxn) : List ℕ → Bytes → Prop
 | [],value=>value=[]
 | p::pages,value=>
  value≠[] ∧ getU64 (σ.page p) 0=pages.headD 0 ∧
   slice (σ.page p) kOverflowHdr (min (chunkBytes ps) value.length) =
    value.take (chunkBytes ps) ∧
   ChainHolds ps σ pages (value.drop (chunkBytes ps))

namespace Entry

def inline (ps:ℕ) (e:Entry) : Bool :=
 kLeafCellHdr+e.key.length+e.value.length ≤ maxCellBytes ps

def cell (ps:ℕ) (e:Entry) : Bytes :=
 if e.inline ps then buildLeafCell e.key e.value false e.value.length 0
 else buildLeafCell e.key [] true e.value.length (e.chain.headD 0)

structure Ok (ps:ℕ) (e:Entry) : Prop where
 key_ne : e.key≠[]
 key_le : e.key.length ≤ maxKeyBytesFor ps
 value_lt : e.value.length<2^32
 chain_nil : e.inline ps=true → e.chain=[]

/-- The entry is well formed and its overflow chain, if any, holds its value. -/
def Holds (ps:ℕ) (σ:WriteTxn) (e:Entry) : Prop :=
 e.Ok ps ∧ (e.inline ps=false → ChainHolds ps σ e.chain e.value)

end Entry

def Fact.Holds (ps:ℕ) (σ:WriteTxn) : Fact → Prop
 | .leaf p es=>
  Slotted ps (σ.page p) kLeaf (es.map (Entry.cell ps)) ∧ ∀ e∈es,e.Holds ps σ
 | .node p cells r=>
  Slotted ps (σ.page p) kInterior (cells.map fun c=>buildInteriorCell c.1 c.2) ∧
   Node.right (σ.page p)=r ∧ ∀ c∈cells,c.1.length ≤ maxKeyBytesFor ps

def Fact.Nonempty : Fact → Prop
 | .leaf _ es=>es≠[]
 | .node _ cells _=>cells≠[]

def Tree.Filled (t:Tree) : Prop :=
 (∃ p es,t=.leaf p es) ∨ ∀ x∈t.facts,x.Nonempty

/-- The leaves `ls` are linked in order, between the leaves `a` and `b`. -/
def Linked (σ:WriteTxn) : ℕ → List ℕ → ℕ → Prop
 | _,[],_=>True
 | a,p::ls,b=>
  Node.prev (σ.page p)=a ∧ Node.right (σ.page p)=ls.headD b ∧ Linked σ p ls b

structure TreeAt (ps:ℕ) (σ:WriteTxn) (t:Tree) (O free:List ℕ) : Prop where
 pages : Pages ps σ (t.pages++O) free
 facts : ∀ x∈t.facts,x.Holds ps σ
 sorted : t.marks.Pairwise (· < ·)
 linked : Linked σ 0 t.leafPages 0
 filled : t.Filled

lemma maxKeyBytesFor_lt {ps:ℕ} (h:ps≤kMaxPageSize) : maxKeyBytesFor ps<2^14 := by
 simp only [kMaxPageSize] at h
 simp only [maxKeyBytesFor,maxCellBytes,kPageTrailerBytes,kHdr,kLeafCellHdr]
 omega

lemma maxCellBytes_pos {ps:ℕ} (h:kMinPageSize≤ps) : 119 ≤ maxCellBytes ps := by
 simp only [kMinPageSize] at h
 simp only [maxCellBytes,kPageTrailerBytes,kHdr]
 omega

lemma Entry.Ok.key_lt {ps:ℕ} {e:Entry} (h:e.Ok ps) (hmax:ps≤kMaxPageSize) : e.key.length<2^16 := by
 have h1:=h.key_le
 have h2:=maxKeyBytesFor_lt hmax
 omega

lemma Entry.cell_sized {ps:ℕ} {e:Entry} (h:e.Ok ps) (hmax:ps≤kMaxPageSize) :
 cellBytes kLeaf (e.cell ps)=(e.cell ps).length := by
 have hk:=h.key_lt hmax
 rw [Entry.cell]
 split
 · exact buildLeafCell_sized _ _ _ _ _ hk h.value_lt (fun _=>rfl)
 · exact buildLeafCell_sized _ _ _ _ _ hk h.value_lt (fun hf=>by cases hf)

lemma Entry.cell_length_le {ps:ℕ} {e:Entry} (h:e.Ok ps) (hmin:kMinPageSize≤ps) : (e.cell ps).length ≤ maxCellBytes ps := by
 have hk:=h.key_le
 have hm:=maxCellBytes_pos hmin
 simp only [maxKeyBytesFor,kLeafCellHdr] at hk
 rw [Entry.cell]
 split_ifs with hi
 · simp only [Entry.inline,decide_eq_true_eq] at hi
   rw [buildLeafCell_length]
   simpa using hi
 · rw [buildLeafCell_length]
   simp only [if_true,kLeafCellHdr]
   omega

lemma ChainHolds.congr {ps:ℕ} {σ σ':WriteTxn} (pages:List ℕ) (value:Bytes)
 (h:∀ p∈pages,σ'.page p=σ.page p) (hc:ChainHolds ps σ pages value) : ChainHolds ps σ' pages value := by
 induction pages generalizing value with
 | nil=>exact hc
 | cons p pages ih=>
  obtain ⟨hne,hnext,hchunk,hrest⟩:=hc
  have hp:=h p mem_cons_self
  refine ⟨hne,?_,?_,ih _ (fun q hq=>h q (mem_cons_of_mem _ hq)) hrest⟩
  · rw [hp,hnext]
  · rw [hp,hchunk]

lemma Entry.Holds.congr {ps:ℕ} {σ σ':WriteTxn} {e:Entry}
 (h:∀ p∈e.chain,σ'.page p=σ.page p) (he:e.Holds ps σ) : e.Holds ps σ' :=
 ⟨he.1,fun hi=>(he.2 hi).congr _ _ h⟩

lemma Fact.Holds.congr {ps:ℕ} {σ σ':WriteTxn} {x:Fact}
 (h:∀ p∈x.pages,σ'.page p=σ.page p) (hx:x.Holds ps σ) : x.Holds ps σ' := by
 cases x with
 | leaf p es=>
  obtain ⟨hs,he⟩:=hx
  refine ⟨?_,?_⟩
  · rw [h p mem_cons_self]
    exact hs
  · intro e hmem
    exact (he e hmem).congr fun q hq=>
     h q (mem_cons_of_mem _ (mem_flatMap.mpr ⟨e,hmem,hq⟩))
 | node p cells r=>
  have hp:=h p mem_cons_self
  obtain ⟨hs,hr,hk⟩:=hx
  refine ⟨?_,?_,hk⟩
  · rw [hp]
    exact hs
  · rw [hp]
    exact hr

lemma facts_congr {ps:ℕ} {σ σ':WriteTxn} {xs:List Fact} (h:∀ x∈xs,x.Holds ps σ)
 (hsame:∀ q∈xs.flatMap Fact.pages,σ'.page q=σ.page q) : ∀ x∈xs,x.Holds ps σ' :=
 fun x hx=>(h x hx).congr fun q hq=>hsame q (mem_flatMap.mpr ⟨x,hx,hq⟩)

lemma Linked.congr {σ σ':WriteTxn} (ls:List ℕ) (a b:ℕ)
 (h:∀ p∈ls,σ'.page p=σ.page p) (hl:Linked σ a ls b) : Linked σ' a ls b := by
 induction ls generalizing a with
 | nil=>trivial
 | cons p ls ih=>
  obtain ⟨h1,h2,h3⟩:=hl
  rw [Linked,h p mem_cons_self]
  exact ⟨h1,h2,ih p (fun q hq=>h q (mem_cons_of_mem _ hq)) h3⟩

lemma linked_append (σ:WriteTxn) (ls ms:List ℕ) (a b:ℕ) : Linked σ a (ls++ms) b ↔
  Linked σ a ls (ms.headD b) ∧ Linked σ (ls.getLastD a) ms b := by
 induction ls generalizing a with
 | nil=>simp [Linked]
 | cons p ls ih=>
  have hhead:(ls++ms).headD b=ls.headD (ms.headD b):=by
   cases ls <;> rfl
  rw [cons_append,Linked,Linked,ih,hhead,getLastD_cons]
  tauto

/-! ## Holding a set of facts

Updates move through states where the facts no longer form one tree, so the steps are stated on
a list of facts: the pages hold them, and nobody else owns the pages they speak of. -/

structure Holding (ps:ℕ) (σ:WriteTxn) (xs:List Fact) (O free:List ℕ) : Prop where
 pages : Pages ps σ (xs.flatMap Fact.pages++O) free
 facts : ∀ x∈xs,x.Holds ps σ

namespace Holding
variable {ps:ℕ} {σ:WriteTxn} {xs ys:List Fact} {x y:Fact} {O free:List ℕ} {p:ℕ}

lemma perm (h:Holding ps σ xs O free) (hp:ys.Perm xs) : Holding ps σ ys O free where
 pages := h.pages.reorder ((hp.flatMap_right Fact.pages).append_right O)
 facts z hz:=h.facts z (hp.mem_iff.mp hz)

lemma aside (h:Holding ps σ (xs++ys) O free) : Holding ps σ xs (ys.flatMap Fact.pages++O) free where
 pages := by
  have hp:=h.pages
  rw [flatMap_append,append_assoc] at hp
  exact hp
 facts z hz:=h.facts z (mem_append_left _ hz)

lemma restore (h:Holding ps σ xs (ys.flatMap Fact.pages++O) free)
 (hy:∀ z∈ys,z.Holds ps σ) : Holding ps σ (xs++ys) O free where
 pages := by
  rw [flatMap_append,append_assoc]
  exact h.pages
 facts z hz:=(mem_append.mp hz).elim (h.facts z) (hy z)

lemma mem_own (_:Holding ps σ xs O free) {q:ℕ} (hx:x∈xs) (hq:q∈x.pages) : q∈xs.flatMap Fact.pages++O :=
 mem_append_left _ (mem_flatMap.mpr ⟨x,hx,hq⟩)

lemma read (h:Holding ps σ xs O free) {q:ℕ} (hx:x∈xs) (hq:q∈x.pages) : readPage q σ=(.ok (σ.page q),σ) :=
 h.pages.readPage_run (Or.inl (h.mem_own hx hq))

lemma write (h:Holding ps σ (x::xs) O free) {d:Bytes} (hp:p∈x.pages)
 (hlen:d.length=ps) (hxy:y.pages=x.pages) (hy:y.Holds ps (σ.setDirty p d)) : writePage p d σ=(.ok (),σ.setDirty p d) ∧
  Holding ps (σ.setDirty p d) (y::xs) O free := by
 have hown:=h.mem_own mem_cons_self hp
 have hnd:=h.pages.own_nodup
 rw [flatMap_cons,append_assoc] at hnd
 refine ⟨h.pages.writePage_run hown hlen,?_,?_⟩
 · have hset:=h.pages.setDirty hown hlen
   rw [flatMap_cons] at hset ⊢
   rw [hxy]
   exact hset
 · intro z hz
   rcases mem_cons.mp hz with rfl | hz
   · exact hy
   · refine (h.facts z (mem_cons_of_mem _ hz)).congr fun q hq=>?_
     refine σ.setDirty_page_of_ne d ?_
     rintro rfl
     exact (nodup_append.mp hnd).2.2 q hp q (mem_append_left _ (mem_flatMap.mpr ⟨z,hz,hq⟩)) rfl

lemma adopt (h:Holding ps σ xs (x.pages++O) free) (hx:x.Holds ps σ) : Holding ps σ (x::xs) O free where
 pages := by
  refine h.pages.reorder ?_
  rw [flatMap_cons,append_assoc]
  exact perm_append_comm_assoc _ _ _
 facts z hz:=by
  rcases mem_cons.mp hz with rfl | hz
  · exact hx
  · exact h.facts z hz

lemma writeOther (h:Holding ps σ xs O free) {d:Bytes} (hp:p∈O) (hlen:d.length=ps) :
 writePage p d σ=(.ok (),σ.setDirty p d) ∧ Holding ps (σ.setDirty p d) xs O free := by
 have hown:p∈xs.flatMap Fact.pages++O:=mem_append_right _ hp
 refine ⟨h.pages.writePage_run hown hlen,h.pages.setDirty hown hlen,?_⟩
 refine facts_congr h.facts fun q hq=>σ.setDirty_page_of_ne d ?_
 rintro rfl
 exact (nodup_append.mp h.pages.own_nodup).2.2 q hq q hp rfl

lemma allocate (h:Holding ps σ xs O free) (hroom:σ.header.pageCount+1<2^64) :
 ∃ p σ' free',allocatePage σ=(.ok p,σ') ∧ Holding ps σ' xs (p::O) free' ∧
  p ∉ xs.flatMap Fact.pages++O ∧ (∀ q,q≠p → σ'.page q=σ.page q) ∧ σ'.header.pageCount≤σ.header.pageCount+1 := by
 obtain ⟨p,σ',hrun,-,hP,hsame,hcnt⟩:=h.pages.allocatePage_run hroom
 have hnot:p ∉ xs.flatMap Fact.pages++O:=(nodup_cons.mp hP.own_nodup).1
 refine ⟨p,σ',_,hrun,⟨hP.reorder perm_middle,?_⟩,hnot,hsame,hcnt⟩
 refine facts_congr h.facts fun q hq=>hsame q ?_
 rintro rfl
 exact hnot (mem_append_left _ hq)

lemma release (h:Holding ps σ xs (p::O) free) :
 freePage p σ=(.ok (),σ.pushFree p) ∧ Holding ps (σ.pushFree p) xs O (p::free) := by
 have hP:Pages ps σ (p::(xs.flatMap Fact.pages++O)) free:=
  h.pages.reorder perm_middle.symm
 refine ⟨hP.freePage_run,hP.pushFree,?_⟩
 refine facts_congr h.facts fun q hq=>Pages.pushFree_page σ ?_
 rintro rfl
 exact (nodup_cons.mp hP.own_nodup).1 (mem_append_left _ hq)

end Holding

lemma ChainHolds.length_pos {ps:ℕ} {σ:WriteTxn} {p:ℕ} {pages:List ℕ} {value:Bytes}
 (h:ChainHolds ps σ (p::pages) value) : 0<value.length :=
 length_pos_of_ne_nil h.1

lemma chunkBytes_pos {ps:ℕ} (h:kMinPageSize≤ps) : 500 ≤ chunkBytes ps := by
 simp only [kMinPageSize] at h
 simp only [chunkBytes,kPageTrailerBytes,kOverflowHdr]
 omega

lemma ChainHolds.length_le {ps:ℕ} {σ:WriteTxn} (hmin:kMinPageSize≤ps) (pages:List ℕ)
 (value:Bytes) (h:ChainHolds ps σ pages value) : pages.length*chunkBytes ps<value.length+chunkBytes ps := by
 have hpos:=chunkBytes_pos hmin
 induction pages generalizing value with
 | nil=>
  rw [length_nil,Nat.zero_mul]
  omega
 | cons p pages ih=>
  have ih':=ih _ h.2.2.2
  have hlen:=h.length_pos
  rw [length_drop] at ih'
  rw [length_cons,Nat.add_mul,Nat.one_mul]
  rcases Nat.lt_or_ge value.length (chunkBytes ps) with hlt | hge
  · rw [Nat.sub_eq_zero_of_le hlt.le] at ih'
    have hz:pages.length=0:=by
     by_contra hn
     have:1*chunkBytes ps≤pages.length*chunkBytes ps:=
      Nat.mul_le_mul_right _ (by omega)
     omega
    rw [hz,Nat.zero_mul]
    omega
  · omega

lemma ChainHolds.length_le_div {ps:ℕ} {σ:WriteTxn} (hmin:kMinPageSize≤ps)
 {pages:List ℕ} {value:Bytes} (h:ChainHolds ps σ pages value) : pages.length≤value.length/chunkBytes ps+1 := by
 have hpos:=chunkBytes_pos hmin
 have hlt:=h.length_le hmin
 have hdiv:=Nat.div_add_mod value.length (chunkBytes ps)
 have hmod:=Nat.mod_lt value.length (show chunkBytes ps > 0 by omega)
 by_contra hn
 have hge:(value.length/chunkBytes ps+2)*chunkBytes ps≤pages.length*chunkBytes ps:=Nat.mul_le_mul_right _ (by omega)
 rw [Nat.add_mul,Nat.mul_comm (value.length/chunkBytes ps)] at hge
 omega

lemma readOverflowLoop_run {ps:ℕ} {σ:WriteTxn} {own free:List ℕ} {b:BTree}
 (hb:b.pageSize=ps) (hP:Pages ps σ own free) (pages:List ℕ) (value out:Bytes) (hops:ℕ) (hops_le:pages.length≤hops)
 (hown:∀ p∈pages,p∈own) (h:ChainHolds ps σ pages value) :
 b.readOverflowLoop hops (pages.headD 0) value.length out σ=(.ok (out++value),σ) := by
 have hcap:b.overflowCap=chunkBytes ps:=by rw [BTree.overflowCap,hb,chunkBytes]
 induction pages generalizing value out hops with
 | nil=>
  obtain rfl:value=[]:=h
  cases hops <;> simp [BTree.readOverflowLoop]
 | cons p pages ih=>
  obtain ⟨hne,hnext,hchunk,hrest⟩:=h
  have hp:=hown p mem_cons_self
  have hlen:=length_pos_of_ne_nil hne
  have hp0:p≠0:=Nat.ne_of_gt (hP.own_pos hp)
  rw [length_cons] at hops_le
  obtain ⟨hops,rfl⟩:∃ k,hops=k+1:=⟨hops-1,by omega⟩
  have hdrop:(value.drop (chunkBytes ps)).length =
    value.length-min (chunkBytes ps) value.length:=by
   rw [length_drop]
   omega
  have ih':=ih (value.drop (chunkBytes ps)) (out++value.take (chunkBytes ps)) hops
   (by omega) (fun q hq=>hown q (mem_cons_of_mem _ hq)) hrest
  rw [hdrop,append_assoc,take_append_drop] at ih'
  rw [BTree.readOverflowLoop,if_neg (by omega),headD_cons,if_neg hp0,
   Act.bind_of_ok _ (hP.readPage_run (Or.inl hp)),hcap,hnext,hchunk]
  exact ih'

lemma leafValue_run {ps:ℕ} {σ:WriteTxn} {own free:List ℕ} {b:BTree}
 (hb:b.pageSize=ps) (hP:Pages ps σ own free) {p:Bytes} {es:List Entry} {i:ℕ}
 {e:Entry} (hs:Slotted ps p kLeaf (es.map (Entry.cell ps))) (hi:es[i]? = some e)
 (he:e.Holds ps σ) (hown:∀ q∈e.chain,q∈own) : b.leafValue p i σ=(.ok e.value,σ) := by
 have hk:=he.1.key_lt hP.size_max
 have hcell:(es.map (Entry.cell ps))[i]? = some (e.cell ps):=by
  rw [getElem?_map,hi]
  rfl
 rw [BTree.leafValue]
 cases hin:e.inline ps with
 | true=>
  have hc:e.cell ps=buildLeafCell e.key e.value false e.value.length 0:=by
   rw [Entry.cell,hin]
   rfl
  rw [hc] at hcell
  rw [leaf_overflowed hs hcell,if_neg (by decide),leaf_inlineValue hs hcell hk he.1.value_lt rfl]
  rfl
 | false=>
  have hc:e.cell ps=buildLeafCell e.key [] true e.value.length (e.chain.headD 0):=by
   rw [Entry.cell,hin]
   rfl
  have hchain:=he.2 hin
  have hfirst:e.chain.headD 0<2^64:=by
   cases hch:e.chain with
   | nil=>exact Nat.two_pow_pos 64
   | cons q rest=>exact hP.own_lt_u64 (hown q (by rw [hch]; exact mem_cons_self))
  rw [hc] at hcell
  rw [leaf_overflowed hs hcell,if_pos rfl,leaf_overflowPage hs hcell hk hfirst,
   leaf_valueLen hs hcell he.1.value_lt,BTree.readOverflow]
  have hcap:b.overflowCap=chunkBytes ps:=by rw [BTree.overflowCap,hb,chunkBytes]
  have hlen:=hchain.length_le_div hP.size_min
  have hrun:=readOverflowLoop_run hb hP e.chain e.value [] (e.value.length/b.overflowCap+2) (by rw [hcap]; omega) hown hchain
  simpa using hrun

end Archivum.TreeShape
