import Archivum.TreeUpdate

set_option autoImplicit false

/-!
# `insert_separator` on pages

The code's walk back up the path performs `InsertSep` on the tree the pages
hold, provided the two images of every split it makes fit their pages.
-/
namespace Archivum.TreeShape
open ByteStrings StatefulActions PageTxn SlottedPage BTreeModel InteriorSplit List Node

namespace Frame

def cellsLeft (f:Frame) : List (Bytes × ℕ) := f.left.map fun kt=>(kt.1,kt.2.page)

def cellsRight : Frame → ℕ → List (Bytes × ℕ)
 | cell _ _ s rest _,hole=>(s,hole)::rest.map fun kt=>(kt.1,kt.2.page)
 | last _ _,_=>[]

lemma cells_eq (f:Frame) (hole:ℕ) : f.cells hole=f.cellsLeft++f.cellsRight hole := by
 cases f with
 | cell p l s rest z=>rfl
 | last p l=>exact (append_nil _).symm

@[simp] lemma cellsLeft_length (f:Frame) : f.cellsLeft.length=f.left.length := by
 rw [cellsLeft,length_map]

lemma insertKids_cells (f:Frame) (t1:Tree) (s:Bytes) (t2:Tree) :
 (f.insertKids t1 s t2).map (fun kt=>(kt.1,kt.2.page)) = f.cellsLeft++(s,t1.page)::f.cellsRight t2.page := by
 cases f <;> simp [insertKids,cellsLeft,cellsRight,left]

lemma insertLast_page (f:Frame) (t2:Tree) : (f.insertLast t2).page=f.right t2.page := by
 cases f <;> rfl

lemma insertKeys_eq (f:Frame) (s:Bytes) (hole:ℕ) :
 f.insertKeys s=f.cellsLeft.map Prod.fst++s::(f.cellsRight hole).map Prod.fst := by
 cases f <;> simp [insertKeys,cellsLeft,cellsRight,left,Function.comp_def]

end Frame

lemma kid_page_mem {kids:List (Bytes × Tree)} {kt:Bytes × Tree} (h:kt∈kids) :
 kt.2.page∈(Tree.kidsFacts kids).flatMap Fact.pages := by
 induction kids with
 | nil=>cases h
 | cons x kids ih=>
  obtain ⟨k,t⟩:=x
  rw [Tree.kidsFacts,flatMap_append]
  rcases mem_cons.mp h with rfl | h
  · exact mem_append_left _ (page_mem_pages t)
  · exact mem_append_right _ (ih h)

lemma Frame.child_mem (f:Frame) (hole:ℕ) : (∀ c∈f.cells hole,c.2=hole ∨ c.2∈f.pages) ∧
  (f.right hole=hole ∨ f.right hole∈f.pages) := by
 cases f with
 | cell p l s rest z=>
  refine ⟨?_,Or.inr ?_⟩
  · intro c hc
    simp only [cells,mem_append,mem_map,mem_cons] at hc
    rcases hc with ⟨kt,hkt,rfl⟩ | rfl | ⟨kt,hkt,rfl⟩
    · right
      refine mem_cons_of_mem _ ?_
      rw [sideFacts,flatMap_append]
      exact mem_append_left _ (kid_page_mem hkt)
    · exact Or.inl rfl
    · right
      refine mem_cons_of_mem _ ?_
      rw [sideFacts,factsAfter,flatMap_append,flatMap_append]
      exact mem_append_right _ (mem_append_left _ (kid_page_mem hkt))
  · refine mem_cons_of_mem _ ?_
    rw [sideFacts,factsAfter,flatMap_append,flatMap_append]
    exact mem_append_right _ (mem_append_right _ (page_mem_pages z))
 | last p l=>
  refine ⟨?_,Or.inl rfl⟩
  intro c hc
  simp only [cells,mem_map] at hc
  obtain ⟨kt,hkt,rfl⟩:=hc
  right
  refine mem_cons_of_mem _ ?_
  rw [sideFacts,flatMap_append]
  exact mem_append_left _ (kid_page_mem hkt)

section Page
variable {ps:ℕ} {img:Bytes}

lemma setChild_right {cells:List Bytes} (h:Slotted ps img kInterior cells) {i:ℕ} {c:Bytes}
 (hi:cells[i]? = some c) (v:ℕ) : right (setChild img i v)=right img := by
 have hlo:=h.lo i c hi
 have hsl:=h.slots_le
 simp only [kHdr] at hsl
 exact getLE_putLE_disjoint _ _ _ _ _ _ (by omega)

lemma redirect_frame (f:Frame) (h rp:ℕ) (hs:Slotted ps img kInterior ((f.cells h).map fun c=>buildInteriorCell c.1 c.2))
 (hr:right img=f.right h) (hrp:rp<2^64) : Slotted ps (BTree.redirect img f.left.length rp) kInterior
   ((f.cells rp).map fun c=>buildInteriorCell c.1 c.2) ∧ right (BTree.redirect img f.left.length rp)=f.right rp := by
 rw [BTree.redirect,node_count hs]
 cases f with
 | cell p l s rest z=>
  rw [if_pos (by simp [Frame.cells,Frame.left])]
  have hlen:((Frame.cellsLeft (.cell p l s rest z)).map
    fun c=>buildInteriorCell c.1 c.2).length=(Frame.left (.cell p l s rest z)).length:=by
   simp
  rw [Frame.cells_eq,Frame.cellsRight,map_append,map_cons] at hs ⊢
  have hset:=hs.setChild rp
  rw [hlen,putU64_buildInteriorCell] at hset
  refine ⟨hset,?_⟩
  rw [setChild_right hs (by rw [getElem?_append_right (by omega),hlen,Nat.sub_self]; rfl)]
  exact hr
 | last p l=>
  rw [if_neg (by simp [Frame.cells,Frame.left])]
  exact ⟨hs.setRight rp,hs.setRight_right hrp⟩

lemma range_cells {cells:List (Bytes × ℕ)} (hmax:ps≤kMaxPageSize)
 (hs:Slotted ps img kInterior (cells.map fun c=>buildInteriorCell c.1 c.2))
 (hk:∀ c∈cells,c.1.length ≤ maxKeyBytesFor ps) (hc:∀ c∈cells,c.2<2^64) :
 ((range (count img)).map fun i=>(key img i,child img i))=cells := by
 apply ext_getElem?
 intro i
 rw [getElem?_map,node_count hs]
 by_cases hi:i<cells.length
 · have hget:=getElem?_eq_getElem hi
   rw [getElem?_range hi,hget,Option.map_some,node_cell hmax hs hk hget,node_child hs hget (hc _ (getElem_mem hi))]
 · rw [getElem?_eq_none (by simpa using hi),getElem?_eq_none (by omega)]
   rfl

lemma gather_frame (hmax:ps≤kMaxPageSize) (f:Frame) (rp h:ℕ) (s:Bytes)
 (hs:Slotted ps img kInterior ((f.cells rp).map fun c=>buildInteriorCell c.1 c.2))
 (hk:∀ c∈f.cells rp,c.1.length ≤ maxKeyBytesFor ps) (hc:∀ c∈f.cells rp,c.2<2^64) :
 BTree.gatherInterior img f.left.length s h = f.cellsLeft++(s,h)::f.cellsRight rp := by
 have hcount:f.left.length≤Node.count img:=by
  rw [node_count hs,f.cells_eq,length_append,f.cellsLeft_length]
  omega
 rw [BTree.gatherInterior_eq _ _ _ _ hcount,range_cells hmax hs hk hc,f.cells_eq,← f.cellsLeft_length,take_left,drop_left]

lemma keysFit_iff (f:Frame) (rp:ℕ) (s:Bytes)
 (hs:Slotted ps img kInterior ((f.cells rp).map fun c=>buildInteriorCell c.1 c.2)) :
 fitsAfterDefrag img (kInteriorCellHdr+s.length)=true ↔ KeysFit ps (f.insertKeys s) := by
 have hw:weight ((f.cells rp).map fun c=>buildInteriorCell c.1 c.2) =
   keysWeight (f.cellsLeft.map Prod.fst)+keysWeight ((f.cellsRight rp).map Prod.fst):=by
  rw [weight_interior,f.cells_eq,map_append,sum_append,keysWeight,keysWeight,map_map,map_map]
  rfl
 rw [hs.fitsAfterDefrag_iff,hw,KeysFit,f.insertKeys_eq s rp,keysWeight_append,
  keysWeight_cons,cellWeight,usable,kPageTrailerBytes]
 omega

end Page

/-- Inserting a cell where there is room, after defragmenting if that is needed. -/
def roomyImage (ps:ℕ) (p:Bytes) (at_:ℕ) (cell:Bytes) : Bytes :=
 if fits p cell.length then insertCell p at_ cell
 else insertCell (defragment ps p) at_ cell

lemma roomyImage_slotted {ps ty:ℕ} {p c:Bytes} {A B:List Bytes}
 (h:Slotted ps p ty (A++B)) (hc:cellBytes ty c=c.length) (hf:fitsAfterDefrag p c.length=true) :
 Slotted ps (roomyImage ps p A.length c) ty (A++c::B) ∧ right (roomyImage ps p A.length c)=right p ∧
  Node.prev (roomyImage ps p A.length c)=Node.prev p := by
 rw [roomyImage]
 by_cases hfit:fits p c.length=true
 · rw [if_pos hfit]
   exact ⟨h.insertCell hc hfit,h.insertCell_right hfit,h.insertCell_prev hfit⟩
 · rw [if_neg hfit]
   have hd:=h.defragment.1
   have hfd:=h.fits_defragment ((h.fitsAfterDefrag_iff _).mp hf)
   exact ⟨hd.insertCell hc hfd,(hd.insertCell_right hfd).trans h.defragment_right,
    (hd.insertCell_prev hfd).trans h.defragment_prev⟩

lemma roomy_branch {ps:ℕ} {p:Bytes} {n at_:ℕ} {cell:Bytes} {m:TxnM Unit}
 (hf:fitsAfterDefrag p cell.length=true) :
 (if fits p cell.length then writePage n (insertCell p at_ cell)
  else if fitsAfterDefrag p cell.length then
   writePage n (insertCell (defragment ps p) at_ cell)
  else m)=writePage n (roomyImage ps p at_ cell) := by
 rw [roomyImage]
 by_cases hfit:fits p cell.length=true
 · rw [if_pos hfit,if_pos hfit]
 · rw [if_neg hfit,if_neg hfit,if_pos hf]

lemma crowded_branch {ty ps:ℕ} {p:Bytes} {cells:List Bytes} {k:ℕ}
 {m1 m2 m:TxnM Unit} (h:Slotted ps p ty cells)
 (hf:fitsAfterDefrag p k=false) :
 (if fits p k then m1 else if fitsAfterDefrag p k then m2 else m)=m := by
 have hnf:¬fits p k=true:=by
  intro hfit
  rw [(h.fitsAfterDefrag_iff _).mpr (h.fits_imp hfit)] at hf
  exact absurd hf (by decide)
 rw [if_neg hnf,if_neg (by rw [hf]; decide)]

def FramesFit (ps:ℕ) : List Frame → Bytes → Prop
 | [],_=>True
 | f::fs,s=>
  KeysFit ps (f.insertKeys s) ∨
   (KeysFit ps ((f.insertKeys s).take ((f.insertKeys s).length/2)) ∧
    KeysFit ps ((f.insertKeys s).drop ((f.insertKeys s).length/2+1)) ∧
    FramesFit ps fs ((f.insertKeys s).getD ((f.insertKeys s).length/2) []))

lemma key_room {ps:ℕ} (hmin:kMinPageSize≤ps) {key:Bytes} (hk:key.length ≤ maxKeyBytesFor ps) :
 kInteriorCellHdr+key.length+2+kHdr≤ps-4 := by
 have hmin':512≤ps:=hmin
 simp only [maxKeyBytesFor,maxCellBytes,kPageTrailerBytes,kHdr,kLeafCellHdr] at hk
 simp only [kInteriorCellHdr,kHdr]
 omega

section Level
variable {ps:ℕ} {σ:WriteTxn} {f:Frame} {t1 t2:Tree} {s:Bytes} {O free:List ℕ}

/-- What `insert_separator` finds at a frame: `t1` in the hole, `t2` to its right, `s` between. -/
structure AtFrame (ps:ℕ) (σ:WriteTxn) (f:Frame) (t1:Tree) (s:Bytes) (t2:Tree)
  (O free:List ℕ) : Prop where
 held : Holding ps σ (f.nodeFact t1.page::(t1.facts++(t2.facts++f.sideFacts))) O free
 sep_le : s.length ≤ maxKeyBytesFor ps

namespace AtFrame

lemma node (h:AtFrame ps σ f t1 s t2 O free) : (f.nodeFact t1.page).Holds ps σ :=
 h.held.facts _ mem_cons_self

lemma pages (h:AtFrame ps σ f t1 s t2 O free) :
 Pages ps σ (f.page::(t1.pages++(t2.pages++(f.sideFacts.flatMap Fact.pages++O)))) free := by
 have hp:=h.held.pages
 simp only [flatMap_cons,flatMap_append,append_assoc] at hp
 exact hp

lemma right_lt (h:AtFrame ps σ f t1 s t2 O free) : t2.page<2^64 :=
 h.pages.own_lt_u64 (by simp [page_mem_pages])

lemma hole_lt (h:AtFrame ps σ f t1 s t2 O free) : t1.page<2^64 :=
 h.pages.own_lt_u64 (by simp [page_mem_pages])

lemma frame_lt (h:AtFrame ps σ f t1 s t2 O free) {q:ℕ} (hq:q∈f.pages) : q<2^64 := by
 refine h.pages.own_lt_u64 ?_
 rcases mem_cons.mp hq with rfl | hq
 · exact mem_cons_self
 · simp [mem_flatMap.mp hq]

lemma redirected (h:AtFrame ps σ f t1 s t2 O free) :
 Slotted ps (BTree.redirect (σ.page f.page) f.left.length t2.page) kInterior
   ((f.cells t2.page).map fun c=>buildInteriorCell c.1 c.2) ∧
  right (BTree.redirect (σ.page f.page) f.left.length t2.page)=f.right t2.page :=
 redirect_frame f t1.page t2.page h.node.1 h.node.2.1 h.right_lt

lemma keys_le (h:AtFrame ps σ f t1 s t2 O free) (hole:ℕ) : ∀ c∈f.cells hole,c.1.length ≤ maxKeyBytesFor ps := by
 intro c hc
 have hkeys:(f.cells hole).map Prod.fst=(f.cells t1.page).map Prod.fst:=by
  cases f <;> simp [Frame.cells]
 have hmem:c.1∈(f.cells t1.page).map Prod.fst:=by
  rw [← hkeys]
  exact mem_map_of_mem hc
 obtain ⟨d,hd,hdc⟩:=mem_map.mp hmem
 rw [← hdc]
 exact h.node.2.2 d hd

lemma children_lt (h:AtFrame ps σ f t1 s t2 O free) : ∀ c∈f.cells t2.page,c.2<2^64 := by
 intro c hc
 rcases (f.child_mem t2.page).1 c hc with hp | hp
 · rw [hp]
   exact h.right_lt
 · exact h.frame_lt hp

lemma last_lt (h:AtFrame ps σ f t1 s t2 O free) : f.right t2.page<2^64 := by
 rcases (f.child_mem t2.page).2 with hp | hp
 · rw [hp]
   exact h.right_lt
 · exact h.frame_lt hp

lemma insertKids_key_le (h:AtFrame ps σ f t1 s t2 O free) : ∀ kt∈f.insertKids t1 s t2,kt.1.length ≤ maxKeyBytesFor ps := by
 intro kt hkt
 have hmem:kt.1∈f.insertKeys s:=by
  rw [← f.insertKids_keys t1 s t2]
  exact mem_map_of_mem hkt
 rw [f.insertKeys_eq s t2.page] at hmem
 rcases mem_append.mp hmem with hmem | hmem
 · obtain ⟨c,hc,hk⟩:=mem_map.mp hmem
   rw [← hk]
   exact h.keys_le t2.page c (by rw [f.cells_eq]; exact mem_append_left _ hc)
 · rcases mem_cons.mp hmem with hmem | hmem
   · rw [hmem]
     exact h.sep_le
   · obtain ⟨c,hc,hk⟩:=mem_map.mp hmem
     rw [← hk]
     exact h.keys_le t2.page c (by rw [f.cells_eq]; exact mem_append_right _ hc)

lemma insertKids_child_lt (h:AtFrame ps σ f t1 s t2 O free) : ∀ kt∈f.insertKids t1 s t2,kt.2.page<2^64 := by
 intro kt hkt
 have hmem:(kt.1,kt.2.page)∈(f.insertKids t1 s t2).map fun kt=>(kt.1,kt.2.page):=
  mem_map_of_mem hkt
 rw [f.insertKids_cells t1 s t2] at hmem
 rcases mem_append.mp hmem with hmem | hmem
 · exact h.children_lt _ (by rw [f.cells_eq]; exact mem_append_left _ hmem)
 · rcases mem_cons.mp hmem with hmem | hmem
   · rw [(Prod.mk.inj hmem).2]
     exact h.hole_lt
   · exact h.children_lt _ (by rw [f.cells_eq]; exact mem_append_right _ hmem)

lemma image_holds (h:AtFrame ps σ f t1 s t2 O free) {τ:WriteTxn} {p:ℕ}
 {kids:List (Bytes × Tree)} {right:ℕ} (hsub:∀ kt∈kids,kt∈f.insertKids t1 s t2)
 (hfit:KeysFit ps (kids.map Prod.fst)) (hr:right<2^64)
 (hp:τ.page p=BTree.interiorImage ps (kids.map fun kt=>(kt.1,kt.2.page)) right) :
 (Fact.node p (kids.map fun kt=>(kt.1,kt.2.page)) right).Holds ps τ := by
 have hmax:=h.pages.size_max
 have hlt:=maxKeyBytesFor_lt hmax
 have hk:∀ c∈kids.map fun kt=>(kt.1,kt.2.page),c.1.length ≤ maxKeyBytesFor ps:=by
  intro c hc
  obtain ⟨kt,hkt,rfl⟩:=mem_map.mp hc
  exact h.insertKids_key_le kt (hsub kt hkt)
 obtain ⟨hs,hright⟩:=BTree.interiorImage_slotted h.pages.size_min hmax (kids.map fun kt=>(kt.1,kt.2.page)) right
  (fun c hc=>by have:=hk c hc; omega) hr
  (by
   have hw:weight ((kids.map fun kt=>(kt.1,kt.2.page)).map
     fun c=>buildInteriorCell c.1 c.2)=keysWeight (kids.map Prod.fst):=by
    rw [weight_interior,keysWeight,map_map,map_map]
    rfl
   rw [hw]
   rw [KeysFit,usable,kPageTrailerBytes] at hfit
   omega)
 rw [Fact.Holds,hp]
 exact ⟨hs,hright,hk⟩

lemma run_fits (h:AtFrame ps σ f t1 s t2 O free) {b:BTree} (hb:b.pageSize=ps)
 (hfit:KeysFit ps (f.insertKeys s)) (up:Option (Bytes → ℕ → TxnM Unit)) :
 ∃ img,b.insertSeparatorAt f.entry up s t2.page σ=(.ok (),σ.setDirty f.page img) ∧
  Holding ps (σ.setDirty f.page img) (f.insertNode t1 s t2).facts O free := by
 obtain ⟨hs,hr⟩:=h.redirected
 have hchild:=frame_child f t1.page h.hole_lt h.node
 have hlt:=maxKeyBytesFor_lt h.pages.size_max
 have hsep:=h.sep_le
 have hroom:fitsAfterDefrag (BTree.redirect (σ.page f.page) f.left.length t2.page)
   (buildInteriorCell s t1.page).length=true:=by
  rw [buildInteriorCell_length]
  exact (keysFit_iff f t2.page s hs).mpr hfit
 have hs':=hs
 rw [f.cells_eq,map_append] at hs'
 have hlen:(f.cellsLeft.map fun c=>buildInteriorCell c.1 c.2).length=f.left.length:=by simp
 obtain ⟨h1,h2,_⟩:=roomyImage_slotted hs' (buildInteriorCell_sized s t1.page (by omega)) hroom
 rw [hlen] at h1 h2
 obtain ⟨hwrite,hheld⟩:=h.held.write (p:=f.page) (y:=.node f.page ((f.insertKids t1 s t2).map fun kt=>(kt.1,kt.2.page))
   (f.insertLast t2).page) mem_cons_self h1.length rfl (by
  rw [Fact.Holds,σ.setDirty_page_self,f.insertKids_cells]
  refine ⟨?_,?_,?_⟩
  · simpa only [map_append,map_cons] using h1
  · rw [h2,hr,f.insertLast_page]
  · rw [← f.insertKids_cells t1 s t2]
    intro c hc
    obtain ⟨kt,hkt,rfl⟩:=mem_map.mp hc
    exact h.insertKids_key_le kt hkt)
 refine ⟨_,?_,hheld.perm ((insertNode_kids_perm f t1 s t2).cons _)⟩
 have hread:=h.held.read mem_cons_self (mem_cons_self (a:=f.page))
 rw [BTree.insertSeparatorAt,Frame.entry,Act.bind_of_ok _ hread]
 simp only [hchild,hb]
 rw [roomy_branch hroom]
 exact hwrite

lemma run_split (h:AtFrame ps σ f t1 s t2 O free) {b:BTree} (hb:b.pageSize=ps)
  (hfull:¬KeysFit ps (f.insertKeys s)) {A B:List (Bytes × Tree)} {k:Bytes} {c:Tree}
  (hcut:f.insertKids t1 s t2=A++(k,c)::B)
  (hmid:A.length=(f.insertKids t1 s t2).length/2)
  (up:Option (Bytes → ℕ → TxnM Unit)) :
  b.insertSeparatorAt f.entry up s t2.page σ =
   (do
    let newRight ← allocatePage
    let left:=BTree.interiorImage ps (A.map fun kt=>(kt.1,kt.2.page)) c.page
    let right:=BTree.interiorImage ps (B.map fun kt=>(kt.1,kt.2.page))
     (f.insertLast t2).page
    match up with
    | none=>do
     let leftPage ← allocatePage
     writePage leftPage left
     writePage newRight right
     writePage b.root (BTree.interiorImage ps [(k,leftPage)] newRight)
    | some up=>do
     writePage f.page left
     writePage newRight right
     up k newRight:TxnM Unit) σ := by
 obtain ⟨hs,hr⟩:=h.redirected
 have hchild:=frame_child f t1.page h.hole_lt h.node
 have hcrowd:fitsAfterDefrag (BTree.redirect (σ.page f.page) f.left.length t2.page)
   (buildInteriorCell s t1.page).length=false:=by
  rw [buildInteriorCell_length,← Bool.not_eq_true,keysFit_iff f t2.page s hs]
  exact hfull
 have hgather:=gather_frame h.pages.size_max f t2.page t1.page s hs (h.keys_le t2.page)
  h.children_lt
 rw [← f.insertKids_cells t1 s t2,hcut,map_append,map_cons] at hgather
 have hm:(A.map (fun kt=>(kt.1,kt.2.page))++(k,c.page) ::
   B.map fun kt=>(kt.1,kt.2.page)).length/2 =
   (A.map fun kt:Bytes × Tree=>(kt.1,kt.2.page)).length:=by
  rw [length_map,hmid,hcut]
  simp
 have hread:=h.held.read mem_cons_self (mem_cons_self (a:=f.page))
 rw [BTree.insertSeparatorAt,Frame.entry,Act.bind_of_ok _ hread]
 simp only [hchild,hb]
 rw [crowded_branch hs hcrowd]
 simp only [hgather,hm,take_left,hr,f.insertLast_page]
 have hmidget:∀ d:Bytes × ℕ,(A.map (fun kt=>(kt.1,kt.2.page))++(k,c.page) ::
   B.map fun kt=>(kt.1,kt.2.page)).getD
    (A.map fun kt:Bytes × Tree=>(kt.1,kt.2.page)).length d=(k,c.page):=by
  intro d
  rw [getD_append_right _ _ _ _ (Nat.le_refl _),Nat.sub_self]
  rfl
 have hdrop:(A.map (fun kt=>(kt.1,kt.2.page))++(k,c.page) ::
   B.map fun kt=>(kt.1,kt.2.page)).drop
    ((A.map fun kt:Bytes × Tree=>(kt.1,kt.2.page)).length+1) =
   B.map fun kt=>(kt.1,kt.2.page):=by
  rw [← drop_drop,drop_left]
  rfl
 cases up <;> simp only [hmidget,hdrop]

section Split
variable {b:BTree} {A B:List (Bytes × Tree)} {k:Bytes} {c:Tree}

lemma middle_lt (h:AtFrame ps σ f t1 s t2 O free) (hcut:f.insertKids t1 s t2=A++(k,c)::B) :
 k.length ≤ maxKeyBytesFor ps ∧ c.page<2^64 := by
 have hmem:(k,c)∈f.insertKids t1 s t2:=by rw [hcut]; simp
 exact ⟨h.insertKids_key_le _ hmem,h.insertKids_child_lt _ hmem⟩

lemma insertLast_lt (h:AtFrame ps σ f t1 s t2 O free) : (f.insertLast t2).page<2^64 := by
 rw [f.insertLast_page]
 exact h.last_lt

lemma halves_hold (h:AtFrame ps σ f t1 s t2 O free) (hcut:f.insertKids t1 s t2=A++(k,c)::B) (hA:KeysFit ps (A.map Prod.fst))
 (hB:KeysFit ps (B.map Prod.fst)) {τ:WriteTxn} {l r:ℕ}
 (hl:τ.page l=BTree.interiorImage ps (A.map fun kt=>(kt.1,kt.2.page)) c.page)
 (hr:τ.page r=BTree.interiorImage ps (B.map fun kt=>(kt.1,kt.2.page)) (f.insertLast t2).page) :
 (Fact.node l (A.map fun kt=>(kt.1,kt.2.page)) c.page).Holds ps τ ∧
  (Fact.node r (B.map fun kt=>(kt.1,kt.2.page)) (f.insertLast t2).page).Holds ps τ :=
 ⟨h.image_holds (fun kt hkt=>by rw [hcut]; simp [hkt]) hA (h.middle_lt hcut).2 hl,
  h.image_holds (fun kt hkt=>by rw [hcut]; simp [hkt]) hB h.insertLast_lt hr⟩

lemma interiorImage_length (h:AtFrame ps σ f t1 s t2 O free) {K:List (Bytes × Tree)}
 (hsub:∀ kt∈K,kt∈f.insertKids t1 s t2) (hfit:KeysFit ps (K.map Prod.fst)) {right:ℕ} (hr:right<2^64) :
 (BTree.interiorImage ps (K.map fun kt=>(kt.1,kt.2.page)) right).length=ps := by
 have hh:=h.image_holds (τ:=σ.setDirty 0 (BTree.interiorImage ps
  (K.map fun kt=>(kt.1,kt.2.page)) right)) (p:=0) hsub hfit hr (σ.setDirty_page_self _ _)
 have hl:=hh.1.length
 rwa [σ.setDirty_page_self] at hl

lemma run_split_up (h:AtFrame ps σ f t1 s t2 O free) (hb:b.pageSize=ps) (hroom:σ.header.pageCount+1<2^64)
 (hfull:¬KeysFit ps (f.insertKeys s)) (hcut:f.insertKids t1 s t2=A++(k,c)::B)
 (hmid:A.length=(f.insertKids t1 s t2).length/2) (hA:KeysFit ps (A.map Prod.fst))
 (hB:KeysFit ps (B.map Prod.fst)) (up:Bytes → ℕ → TxnM Unit) :
 ∃ q σ' free',b.insertSeparatorAt f.entry (some up) s t2.page σ=up k q σ' ∧
  Holding ps σ' ((Tree.node f.page A c).facts++(Tree.node q B (f.insertLast t2)).facts) O free' ∧
  (∀ p,p≠f.page → p≠q → σ'.page p=σ.page p) ∧ q ∉ f.page::(t1.pages++(t2.pages++(f.sideFacts.flatMap Fact.pages++O))) ∧
  σ'.header.pageCount≤σ.header.pageCount+1 := by
 obtain ⟨q,σ1,free1,halloc,h1,hnot,hsame,hcnt⟩:=h.held.allocate hroom
 have hlenA:=h.interiorImage_length (K:=A) (fun kt hkt=>by rw [hcut]; simp [hkt]) hA
  (h.middle_lt hcut).2
 have hlenB:=h.interiorImage_length (K:=B) (fun kt hkt=>by rw [hcut]; simp [hkt]) hB
  h.insertLast_lt
 generalize hL:BTree.interiorImage ps (A.map fun kt=>(kt.1,kt.2.page)) c.page=L at hlenA
 generalize hR:BTree.interiorImage ps (B.map fun kt=>(kt.1,kt.2.page)) (f.insertLast t2).page=R at hlenB
 have hqf:q≠f.page:=by
  rintro rfl
  exact hnot (by simp [Frame.nodeFact,Fact.pages])
 -- the two halves as they stand after both writes
 have hhalves:=h.halves_hold hcut hA hB (τ:=(σ1.setDirty f.page L).setDirty q R)
  (l:=f.page) (r:=q) (by rw [WriteTxn.setDirty_page_of_ne _ _ hqf.symm,
   WriteTxn.setDirty_page_self,hL]) (by rw [WriteTxn.setDirty_page_self,hR])
 obtain ⟨hw1,h2⟩:=h1.write (p:=f.page) (y:=.node f.page (A.map fun kt=>(kt.1,kt.2.page)) c.page) mem_cons_self hlenA rfl
  (hhalves.1.congr fun p hp=>by
   rw [mem_singleton.mp hp,WriteTxn.setDirty_page_of_ne _ _ hqf.symm])
 obtain ⟨hw2,h3⟩:=h2.writeOther (p:=q) mem_cons_self hlenB
 refine ⟨q,(σ1.setDirty f.page L).setDirty q R,free1,?_,?_,?_,?_,hcnt⟩
 · rw [h.run_split hb hfull hcut hmid,Act.bind_of_ok _ halloc]
   simp only [hL,hR]
   rw [Act.bind_of_ok _ hw1,Act.bind_of_ok _ hw2]
 · refine (h3.adopt (x:=.node q (B.map fun kt=>(kt.1,kt.2.page)) (f.insertLast t2).page) hhalves.2).perm ?_
   refine (cut_facts_perm f.page q A B k c (f.insertLast t2)).trans ?_
   rw [← hcut]
   exact (List.Perm.swap _ _ _).trans (((insertNode_kids_perm f t1 s t2).cons _).cons _)
 · intro p hpf hpq
   rw [WriteTxn.setDirty_page_of_ne _ _ hpq,WriteTxn.setDirty_page_of_ne _ _ hpf,hsame p hpq]
 · simp only [flatMap_cons,flatMap_append,append_assoc] at hnot
   exact hnot

lemma run_split_root (h:AtFrame ps σ f t1 s t2 O free) (hb:b.pageSize=ps)
 (hroot:b.root=f.page) (hroom:σ.header.pageCount+2<2^64)
 (hfull:¬KeysFit ps (f.insertKeys s)) (hcut:f.insertKids t1 s t2=A++(k,c)::B)
 (hmid:A.length=(f.insertKids t1 s t2).length/2) (hA:KeysFit ps (A.map Prod.fst)) (hB:KeysFit ps (B.map Prod.fst)) :
 ∃ l r σ' free',b.insertSeparatorAt f.entry none s t2.page σ=(.ok (),σ') ∧
  Holding ps σ' (Tree.node f.page [(k,.node l A c)] (.node r B (f.insertLast t2))).facts O free' ∧
  (∀ p∈f.page::(t1.pages++(t2.pages++(f.sideFacts.flatMap Fact.pages++O))),p≠f.page → σ'.page p=σ.page p) ∧
  σ'.header.pageCount≤σ.header.pageCount+2 := by
 obtain ⟨r,σ1,free1,halloc1,h1,hnot1,hsame1,hcnt1⟩:=h.held.allocate (by omega)
 obtain ⟨l,σ2,free2,halloc2,h2,hnot2,hsame2,hcnt2⟩:=h1.allocate (by omega)
 have hlenA:=h.interiorImage_length (K:=A) (fun kt hkt=>by rw [hcut]; simp [hkt]) hA
  (h.middle_lt hcut).2
 have hlenB:=h.interiorImage_length (K:=B) (fun kt hkt=>by rw [hcut]; simp [hkt]) hB
  h.insertLast_lt
 have hk:=(h.middle_lt hcut).1
 have hklt:=maxKeyBytesFor_lt h.pages.size_max
 have hrlt:r<2^64:=h1.pages.own_lt_u64 (by simp)
 have hmin:=h.pages.size_min
 obtain ⟨hroots,hrootr⟩:=BTree.interiorImage_slotted hmin h.pages.size_max [(k,l)] r
  (by simp only [mem_singleton,forall_eq]; omega) hrlt (by
   have:=key_room hmin hk
   simp only [map_cons,map_nil,weight_cons,weight_nil,buildInteriorCell_length]
   omega)
 generalize hL:BTree.interiorImage ps (A.map fun kt=>(kt.1,kt.2.page)) c.page=L at hlenA
 generalize hR:BTree.interiorImage ps (B.map fun kt=>(kt.1,kt.2.page)) (f.insertLast t2).page=R at hlenB
 generalize hT:BTree.interiorImage ps [(k,l)] r=T at hroots hrootr
 have hlr:l≠r:=fun he=>hnot2 (by rw [he]; simp)
 have hlf:l≠f.page:=fun he=>hnot2 (by rw [he]; simp [Frame.nodeFact,Fact.pages])
 have hrf:r≠f.page:=fun he=>hnot1 (by rw [he]; simp [Frame.nodeFact,Fact.pages])
 have hhalves:=h.halves_hold hcut hA hB (τ:=((σ2.setDirty l L).setDirty r R).setDirty f.page T) (l:=l) (r:=r)
  (by rw [WriteTxn.setDirty_page_of_ne _ _ hlf,WriteTxn.setDirty_page_of_ne _ _ hlr,WriteTxn.setDirty_page_self,hL])
  (by rw [WriteTxn.setDirty_page_of_ne _ _ hrf,WriteTxn.setDirty_page_self,hR])
 obtain ⟨hw1,h3⟩:=h2.writeOther (p:=l) mem_cons_self hlenA
 obtain ⟨hw2,h4⟩:=h3.writeOther (p:=r) (mem_cons_of_mem _ mem_cons_self) hlenB
 obtain ⟨hw3,h5⟩:=h4.write (p:=f.page) (d:=T) (y:=.node f.page [(k,l)] r)
  mem_cons_self hroots.length rfl (by
   rw [Fact.Holds,WriteTxn.setDirty_page_self]
   exact ⟨hroots,hrootr,by simpa using hk⟩)
 have hcnt:σ2.header.pageCount≤σ.header.pageCount+2:=by omega
 refine ⟨l,r,((σ2.setDirty l L).setDirty r R).setDirty f.page T,free2,?_,?_,?_,hcnt⟩
 · rw [h.run_split hb hfull hcut hmid,Act.bind_of_ok _ halloc1]
   simp only [hL,hR]
   rw [Act.bind_of_ok _ halloc2,Act.bind_of_ok _ hw1,Act.bind_of_ok _ hw2,hroot,hT]
   exact hw3
 · have h6:=(h5.adopt (x:=.node l (A.map fun kt=>(kt.1,kt.2.page)) c.page)
    hhalves.1).adopt (x:=.node r (B.map fun kt=>(kt.1,kt.2.page)) (f.insertLast t2).page)
    hhalves.2
   refine h6.perm ?_
   simp only [Tree.facts,Tree.kidsFacts,map_cons,map_nil,Tree.page,append_nil]
   refine ((cut_facts_perm l r A B k c (f.insertLast t2)).cons _).trans ?_
   rw [← hcut]
   refine (((((insertNode_kids_perm f t1 s t2).cons _).cons _).cons _)).trans ?_
   exact (List.Perm.swap _ _ _).trans ((List.Perm.swap _ _ _).cons _ |>.trans ((List.Perm.swap _ _ _)))
 · intro p hp hpf
   have hp':p∈(f.nodeFact t1.page::(t1.facts++(t2.facts++f.sideFacts))).flatMap
     Fact.pages++O:=by
    simp only [flatMap_cons,flatMap_append,append_assoc]
    exact hp
   have hpr:p≠r:=fun he=>hnot1 (he ▸ hp')
   have hpl:p≠l:=fun he=>hnot2 (by
    rw [← he]
    rcases mem_append.mp hp' with hp' | hp'
    · exact mem_append_left _ hp'
    · exact mem_append_right _ (mem_cons_of_mem _ hp'))
   rw [WriteTxn.setDirty_page_of_ne _ _ hpf,WriteTxn.setDirty_page_of_ne _ _ hpr,
    WriteTxn.setDirty_page_of_ne _ _ hpl,hsame2 p hpl,hsame1 p hpr]

end Split

end AtFrame

end Level

lemma pathEntries_cons (f:Frame) (fs:List Frame) : pathEntries (f::fs)=pathEntries fs++[f.entry] := by
 simp [pathEntries]

lemma path_entry {f:Frame} {fs:List Frame} {path:List PathEntry}
 (h:pathEntries (f::fs) <+: path) : path.getD fs.length default=f.entry := by
 obtain ⟨rest,rfl⟩:=h
 rw [pathEntries_cons,append_assoc]
 have hl:fs.length=(pathEntries fs).length:=by simp [pathEntries]
 rw [hl,getD_append_right _ _ _ _ (Nat.le_refl _),Nat.sub_self]
 rfl

lemma cut_exists (kids:List (Bytes × Tree)) (hne:kids≠[]) : ∃ A k c B,kids=A++(k,c)::B ∧ A.length=kids.length/2 ∧
  A.map Prod.fst=(kids.map Prod.fst).take (kids.length/2) ∧ B.map Prod.fst=(kids.map Prod.fst).drop (kids.length/2+1) ∧
  (kids.map Prod.fst).getD (kids.length/2) []=k := by
 have hpos:=length_pos_of_ne_nil hne
 have hm:kids.length/2<kids.length:=by omega
 refine ⟨kids.take (kids.length/2),kids[kids.length/2].1,kids[kids.length/2].2,kids.drop (kids.length/2+1),?_,?_,?_,?_,?_⟩
 · rw [Prod.mk.eta,getElem_cons_drop,take_append_drop]
 · rw [length_take]
   omega
 · rw [map_take]
 · rw [map_drop]
 · rw [getD_eq_getElem _ _ (by simpa using hm),getElem_map]

/-- What a separator insertion reports: the tree it leaves and the pages it left alone. -/
structure Inserted (ps:ℕ) (σ:WriteTxn) (fs:List Frame) (t1:Tree) (s:Bytes) (t2:Tree)
  (O:List ℕ) (t':Tree) (σ':WriteTxn) (free':List ℕ) : Prop where
 tree : InsertSep ps fs t1 s t2 t'
 held : Holding ps σ' t'.facts O free'
 same : ∀ p∈t1.pages++(t2.pages++(pathPages fs++O)),p ∉ fs.map Frame.page →
  σ'.page p=σ.page p
 count : σ'.header.pageCount ≤ σ.header.pageCount+fs.length+1

lemma framePages_perm (f:Frame) (fs:List Frame) (t1 t2:Tree) (O:List ℕ) :
 (t1.pages++(t2.pages++(pathPages (f::fs)++O))).Perm (f.page::(t1.pages++(t2.pages++(f.sideFacts.flatMap Fact.pages ++
   (pathPages fs++O))))) := by
 have hf:pathPages (f::fs)=f.page::(f.sideFacts.flatMap Fact.pages++pathPages fs):=rfl
 rw [hf,cons_append,append_assoc]
 exact (List.Perm.append_left _ perm_middle).trans perm_middle

section Path
variable {ps:ℕ} {b:BTree} {path:List PathEntry} {O free:List ℕ} {fs:List Frame}
 {f:Frame} {σ:WriteTxn} {t1 t2:Tree} {s:Bytes}

lemma atFrame_of_held (h:Holding ps σ (t1.facts++(t2.facts++pathFacts (f::fs) t1.page)) O free)
 (hs:s.length ≤ maxKeyBytesFor ps) : AtFrame ps σ f t1 s t2 (pathPages fs++O) free := by
 have hp:((f.nodeFact t1.page::(t1.facts++(t2.facts++f.sideFacts))) ++
   pathFacts fs f.page).Perm (t1.facts++(t2.facts++pathFacts (f::fs) t1.page)):=by
  rw [pathFacts,cons_append,append_assoc,append_assoc]
  exact (perm_middle.symm).trans (List.Perm.append_left _ perm_middle.symm)
 have haside:=(h.perm hp).aside
 rw [pathPages_eq] at haside
 exact ⟨haside,hs⟩

lemma split_pages_perm {A B:List (Bytes × Tree)} {k:Bytes} {c:Tree} (hcut:f.insertKids t1 s t2=A++(k,c)::B) (q:ℕ) :
 ((Tree.node f.page A c).pages++(Tree.node q B (f.insertLast t2)).pages).Perm
  (f.page::q::(t1.pages++(t2.pages++f.sideFacts.flatMap Fact.pages))) := by
 have h:=(cut_facts_perm f.page q A B k c (f.insertLast t2)).trans
  ((hcut ▸ (insertNode_kids_perm f t1 s t2)).cons _ |>.cons _)
 have hp:=h.flatMap_right Fact.pages
 simp only [flatMap_cons,flatMap_append] at hp
 exact hp

lemma AtFrame.above_ne (h:AtFrame ps σ f t1 s t2 (pathPages fs++O) free) {p:ℕ} (hp:p∈pathPages fs) : p≠f.page := by
 rintro rfl
 refine (nodup_cons.mp h.pages.own_nodup).1 ?_
 simp [hp]

lemma AtFrame.inserted_fits (h:AtFrame ps σ f t1 s t2 (pathPages fs++O) free)
 (hup:∀ x∈pathFacts fs f.page,x.Holds ps σ) (hb:b.pageSize=ps)
 (hfit:KeysFit ps (f.insertKeys s)) (up:Option (Bytes → ℕ → TxnM Unit)) :
 ∃ t' σ' free',b.insertSeparatorAt f.entry up s t2.page σ=(.ok (),σ') ∧ Inserted ps σ (f::fs) t1 s t2 O t' σ' free' := by
 obtain ⟨img,hrun,hheld⟩:=h.run_fits hb hfit up
 have hup':∀ x∈pathFacts fs f.page,x.Holds ps (σ.setDirty f.page img):=
  facts_congr hup fun q hq=>
   σ.setDirty_page_of_ne img (h.above_ne (by rwa [pathPages_eq] at hq))
 rw [← pathPages_eq fs f.page] at hheld
 refine ⟨plugAll fs (f.insertNode t1 s t2),_,free,hrun,.fits hfit,?_,?_,?_⟩
 · exact (hheld.restore hup').perm (plugAll_facts_perm fs (f.insertNode t1 s t2))
 · intro p _ hp
   exact σ.setDirty_page_of_ne img fun he=>hp (by simp [he])
 · change σ.header.pageCount≤_
   omega

end Path

lemma insertSeparator_run {ps:ℕ} {b:BTree} (hb:b.pageSize=ps) (path:List PathEntry)
 (O:List ℕ) (fs:List Frame) (f:Frame) (σ:WriteTxn) (t1:Tree) (s:Bytes) (t2:Tree)
 (free:List ℕ) (hpath:pathEntries (f::fs) <+: path)
 (hroot:b.root=((f::fs).getLast (by simp)).page)
 (hheld:Holding ps σ (t1.facts++(t2.facts++pathFacts (f::fs) t1.page)) O free)
 (hs:s.length ≤ maxKeyBytesFor ps) (hfit:FramesFit ps (f::fs) s)
 (hroom:σ.header.pageCount+fs.length+2<2^64) :
 ∃ t' σ' free',b.insertSeparator path fs.length s t2.page σ=(.ok (),σ') ∧
  Inserted ps σ (f::fs) t1 s t2 O t' σ' free' := by
 induction fs generalizing f σ t1 s t2 free with
 | nil=>
  have hat:=atFrame_of_held hheld hs
  have hentry:=path_entry hpath
  rw [length_nil] at hentry
  rw [length_nil,BTree.insertSeparator,hentry]
  rcases Classical.em (KeysFit ps (f.insertKeys s)) with hroomy | hfull
  · exact hat.inserted_fits (by simp [pathFacts]) hb hroomy none
  · obtain ⟨hA,hB,_⟩:=hfit.resolve_left hfull
    obtain ⟨A,k,c,B,hcut,hmid,hAk,hBk,_⟩:=cut_exists (f.insertKids t1 s t2) (by cases f <;> simp [Frame.insertKids])
    rw [← f.insertKids_keys t1 s t2,length_map] at hA hB
    obtain ⟨l,r,σ',free',hrun,hheld',hsame,hcnt⟩:=
     hat.run_split_root hb hroot hroom hfull hcut hmid (hAk ▸ hA) (hBk ▸ hB)
    refine ⟨_,σ',free',hrun,.root l r hfull hcut hmid,hheld',?_,hcnt⟩
    intro p hp hpf
    exact hsame p ((framePages_perm f [] t1 t2 O).mem_iff.mp hp) (by simpa using hpf)
 | cons g fs ih=>
  have hat:=atFrame_of_held hheld hs
  have hup:∀ x∈pathFacts (g::fs) f.page,x.Holds ps σ:=
   fun x hx=>hheld.facts x (by rw [pathFacts]; simp [hx])
  have hentry:=path_entry hpath
  rw [length_cons] at hentry hroom
  rw [length_cons,BTree.insertSeparator,hentry]
  rcases Classical.em (KeysFit ps (f.insertKeys s)) with hroomy | hfull
  · exact hat.inserted_fits hup hb hroomy _
  · obtain ⟨hA,hB,hrest⟩:=hfit.resolve_left hfull
    obtain ⟨A,k,c,B,hcut,hmid,hAk,hBk,hk⟩:=cut_exists (f.insertKids t1 s t2) (by cases f <;> simp [Frame.insertKids])
    rw [← f.insertKids_keys t1 s t2,length_map] at hA hB hrest
    rw [hk] at hrest
    obtain ⟨q,σ1,free1,hrun,hheld1,hsame1,hq,hcnt1⟩:=
     hat.run_split_up hb (by omega) hfull hcut hmid (hAk ▸ hA) (hBk ▸ hB)
      (b.insertSeparator path fs.length)
    have hqpath:∀ p∈pathPages (g::fs),p≠q:=by
     rintro p hp rfl
     exact hq (by simp [hp])
    have hup1:∀ x∈pathFacts (g::fs) f.page,x.Holds ps σ1:=
     facts_congr hup fun p hp=>by
      rw [pathPages_eq] at hp
      exact hsame1 p (hat.above_ne hp) (hqpath p hp)
    rw [← pathPages_eq (g::fs) f.page] at hheld1
    have hnext:=hheld1.restore hup1
    rw [append_assoc] at hnext
    obtain ⟨t',σ',free',hrun',hins⟩:=ih g σ1 (.node f.page A c) k (.node q B (f.insertLast t2)) free1
     ((prefix_append _ _).trans ((pathEntries_cons f (g::fs)) ▸ hpath)) hroot hnext
     (hat.middle_lt hcut).1 hrest (by omega)
    refine ⟨t',σ',free',hrun.trans hrun',.split q hfull hcut hmid hins.tree,hins.held,?_,?_⟩
    · intro p hp hpf
      rw [map_cons,mem_cons,not_or] at hpf
      have hp1:=(framePages_perm f (g::fs) t1 t2 O).mem_iff.mp hp
      have hpq:p≠q:=fun he=>hq (he ▸ hp1)
      refine (hins.same p ?_ hpf.2).trans (hsame1 p hpf.1 hpq)
      rw [← append_assoc,mem_append,(split_pages_perm hcut q).mem_iff]
      simp only [mem_cons,mem_append] at hp1 ⊢
      tauto
    · have:=hins.count
      simp only [length_cons] at this ⊢
      omega

end Archivum.TreeShape
