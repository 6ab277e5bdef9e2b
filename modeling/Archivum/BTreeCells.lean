import Archivum.BTreeModel
import Archivum.SlottedPageInvariant

set_option autoImplicit false

/-!
# What the cells of a node say

Decoding of leaf and interior cells on a slotted page, the binary search, and
the images a split builds.
-/
namespace Archivum.BTreeModel
open ByteStrings StatefulActions PageTxn SlottedPage List

lemma bisect_spec (before:ℕ → Bool) (fuel lo hi k:ℕ) (hf:hi≤lo+fuel) (hlo:lo≤k)
 (hhi:k≤hi) (h1:∀ i,lo ≤ i → i<k → before i=true) (h2:∀ i,k ≤ i → i<hi → before i=false) : bisect before fuel lo hi=k := by
 induction fuel generalizing lo hi with
 | zero=>
  rw [bisect]
  omega
 | succ fuel ih=>
  rw [bisect]
  by_cases hlt:lo<hi
  · rw [if_pos hlt]
    by_cases hk:(lo+hi)/2<k
    · rw [if_pos (h1 _ (by omega) hk)]
      exact ih _ _ (by omega) (by omega) hhi (fun i hi1 hi2=>h1 i (by omega) hi2)
       (fun i hi1 hi2=>h2 i hi1 hi2)
    · rw [if_neg (by rw [h2 _ (by omega) (by omega)]; decide)]
      exact ih _ _ (by omega) hlo (by omega) h1 (fun i hi1 hi2=>h2 i hi1 (by omega))
  · rw [if_neg hlt]
    omega

lemma range_insert {α:Type} (f:ℕ → α) (x:α) (s n:ℕ) (hs:s≤n) :
 ((range n).flatMap fun i=>(if i=s then [x] else [])++[f i]) ++
   (if s=n then [x] else []) =
  ((range n).map f).take s++x::((range n).map f).drop s := by
 induction n with
 | zero=>
  obtain rfl:s=0:=by omega
  rfl
 | succ n ih=>
  rw [range_succ,flatMap_append,map_append]
  rcases Nat.lt_or_ge n s with hlt | hge
  · -- the new cell comes after all old ones
    obtain rfl:s=n+1:=by omega
    have hno:((range n).flatMap fun i=>(if i=n+1 then [x] else [])++[f i]) =
      (range n).map f:=by
     rw [map_eq_flatMap]
     apply flatMap_congr
     intro i hi
     have:=mem_range.mp hi
     rw [if_neg (by omega),nil_append]
    have hlen:((range n).map f++[f n]).length=n+1:=by simp
    rw [hno,map_cons,map_nil,take_of_length_le (by omega),drop_of_length_le (by omega)]
    simp
  · have ih':=ih hge
    have hlen:((range n).map f).length=n:=by simp
    rw [take_append_of_le_length (by omega),drop_append_of_le_length (by omega),if_neg (by omega),append_nil]
    by_cases hsn:n=s
    · subst hsn
      rw [if_pos rfl] at ih'
      simp only [flatMap_cons,flatMap_nil,if_true,append_nil]
      rw [← append_assoc,ih']
      simp
    · rw [if_neg (fun h=>hsn h.symm),append_nil] at ih'
      rw [ih']
      simp [hsn]

namespace BTree

lemma gatherInterior_eq (p:Bytes) (slot:ℕ) (sep:Bytes) (child:ℕ) (hs:slot≤Node.count p) :
 gatherInterior p slot sep child = ((range (Node.count p)).map fun i=>(Node.key p i,Node.child p i)).take slot ++
   (sep,child) :: ((range (Node.count p)).map fun i=>(Node.key p i,Node.child p i)).drop slot :=
 range_insert _ _ _ _ hs

lemma gatherLeaf_eq (p:Bytes) (slot:ℕ) (cell:Bytes) (hs:slot≤Node.count p) : gatherLeaf p slot cell =
  ((range (Node.count p)).map fun i=> slice p (Node.slot p i) (Node.cellSize p i)).take slot++cell ::
  ((range (Node.count p)).map fun i=> slice p (Node.slot p i) (Node.cellSize p i)).drop slot :=
 range_insert _ _ _ _ hs

end BTree

@[simp] lemma buildInteriorCell_length (key:Bytes) (child:ℕ) :
 (buildInteriorCell key child).length=kInteriorCellHdr+key.length := by
 simp only [buildInteriorCell,length_append,toLE_length,kInteriorCellHdr]

lemma buildInteriorCell_keyLen (key:Bytes) (child:ℕ) (hk:key.length<2^16) :
 getU16 (buildInteriorCell key child) 0=key.length := by
 rw [buildInteriorCell,append_assoc]
 exact getLE_middle 2 key.length [] _ 0 rfl (by omega)

lemma buildInteriorCell_child (key:Bytes) (child:ℕ) (hc:child<2^64) : getU64 (buildInteriorCell key child) 2=child :=
 getLE_middle 8 child _ key 2 (toLE_length _ _) (lt_of_lt_of_eq hc (by norm_num))

lemma buildInteriorCell_key (key:Bytes) (child:ℕ) : slice (buildInteriorCell key child) kInteriorCellHdr key.length=key := by
 have hl:(toLE 2 key.length++toLE 8 child).length=10:=by simp
 rw [buildInteriorCell,slice_append_right _ _ _ _ (by rw [hl]; simp only [kInteriorCellHdr]; omega),
  hl,kInteriorCellHdr,Nat.sub_self,slice_all]

lemma buildInteriorCell_sized (key:Bytes) (child:ℕ) (hk:key.length<2^16) :
 cellBytes kInterior (buildInteriorCell key child)=(buildInteriorCell key child).length := by
 rw [cellBytes,if_neg (by decide),buildInteriorCell_keyLen key child hk,buildInteriorCell_length]

lemma putU64_buildInteriorCell (key:Bytes) (child child':ℕ) :
 putU64 (buildInteriorCell key child) 2 child'=buildInteriorCell key child' :=
 patch_middle _ _ _ _ _ (toLE_length _ _) (by simp only [toLE_length])

section InteriorPage
variable {ps:ℕ} {p:Bytes} {cells:List Bytes} {i:ℕ}

lemma interior_key {key:Bytes} {child:ℕ} (h:Slotted ps p kInterior cells)
 (hi:cells[i]? = some (buildInteriorCell key child)) (hk:key.length<2^16) : Node.key p i=key := by
 have hl:Node.isLeaf p=false:=by rw [h.isLeaf_eq]; rfl
 rw [Node.key,hl,h.keyLen_eq hi,buildInteriorCell_keyLen key child hk]
 simp only [Bool.false_eq_true,if_false]
 rw [h.slice_cell hi _ _ (by rw [buildInteriorCell_length]),buildInteriorCell_key]

lemma interior_child {key:Bytes} {child:ℕ} (h:Slotted ps p kInterior cells)
 (hi:cells[i]? = some (buildInteriorCell key child)) (hc:child<2^64) : Node.child p i=child := by
 rw [Node.child,getU64,h.getLE_cell hi 8 2 (by rw [buildInteriorCell_length]; simp only [kInteriorCellHdr]; omega)]
 exact buildInteriorCell_child key child hc

end InteriorPage

section LeafCell
variable (key inlineValue:Bytes) (ov:Bool) (total first:ℕ)

lemma buildLeafCell_length :
 (buildLeafCell key inlineValue ov total first).length =
  kLeafCellHdr+key.length+(if ov then 8 else inlineValue.length) := by
 cases ov <;> simp only [buildLeafCell,length_append,toLE_length,kLeafCellHdr,if_true,Bool.false_eq_true,if_false]

lemma buildLeafCell_keyLen (hk:key.length<2^16) : getU16 (buildLeafCell key inlineValue ov total first) 0=key.length := by
 rw [buildLeafCell,append_assoc,append_assoc,append_assoc]
 exact getLE_middle 2 key.length [] _ 0 rfl (by omega)

lemma buildLeafCell_flags : getLE 1 (buildLeafCell key inlineValue ov total first) 2%2=1 ↔ ov=true := by
 rw [buildLeafCell,append_assoc,append_assoc,getLE_middle 1 _ _ _ 2 (toLE_length _ _) (by split <;> omega)]
 cases ov <;> simp

lemma buildLeafCell_valueLen (ht:total<2^32) : getU32 (buildLeafCell key inlineValue ov total first) 3=total := by
 rw [buildLeafCell,append_assoc]
 exact getLE_middle 4 total _ _ 3 (by simp) (by omega)

lemma buildLeafCell_key : slice (buildLeafCell key inlineValue ov total first) kLeafCellHdr key.length=key :=
 slice_middle _ key _ _ _ (by simp [kLeafCellHdr]) rfl

lemma buildLeafCell_inline (l:ℕ) (hl:inlineValue.length=l) :
 slice (buildLeafCell key inlineValue false total first) (kLeafCellHdr+key.length) l = inlineValue := by
 have h:=slice_middle (toLE 2 key.length++toLE 1 0++toLE 4 total++key) inlineValue []
  (kLeafCellHdr+key.length) l (by simp [kLeafCellHdr]; omega) hl
 simpa [buildLeafCell] using h

lemma buildLeafCell_overflowPage (hf:first<2^64) :
 getU64 (buildLeafCell key inlineValue true total first) (kLeafCellHdr+key.length)=first := by
 have h:=getLE_middle 8 first (toLE 2 key.length++toLE 1 1++toLE 4 total++key) []
  (kLeafCellHdr+key.length) (by simp [kLeafCellHdr]; omega)
  (lt_of_lt_of_eq hf (by norm_num))
 simpa [buildLeafCell] using h

lemma buildLeafCell_sized (hk:key.length<2^16) (ht:total<2^32) (hv:ov=false → inlineValue.length=total) :
 cellBytes kLeaf (buildLeafCell key inlineValue ov total first) = (buildLeafCell key inlineValue ov total first).length := by
 rw [cellBytes,if_pos rfl,buildLeafCell_keyLen key inlineValue ov total first hk,
  buildLeafCell_valueLen key inlineValue ov total first ht,buildLeafCell_length]
 simp only [buildLeafCell_flags]
 cases ov with
 | true=>rfl
 | false=>simp [hv rfl]

end LeafCell

section LeafPage
variable {ps:ℕ} {p:Bytes} {cells:List Bytes} {i:ℕ} {key inlineValue:Bytes} {ov:Bool}
 {total first:ℕ}

lemma leaf_key (h:Slotted ps p kLeaf cells) (hi:cells[i]? = some (buildLeafCell key inlineValue ov total first))
 (hk:key.length<2^16) : Node.key p i=key := by
 have hl:Node.isLeaf p=true:=by rw [h.isLeaf_eq]; rfl
 rw [Node.key,hl,h.keyLen_eq hi,buildLeafCell_keyLen key inlineValue ov total first hk]
 simp only [if_true]
 rw [h.slice_cell hi _ _ (by rw [buildLeafCell_length]; omega),buildLeafCell_key]

lemma leaf_overflowed (h:Slotted ps p kLeaf cells)
 (hi:cells[i]? = some (buildLeafCell key inlineValue ov total first)) : Node.overflowed p i=ov := by
 have hf:Node.flags p i=getLE 1 (buildLeafCell key inlineValue ov total first) 2:=
  h.getLE_cell hi 1 2 (by have:=(h.header_le hi).1; omega)
 rw [Node.overflowed,hf,Bool.eq_iff_iff,beq_iff_eq]
 exact buildLeafCell_flags key inlineValue ov total first

lemma leaf_valueLen (h:Slotted ps p kLeaf cells)
 (hi:cells[i]? = some (buildLeafCell key inlineValue ov total first)) (ht:total<2^32) : Node.valueLen p i=total := by
 rw [Node.valueLen,getU32,h.getLE_cell hi 4 3 (by have:=(h.header_le hi).1; omega)]
 exact buildLeafCell_valueLen key inlineValue ov total first ht

lemma leaf_inlineValue (h:Slotted ps p kLeaf cells) (hi:cells[i]? = some (buildLeafCell key inlineValue false total first))
 (hk:key.length<2^16) (ht:total<2^32) (hv:inlineValue.length=total) : Node.inlineValue p i=inlineValue := by
 rw [Node.inlineValue,leaf_valueLen h hi ht,h.keyLen_eq hi,buildLeafCell_keyLen key inlineValue false total first hk,
  h.slice_cell hi _ _ (by rw [buildLeafCell_length]; simp [hv]),buildLeafCell_inline _ _ _ _ _ hv]

lemma leaf_overflowPage (h:Slotted ps p kLeaf cells) (hi:cells[i]? = some (buildLeafCell key inlineValue true total first))
 (hk:key.length<2^16) (hf:first<2^64) : Node.overflowPage p i=first := by
 rw [Node.overflowPage,getU64,h.keyLen_eq hi,buildLeafCell_keyLen key inlineValue true total first hk,
  h.getLE_cell hi 8 _ (by rw [buildLeafCell_length]; simp)]
 exact buildLeafCell_overflowPage _ _ _ _ hf

end LeafPage

lemma fillCells_slotted {ps ty:ℕ} (cells:List Bytes) {p:Bytes} {A:List Bytes}
 (h:Slotted ps p ty A) (hfrag:Node.frag p=0) (hsized:∀ c∈cells,cellBytes ty c=c.length)
 (hw:weight (A++cells)+kHdr≤ps-4) : Slotted ps (fillCells p A.length cells) ty (A++cells) ∧
  Node.frag (fillCells p A.length cells)=0 ∧ Node.right (fillCells p A.length cells)=Node.right p ∧
  Node.prev (fillCells p A.length cells)=Node.prev p := by
 induction cells generalizing p A with
 | nil=>
  rw [append_nil]
  exact ⟨h,hfrag,rfl,rfl⟩
 | cons c cells ih=>
  have hA:Slotted ps p ty (A++[]):=by rwa [append_nil]
  have hf:Node.fits p c.length=true:=by
   apply h.fits_of_no_frag hfrag
   simp only [weight_append,weight_cons] at hw
   omega
  have hins:=hA.insertCell (hsized c mem_cons_self) hf
  have ih':=ih hins ((hA.insertCell_frag hf).trans hfrag) (fun d hd=>hsized d (mem_cons_of_mem _ hd))
   (by simpa only [append_assoc,cons_append,nil_append] using hw)
  rw [length_append,length_singleton,append_assoc] at ih'
  obtain ⟨h1,h2,h3,h4⟩:=ih'
  exact ⟨h1,h2,h3.trans (hA.insertCell_right hf),h4.trans (hA.insertCell_prev hf)⟩

namespace BTree
variable {ps:ℕ} (hmin:kMinPageSize ≤ ps) (hmax:ps ≤ kMaxPageSize)
include hmin hmax

lemma interiorImage_slotted (cells:List (Bytes × ℕ)) (right:ℕ) (hk:∀ c∈cells,c.1.length<2^16) (hr:right<2^64)
 (hw:weight (cells.map fun c=>buildInteriorCell c.1 c.2)+kHdr≤ps-4) :
 Slotted ps (interiorImage ps cells right) kInterior (cells.map fun c=>buildInteriorCell c.1 c.2) ∧
  Node.right (interiorImage ps cells right)=right := by
 have hinit:Slotted ps (Node.init ps kInterior) kInterior []:=
  Slotted.init hmin hmax (by decide)
 have hsized:∀ c∈cells.map fun c=>buildInteriorCell c.1 c.2,cellBytes kInterior c=c.length:=by
  intro c hc
  obtain ⟨d,hd,rfl⟩:=mem_map.mp hc
  exact buildInteriorCell_sized d.1 d.2 (hk d hd)
 obtain ⟨h1,_,_,_⟩:=fillCells_slotted _ hinit (Node.init_frag ps kInterior hmin) hsized (by rwa [nil_append])
 rw [nil_append,length_nil] at h1
 exact ⟨h1.setRight right,h1.setRight_right hr⟩

lemma leafImage_slotted (cells:List Bytes) (prev right:ℕ)
 (hs:∀ c∈cells,cellBytes kLeaf c=c.length) (hp:prev<2^64) (hr:right<2^64) (hw:weight cells+kHdr≤ps-4) :
 Slotted ps (leafImage ps cells prev right) kLeaf cells ∧ Node.prev (leafImage ps cells prev right)=prev ∧
  Node.right (leafImage ps cells prev right)=right := by
 have hinit:Slotted ps (Node.init ps kLeaf) kLeaf []:=Slotted.init hmin hmax (by decide)
 obtain ⟨h1,_,_,_⟩:=fillCells_slotted cells hinit (Node.init_frag ps kLeaf hmin) hs (by rwa [nil_append])
 rw [nil_append,length_nil] at h1
 refine ⟨(h1.setPrev prev).setRight right,?_,(h1.setPrev prev).setRight_right hr⟩
 rw [leafImage,Node.setRight_prev]
 exact h1.setPrev_prev hp

end BTree

end Archivum.BTreeModel
