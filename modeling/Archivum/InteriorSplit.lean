import Archivum.BTreeCells

set_option autoImplicit false

/-!
# The byte balance of an interior split

`insert_separator` divides an overfull interior node by the number of cells,
while the page limit is in bytes. The half that does not receive the new
separator always fits, because it is part of the old node. The half that
receives it fits only if the old cells of that half leave room for it.
-/
namespace Archivum.InteriorSplit
open ByteStrings PageTxn SlottedPage BTreeModel BTreeModel.BTree List Node

/-- Cell bytes and slot of an interior cell with a key of `n` bytes. -/
def cellWeight (n:ℕ) : ℕ := kInteriorCellHdr+n+2

/-- The cells `insert_separator` divides: the node's, redirected, with the new one in place. -/
def splitCells (p:Bytes) (slot:ℕ) (sep:Bytes) (rightPage:ℕ) : List (Bytes × ℕ) :=
 gatherInterior (redirect p slot rightPage) slot sep (childAt p slot)

/-- The cells of the left image, as `insert_separator` builds it. -/
def leftCells (p:Bytes) (slot:ℕ) (sep:Bytes) (rightPage:ℕ) : List (Bytes × ℕ) :=
 (splitCells p slot sep rightPage).take ((splitCells p slot sep rightPage).length/2)

def rightCells (p:Bytes) (slot:ℕ) (sep:Bytes) (rightPage:ℕ) : List (Bytes × ℕ) :=
 (splitCells p slot sep rightPage).drop ((splitCells p slot sep rightPage).length/2+1)

def FitsPage (ps:ℕ) (cells:List (Bytes × ℕ)) : Prop :=
 kHdr+weight (cells.map fun c=>buildInteriorCell c.1 c.2) ≤ usable ps

instance (ps:ℕ) (cells:List (Bytes × ℕ)) : Decidable (FitsPage ps cells) :=
 inferInstanceAs (Decidable (_ ≤ _))

/-- Bytes taken by the node's cells `lo ≤ i < hi`. -/
def cellsWeight (p:Bytes) (lo hi:ℕ) : ℕ :=
 (((range hi).drop lo).map fun i=>cellWeight (keyLen p i)).sum

lemma weight_interior (cells:List (Bytes × ℕ)) : weight (cells.map fun c=>buildInteriorCell c.1 c.2) =
  (cells.map fun c=>cellWeight c.1.length).sum := by
 rw [weight,map_map]
 congr 1
 apply map_congr_left
 intro c _
 simp only [Function.comp_apply,buildInteriorCell_length,cellWeight]

section Node
variable {ps:ℕ} {p:Bytes} {cells:List Bytes}

lemma keyLen_of_cell (h:Slotted ps p kInterior cells) {i:ℕ} {c:Bytes}
 (hi:cells[i]? = some c) : kInteriorCellHdr+keyLen p i=c.length := by
 rw [h.keyLen_eq hi,← h.sized c (mem_of_getElem? hi),cellBytes,if_neg (by decide)]

lemma key_length (h:Slotted ps p kInterior cells) {i:ℕ} (hi:i<cells.length) : (key p i).length=keyLen p i := by
 have hc:cells[i]? = some cells[i]:=getElem?_eq_getElem hi
 have hl:isLeaf p=false:=by rw [h.isLeaf_eq]; rfl
 have hhi:=h.hi i _ hc
 have hk:=keyLen_of_cell h hc
 rw [key,hl]
 simp only [Bool.false_eq_true,if_false]
 exact slice_length _ _ _ (by rw [h.length]; omega)

lemma redirect_slotted (h:Slotted ps p kInterior cells) (slot rightPage:ℕ) :
 ∃ cells',Slotted ps (redirect p slot rightPage) kInterior cells' ∧ cells'.map length=cells.map length := by
 rw [redirect,h.count]
 by_cases hs:slot<cells.length
 · rw [if_pos hs]
   have hsplit:cells=cells.take slot++cells[slot]::cells.drop (slot+1):=by
    rw [getElem_cons_drop,take_append_drop]
   have hlen:(cells.take slot).length=slot:=by simp; omega
   rw [hsplit] at h
   have hset:=h.setChild rightPage
   rw [hlen] at hset
   refine ⟨_,hset,?_⟩
   conv_rhs=>rw [hsplit]
   simp only [map_append,map_cons,putLE_length]
 · rw [if_neg hs]
   exact ⟨cells,h.setRight rightPage,rfl⟩

lemma redirect_count (h:Slotted ps p kInterior cells) (slot rightPage:ℕ) :
 Node.count (redirect p slot rightPage)=cells.length := by
 obtain ⟨cells',h',hl⟩:=redirect_slotted h slot rightPage
 have hlen:=congrArg length hl
 simp only [length_map] at hlen
 rw [h'.count,hlen]

lemma redirect_key_length (h:Slotted ps p kInterior cells) (slot rightPage:ℕ) {i:ℕ} (hi:i<cells.length) :
 (key (redirect p slot rightPage) i).length=keyLen p i := by
 obtain ⟨cells',h',hl⟩:=redirect_slotted h slot rightPage
 have hlen:=congrArg length hl
 simp only [length_map] at hlen
 have hi':i<cells'.length:=by omega
 have hc:=keyLen_of_cell h (getElem?_eq_getElem hi)
 have hc':=keyLen_of_cell h' (getElem?_eq_getElem hi')
 have hget:cells'[i].length=cells[i].length:=by
  have:=congrArg (fun l=>l[i]?) hl
  simpa [getElem?_map,hi,hi'] using this
 rw [key_length h' hi']
 omega

lemma splitCells_weights (h:Slotted ps p kInterior cells) {slot:ℕ} (hs:slot ≤ cells.length)
 (sep:Bytes) (rightPage:ℕ) : (splitCells p slot sep rightPage).map (fun c=>cellWeight c.1.length) =
  ((range cells.length).map fun i=>cellWeight (keyLen p i)).take slot ++ cellWeight sep.length ::
   ((range cells.length).map fun i=>cellWeight (keyLen p i)).drop slot := by
 have hcount:=redirect_count h slot rightPage
 have hw:(range cells.length).map (fun i=>cellWeight (keyLen p i)) =
   ((range cells.length).map fun i=>(key (redirect p slot rightPage) i,
    child (redirect p slot rightPage) i)).map (fun c=>cellWeight c.1.length):=by
  rw [map_map]
  apply map_congr_left
  intro i hi
  simp only [Function.comp_apply,redirect_key_length h slot rightPage (mem_range.mp hi)]
 rw [splitCells,gatherInterior_eq _ _ _ _ (by omega),hcount,hw]
 simp only [map_append,map_cons,map_take,map_drop]

end Node

section Halves
variable (W:List ℕ) (x slot:ℕ)

lemma sum_take_insert (m:ℕ) (hs:slot≤W.length) :
 ((W.take slot++x::W.drop slot).take m).sum =
  if slot < m then x+(W.take (m-1)).sum else (W.take m).sum := by
 have hl:(W.take slot).length=slot:=by simp; omega
 split_ifs with h
 · have hm:m=slot+((m-1-slot)+1):=by omega
   rw [take_append,hl,take_of_length_le (by omega),show m-slot=(m-1-slot)+1 by omega,take_succ_cons,sum_append,sum_cons]
   have hW:W.take (m-1)=W.take slot++(W.drop slot).take (m-1-slot):=by
    rw [← take_add,show slot+(m-1-slot)=m-1 by omega]
   rw [hW,sum_append]
   omega
 · rw [take_append_of_le_length (by omega),take_take,Nat.min_eq_left (by omega)]

lemma sum_drop_insert (m:ℕ) (hs:slot≤W.length) :
 ((W.take slot++x::W.drop slot).drop (m+1)).sum =
  if m<slot then x+(W.drop (m+1)).sum else (W.drop m).sum := by
 have hl:(W.take slot).length=slot:=by simp; omega
 split_ifs with h
 · rw [drop_append_of_le_length (by omega),sum_append,sum_cons]
   have hW:W.drop (m+1)=(W.take slot).drop (m+1)++W.drop slot:=by
    conv_lhs=>rw [← take_append_drop slot W]
    rw [drop_append_of_le_length (by omega)]
   rw [hW,sum_append]
   omega
 · rw [drop_append,hl,drop_of_length_le (by omega),nil_append,
    show m+1-slot=(m-slot)+1 by omega,drop_succ_cons,drop_drop,show slot+(m-slot)=m by omega]

end Halves

/-- The two halves of a split fit exactly when the half that receives the separator does:
with `m` cells going left, the separator and the `m - 1` cells before it, or the separator and
the cells after position `m`. -/
theorem split_fits_iff (ps:ℕ) (p:Bytes) (cells:List Bytes) (slot:ℕ) (sep:Bytes)
  (rightPage:ℕ) (h:Slotted ps p kInterior cells) (hs:slot ≤ cells.length) :
  (FitsPage ps (leftCells p slot sep rightPage) ∧ FitsPage ps (rightCells p slot sep rightPage)) ↔
   (slot<(cells.length+1)/2 →
    kHdr+cellWeight sep.length+cellsWeight p 0 ((cells.length+1)/2-1) ≤
     usable ps) ∧
   ((cells.length+1)/2<slot →
    kHdr+cellWeight sep.length+cellsWeight p ((cells.length+1)/2+1) cells.length ≤
     usable ps) := by
 have hw:=splitCells_weights h hs sep rightPage
 have hlen:(splitCells p slot sep rightPage).length=cells.length+1:=by
  have:=congrArg length hw
  simp only [length_map,length_append,length_cons,length_take,
   length_drop,length_range] at this
  omega
 generalize hW:(range cells.length).map (fun i=>cellWeight (keyLen p i))=W at hw
 have hWlen:W.length=cells.length:=by rw [← hW]; simp
 have hWsum:W.sum+kHdr ≤ usable ps:=by
  have hle:=h.weight_le
  have heq:W.sum=weight cells:=by
   have hcells:W=cells.map fun c=>c.length+2:=by
    apply ext_getElem?
    intro i
    rw [← hW,getElem?_map,getElem?_map]
    by_cases hi:i<cells.length
    · have hk:=keyLen_of_cell h (getElem?_eq_getElem hi)
      rw [getElem?_range hi,getElem?_eq_getElem hi]
      simp only [Option.map_some,cellWeight,hk]
    · rw [getElem?_eq_none (by simpa using hi),getElem?_eq_none (by omega)]
      rfl
   rw [hcells,weight]
  rw [heq]
  exact hle
 have htake:∀ k,(W.take k).sum ≤ W.sum:=by
  intro k
  conv_rhs=>rw [← take_append_drop k W,sum_append]
  exact Nat.le_add_right _ _
 have hdrop:∀ k,(W.drop k).sum ≤ W.sum:=by
  intro k
  conv_rhs=>rw [← take_append_drop k W,sum_append]
  exact Nat.le_add_left _ _
 have hleft:cellsWeight p 0 ((cells.length+1)/2-1) =
   (W.take ((cells.length+1)/2-1)).sum:=by
  rw [cellsWeight,drop_zero,← hW,← map_take,take_range,
   Nat.min_eq_left (by omega)]
 have hright:cellsWeight p ((cells.length+1)/2+1) cells.length =
   (W.drop ((cells.length+1)/2+1)).sum:=by
  rw [cellsWeight,← hW,map_drop]
 rw [FitsPage,FitsPage,weight_interior,weight_interior,leftCells,rightCells,map_take,
  map_drop,hw,hlen,sum_take_insert _ _ _ _ (by omega),
  sum_drop_insert _ _ _ _ (by omega),hleft,hright]
 have h1:=htake ((cells.length+1)/2)
 have h2:=hdrop ((cells.length+1)/2)
 split_ifs <;> omega

/-! ## A node whose split overflows

A 512-byte node with three separators of the greatest length followed by ten one-byte ones. -/

def longKey (last:UInt8) : Bytes := 97::(replicate 102 0++[last])

def skewedCells : List (Bytes × ℕ) :=
 [(longKey 1,2),(longKey 2,3),(longKey 3,4),([98],5),([99],6),([100],7),([101],8),
  ([102],9),([103],10),([104],11),([105],12),([106],13),([107],14)]

def skewedNode : Bytes := interiorImage 512 skewedCells 15

lemma skewedNode_slotted : Slotted 512 skewedNode kInterior (skewedCells.map fun c=>buildInteriorCell c.1 c.2) :=
 (interiorImage_slotted (by decide) (by decide) skewedCells 15 (by decide) (by decide)
  (by decide)).1

/-- A separator with the short keys of the right end goes where there is room. -/
theorem split_fits_short :
  Slotted 512 skewedNode kInterior (skewedCells.map fun c=>buildInteriorCell c.1 c.2) ∧
   FitsPage 512 (leftCells skewedNode 13 [108] 16) ∧
   FitsPage 512 (rightCells skewedNode 13 [108] 16) :=
 ⟨skewedNode_slotted,
  (split_fits_iff 512 skewedNode _ 13 [108] 16 skewedNode_slotted (by decide)).mpr
   (by decide +kernel)⟩

/-- A fourth long separator, in key order after the other three, does not fit in the node, and the
left half of the split does not fit its page. -/
theorem skewed_split_overflows :
  Slotted 512 skewedNode kInterior (skewedCells.map fun c=>buildInteriorCell c.1 c.2) ∧
   ((skewedCells.take 3).map Prod.fst++longKey 4::(skewedCells.drop 3).map Prod.fst).Pairwise
    (fun a b=>compareBytes a b=.lt) ∧
   (∀ c∈skewedCells,c.1.length ≤ maxKeyBytesFor 512) ∧
   (longKey 4).length ≤ maxKeyBytesFor 512 ∧
   fitsAfterDefrag (redirect skewedNode 3 16)
    (buildInteriorCell (longKey 4) (childAt skewedNode 3)).length=false ∧
   ¬(FitsPage 512 (leftCells skewedNode 3 (longKey 4) 16) ∧
    FitsPage 512 (rightCells skewedNode 3 (longKey 4) 16)) :=
 ⟨skewedNode_slotted,by decide +kernel,by decide,by decide,by decide +kernel,
  by decide +kernel⟩

end Archivum.InteriorSplit
