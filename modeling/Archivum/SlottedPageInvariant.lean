import Archivum.SlottedPage

set_option autoImplicit false

/-!
# The slotted-page invariant through every page operation

Each operation of `Node` is stated on the list of cells: where `insert_cell`
puts a cell, which cell `remove_cell` drops, that `set_child` rewrites one cell
in place and that `defragment` moves cells without changing any.
-/
namespace Archivum.SlottedPage
open ByteStrings PageTxn List Node

private lemma getElem?_append_cons {A B:List Bytes} {c d:Bytes} {i:ℕ} (h:(A++c::B)[i]? = some d) :
 (i<A.length ∧ (A++B)[i]? = some d) ∨ (i=A.length ∧ d=c) ∨ ∃ j,i=j+1 ∧ A.length≤j ∧ (A++B)[j]? = some d := by
 rcases Nat.lt_trichotomy i A.length with hi | hi | hi
 · left
   rw [getElem?_append_left hi] at h ⊢
   exact ⟨hi,h⟩
 · right; left
   subst hi
   simp only [getElem?_append_right (Nat.le_refl _),Nat.sub_self,getElem?_cons_zero,Option.some.injEq] at h
   exact ⟨rfl,h.symm⟩
 · right; right
   obtain ⟨j,rfl⟩:∃ j,i=j+1:=⟨i-1,by omega⟩
   refine ⟨j,rfl,by omega,?_⟩
   rw [getElem?_append_right (by omega),show j+1-A.length=(j-A.length)+1 by omega,getElem?_cons_succ] at h
   rw [getElem?_append_right (by omega),h]

private lemma getElem?_append_drop {A B:List Bytes} {c d:Bytes} {i:ℕ} (h:(A++B)[i]? = some d) :
 (i<A.length ∧ (A++c::B)[i]? = some d) ∨ (A.length ≤ i ∧ (A++c::B)[i+1]? = some d) := by
 rcases Nat.lt_or_ge i A.length with hi | hi
 · left
   rw [getElem?_append_left hi] at h ⊢
   exact ⟨hi,h⟩
 · right
   rw [getElem?_append_right hi] at h
   rw [getElem?_append_right (by omega),show i+1-A.length=(i-A.length)+1 by omega,getElem?_cons_succ,h]
   exact ⟨hi,rfl⟩

namespace Slotted
variable {ps ty:ℕ} {p:Bytes} {cells A B:List Bytes} {c:Bytes}

lemma content_le (h:Slotted ps p ty cells) : contentStart p≤ps-4 := by
 have:=h.account
 omega

lemma count_lt (h:Slotted ps p ty cells) : cells.length<2^15 := by
 have h1:=h.slots_le
 have h2:=h.content_le
 have h3:ps≤65536:=h.size_max
 simp only [kHdr] at h1
 omega

lemma mem_of_get {i:ℕ} (hi:cells[i]? = some c) : c∈cells := mem_of_getElem? hi

lemma header_le (h:Slotted ps p ty cells) {i:ℕ} (hi:cells[i]? = some c) : 7 ≤ c.length ∧ (ty≠kLeaf → 10 ≤ c.length) := by
 have hs:=h.sized c (mem_of_get hi)
 simp only [cellBytes,kLeafCellHdr,kInteriorCellHdr] at hs
 by_cases hty:ty=kLeaf
 · rw [if_pos hty] at hs
   exact ⟨by omega,fun hn=>absurd hty hn⟩
 · rw [if_neg hty] at hs
   exact ⟨by omega,fun _=>by omega⟩

lemma slice_cell (h:Slotted ps p ty cells) {i:ℕ} (hi:cells[i]? = some c) (o l:ℕ)
 (hol:o+l ≤ c.length) : slice p (slot p i+o) l=slice c o l := by
 conv_rhs=>rw [← h.bytes i c hi]
 rw [slice_slice _ _ _ _ _ hol]

lemma getLE_cell (h:Slotted ps p ty cells) {i:ℕ} (hi:cells[i]? = some c) (n o:ℕ)
 (hol:o+n ≤ c.length) : getLE n p (slot p i+o)=getLE n c o := by
 rw [getLE,getLE,h.slice_cell hi o n hol]

lemma keyLen_eq (h:Slotted ps p ty cells) {i:ℕ} (hi:cells[i]? = some c) : keyLen p i=getU16 c 0 :=
 h.getLE_cell hi 2 0 (by have:=(h.header_le hi).1; omega)

lemma isLeaf_eq (h:Slotted ps p ty cells) : isLeaf p=(ty == kLeaf) := by
 rw [isLeaf,h.type]

lemma cellSize_eq (h:Slotted ps p ty cells) {i:ℕ} (hi:cells[i]? = some c) : cellSize p i=c.length := by
 have hlen:=h.header_le hi
 rw [← h.sized c (mem_of_get hi),cellSize,cellBytes,h.isLeaf_eq,h.keyLen_eq hi]
 by_cases hty:ty=kLeaf
 · have hf:flags p i=getLE 1 c 2:=h.getLE_cell hi 1 2 (by omega)
   have hv:valueLen p i=getU32 c 3:=h.getLE_cell hi 4 3 (by omega)
   simp only [hty,beq_self_eq_true,if_true,overflowed,hf,hv,beq_iff_eq]
 · simp only [beq_iff_eq,hty,if_false]

lemma init (hmin:kMinPageSize≤ps) (hmax:ps≤kMaxPageSize) (hty:ty<256) : Slotted ps (init ps ty) ty [] := by
 have h1:512≤ps:=hmin
 have h2:ps≤65536:=hmax
 have hl:(replicate ps (0:UInt8)).length=ps:=length_replicate
 have hcs:Node.contentStart (Node.init ps ty)=ps-4:=by
  simp only [Node.init,Node.contentStart,Node.setPrev,Node.setRight,Node.setFrag,setContentStart,putU64,putU16,getU16]
  rw [getLE_putLE_disjoint _ _ _ _ _ _ (by omega),getLE_putLE_disjoint _ _ _ _ _ _ (by omega),
   getLE_putLE_disjoint _ _ _ _ _ _ (by omega)]
  exact getLE_putLE_self 2 _ 4 _ (by simp only [setCount,putLE_length,hl]; omega)
   (by simp only [usable,kPageTrailerBytes]; omega)
 have hfr:Node.frag (Node.init ps ty)=0:=by
  simp only [Node.init,Node.frag,Node.setPrev,Node.setRight,Node.setFrag,putU64,putU16,getU16]
  rw [getLE_putLE_disjoint _ _ _ _ _ _ (by omega),getLE_putLE_disjoint _ _ _ _ _ _ (by omega)]
  exact getLE_putLE_self 2 _ 6 _ (by simp only [setCount,setContentStart,putLE_length,hl]; omega) (by omega)
 refine ⟨hmin,hmax,?_,?_,?_,?_,fun _ _ hi=>(by cases hi),fun _ _ hi=>(by cases hi),
  fun _ _ hi=>(by cases hi),fun _ hc=>(by cases hc),fun _ _ _ _ _ hi=>(by cases hi),?_⟩
 · simp only [Node.init,Node.setPrev,Node.setRight,Node.setFrag,Node.setContentStart,Node.setCount,putLE_length,hl]
 · simp only [Node.init,Node.type,Node.setPrev,Node.setRight,Node.setFrag,Node.setContentStart,Node.setCount,putU64,putU16]
   rw [getLE_putLE_disjoint _ _ _ _ _ _ (by omega),getLE_putLE_disjoint _ _ _ _ _ _ (by omega),
    getLE_putLE_disjoint _ _ _ _ _ _ (by omega),getLE_putLE_disjoint _ _ _ _ _ _ (by omega),
    getLE_putLE_disjoint _ _ _ _ _ _ (by omega)]
   exact getLE_putLE_self 1 _ 0 _ (by omega) (by omega)
 · simp only [Node.init,Node.count,Node.setPrev,Node.setRight,Node.setFrag,
    Node.setContentStart,Node.setCount,putU64,putU16,getU16]
   rw [getLE_putLE_disjoint _ _ _ _ _ _ (by omega),getLE_putLE_disjoint _ _ _ _ _ _ (by omega),
    getLE_putLE_disjoint _ _ _ _ _ _ (by omega),getLE_putLE_disjoint _ _ _ _ _ _ (by omega)]
   exact getLE_putLE_self 2 _ 2 _ (by simp only [putLE_length,hl]; omega) (by omega)
 · rw [hcs]
   simp only [kHdr,length_nil]
   omega
 · rw [hcs,hfr]
   simp

lemma insertCell (h:Slotted ps p ty (A++B)) (hc:cellBytes ty c=c.length) (hf:Node.fits p c.length=true) :
 Slotted ps (Node.insertCell p A.length c) ty (A++c::B) := by
 have hcount:=h.count
 have hle:=h.content_le
 have hlt:=h.count_lt
 have hsl:=h.slots_le
 have hmax:ps≤65536:=h.size_max
 simp only [Node.fits,decide_eq_true_eq,Node.freeSpace,hcount] at hf
 rw [length_append] at hcount hf hsl hlt
 obtain ⟨off,hoff⟩:∃ off,off+c.length=Node.contentStart p:=
  ⟨Node.contentStart p-c.length,by omega⟩
 have hat:A.length≤A.length+B.length:=Nat.le_add_right _ _
 have hfit:kHdr+2*(A.length+B.length+1)≤off:=by omega
 have hlen:off+c.length≤p.length:=by rw [h.length]; omega
 have hcs':Node.contentStart (Node.insertCell p A.length c)=off:=
  Node.insertCell_contentStart hcount hoff hfit hlen
 have hframe:∀ o l,off+c.length≤o →
   slice (Node.insertCell p A.length c) o l=slice p o l:=by
  intro o l ho
  simp only [kHdr] at hfit
  exact Node.insertCell_slice hcount hoff o l (by omega) (by simp only [kHdr]; omega) hat
   (Or.inr ho)
 -- where each cell of the new list sits: an old slot, or the new offset
 have hslot:∀ i d,(A++c::B)[i]? = some d → (i=A.length ∧ d=c ∧ Node.slot (Node.insertCell p A.length c) i=off) ∨
   ∃ j,(A++B)[j]? = some d ∧ Node.slot (Node.insertCell p A.length c) i=Node.slot p j ∧
    (i<A.length ∧ j=i ∨ A.length < i ∧ i=j+1):=by
  intro i d hi
  rcases getElem?_append_cons hi with ⟨hlt',hd⟩ | ⟨rfl,rfl⟩ | ⟨j,rfl,hj,hd⟩
  · exact Or.inr ⟨i,hd,Node.insertCell_slot_before hcount hat hoff hfit i hlt',Or.inl ⟨hlt',rfl⟩⟩
  · exact Or.inl ⟨rfl,rfl,Node.insertCell_slot_at hcount hat hoff hfit hlen⟩
  · have hjn:j<A.length+B.length:=by
     have:=(List.getElem?_eq_some_iff.mp hd).1
     rwa [List.length_append] at this
    exact Or.inr ⟨j,hd,Node.insertCell_slot_after hcount hat hoff hfit hlen j hj hjn,Or.inr ⟨by omega,rfl⟩⟩
 refine ⟨h.size_min,h.size_max,?_,?_,?_,?_,?_,?_,?_,?_,?_,?_⟩
 · rw [Node.insertCell_length,h.length]
 · rw [Node.type,getLE,Node.insertCell_slice hcount hoff 0 1 (by omega)
    (by simp only [kHdr]; omega) hat (by simp only [kHdr] at hfit; omega)]
   exact h.type
 · rw [Node.insertCell_count hcount hoff hfit hlen (by omega)]
   simp only [length_append,length_cons]
   omega
 · rw [hcs']
   simp only [length_append,length_cons]
   omega
 · intro i d hi
   rcases hslot i d hi with ⟨_,_,hs⟩ | ⟨j,hj,hs,_⟩
   · rw [hs,hcs']
   · have:=h.lo j d hj
     rw [hs,hcs']
     omega
 · intro i d hi
   rcases hslot i d hi with ⟨_,rfl,hs⟩ | ⟨j,hj,hs,_⟩
   · rw [hs]
     omega
   · rw [hs]
     exact h.hi j d hj
 · intro i d hi
   rcases hslot i d hi with ⟨_,rfl,hs⟩ | ⟨j,hj,hs,_⟩
   · rw [hs]
     exact Node.insertCell_cell hcount hat hoff hfit hlen
   · have:=h.lo j d hj
     rw [hs,hframe _ _ (by omega)]
     exact h.bytes j d hj
 · intro d hd
   rcases mem_append.mp hd with hd | hd
   · exact h.sized d (mem_append_left _ hd)
   · rcases mem_cons.mp hd with rfl | hd
     · exact hc
     · exact h.sized d (mem_append_right _ hd)
 · intro i j d e hij hi hj
   rcases hslot i d hi with ⟨hi1,rfl,hs⟩ | ⟨i',hi',hs,hi2⟩
   · rcases hslot j e hj with ⟨hj1,_,_⟩ | ⟨j',hj',hs',_⟩
     · omega
     · have:=h.lo j' e hj'
       rw [hs,hs']
       omega
   · rcases hslot j e hj with ⟨_,rfl,hs'⟩ | ⟨j',hj',hs',hj2⟩
     · have:=h.lo i' d hi'
       rw [hs,hs']
       omega
     · rw [hs,hs']
       exact h.apart i' j' d e (by omega) hi' hj'
 · have hacc:=h.account
   have hfr:Node.frag (Node.insertCell p A.length c)=Node.frag p:=by
    rw [Node.frag,getU16,getLE,Node.insertCell_slice hcount hoff 6 2 (by omega)
     (by simp only [kHdr]; omega) hat (by simp only [kHdr] at hfit; omega)]
    rfl
   rw [hcs',hfr]
   simp only [map_append,map_cons,sum_append,sum_cons] at hacc ⊢
   omega

end Slotted

namespace Slotted
variable {ps ty:ℕ} {p p':Bytes} {cells A B:List Bytes} {c:Bytes}

lemma removeCell (h:Slotted ps p ty (A++c::B)) : Slotted ps (Node.removeCell p A.length) ty (A++B) := by
 have hmax:ps≤65536:=h.size_max
 have hcount:Node.count p=A.length+B.length+1:=by
  rw [h.count,length_append,length_cons]
  omega
 have hat:A.length<A.length+B.length+1:=by omega
 have hle:=h.content_le
 have hsl:kHdr+2*(A.length+B.length+1)≤Node.contentStart p:=by
  have:=h.slots_le
  rw [length_append,length_cons] at this
  omega
 have hlen:kHdr+2*(A.length+B.length+1)≤p.length:=by
  rw [h.length]
  omega
 have hsize:Node.cellSize p A.length=c.length:=
  h.cellSize_eq (by rw [getElem?_append_right (Nat.le_refl _)]; simp)
 have hacc:=h.account
 simp only [map_append,map_cons,sum_append,sum_cons] at hacc
 have hslot:∀ i d,(A++B)[i]? = some d → ∃ j,(A++c::B)[j]? = some d ∧ Node.slot (Node.removeCell p A.length) i=Node.slot p j ∧
   (i<A.length ∧ j=i ∨ A.length ≤ i ∧ j=i+1):=by
  intro i d hi
  have hin:=(List.getElem?_eq_some_iff.mp hi).1
  rw [List.length_append] at hin
  rcases getElem?_append_drop (c:=c) hi with ⟨hlt,hd⟩ | ⟨hge,hd⟩
  · exact ⟨i,hd,Node.removeCell_slot_before hcount hat i hlt,Or.inl ⟨hlt,rfl⟩⟩
  · exact ⟨i+1,hd,Node.removeCell_slot_after hcount hat hlen i hge (by omega),Or.inr ⟨hge,rfl⟩⟩
 have hcs:Node.contentStart (Node.removeCell p A.length)=Node.contentStart p:=by
  rw [Node.contentStart,getU16,getLE,Node.removeCell_slice hcount hat 4 2 (by omega)
   (by omega) (by simp only [kHdr]; omega)]
  rfl
 refine ⟨h.size_min,h.size_max,?_,?_,?_,?_,?_,?_,?_,?_,?_,?_⟩
 · rw [Node.removeCell_length,h.length]
 · rw [Node.type,getLE,Node.removeCell_slice hcount hat 0 1 (by omega) (by omega)
    (by simp only [kHdr]; omega)]
   exact h.type
 · rw [Node.removeCell_count hcount hat hlen (by simp only [kHdr] at hsl; omega),length_append]
   omega
 · rw [hcs,length_append]
   omega
 · intro i d hi
   obtain ⟨j,hj,hs,_⟩:=hslot i d hi
   rw [hcs,hs]
   exact h.lo j d hj
 · intro i d hi
   obtain ⟨j,hj,hs,_⟩:=hslot i d hi
   rw [hs]
   exact h.hi j d hj
 · intro i d hi
   obtain ⟨j,hj,hs,_⟩:=hslot i d hi
   have:=h.lo j d hj
   simp only [kHdr] at hsl
   rw [hs,Node.removeCell_slice hcount hat _ _ (by omega) (by omega)
    (by simp only [kHdr]; omega)]
   exact h.bytes j d hj
 · intro d hd
   rcases mem_append.mp hd with hd | hd
   · exact h.sized d (mem_append_left _ hd)
   · exact h.sized d (mem_append_right _ (mem_cons_of_mem _ hd))
 · intro i j d e hij hi hj
   obtain ⟨i',hi',hs,hi2⟩:=hslot i d hi
   obtain ⟨j',hj',hs',hj2⟩:=hslot j e hj
   rw [hs,hs']
   exact h.apart i' j' d e (by omega) hi' hj'
 · rw [hcs,Node.removeCell_frag hcount hlen (by rw [hsize]; omega),hsize]
   simp only [map_append,sum_append]
   omega

lemma of_slices (h:Slotted ps p ty cells) (hl:p'.length=p.length)
 (hs:∀ o l,o+l≤8 ∨ (kHdr≤o ∧ o+l≤ps-4) → slice p' o l=slice p o l) : Slotted ps p' ty cells := by
 have hle:=h.content_le
 have hsl:=h.slots_le
 have hfield:∀ n o,o+n≤8 → getLE n p' o=getLE n p o:=by
  intro n o ho
  rw [getLE,getLE,hs o n (Or.inl ho)]
 have hslot:∀ i d,cells[i]? = some d → slot p' i=slot p i:=by
  intro i d hi
  have hin:=(List.getElem?_eq_some_iff.mp hi).1
  rw [slot,slot,getU16,getU16,getLE,getLE,hs _ _ (Or.inr (by omega))]
 have hcs:contentStart p'=contentStart p:=hfield 2 4 (by omega)
 refine ⟨h.size_min,h.size_max,hl.trans h.length,?_,?_,?_,?_,?_,?_,h.sized,?_,?_⟩
 · rw [← h.type]
   exact hfield 1 0 (by omega)
 · rw [← h.count]
   exact hfield 2 2 (by omega)
 · rw [hcs]
   exact hsl
 · intro i d hi
   rw [hcs,hslot i d hi]
   exact h.lo i d hi
 · intro i d hi
   rw [hslot i d hi]
   exact h.hi i d hi
 · intro i d hi
   have h1:=h.lo i d hi
   have h2:=h.hi i d hi
   rw [hslot i d hi,hs _ _ (Or.inr (by omega))]
   exact h.bytes i d hi
 · intro i j d e hij hi hj
   rw [hslot i d hi,hslot j e hj]
   exact h.apart i j d e hij hi hj
 · rw [hcs,show frag p'=frag p from hfield 2 6 (by omega)]
   exact h.account

lemma setRight (h:Slotted ps p ty cells) (v:ℕ) : Slotted ps (setRight p v) ty cells :=
 h.of_slices (putLE_length _ _ _ _) (fun o l ho=>slice_putLE_disjoint _ _ _ _ _ _ (by simp only [kHdr] at ho; omega))

lemma setPrev (h:Slotted ps p ty cells) (v:ℕ) : Slotted ps (setPrev p v) ty cells :=
 h.of_slices (putLE_length _ _ _ _) (fun o l ho=>slice_putLE_disjoint _ _ _ _ _ _ (by simp only [kHdr] at ho; omega))

lemma setChild (h:Slotted ps p kInterior (A++c::B)) (v:ℕ) :
 Slotted ps (Node.setChild p A.length v) kInterior (A++putU64 c 2 v::B) := by
 have hc:(A++c::B)[A.length]? = some c:=by
  rw [getElem?_append_right (Nat.le_refl _)]
  simp
 have hten:10 ≤ c.length:=(h.header_le hc).2 (by decide)
 have hlo:=h.lo _ c hc
 have hhi:=h.hi _ c hc
 have hsl:=h.slots_le
 rw [length_append,length_cons] at hsl
 have hframe:∀ o l,o+l≤Node.slot p A.length ∨ Node.slot p A.length+c.length≤o →
   slice (Node.setChild p A.length v) o l=slice p o l:=by
  intro o l ho
  exact slice_putLE_disjoint _ _ _ _ _ _ (by omega)
 have hfield:∀ n o,o+n≤kHdr+2*(A.length+B.length+1) →
   getLE n (Node.setChild p A.length v) o=getLE n p o:=by
  intro n o ho
  rw [getLE,getLE,hframe o n (Or.inl (by omega))]
 have hslot:∀ i,i<A.length+B.length+1 →
   Node.slot (Node.setChild p A.length v) i=Node.slot p i:=by
  intro i hi
  exact hfield 2 _ (by omega)
 have hcs:Node.contentStart (Node.setChild p A.length v)=Node.contentStart p:=
  hfield 2 4 (by simp only [kHdr]; omega)
 have hlen':(putU64 c 2 v).length=c.length:=putLE_length _ _ _ _
 -- the new list has the old cells except at the changed position
 have hget:∀ i d,(A++putU64 c 2 v::B)[i]? = some d → i<A.length+B.length+1 ∧ ∃ e,(A++c::B)[i]? = some e ∧ e.length=d.length ∧
    (i=A.length ∧ d=putU64 c 2 v ∧ e=c ∨ i≠A.length ∧ d=e):=by
  intro i d hi
  have hin:=(List.getElem?_eq_some_iff.mp hi).1
  rw [List.length_append,List.length_cons] at hin
  refine ⟨by omega,?_⟩
  rcases getElem?_append_cons hi with ⟨hlt,hd⟩ | ⟨rfl,rfl⟩ | ⟨j,rfl,hj,hd⟩
  · refine ⟨d,?_,rfl,Or.inr ⟨by omega,rfl⟩⟩
    rw [getElem?_append_left hlt] at hd ⊢
    exact hd
  · exact ⟨c,hc,hlen'.symm,Or.inl ⟨rfl,rfl,rfl⟩⟩
  · refine ⟨d,?_,rfl,Or.inr ⟨by omega,rfl⟩⟩
    rw [getElem?_append_right hj] at hd
    rw [getElem?_append_right (by omega),show j+1-A.length=(j-A.length)+1 by omega,getElem?_cons_succ,hd]
 refine ⟨h.size_min,h.size_max,?_,?_,?_,?_,?_,?_,?_,?_,?_,?_⟩
 · exact (putLE_length _ _ _ _).trans h.length
 · rw [← h.type]
   exact hfield 1 0 (by simp only [kHdr]; omega)
 · rw [show Node.count (Node.setChild p A.length v)=Node.count p from
    hfield 2 2 (by simp only [kHdr]; omega),h.count]
   simp only [length_append,length_cons]
 · rw [hcs,length_append,length_cons]
   exact hsl
 · intro i d hi
   obtain ⟨hin,e,he,_,_⟩:=hget i d hi
   rw [hcs,hslot i hin]
   exact h.lo i e he
 · intro i d hi
   obtain ⟨hin,e,he,hl,_⟩:=hget i d hi
   rw [hslot i hin,← hl]
   exact h.hi i e he
 · intro i d hi
   obtain ⟨hin,e,he,hl,hcase⟩:=hget i d hi
   rw [hslot i hin]
   rcases hcase with ⟨hi',hd,_⟩ | ⟨hne,hd⟩
   · subst hi' hd
     have hb:=h.bytes _ c hc
     rw [hlen',Node.setChild,putU64,putLE,
      slice_patch_window _ _ _ _ _ (by rw [h.length]; omega) (by rw [toLE_length]; omega),hb]
     rfl
   · subst hd
     rw [hframe _ _ (h.apart i A.length d c hne he hc)]
     exact h.bytes i d he
 · intro d hd
   rcases mem_append.mp hd with hd | hd
   · exact h.sized d (mem_append_left _ hd)
   · rcases mem_cons.mp hd with rfl | hd
     · have hs:=h.sized c (mem_of_get hc)
       rw [hlen',← hs]
       have hk:getU16 (putU64 c 2 v) 0=getU16 c 0:=
        getLE_putLE_disjoint _ _ _ _ _ _ (by omega)
       rw [cellBytes,cellBytes,if_neg (by decide),if_neg (by decide),hk]
     · exact h.sized d (mem_append_right _ (mem_cons_of_mem _ hd))
 · intro i j d e hij hi hj
   obtain ⟨hin,d',hd',hl,_⟩:=hget i d hi
   obtain ⟨hjn,e',he',hl',_⟩:=hget j e hj
   rw [hslot i hin,hslot j hjn,← hl,← hl']
   exact h.apart i j d' e' hij hd' he'
 · have hacc:=h.account
   rw [hcs,show Node.frag (Node.setChild p A.length v)=Node.frag p from
    hfield 2 6 (by simp only [kHdr]; omega)]
   simp only [map_append,map_cons,sum_append,sum_cons] at hacc ⊢
   rw [hlen']
   exact hacc

end Slotted

/-- Where the copy loop puts cell `i - 1`: the first `i` cells end at the end of the body. -/
def packOff (ps:ℕ) (cells:List Bytes) (i:ℕ) : ℕ :=
 ps-4-((cells.take i).map length).sum

lemma take_sum_succ {cells:List Bytes} {i:ℕ} {c:Bytes} (hi:cells[i]? = some c) : ((cells.take (i+1)).map length).sum =
  ((cells.take i).map length).sum+c.length := by
 rw [take_add_one,hi]
 simp

lemma take_sum_le (cells:List Bytes) (i:ℕ) : ((cells.take i).map length).sum≤(cells.map length).sum := by
 conv_rhs=>rw [← take_append_drop i cells,map_append,sum_append]
 exact Nat.le_add_right _ _

lemma packOff_antitone (ps:ℕ) (cells:List Bytes) {i j:ℕ} (hij:i≤j) : packOff ps cells j≤packOff ps cells i := by
 have h:=take_sum_le (cells.take j) i
 rw [take_take,Nat.min_eq_left hij] at h
 simp only [packOff]
 omega

namespace Node

lemma setSlots_slice (offs:List ℕ) (p:Bytes) (i o l:ℕ) (h:o+l≤kHdr+2*i ∨ kHdr+2*(i+offs.length)≤o) :
 slice (setSlots p i offs) o l=slice p o l := by
 induction offs generalizing p i with
 | nil=>rfl
 | cons off offs ih=>
  rw [length_cons] at h
  rw [setSlots,ih _ _ (by omega),setSlot,slice_putLE_disjoint _ _ _ _ _ _ (by omega)]

lemma setSlots_slot (offs:List ℕ) (p:Bytes) (i j off:ℕ) (hj:offs[j]? = some off)
 (hoff:off<2^16) (hlen:kHdr+2*(i+offs.length)≤p.length) : slot (setSlots p i offs) (i+j)=off := by
 induction offs generalizing p i j with
 | nil=>cases hj
 | cons x offs ih=>
  rw [length_cons] at hlen
  cases j with
  | zero=>
   have hx:x=off:=by simpa using hj
   rw [Nat.add_zero,setSlots,slot,getU16,getLE,setSlots_slice _ _ _ _ _ (by omega),hx]
   exact getLE_putLE_self 2 p _ off (by omega) (by omega)
  | succ j=>
   rw [setSlots,show i+(j+1)=(i+1)+j by omega]
   exact ih (setSlot p i x) (i+1) j (by simpa using hj)
    (by simp only [setSlot,putLE_length]; omega)

@[simp] lemma setSlots_length (offs:List ℕ) (p:Bytes) (i:ℕ) : (setSlots p i offs).length=p.length := by
 induction offs generalizing p i with
 | nil=>rfl
 | cons x offs ih=>rw [setSlots,ih,setSlot,putLE_length]

end Node

namespace Slotted
variable {ps ty:ℕ} {p:Bytes} {cells:List Bytes}

lemma packOff_succ (h:Slotted ps p ty cells) {i:ℕ} {c:Bytes} (hi:cells[i]? = some c) :
 packOff ps cells (i+1)+c.length=packOff ps cells i := by
 have hacc:=h.account
 have hle:=take_sum_le cells (i+1)
 rw [take_sum_succ hi] at hle
 simp only [packOff,take_sum_succ hi]
 omega

lemma packCells_spec (h:Slotted ps p ty cells) (i:ℕ) (hi:i ≤ cells.length) : ∃ scratch,packCells ps p i =
   (packOff ps cells i,scratch,(range i).map (fun j=>packOff ps cells (j+1))) ∧ scratch.length=ps-4 ∧
  ∀ (j:ℕ) (c:Bytes),j < i → cells[j]? = some c → slice scratch (packOff ps cells (j+1)) c.length=c := by
 induction i with
 | zero=>
  refine ⟨_,rfl,by simp [usable,kPageTrailerBytes],?_⟩
  intro j c hj
  omega
 | succ i ih=>
  obtain ⟨scratch,hrun,hlen,hcells⟩:=ih (by omega)
  obtain ⟨c,hc⟩:∃ c,cells[i]? = some c:=⟨_,getElem?_eq_getElem (by omega)⟩
  have hstep:=h.packOff_succ hc
  have hoff:packOff ps cells i-c.length=packOff ps cells (i+1):=by omega
  have htop:packOff ps cells i≤ps-4:=Nat.sub_le _ _
  refine ⟨patch scratch (packOff ps cells (i+1)) c,?_,?_,?_⟩
  · simp only [packCells,hrun,h.cellSize_eq hc,hoff,h.bytes i c hc,range_succ,map_append,map_cons,map_nil]
  · rw [patch_length,hlen]
  · intro j d hj hd
    rcases Nat.lt_succ_iff_lt_or_eq.mp hj with hlt | rfl
    · have hstep':=h.packOff_succ hd
      have hmono:=packOff_antitone ps cells (show j+1 ≤ i by omega)
      rw [slice_patch_disjoint _ _ _ _ _ (by omega)]
      exact hcells j d hlt hd
    · rw [hc] at hd
      cases hd
      exact slice_patch_self _ _ _ (by omega)

lemma defragment (h:Slotted ps p ty cells) :
 Slotted ps (Node.defragment ps p) ty cells ∧ Node.frag (Node.defragment ps p)=0 ∧
  Node.contentStart (Node.defragment ps p)=Node.contentStart p+Node.frag p ∧
  ∀ o l,8≤o → o+l≤kHdr → slice (Node.defragment ps p) o l=slice p o l := by
 have hmax:ps≤65536:=h.size_max
 have hmin:512≤ps:=h.size_min
 have hsl:=h.slots_le
 have hacc:=h.account
 obtain ⟨scratch,hrun,hslen,hcells⟩:=h.packCells_spec cells.length (Nat.le_refl _)
 have hall:packOff ps cells cells.length=ps-4-(cells.map List.length).sum:=by
  rw [packOff,List.take_length]
 generalize hoffs:(List.range cells.length).map (fun j=>packOff ps cells (j+1))=offs at hrun
 have hol:offs.length=cells.length:=by rw [← hoffs]; simp
 have hoget:∀ (j:ℕ) (c:Bytes),cells[j]? = some c →
   offs[j]? = some (packOff ps cells (j+1)):=by
  intro j c hj
  have hjn:=(List.getElem?_eq_some_iff.mp hj).1
  rw [← hoffs,List.getElem?_map,List.getElem?_range hjn]
  rfl
 generalize hoff:packOff ps cells cells.length=off at hrun hall
 have hge:kHdr+2*cells.length≤off:=by omega
 simp only [kHdr] at hge hsl
 have hsc:(slice scratch off (ps-4-off)).length=ps-4-off:=
  slice_length _ _ _ (by omega)
 have heq:Node.defragment ps p=putU16 (putU16 (Node.setSlots
   (patch p off (slice scratch off (ps-4-off))) 0 offs) 4 off) 6 0:=by
  simp only [Node.defragment,h.count,hrun,Node.usable,kPageTrailerBytes,Node.setContentStart,Node.setFrag]
 -- reads below the slots and outside the two rewritten fields see the old page
 have hframe:∀ o l,o+l≤kHdr → (o+l≤4 ∨ 8≤o) →
   slice (Node.defragment ps p) o l=slice p o l:=by
  intro o l ho hd
  simp only [kHdr] at ho
  rw [heq,slice_putLE_disjoint _ _ _ _ _ _ (by omega),slice_putLE_disjoint _ _ _ _ _ _ (by omega),
   Node.setSlots_slice _ _ _ _ _ (by simp only [kHdr]; omega),slice_patch_disjoint _ _ _ _ _ (by omega)]
 have hfrag:Node.frag (Node.defragment ps p)=0:=by
  rw [heq]
  exact getLE_putLE_self 2 _ 6 0 (by simp only [putLE_length,Node.setSlots_length,patch_length,h.length]; omega) (by omega)
 have hcs:Node.contentStart (Node.defragment ps p)=off:=by
  rw [heq,Node.contentStart,getU16,getLE_putLE_disjoint _ _ _ _ _ _ (by omega)]
  exact getLE_putLE_self 2 _ 4 off (by simp only [Node.setSlots_length,patch_length,h.length]; omega) (by omega)
 have hslot:∀ (j:ℕ) (c:Bytes),cells[j]? = some c →
   Node.slot (Node.defragment ps p) j=packOff ps cells (j+1):=by
  intro j c hj
  have hle:packOff ps cells (j+1)≤ps-4:=Nat.sub_le _ _
  have hs:=Node.setSlots_slot offs (patch p off (slice scratch off (ps-4-off))) 0 j _ (hoget j c hj) (by omega)
   (by simp only [kHdr,patch_length,h.length,hol]; omega)
  rw [Nat.zero_add] at hs
  rw [heq,Node.slot,getU16,getLE_putLE_disjoint _ _ _ _ _ _ (by simp only [kHdr]; omega),
   getLE_putLE_disjoint _ _ _ _ _ _ (by simp only [kHdr]; omega)]
  exact hs
 have hrange:∀ (j:ℕ) (c:Bytes),cells[j]? = some c →
   off≤packOff ps cells (j+1) ∧ packOff ps cells (j+1)+c.length≤ps-4:=by
  intro j c hj
  have hjn:=(List.getElem?_eq_some_iff.mp hj).1
  have hstep:=h.packOff_succ hj
  have htop:packOff ps cells j≤ps-4:=Nat.sub_le _ _
  have hmono:=packOff_antitone ps cells (show j+1 ≤ cells.length by omega)
  rw [hoff] at hmono
  omega
 refine ⟨⟨h.size_min,h.size_max,?_,?_,?_,?_,?_,?_,?_,h.sized,?_,?_⟩,hfrag,?_,?_⟩
 · rw [heq]
   simp only [putLE_length,Node.setSlots_length,patch_length,h.length]
 · rw [Node.type,getLE,hframe 0 1 (by simp only [kHdr]; omega) (by omega)]
   exact h.type
 · rw [Node.count,getU16,getLE,hframe 2 2 (by simp only [kHdr]; omega) (by omega)]
   exact h.count
 · rw [hcs]
   simp only [kHdr]
   omega
 · intro j c hj
   rw [hcs,hslot j c hj]
   exact (hrange j c hj).1
 · intro j c hj
   rw [hslot j c hj]
   exact (hrange j c hj).2
 · intro j c hj
   have hjn:=(List.getElem?_eq_some_iff.mp hj).1
   obtain ⟨h1,h2⟩:=hrange j c hj
   rw [hslot j c hj,heq,slice_putLE_disjoint _ _ _ _ _ _ (by omega),slice_putLE_disjoint _ _ _ _ _ _ (by omega),
    Node.setSlots_slice _ _ _ _ _ (by simp only [kHdr]; omega),
    slice_patch_inside _ _ _ _ _ (by rw [hsc,h.length]; omega) h1 (by omega),
    slice_slice _ _ _ _ _ (by omega),show off+(packOff ps cells (j+1)-off) =
     packOff ps cells (j+1) by omega]
   exact hcells j c hjn hj
 · intro i j c d hij hi hj
   have hsi:=h.packOff_succ hi
   have hsj:=h.packOff_succ hj
   rw [hslot i c hi,hslot j d hj]
   rcases Nat.lt_or_gt_of_ne hij with hlt | hgt
   · have:=packOff_antitone ps cells (show i+1≤j by omega)
     omega
   · have:=packOff_antitone ps cells (show j+1 ≤ i by omega)
     omega
 · rw [hcs,hfrag]
   omega
 · rw [hcs]
   omega
 · intro o l h1 h2
   exact hframe o l h2 (Or.inr h1)

end Slotted

def weight (cells:List Bytes) : ℕ := (cells.map (fun c=>c.length+2)).sum

@[simp] lemma weight_nil : weight []=0 := rfl

@[simp] lemma weight_cons (c:Bytes) (cells:List Bytes) : weight (c::cells)=c.length+2+weight cells := by
 simp only [weight,map_cons,sum_cons]

@[simp] lemma weight_append (A B:List Bytes) : weight (A++B)=weight A+weight B := by
 simp only [weight,map_append,sum_append]

lemma weight_eq (cells:List Bytes) : weight cells=(cells.map length).sum+2*cells.length := by
 induction cells with
 | nil=>rfl
 | cons c cells ih=>
  rw [weight_cons,ih,map_cons,sum_cons,length_cons]
  omega

namespace Slotted
variable {ps ty:ℕ} {p:Bytes} {cells A B:List Bytes} {c:Bytes}

lemma room (h:Slotted ps p ty cells) : freeSpace p+frag p+weight cells+kHdr=ps-4 := by
 have hacc:=h.account
 have hsl:=h.slots_le
 rw [freeSpace,h.count,weight_eq]
 omega

lemma fitsAfterDefrag_iff (h:Slotted ps p ty cells) (n:ℕ) : fitsAfterDefrag p n=true ↔ weight cells+(n+2)+kHdr≤ps-4 := by
 have hroom:=h.room
 rw [fitsAfterDefrag,decide_eq_true_eq]
 omega

lemma fits_imp (h:Slotted ps p ty cells) {n:ℕ} (hf:fits p n=true) : weight cells+(n+2)+kHdr≤ps-4 := by
 have hroom:=h.room
 rw [fits,decide_eq_true_eq] at hf
 omega

lemma weight_le (h:Slotted ps p ty cells) : weight cells+kHdr≤ps-4 := by
 have:=h.room
 omega

lemma fits_defragment (h:Slotted ps p ty cells) {n:ℕ} (hw:weight cells+(n+2)+kHdr≤ps-4) :
 Node.fits (Node.defragment ps p) n=true := by
 obtain ⟨hs,hfrag,_,_⟩:=h.defragment
 have hroom:=hs.room
 rw [Node.fits,decide_eq_true_eq]
 omega

lemma fits_of_no_frag (h:Slotted ps p ty cells) (hfrag:frag p=0) {n:ℕ}
 (hw:weight cells+(n+2)+kHdr≤ps-4) : fits p n=true := by
 have hroom:=h.room
 rw [fits,decide_eq_true_eq]
 omega

lemma insertCell_link (h:Slotted ps p ty (A++B)) (hf:Node.fits p c.length=true) (o l:ℕ) (ho:6≤o) (hl:o+l≤kHdr) :
 slice (Node.insertCell p A.length c) o l=slice p o l := by
 have hcount:=h.count
 have hsl:=h.slots_le
 simp only [Node.fits,decide_eq_true_eq,Node.freeSpace,hcount] at hf
 rw [length_append] at hcount hf hsl
 obtain ⟨off,hoff⟩:∃ off,off+c.length=Node.contentStart p:=
  ⟨Node.contentStart p-c.length,by omega⟩
 exact Node.insertCell_slice hcount hoff o l (by omega) (by omega) (by omega) (by omega)

lemma insertCell_right (h:Slotted ps p ty (A++B)) (hf:Node.fits p c.length=true) :
 Node.right (Node.insertCell p A.length c)=Node.right p := by
 rw [Node.right,getU64,getLE,h.insertCell_link hf 8 8 (by omega) (by simp only [kHdr]; omega)]
 rfl

lemma insertCell_prev (h:Slotted ps p ty (A++B)) (hf:Node.fits p c.length=true) :
 Node.prev (Node.insertCell p A.length c)=Node.prev p := by
 rw [Node.prev,getU64,getLE,h.insertCell_link hf 16 8 (by omega) (by simp only [kHdr]; omega)]
 rfl

lemma insertCell_frag (h:Slotted ps p ty (A++B)) (hf:Node.fits p c.length=true) :
 Node.frag (Node.insertCell p A.length c)=Node.frag p := by
 rw [Node.frag,getU16,getLE,h.insertCell_link hf 6 2 (by omega) (by simp only [kHdr]; omega)]
 rfl

lemma removeCell_link (h:Slotted ps p ty (A++c::B)) (o l:ℕ) (ho:8≤o)
 (hl:o+l≤kHdr) : slice (Node.removeCell p A.length) o l=slice p o l := by
 have hcount:=h.count
 rw [length_append,length_cons] at hcount
 exact Node.removeCell_slice hcount (by omega) o l (by omega) (by omega) (by omega)

lemma removeCell_right (h:Slotted ps p ty (A++c::B)) : Node.right (Node.removeCell p A.length)=Node.right p := by
 rw [Node.right,getU64,getLE,h.removeCell_link 8 8 (by omega) (by simp only [kHdr]; omega)]
 rfl

lemma removeCell_prev (h:Slotted ps p ty (A++c::B)) : Node.prev (Node.removeCell p A.length)=Node.prev p := by
 rw [Node.prev,getU64,getLE,h.removeCell_link 16 8 (by omega) (by simp only [kHdr]; omega)]
 rfl

lemma defragment_right (h:Slotted ps p ty cells) : Node.right (Node.defragment ps p)=Node.right p := by
 rw [Node.right,getU64,getLE,h.defragment.2.2.2 8 8 (by omega) (by simp only [kHdr]; omega)]
 rfl

lemma defragment_prev (h:Slotted ps p ty cells) : Node.prev (Node.defragment ps p)=Node.prev p := by
 rw [Node.prev,getU64,getLE,h.defragment.2.2.2 16 8 (by omega) (by simp only [kHdr]; omega)]
 rfl

lemma setRight_right (h:Slotted ps p ty cells) {v:ℕ} (hv:v<2^64) : Node.right (Node.setRight p v)=v := by
 have hmin:=h.size_min
 simp only [kMinPageSize] at hmin
 have hlen:8+8≤p.length:=by rw [h.length]; omega
 exact getLE_putLE_self 8 p 8 v hlen (lt_of_lt_of_eq hv (by norm_num))

lemma setPrev_prev (h:Slotted ps p ty cells) {v:ℕ} (hv:v<2^64) : Node.prev (Node.setPrev p v)=v := by
 have hmin:=h.size_min
 simp only [kMinPageSize] at hmin
 have hlen:16+8≤p.length:=by rw [h.length]; omega
 exact getLE_putLE_self 8 p 16 v hlen (lt_of_lt_of_eq hv (by norm_num))

end Slotted

@[simp] lemma Node.setRight_prev (p:Bytes) (v:ℕ) : Node.prev (Node.setRight p v)=Node.prev p :=
 getLE_putLE_disjoint _ _ _ _ _ _ (by omega)

@[simp] lemma Node.setPrev_right (p:Bytes) (v:ℕ) : right (setPrev p v)=right p :=
 getLE_putLE_disjoint _ _ _ _ _ _ (by omega)

lemma Node.init_right (ps ty:ℕ) (h:kMinPageSize≤ps) : right (init ps ty)=0 := by
 simp only [kMinPageSize] at h
 simp only [init,setPrev,setRight,right,getU64,putU64]
 rw [getLE_putLE_disjoint _ _ _ _ _ _ (by omega),getLE_putLE_self]
 · simp only [setFrag,setContentStart,setCount,putLE_length,length_replicate]
   omega
 · norm_num

lemma Node.init_prev (ps ty:ℕ) (h:kMinPageSize≤ps) : Node.prev (Node.init ps ty)=0 := by
 simp only [kMinPageSize] at h
 simp only [Node.init,Node.setPrev,Node.prev,getU64,putU64]
 rw [getLE_putLE_self]
 · simp only [Node.setRight,Node.setFrag,Node.setContentStart,Node.setCount,putLE_length,length_replicate]
   omega
 · norm_num

lemma Node.init_frag (ps ty:ℕ) (h:kMinPageSize≤ps) : frag (init ps ty)=0 := by
 simp only [kMinPageSize] at h
 simp only [init,frag,setPrev,setRight,setFrag,putU64,putU16,getU16]
 rw [getLE_putLE_disjoint _ _ _ _ _ _ (by omega),getLE_putLE_disjoint _ _ _ _ _ _ (by omega),getLE_putLE_self]
 · simp only [setCount,setContentStart,putLE_length,length_replicate]
   omega
 · norm_num

end Archivum.SlottedPage
