import Archivum.LeafOnPages

set_option autoImplicit false

/-!
# An entry enters a leaf

The abstract step of `insert_into_leaf`: the leaf takes the entry, or it is
divided by cumulative cell size and the first key of the right part goes up as a
separator. A leaf split never makes a half that does not fit its page.
-/
namespace Archivum.TreeShape
open ByteStrings StatefulActions PageTxn SlottedPage BTreeModel InteriorSplit List

lemma weight_take_add_drop (cells:List Bytes) (k:ℕ) : weight (cells.take k)+weight (cells.drop k)=weight cells := by
 rw [← weight_append,take_append_drop]

lemma splitLoop_spec (half:ℕ) (cells:List Bytes) (acc:ℕ) (hne:cells≠[]) :
 BTree.splitLoop half cells acc<cells.length ∧ (BTree.splitLoop half cells acc=0 ∨
   acc+weight (cells.take (BTree.splitLoop half cells acc))<half) ∧ (BTree.splitLoop half cells acc+1=cells.length ∨
   half≤acc+weight (cells.take (BTree.splitLoop half cells acc+1))) := by
 induction cells generalizing acc with
 | nil=>exact absurd rfl hne
 | cons c cells ih=>
  cases cells with
  | nil=>
   refine ⟨?_,Or.inl ?_,Or.inl ?_⟩ <;> simp [BTree.splitLoop]
  | cons d cells=>
   rw [BTree.splitLoop]
   by_cases hlt:acc+c.length+2<half
   · rw [if_pos hlt]
     obtain ⟨h1,h2,h3⟩:=ih (acc+c.length+2) (by simp)
     generalize BTree.splitLoop half (d::cells) (acc+c.length+2)=k at h1 h2 h3 ⊢
     rw [length_cons] at h1
     refine ⟨by rw [length_cons]; simp only [length_cons] at h1 ⊢; omega,Or.inr ?_,?_⟩
     · rw [take_succ_cons,weight_cons]
       rcases h2 with rfl | h2
       · rw [take_zero,weight_nil]
         omega
       · omega
     · rcases h3 with h3 | h3
       · left
         rw [length_cons,h3]
       · right
         rw [take_succ_cons,weight_cons]
         omega
   · rw [if_neg hlt]
     refine ⟨by simp,Or.inl rfl,Or.inr ?_⟩
     rw [Nat.zero_add,take_succ_cons,weight_cons,take_zero,weight_nil]
     omega

lemma splitPoint_spec {ps:ℕ} (hmin:kMinPageSize≤ps) {A B:List Bytes} {c:Bytes}
 (hcells:∀ d∈A++c::B,d.length ≤ maxCellBytes ps) (hold:kHdr+weight (A++B)≤Node.usable ps)
 (hfull:¬kHdr+weight (A++c::B)≤Node.usable ps) : 0<BTree.splitPoint (A++c::B) ∧
  BTree.splitPoint (A++c::B)<(A++c::B).length ∧ kHdr+weight ((A++c::B).take (BTree.splitPoint (A++c::B)))≤Node.usable ps ∧
  kHdr+weight ((A++c::B).drop (BTree.splitPoint (A++c::B)))≤Node.usable ps := by
 have hmin':512≤ps:=hmin
 have hc:=hcells c (by simp)
 have htotal:weight (A++c::B)=weight (A++B)+(c.length+2):=by
  rw [weight_append,weight_append,weight_cons]
  omega
 simp only [Node.usable,kPageTrailerBytes,kHdr] at hold hfull ⊢
 generalize hcs:A++c::B=cells at hcells hfull htotal ⊢
 have hne:cells≠[]:=by rw [← hcs]; simp
 have hw:weight cells/2=(cells.map fun c=>c.length+2).sum/2:=rfl
 have hone:∀ k,k<cells.length →
   weight (cells.take (k+1))≤weight (cells.take k)+(maxCellBytes ps+2):=by
  intro k hk
  have hd:=hcells cells[k] (getElem_mem hk)
  rw [take_add_one,getElem?_eq_getElem hk,weight_append,Option.toList_some,weight_cons,weight_nil]
  omega
 obtain ⟨h1,h2,h3⟩:=splitLoop_spec (weight cells/2) cells 0 hne
 rw [BTree.splitPoint,← hw]
 generalize BTree.splitLoop (weight cells/2) cells 0=k at h1 h2 h3
 have hk:=hone k h1
 have hsum:=weight_take_add_drop cells k
 have hsum1:=weight_take_add_drop cells (k+1)
 simp only [maxCellBytes,kPageTrailerBytes,kHdr] at hc hk hone
 by_cases hk0:k=0
 · subst hk0
   have hlen:cells.length≠1:=by
    intro hl
    have:=hone 0 (by omega)
    rw [Nat.zero_add,take_of_length_le (by omega),take_zero,weight_nil] at this
    omega
   rw [take_zero,weight_nil] at hk
   simp only [if_true,Nat.zero_add] at hk hsum1 h3 ⊢
   refine ⟨by omega,by omega,by omega,by omega⟩
 · rw [if_neg hk0]
   refine ⟨by omega,h1,by omega,?_⟩
   rcases h3 with h3 | h3
   · rw [take_of_length_le (by omega)] at hk
     omega
   · omega

/-- The page operations on a leaf, and its split where every cell is within the limit. -/
theorem leaf_operations {ps:ℕ} {p:Bytes} {cells:List Bytes} (h:Slotted ps p kLeaf cells) :
  (∀ A B c,cells=A++B → cellBytes kLeaf c=c.length → Node.fits p c.length=true →
   Slotted ps (Node.insertCell p A.length c) kLeaf (A++c::B)) ∧
  (∀ A B c,cells=A++c::B → Slotted ps (Node.removeCell p A.length) kLeaf (A++B)) ∧
  Slotted ps (Node.defragment ps p) kLeaf cells ∧ Node.frag (Node.defragment ps p)=0 ∧
  ((∀ d∈cells,d.length ≤ maxCellBytes ps) → ∀ A B c,cells=A++B → cellBytes kLeaf c=c.length →
   c.length ≤ maxCellBytes ps → Node.fitsAfterDefrag p c.length=false → ∀ prev right,prev<2^64 → right<2^64 →
   ∃ L R,A++c::B=L++R ∧ L.length=BTree.splitPoint (A++c::B) ∧ L≠[] ∧ R≠[] ∧
    Slotted ps (BTree.leafImage ps L prev right) kLeaf L ∧
    Slotted ps (BTree.leafImage ps R prev right) kLeaf R) := by
 have hdefrag:=h.defragment
 refine ⟨?_,?_,hdefrag.1,hdefrag.2.1,?_⟩
 · rintro A B c rfl hc hfits
   exact h.insertCell hc hfits
 · rintro A B c rfl
   exact h.removeCell
 · rintro hcells A B c rfl hc hle hfull prev right hprev hright
   have hroom:=h.fitsAfterDefrag_iff c.length
   have hold:=h.weight_le
   have htotal:weight (A++c::B)=weight (A++B)+(c.length+2):=by
    rw [weight_append,weight_append,weight_cons]
    omega
   have hsized:∀ d∈A++c::B,cellBytes kLeaf d=d.length ∧ d.length ≤ maxCellBytes ps:=by
    intro d hd
    rcases mem_append.mp hd with hd | hd
    · exact ⟨h.sized d (mem_append_left _ hd),hcells d (mem_append_left _ hd)⟩
    · rcases mem_cons.mp hd with rfl | hd
      · exact ⟨hc,hle⟩
      · exact ⟨h.sized d (mem_append_right _ hd),hcells d (mem_append_right _ hd)⟩
   have hno:¬weight (A++B)+(c.length+2)+kHdr ≤ ps-4:=fun hw=>by
    rw [hroom.mpr hw] at hfull
    cases hfull
   obtain ⟨h1,h2,h3,h4⟩:=splitPoint_spec h.size_min (fun d hd=>(hsized d hd).2)
    (show kHdr+weight (A++B) ≤ Node.usable ps by simp only [Node.usable,kPageTrailerBytes]; omega)
    (show ¬kHdr+weight (A++c::B) ≤ Node.usable ps by simp only [Node.usable,kPageTrailerBytes]; omega)
   simp only [Node.usable,kPageTrailerBytes] at h3 h4
   have himage:∀ part:List Bytes,(∀ d∈part,d∈A++c::B) → kHdr+weight part ≤ ps-4 →
     Slotted ps (BTree.leafImage ps part prev right) kLeaf part:=fun part hpart hw=>
    (BTree.leafImage_slotted h.size_min h.size_max part prev right (fun d hd=>(hsized d (hpart d hd)).1) hprev hright
     (by omega)).1
   refine ⟨_,_,(take_append_drop (BTree.splitPoint (A++c::B)) _).symm,?_,?_,?_,
    himage _ (fun d hd=>mem_of_mem_take hd) h3,himage _ (fun d hd=>mem_of_mem_drop hd) h4⟩
   · rw [length_take]
     omega
   · exact ne_nil_of_length_pos (by rw [length_take]; omega)
   · exact ne_nil_of_length_pos (by rw [length_drop]; omega)

def exampleCell (k:UInt8) (n:ℕ) : Bytes := buildLeafCell [k] (replicate n 0) false n 0

lemma exampleLeaf (cells:List Bytes) (hs:∀ c∈cells,cellBytes kLeaf c=c.length) (hw:weight cells+kHdr≤508) :
 Slotted 512 (BTree.leafImage 512 cells 0 0) kLeaf cells :=
 (BTree.leafImage_slotted (by decide) (by decide) cells 0 0 hs (by decide) (by decide) hw).1

/-- With a cell above the limit on the page the right half of a split can be larger than a page. -/
theorem oversized_split : ∃ p,Slotted 512 p kLeaf [exampleCell 0 32,exampleCell 1 432] ∧
  cellBytes kLeaf (exampleCell 2 92)=(exampleCell 2 92).length ∧ (exampleCell 2 92).length ≤ maxCellBytes 512 ∧
  Node.fitsAfterDefrag p (exampleCell 2 92).length=false ∧
  ¬∃ q,Slotted 512 q kLeaf ([exampleCell 0 32,exampleCell 1 432,exampleCell 2 92].drop
   (BTree.splitPoint [exampleCell 0 32,exampleCell 1 432,exampleCell 2 92])) := by
 have hleaf:=exampleLeaf [exampleCell 0 32,exampleCell 1 432] (by decide +kernel) (by decide +kernel)
 refine ⟨_,hleaf,by decide +kernel,by decide +kernel,?_,?_⟩
 · rw [Bool.eq_false_iff]
   exact fun hfits=>absurd ((hleaf.fitsAfterDefrag_iff _).mp hfits) (by decide +kernel)
 · rintro ⟨q,hq⟩
   exact absurd hq.weight_le (by decide +kernel)

/-- Four cells fill the leaf, a fifth makes it split. -/
theorem leaf_operations_full : ∃ L R,
  (range 4).map (fun k=>exampleCell (UInt8.ofNat k) 111)++[exampleCell 4 0]=L++R ∧ L≠[] ∧ R≠[] := by
 have hleaf:=exampleLeaf ((range 4).map fun k=>exampleCell (UInt8.ofNat k) 111) (by decide +kernel) (by decide +kernel)
 obtain ⟨L,R,hLR,-,hL,hR,-⟩:=(leaf_operations hleaf).2.2.2.2 (by decide +kernel) _ [] (exampleCell 4 0)
  (append_nil _).symm (by decide +kernel) (by decide +kernel) (by
   rw [Bool.eq_false_iff]
   exact fun hfits=>absurd ((hleaf.fitsAfterDefrag_iff _).mp hfits) (by decide +kernel)) 0 0 (by decide) (by decide)
 exact ⟨L,R,hLR,hL,hR⟩

def LeafFit (ps:ℕ) (es:List Entry) : Prop :=
 kHdr+weight (es.map (Entry.cell ps)) ≤ Node.usable ps

def headKey (es:List Entry) : Bytes := (es.head?.map Entry.key).getD []

/-- The leaf on page `p` below the frames gets the entries `es`. -/
inductive PutLeaf (ps:ℕ) : List Frame → ℕ → List Entry → Tree → Prop
 | fits {fs:List Frame} {p:ℕ} {es:List Entry} (hfit:LeafFit ps es) :
   PutLeaf ps fs p es (plugAll fs (.leaf p es))
 | split {f:Frame} {fs:List Frame} {p:ℕ} {L R:List Entry} {t':Tree} (q:ℕ)
   (hfull:¬LeafFit ps (L++R))
   (hcut:L.length=BTree.splitPoint ((L++R).map (Entry.cell ps)))
   (up:InsertSep ps (f::fs) (.leaf p L) (headKey R) (.leaf q R) t') :
   PutLeaf ps (f::fs) p (L++R) t'
 | root {p:ℕ} {L R:List Entry} (l r:ℕ) (hfull:¬LeafFit ps (L++R))
   (hcut:L.length=BTree.splitPoint ((L++R).map (Entry.cell ps))) :
   PutLeaf ps [] p (L++R) (.node p [(headKey R,.leaf l L)] (.leaf r R))

def PutFits (ps:ℕ) (fs:List Frame) (es:List Entry) : Prop :=
 LeafFit ps es ∨
  FramesFit ps fs (headKey (es.drop (BTree.splitPoint (es.map (Entry.cell ps)))))

def entriesBefore (fs:List Frame) : List Entry := (leavesBefore fs).flatMap Prod.snd
def entriesAfter (fs:List Frame) : List Entry := (leavesAfter fs).flatMap Prod.snd

lemma plugAll_entries_eq (fs:List Frame) (p:ℕ) (es:List Entry) :
 (plugAll fs (.leaf p es)).entries=entriesBefore fs++es++entriesAfter fs := by
 rw [Tree.entries,plugAll_leaves,flatMap_append,flatMap_append,leaf_leaves]
 simp [entriesBefore,entriesAfter]

lemma plugAll_leaf_page (fs:List Frame) (p:ℕ) (es es':List Entry) :
 (plugAll fs (.leaf p es)).page=(plugAll fs (.leaf p es')).page := by
 cases fs with
 | nil=>rfl
 | cons f fs=>rw [plugAll_page,plugAll_page]

lemma factEntries_eq (xs:List Fact) : factEntries xs=(factLeaves xs).flatMap Prod.snd := by
 induction xs with
 | nil=>rfl
 | cons x xs ih=>
  cases x with
  | leaf p es=>rw [factEntries_cons,factLeaves_leaf,flatMap_cons,ih,Fact.entries]
  | node p cells r=>rw [factEntries_cons,factLeaves_node,ih,Fact.entries,nil_append]

lemma Focus.keys_before {fs:List Frame} {key:Bytes} (h:Focus fs key) : ∀ e∈entriesBefore fs,e.key<key := by
 have hk:=keys_below h 0
 rwa [factEntries_eq,factLeaves_pathBefore] at hk

lemma Focus.keys_after {fs:List Frame} {key:Bytes} (h:Focus fs key) : ∀ e∈entriesAfter fs,key<e.key := by
 have hk:=keys_above h
 rwa [factEntries_eq,factLeaves_pathAfter] at hk

namespace PutLeaf
variable {ps:ℕ} {fs:List Frame} {p:ℕ} {es:List Entry} {t':Tree}

lemma entries (h:PutLeaf ps fs p es t') : t'.entries=entriesBefore fs++es++entriesAfter fs := by
 cases h with
 | fits hfit=>exact plugAll_entries_eq fs p es
 | split q hfull hcut up=>
  rw [Tree.entries,up.leaves]
  simp [entriesBefore,entriesAfter]
 | root l r hfull hcut=>simp [Tree.entries,entriesBefore,entriesAfter,leavesBefore,leavesAfter]

lemma page (h:PutLeaf ps fs p es t') : t'.page=(plugAll fs (.leaf p es)).page := by
 cases h with
 | fits hfit=>rfl
 | split q hfull hcut up=>
  have hp:=up.page
  rw [getLast?_eq_getLast_of_ne_nil (by simp),Option.map_some] at hp
  rw [plugAll_page]
  exact (Option.some.inj hp).symm
 | root l r hfull hcut=>rfl

end PutLeaf

lemma pairwise_sep {X Y:List Mark} {L R:List Entry} (hL:L≠[]) (hR:R≠[])
 (h:(X++(L++R).map (fun e=>keyMark e.key)++Y).Pairwise (· < ·)) :
 (X++(L.map (fun e=>keyMark e.key)++sepMark (headKey R) :: R.map fun e=>keyMark e.key)++Y).Pairwise (· < ·) := by
 obtain ⟨r,R,rfl⟩:=exists_cons_of_ne_nil hR
 have hhead:headKey (r::R)=r.key:=rfl
 rw [map_append,append_assoc,append_assoc,← append_assoc] at h
 obtain ⟨h1,h2,h3⟩:=pairwise_append.mp h
 have hform:X++(L.map (fun e=>keyMark e.key)++sepMark (headKey (r::R)) :: (r::R).map fun e=>keyMark e.key)++Y =
   (X++L.map fun e=>keyMark e.key)++(sepMark (headKey (r::R)) :: ((r::R).map (fun e=>keyMark e.key)++Y)):=by simp
 rw [hform,hhead]
 have hkey:∀ e∈L,keyMark e.key<sepMark r.key:=by
  intro e he
  have:=h3 (keyMark e.key) (mem_append_right _ (mem_map_of_mem he)) (keyMark r.key) (by simp)
  exact (keyMark_lt_sepMark _ _).mpr ((keyMark_lt_keyMark _ _).mp this)
 have hsep:sepMark r.key<keyMark r.key:=(sepMark_lt_keyMark _ _).mpr le_rfl
 refine pairwise_append.mpr ⟨h1,pairwise_cons.mpr ⟨?_,h2⟩,?_⟩
 · intro m hm
   rw [map_cons,cons_append] at hm h2
   rcases mem_cons.mp hm with rfl | hm
   · exact hsep
   · exact lt_trans hsep ((pairwise_cons.mp h2).1 m hm)
 · intro m hm n hn
   rcases mem_cons.mp hn with rfl | hn
   · rcases mem_append.mp hm with hX | hm'
     · -- a mark left of the leaf is below its first key
       obtain ⟨e,he⟩:=exists_mem_of_ne_nil L hL
       have hlt:=(pairwise_append.mp h1).2.2 m hX (keyMark e.key) (mem_map_of_mem he)
       exact lt_trans hlt (hkey e he)
     · obtain ⟨e,he,rfl⟩:=mem_map.mp hm'
       exact hkey e he
   · exact h3 m hm n hn

lemma PutLeaf.sorted {ps:ℕ} {fs:List Frame} {p:ℕ} {es:List Entry} {t':Tree}
 (h:PutLeaf ps fs p es t') (hpos:¬LeafFit ps es → 0<BTree.splitPoint (es.map (Entry.cell ps)) ∧
   BTree.splitPoint (es.map (Entry.cell ps))<es.length) (hs:(pathMarksBefore fs++es.map (fun e=>keyMark e.key) ++
  pathMarksAfter fs).Pairwise (· < ·)) : t'.marks.Pairwise (· < ·) := by
 have hparts:∀ {L R:List Entry},L++R=es → ¬LeafFit ps es →
   L.length=BTree.splitPoint (es.map (Entry.cell ps)) → L≠[] ∧ R≠[]:=by
  rintro L R rfl hfull hcut
  obtain ⟨h1,h2⟩:=hpos hfull
  rw [← hcut] at h1 h2
  rw [length_append] at h2
  exact ⟨ne_nil_of_length_pos h1,ne_nil_of_length_pos (by omega)⟩
 cases h with
 | fits hfit=>
  rw [plugAll_marks]
  exact hs
 | split q hfull hcut up=>
  obtain ⟨hL,hR⟩:=hparts rfl hfull hcut
  rw [up.marks]
  exact pairwise_sep hL hR hs
 | @root _ L R l r hfull hcut=>
  obtain ⟨hL,hR⟩:=hparts rfl hfull hcut
  have:=pairwise_sep hL hR hs
  simpa [Tree.marks,Tree.kidsMarks,pathMarksBefore,pathMarksAfter] using this

lemma linked_at (σ:WriteTxn) (B A:List ℕ) (p a b:ℕ) : Linked σ a (B++p::A) b ↔
  Linked σ a B p ∧ Node.prev (σ.page p)=B.getLastD a ∧ Node.right (σ.page p)=A.headD b ∧ Linked σ p A b := by
 rw [linked_append]
 rfl

lemma Linked.insert {σ σ':WriteTxn} {B A:List ℕ} {p q:ℕ} (h:Linked σ 0 (B++p::A) 0) (hnd:(B++p::A).Nodup)
 (hp:Node.prev (σ'.page p)=Node.prev (σ.page p)) (hp':Node.right (σ'.page p)=q)
 (hq:Node.prev (σ'.page q)=p) (hq':Node.right (σ'.page q)=Node.right (σ.page p))
 (hn:∀ n,A.head? = some n → Node.prev (σ'.page n)=q ∧ Node.right (σ'.page n)=Node.right (σ.page n))
 (hsame:∀ r∈B++A,A.head?≠some r → σ'.page r=σ.page r) : Linked σ' 0 (B++p::q::A) 0 := by
 obtain ⟨h1,h2,h3,h4⟩:=(linked_at σ B A p 0 0).mp h
 obtain ⟨_,hnd2,hnd3⟩:=nodup_append.mp hnd
 have hB:∀ r∈B,A.head?≠some r:=by
  intro r hr hh
  exact hnd3 r hr r (mem_cons_of_mem _ (mem_of_mem_head? hh)) rfl
 refine (linked_at σ' B (q::A) p 0 0).mpr ⟨?_,?_,?_,?_⟩
 · exact h1.congr _ _ _ fun r hr=>hsame r (mem_append_left _ hr) (hB r hr)
 · rw [hp,h2]
 · rw [hp',headD_cons]
 · rw [Linked,hq,hq',h3]
   refine ⟨rfl,rfl,?_⟩
   cases A with
   | nil=>trivial
   | cons n A=>
    obtain ⟨hn1,hn2⟩:=hn n rfl
    rw [Linked] at h4 ⊢
    refine ⟨hn1,hn2.trans h4.2.1,?_⟩
    have hnA:=(nodup_cons.mp (nodup_cons.mp hnd2).2).1
    refine h4.2.2.congr _ _ _ fun r hr=>hsame r (by simp [hr]) ?_
    intro hh
    rw [head?_cons,Option.some.injEq] at hh
    exact hnA (hh ▸ hr)

end Archivum.TreeShape
