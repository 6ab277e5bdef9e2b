import Archivum.LeafInsert

set_option autoImplicit false

/-!
# `put` and `insert_if_absent` on pages

Both read the leaf of the key and perform `PutLeaf` on the tree the pages hold.
-/
namespace Archivum.TreeShape
open ByteStrings StatefulActions PageTxn SlottedPage BTreeModel InteriorSplit List Node Act

lemma gather_leaf {ps:ℕ} {img c:Bytes} {A B:List Bytes}
 (h:Slotted ps img kLeaf (A++B)) : BTree.gatherLeaf img A.length c=A++c::B := by
 have hcells:((range (count img)).map fun i=>
   slice img (slot img i) (cellSize img i))=A++B:=by
  apply ext_getElem?
  intro i
  rw [getElem?_map,h.count]
  by_cases hi:i<(A++B).length
  · have hget:=getElem?_eq_getElem hi
    rw [getElem?_range hi,hget,Option.map_some,h.cellSize_eq hget,h.bytes i _ hget]
  · rw [getElem?_eq_none (by simpa using hi),getElem?_eq_none (by omega)]
    rfl
 rw [BTree.gatherLeaf_eq _ _ _ (by rw [h.count,length_append]; omega),hcells,take_left,drop_left]

section Halves
variable {ps:ℕ} {σ:WriteTxn} {xs:List Fact} {O free:List ℕ} {l q:ℕ}
 {L R:List Entry}

lemma write_leaf {es:List Entry} {prev right:ℕ}
  (h:Holding ps σ xs (l::(es.flatMap Entry.chain++O)) free)
  (he:∀ e∈es,e.Holds ps σ) (hfit:LeafFit ps es) (hprev:prev<2^64)
  (hright:right<2^64) :
  let img := BTree.leafImage ps (es.map (Entry.cell ps)) prev right
  writePage l img σ=(.ok (),σ.setDirty l img) ∧
   Holding ps (σ.setDirty l img) (.leaf l es::xs) O free ∧
   Node.prev img=prev ∧ Node.right img=right ∧
   Slotted ps img kLeaf (es.map (Entry.cell ps)):=by
 have hmax:=h.pages.size_max
 rw [LeafFit,usable,kPageTrailerBytes] at hfit
 obtain ⟨hs,hp,hr⟩:=BTree.leafImage_slotted h.pages.size_min hmax (es.map (Entry.cell ps)) prev
  right (by
   intro c hc
   obtain ⟨e,hem,rfl⟩:=mem_map.mp hc
   exact Entry.cell_sized (he e hem).1 hmax) hprev hright (by omega)
 have hopen:LeafOpen ps σ l (BTree.leafImage ps (es.map (Entry.cell ps)) prev right) es xs O
   free:=⟨h,hs,he⟩
 obtain ⟨hw,hheld⟩:=hopen.close
 exact ⟨hw,hheld,hp,hr,hs⟩

def linkedTo (σ:WriteTxn) (n:ℕ) (link:Bytes → Bytes) : WriteTxn :=
 if n=0 then σ else σ.setDirty n (link (σ.page n))

@[simp] lemma linkedTo_header (σ:WriteTxn) (n:ℕ) (link:Bytes → Bytes) : (linkedTo σ n link).header=σ.header := by
 rw [linkedTo]
 split <;> rfl

lemma linkedTo_page_of_ne (σ:WriteTxn) {n r:ℕ} (link:Bytes → Bytes) (h:r≠n) : (linkedTo σ n link).page r=σ.page r := by
 rw [linkedTo]
 split
 · rfl
 · exact σ.setDirty_page_of_ne _ h

lemma linkedTo_page_self (σ:WriteTxn) {n:ℕ} (link:Bytes → Bytes) (h:n≠0) : (linkedTo σ n link).page n=link (σ.page n) := by
 rw [linkedTo,if_neg h,σ.setDirty_page_self]

lemma relink_run {n:ℕ} {e:List Entry} {f:Bytes → Bytes} (h:Holding ps σ xs O free) (hn:n=0 ∨ Fact.leaf n e∈xs)
 (hlink:∀ img cells,Slotted ps img kLeaf cells → Slotted ps (f img) kLeaf cells) :
 BTree.relink n f σ=(.ok (),linkedTo σ n f) ∧ Holding ps (linkedTo σ n f) xs O free := by
 rw [linkedTo,BTree.relink]
 rcases Nat.eq_zero_or_pos n with rfl | hpos
 · exact ⟨rfl,h⟩
 · have hmem:=hn.resolve_left (by omega)
   obtain ⟨ys,zs,hxs⟩:=append_of_mem hmem
   have hperm:(Fact.leaf n e::(ys++zs)).Perm xs:=by
    rw [hxs]
    exact perm_middle.symm
   have h1:=h.perm hperm
   obtain ⟨hs,he⟩:=h1.facts _ mem_cons_self
   have hnot:n ∉ e.flatMap Entry.chain:=by
    have hnd:=h1.pages.own_nodup
    simp only [flatMap_cons,Fact.pages,cons_append,append_assoc] at hnd
    exact fun hc=>(nodup_cons.mp hnd).1 (mem_append_left _ hc)
   obtain ⟨hw,h2⟩:=h1.write (p:=n) (d:=f (σ.page n)) (y:=.leaf n e)
    mem_cons_self (hlink _ _ hs).length rfl ⟨by
     rw [σ.setDirty_page_self]
     exact hlink _ _ hs,fun e hem=>(he e hem).congr fun r hr=>
      σ.setDirty_page_of_ne _ (by
       rintro rfl
       exact hnot (mem_flatMap.mpr ⟨e,hem,hr⟩))⟩
   have hn0:n≠0:=by omega
   rw [if_pos hn0,if_neg hn0]
   refine ⟨?_,h2.perm hperm.symm⟩
   rw [bind_of_ok _ (h1.read mem_cons_self (mem_cons_self (a:=n)))]
   exact hw

/-- The links after a leaf has been divided onto the pages `l` and `q`. -/
structure Divided (σ σ':WriteTxn) (l q pv nx:ℕ) : Prop where
 left_prev : Node.prev (σ'.page l)=pv
 left_right : Node.right (σ'.page l)=q
 right_prev : Node.prev (σ'.page q)=l
 right_right : Node.right (σ'.page q)=nx
 next : nx≠0 → Node.prev (σ'.page nx)=q ∧ Node.right (σ'.page nx)=Node.right (σ.page nx)
 same : ∀ r,r≠l → r≠q → r≠nx → σ'.page r=σ.page r

lemma divide_run {v n:ℕ} {e:List Entry} (h:Holding ps σ xs (l::q::((L++R).flatMap Entry.chain++O)) free)
 (he:∀ e∈L++R,e.Holds ps σ) (hL:LeafFit ps L) (hR:LeafFit ps R) (hpv:v<2^64) (hnx:n=0 ∨ Fact.leaf n e∈xs) :
 ∃ σ1 σ2 σ',writePage l (BTree.leafImage ps (L.map (Entry.cell ps)) v q) σ=(.ok (),σ1) ∧
  writePage q (BTree.leafImage ps (R.map (Entry.cell ps)) l n) σ1=(.ok (),σ2) ∧
  BTree.relink n (fun nb=>setPrev nb q) σ2=(.ok (),σ') ∧
  Holding ps σ' (.leaf q R::.leaf l L::xs) O free ∧ Divided σ σ' l q v n ∧ σ'.header=σ.header := by
 have hown:=h.pages.own_nodup
 have hq:q<2^64:=h.pages.own_lt_u64 (by simp)
 have hl:l<2^64:=h.pages.own_lt_u64 (by simp)
 have hnd:=(nodup_append.mp hown).2.1
 obtain ⟨hlq,hnd'⟩:=nodup_cons.mp hnd
 have hlq':l≠q:=fun he=>hlq (by rw [he]; exact mem_cons_self)
 have hnxlt:n<2^64:=by
  rcases hnx with rfl | hnx
  · exact Nat.two_pow_pos 64
  · exact h.pages.own_lt_u64 (h.mem_own hnx (mem_cons_self (a:=n)))
 have hnxne:n≠0 → n≠l ∧ n≠q:=by
  intro h0
  have hmem:n∈xs.flatMap Fact.pages:=
   mem_flatMap.mpr ⟨_,hnx.resolve_left h0,mem_cons_self⟩
  have hdis:=(nodup_append.mp hown).2.2 n hmem
  exact ⟨hdis l (by simp),hdis q (by simp)⟩
 have h1:Holding ps σ xs (l::(L.flatMap Entry.chain++(q::(R.flatMap Entry.chain++O))))
   free:=by
  refine ⟨h.pages.reorder (List.Perm.append_left _ (List.Perm.cons _ ?_)),h.facts⟩
  rw [flatMap_append,append_assoc]
  exact perm_middle
 obtain ⟨hw1,h2,hp1,hr1,hs1⟩:=write_leaf h1 (fun e hm=>he e (mem_append_left _ hm)) hL hpv hq
 generalize BTree.leafImage ps (L.map (Entry.cell ps)) v q=imgL at hw1 h2 hp1 hr1 hs1 ⊢
 have heR:∀ e∈R,e.Holds ps (σ.setDirty l imgL):=by
  intro e hm
  refine (he e (mem_append_right _ hm)).congr fun r hr=>σ.setDirty_page_of_ne _ ?_
  rintro rfl
  refine hlq (mem_cons_of_mem _ (mem_append_left _ ?_))
  exact mem_flatMap.mpr ⟨e,mem_append_right _ hm,hr⟩
 obtain ⟨hw2,h3,hp2,hr2,hs2⟩:=write_leaf h2 heR hR hl hnxlt
 generalize BTree.leafImage ps (R.map (Entry.cell ps)) l n=imgR at hw2 h3 hp2 hr2 hs2 ⊢
 obtain ⟨hrun,h4⟩:=relink_run (n:=n) (e:=e) (f:=fun nb=>setPrev nb q) h3
  (hnx.imp_right fun hm=>by simp [hm]) (fun img cells hs=>hs.setPrev q)
 have hl':n≠l:=by
  rcases eq_or_ne n 0 with h0 | h0
  · rw [h0]
    exact (h.pages.own_pos (p:=l) (by simp)).ne
  · exact (hnxne h0).1
 have hq':n≠q:=by
  rcases eq_or_ne n 0 with h0 | h0
  · rw [h0]
    exact (h.pages.own_pos (p:=q) (by simp)).ne
  · exact (hnxne h0).2
 have hpl:(linkedTo ((σ.setDirty l imgL).setDirty q imgR) n
   fun nb=>setPrev nb q).page l=imgL:=by
  rw [linkedTo_page_of_ne _ _ hl'.symm,WriteTxn.setDirty_page_of_ne _ _ hlq',WriteTxn.setDirty_page_self]
 have hpq:(linkedTo ((σ.setDirty l imgL).setDirty q imgR) n
   fun nb=>setPrev nb q).page q=imgR:=by
  rw [linkedTo_page_of_ne _ _ hq'.symm,WriteTxn.setDirty_page_self]
 refine ⟨_,_,_,hw1,hw2,hrun,h4,⟨?_,?_,?_,?_,?_,?_⟩,linkedTo_header _ _ _⟩
 · rw [hpl,hp1]
 · rw [hpl,hr1]
 · rw [hpq,hp2]
 · rw [hpq,hr2]
 · intro h0
   rw [linkedTo_page_self _ _ h0,WriteTxn.setDirty_page_of_ne _ _ hq',WriteTxn.setDirty_page_of_ne _ _ hl']
   exact ⟨(h.facts _ (hnx.resolve_left h0)).1.setPrev_prev hq,setPrev_right _ _⟩
 · intro r hr1 hr2 hr3
   rw [linkedTo_page_of_ne _ _ hr3,WriteTxn.setDirty_page_of_ne _ _ hr2,WriteTxn.setDirty_page_of_ne _ _ hr1]

end Halves

lemma leafPages_sublist (xs:List Fact) : ((factLeaves xs).map Prod.fst).Sublist (xs.flatMap Fact.pages) := by
 induction xs with
 | nil=>exact List.Sublist.slnil
 | cons x xs ih=>
  rw [flatMap_cons]
  cases x with
  | leaf p es=>
   rw [factLeaves_leaf,map_cons,Fact.pages,cons_append]
   exact (ih.trans (sublist_append_right _ _)).cons_cons p
  | node p cells r=>
   rw [factLeaves_node]
   exact ih.trans (sublist_append_right _ _)

lemma plugAll_leafPages (fs:List Frame) (p:ℕ) (es:List Entry) : (plugAll fs (.leaf p es)).leafPages =
  (leavesBefore fs).map Prod.fst++p::(leavesAfter fs).map Prod.fst := by
 rw [Tree.leafPages,plugAll_leaves,leaf_leaves]
 simp

lemma leafPages_nodup {ps:ℕ} {σ:WriteTxn} {t:Tree} {O free:List ℕ} (h:Pages ps σ (t.pages++O) free) : t.leafPages.Nodup :=
 ((nodup_append.mp h.own_nodup).1).sublist (leafPages_sublist t.facts)

lemma leaf_mem_of_leaves {xs:List Fact} {n:ℕ} {nes:List Entry} (h:(n,nes)∈factLeaves xs) : Fact.leaf n nes∈xs := by
 obtain ⟨x,hx,hl⟩:=mem_filterMap.mp h
 cases x with
 | leaf p es=>
  rw [Fact.leafOf,Option.some.injEq,Prod.mk.injEq] at hl
  rw [← hl.1,← hl.2]
  exact hx
 | node p cells r=>cases hl

lemma side_leaf_mem (fs:List Frame) (hole:ℕ) {n:ℕ} {nes:List Entry}
 (h:(n,nes)∈leavesBefore fs++leavesAfter fs) : Fact.leaf n nes∈pathFacts fs hole := by
 induction fs generalizing hole with
 | nil=>simp [leavesBefore,leavesAfter] at h
 | cons f fs ih=>
  have hcases:(n,nes)∈factLeaves f.sideFacts ∨ (n,nes)∈leavesBefore fs++leavesAfter fs:=by
   rw [Frame.sideFacts,factLeaves_append,f.factLeaves_factsAfter]
   simp only [leavesBefore,leavesAfter,mem_append,kidsLeaves] at h ⊢
   tauto
  rw [pathFacts]
  rcases hcases with h | h
  · simp [leaf_mem_of_leaves h]
  · simp [ih f.page h]

lemma side_leafPage {fs:List Frame} {r:ℕ} (h:r∈(leavesBefore fs).map Prod.fst++(leavesAfter fs).map Prod.fst) (hole:ℕ) :
 ∃ es,Fact.leaf r es∈pathFacts fs hole := by
 rw [← map_append] at h
 obtain ⟨⟨n,nes⟩,hn,rfl⟩:=mem_map.mp h
 exact ⟨nes,side_leaf_mem fs hole hn⟩

lemma frame_fact_mem {g:Frame} {fs:List Frame} (hg:g∈fs) (hole:ℕ) : ∃ hole',g.nodeFact hole'∈pathFacts fs hole := by
 induction fs generalizing hole with
 | nil=>cases hg
 | cons f fs ih=>
  rw [pathFacts]
  rcases mem_cons.mp hg with rfl | hg
  · exact ⟨hole,mem_cons_self⟩
  · obtain ⟨hole',hm⟩:=ih hg f.page
    exact ⟨hole',by simp [hm]⟩

lemma leaf_not_frame {ps:ℕ} {σ:WriteTxn} {fs:List Frame} {a r:ℕ} {es:List Entry}
 (hfacts:∀ x∈pathFacts fs a,x.Holds ps σ) (hr:(Fact.leaf r es).Holds ps σ) : r ∉ fs.map Frame.page := by
 intro hm
 obtain ⟨g,hg,hgp⟩:=mem_map.mp hm
 obtain ⟨hole',hx⟩:=frame_fact_mem hg a
 have h1:=hr.1.type
 have h2:=(hfacts _ hx).1.type
 rw [hgp,h1] at h2
 exact absurd h2 (by decide)

lemma leaf_parts {ps:ℕ} {img:Bytes} {A B:List Entry} {e:Entry} (hmin:kMinPageSize≤ps)
 (hs:Slotted ps img kLeaf ((A++B).map (Entry.cell ps))) (hok:∀ d∈A++e::B,d.Ok ps) (hfull:¬LeafFit ps (A++e::B)) :
 ∃ L R,A++e::B=L++R ∧ L.length=BTree.splitPoint ((A++e::B).map (Entry.cell ps)) ∧ L≠[] ∧ R≠[] ∧
  LeafFit ps L ∧ LeafFit ps R ∧ R=(A++e::B).drop (BTree.splitPoint ((A++e::B).map (Entry.cell ps))) := by
 have hspec:=splitPoint_spec hmin (A:=A.map (Entry.cell ps)) (B:=B.map (Entry.cell ps))
  (c:=e.cell ps) (by
   intro d hd
   rw [← map_cons,← map_append] at hd
   obtain ⟨x,hx,rfl⟩:=mem_map.mp hd
   exact Entry.cell_length_le (hok x hx) hmin) (by
   have:=hs.weight_le
   rw [map_append] at this
   rw [usable,kPageTrailerBytes]
   omega) (by
   rw [LeafFit] at hfull
   simpa using hfull)
 rw [← map_cons,← map_append,length_map,← map_take,← map_drop] at hspec
 obtain ⟨h1,h2,h3,h4⟩:=hspec
 generalize hk:BTree.splitPoint ((A++e::B).map (Entry.cell ps))=k at h1 h2 h3 h4 ⊢
 generalize A++e::B=es at h1 h2 h3 h4 ⊢
 refine ⟨es.take k,es.drop k,(take_append_drop k es).symm,?_,?_,?_,h3,h4,rfl⟩
 · rw [length_take]
   omega
 · refine ne_nil_of_length_pos ?_
   rw [length_take]
   omega
 · refine ne_nil_of_length_pos ?_
   rw [length_drop]
   omega

lemma right_key {ps:ℕ} {R:List Entry} {l n:ℕ} (hmin:kMinPageSize≤ps)
 (hmax:ps≤kMaxPageSize) (hR:R≠[]) (he:∀ d∈R,d.Ok ps) (hfit:LeafFit ps R) (hl:l<2^64) (hnx:n<2^64) :
 key (BTree.leafImage ps (R.map (Entry.cell ps)) l n) 0=headKey R := by
 rw [LeafFit,usable,kPageTrailerBytes] at hfit
 obtain ⟨hs,_,_⟩:=BTree.leafImage_slotted hmin hmax (R.map (Entry.cell ps)) l n (by
  intro c hc
  obtain ⟨d,hd,rfl⟩:=mem_map.mp hc
  exact Entry.cell_sized (he d hd) hmax) hl hnx (by omega)
 obtain ⟨r,R,rfl⟩:=exists_cons_of_ne_nil hR
 exact leaf_entry_key hmax hs he rfl

lemma LeafOpen.leafPages_nodup {ps:ℕ} {σ:WriteTxn} {fs:List Frame} {p:ℕ} {img:Bytes}
 {es:List Entry} {O free:List ℕ} (h:LeafOpen ps σ p img es (pathFacts fs p) O free) :
 ((leavesBefore fs).map Prod.fst++p::(leavesAfter fs).map Prod.fst).Nodup := by
 have hown:Pages ps σ ((plugAll fs (.leaf p es)).pages++O) free:=by
  refine h.held.pages.reorder ?_
  refine ((plugAll_pages_perm fs (.leaf p es)).append_right _).trans ?_
  rw [← pathPages_eq fs p]
  refine (perm_append_comm.append_right _).trans ?_
  simp [Tree.pages,Tree.facts,Fact.pages]
 have hnd:=TreeShape.leafPages_nodup hown
 rwa [plugAll_leafPages] at hnd

/-- The leaf is open at the slot of the entry `e`, whose chain is written. -/
structure LeafReady (ps:ℕ) (σ:WriteTxn) (fs:List Frame) (p:ℕ) (img:Bytes)
  (A:List Entry) (e:Entry) (B:List Entry) (O free:List ℕ) : Prop where
 opened : LeafOpen ps σ p img (A++B) (pathFacts fs p) (e.chain++O) free
 entry : e.Holds ps σ
 linked : Linked σ 0 ((leavesBefore fs).map Prod.fst++p::(leavesAfter fs).map Prod.fst) 0
 prev : Node.prev img=Node.prev (σ.page p)
 right : Node.right img=Node.right (σ.page p)

structure LeafPut (ps:ℕ) (σ:WriteTxn) (fs:List Frame) (p:ℕ) (es:List Entry)
  (O:List ℕ) (t':Tree) (σ':WriteTxn) (free':List ℕ) : Prop where
 tree : PutLeaf ps fs p es t'
 held : Holding ps σ' t'.facts O free'
 linked : Linked σ' 0 t'.leafPages 0
 same : ∀ r∈O,σ'.page r=σ.page r
 count : σ'.header.pageCount ≤ σ.header.pageCount+fs.length+2

namespace LeafReady
variable {ps:ℕ} {σ:WriteTxn} {fs:List Frame} {p:ℕ} {img:Bytes} {A B:List Entry}
 {e:Entry} {O free:List ℕ} {b:BTree}

lemma entries_hold (h:LeafReady ps σ fs p img A e B O free) : ∀ d∈A++e::B,d.Holds ps σ := by
 intro d hd
 rcases mem_append.mp hd with hd | hd
 · exact h.opened.entries d (mem_append_left _ hd)
 · rcases mem_cons.mp hd with rfl | hd
   · exact h.entry
   · exact h.opened.entries d (mem_append_right _ hd)

lemma leafPage_own (_:LeafReady ps σ fs p img A e B O free) {r:ℕ}
 (hr:r∈(leavesBefore fs).map Prod.fst++p::(leavesAfter fs).map Prod.fst) : r∈(pathFacts fs p).flatMap Fact.pages ++
  (p::((A++B).flatMap Entry.chain++(e.chain++O))) := by
 rcases mem_cons.mp (perm_middle.mem_iff.mp hr) with rfl | hr
 · simp
 · obtain ⟨es,hx⟩:=side_leafPage hr p
   exact mem_append_left _ (mem_flatMap.mpr ⟨_,hx,mem_cons_self⟩)

lemma right_eq (h:LeafReady ps σ fs p img A e B O free) : Node.right img=((leavesAfter fs).map Prod.fst).headD 0 :=
 h.right.trans ((linked_at σ _ _ p 0 0).mp h.linked).2.2.1

lemma next_leaf (h:LeafReady ps σ fs p img A e B O free) :
 ∃ nes,Node.right img=0 ∨ Fact.leaf (Node.right img) nes∈pathFacts fs p := by
 rw [h.right_eq]
 cases hl:leavesAfter fs with
 | nil=>exact ⟨[],Or.inl rfl⟩
 | cons n rest=>exact ⟨n.2,Or.inr (side_leaf_mem fs p (by rw [hl]; simp))⟩

lemma chains_perm (A:List Entry) (e:Entry) (B:List Entry) (O:List ℕ) : ((A++e::B).flatMap Entry.chain++O).Perm
  ((A++B).flatMap Entry.chain++(e.chain++O)) := by
 simp only [flatMap_append,flatMap_cons,append_assoc]
 exact (perm_append_comm_assoc _ _ _).append_left _

lemma run_fits (h:LeafReady ps σ fs p img A e B O free) (hfit:LeafFit ps (A++e::B)) :
 ∃ t' σ' free',writePage p (roomyImage ps img A.length (e.cell ps)) σ=(.ok (),σ') ∧
  fitsAfterDefrag img (e.cell ps).length=true ∧ LeafPut ps σ fs p (A++e::B) O t' σ' free' := by
 have himg:=h.opened.image
 rw [map_append] at himg
 have hroom:fitsAfterDefrag img (e.cell ps).length=true:=by
  rw [himg.fitsAfterDefrag_iff]
  rw [LeafFit,usable,kPageTrailerBytes] at hfit
  simp only [map_append,map_cons,weight_append,weight_cons] at hfit ⊢
  omega
 obtain ⟨h1,h2,h3⟩:=roomyImage_slotted himg (Entry.cell_sized h.entry.1 h.opened.held.pages.size_max) hroom
 rw [length_map] at h1 h2 h3
 generalize roomyImage ps img A.length (e.cell ps)=img' at h1 h2 h3 ⊢
 have hopen:LeafOpen ps σ p img' (A++e::B) (pathFacts fs p) O free:=by
  refine ⟨⟨h.opened.held.pages.reorder ?_,h.opened.held.facts⟩,?_,h.entries_hold⟩
  · exact ((chains_perm A e B O).cons p).append_left _
  · simpa using h1
 obtain ⟨hw,hheld⟩:=hopen.close
 have hnot:∀ r∈(leavesBefore fs).map Prod.fst++(leavesAfter fs).map Prod.fst,r≠p:=by
  rintro r hr rfl
  have hnd:=perm_middle.nodup_iff.mp h.opened.leafPages_nodup
  exact (nodup_cons.mp hnd).1 hr
 refine ⟨_,_,free,hw,hroom,.fits hfit,?_,?_,?_,?_⟩
 · exact hheld.perm (plugAll_facts_perm fs (.leaf p (A++e::B)))
 · rw [plugAll_leafPages]
   obtain ⟨g1,g2,g3,g4⟩:=(linked_at σ _ _ p 0 0).mp h.linked
   refine (linked_at _ _ _ p 0 0).mpr ⟨?_,?_,?_,?_⟩
   · exact g1.congr _ _ _ fun r hr=>
      σ.setDirty_page_of_ne _ (hnot r (mem_append_left _ hr))
   · rw [σ.setDirty_page_self,h3,h.prev,g2]
   · rw [σ.setDirty_page_self,h2,h.right,g3]
   · exact g4.congr _ _ _ fun r hr=>
      σ.setDirty_page_of_ne _ (hnot r (mem_append_right _ hr))
 · intro r hr
   refine σ.setDirty_page_of_ne _ ?_
   rintro rfl
   exact hopen.page_not_chain.1 (mem_append_right _ hr)
 · change σ.header.pageCount≤_
   omega

lemma crowded (h:LeafReady ps σ fs p img A e B O free) (hfull:¬LeafFit ps (A++e::B)) :
 fitsAfterDefrag img (e.cell ps).length=false := by
 have himg:=h.opened.image
 rw [← Bool.not_eq_true,himg.fitsAfterDefrag_iff]
 rw [LeafFit,usable,kPageTrailerBytes] at hfull
 simp only [map_append,map_cons,weight_append,weight_cons] at hfull ⊢
 omega

lemma parts (h:LeafReady ps σ fs p img A e B O free) (hfull:¬LeafFit ps (A++e::B)) : ∃ L R,A++e::B=L++R ∧
  L.length=BTree.splitPoint ((A++e::B).map (Entry.cell ps)) ∧ L≠[] ∧ R≠[] ∧ LeafFit ps L ∧ LeafFit ps R ∧
  R=(A++e::B).drop (BTree.splitPoint ((A++e::B).map (Entry.cell ps))) :=
 leaf_parts h.opened.held.pages.size_min h.opened.image (fun d hd=>(h.entries_hold d hd).1) hfull

lemma split_pos (h:LeafReady ps σ fs p img A e B O free) (hfull:¬LeafFit ps (A++e::B)) :
 0<BTree.splitPoint ((A++e::B).map (Entry.cell ps)) ∧ BTree.splitPoint ((A++e::B).map (Entry.cell ps))<(A++e::B).length := by
 obtain ⟨L,R,hcut,hlen,hL,hR,_⟩:=h.parts hfull
 have h1:=length_pos_of_ne_nil hL
 have h2:=length_pos_of_ne_nil hR
 rw [← hlen,hcut,length_append]
 omega

lemma splitLeaf_eq (h:LeafReady ps σ fs p img A e B O free) (hb:b.pageSize=ps)
  {L R:List Entry} (hcut:A++e::B=L++R)
  (hlen:L.length=BTree.splitPoint ((A++e::B).map (Entry.cell ps)))
  (path:List PathEntry) :
  b.splitLeaf path img A.length (e.cell ps)=(do
   let rightPage ← allocatePage
   let leftPage ← (if path.length=1 then allocatePage else pure (BTree.back path).page :
    TxnM ℕ)
   let right:=BTree.leafImage ps (R.map (Entry.cell ps)) leftPage (Node.right img)
   writePage leftPage (BTree.leafImage ps (L.map (Entry.cell ps)) (Node.prev img) rightPage)
   writePage rightPage right
   BTree.relink (Node.right img) (fun nb=>Node.setPrev nb rightPage)
   if path.length=1 then
    writePage b.root (BTree.interiorImage ps [(Node.key right 0,leftPage)] rightPage)
   else b.insertSeparator path (path.length-2) (Node.key right 0) rightPage:TxnM Unit) := by
 have himg:=h.opened.image
 rw [map_append] at himg
 have hgather:=gather_leaf (c:=e.cell ps) himg
 rw [length_map,← map_cons,← map_append,hcut] at hgather
 rw [hcut] at hlen
 have htake:(L.map (Entry.cell ps)++R.map (Entry.cell ps)).take L.length =
   L.map (Entry.cell ps):=by
  rw [← length_map (Entry.cell ps),take_left]
 have hdrop:(L.map (Entry.cell ps)++R.map (Entry.cell ps)).drop L.length =
   R.map (Entry.cell ps):=by
  rw [← length_map (Entry.cell ps),drop_left]
 rw [BTree.splitLeaf]
 simp only [hgather,hb,← hlen]
 simp only [map_append,htake,hdrop]

lemma prev_lt (img:Bytes) : Node.prev img<2^64 :=
 lt_of_lt_of_eq (getLE_lt 8 img 16) (by norm_num)

lemma right_lt (img:Bytes) : Node.right img<2^64 :=
 lt_of_lt_of_eq (getLE_lt 8 img 8) (by norm_num)

lemma divided_linked (h:LeafReady ps σ fs p img A e B O free) {σ1 σ':WriteTxn} {q:ℕ}
 (hq:q ∉ (leavesBefore fs).map Prod.fst++p::(leavesAfter fs).map Prod.fst) (hsame:∀ r,r≠q → σ1.page r=σ.page r)
 (hd:Divided σ1 σ' p q (Node.prev img) (Node.right img)) :
 Linked σ' 0 ((leavesBefore fs).map Prod.fst++p::q::(leavesAfter fs).map Prod.fst) 0 := by
 have hnd:=h.opened.leafPages_nodup
 have hmid:=nodup_cons.mp (perm_middle.nodup_iff.mp hnd)
 have hne:∀ r∈(leavesBefore fs).map Prod.fst++(leavesAfter fs).map Prod.fst,r≠p ∧ r≠q:=by
  intro r hr
  refine ⟨fun he=>hmid.1 (he ▸ hr),fun he=>hq ?_⟩
  rw [← he]
  simp only [mem_append,mem_cons] at hr ⊢
  tauto
 have hright:=h.right_eq
 refine Linked.insert h.linked hnd (hd.left_prev.trans h.prev) hd.left_right hd.right_prev
  (hd.right_right.trans h.right) ?_ ?_
 · intro n hn
   have hnx:Node.right img=n:=by
    rw [hright,headD_eq_head?_getD,hn,Option.getD_some]
   have hmem:=mem_of_mem_head? hn
   have hpos:=h.opened.held.pages.own_pos (h.leafPage_own (mem_append_right _ (mem_cons_of_mem _ hmem)))
   have hnext:=hd.next (by omega)
   rw [hnx,hsame n (hne n (mem_append_right _ hmem)).2] at hnext
   exact hnext
 · intro r hr hhead
   have hrn:r≠Node.right img:=by
    rintro rfl
    rw [hright] at hr hhead
    cases hA:(leavesAfter fs).map Prod.fst with
    | nil=>
     rw [hA,append_nil,headD_nil] at hr
     exact absurd (h.opened.held.pages.own_pos (h.leafPage_own (mem_append_left _ hr))) (by omega)
    | cons n rest=>
     rw [hA] at hhead
     exact hhead rfl
   rw [hd.same r (hne r hr).1 (hne r hr).2 hrn,hsame r (hne r hr).2]

lemma run_split_up {f:Frame} {gs:List Frame}
 (h:LeafReady ps σ (f::gs) p img A e B O free) (hb:b.pageSize=ps)
 (hroot:b.root=((f::gs).getLast (by simp)).page)
 (hfull:¬LeafFit ps (A++e::B)) (hfits:PutFits ps (f::gs) (A++e::B))
 (hroom:σ.header.pageCount+gs.length+3<2^64) :
 ∃ t' σ' free',b.splitLeaf (pathEntries (f::gs)++[⟨p,A.length⟩]) img A.length
   (e.cell ps) σ=(.ok (),σ') ∧
  LeafPut ps σ (f::gs) p (A++e::B) O t' σ' free' := by
 obtain ⟨L,R,hcut,hlen,hL,hR,hfL,hfR,hRdrop⟩:=h.parts hfull
 have hframes:=hfits.resolve_left hfull
 rw [← hRdrop] at hframes
 have hmin:=h.opened.held.pages.size_min
 have hmax:=h.opened.held.pages.size_max
 obtain ⟨q,σ1,free1,halloc,h1,hnot,hsame,hcnt⟩:=h.opened.held.allocate (by omega)
 have hes1:∀ d∈L++R,d.Holds ps σ1:=by
  intro d hd
  refine (h.entries_hold d (hcut ▸ hd)).congr fun r hr=>hsame r ?_
  rintro rfl
  refine hnot (mem_append_right _ (mem_cons_of_mem _ ?_))
  refine (chains_perm A e B O).mem_iff.mp (mem_append_left _ ?_)
  exact mem_flatMap.mpr ⟨d,hcut ▸ hd,hr⟩
 have h2:Holding ps σ1 (pathFacts (f::gs) p)
   (p::q::((L++R).flatMap Entry.chain++O)) free1:=by
  refine ⟨h1.pages.reorder (List.Perm.append_left _ ?_),h1.facts⟩
  rw [← hcut]
  exact (List.Perm.swap _ _ _).trans (((chains_perm A e B O).cons p).cons q)
 obtain ⟨nes,hnx⟩:=h.next_leaf
 obtain ⟨σ2,σ3,σ4,hw1,hw2,hw3,h4,hdiv,hhdr⟩:=divide_run h2 hes1 hfL hfR (prev_lt img) hnx
 have hq:q<2^64:=h1.pages.own_lt_u64 (by simp)
 have hp:p<2^64:=h1.pages.own_lt_u64 (by simp)
 have hkey:=right_key (l:=p) (n:=Node.right img) hmin hmax hR
  (fun d hd=>(hes1 d (mem_append_right _ hd)).1) hfR hp (right_lt img)
 have hheadle:(headKey R).length ≤ maxKeyBytesFor ps:=by
  obtain ⟨r,R,rfl⟩:=exists_cons_of_ne_nil hR
  exact (hes1 r (by simp)).1.key_le
 have h5:Holding ps σ4 ((Tree.leaf p L).facts++((Tree.leaf q R).facts ++
   pathFacts (f::gs) (Tree.leaf p L).page)) O free1:=h4.perm (List.Perm.swap _ _ _)
 obtain ⟨t',σ',free',hrun,hins⟩:=insertSeparator_run hb
  (pathEntries (f::gs)++[⟨p,A.length⟩]) O gs f σ4 (.leaf p L) (headKey R) (.leaf q R) free1
  (prefix_append _ _) hroot h5 hheadle hframes (by rw [hhdr]; omega)
 have hback:=back_append (pathEntries (f::gs)) ⟨p,A.length⟩
 have hplen:(pathEntries (f::gs)++[PathEntry.mk p A.length]).length=gs.length+2:=by
  simp [pathEntries]
 refine ⟨t',σ',free',?_,?_,hins.held,?_,?_,?_⟩
 · rw [h.splitLeaf_eq hb hcut hlen,bind_of_ok _ halloc,if_neg (by omega),hback,hplen,bind_of_ok _ (pure_run p σ1)]
   simp only [hkey]
   rw [bind_of_ok _ hw1,bind_of_ok _ hw2,bind_of_ok _ hw3,if_neg (by omega)]
   exact hrun
 · rw [hcut]
   exact .split q (hcut ▸ hfull) (hcut ▸ hlen) hins.tree
 · have hl4:=h.divided_linked (fun hm=>hnot (h.leafPage_own hm)) hsame hdiv
   rw [Tree.leafPages,hins.tree.leaves]
   simp only [leaf_leaves,map_append,map_cons,append_assoc,cons_append,nil_append]
   refine hl4.congr _ _ _ fun r hr=>?_
   obtain ⟨es,hx⟩:∃ es,Fact.leaf r es∈(Tree.leaf p L).facts++((Tree.leaf q R).facts ++
     pathFacts (f::gs) (Tree.leaf p L).page):=by
    rcases mem_cons.mp (perm_middle.mem_iff.mp hr) with rfl | hr
    · exact ⟨L,by simp [Tree.facts]⟩
    · rcases mem_cons.mp (perm_middle.mem_iff.mp hr) with rfl | hr
      · exact ⟨R,by simp [Tree.facts]⟩
      · obtain ⟨es,hx⟩:=side_leafPage hr p
        exact ⟨es,by simp [Tree.page,hx]⟩
   refine hins.same r ?_ (leaf_not_frame (a:=p) (fun x hx=>h5.facts x (by simp [Tree.page,hx])) (h5.facts _ hx))
   have hown:=h5.mem_own hx (mem_cons_self (a:=r))
   rw [flatMap_append,flatMap_append,pathPages_eq,append_assoc,append_assoc] at hown
   exact hown
 · intro r hr
   have hdis:=(nodup_append.mp h2.pages.own_nodup).2
   have hrO:∀ y∈(pathFacts (f::gs) p).flatMap Fact.pages,r≠y:=by
    rintro y hy rfl
    exact hdis.2 r hy r (by simp [hr]) rfl
   have hrp:r≠p ∧ r≠q:=by
    obtain ⟨h6,h7⟩:=nodup_cons.mp hdis.1
    refine ⟨?_,?_⟩
    · rintro rfl
      exact h6 (by simp [hr])
    · rintro rfl
      exact (nodup_cons.mp h7).1 (by simp [hr])
   have hrn:r≠Node.right img:=by
    rcases hnx with h0 | hx
    · rw [h0]
      exact (h2.pages.own_pos (p:=r) (by simp [hr])).ne'
    · exact hrO _ (mem_flatMap.mpr ⟨_,hx,mem_cons_self⟩)
   have hframe:r ∉ (f::gs).map Frame.page:=by
    intro hm
    obtain ⟨g,hg,hgp⟩:=mem_map.mp hm
    obtain ⟨hole',hx⟩:=frame_fact_mem hg p
    exact hrO g.page (mem_flatMap.mpr ⟨_,hx,mem_cons_self⟩) hgp.symm
   rw [hins.same r (by simp [hr]) hframe,hdiv.same r hrp.1 hrp.2 hrn,hsame r hrp.2]
 · have:=hins.count
   rw [hhdr] at this
   rw [length_cons] at this ⊢
   omega

lemma run_split_root (h:LeafReady ps σ [] p img A e B O free) (hb:b.pageSize=ps)
 (hroot:b.root=p) (hfull:¬LeafFit ps (A++e::B)) (hroom:σ.header.pageCount+2<2^64) :
 ∃ t' σ' free',b.splitLeaf [⟨p,A.length⟩] img A.length (e.cell ps) σ=(.ok (),σ') ∧
  LeafPut ps σ [] p (A++e::B) O t' σ' free' := by
 obtain ⟨L,R,hcut,hlen,hL,hR,hfL,hfR,_⟩:=h.parts hfull
 have hmin:=h.opened.held.pages.size_min
 have hmax:=h.opened.held.pages.size_max
 obtain ⟨q,σ1,free1,halloc,h1,hnot,hsame,hcnt⟩:=h.opened.held.allocate (by omega)
 obtain ⟨l,σ2,free2,halloc2,h2,hnot2,hsame2,hcnt2⟩:=h1.allocate (by omega)
 have hes:∀ d∈L++R,d.Holds ps σ2:=by
  intro d hd
  refine (h.entries_hold d (hcut ▸ hd)).congr fun r hr=>?_
  have hmem:r∈(A++B).flatMap Entry.chain++(e.chain++O):=
   (chains_perm A e B O).mem_iff.mp (mem_append_left _ (mem_flatMap.mpr ⟨d,hcut ▸ hd,hr⟩))
  have hrq:r≠q:=fun he=>
   hnot (mem_append_right _ (mem_cons_of_mem _ (he ▸ hmem)))
  have hrl:r≠l:=fun he=>hnot2 (mem_append_right _ (mem_cons_of_mem _ (mem_cons_of_mem _ (he ▸ hmem))))
  rw [hsame2 r hrl,hsame r hrq]
 have h3:Holding ps σ2 [] (l::q::((L++R).flatMap Entry.chain++(p::O))) free2:=by
  refine ⟨h2.pages.reorder (((?_:List.Perm _ _).cons q).cons l),by simp⟩
  rw [← hcut]
  exact perm_middle.trans ((chains_perm A e B O).cons p)
 have hnx:Node.right img=0:=h.right_eq
 have hpv:Node.prev img=0:=h.prev.trans ((linked_at σ [] [] p 0 0).mp h.linked).2.1
 obtain ⟨σ3,σ4,σ5,hw1,hw2,hw3,h5,hdiv,hhdr⟩:=divide_run (v:=Node.prev img)
  (n:=Node.right img) (e:=[]) h3 hes hfL hfR (prev_lt img) (Or.inl hnx)
 have hq:q<2^64:=h1.pages.own_lt_u64 (by simp)
 have hl:l<2^64:=h2.pages.own_lt_u64 (by simp)
 have hkey:=right_key (l:=l) (n:=Node.right img) hmin hmax hR
  (fun d hd=>(hes d (mem_append_right _ hd)).1) hfR hl (right_lt img)
 have hheadle:(headKey R).length ≤ maxKeyBytesFor ps:=by
  obtain ⟨r,R,rfl⟩:=exists_cons_of_ne_nil hR
  exact (hes r (by simp)).1.key_le
 have hklt:=maxKeyBytesFor_lt hmax
 obtain ⟨hroots,hrootr⟩:=BTree.interiorImage_slotted hmin hmax [(headKey R,l)] q
  (by simp only [mem_singleton,forall_eq]; omega) hq (by
   have:=key_room hmin hheadle
   simp only [map_cons,map_nil,weight_cons,weight_nil,buildInteriorCell_length]
   omega)
 generalize hT:BTree.interiorImage ps [(headKey R,l)] q=T at hroots hrootr
 obtain ⟨hw4,h6⟩:=h5.writeOther (p:=p) (d:=T) mem_cons_self hroots.length
 have hnd:=(nodup_append.mp h3.pages.own_nodup).2.1
 obtain ⟨hl1,hnd1⟩:=nodup_cons.mp hnd
 obtain ⟨hq1,hnd2⟩:=nodup_cons.mp hnd1
 have hpO:p ∉ O:=(nodup_cons.mp (nodup_append.mp hnd2).2.1).1
 have hlp:l≠p:=fun he=>hl1 (by rw [he]; simp)
 have hqp:q≠p:=fun he=>hq1 (by rw [he]; simp)
 have hlq:l≠q:=fun he=>hl1 (by rw [he]; simp)
 have hcnt':(σ5.setDirty p T).header.pageCount≤σ.header.pageCount+2:=by
  rw [WriteTxn.setDirty_header,hhdr]
  omega
 have htree:PutLeaf ps [] p (A++e::B)
   (.node p [(headKey R,.leaf l L)] (.leaf q R)):=by
  rw [hcut]
  exact .root l q (hcut ▸ hfull) (hcut ▸ hlen)
 refine ⟨_,σ5.setDirty p T,free2,?_,htree,?_,?_,?_,hcnt'⟩
 · rw [h.splitLeaf_eq hb hcut hlen,bind_of_ok _ halloc]
   simp only [length_singleton,if_true]
   rw [bind_of_ok _ halloc2,bind_of_ok _ hw1,bind_of_ok _ hw2,bind_of_ok _ hw3,hkey,hroot,hT]
   exact hw4
 · refine (h6.adopt (x:=.node p [(headKey R,l)] q) ?_).perm ?_
   · rw [Fact.Holds,WriteTxn.setDirty_page_self]
     exact ⟨hroots,hrootr,by simpa using hheadle⟩
   · simp only [Tree.facts,Tree.kidsFacts,map_cons,map_nil,Tree.page,append_nil,singleton_append]
     exact (List.Perm.swap _ _ _).cons _
 · have hlink:(Tree.node p [(headKey R,.leaf l L)] (.leaf q R)).leafPages=[l,q]:=by
    simp [Tree.leafPages]
   rw [hlink,Linked,Linked,WriteTxn.setDirty_page_of_ne _ _ hlp,
    WriteTxn.setDirty_page_of_ne _ _ hqp,hdiv.left_prev,hdiv.left_right,hdiv.right_prev,hdiv.right_right,hpv,hnx]
   exact ⟨rfl,rfl,rfl,rfl,trivial⟩
 · intro r hr
   have hrl:r≠l:=fun he=>hl1 (by rw [← he]; simp [hr])
   have hrq:r≠q:=fun he=>hq1 (by rw [← he]; simp [hr])
   have hrn:r≠Node.right img:=by
    rw [hnx]
    exact (h3.pages.own_pos (p:=r) (by simp [hr])).ne'
   have hrp:r≠p:=fun he=>hpO (he ▸ hr)
   rw [WriteTxn.setDirty_page_of_ne _ _ hrp,hdiv.same r hrl hrq hrn,hsame2 r hrl,hsame r hrq]

lemma run (h:LeafReady ps σ fs p img A e B O free) (hb:b.pageSize=ps)
 (hroot:b.root=(plugAll fs (.leaf p (A++e::B))).page)
 (hfits:PutFits ps fs (A++e::B))
 (hroom:σ.header.pageCount+fs.length+2<2^64) :
 ∃ t' σ' free',
  (if fits img (e.cell ps).length then
   writePage p (insertCell img A.length (e.cell ps))
  else if fitsAfterDefrag img (e.cell ps).length then
   writePage p (insertCell (defragment ps img) A.length (e.cell ps))
  else b.splitLeaf (pathEntries fs++[⟨p,A.length⟩]) img A.length (e.cell ps):TxnM Unit) σ =
   (.ok (),σ') ∧
  LeafPut ps σ fs p (A++e::B) O t' σ' free' := by
 rcases Classical.em (LeafFit ps (A++e::B)) with hfit | hfull
 · obtain ⟨t',σ',free',hw,hroomy,hput⟩:=h.run_fits hfit
   exact ⟨t',σ',free',by rw [roomy_branch hroomy]; exact hw,hput⟩
 · rw [crowded_branch h.opened.image (h.crowded hfull)]
   cases fs with
   | nil=>exact h.run_split_root hb hroot hfull hroom
   | cons f gs=>
    rw [length_cons] at hroom
    rw [plugAll_page] at hroot
    exact h.run_split_up hb hroot hfull hfits (by omega)

end LeafReady

section InsertIntoLeaf
variable {ps:ℕ} {σ σ':WriteTxn} {fs:List Frame} {p:ℕ} {img img':Bytes}
 {A B es:List Entry} {e:Entry} {O free:List ℕ} {b:BTree}

/-- The links of the open leaf and its path, `img` being the leaf's image. -/
structure LeafLinks (σ:WriteTxn) (fs:List Frame) (p:ℕ) (img:Bytes) : Prop where
 linked : Linked σ 0 ((leavesBefore fs).map Prod.fst++p::(leavesAfter fs).map Prod.fst) 0
 prev : Node.prev img=Node.prev (σ.page p)
 right : Node.right img=Node.right (σ.page p)

lemma LeafLinks.congr (h:LeafLinks σ fs p img)
 (hsame:∀ r∈(leavesBefore fs).map Prod.fst++p::(leavesAfter fs).map Prod.fst,σ'.page r=σ.page r)
 (hprev:Node.prev img'=Node.prev img) (hright:Node.right img'=Node.right img) : LeafLinks σ' fs p img' := by
 have hp:=hsame p (by simp)
 refine ⟨h.linked.congr _ _ _ hsame,?_,?_⟩
 · rw [hprev,h.prev,hp]
 · rw [hright,h.right,hp]

lemma LeafOpen.leafPage_not (h:LeafOpen ps σ p img es (pathFacts fs p) O free) {r q:ℕ}
 (hr:r∈(leavesBefore fs).map Prod.fst++p::(leavesAfter fs).map Prod.fst) (hq:q∈es.flatMap Entry.chain++O) : r≠q := by
 rintro rfl
 rcases mem_cons.mp (perm_middle.mem_iff.mp hr) with rfl | hr
 · exact h.page_not_chain.1 hq
 · obtain ⟨nes,hx⟩:=side_leafPage hr p
   refine (nodup_append.mp h.held.pages.own_nodup).2.2 r (mem_flatMap.mpr ⟨_,hx,mem_cons_self⟩) r (mem_cons_of_mem _ hq) rfl

lemma LeafOpen.ready (h:LeafOpen ps σ p img (A++B) (pathFacts fs p) O free)
 (hl:LeafLinks σ fs p img) (hb:b.pageSize=ps) {key value:Bytes} (hne:key≠[])
 (hle:key.length ≤ maxKeyBytesFor ps) (hv:value.length<2^32) (hroom:σ.header.pageCount+2^24<2^64) : ∃ chain σ' free',
  b.makeLeafCell key value σ=(.ok (Entry.cell ps ⟨key,value,chain⟩),σ') ∧
  LeafReady ps σ' fs p img A ⟨key,value,chain⟩ B O free' ∧ (∀ r∈O,σ'.page r=σ.page r) ∧
  σ'.header.pageCount≤σ.header.pageCount+2^24 := by
 obtain ⟨chain,σ',free',hrun,hopen,hentry,hsame,hcnt⟩:=h.makeEntry hb hne hle hv hroom
 have hl':LeafLinks σ' fs p img:=by
  refine hl.congr (fun r hr=>hsame r fun hc=>?_) rfl rfl
  exact hopen.leafPage_not hr (mem_append_right _ (mem_append_left _ hc)) rfl
 refine ⟨chain,σ',free',hrun,⟨hopen,hentry,hl'.linked,hl'.prev,hl'.right⟩,?_,hcnt⟩
 intro r hr
 refine hsame r fun hc=>?_
 have hnd:=(nodup_append.mp hopen.held.pages.own_nodup).2.1
 have hnd':=(nodup_append.mp (nodup_cons.mp hnd).2).2.1
 exact (nodup_append.mp hnd').2.2 r hc r hr rfl

lemma insertIntoLeaf_tail (h:LeafOpen ps σ p img (A++B) (pathFacts fs p) O free)
  (hl:LeafLinks σ fs p img) (hb:b.pageSize=ps)
  (hroot:b.root=(plugAll fs (.leaf p [])).page) {key value:Bytes} (hne:key≠[])
  (hle:key.length ≤ maxKeyBytesFor ps) (hv:value.length<2^32)
  (hfits:∀ chain,PutFits ps fs (A++⟨key,value,chain⟩::B))
  (hroom:σ.header.pageCount+2^24+fs.length+2<2^64) :
  ∃ chain t' σ' free',
   (do
    let cell ← b.makeLeafCell key value
    if Node.fits img cell.length then
     writePage p (Node.insertCell img A.length cell)
    else if Node.fitsAfterDefrag img cell.length then
     writePage p (Node.insertCell (Node.defragment ps img) A.length cell)
    else b.splitLeaf (pathEntries fs++[⟨p,A.length⟩]) img A.length cell:TxnM Unit) σ =
    (.ok (),σ') ∧
   PutLeaf ps fs p (A++⟨key,value,chain⟩::B) t' ∧ Holding ps σ' t'.facts O free' ∧
   Linked σ' 0 t'.leafPages 0 ∧ (∀ r∈O,σ'.page r=σ.page r) ∧
   σ'.header.pageCount≤σ.header.pageCount+2^24+fs.length+2 ∧
   (¬LeafFit ps (A++⟨key,value,chain⟩::B) →
    0<BTree.splitPoint ((A++⟨key,value,chain⟩::B).map (Entry.cell ps)) ∧
    BTree.splitPoint ((A++⟨key,value,chain⟩::B).map (Entry.cell ps)) <
     (A++(⟨key,value,chain⟩:Entry)::B).length) := by
 obtain ⟨chain,σ1,free1,hrun,hready,hsame,hcnt⟩:=h.ready hl hb hne hle hv (by omega)
 have hroot':∀ es,b.root=(plugAll fs (.leaf p es)).page:=by
  intro es
  rw [hroot]
  cases fs with
  | nil=>rfl
  | cons f gs=>rw [plugAll_page,plugAll_page]
 obtain ⟨t',σ',free',hrun',hput⟩:=hready.run hb (hroot' _) (hfits chain) (by omega)
 refine ⟨chain,t',σ',free',?_,hput.tree,hput.held,hput.linked,?_,?_,hready.split_pos⟩
 · rw [bind_of_ok _ hrun]
   exact hrun'
 · intro r hr
   rw [hput.same r hr,hsame r hr]
 · have:=hput.count
   omega

end InsertIntoLeaf

lemma Fact.Holds.keysLe {ps:ℕ} {σ:WriteTxn} {x:Fact} (h:x.Holds ps σ) : x.KeysLe ps := by
 cases x with
 | leaf p es=>trivial
 | node p cells r=>exact h.2.2

lemma slotOf_eq {A B:List Entry} {key:Bytes} (hA:∀ e∈A,e.key<key) (hB:∀ e∈B,key≤e.key) : slotOf (A++B) key=A.length := by
 have hA':∀ e∈A,decide (e.key<key)=true:=fun e he=>decide_eq_true (hA e he)
 rw [slotOf,takeWhile_append_of_pos hA']
 cases B with
 | nil=>simp
 | cons d B=>
  have hd:=hB d mem_cons_self
  rw [takeWhile_cons_of_neg (by simpa using hd),append_nil]

lemma pairwise_insert {X Y:List Mark} {m:Mark} (h:(X++Y).Pairwise (· < ·))
 (hX:∀ x∈X,x < m) (hY:∀ y∈Y,m<y) : (X++m::Y).Pairwise (· < ·) := by
 obtain ⟨h1,h2,h3⟩:=pairwise_append.mp h
 refine pairwise_append.mpr ⟨h1,pairwise_cons.mpr ⟨hY,h2⟩,?_⟩
 intro x hx y hy
 rcases mem_cons.mp hy with rfl | hy
 · exact hX x hx
 · exact h3 x hx y hy

/-- Where an entry stands in a leaf: `C` is the entry with the same key, if there is one. -/
structure AtSlot (A C B:List Entry) (key:Bytes) : Prop where
 below : ∀ e∈A,e.key<key
 same : ∀ e∈C,e.key=key
 above : ∀ e∈B,key<e.key
 one : C.length ≤ 1

lemma AtSlot.slotOf {A C B:List Entry} {key:Bytes} (h:AtSlot A C B key) : slotOf (A++(C++B)) key=A.length := by
 refine slotOf_eq h.below fun e he=>?_
 rcases mem_append.mp he with he | he
 · exact (h.same e he).ge
 · exact (h.above e he).le

lemma atSlot_exists {es:List Entry} (hsort:es.Pairwise fun a b=>a.key<b.key)
 (key:Bytes) : ∃ A C B,es=A++(C++B) ∧ AtSlot A C B key := by
 have hsplit:=take_append_drop (TreeShape.slotOf es key) es
 have hlt:∀ e∈es.take (TreeShape.slotOf es key),e.key<key:=take_slotOf_lt key
 rcases slot_cases hsort key with ⟨e,hget,hk,hgt⟩ | ⟨_,hgt⟩
 · obtain ⟨hi,he⟩:=List.getElem?_eq_some_iff.mp hget
   refine ⟨es.take (TreeShape.slotOf es key),[e],es.drop (TreeShape.slotOf es key+1),?_,hlt,by simpa using hk,hgt,by simp⟩
   rw [← he,singleton_append,getElem_cons_drop,hsplit]
 · exact ⟨_,[],_,by rw [nil_append,hsplit],hlt,by simp,hgt,by simp⟩

section TreeAfter
variable {ps:ℕ} {σ σ':WriteTxn} {fs:List Frame} {p:ℕ} {A C B:List Entry} {key:Bytes}
 {O free free':List ℕ}

lemma insert_sorted {e:Entry} (hs:(plugAll fs (.leaf p (A++(C++B)))).marks.Pairwise (· < ·))
 (hf:Focus fs e.key) (hslot:AtSlot A C B e.key) : (pathMarksBefore fs++(A++e::B).map (fun e=>keyMark e.key) ++
  pathMarksAfter fs).Pairwise (· < ·) := by
 rw [plugAll_marks,Tree.marks] at hs
 have hsub:((pathMarksBefore fs++A.map fun e=>keyMark e.key) ++ ((B.map fun e=>keyMark e.key)++pathMarksAfter fs)).Sublist
   (pathMarksBefore fs++(A++(C++B)).map (fun e=>keyMark e.key) ++
    pathMarksAfter fs):=by
  simp only [map_append,append_assoc]
  refine List.Sublist.append_left (List.Sublist.append_left ?_ _) _
  exact sublist_append_right _ _
 have h:=pairwise_insert (m:=keyMark e.key) (hs.sublist hsub) ?_ ?_
 · simpa using h
 · intro m hm
   rcases mem_append.mp hm with hm | hm
   · exact hf.below m hm
   · obtain ⟨d,hd,rfl⟩:=mem_map.mp hm
     exact (keyMark_lt_keyMark _ _).mpr (hslot.below d hd)
 · intro m hm
   rcases mem_append.mp hm with hm | hm
   · obtain ⟨d,hd,rfl⟩:=mem_map.mp hm
     exact (keyMark_lt_keyMark _ _).mpr (hslot.above d hd)
   · exact hf.above m hm

lemma path_nonempty {f:Frame} {gs:List Frame} {t:Tree}
 (h:(plugAll (f::gs) t).Filled) : ∀ x∈t.facts++pathFacts (f::gs) t.page,x.Nonempty := by
 rcases h with ⟨q,es,hq⟩ | hall
 · have hn:∀ (hs:List Frame) (u:Tree),(∃ p kids z,u=.node p kids z) →
     ∃ p kids z,plugAll hs u=.node p kids z:=by
    intro hs
    induction hs with
    | nil=>exact fun u hu=>hu
    | cons g hs ih=>
     intro u _
     refine ih (g.plug u) ?_
     cases g with
     | cell p l s rest z=>exact ⟨_,_,_,rfl⟩
     | last p l=>exact ⟨_,_,_,rfl⟩
   obtain ⟨p,kids,z,hp⟩:=hn gs (f.plug t) (by
    cases f with
    | cell p l s rest z=>exact ⟨_,_,_,rfl⟩
    | last p l=>exact ⟨_,_,_,rfl⟩)
   rw [plugAll,hp] at hq
   cases hq
 · intro x hx
   exact hall x ((plugAll_facts_perm (f::gs) t).mem_iff.mpr hx)

lemma PutLeaf.filled {es es0:List Entry} {t':Tree} (h:PutLeaf ps fs p es t') (hmin:kMinPageSize≤ps) (hne:es≠[])
 (hold:(plugAll fs (.leaf p es0)).Filled)
 (hkeys:∀ x∈pathFacts fs p,x.KeysLe ps) (hle:∀ e∈es,e.key.length ≤ maxKeyBytesFor ps)
 (hpos:¬LeafFit ps es → 0<BTree.splitPoint (es.map (Entry.cell ps)) ∧
  BTree.splitPoint (es.map (Entry.cell ps))<es.length) : t'.Filled := by
 have hparts:∀ {L R:List Entry},L++R=es → ¬LeafFit ps es →
   L.length=BTree.splitPoint (es.map (Entry.cell ps)) → L≠[] ∧ R≠[]:=by
  rintro L R rfl hfull hcut
  obtain ⟨h1,h2⟩:=hpos hfull
  rw [← hcut] at h1 h2
  rw [length_append] at h2
  exact ⟨ne_nil_of_length_pos h1,ne_nil_of_length_pos (by omega)⟩
 cases h with
 | fits hfit=>
  cases fs with
  | nil=>exact Or.inl ⟨p,es,rfl⟩
  | cons f gs=>
   right
   intro x hx
   have hx':=(plugAll_facts_perm (f::gs) (.leaf p es)).mem_iff.mp hx
   rcases mem_append.mp hx' with hx' | hx'
   · rw [mem_singleton.mp hx']
     exact hne
   · exact path_nonempty hold x (mem_append_right _ hx')
 | @split f gs _ L R _ q hfull hcut up=>
  obtain ⟨hL,hR⟩:=hparts rfl hfull hcut
  have hhead:(headKey R).length ≤ maxKeyBytesFor ps:=by
   obtain ⟨r,R,rfl⟩:=exists_cons_of_ne_nil hR
   exact hle r (by simp)
  right
  refine up.nonempty hmin hhead hkeys fun x hx=>?_
  rcases mem_append.mp hx with hx | hx
  · rw [mem_singleton.mp hx]
    exact hL
  · rcases mem_append.mp hx with hx | hx
    · rw [mem_singleton.mp hx]
      exact hR
    · exact path_nonempty hold x (mem_append_right _ hx)
 | @root _ L R l r hfull hcut=>
  obtain ⟨hL,hR⟩:=hparts rfl hfull hcut
  right
  intro x hx
  simp only [Tree.facts,Tree.kidsFacts,append_nil,singleton_append,mem_cons,not_mem_nil,or_false] at hx
  rcases hx with rfl | rfl | rfl
  · simp [Fact.Nonempty]
  · exact hL
  · exact hR

end TreeAfter

section Put
variable {ps:ℕ} {σ:WriteTxn} {fs:List Frame} {p:ℕ} {A C B:List Entry} {key value:Bytes}
 {O free:List ℕ} {b:BTree}

lemma TreeAt.leafHeld (h:TreeAt ps σ (plugAll fs (.leaf p (A++(C++B)))) O free) :
 Holding ps σ (.leaf p (A++(C++B))::pathFacts fs p) O free :=
 Holding.perm ⟨h.pages,h.facts⟩ (plugAll_facts_perm fs (.leaf p (A++(C++B)))).symm

lemma TreeAt.leafLinks (h:TreeAt ps σ (plugAll fs (.leaf p (A++(C++B)))) O free) : LeafLinks σ fs p (σ.page p) := by
 have hl:=h.linked
 rw [plugAll_leafPages] at hl
 exact ⟨hl,rfl,rfl⟩

lemma TreeAt.openWithout {old:Entry} (h:TreeAt ps σ (plugAll fs (.leaf p (A++([old]++B)))) O free) :
 ∃ σ1 free1,BTree.freeCellOverflow (σ.page p) A.length σ=(.ok (),σ1) ∧
  LeafOpen ps σ1 p (Node.removeCell (σ.page p) A.length) (A++B) (pathFacts fs p) O free1 ∧
  LeafLinks σ1 fs p (Node.removeCell (σ.page p) A.length) ∧
  (∀ r∈O,σ1.page r=σ.page r) ∧ σ1.header.pageCount=σ.header.pageCount := by
 have hopen:=LeafOpen.ofHeld h.leafHeld
 obtain ⟨σ1,free1,hrun,hopen1,hsame,hcnt⟩:=hopen.removeEntry (e:=old)
 have himg:=hopen.image
 rw [map_append,cons_append,nil_append,map_cons] at himg
 have hprev:=himg.removeCell_prev
 have hright:=himg.removeCell_right
 rw [length_map] at hprev hright
 have hchain:∀ r∈old.chain,r∈(A++([old]++B)).flatMap Entry.chain++O:=by
  intro r hr
  exact mem_append_left _ (mem_flatMap.mpr ⟨old,by simp,hr⟩)
 refine ⟨σ1,free1,hrun,hopen1,h.leafLinks.congr (fun r hr=>hsame r fun hc=>?_) hprev hright,
  fun r hr=>hsame r fun hc=>?_,hcnt⟩
 · exact hopen.leafPage_not hr (hchain r hc) rfl
 · have hnd:=(nodup_append.mp hopen.held.pages.own_nodup).2.1
   refine (nodup_append.mp (nodup_cons.mp hnd).2).2.2 r ?_ r hr rfl
   exact mem_flatMap.mpr ⟨old,by simp,hc⟩

lemma insertIntoLeaf_run (h:TreeAt ps σ (plugAll fs (.leaf p (A++(C++B)))) O free)
 (hb:b.pageSize=ps) (hroot:b.root=(plugAll fs (.leaf p (A++(C++B)))).page)
 (hf:Focus fs key) (hslot:AtSlot A C B key) (hne:key≠[]) (hle:key.length ≤ maxKeyBytesFor ps) (hv:value.length<2^32)
 (hfits:∀ chain,PutFits ps fs (A++⟨key,value,chain⟩::B)) (hroom:σ.header.pageCount+2^24+fs.length+2<2^64) :
 ∃ chain t' σ' free',b.insertIntoLeaf (pathEntries fs++[⟨p,A.length⟩]) (σ.page p) key value A.length
   (!C.isEmpty) σ=(.ok (),σ') ∧ PutLeaf ps fs p (A++⟨key,value,chain⟩::B) t' ∧ TreeAt ps σ' t' O free' ∧
  (∀ r∈O,σ'.page r=σ.page r) ∧ σ'.header.pageCount≤σ.header.pageCount+2^24+fs.length+2 := by
 have hroot':b.root=(plugAll fs (.leaf p [])).page:=
  hroot.trans (plugAll_leaf_page fs p _ [])
 have hheld:=h.leafHeld
 have hopen:=LeafOpen.ofHeld hheld
 have hlinks:=h.leafLinks
 have hback:=back_append (pathEntries fs) ⟨p,A.length⟩
 -- the leaf without the old entry, its chain freed
 obtain ⟨σ1,free1,img,hopen1,hlinks1,hsame1,hcnt1,hcode⟩ :
   ∃ σ1 free1 img,LeafOpen ps σ1 p img (A++B) (pathFacts fs p) O free1 ∧ LeafLinks σ1 fs p img ∧ (∀ r∈O,σ1.page r=σ.page r) ∧
    σ1.header.pageCount=σ.header.pageCount ∧
    b.insertIntoLeaf (pathEntries fs++[⟨p,A.length⟩]) (σ.page p) key value A.length (!C.isEmpty) σ = (do
      let cell ← b.makeLeafCell key value
      if Node.fits img cell.length then
       writePage p (Node.insertCell img A.length cell)
      else if Node.fitsAfterDefrag img cell.length then
       writePage p (Node.insertCell (Node.defragment ps img) A.length cell)
      else b.splitLeaf (pathEntries fs++[⟨p,A.length⟩]) img A.length cell :
       TxnM Unit) σ1:=by
  cases C with
  | nil=>
   refine ⟨σ,free,σ.page p,hopen,hlinks,fun _ _=>rfl,rfl,?_⟩
   simp only [BTree.insertIntoLeaf,isEmpty_nil,Bool.not_true,Bool.false_eq_true,if_false,hback,hb]
  | cons old C=>
   have hC:C=[]:=by
    have:=hslot.one
    rw [length_cons] at this
    exact length_eq_zero_iff.mp (by omega)
   subst hC
   obtain ⟨σ1,free1,hrun,hopen1,hlinks1,hsame,hcnt⟩:=h.openWithout
   refine ⟨σ1,free1,_,hopen1,hlinks1,hsame,hcnt,?_⟩
   simp only [BTree.insertIntoLeaf,isEmpty_cons,Bool.not_false,if_true,hback,hb]
   rw [bind_of_ok _ hrun]
 obtain ⟨chain,t',σ',free',hrun,htree,hheld',hlinked,hsame,hcnt,hpos⟩:=
  insertIntoLeaf_tail hopen1 hlinks1 hb hroot' hne hle hv hfits (by rw [hcnt1]; exact hroom)
 have hkeysle:∀ e∈A++(⟨key,value,chain⟩:Entry)::B,e.key.length ≤ maxKeyBytesFor ps:=by
  intro e he
  rcases mem_append.mp he with he | he
  · exact (hopen1.entries e (mem_append_left _ he)).1.key_le
  · rcases mem_cons.mp he with rfl | he
    · exact hle
    · exact (hopen1.entries e (mem_append_right _ he)).1.key_le
 refine ⟨chain,t',σ',free',hcode.trans hrun,htree,⟨hheld'.pages,hheld'.facts,?_,hlinked,
  ?_⟩,fun r hr=>(hsame r hr).trans (hsame1 r hr),by rw [← hcnt1]; exact hcnt⟩
 · exact htree.sorted hpos (insert_sorted h.sorted hf hslot)
 · exact htree.filled h.pages.size_min (by simp) h.filled
    (fun x hx=>(hheld.facts x (mem_cons_of_mem _ hx)).keysLe) hkeysle hpos

lemma AtSlot.found_iff (hslot:AtSlot A C B key) : (∃ e,(A++(C++B))[A.length]? = some e ∧ e.key=key) ↔ C≠[] := by
 rw [getElem?_append_right (Nat.le_refl _),Nat.sub_self]
 cases C with
 | nil=>
  constructor
  · rintro ⟨e,he,hk⟩
    have:=hslot.above e (mem_of_getElem? he)
    rw [hk] at this
    exact absurd this (lt_irrefl _)
  · intro hn
    exact absurd rfl hn
 | cons c C=>
  constructor
  · intro _
    simp
  · intro _
    exact ⟨c,rfl,hslot.same c mem_cons_self⟩

lemma TreeAt.leaf_entries (h:TreeAt ps σ (plugAll fs (.leaf p (A++(C++B)))) O free) :
 Slotted ps (σ.page p) kLeaf ((A++(C++B)).map (Entry.cell ps)) ∧ ∀ e∈A++(C++B),e.Holds ps σ :=
 h.facts _ (leaf_fact_mem fs p _)

lemma TreeAt.found_eq (h:TreeAt ps σ (plugAll fs (.leaf p (A++(C++B)))) O free)
 (hslot:AtSlot A C B key) : (decide (A.length<Node.count (σ.page p)) &&
  compareBytes (Node.key (σ.page p) A.length) key == .eq) = !C.isEmpty := by
 obtain ⟨hs,he⟩:=h.leaf_entries
 have hfound:=(leaf_match_iff h.pages.size_max hs (fun e hm=>(he e hm).1) A.length key).trans hslot.found_iff
 rw [Bool.eq_iff_iff,Bool.and_eq_true,decide_eq_true_eq,beq_iff_eq,hfound]
 cases C <;> simp

lemma put_at (h:TreeAt ps σ (plugAll fs (.leaf p (A++(C++B)))) O free)
 (hb:b.pageSize=ps) (hroot:b.root=(plugAll fs (.leaf p (A++(C++B)))).page)
 (hf:Focus fs key) (hslot:AtSlot A C B key) (hlen:fs.length<64) (hne:key≠[])
 (hle:key.length ≤ maxKeyBytesFor ps) (hv:value.length<2^32) (hfits:∀ chain,PutFits ps fs (A++⟨key,value,chain⟩::B))
 (hroom:σ.header.pageCount+2^24+66<2^64) : ∃ chain t' σ' free',b.put key value σ=(.ok (),σ') ∧
  PutLeaf ps fs p (A++⟨key,value,chain⟩::B) t' ∧ TreeAt ps σ' t' O free' ∧ (∀ r∈O,σ'.page r=σ.page r) ∧
  σ'.header.pageCount≤σ.header.pageCount+2^24+66 := by
 obtain ⟨chain,t',σ',free',hrun,htree,hat,hsame,hcnt⟩:=
  insertIntoLeaf_run h hb hroot hf hslot hne hle hv hfits (by omega)
 refine ⟨chain,t',σ',free',?_,htree,hat,hsame,by omega⟩
 rw [BTree.put,BTree.maxKeyBytes,hb,if_neg (by push Not; exact ⟨hne,hle⟩),bind_of_ok _ (findLeaf_at h hroot hf hlen)]
 simp only [hslot.slotOf,back_append,h.found_eq hslot]
 exact hrun

lemma insertIfAbsent_at (h:TreeAt ps σ (plugAll fs (.leaf p (A++(C++B)))) O free)
 (hb:b.pageSize=ps) (hroot:b.root=(plugAll fs (.leaf p (A++(C++B)))).page)
 (hf:Focus fs key) (hslot:AtSlot A C B key) (hlen:fs.length<64) (hne:key≠[])
 (hle:key.length ≤ maxKeyBytesFor ps) (hv:value.length<2^32)
 (hfits:C=[] → ∀ chain,PutFits ps fs (A++⟨key,value,chain⟩::B)) (hroom:σ.header.pageCount+2^24+66<2^64) :
 (C≠[] ∧ b.insertIfAbsent key value σ=(.ok false,σ)) ∨
 (C=[] ∧ ∃ chain t' σ' free',b.insertIfAbsent key value σ=(.ok true,σ') ∧
  PutLeaf ps fs p (A++⟨key,value,chain⟩::B) t' ∧ TreeAt ps σ' t' O free' ∧ (∀ r∈O,σ'.page r=σ.page r) ∧
  σ'.header.pageCount≤σ.header.pageCount+2^24+66) := by
 obtain ⟨hs,he⟩:=h.leaf_entries
 have hfound:=(leaf_match_iff h.pages.size_max hs (fun e hm=>(he e hm).1) A.length key).trans hslot.found_iff
 have hstart:∀ m:TxnM Bool,b.insertIfAbsent key value σ=m σ ↔ (if A.length<Node.count (σ.page p) ∧
     compareBytes (Node.key (σ.page p) A.length) key=.eq then pure false
    else do
     b.insertIntoLeaf (pathEntries fs++[⟨p,A.length⟩]) (σ.page p) key value A.length false
     return true:TxnM Bool) σ=m σ:=by
  intro m
  rw [BTree.insertIfAbsent,BTree.maxKeyBytes,hb,if_neg (by push Not; exact ⟨hne,hle⟩),
   bind_of_ok _ (findLeaf_at h hroot hf hlen)]
  simp only [hslot.slotOf,back_append]
 rcases eq_or_ne C [] with hC | hC
 · right
   obtain ⟨chain,t',σ',free',hrun,htree,hat,hsame,hcnt⟩:=
    insertIntoLeaf_run h hb hroot hf hslot hne hle hv (hfits hC) (by omega)
   refine ⟨hC,chain,t',σ',free',?_,htree,hat,hsame,by omega⟩
   have hrun':b.insertIntoLeaf (pathEntries fs++[⟨p,A.length⟩]) (σ.page p) key value
     A.length false σ=(.ok (),σ'):=by
    rw [← hrun,hC]
    rfl
   refine (hstart (fun _=>(.ok true,σ'))).mpr ?_
   rw [if_neg (mt hfound.mp (not_not.mpr hC)),bind_of_ok _ hrun']
   rfl
 · left
   refine ⟨hC,(hstart (fun _=>(.ok false,σ))).mpr ?_⟩
   rw [if_pos (hfound.mpr hC)]
   rfl

end Put

end Archivum.TreeShape
