import Archivum.TreeRemove

set_option autoImplicit false

/-!
# `erase` on pages

An emptied leaf is taken out of the chain of leaves and out of its parent; the
pages then hold the tree of `RemoveHole`.
-/
namespace Archivum.TreeShape
open ByteStrings StatefulActions PageTxn SlottedPage BTreeModel InteriorSplit List Node Act

lemma dropChild_slotted {ps:ℕ} {img:Bytes} {f:Frame} {hole:ℕ} {kids:List (Bytes × Tree)} {z:Tree}
 (hs:Slotted ps img kInterior ((f.cells hole).map fun c=>buildInteriorCell c.1 c.2))
 (hr:right img=f.right hole) (hrem:f.remove=some (kids,z)) (hz:z.page<2^64) :
 Slotted ps (BTree.dropChild img f.left.length) kInterior
   ((kids.map fun kt=>(kt.1,kt.2.page)).map fun c=>buildInteriorCell c.1 c.2) ∧
  right (BTree.dropChild img f.left.length)=z.page := by
 rw [BTree.dropChild,node_count hs]
 cases f with
 | cell p l s rest w=>
  rw [Frame.remove,Option.some.injEq,Prod.mk.injEq] at hrem
  rw [if_pos (by simp [Frame.cells,Frame.left]),← hrem.1,← hrem.2]
  rw [Frame.cells,map_append,map_cons] at hs
  have h1:=hs.removeCell
  have h2:=hs.removeCell_right
  rw [length_map,length_map] at h1 h2
  refine ⟨?_,h2.trans hr⟩
  rw [map_append,map_append]
  exact h1
 | last p l=>
  obtain ⟨k,rfl⟩:=Frame.remove_last hrem
  have hcells:Frame.cells (.last p (kids++[(k,z)])) hole =
    (kids.map fun kt=>(kt.1,kt.2.page))++[(k,z.page)]:=by
   rw [Frame.cells,map_append]
   rfl
  have hlast:(Frame.cells (.last p (kids++[(k,z)])) hole).length-1 =
    (kids.map fun kt=>(kt.1,kt.2.page)).length:=by
   rw [hcells,length_append]
   rfl
  have hget:(Frame.cells (.last p (kids++[(k,z)])) hole)[
    (kids.map fun kt=>(kt.1,kt.2.page)).length]? = some (k,z.page):=by
   rw [hcells,getElem?_append_right (Nat.le_refl _),Nat.sub_self]
   rfl
  rw [if_neg (by simp [Frame.cells,Frame.left]),hlast,node_child hs hget hz]
  have hs':=hs.setRight z.page
  have hr':=hs.setRight_right hz
  rw [hcells,map_append,map_cons] at hs'
  have h1:=hs'.removeCell
  have h2:=hs'.removeCell_right
  rw [length_map] at h1 h2
  rw [map_nil,append_nil] at h1
  exact ⟨h1,h2.trans hr'⟩

/-- The state after `prev` and `next` have been linked to each other. -/
def unlinked (σ:WriteTxn) (prev next:ℕ) : WriteTxn :=
 linkedTo (linkedTo σ prev fun nb=>setRight nb next) next fun nb=>setPrev nb prev

lemma unlinked_page_of_ne (σ:WriteTxn) {prev next r:ℕ} (h1:r≠prev) (h2:r≠next) : (unlinked σ prev next).page r=σ.page r := by
 rw [unlinked,linkedTo_page_of_ne _ _ h2,linkedTo_page_of_ne _ _ h1]

lemma unlinkLeaf_run {ps:ℕ} {σ:WriteTxn} {xs:List Fact} {O free:List ℕ} {pv nx:ℕ}
 {pes nes:List Entry} (h:Holding ps σ xs O free) (hp:pv=0 ∨ Fact.leaf pv pes∈xs) (hn:nx=0 ∨ Fact.leaf nx nes∈xs) :
 BTree.unlinkLeaf pv nx σ=(.ok (),unlinked σ pv nx) ∧ Holding ps (unlinked σ pv nx) xs O free := by
 obtain ⟨hrun1,h1⟩:=relink_run (f:=fun nb=>setRight nb nx) h hp (fun img cells hs=>hs.setRight nx)
 obtain ⟨hrun2,h2⟩:=relink_run (f:=fun nb=>setPrev nb pv) h1 hn (fun img cells hs=>hs.setPrev pv)
 refine ⟨?_,h2⟩
 rw [BTree.unlinkLeaf,bind_of_ok _ hrun1]
 exact hrun2

lemma Linked.remove (ps:ℕ) {σ:WriteTxn} {B A:List ℕ} {p:ℕ} (h:Linked σ 0 (B++p::A) 0) (hnd:(B++p::A).Nodup)
 (hpos:∀ r∈B++A,r≠0 ∧ r<2^64) (hleaf:∀ r∈B++A,∃ cells,Slotted ps (σ.page r) kLeaf cells) :
 Linked (unlinked σ (B.getLastD 0) (A.headD 0)) 0 (B++A) 0 := by
 obtain ⟨h1,_,_,h4⟩:=(linked_at σ B A p 0 0).mp h
 have hnd':(B++A).Nodup:=(nodup_cons.mp (perm_middle.nodup_iff.mp hnd)).2
 obtain ⟨hndB,hndA,hdis⟩:=nodup_append.mp hnd'
 have hnxlt:A.headD 0<2^64:=by
  cases A with
  | nil=>exact Nat.two_pow_pos 64
  | cons n A=>exact (hpos n (by simp)).2
 have hpvlt:B.getLastD 0<2^64:=by
  rcases B.eq_nil_or_concat with rfl | ⟨B',q,rfl⟩
  · exact Nat.two_pow_pos 64
  · rw [concat_eq_append,getLastD_concat]
    exact (hpos q (by simp)).2
 rw [linked_append]
 refine ⟨?_,?_⟩
 · -- only the last leaf on the left changes, in its right link
   rcases B.eq_nil_or_concat with rfl | ⟨B',q,rfl⟩
   · trivial
   · rw [concat_eq_append] at h1 hndB hdis hpos hleaf ⊢
     rw [getLastD_concat]
     obtain ⟨g1,g2,_,_⟩:=(linked_at σ B' [] q 0 p).mp h1
     have hq0:=(hpos q (by simp)).1
     obtain ⟨cells,hs⟩:=hleaf q (by simp)
     have hqA:q≠A.headD 0:=by
      cases A with
      | nil=>exact hq0
      | cons n A=>exact hdis q (by simp) n (by simp)
     have hqB:∀ r∈B',r≠q:=by
      rintro r hr rfl
      exact (nodup_append.mp hndB).2.2 r hr r (by simp) rfl
     refine (linked_at _ B' [] q 0 _).mpr ⟨?_,?_,?_,trivial⟩
     · refine g1.congr _ _ _ fun r hr=>unlinked_page_of_ne σ (hqB r hr) ?_
       cases A with
       | nil=>exact (hpos r (by simp [hr])).1
       | cons n A=>exact hdis r (by simp [hr]) n (by simp)
     · rw [unlinked,linkedTo_page_of_ne _ _ hqA,linkedTo_page_self _ _ hq0,setRight_prev,g2]
     · rw [unlinked,linkedTo_page_of_ne _ _ hqA,linkedTo_page_self _ _ hq0,hs.setRight_right hnxlt]
       rfl
 · -- only the first leaf on the right changes, in its left link
   cases A with
   | nil=>trivial
   | cons n A=>
    rw [Linked] at h4
    have hn0:=(hpos n (by simp)).1
    obtain ⟨cells,hs⟩:=hleaf n (by simp)
    have hprevne:∀ r∈n::A,r≠B.getLastD 0:=by
     intro r hr
     rcases B.eq_nil_or_concat with rfl | ⟨B',q,rfl⟩
     · exact (hpos r (by simpa using hr)).1
     · rw [concat_eq_append,getLastD_concat]
       exact (hdis q (by simp) r hr).symm
    have hpn:=hprevne n mem_cons_self
    rw [Linked,headD_cons,unlinked,linkedTo_page_self _ _ hn0,linkedTo_page_of_ne _ _ hpn]
    refine ⟨hs.setPrev_prev hpvlt,(setPrev_right _ _).trans h4.2.1,?_⟩
    refine h4.2.2.congr _ _ _ fun r hr=>?_
    have hrn:r≠n:=fun he=>(nodup_cons.mp hndA).1 (he ▸ hr)
    exact unlinked_page_of_ne σ (hprevne r (mem_cons_of_mem _ hr)) hrn

def sideLeafPages (fs:List Frame) : List ℕ :=
 (leavesBefore fs).map Prod.fst++(leavesAfter fs).map Prod.fst

lemma Holding.drop {ps:ℕ} {σ:WriteTxn} {x:Fact} {xs:List Fact} {O free:List ℕ}
 (h:Holding ps σ (x::xs) O free) : Holding ps σ xs (x.pages++O) free := by
 have hp:(xs++[x]).Perm (x::xs):=perm_append_singleton x xs
 have ha:=(h.perm hp).aside
 simpa using ha

structure ChildRemoved (ps:ℕ) (σ:WriteTxn) (fs:List Frame) (O:List ℕ) (t':Tree)
  (σ':WriteTxn) (free':List ℕ) : Prop where
 tree : RemoveHole fs t'
 held : Holding ps σ' t'.facts O free'
 linked : Linked σ 0 (sideLeafPages fs) 0 → Linked σ' 0 t'.leafPages 0
 same : ∀ r∈O,σ'.page r=σ.page r
 count : σ'.header.pageCount=σ.header.pageCount

section RemoveChild
variable {ps:ℕ} {σ:WriteTxn} {f:Frame} {fs:List Frame} {hole:ℕ} {O free:List ℕ}
 {b:BTree} {kids:List (Bytes × Tree)} {z:Tree}

lemma pathFacts_removed (hrem:f.remove=some (kids,z)) : pathFacts (f::fs) hole =
  f.nodeFact hole::((Tree.kidsFacts kids++z.facts)++pathFacts fs f.page) := by
 rw [pathFacts,f.remove_facts hrem]

lemma removed_page_own (hrem:f.remove=some (kids,z)) : z.page∈(pathFacts (f::fs) hole).flatMap Fact.pages++O := by
 rw [pathFacts_removed hrem]
 have hz:z.page∈z.facts.flatMap Fact.pages:=page_mem_pages z
 simp only [flatMap_cons,flatMap_append,mem_append]
 tauto

lemma dropped_image (h:Holding ps σ (pathFacts (f::fs) hole) O free) (hrem:f.remove=some (kids,z)) :
 Slotted ps (BTree.dropChild (σ.page f.page) f.left.length) kInterior
   ((kids.map fun kt=>(kt.1,kt.2.page)).map fun c=>buildInteriorCell c.1 c.2) ∧
  right (BTree.dropChild (σ.page f.page) f.left.length)=z.page := by
 have hnode:=h.facts (f.nodeFact hole) (by rw [pathFacts]; exact mem_cons_self)
 exact dropChild_slotted hnode.1 hnode.2.1 hrem (h.pages.own_lt_u64 (removed_page_own hrem))

lemma removeChildAt_eq (h:Holding ps σ (pathFacts (f::fs) hole) O free)
 (hrem:f.remove=some (kids,z)) (hne:(f.nodeFact hole).Nonempty)
 (parent:Option (PathEntry × TxnM Unit)) :
 b.removeChildAt f.entry parent σ =
  (if 0<kids.length then writePage f.page (BTree.dropChild (σ.page f.page) f.left.length)
  else
   match parent with
    | none=>do
     let child ← readPage z.page
     writePage b.root child
     freePage z.page
    | some (g,_)=>do
     let gb ← readPage g.page
     writePage g.page (BTree.redirect gb g.slot z.page)
     freePage f.page:TxnM Unit) σ := by
 have hmem:f.nodeFact hole∈pathFacts (f::fs) hole:=by
  rw [pathFacts]
  exact mem_cons_self
 have hnode:=h.facts _ hmem
 have hread:=h.read hmem (mem_cons_self (a:=f.page))
 obtain ⟨himg,hright⟩:=dropped_image h hrem
 have hcount:=node_count himg
 rw [length_map] at hcount
 have hpos:Node.count (σ.page f.page)≠0:=by
  rw [node_count hnode.1]
  exact (length_pos_of_ne_nil hne).ne'
 unfold BTree.removeChildAt
 rw [Frame.entry,bind_of_ok _ hread,if_neg (by tauto)]
 cases parent <;> simp only [hcount,hright]

lemma Holding.own_ne_other {xs:List Fact} (h:Holding ps σ xs O free) {x:Fact} {p r:ℕ}
 (hx:x∈xs) (hp:p∈x.pages) (hr:r∈O) : r≠p := by
 rintro rfl
 have hnd:=nodup_append.mp h.pages.own_nodup
 exact hnd.2.2 r (mem_flatMap.mpr ⟨x,hx,hp⟩) r hr rfl

lemma frame_ne_other (h:Holding ps σ (pathFacts (f::fs) hole) O free) {r:ℕ} (hr:r∈O) : r≠f.page :=
 h.own_ne_other (x:=f.nodeFact hole) (by rw [pathFacts]; exact mem_cons_self)
  mem_cons_self hr

lemma side_leaf_ne_frame (h:Holding ps σ (pathFacts fs hole) O free) {r:ℕ}
 (hr:r∈sideLeafPages fs) : r ∉ fs.map Frame.page := by
 obtain ⟨es,hx⟩:=side_leafPage hr hole
 exact leaf_not_frame h.facts (h.facts _ hx)

lemma removeChild_shrink (h:Holding ps σ (pathFacts (f::fs) hole) O free)
 (hrem:f.remove=some (kids,z)) (hne:(f.nodeFact hole).Nonempty) (hkids:kids≠[])
 (parent:Option (PathEntry × TxnM Unit)) : ∃ t' σ' free',b.removeChildAt f.entry parent σ=(.ok (),σ') ∧
  ChildRemoved ps σ (f::fs) O t' σ' free' := by
 obtain ⟨himg,hright⟩:=dropped_image h hrem
 have hcode:=removeChildAt_eq (b:=b) h hrem hne parent
 rw [if_pos (length_pos_of_ne_nil hkids)] at hcode
 have hnode:=h.facts (f.nodeFact hole) (by rw [pathFacts]; exact mem_cons_self)
 have hkeys:∀ c∈kids.map fun kt=>(kt.1,kt.2.page),c.1.length ≤ maxKeyBytesFor ps:=by
  intro c hc
  refine hnode.2.2 (c.1,c.2) ?_
  cases f with
  | cell p l s rest w=>
   rw [Frame.remove,Option.some.injEq,Prod.mk.injEq] at hrem
   rw [← hrem.1] at hc
   simp only [map_append,mem_append] at hc
   simp only [Frame.cells,mem_append,mem_cons]
   tauto
  | last p l=>
   obtain ⟨k,rfl⟩:=Frame.remove_last hrem
   simp only [Frame.cells,map_append,mem_append]
   exact Or.inl hc
 have h':=h
 rw [pathFacts_removed hrem] at h'
 obtain ⟨hw,hheld⟩:=h'.write (p:=f.page) (y:=.node f.page (kids.map fun kt=>(kt.1,kt.2.page)) z.page) mem_cons_self
  himg.length rfl (by
   rw [Fact.Holds,σ.setDirty_page_self]
   exact ⟨himg,hright,hkeys⟩)
 refine ⟨_,_,free,hcode.trans hw,.shrink hrem hkids,?_,?_,?_,rfl⟩
 · refine hheld.perm ((plugAll_facts_perm fs _).trans ?_)
   rw [Tree.facts,cons_append]
   exact List.Perm.refl _
 · intro hl
   rw [Tree.leafPages,plugAll_leaves,node_leaves,f.remove_leaves hrem]
   have hpages:(leavesBefore fs++(kidsLeaves f.left++f.leavesAfter)++leavesAfter fs).map
     Prod.fst=sideLeafPages (f::fs):=by
    simp [sideLeafPages,leavesBefore,leavesAfter]
   rw [hpages]
   refine hl.congr _ _ _ fun r hr=>σ.setDirty_page_of_ne _ ?_
   have hnf:=side_leaf_ne_frame h hr
   rw [map_cons,mem_cons,not_or] at hnf
   exact hnf.1
 · intro r hr
   exact σ.setDirty_page_of_ne _ (frame_ne_other h hr)

lemma Frame.cells_keys (g:Frame) (a c:ℕ) : (g.cells a).map Prod.fst=(g.cells c).map Prod.fst := by
 cases g <;> simp [Frame.cells]

lemma removeChild_collapse {g:Frame} {up:TxnM Unit} (h:Holding ps σ (pathFacts (f::g::fs) hole) O free)
 (hrem:f.remove=some ([],z)) (hne:(f.nodeFact hole).Nonempty) :
 ∃ t' σ' free',b.removeChildAt f.entry (some (g.entry,up)) σ=(.ok (),σ') ∧ ChildRemoved ps σ (f::g::fs) O t' σ' free' := by
 have hcode:=removeChildAt_eq (b:=b) h hrem hne (some (g.entry,up))
 rw [if_neg (by simp)] at hcode
 have hzlt:=h.pages.own_lt_u64 (removed_page_own hrem)
 have h1:=h
 rw [pathFacts_removed hrem,Tree.kidsFacts,nil_append] at h1
 have h2:=h1.drop.perm (perm_middle (a:=g.nodeFact f.page)).symm
 have hg:=h2.facts _ mem_cons_self
 obtain ⟨himg,hright⟩:=redirect_frame g f.page z.page hg.1 hg.2.1 hzlt
 have hkeys:∀ c∈g.cells z.page,c.1.length ≤ maxKeyBytesFor ps:=by
  intro c hc
  have hmem:=mem_map_of_mem (f:=Prod.fst) hc
  rw [g.cells_keys z.page f.page] at hmem
  obtain ⟨d,hd,hcd⟩:=mem_map.mp hmem
  rw [← hcd]
  exact hg.2.2 d hd
 obtain ⟨hw,h3⟩:=h2.write (p:=g.page) (y:=g.nodeFact z.page) mem_cons_self
  himg.length rfl (by
   rw [Frame.nodeFact,Fact.Holds,σ.setDirty_page_self]
   exact ⟨himg,hright,hkeys⟩)
 obtain ⟨hfree,h4⟩:=h3.release
 refine ⟨_,_,_,hcode.trans ?_,.collapse hrem,h4.perm ?_,?_,?_,?_⟩
 · show (readPage g.page >>= fun gb=>writePage g.page (BTree.redirect gb g.left.length z.page) >>=
    fun _=>freePage f.page) σ=_
   rw [bind_of_ok _ (h2.read mem_cons_self mem_cons_self),bind_of_ok _ hw]
   exact hfree
 · refine (plugAll_facts_perm (g::fs) z).trans ?_
   rw [pathFacts]
   exact perm_middle
 · intro hl
   have hleaves:=f.remove_leaves hrem
   rw [kidsLeaves_nil,nil_append] at hleaves
   have hpages:(plugAll (g::fs) z).leafPages=sideLeafPages (f::g::fs):=by
    rw [Tree.leafPages,plugAll_leaves,hleaves]
    simp [sideLeafPages,leavesBefore,leavesAfter]
   rw [hpages]
   refine hl.congr _ _ _ fun r hr=>?_
   have hnf:=side_leaf_ne_frame h hr
   simp only [map_cons,mem_cons,not_or] at hnf
   rw [Pages.pushFree_page _ hnf.1,σ.setDirty_page_of_ne _ hnf.2.1]
 · intro r hr
   have hrg:r≠g.page:=h.own_ne_other (x:=g.nodeFact f.page) (by simp [pathFacts])
    mem_cons_self hr
   rw [Pages.pushFree_page _ (frame_ne_other h hr),σ.setDirty_page_of_ne _ hrg]
 · rfl

def Fact.rehome : Fact → ℕ → Fact
 | .leaf _ es,p=>.leaf p es
 | .node _ cells r,p=>.node p cells r

lemma Fact.Holds.rehome {x:Fact} {q p:ℕ} {cs:List ℕ} (h:x.Holds ps σ)
 (hx:x.pages=q::cs) (hp:σ.page p=σ.page q) : (x.rehome p).Holds ps σ := by
 cases x with
 | leaf r es=>
  obtain ⟨rfl,-⟩:=cons.inj hx
  rw [Fact.rehome,Fact.Holds,hp]
  exact h
 | node r cells w=>
  obtain ⟨rfl,-⟩:=cons.inj hx
  rw [Fact.rehome,Fact.Holds,hp]
  exact h

lemma rehome_facts (t:Tree) (p:ℕ) : ∃ x rest cs,t.facts=x::rest ∧
 x.pages=t.page::cs ∧ (t.rehome p).facts=x.rehome p::rest ∧ (x.rehome p).pages=p::cs := by
 cases t with
 | leaf q es=>exact ⟨_,_,_,rfl,rfl,rfl,rfl⟩
 | node q kids z=>exact ⟨_,_,_,rfl,rfl,rfl,rfl⟩

lemma Holding.rehome {p:ℕ} (h:Holding ps σ z.facts (p::O) free) :
 writePage p (σ.page z.page) σ=(.ok (),σ.setDirty p (σ.page z.page)) ∧
  Holding ps (σ.setDirty p (σ.page z.page)) (z.rehome p).facts (z.page::O) free := by
 obtain ⟨x,rest,cs,hf,hx,hf',hx'⟩:=rehome_facts z p
 have hzp:z.page≠p:=by
  have hmem:z.page∈z.facts.flatMap Fact.pages:=page_mem_pages z
  exact fun he=>(nodup_append.mp h.pages.own_nodup).2.2 _ hmem _ (by rw [he]; exact mem_cons_self) rfl
 have hlen:(σ.page z.page).length=ps:=
  h.pages.own_length (mem_append_left _ (page_mem_pages z))
 obtain ⟨hw,hheld⟩:=h.writeOther mem_cons_self hlen
 refine ⟨hw,?_,?_⟩
 · refine hheld.pages.reorder ?_
   rw [hf,hf',flatMap_cons,flatMap_cons,hx,hx']
   -- the two pages change places
   have hswap:∀ (a c:ℕ) (M:List ℕ),(a::(M++c::O)).Perm (c::(M++a::O)):=
    fun a c M=>(perm_middle.cons a).trans ((List.Perm.swap c a _).trans (perm_middle.symm.cons c))
   simpa only [cons_append] using hswap p z.page (cs++rest.flatMap Fact.pages)
 · intro y hy
   rw [hf'] at hy
   rcases mem_cons.mp hy with rfl | hy
   · refine (hheld.facts x (by rw [hf]; exact mem_cons_self)).rehome hx ?_
     rw [σ.setDirty_page_self,σ.setDirty_page_of_ne _ hzp]
   · exact hheld.facts y (by rw [hf]; exact mem_cons_of_mem _ hy)

lemma Linked.rehome {p:ℕ} {σ':WriteTxn} (hl:Linked σ 0 z.leafPages 0)
 (hp:σ'.page p=σ.page z.page) (hsame:∀ r∈z.leafPages,r≠z.page → σ'.page r=σ.page r)
 (hnode:∀ q kids w,z=.node q kids w → q ∉ z.leafPages) : Linked σ' 0 (z.rehome p).leafPages 0 := by
 cases z with
 | leaf q es=>
  show Linked σ' 0 [p] 0
  have hl':Linked σ 0 [q] 0:=hl
  rw [Linked,hp]
  exact ⟨hl'.1,hl'.2.1,trivial⟩
 | node q kids w=>
  refine hl.congr _ _ _ fun r hr=>hsame r hr ?_
  rintro rfl
  exact hnode _ kids w rfl hr

lemma removeChild_root (h:Holding ps σ (pathFacts [f] hole) O free) (hroot:b.root=f.page)
 (hrem:f.remove=some ([],z)) (hne:(f.nodeFact hole).Nonempty) :
 ∃ t' σ' free',b.removeChildAt f.entry none σ=(.ok (),σ') ∧ ChildRemoved ps σ [f] O t' σ' free' := by
 have hcode:=removeChildAt_eq (b:=b) h hrem hne none
 rw [if_neg (by simp)] at hcode
 have h1:=h
 rw [pathFacts_removed hrem,Tree.kidsFacts,nil_append,pathFacts,append_nil] at h1
 obtain ⟨hw,h2⟩:=Holding.rehome (z:=z) (p:=f.page) h1.drop
 obtain ⟨hfree,h3⟩:=h2.release
 have hread:readPage z.page σ=(.ok (σ.page z.page),σ):=
  h1.drop.pages.readPage_run (Or.inl (mem_append_left _ (page_mem_pages z)))
 have hzf:z.page≠f.page:=h1.drop.pages.own_nodup |> fun hnd he=>
  (nodup_append.mp hnd).2.2 _ (page_mem_pages z) _ (by rw [he]; exact mem_cons_self) rfl
 have hleaves:=f.remove_leaves hrem
 rw [kidsLeaves_nil,nil_append] at hleaves
 have hpages:z.leafPages=sideLeafPages [f]:=by
  rw [Tree.leafPages,hleaves]
  simp [sideLeafPages,leavesBefore,leavesAfter]
 refine ⟨_,_,_,hcode.trans ?_,.root hrem,h3,?_,?_,rfl⟩
 · show (readPage z.page >>= fun child=>writePage b.root child >>= fun _=>freePage z.page) σ=_
   rw [bind_of_ok _ hread,hroot,bind_of_ok _ hw]
   exact hfree
 · intro hl
   rw [← hpages] at hl
   refine hl.rehome ?_ ?_ ?_
   · rw [Pages.pushFree_page _ hzf.symm,σ.setDirty_page_self]
   · intro r hr hrz
     rw [hpages] at hr
     have hnf:=side_leaf_ne_frame h hr
     rw [map_singleton,mem_singleton] at hnf
     rw [Pages.pushFree_page _ hrz,σ.setDirty_page_of_ne _ hnf]
   · rintro q kids w rfl hq
     obtain ⟨⟨n,es⟩,hn,rfl⟩:=mem_map.mp hq
     have ht1:=(h1.facts _ (mem_cons_of_mem _ (leaf_mem_of_leaves hn))).1.type
     have ht2:=(h1.facts (.node n (kids.map fun kt=>(kt.1,kt.2.page)) w.page) (mem_cons_of_mem _ mem_cons_self)).1.type
     rw [ht1] at ht2
     exact absurd ht2 (by decide)
 · intro r hr
   have hrz:r≠z.page:=by
    rintro rfl
    exact (nodup_append.mp h1.pages.own_nodup).2.2 _ (by
     rw [flatMap_cons]
     exact mem_append_right _ (page_mem_pages z)) _ hr rfl
   rw [Pages.pushFree_page _ hrz,σ.setDirty_page_of_ne _ (frame_ne_other h hr)]

lemma removeChild_run {path:List PathEntry} (h:Holding ps σ (pathFacts (f::fs) hole) O free)
 (hroot:b.root=((f::fs).getLast (by simp)).page)
 (hpath:pathEntries (f::fs) <+: path)
 (hne:∀ x∈pathFacts (f::fs) hole,x.Nonempty) :
 ∃ t' σ' free',b.removeChild path fs.length σ=(.ok (),σ') ∧
  ChildRemoved ps σ (f::fs) O t' σ' free' := by
 have hnode:(f.nodeFact hole).Nonempty:=hne _ (by rw [pathFacts]; exact mem_cons_self)
 obtain ⟨kids,z,hrem⟩:∃ kids z,f.remove=some (kids,z):=by
  cases f with
  | cell p l s rest w=>exact ⟨_,_,rfl⟩
  | last p l=>
   have hl:l≠[]:=by simpa [Frame.nodeFact,Fact.Nonempty,Frame.cells] using hnode
   rw [Frame.remove,getLast?_eq_getLast_of_ne_nil hl]
   exact ⟨_,_,rfl⟩
 have hentry:=path_entry hpath
 cases fs with
 | nil=>
  rw [length_nil] at hentry ⊢
  rw [BTree.removeChild,hentry]
  rcases eq_or_ne kids [] with rfl | hkids
  · exact removeChild_root h hroot hrem hnode
  · exact removeChild_shrink h hrem hnode hkids none
 | cons g fs=>
  have hup:pathEntries (g::fs) <+: path:=by
   refine List.IsPrefix.trans ?_ hpath
   rw [pathEntries_cons f]
   exact prefix_append _ _
  rw [length_cons] at hentry ⊢
  rw [BTree.removeChild,hentry,path_entry hup]
  rcases eq_or_ne kids [] with rfl | hkids
  · exact removeChild_collapse h hrem hnode
  · exact removeChild_shrink h hrem hnode hkids _

end RemoveChild

/-- The tree when the leaf `p` below the path `fs` is left with the entries `es`. -/
inductive EraseLeaf (p:ℕ) : List Frame → List Entry → Tree → Prop
 | keep {fs:List Frame} {es:List Entry} (hne:es≠[] ∨ fs=[]) :
   EraseLeaf p fs es (plugAll fs (.leaf p es))
 | gone {f:Frame} {fs:List Frame} {t':Tree} (h:RemoveHole (f::fs) t') :
   EraseLeaf p (f::fs) [] t'

lemma EraseLeaf.entries {p:ℕ} {fs:List Frame} {es:List Entry} {t':Tree}
 (h:EraseLeaf p fs es t') : t'.entries=entriesBefore fs++es++entriesAfter fs := by
 cases h with
 | keep hne=>exact plugAll_entries_eq fs p es
 | gone hrem=>rw [hrem.entries,append_nil]

lemma EraseLeaf.page {p:ℕ} {fs:List Frame} {es:List Entry} {t':Tree}
 (h:EraseLeaf p fs es t') (es':List Entry) : t'.page=(plugAll fs (.leaf p es')).page := by
 cases h with
 | keep hne=>exact plugAll_leaf_page fs p es es'
 | @gone f fs t' hrem=>
  have hp:=hrem.page
  rw [getLast?_eq_getLast_of_ne_nil (by simp),Option.map_some,Option.some.injEq] at hp
  rw [plugAll_page,← hp]

section Erase
variable {ps:ℕ} {σ:WriteTxn} {fs:List Frame} {p:ℕ} {A C B:List Entry} {key:Bytes}
 {O free:List ℕ} {b:BTree}

lemma getLastD_mem_or (l:List ℕ) (d:ℕ) : l.getLastD d=d ∨ l.getLastD d∈l := by
 rcases l.eq_nil_or_concat with rfl | ⟨l',q,rfl⟩
 · exact Or.inl rfl
 · right
   simp

lemma headD_mem_or (l:List ℕ) (d:ℕ) : l.headD d=d ∨ l.headD d∈l := by
 cases l with
 | nil=>exact Or.inl rfl
 | cons a l=>exact Or.inr mem_cons_self

lemma removeLeaf_run {f:Frame} {img:Bytes}
 (h:LeafOpen ps σ p img [] (pathFacts (f::fs) p) O free) (hl:LeafLinks σ (f::fs) p img)
 (hroot:b.root=((f::fs).getLast (by simp)).page)
 (hne:∀ x∈pathFacts (f::fs) p,x.Nonempty) (slot:ℕ) :
 ∃ t' σ' free',(do
   BTree.unlinkLeaf (prev img) (right img)
   freePage p
   b.removeChild (pathEntries (f::fs)++[⟨p,slot⟩]) fs.length
   return true:TxnM Bool) σ=(.ok true,σ') ∧
  RemoveHole (f::fs) t' ∧ Holding ps σ' t'.facts O free' ∧ Linked σ' 0 t'.leafPages 0 ∧
  (∀ r∈O,σ'.page r=σ.page r) ∧ σ'.header.pageCount=σ.header.pageCount := by
 have hheld:=h.held
 rw [flatMap_nil,nil_append] at hheld
 obtain ⟨-,hprev,hright,-⟩:=(linked_at σ _ _ p 0 0).mp hl.linked
 rw [← hl.prev] at hprev
 rw [← hl.right] at hright
 -- the neighbours are leaves beside the hole
 have hside:∀ n:ℕ,n=0 ∨ n∈sideLeafPages (f::fs) →
   ∃ nes,n=0 ∨ Fact.leaf n nes∈pathFacts (f::fs) p:=by
  rintro n (rfl | hn)
  · exact ⟨[],Or.inl rfl⟩
  · obtain ⟨nes,hx⟩:=side_leafPage hn p
    exact ⟨nes,Or.inr hx⟩
 have hpv:=getLastD_mem_or ((leavesBefore (f::fs)).map Prod.fst) 0
 have hnx:=headD_mem_or ((leavesAfter (f::fs)).map Prod.fst) 0
 rw [← hprev] at hpv
 rw [← hright] at hnx
 have hpv':Node.prev img=0 ∨ Node.prev img∈sideLeafPages (f::fs):=
  hpv.imp_right (mem_append_left _)
 have hnx':right img=0 ∨ right img∈sideLeafPages (f::fs):=
  hnx.imp_right (mem_append_right _)
 obtain ⟨pes,hpx⟩:=hside _ hpv'
 obtain ⟨nes,hnx⟩:=hside _ hnx'
 obtain ⟨hunlink,h1⟩:=unlinkLeaf_run hheld hpx hnx
 obtain ⟨hfree,h2⟩:=h1.release
 obtain ⟨t',σ',free',hrun,hrem⟩:=removeChild_run (b:=b) h2 hroot (prefix_append _ [PathEntry.mk p slot]) hne
 have hside_fact:∀ r∈sideLeafPages (f::fs),∃ es,Fact.leaf r es∈pathFacts (f::fs) p:=
  fun r hr=>side_leafPage hr p
 have hsideO:∀ r∈O,∀ n∈sideLeafPages (f::fs),r≠n:=by
  intro r hr n hn
  obtain ⟨es,hx⟩:=hside_fact n hn
  exact hheld.own_ne_other hx mem_cons_self (mem_cons_of_mem _ hr)
 have hsideP:p ∉ sideLeafPages (f::fs):=
  (nodup_cons.mp (perm_middle.nodup_iff.mp h.leafPages_nodup)).1
 refine ⟨t',σ',free',?_,hrem.tree,hrem.held,hrem.linked ?_,?_,?_⟩
 · rw [bind_of_ok _ hunlink,bind_of_ok _ hfree,bind_of_ok _ hrun]
   rfl
 · have hlk:=Linked.remove ps hl.linked h.leafPages_nodup ?_ ?_
   · rw [← hprev,← hright] at hlk
     refine hlk.congr _ _ _ fun r hr=>Pages.pushFree_page _ ?_
     rintro rfl
     exact hsideP hr
   · intro r hr
     obtain ⟨es,hx⟩:=hside_fact r hr
     have hown:=hheld.mem_own hx (mem_cons_self (a:=r))
     exact ⟨(hheld.pages.own_pos hown).ne',hheld.pages.own_lt_u64 hown⟩
   · intro r hr
     obtain ⟨es,hx⟩:=hside_fact r hr
     exact ⟨_,(hheld.facts _ hx).1⟩
 · intro r hr
   have hrp:r≠p:=by
    rintro rfl
    exact h.page_not_chain.1 (mem_append_right _ hr)
   have hr0:r≠0:=(hheld.pages.own_pos (p:=r) (by simp [hr])).ne'
   have hn:∀ n:ℕ,n=0 ∨ n∈sideLeafPages (f::fs) → r≠n:=by
    rintro n (rfl | hn)
    · exact hr0
    · exact hsideO r hr n hn
   rw [hrem.same r hr,Pages.pushFree_page _ hrp,unlinked_page_of_ne σ (hn _ hpv') (hn _ hnx')]
 · rw [hrem.count]
   simp [unlinked,WriteTxn.pushFree]

lemma erase_absent (h:TreeAt ps σ (plugAll fs (.leaf p (A++([]++B)))) O free)
 (hroot:b.root=(plugAll fs (.leaf p (A++([]++B)))).page)
 (hf:Focus fs key) (hslot:AtSlot A [] B key) (hlen:fs.length<64) : b.erase key σ=(.ok false,σ) := by
 obtain ⟨hs,he⟩:=h.leaf_entries
 have hfound:=(leaf_match_iff h.pages.size_max hs (fun e hm=>(he e hm).1) A.length key).trans hslot.found_iff
 have hno:Node.count (σ.page p)≤A.length ∨
   compareBytes (Node.key (σ.page p) A.length) key≠.eq:=by
  by_contra hn
  push Not at hn
  exact hfound.mp hn rfl
 rw [BTree.erase,bind_of_ok _ (findLeaf_at h hroot hf hlen)]
 simp only [hslot.slotOf,back_append]
 rw [if_pos hno]
 rfl

lemma erase_present {old:Entry} (h:TreeAt ps σ (plugAll fs (.leaf p (A++([old]++B)))) O free)
 (hroot:b.root=(plugAll fs (.leaf p (A++([old]++B)))).page)
 (hf:Focus fs key) (hslot:AtSlot A [old] B key) (hlen:fs.length<64) :
 ∃ t' σ' free',b.erase key σ=(.ok true,σ') ∧ EraseLeaf p fs (A++B) t' ∧
  TreeAt ps σ' t' O free' ∧ (∀ r∈O,σ'.page r=σ.page r) ∧ σ'.header.pageCount=σ.header.pageCount := by
 obtain ⟨hs,he⟩:=h.leaf_entries
 have hfound:=(leaf_match_iff h.pages.size_max hs (fun e hm=>(he e hm).1) A.length key).trans hslot.found_iff
 have hyes:¬(Node.count (σ.page p)≤A.length ∨
   compareBytes (Node.key (σ.page p) A.length) key≠.eq):=by
  have:=hfound.mpr (by simp)
  push Not
  exact this
 obtain ⟨σ1,free1,hrun,hopen,hlinks,hsame,hcnt⟩:=h.openWithout
 have hcount:Node.count (Node.removeCell (σ.page p) A.length)=(A++B).length:=by
  rw [hopen.image.count,length_map]
 have hpath:(pathEntries fs++[PathEntry.mk p A.length]).length=fs.length+1:=by
  simp [pathEntries]
 have hcode:b.erase key σ = (do
    if 0<(A++B).length ∨ fs.length+1=1 then
     writePage p (Node.removeCell (σ.page p) A.length)
    else do
     BTree.unlinkLeaf (Node.prev (Node.removeCell (σ.page p) A.length)) (Node.right (Node.removeCell (σ.page p) A.length))
     freePage p
     b.removeChild (pathEntries fs++[⟨p,A.length⟩]) (fs.length+1-2)
    return true:TxnM Bool) σ1:=by
  rw [BTree.erase,bind_of_ok _ (findLeaf_at h hroot hf hlen)]
  simp only [hslot.slotOf,back_append,hpath,hcount]
  rw [if_neg hyes,bind_of_ok _ hrun]
 have hsorted:=h.sorted
 rw [plugAll_marks,Tree.marks] at hsorted
 rcases Classical.em (0<(A++B).length ∨ fs.length+1=1) with hkeep | hgone
 · obtain ⟨hw,hheld⟩:=hopen.close
   have hkeep':A++B≠[] ∨ fs=[]:=
    hkeep.imp ne_nil_of_length_pos fun he=>length_eq_zero_iff.mp (by omega)
   rw [if_pos hkeep,bind_of_ok _ hw] at hcode
   have hnotp:∀ r∈sideLeafPages fs,r≠p:=by
    rintro r hr rfl
    exact (nodup_cons.mp (perm_middle.nodup_iff.mp hopen.leafPages_nodup)).1 hr
   refine ⟨_,_,free1,hcode,.keep hkeep',?_,?_,?_⟩
   · have hheld':=hheld.perm (plugAll_facts_perm fs (.leaf p (A++B)))
     refine ⟨hheld'.pages,hheld'.facts,?_,?_,?_⟩
     · rw [plugAll_marks,Tree.marks]
       refine hsorted.sublist ?_
       simp only [map_append,append_assoc]
       exact (List.Sublist.append_left (sublist_append_right _ _) _).append_left _
     · rw [plugAll_leafPages]
       obtain ⟨g1,g2,g3,g4⟩:=(linked_at σ1 _ _ p 0 0).mp hlinks.linked
       refine (linked_at _ _ _ p 0 0).mpr ⟨?_,?_,?_,?_⟩
       · exact g1.congr _ _ _ fun r hr=>
          σ1.setDirty_page_of_ne _ (hnotp r (mem_append_left _ hr))
       · rw [σ1.setDirty_page_self,hlinks.prev,g2]
       · rw [σ1.setDirty_page_self,hlinks.right,g3]
       · exact g4.congr _ _ _ fun r hr=>
          σ1.setDirty_page_of_ne _ (hnotp r (mem_append_right _ hr))
     · cases fs with
       | nil=>exact Or.inl ⟨p,_,rfl⟩
       | cons f gs=>
        right
        intro x hx
        have hall:=path_nonempty h.filled
        rcases mem_append.mp ((plugAll_facts_perm _ _).mem_iff.mp hx) with hx | hx
        · obtain rfl:x=.leaf p (A++B):=by simpa [Tree.facts] using hx
          exact hkeep'.resolve_right (by simp)
        · exact hall x (mem_append_right _ hx)
   · intro r hr
     rw [σ1.setDirty_page_of_ne _ ?_,hsame r hr]
     rintro rfl
     exact hopen.page_not_chain.1 (mem_append_right _ hr)
   · exact hcnt
 · rw [if_neg hgone] at hcode
   push Not at hgone
   have hnil:A++B=[]:=length_eq_zero_iff.mp (by omega)
   cases fs with
   | nil=>exact absurd rfl hgone.2
   | cons f gs=>
    rw [hnil] at hopen ⊢
    have hroot':b.root=((f::gs).getLast (by simp)).page:=by
     rw [hroot,plugAll_page]
    have hall:=path_nonempty h.filled
    obtain ⟨t',σ',free',hrun',hhole,hheld,hlk,hsame',hcnt'⟩:=removeLeaf_run (b:=b)
     hopen hlinks hroot' (fun x hx=>hall x (mem_append_right _ hx)) A.length
    refine ⟨t',σ',free',?_,.gone hhole,⟨hheld.pages,hheld.facts,?_,hlk,?_⟩,
     fun r hr=>(hsame' r hr).trans (hsame r hr),hcnt'.trans hcnt⟩
    · have hidx:(f::gs).length+1-2=gs.length:=by simp
      rw [hcode,hidx]
      exact hrun'
    · refine hsorted.sublist (hhole.marks.trans ?_)
      rw [append_assoc]
      exact (sublist_append_right _ _).append_left _
    · exact hhole.filled p fun x hx=>hall x (mem_append_right _ hx)

end Erase

end Archivum.TreeShape
