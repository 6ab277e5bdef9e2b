import Archivum.EraseOnPages
import Archivum.LeafWalks

set_option autoImplicit false

/-!
# Cursors on the pages of a tree

The leaves of a tree are linked in order and the descents end in the right one,
so its reads see the entries of the tree.
-/
namespace Archivum.TreeShape
open ByteStrings StatefulActions PageTxn SlottedPage BTreeModel List

section Leaves
variable {ps:ℕ} {σ:WriteTxn} {t:Tree} {O free:List ℕ} {b:BTree}

lemma TreeAt.leaf_of_leaves (h:TreeAt ps σ t O free) {p:ℕ} {E:List Entry} (hmem:(p,E)∈t.leaves) :
 Slotted ps (σ.page p) kLeaf (E.map (Entry.cell ps)) ∧ (∀ e∈E,e.Holds ps σ) ∧ p∈t.pages ∧ ∀ e∈E,∀ q∈e.chain,q∈t.pages := by
 have hx:=leaf_mem_of_leaves hmem
 obtain ⟨hs,he⟩:=h.facts _ hx
 refine ⟨hs,he,mem_flatMap.mpr ⟨_,hx,mem_cons_self⟩,?_⟩
 intro e hm q hq
 exact mem_flatMap.mpr ⟨_,hx,mem_cons_of_mem _ (mem_flatMap.mpr ⟨e,hm,hq⟩)⟩

end Leaves

section Seek
variable {ps:ℕ} {σ:WriteTxn} {own free:List ℕ}

lemma node_kid {p:ℕ} {kids:List (Bytes × Tree)} {z u:Tree}
 (hu:u=z ∨ ∃ k,(k,u)∈kids) (hfacts:∀ x∈(Tree.node p kids z).facts,x.Holds ps σ)
 (hown:∀ q∈(Tree.node p kids z).pages,q∈own) : (∀ x∈u.facts,x.Holds ps σ) ∧ (∀ q∈u.pages,q∈own) ∧
  u.levels<(Tree.node p kids z).levels := by
 obtain ⟨f,hf⟩:∃ f:Frame,Tree.node p kids z=f.plug u:=by
  rcases hu with rfl | ⟨k,hk⟩
  · exact ⟨.last p kids,rfl⟩
  · obtain ⟨l,rest,rfl⟩:=append_of_mem hk
    exact ⟨.cell p l k rest z,rfl⟩
 rw [hf] at hfacts hown ⊢
 rw [f.plug_facts] at hfacts
 rw [f.plug_pages] at hown
 exact ⟨fun x hx=>hfacts x (by simp [hx]),fun q hq=>hown q (by simp [hq]),plug_levels_lt f u⟩

lemma seekFirstLoop_run (hP:Pages ps σ own free) (n:ℕ) :
  ∀ u : Tree,(∀ x∈u.facts,x.Holds ps σ) → (∀ q∈u.pages,q∈own) → u.levels≤n →
   ∃ p es rest,u.leaves=(p,es)::rest ∧ ∀ fuel c,Cursor.seekFirstLoop fuel c n u.page σ =
    Cursor.loadSlot fuel { c with page:=σ.page p,leaf:=p,slot:=0 } σ := by
 induction n with
 | zero=>
  intro u _ _ hn
  cases u <;> simp [Tree.levels] at hn
 | succ n ih=>
  intro u hfacts hown hn
  have hread:=hP.readPage_run (Or.inl (hown _ (page_mem_pages u)))
  cases u with
  | leaf p es=>
   obtain ⟨hs,-⟩:=hfacts (.leaf p es) mem_cons_self
   refine ⟨p,es,[],rfl,fun fuel c=>?_⟩
   rw [Cursor.seekFirstLoop,Act.bind_of_ok _ hread,if_pos (by rw [Tree.page,hs.isLeaf_eq]; rfl)]
   rfl
  | node p kids z=>
   obtain ⟨hs,hright,-⟩:=hfacts (.node p _ _) mem_cons_self
   have hnl:¬Node.isLeaf (σ.page (Tree.node p kids z).page)=true:=by
    rw [Tree.page,hs.isLeaf_eq]
    decide
   have hcount:=node_count hs
   rw [length_map] at hcount
   cases kids with
   | nil=>
    obtain ⟨h1,h2,h3⟩:=node_kid (u:=z) (Or.inl rfl) hfacts hown
    obtain ⟨q,es,rest,hl,hrun⟩:=ih z h1 h2 (by omega)
    refine ⟨q,es,rest,by rw [node_leaves,kidsLeaves_nil,nil_append,hl],fun fuel c=>?_⟩
    rw [Cursor.seekFirstLoop,Act.bind_of_ok _ hread,if_neg hnl,Tree.page,if_neg (by rw [hcount]; simp),hright]
    exact hrun fuel c
   | cons kt kids=>
    obtain ⟨k,u⟩:=kt
    obtain ⟨h1,h2,h3⟩:=node_kid (u:=u) (Or.inr ⟨k,mem_cons_self⟩) hfacts hown
    obtain ⟨q,es,rest,hl,hrun⟩:=ih u h1 h2 (by omega)
    refine ⟨q,es,rest++kidsLeaves kids++z.leaves,by rw [node_leaves,kidsLeaves_cons,hl]; simp,fun fuel c=>?_⟩
    rw [Cursor.seekFirstLoop,Act.bind_of_ok _ hread,if_neg hnl,Tree.page,if_pos (by rw [hcount]; simp),
     node_child hs (c:=(k,u.page)) rfl (hP.own_lt_u64 (h2 _ (page_mem_pages u)))]
    exact hrun fuel c

lemma seekLastLoop_run (hP:Pages ps σ own free) (n:ℕ) :
 ∀ u : Tree,(∀ x∈u.facts,x.Holds ps σ) → (∀ q∈u.pages,q∈own) → u.levels≤n → ∃ L p es,u.leaves=L++[(p,es)] ∧ ∀ c,
   Cursor.seekLastLoop c n u.page σ=(.ok (LeafView.atLast ⟨p,σ.page p,es⟩ c),σ) := by
 induction n with
 | zero=>
  intro u _ _ hn
  cases u <;> simp [Tree.levels] at hn
 | succ n ih=>
  intro u hfacts hown hn
  have hread:=hP.readPage_run (Or.inl (hown _ (page_mem_pages u)))
  cases u with
  | leaf p es=>
   obtain ⟨hs,-⟩:=hfacts (.leaf p es) mem_cons_self
   refine ⟨[],p,es,rfl,fun c=>?_⟩
   rw [Cursor.seekLastLoop,Act.bind_of_ok _ hread,if_pos (by rw [Tree.page,hs.isLeaf_eq]; rfl),
    Tree.page,leaf_count hs,LeafView.atLast]
   split <;> rfl
  | node p kids z=>
   obtain ⟨hs,hright,-⟩:=hfacts (.node p _ _) mem_cons_self
   have hnl:¬Node.isLeaf (σ.page (Tree.node p kids z).page)=true:=by
    rw [Tree.page,hs.isLeaf_eq]
    decide
   obtain ⟨h1,h2,h3⟩:=node_kid (u:=z) (Or.inl rfl) hfacts hown
   obtain ⟨L,q,es,hl,hrun⟩:=ih z h1 h2 (by omega)
   refine ⟨kidsLeaves kids++L,q,es,by rw [node_leaves,hl,append_assoc],fun c=>?_⟩
   rw [Cursor.seekLastLoop,Act.bind_of_ok _ hread,if_neg hnl,Tree.page,hright]
   exact hrun c

end Seek

def viewOf (σ:WriteTxn) (l:ℕ × List Entry) : LeafView := ⟨l.1,σ.page l.1,l.2⟩

def Tree.view (σ:WriteTxn) (t:Tree) : List LeafView := t.leaves.map (viewOf σ)

lemma entriesOf_map (σ:WriteTxn) (ls:List (ℕ × List Entry)) : entriesOf (ls.map (viewOf σ))=ls.flatMap Prod.snd := by
 rw [entriesOf,flatMap_map]
 rfl

lemma entriesOf_view (σ:WriteTxn) (t:Tree) : entriesOf (t.view σ)=t.entries := entriesOf_map σ t.leaves

section View
variable {ps:ℕ} {σ:WriteTxn} {t:Tree} {O free:List ℕ} {b:BTree}

lemma TreeAt.leafView (h:TreeAt ps σ t O free) (hb:b.pageSize=ps) {p:ℕ} {es:List Entry}
 (hmem:(p,es)∈t.leaves) : (viewOf σ (p,es)).At b σ := by
 obtain ⟨hs,he,hp,hchain⟩:=h.leaf_of_leaves hmem
 constructor
 · exact (h.pages.own_pos (mem_append_left _ hp)).ne'
 · exact h.pages.readPage_run (Or.inl (mem_append_left _ hp))
 · exact leaf_count hs
 · exact leaf_entry_key h.pages.size_max hs fun d hd=>(he d hd).1
 · intro i e hi
   have hm:=mem_of_getElem? hi
   exact leafValue_run hb h.pages hs hi (he e hm) fun q hq=>mem_append_left _ (hchain e hm q hq)

lemma TreeAt.linkedLeaves (h:TreeAt ps σ t O free) (hb:b.pageSize=ps) : LinkedLeaves b σ (t.view σ) := by
 constructor
 · intro x hx
   obtain ⟨⟨p,es⟩,hmem,rfl⟩:=mem_map.mp hx
   exact h.leafView hb hmem
 · intro L x R hl
   obtain ⟨L',R₁,ht,rfl,hR⟩:=map_eq_append_iff.mp hl
   obtain ⟨⟨p,es⟩,R',rfl,rfl,rfl⟩:=map_eq_cons_iff.mp hR
   have hlinked:=h.linked
   rw [Tree.leafPages,ht,map_append,map_cons,linked_at] at hlinked
   rw [map_map,map_map]
   exact ⟨hlinked.2.2.1,hlinked.2.1⟩

lemma TreeAt.treeView (h:TreeAt ps σ t O free) (hb:b.pageSize=ps) (hr:b.root=t.page)
 (hlev:t.levels≤64) : TreeView b σ (t.view σ) where
 toLinkedLeaves := h.linkedLeaves hb
 sorted:=by
  rw [entriesOf_view]
  exact entries_sorted h.sorted
 find:=by
  intro key
  obtain ⟨fs,p,es,rfl,hfind,hf,-⟩:=findLeaf_run h hr hlev key
  refine ⟨(leavesBefore fs).map (viewOf σ),viewOf σ (p,es),(leavesAfter fs).map (viewOf σ),_,?_,hfind,?_,?_⟩
  · rw [Tree.view,plugAll_leaves,leaf_leaves,append_assoc,map_append]
    rfl
  · rw [entriesOf_map]
    exact hf.keys_before
  · rw [entriesOf_map]
    exact hf.keys_after
 first:=by
  obtain ⟨p,es,rest,hl,hrun⟩:=seekFirstLoop_run h.pages 64 t h.facts (fun q hq=>mem_append_left _ hq) hlev
  refine ⟨viewOf σ (p,es),_,by rw [Tree.view,hl]; rfl,fun fuel c=>?_⟩
  rw [Cursor.seekFirst,hr]
  exact hrun fuel c
 last:=by
  obtain ⟨L,p,es,hl,hrun⟩:=seekLastLoop_run h.pages 64 t h.facts (fun q hq=>mem_append_left _ hq) hlev
  refine ⟨L.map (viewOf σ),viewOf σ (p,es),by rw [Tree.view,hl,map_append]; rfl,fun c=>?_⟩
  rw [Cursor.seekLast,hr]
  exact hrun c
 filled:=by
  rcases h.filled with ⟨q,fs,rfl⟩ | hall
  · exact .inl ⟨_,rfl⟩
  · refine .inr fun x hx=>?_
    obtain ⟨⟨p,es⟩,hmem,rfl⟩:=mem_map.mp hx
    exact hall _ (leaf_mem_of_leaves hmem)

end View

end Archivum.TreeShape
