import Archivum.PutOnPages

set_option autoImplicit false

/-!
# A child leaves its node

The abstract step of `remove_child`: the node loses one child; if one child
remains, the node is replaced by it. A collapse below the root shortens one
branch only, so the leaves of a tree need not be at one depth.
-/
namespace Archivum.TreeShape
open ByteStrings StatefulActions PageTxn SlottedPage BTreeModel InteriorSplit List

/-- The cells and the rightmost child of the node when the child in the hole is gone. -/
def Frame.remove : Frame → Option (List (Bytes × Tree) × Tree)
 | cell _ l _ rest z=>some (l++rest,z)
 | last _ l=>l.getLast?.map fun kt=>(l.dropLast,kt.2)

def Tree.rehome : Tree → ℕ → Tree
 | leaf _ es,p=>leaf p es
 | node _ kids z,p=>node p kids z

inductive RemoveHole : List Frame → Tree → Prop
 | shrink {f:Frame} {fs:List Frame} {kids:List (Bytes × Tree)} {z:Tree}
   (hrem:f.remove=some (kids,z)) (hne:kids≠[]) :
   RemoveHole (f::fs) (plugAll fs (.node f.page kids z))
 | collapse {f g:Frame} {fs:List Frame} {z:Tree} (hrem:f.remove=some ([],z)) :
   RemoveHole (f::g::fs) (plugAll (g::fs) z)
 | root {f:Frame} {z:Tree} (hrem:f.remove=some ([],z)) :
   RemoveHole [f] (z.rehome f.page)

namespace Frame

lemma remove_last {p:ℕ} {l kids:List (Bytes × Tree)} {z:Tree}
 (h:(Frame.last p l).remove=some (kids,z)) : ∃ k,l=kids++[(k,z)] := by
 rw [remove,Option.map_eq_some_iff] at h
 obtain ⟨⟨k,c⟩,hl,he⟩:=h
 obtain ⟨hne,hlast⟩:=getLast?_eq_some_iff.mp hl
 rw [Prod.mk.injEq] at he
 obtain ⟨rfl,rfl⟩:=he
 refine ⟨k,?_⟩
 rw [hlast,dropLast_concat]

lemma remove_facts {f:Frame} {kids:List (Bytes × Tree)} {z:Tree}
 (h:f.remove=some (kids,z)) : Tree.kidsFacts kids++z.facts=f.sideFacts := by
 cases f with
 | cell p l s rest w=>
  rw [remove,Option.some.injEq,Prod.mk.injEq] at h
  rw [← h.1,← h.2,sideFacts,left,factsAfter,Tree.kidsFacts_append,append_assoc]
 | last p l=>
  obtain ⟨k,rfl⟩:=remove_last h
  simp [sideFacts,left,factsAfter,Tree.kidsFacts]

lemma remove_leaves {f:Frame} {kids:List (Bytes × Tree)} {z:Tree} (h:f.remove=some (kids,z)) :
 kidsLeaves kids++z.leaves=kidsLeaves f.left++f.leavesAfter := by
 have hf:=congrArg factLeaves (remove_facts h)
 rw [factLeaves_append,sideFacts,factLeaves_append,f.factLeaves_factsAfter] at hf
 exact hf

lemma remove_marks {f:Frame} {kids:List (Bytes × Tree)} {z:Tree} (h:f.remove=some (kids,z)) :
 (Tree.kidsMarks kids++z.marks).Sublist (f.marksBefore++f.marksAfter) := by
 cases f with
 | cell p l s rest w=>
  rw [remove,Option.some.injEq,Prod.mk.injEq] at h
  rw [← h.1,← h.2,marksBefore,marksAfter,left,Tree.kidsMarks_append,append_assoc,cons_append]
  exact List.Sublist.append_left (sublist_cons_self _ _) _
 | last p l=>
  obtain ⟨k,rfl⟩:=remove_last h
  simp only [marksBefore,marksAfter,left,Tree.kidsMarks_append,Tree.kidsMarks,append_nil]
  exact List.Sublist.append_left (sublist_append_left _ _) _

end Frame

@[simp] lemma rehome_page (t:Tree) (p:ℕ) : (t.rehome p).page=p := by
 cases t <;> rfl

@[simp] lemma rehome_marks (t:Tree) (p:ℕ) : (t.rehome p).marks=t.marks := by
 cases t <;> simp [Tree.rehome,Tree.marks]

@[simp] lemma rehome_entries (t:Tree) (p:ℕ) : (t.rehome p).entries=t.entries := by
 cases t <;> simp [Tree.rehome,Tree.entries]

namespace RemoveHole
variable {fs:List Frame} {t':Tree}

lemma marks (h:RemoveHole fs t') : t'.marks.Sublist (pathMarksBefore fs++pathMarksAfter fs) := by
 -- what is left of the frame stands between the same neighbours
 have hplace:∀ {f:Frame} {gs:List Frame} {M:List Mark},M.Sublist (f.marksBefore++f.marksAfter) →
   (pathMarksBefore gs++M++pathMarksAfter gs).Sublist
    (pathMarksBefore (f::gs)++pathMarksAfter (f::gs)):=by
  intro f gs M hM
  have h1:=(hM.append_left (pathMarksBefore gs)).append_right (pathMarksAfter gs)
  simpa only [pathMarksBefore,pathMarksAfter,append_assoc] using h1
 cases h with
 | @shrink f fs kids z hrem hne=>
  rw [plugAll_marks]
  exact hplace (f.remove_marks hrem)
 | @collapse f g fs z hrem=>
  have hm:=f.remove_marks hrem
  rw [Tree.kidsMarks,nil_append] at hm
  rw [plugAll_marks]
  exact hplace hm
 | @root f z hrem=>
  have hm:=f.remove_marks hrem
  rw [Tree.kidsMarks,nil_append] at hm
  simpa [pathMarksBefore,pathMarksAfter] using hm

lemma entries (h:RemoveHole fs t') : t'.entries=entriesBefore fs++entriesAfter fs := by
 cases h with
 | @shrink f fs kids z hrem hne=>
  have hl:=f.remove_leaves hrem
  rw [Tree.entries,plugAll_leaves,node_leaves,hl,entriesBefore,entriesAfter,leavesBefore,leavesAfter]
  simp
 | @collapse f g fs z hrem=>
  have hl:=f.remove_leaves hrem
  rw [kidsLeaves_nil,nil_append] at hl
  rw [Tree.entries,plugAll_leaves,hl,entriesBefore,entriesAfter]
  simp [leavesBefore,leavesAfter]
 | @root f z hrem=>
  have hl:=f.remove_leaves hrem
  rw [kidsLeaves_nil,nil_append] at hl
  rw [rehome_entries,Tree.entries,hl]
  simp [entriesBefore,entriesAfter,leavesBefore,leavesAfter]

lemma page (h:RemoveHole fs t') : fs.getLast?.map Frame.page=some t'.page := by
 cases h with
 | @shrink f fs kids z hrem hne=>
  cases fs with
  | nil=>rfl
  | cons g fs=>
   rw [plugAll_page,getLast?_cons_cons,getLast?_eq_getLast_of_ne_nil (by simp)]
   rfl
 | @collapse f g fs z hrem=>
  rw [plugAll_page,getLast?_cons_cons,getLast?_eq_getLast_of_ne_nil (by simp)]
  rfl
 | @root f z hrem=>simp

lemma filled (h:RemoveHole fs t') (hole:ℕ) (hne:∀ x∈pathFacts fs hole,x.Nonempty) : t'.Filled := by
 have hside:∀ {f:Frame} {gs:List Frame} {kids:List (Bytes × Tree)} {z:Tree},fs=f::gs → f.remove=some (kids,z) →
   ∀ x∈Tree.kidsFacts kids++z.facts,x.Nonempty:=by
  rintro f gs kids z rfl hrem x hx
  rw [f.remove_facts hrem] at hx
  exact hne x (by rw [pathFacts]; simp [hx])
 have habove:∀ {f:Frame} {gs:List Frame},fs=f::gs →
   ∀ x∈pathFacts gs f.page,x.Nonempty:=by
  rintro f gs rfl x hx
  exact hne x (by rw [pathFacts]; simp [hx])
 cases h with
 | @shrink f gs kids z hrem hkids=>
  right
  intro x hx
  rcases mem_append.mp ((plugAll_facts_perm gs _).mem_iff.mp hx) with hx | hx
  · rcases mem_cons.mp hx with rfl | hx
    · simpa [Fact.Nonempty] using hkids
    · exact hside rfl hrem x hx
  · exact habove rfl x hx
 | @collapse f g gs z hrem=>
  right
  intro x hx
  rcases mem_append.mp ((plugAll_facts_perm (g::gs) z).mem_iff.mp hx) with hx | hx
  · exact hside rfl hrem x (by simpa [Tree.kidsFacts] using hx)
  · rw [pathFacts] at hx
    rcases mem_cons.mp hx with rfl | hx
    · have hg:=habove rfl (g.nodeFact f.page) (by rw [pathFacts]; simp)
      cases g with
      | cell p l s rest w=>simp [Frame.nodeFact,Fact.Nonempty,Frame.cells]
      | last p l=>exact hg
    · exact habove rfl x (by rw [pathFacts]; exact mem_cons_of_mem _ hx)
 | @root f z hrem=>
  cases z with
  | leaf q es=>exact Or.inl ⟨f.page,es,rfl⟩
  | node q kids w=>
   right
   intro x hx
   rw [Tree.rehome,Tree.facts] at hx
   have hz:=hside rfl hrem
   rw [Tree.kidsFacts,nil_append,Tree.facts] at hz
   rcases mem_cons.mp hx with rfl | hx
   · exact hz (.node q (kids.map fun kt=>(kt.1,kt.2.page)) w.page) mem_cons_self
   · exact hz x (mem_cons_of_mem _ hx)

end RemoveHole

end Archivum.TreeShape
