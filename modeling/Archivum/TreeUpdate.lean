import Archivum.InteriorSplit
import Archivum.TreeContents

set_option autoImplicit false

/-!
# What an update does to the tree

The abstract steps of insertion and removal, on the path to a leaf: a separator
enters a node and may split it and the nodes above (`InsertSep`); an emptied
leaf leaves its parent, which may collapse (`RemoveHole`). Both keep the order
of keys and separators, which is all the search relies on.
-/
namespace Archivum.TreeShape
open ByteStrings PageTxn SlottedPage BTreeModel InteriorSplit List

def keysWeight (keys:List Bytes) : ℕ := (keys.map fun k=>cellWeight k.length).sum

@[simp] lemma keysWeight_append (a b:List Bytes) : keysWeight (a++b)=keysWeight a+keysWeight b := by
 simp only [keysWeight,map_append,sum_append]

@[simp] lemma keysWeight_cons (k:Bytes) (ks:List Bytes) : keysWeight (k::ks)=cellWeight k.length+keysWeight ks := by
 simp only [keysWeight,map_cons,sum_cons]

def KeysFit (ps:ℕ) (keys:List Bytes) : Prop := kHdr+keysWeight keys ≤ Node.usable ps

namespace Frame

/-- The cells after the child in the hole split into `t1`, `s`, `t2`. -/
def insertKids : Frame → Tree → Bytes → Tree → List (Bytes × Tree)
 | cell _ l sep rest _,t1,s,t2=>l++(s,t1)::(sep,t2)::rest
 | last _ l,t1,s,_=>l++[(s,t1)]

def insertLast : Frame → Tree → Tree
 | cell _ _ _ _ z,_=>z
 | last _ _,t2=>t2

def insertKeys : Frame → Bytes → List Bytes
 | cell _ l sep rest _,s=>l.map Prod.fst++s::sep::rest.map Prod.fst
 | last _ l,s=>l.map Prod.fst++[s]

lemma insertKids_keys (f:Frame) (t1:Tree) (s:Bytes) (t2:Tree) : (f.insertKids t1 s t2).map Prod.fst=f.insertKeys s := by
 cases f <;> simp [insertKids,insertKeys]

def insertNode (f:Frame) (t1:Tree) (s:Bytes) (t2:Tree) : Tree :=
 .node f.page (f.insertKids t1 s t2) (f.insertLast t2)

lemma insertNode_marks (f:Frame) (t1:Tree) (s:Bytes) (t2:Tree) : (f.insertNode t1 s t2).marks =
  f.marksBefore++(t1.marks++sepMark s::t2.marks)++f.marksAfter := by
 cases f with
 | cell p l sep rest z=>
  simp [insertNode,insertKids,insertLast,Tree.marks,Tree.kidsMarks,marksBefore,marksAfter,left]
 | last p l=>
  simp [insertNode,insertKids,insertLast,Tree.marks,Tree.kidsMarks,marksBefore,marksAfter,left]

def sideFacts (f:Frame) : List Fact := Tree.kidsFacts f.left++f.factsAfter

end Frame

lemma node_split_marks (p q r:ℕ) (A B:List (Bytes × Tree)) (k:Bytes) (c z:Tree) :
 (Tree.node p (A++(k,c)::B) z).marks = (Tree.node q A c).marks++sepMark k::(Tree.node r B z).marks := by
 simp [Tree.marks,Tree.kidsMarks]

/-- A separator enters the innermost frame; an overfull node splits at its middle cell and hands
the middle separator up, the root keeping its page number. -/
inductive InsertSep (ps:ℕ) : List Frame → Tree → Bytes → Tree → Tree → Prop
 | fits {f:Frame} {fs:List Frame} {t1 t2:Tree} {s:Bytes}
   (hfit:KeysFit ps (f.insertKeys s)) :
   InsertSep ps (f::fs) t1 s t2 (plugAll fs (f.insertNode t1 s t2))
 | split {f g:Frame} {fs:List Frame} {t1 t2 c t':Tree} {s k:Bytes}
   {A B:List (Bytes × Tree)} (q:ℕ) (hfull:¬KeysFit ps (f.insertKeys s))
   (hcut:f.insertKids t1 s t2=A++(k,c)::B)
   (hmid:A.length=(f.insertKids t1 s t2).length/2)
   (up:InsertSep ps (g::fs) (.node f.page A c) k (.node q B (f.insertLast t2)) t') :
   InsertSep ps (f::g::fs) t1 s t2 t'
 | root {f:Frame} {t1 t2 c:Tree} {s k:Bytes} {A B:List (Bytes × Tree)} (lp rp:ℕ)
   (hfull:¬KeysFit ps (f.insertKeys s))
   (hcut:f.insertKids t1 s t2=A++(k,c)::B)
   (hmid:A.length=(f.insertKids t1 s t2).length/2) :
   InsertSep ps [f] t1 s t2
    (.node f.page [(k,.node lp A c)] (.node rp B (f.insertLast t2)))

lemma InsertSep.marks {ps:ℕ} {fs:List Frame} {t1 t2 t':Tree} {s:Bytes} (h:InsertSep ps fs t1 s t2 t') :
 t'.marks=pathMarksBefore fs++(t1.marks++sepMark s::t2.marks)++pathMarksAfter fs := by
 induction h with
 | fits hfit=>
  rw [plugAll_marks,Frame.insertNode_marks,pathMarksBefore,pathMarksAfter]
  simp only [append_assoc]
 | @split f g fs t1 t2 c t' s k A B q hfull hcut hmid up ih=>
  have hnode:=f.insertNode_marks t1 s t2
  rw [Frame.insertNode,hcut,node_split_marks f.page f.page q] at hnode
  rw [ih,hnode,pathMarksBefore,pathMarksAfter]
  simp only [append_assoc,pathMarksBefore,pathMarksAfter]
 | @root f t1 t2 c s k A B lp rp hfull hcut hmid=>
  have hnode:=f.insertNode_marks t1 s t2
  rw [Frame.insertNode,hcut,node_split_marks f.page lp rp] at hnode
  simp only [pathMarksBefore,pathMarksAfter,nil_append,append_nil]
  rw [← hnode]
  simp [Tree.marks,Tree.kidsMarks]

def factLeaves (xs:List Fact) : List (ℕ × List Entry) := xs.filterMap Fact.leafOf

@[simp] lemma factLeaves_append (xs ys:List Fact) : factLeaves (xs++ys)=factLeaves xs++factLeaves ys := filterMap_append

@[simp] lemma factLeaves_node (p r:ℕ) (cells:List (Bytes × ℕ)) (xs:List Fact) :
 factLeaves (.node p cells r::xs)=factLeaves xs := filterMap_cons_none rfl

@[simp] lemma factLeaves_leaf (p:ℕ) (es:List Entry) (xs:List Fact) :
 factLeaves (.leaf p es::xs)=(p,es)::factLeaves xs := filterMap_cons_some rfl

lemma leaves_eq (t:Tree) : t.leaves=factLeaves t.facts := rfl

def kidsLeaves (kids:List (Bytes × Tree)) : List (ℕ × List Entry) :=
 factLeaves (Tree.kidsFacts kids)

@[simp] lemma kidsLeaves_nil : kidsLeaves []=[] := rfl

@[simp] lemma kidsLeaves_cons (k:Bytes) (t:Tree) (kids:List (Bytes × Tree)) :
 kidsLeaves ((k,t)::kids)=t.leaves++kidsLeaves kids := by
 rw [kidsLeaves,Tree.kidsFacts,factLeaves_append,kidsLeaves,leaves_eq]

@[simp] lemma kidsLeaves_append (a b:List (Bytes × Tree)) : kidsLeaves (a++b)=kidsLeaves a++kidsLeaves b := by
 rw [kidsLeaves,Tree.kidsFacts_append,factLeaves_append,kidsLeaves,kidsLeaves]

@[simp] lemma node_leaves (p:ℕ) (kids:List (Bytes × Tree)) (z:Tree) :
 (Tree.node p kids z).leaves=kidsLeaves kids++z.leaves := by
 rw [leaves_eq,Tree.facts,factLeaves_node,factLeaves_append,leaves_eq,kidsLeaves]

@[simp] lemma leaf_leaves (p:ℕ) (es:List Entry) : (Tree.leaf p es).leaves=[(p,es)] := rfl

namespace Frame

def leavesAfter : Frame → List (ℕ × List Entry)
 | cell _ _ _ rest z=>kidsLeaves rest++z.leaves
 | last _ _=>[]

lemma factLeaves_factsAfter (f:Frame) : factLeaves f.factsAfter=f.leavesAfter := by
 cases f with
 | cell p l s rest z=>rw [factsAfter,factLeaves_append,leavesAfter,kidsLeaves,leaves_eq]
 | last p l=>rfl

lemma factLeaves_factsBefore (f:Frame) (hole:ℕ) : factLeaves (f.factsBefore hole)=kidsLeaves f.left := by
 rw [factsBefore,factLeaves_node,kidsLeaves]

lemma insertNode_leaves (f:Frame) (t1:Tree) (s:Bytes) (t2:Tree) : (f.insertNode t1 s t2).leaves =
  kidsLeaves f.left++(t1.leaves++t2.leaves)++f.leavesAfter := by
 cases f <;> simp [insertNode,insertKids,insertLast,leavesAfter,left]

end Frame

def leavesBefore : List Frame → List (ℕ × List Entry)
 | []=>[]
 | f::fs=>leavesBefore fs++kidsLeaves f.left

def leavesAfter : List Frame → List (ℕ × List Entry)
 | []=>[]
 | f::fs=>f.leavesAfter++leavesAfter fs

lemma factLeaves_pathBefore (fs:List Frame) (hole:ℕ) : factLeaves (pathBefore fs hole)=leavesBefore fs := by
 induction fs generalizing hole with
 | nil=>rfl
 | cons f fs ih=>
  rw [pathBefore,factLeaves_append,ih,f.factLeaves_factsBefore,leavesBefore]

lemma factLeaves_pathAfter (fs:List Frame) : factLeaves (pathAfter fs)=leavesAfter fs := by
 induction fs with
 | nil=>rfl
 | cons f fs ih=>rw [pathAfter,factLeaves_append,ih,f.factLeaves_factsAfter,leavesAfter]

lemma plugAll_leaves (fs:List Frame) (t:Tree) : (plugAll fs t).leaves=leavesBefore fs++t.leaves++leavesAfter fs := by
 rw [leaves_eq,plugAll_facts,factLeaves_append,factLeaves_append,factLeaves_pathBefore,factLeaves_pathAfter,leaves_eq]

lemma node_split_leaves (p q r:ℕ) (A B:List (Bytes × Tree)) (k:Bytes) (c z:Tree) :
 (Tree.node p (A++(k,c)::B) z).leaves = (Tree.node q A c).leaves++(Tree.node r B z).leaves := by
 simp

lemma InsertSep.leaves {ps:ℕ} {fs:List Frame} {t1 t2 t':Tree} {s:Bytes} (h:InsertSep ps fs t1 s t2 t') :
 t'.leaves=leavesBefore fs++(t1.leaves++t2.leaves)++leavesAfter fs := by
 induction h with
 | fits hfit=>
  rw [plugAll_leaves,Frame.insertNode_leaves,leavesBefore,leavesAfter]
  simp only [append_assoc]
 | @split f g fs t1 t2 c t' s k A B q hfull hcut hmid up ih=>
  have hnode:=f.insertNode_leaves t1 s t2
  rw [Frame.insertNode,hcut,node_split_leaves f.page f.page q] at hnode
  rw [ih,hnode]
  simp only [leavesBefore,leavesAfter,append_assoc]
 | @root f t1 t2 c s k A B lp rp hfull hcut hmid=>
  have hnode:=f.insertNode_leaves t1 s t2
  rw [Frame.insertNode,hcut,node_split_leaves f.page lp rp] at hnode
  simp only [leavesBefore,leavesAfter,nil_append,append_nil]
  rw [← hnode]
  simp

lemma InsertSep.page {ps:ℕ} {fs:List Frame} {t1 t2 t':Tree} {s:Bytes}
 (h:InsertSep ps fs t1 s t2 t') : (fs.getLast?.map Frame.page)=some t'.page := by
 induction h with
 | @fits f fs t1 t2 s hfit=>
  cases fs with
  | nil=>rfl
  | cons g fs=>
   rw [plugAll_page,getLast?_cons_cons,getLast?_eq_getLast_of_ne_nil (by simp)]
   rfl
 | split q hfull hcut hmid up ih=>rw [getLast?_cons_cons,ih]
 | root lp rp hfull hcut hmid=>rfl

def Frame.pages (f:Frame) : List ℕ := f.page::f.sideFacts.flatMap Fact.pages

def pathPages (fs:List Frame) : List ℕ := fs.flatMap Frame.pages

/-- What the page of a frame holds when the hole is at `hole`. -/
def Frame.nodeFact (f:Frame) (hole:ℕ) : Fact := .node f.page (f.cells hole) (f.right hole)

def pathFacts : List Frame → ℕ → List Fact
 | [],_=>[]
 | f::fs,hole=>f.nodeFact hole::(f.sideFacts++pathFacts fs f.page)

lemma plug_facts_perm (f:Frame) (t:Tree) : (f.plug t).facts.Perm (t.facts++f.nodeFact t.page::f.sideFacts) := by
 rw [f.plug_facts,Frame.factsBefore,Frame.sideFacts,cons_append,cons_append]
 refine List.Perm.trans ?_ perm_middle.symm
 refine List.Perm.cons _ ?_
 rw [append_assoc]
 exact perm_append_comm_assoc _ _ _

lemma plugAll_facts_perm (fs:List Frame) (t:Tree) : (plugAll fs t).facts.Perm (t.facts++pathFacts fs t.page) := by
 induction fs generalizing t with
 | nil=>rw [pathFacts,append_nil,plugAll]
 | cons f fs ih=>
  have h:=(ih (f.plug t)).trans ((plug_facts_perm f t).append_right _)
  rw [f.plug_page,append_assoc,cons_append] at h
  exact h

lemma pathPages_eq (fs:List Frame) (hole:ℕ) : (pathFacts fs hole).flatMap Fact.pages=pathPages fs := by
 induction fs generalizing hole with
 | nil=>rfl
 | cons f fs ih=>
  rw [pathFacts,flatMap_cons,flatMap_append,ih]
  rfl

lemma plugAll_pages_perm (fs:List Frame) (t:Tree) : (plugAll fs t).pages.Perm (t.pages++pathPages fs) := by
 have h:=(plugAll_facts_perm fs t).flatMap_right Fact.pages
 rw [flatMap_append,pathPages_eq] at h
 exact h

lemma insertNode_kids_perm (f:Frame) (t1:Tree) (s:Bytes) (t2:Tree) :
 (Tree.kidsFacts (f.insertKids t1 s t2)++(f.insertLast t2).facts).Perm (t1.facts++(t2.facts++f.sideFacts)) := by
 cases f with
 | cell p l sep rest z=>
  simp only [Frame.insertKids,Frame.insertLast,Frame.sideFacts,Frame.left,Frame.factsAfter,
   Tree.kidsFacts_append,Tree.kidsFacts,append_assoc]
  refine (perm_append_comm_assoc _ _ _).trans (List.Perm.append_left _ ?_)
  exact perm_append_comm_assoc _ _ _
 | last p l=>
  simp only [Frame.insertKids,Frame.insertLast,Frame.sideFacts,Frame.left,Frame.factsAfter,
   Tree.kidsFacts_append,Tree.kidsFacts,append_assoc,append_nil]
  refine (perm_append_comm_assoc _ _ _).trans (List.Perm.append_left _ ?_)
  exact perm_append_comm

lemma cut_facts_perm (p q:ℕ) (A B:List (Bytes × Tree)) (k:Bytes) (c z:Tree) :
 ((Tree.node p A c).facts++(Tree.node q B z).facts).Perm (.node p (A.map fun kt=>(kt.1,kt.2.page)) c.page ::
   .node q (B.map fun kt=>(kt.1,kt.2.page)) z.page :: (Tree.kidsFacts (A++(k,c)::B)++z.facts)) := by
 simp only [Tree.facts,Tree.kidsFacts_append,Tree.kidsFacts,append_assoc,cons_append]
 refine List.Perm.cons _ ?_
 rw [← append_assoc]
 refine perm_middle.trans (List.Perm.cons _ ?_)
 rw [append_assoc]

def Fact.KeysLe (ps:ℕ) : Fact → Prop
 | .leaf _ _=>True
 | .node _ cells _=>∀ c∈cells,c.1.length ≤ maxKeyBytesFor ps

lemma five_le_of_not_fit {ps:ℕ} (hmin:kMinPageSize≤ps) {keys:List Bytes}
 (hk:∀ k∈keys,k.length ≤ maxKeyBytesFor ps) (hfull:¬KeysFit ps keys) : 5≤keys.length := by
 have hmin':512≤ps:=hmin
 have hw:keysWeight keys≤keys.length • ((ps-28)/4-5):=by
  rw [keysWeight,← length_map (fun k:Bytes=>cellWeight k.length)]
  refine sum_le_card_nsmul _ _ fun w hw=>?_
  obtain ⟨k,hkm,rfl⟩:=mem_map.mp hw
  have h1:=hk k hkm
  simp only [maxKeyBytesFor,maxCellBytes,kPageTrailerBytes,kHdr,kLeafCellHdr] at h1
  rw [cellWeight,kInteriorCellHdr]
  omega
 rw [smul_eq_mul] at hw
 by_contra hlt
 have hmul:keys.length*((ps-28)/4-5)≤4*((ps-28)/4-5):=
  Nat.mul_le_mul_right _ (by omega)
 refine hfull ?_
 rw [KeysFit,Node.usable,kPageTrailerBytes,kHdr]
 omega

lemma insertKeys_le {ps:ℕ} {f:Frame} {s:Bytes} {hole:ℕ} (hf:(f.nodeFact hole).KeysLe ps) (hs:s.length ≤ maxKeyBytesFor ps) :
 ∀ k∈f.insertKeys s,k.length ≤ maxKeyBytesFor ps := by
 intro k hk
 have hmem:k=s ∨ k∈(f.cells hole).map Prod.fst:=by
  cases f <;> simp [Frame.insertKeys,Frame.cells] at hk ⊢ <;> tauto
 rcases hmem with rfl | hmem
 · exact hs
 · obtain ⟨c,hc,rfl⟩:=mem_map.mp hmem
   exact hf c hc

lemma halves_ne_nil {ps:ℕ} (hmin:kMinPageSize≤ps) {f:Frame} {t1 t2 c:Tree}
 {s k:Bytes} {A B:List (Bytes × Tree)} {hole:ℕ} (hf:(f.nodeFact hole).KeysLe ps)
 (hs:s.length ≤ maxKeyBytesFor ps) (hfull:¬KeysFit ps (f.insertKeys s)) (hcut:f.insertKids t1 s t2=A++(k,c)::B)
 (hmid:A.length=(f.insertKids t1 s t2).length/2) : A≠[] ∧ B≠[] ∧ k.length ≤ maxKeyBytesFor ps := by
 have hkeys:=insertKeys_le hf hs
 have hfive:=five_le_of_not_fit hmin hkeys hfull
 rw [← f.insertKids_keys t1 s t2] at hfive hkeys
 have hlen:=congrArg length hcut
 rw [length_map] at hfive
 rw [length_append,length_cons] at hlen
 refine ⟨?_,?_,hkeys k (by rw [hcut]; simp)⟩
 · rintro rfl
   rw [length_nil] at hmid
   omega
 · rintro rfl
   rw [length_nil] at hlen
   omega

lemma InsertSep.nonempty {ps:ℕ} (hmin:kMinPageSize≤ps) {fs:List Frame}
 {t1 t2 t':Tree} {s:Bytes} (h:InsertSep ps fs t1 s t2 t') (hs:s.length ≤ maxKeyBytesFor ps)
 (hkeys:∀ x∈pathFacts fs t1.page,x.KeysLe ps) (hne:∀ x∈t1.facts++(t2.facts++pathFacts fs t1.page),x.Nonempty) :
 ∀ x∈t'.facts,x.Nonempty := by
 induction h with
 | @fits f fs t1 t2 s hfit=>
  intro x hx
  have hx':=(plugAll_facts_perm fs (f.insertNode t1 s t2)).mem_iff.mp hx
  rcases mem_append.mp hx' with hx' | hx'
  · rcases mem_cons.mp hx' with rfl | hx'
    · cases f <;> simp [Fact.Nonempty,Frame.insertKids]
    · have:=(insertNode_kids_perm f t1 s t2).mem_iff.mp hx'
      refine hne x ?_
      rw [pathFacts]
      simp only [mem_append,mem_cons] at this ⊢
      tauto
  · refine hne x ?_
    rw [pathFacts]
    simp [show x∈pathFacts fs f.page from hx']
 | @split f g fs t1 t2 c t' s k A B q hfull hcut hmid up ih=>
  have hf:=hkeys _ (by rw [pathFacts]; exact mem_cons_self)
  obtain ⟨hA,hB,hk⟩:=halves_ne_nil hmin hf hs hfull hcut hmid
  refine ih hk (fun x hx=>hkeys x ?_) fun x hx=>?_
  · rw [pathFacts]
    simp [show x∈pathFacts (g::fs) f.page from hx]
  · rw [← append_assoc] at hx
    rcases mem_append.mp hx with hx | hx
    · have hx':=(cut_facts_perm f.page q A B k c (f.insertLast t2)).mem_iff.mp hx
      rcases mem_cons.mp hx' with rfl | hx'
      · simpa [Fact.Nonempty] using hA
      · rcases mem_cons.mp hx' with rfl | hx'
        · simpa [Fact.Nonempty] using hB
        · rw [← hcut] at hx'
          have:=(insertNode_kids_perm f t1 s t2).mem_iff.mp hx'
          refine hne x ?_
          rw [pathFacts]
          simp only [mem_append,mem_cons] at this ⊢
          tauto
    · refine hne x ?_
      rw [pathFacts]
      simp [show x∈pathFacts (g::fs) f.page from hx]
 | @root f t1 t2 c s k A B lp rp hfull hcut hmid=>
  have hf:=hkeys _ (by rw [pathFacts]; exact mem_cons_self)
  obtain ⟨hA,hB,_⟩:=halves_ne_nil hmin hf hs hfull hcut hmid
  intro x hx
  simp only [Tree.facts,Tree.kidsFacts,append_nil] at hx
  rcases mem_cons.mp hx with rfl | hx
  · simp [Fact.Nonempty]
  · have hx':=(cut_facts_perm lp rp A B k c (f.insertLast t2)).mem_iff.mp hx
    rcases mem_cons.mp hx' with rfl | hx'
    · simpa [Fact.Nonempty] using hA
    · rcases mem_cons.mp hx' with rfl | hx'
      · simpa [Fact.Nonempty] using hB
      · rw [← hcut] at hx'
        have:=(insertNode_kids_perm f t1 s t2).mem_iff.mp hx'
        refine hne x ?_
        rw [pathFacts]
        simp only [mem_append,mem_cons] at this ⊢
        tauto

end Archivum.TreeShape
