import Archivum.BTreeCells

set_option autoImplicit false

/-!
# The tree a set of pages stands for

`Tree` is the abstract B+tree, annotated with the page of each node and the
overflow chain of each entry. A tree is read as two lists: `facts`, what each of
its pages must hold, and `marks`, its keys and separators from left to right.
The search order is that `marks` is strictly increasing, where a separator `s`
comes just before the key `s`. A path to a leaf is a list of one-hole frames,
innermost first.
-/
namespace Archivum.TreeShape
open ByteStrings PageTxn SlottedPage BTreeModel List

structure Entry where
 key : Bytes
 value : Bytes
 /-- Pages of the overflow chain, none when the value is stored in the cell. -/
 chain : List ℕ

inductive Tree
 | leaf (page:ℕ) (entries:List Entry)
 | node (page:ℕ) (kids:List (Bytes × Tree)) (last:Tree)

inductive Fact
 | leaf (page:ℕ) (entries:List Entry)
 | node (page:ℕ) (cells:List (Bytes × ℕ)) (right:ℕ)

abbrev Mark := Bytes ×ₗ Bool

def keyMark (k:Bytes) : Mark := toLex (k,true)
def sepMark (s:Bytes) : Mark := toLex (s,false)

@[simp] lemma keyMark_lt_keyMark (a b:Bytes) : keyMark a<keyMark b ↔ a<b := by
 simp [keyMark,Prod.Lex.toLex_lt_toLex]

@[simp] lemma keyMark_lt_sepMark (a b:Bytes) : keyMark a<sepMark b ↔ a<b := by
 simp [keyMark,sepMark,Prod.Lex.toLex_lt_toLex]

@[simp] lemma sepMark_lt_keyMark (a b:Bytes) : sepMark a<keyMark b ↔ a≤b := by
 simp [keyMark,sepMark,Prod.Lex.toLex_lt_toLex,le_iff_lt_or_eq]

@[simp] lemma sepMark_lt_sepMark (a b:Bytes) : sepMark a<sepMark b ↔ a<b := by
 simp [sepMark,Prod.Lex.toLex_lt_toLex]

namespace Tree

def page : Tree → ℕ
 | leaf p _=>p
 | node p _ _=>p

mutual
def facts : Tree → List Fact
 | leaf p es=>[.leaf p es]
 | node p kids last=>
  .node p (kids.map fun kt=>(kt.1,kt.2.page)) last.page::(kidsFacts kids++last.facts)
def kidsFacts : List (Bytes × Tree) → List Fact
 | []=>[]
 | (_,t)::kids=>t.facts++kidsFacts kids
end

mutual
def marks : Tree → List Mark
 | leaf _ es=>es.map fun e=>keyMark e.key
 | node _ kids last=>kidsMarks kids++last.marks
def kidsMarks : List (Bytes × Tree) → List Mark
 | []=>[]
 | (k,t)::kids=>t.marks++sepMark k::kidsMarks kids
end

def levels : Tree → ℕ
 | leaf _ _=>1
 | node _ kids last=>max (kidsLevels kids) last.levels+1
where
 kidsLevels:List (Bytes × Tree) → ℕ
  | []=>0
  | (_,t)::kids=>max t.levels (kidsLevels kids)

@[simp] lemma kidsFacts_append (a b:List (Bytes × Tree)) : kidsFacts (a++b)=kidsFacts a++kidsFacts b := by
 induction a with
 | nil=>rfl
 | cons kt a ih=>rw [cons_append,kidsFacts,kidsFacts,ih,append_assoc]

@[simp] lemma kidsMarks_append (a b:List (Bytes × Tree)) : kidsMarks (a++b)=kidsMarks a++kidsMarks b := by
 induction a with
 | nil=>rfl
 | cons kt a ih=>
  rw [cons_append,kidsMarks,kidsMarks,ih,append_assoc,cons_append]

end Tree

def Fact.pages : Fact → List ℕ
 | .leaf p es=>p::es.flatMap Entry.chain
 | .node p _ _=>[p]

def Fact.leafOf : Fact → Option (ℕ × List Entry)
 | .leaf p es=>some (p,es)
 | .node _ _ _=>none

namespace Tree

def pages (t:Tree) : List ℕ := t.facts.flatMap Fact.pages

def leaves (t:Tree) : List (ℕ × List Entry) := t.facts.filterMap Fact.leafOf

def leafPages (t:Tree) : List ℕ := t.leaves.map Prod.fst

def entries (t:Tree) : List Entry := t.leaves.flatMap Prod.snd

end Tree

/-- A node with one child left out: the child of a cell, or the rightmost child. -/
inductive Frame
 | cell (page:ℕ) (left:List (Bytes × Tree)) (sep:Bytes) (rest:List (Bytes × Tree))
  (last:Tree)
 | last (page:ℕ) (left:List (Bytes × Tree))

namespace Frame

def page : Frame → ℕ
 | cell p _ _ _ _=>p
 | last p _=>p

def left : Frame → List (Bytes × Tree)
 | cell _ l _ _ _=>l
 | last _ l=>l

def plug : Frame → Tree → Tree
 | cell p l s rest z,t=>.node p (l++(s,t)::rest) z
 | last p l,t=>.node p l t

/-- The entry `find_leaf` records for the node. -/
def entry (f:Frame) : PathEntry := ⟨f.page,f.left.length⟩

/-- The cells of the node when the hole holds the page `hole`. -/
def cells : Frame → ℕ → List (Bytes × ℕ)
 | cell _ l s rest _,hole=>
  (l.map fun kt=>(kt.1,kt.2.page))++(s,hole)::rest.map fun kt=>(kt.1,kt.2.page)
 | last _ l,_=>l.map fun kt=>(kt.1,kt.2.page)

def right : Frame → ℕ → ℕ
 | cell _ _ _ _ z,_=>z.page
 | last _ _,hole=>hole

def factsBefore (f:Frame) (hole:ℕ) : List Fact :=
 .node f.page (f.cells hole) (f.right hole)::Tree.kidsFacts f.left

def factsAfter : Frame → List Fact
 | cell _ _ _ rest z=>Tree.kidsFacts rest++z.facts
 | last _ _=>[]

def marksBefore (f:Frame) : List Mark := Tree.kidsMarks f.left

def marksAfter : Frame → List Mark
 | cell _ _ s rest z=>sepMark s::Tree.kidsMarks rest++z.marks
 | last _ _=>[]

@[simp] lemma plug_page (f:Frame) (t:Tree) : (f.plug t).page=f.page := by
 cases f <;> rfl

lemma plug_facts (f:Frame) (t:Tree) : (f.plug t).facts=f.factsBefore t.page++t.facts++f.factsAfter := by
 cases f with
 | cell p l s rest z=>
  simp only [plug,Tree.facts,Tree.kidsFacts_append,Tree.kidsFacts,factsBefore,factsAfter,
   cells,right,left,page,map_append,map_cons,cons_append,append_assoc]
 | last p l=>
  simp only [plug,Tree.facts,factsBefore,factsAfter,cells,right,left,page,cons_append,append_nil]

lemma plug_marks (f:Frame) (t:Tree) : (f.plug t).marks=f.marksBefore++t.marks++f.marksAfter := by
 cases f with
 | cell p l s rest z=>
  simp only [plug,Tree.marks,Tree.kidsMarks_append,Tree.kidsMarks,marksBefore,marksAfter,left,append_assoc,cons_append]
 | last p l=>
  simp only [plug,Tree.marks,marksBefore,marksAfter,left,append_nil]

end Frame

def plugAll : List Frame → Tree → Tree
 | [],t=>t
 | f::fs,t=>plugAll fs (f.plug t)

lemma plugAll_append (fs gs:List Frame) (t:Tree) : plugAll (fs++gs) t=plugAll gs (plugAll fs t) := by
 induction fs generalizing t with
 | nil=>rfl
 | cons f fs ih=>exact ih (f.plug t)

def pathBefore : List Frame → ℕ → List Fact
 | [],_=>[]
 | f::fs,hole=>pathBefore fs f.page++f.factsBefore hole

def pathAfter : List Frame → List Fact
 | []=>[]
 | f::fs=>f.factsAfter++pathAfter fs

def pathMarksBefore : List Frame → List Mark
 | []=>[]
 | f::fs=>pathMarksBefore fs++f.marksBefore

def pathMarksAfter : List Frame → List Mark
 | []=>[]
 | f::fs=>f.marksAfter++pathMarksAfter fs

lemma plugAll_facts (fs:List Frame) (t:Tree) : (plugAll fs t).facts=pathBefore fs t.page++t.facts++pathAfter fs := by
 induction fs generalizing t with
 | nil=>simp only [plugAll,pathBefore,pathAfter,nil_append,append_nil]
 | cons f fs ih=>
  rw [plugAll,ih,f.plug_facts,f.plug_page,pathBefore,pathAfter]
  simp only [append_assoc]

lemma plugAll_marks (fs:List Frame) (t:Tree) : (plugAll fs t).marks=pathMarksBefore fs++t.marks++pathMarksAfter fs := by
 induction fs generalizing t with
 | nil=>simp only [plugAll,pathMarksBefore,pathMarksAfter,nil_append,append_nil]
 | cons f fs ih=>
  rw [plugAll,ih,f.plug_marks,pathMarksBefore,pathMarksAfter]
  simp only [append_assoc]

lemma pathMarksBefore_append (fs gs:List Frame) : pathMarksBefore (fs++gs)=pathMarksBefore gs++pathMarksBefore fs := by
 induction fs with
 | nil=>simp only [nil_append,pathMarksBefore,append_nil]
 | cons f fs ih=>simp only [cons_append,pathMarksBefore,ih,append_assoc]

lemma pathMarksAfter_append (fs gs:List Frame) : pathMarksAfter (fs++gs)=pathMarksAfter fs++pathMarksAfter gs := by
 induction fs with
 | nil=>rfl
 | cons f fs ih=>simp only [cons_append,pathMarksAfter,ih,append_assoc]

lemma plugAll_page (f:Frame) (fs:List Frame) (t:Tree) :
 (plugAll (f::fs) t).page=((f::fs).getLast (by simp)).page := by
 induction fs generalizing f t with
 | nil=>exact f.plug_page t
 | cons g fs ih=>exact ih g (f.plug t)

def pathEntries (fs:List Frame) : List PathEntry := fs.reverse.map Frame.entry

end Archivum.TreeShape
