import Archivum.TreeSearch

set_option autoImplicit false

/-!
# The map a tree stores

The entries of a tree, read from left to right, are sorted by key; `lookup` is
the finite map they form. `get` computes it.
-/
namespace Archivum.TreeShape
open ByteStrings StatefulActions PageTxn SlottedPage BTreeModel List

def Fact.entries : Fact → List Entry
 | .leaf _ es=>es
 | .node _ _ _=>[]

def factEntries (xs:List Fact) : List Entry := xs.flatMap Fact.entries

@[simp] lemma factEntries_append (xs ys:List Fact) : factEntries (xs++ys)=factEntries xs++factEntries ys := flatMap_append

@[simp] lemma factEntries_cons (x:Fact) (xs:List Fact) : factEntries (x::xs)=x.entries++factEntries xs := rfl

lemma entries_eq_factEntries (t:Tree) : t.entries=factEntries t.facts := by
 rw [Tree.entries,Tree.leaves,factEntries]
 induction t.facts with
 | nil=>rfl
 | cons x xs ih=>
  cases x with
  | leaf p es=>simp [Fact.leafOf,Fact.entries,ih]
  | node p cells r=>
   rw [filterMap_cons_none rfl,ih]
   rfl

def isKey (m:Mark) : Bool := (ofLex m).2

@[simp] lemma isKey_keyMark (k:Bytes) : isKey (keyMark k)=true := rfl
@[simp] lemma isKey_sepMark (k:Bytes) : isKey (sepMark k)=false := rfl

lemma filter_keyMarks (es:List Entry) : (es.map fun e=>keyMark e.key).filter isKey=es.map fun e=>keyMark e.key := by
 rw [filter_eq_self]
 intro m hm
 obtain ⟨e,_,rfl⟩:=mem_map.mp hm
 rfl

mutual
lemma Tree.marks_filter : (t:Tree) → t.marks.filter isKey=(factEntries t.facts).map fun e=>keyMark e.key
 | .leaf p es=>by
  simp only [Tree.marks,Tree.facts,factEntries,flatMap_cons,flatMap_nil,append_nil,Fact.entries,filter_keyMarks]
 | .node p kids last=>by
  simp only [Tree.marks,Tree.facts,filter_append,Tree.kidsMarks_filter kids,
   Tree.marks_filter last,factEntries_cons,factEntries_append,Fact.entries,nil_append,map_append]
lemma Tree.kidsMarks_filter : (kids:List (Bytes × Tree)) → (Tree.kidsMarks kids).filter isKey =
  (factEntries (Tree.kidsFacts kids)).map fun e=>keyMark e.key
 | []=>rfl
 | (k,t)::kids=>by
  simp only [Tree.kidsMarks,Tree.kidsFacts,filter_append,Tree.marks_filter t,
   Tree.kidsMarks_filter kids,factEntries_append,map_append,filter_cons_of_neg (show ¬isKey (sepMark k)=true by simp)]
end

lemma Frame.marksBefore_filter (f:Frame) (hole:ℕ) :
 f.marksBefore.filter isKey=(factEntries (f.factsBefore hole)).map fun e=>keyMark e.key := by
 rw [Frame.marksBefore,Tree.kidsMarks_filter,Frame.factsBefore,factEntries_cons]
 rfl

lemma Frame.marksAfter_filter (f:Frame) : f.marksAfter.filter isKey=(factEntries f.factsAfter).map fun e=>keyMark e.key := by
 cases f with
 | cell p l s rest z=>
  rw [Frame.marksAfter,cons_append,filter_cons_of_neg (show ¬isKey (sepMark s)=true by simp),filter_append,
   Tree.kidsMarks_filter,Tree.marks_filter,Frame.factsAfter,factEntries_append,map_append]
 | last p l=>rfl

lemma pathMarksBefore_filter (fs:List Frame) (hole:ℕ) : (pathMarksBefore fs).filter isKey =
  (factEntries (pathBefore fs hole)).map fun e=>keyMark e.key := by
 induction fs generalizing hole with
 | nil=>rfl
 | cons f fs ih=>
  rw [pathMarksBefore,pathBefore,filter_append,ih f.page,f.marksBefore_filter hole,factEntries_append,map_append]

lemma pathMarksAfter_filter (fs:List Frame) : (pathMarksAfter fs).filter isKey =
  (factEntries (pathAfter fs)).map fun e=>keyMark e.key := by
 induction fs with
 | nil=>rfl
 | cons f fs ih=>
  rw [pathMarksAfter,pathAfter,filter_append,ih,f.marksAfter_filter,factEntries_append,map_append]

lemma keys_below {fs:List Frame} {key:Bytes} (h:Focus fs key) (hole:ℕ) : ∀ e∈factEntries (pathBefore fs hole),e.key<key := by
 intro e he
 have hm:keyMark e.key∈(pathMarksBefore fs).filter isKey:=by
  rw [pathMarksBefore_filter fs hole]
  exact mem_map_of_mem he
 exact (keyMark_lt_keyMark _ _).mp (h.below _ (mem_of_mem_filter hm))

lemma keys_above {fs:List Frame} {key:Bytes} (h:Focus fs key) : ∀ e∈factEntries (pathAfter fs),key<e.key := by
 intro e he
 have hm:keyMark e.key∈(pathMarksAfter fs).filter isKey:=by
  rw [pathMarksAfter_filter fs]
  exact mem_map_of_mem he
 exact (keyMark_lt_keyMark _ _).mp (h.above _ (mem_of_mem_filter hm))

lemma entries_sorted {t:Tree} (h:t.marks.Pairwise (· < ·)) : t.entries.Pairwise fun a b=>a.key<b.key := by
 have h1:=h.filter isKey
 rw [t.marks_filter,pairwise_map] at h1
 rw [entries_eq_factEntries]
 exact h1.imp fun hab=>(keyMark_lt_keyMark _ _).mp hab

lemma plugAll_entries (fs:List Frame) (p:ℕ) (es:List Entry) : (plugAll fs (.leaf p es)).entries =
  factEntries (pathBefore fs p)++es++factEntries (pathAfter fs) := by
 rw [entries_eq_factEntries,plugAll_facts,factEntries_append,factEntries_append]
 simp [Tree.facts,Tree.page,factEntries,Fact.entries]

def lookupEntries (es:List Entry) (key:Bytes) : Option Bytes :=
 (es.find? fun e=>decide (e.key=key)).map Entry.value

def Tree.lookup (t:Tree) (key:Bytes) : Option Bytes := lookupEntries t.entries key

lemma lookupEntries_append_of_ne {A B:List Entry} {key:Bytes} (h:∀ e∈A,e.key≠key) :
 lookupEntries (A++B) key=lookupEntries B key := by
 rw [lookupEntries,find?_append,find?_eq_none.mpr (by simpa using h)]
 rfl

lemma lookupEntries_eq_none {A:List Entry} {key:Bytes} (h:∀ e∈A,e.key≠key) : lookupEntries A key=none := by
 rw [lookupEntries,find?_eq_none.mpr (by simpa using h)]
 rfl

lemma lookupEntries_append_right_of_ne {A B:List Entry} {key:Bytes}
 (h:∀ e∈B,e.key≠key) : lookupEntries (A++B) key=lookupEntries A key := by
 rw [lookupEntries,lookupEntries,find?_append,find?_eq_none.mpr (show ∀ e∈B,¬decide (e.key=key)=true by simpa using h)]
 cases A.find? fun e=>decide (e.key=key) <;> rfl

lemma lookupEntries_cons (e:Entry) (es:List Entry) (key:Bytes) :
 lookupEntries (e::es) key=if e.key=key then some e.value else lookupEntries es key := by
 rw [lookupEntries,find?_cons]
 by_cases h:e.key=key
 · simp [h]
 · simp [h,lookupEntries]

lemma lookupEntries_iff {es:List Entry} (h:es.Pairwise fun a b=>a.key<b.key) (key value:Bytes) :
 lookupEntries es key=some value ↔ (key,value)∈es.map fun e=>(e.key,e.value) := by
 induction es with
 | nil=>simp [lookupEntries]
 | cons e es ih=>
  obtain ⟨h1,h2⟩:=pairwise_cons.mp h
  rw [lookupEntries_cons,map_cons,mem_cons]
  by_cases he:e.key=key
  · rw [if_pos he]
    constructor
    · intro hv
      exact Or.inl (by rw [he,Option.some.inj hv])
    · rintro (hv | hv)
      · rw [(Prod.mk.inj hv).2]
      · obtain ⟨d,hd,hdk⟩:=mem_map.mp hv
        have:=h1 d hd
        rw [(Prod.mk.inj hdk).1,he] at this
        exact absurd this (lt_irrefl _)
  · rw [if_neg he,ih h2]
    constructor
    · exact Or.inr
    · rintro (hv | hv)
      · exact absurd (Prod.mk.inj hv).1.symm he
      · exact hv

section Slot
variable {es:List Entry} (hsort:es.Pairwise fun a b=>a.key<b.key) (key:Bytes)

lemma take_slotOf_lt : ∀ e∈es.take (slotOf es key),e.key<key := by
 have h:es.take (slotOf es key)=es.takeWhile fun e=>decide (e.key<key):=
  (prefix_iff_eq_take.mp ( takeWhile_prefix _)).symm
 rw [h]
 intro e he
 simpa using all_eq_true.mp all_takeWhile e he

include hsort

lemma drop_slotOf_ge : ∀ e∈es.drop (slotOf es key),key≤e.key := by
 have hsplit:=takeWhile_append_dropWhile (p:=fun e:Entry=>decide (e.key<key)) (l:=es)
 have h:es.drop (slotOf es key)=es.dropWhile fun e=>decide (e.key<key):=by
  have hdrop:((es.takeWhile fun e=>decide (e.key<key)) ++ es.dropWhile fun e=>decide (e.key<key)).drop
    (es.takeWhile fun e=>decide (e.key<key)).length =
    es.dropWhile fun e=>decide (e.key<key):=drop_left
  rw [hsplit] at hdrop
  exact hdrop
 rw [h]
 have hs:(es.dropWhile fun e=>decide (e.key<key)).Pairwise fun a b=>a.key<b.key:=
  hsort.sublist (dropWhile_sublist _)
 cases hd:es.dropWhile fun e=>decide (e.key<key) with
 | nil=>simp
 | cons d ds=>
  have hhead:key≤d.key:=by
   have hne:es.dropWhile (fun e=>decide (e.key<key))≠[]:=by rw [hd]; simp
   have hh:=head_dropWhile_not (fun e:Entry=>decide (e.key<key)) hne
   simpa [hd] using hh
  rw [hd] at hs
  intro e he
  rcases mem_cons.mp he with rfl | he
  · exact hhead
  · exact le_trans hhead ((pairwise_cons.mp hs).1 e he).le

lemma slot_cases : (∃ e,es[slotOf es key]? = some e ∧ e.key=key ∧ ∀ d∈es.drop (slotOf es key+1),key<d.key) ∨
 ((∀ e,es[slotOf es key]? = some e → e.key≠key) ∧ ∀ d∈es.drop (slotOf es key),key<d.key) := by
 have hge:=drop_slotOf_ge hsort key
 have hs:(es.drop (slotOf es key)).Pairwise fun a b=>a.key<b.key:=
  hsort.sublist (drop_sublist _ _)
 cases hd:es.drop (slotOf es key) with
 | nil=>
  right
  have hlen:=drop_eq_nil_iff.mp hd
  refine ⟨?_,by simp⟩
  intro e he
  rw [getElem?_eq_none hlen] at he
  cases he
 | cons d ds=>
  have hget:es[slotOf es key]? = some d:=by
   have:=congrArg (fun l:List Entry=>l[0]?) hd
   simpa using this
  have hds:es.drop (slotOf es key+1)=ds:=by
   rw [← drop_drop,hd]
   rfl
  rw [hd] at hge hs
  obtain ⟨h1,_⟩:=pairwise_cons.mp hs
  by_cases hk:d.key=key
  · left
    refine ⟨d,hget,hk,?_⟩
    rw [hds]
    intro e he
    rw [← hk]
    exact h1 e he
  · right
    have hlt:key<d.key:=lt_of_le_of_ne (hge d mem_cons_self) (Ne.symm hk)
    refine ⟨?_,?_⟩
    · intro e he
      rw [hget] at he
      cases he
      exact hk
    · intro e he
      rcases mem_cons.mp he with rfl | he
      · exact hlt
      · exact lt_trans hlt (h1 e he)

end Slot

section Get
variable {ps:ℕ} {σ:WriteTxn} {t:Tree} {O free:List ℕ} {b:BTree}

lemma back_append (path:List PathEntry) (e:PathEntry) : BTree.back (path++[e])=e := by
 simp [BTree.back]

lemma findLeaf_at {fs:List Frame} {p:ℕ} {es:List Entry} (h:TreeAt ps σ (plugAll fs (.leaf p es)) O free)
 (hr:b.root=(plugAll fs (.leaf p es)).page) {key:Bytes} (hf:Focus fs key) (hlen:fs.length<64) :
 b.findLeaf key σ=(.ok (pathEntries fs++[⟨p,slotOf es key⟩],σ.page p),σ) := by
 rw [BTree.findLeaf,hr,findLeafLoop_run h.pages key 64 fs p es [] hlen h.facts
  (fun q hq=>mem_append_left _ hq) h.sorted hf,nil_append]

lemma findLeaf_run (h:TreeAt ps σ t O free) (hr:b.root=t.page) (hlev:t.levels≤64) (key:Bytes) :
 ∃ (fs:List Frame) (p:ℕ) (es:List Entry),t=plugAll fs (.leaf p es) ∧
  b.findLeaf key σ=(.ok (pathEntries fs++[⟨p,slotOf es key⟩],σ.page p),σ) ∧ Focus fs key ∧ fs.length<64 := by
 obtain ⟨fs,p,es,rfl,hf⟩:=focus_exists key t.levels t le_rfl h.sorted
 have hlen:fs.length<64:=lt_of_lt_of_le (path_lt_levels fs p es) hlev
 exact ⟨fs,p,es,rfl,findLeaf_at h hr hf hlen,hf,hlen⟩

lemma leaf_fact_mem (fs:List Frame) (p:ℕ) (es:List Entry) : Fact.leaf p es∈(plugAll fs (.leaf p es)).facts := by
 rw [plugAll_facts]
 simp [Tree.facts]

lemma leaf_match_iff (hmax:ps≤kMaxPageSize) {p:Bytes} {es:List Entry}
 (hs:Slotted ps p kLeaf (es.map (Entry.cell ps))) (hok:∀ e∈es,e.Ok ps) (i:ℕ) (key:Bytes) :
 (i<Node.count p ∧ compareBytes (Node.key p i) key=.eq) ↔ ∃ e,es[i]? = some e ∧ e.key=key := by
 rw [leaf_count hs]
 constructor
 · rintro ⟨hi,hc⟩
   have hget:=getElem?_eq_getElem hi
   rw [leaf_entry_key hmax hs hok hget,compareBytes_eq_iff] at hc
   exact ⟨_,hget,hc⟩
 · rintro ⟨e,hget,hk⟩
   refine ⟨(List.getElem?_eq_some_iff.mp hget).1,?_⟩
   rw [leaf_entry_key hmax hs hok hget,compareBytes_eq_iff]
   exact hk

lemma leaf_sorted {fs:List Frame} {p:ℕ} {es:List Entry} (h:(plugAll fs (.leaf p es)).marks.Pairwise (· < ·)) :
 es.Pairwise fun a b=>a.key<b.key := by
 have hs:=entries_sorted h
 rw [plugAll_entries] at hs
 exact (pairwise_append.mp (pairwise_append.mp hs).1).2.1

end Get

end Archivum.TreeShape
