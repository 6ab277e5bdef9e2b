import Archivum.TreeOnPages

set_option autoImplicit false

/-!
# Finding a key

`find_leaf` returns the path to the one leaf where the key belongs: everything
left of the leaf is below the key and everything right of it is above.
-/
namespace Archivum.TreeShape
open ByteStrings StatefulActions PageTxn SlottedPage BTreeModel List

lemma bisect_takeWhile {α:Type} (l:List α) (q:α → Bool) (before:ℕ → Bool)
 (hb:∀ (i:ℕ) (x:α),l[i]? = some x → before i=q x) (hmono:l.Pairwise fun x y=>q y=true → q x=true) :
 bisect before l.length 0 l.length=(l.takeWhile q).length := by
 have hsplit:=takeWhile_append_dropWhile (p:=q) (l:=l)
 have hle:(l.takeWhile q).length≤l.length:=(takeWhile_sublist q).length_le
 apply bisect_spec before l.length 0 l.length _ (by omega) (by omega) hle
 · intro i _ hi
   have hx:l[i]? = some (l.takeWhile q)[i]:=by
    conv_lhs=>rw [← hsplit]
    rw [getElem?_append_left hi,getElem?_eq_getElem hi]
   rw [hb i _ hx]
   exact all_eq_true.mp all_takeWhile _ (getElem_mem hi)
 · intro i hi hlt
   have hx:l[i]? = some l[i]:=getElem?_eq_getElem hlt
   rw [hb i _ hx]
   by_contra hq
   rw [Bool.not_eq_false] at hq
   -- the first element that fails `q` is at or before `i`
   have hk:(l.takeWhile q).length<l.length:=by omega
   have hfail:q l[(l.takeWhile q).length]=false:=by
    have hne:l.dropWhile q≠[]:=by
     intro he
     rw [he,append_nil] at hsplit
     rw [hsplit] at hk
     omega
    have hh:=head_dropWhile_not q hne
    have hg:(l.takeWhile q++l.dropWhile q)[(l.takeWhile q).length]? =
      some ((l.dropWhile q).head hne):=by
     rw [getElem?_append_right (Nat.le_refl _),Nat.sub_self,← head?_eq_getElem?]
     exact head?_eq_some_head hne
    rw [hsplit,getElem?_eq_getElem hk,Option.some.injEq] at hg
    rw [hg]
    exact hh
   rcases Nat.lt_or_eq_of_le hi with hlt' | heq
   · have:=pairwise_iff_getElem.mp hmono _ i hk hlt hlt' hq
     rw [hfail] at this
     exact absurd this (by decide)
   · subst heq
     rw [hfail] at hq
     exact absurd hq (by decide)

def slotOf (es:List Entry) (key:Bytes) : ℕ :=
 (es.takeWhile fun e=>decide (e.key<key)).length

lemma slotOf_le (es:List Entry) (key:Bytes) : slotOf es key≤es.length :=
 (takeWhile_sublist _).length_le

section LeafPage
variable {ps:ℕ} {σ:WriteTxn} {p:Bytes} {es:List Entry}

lemma leaf_entry_key (hmax:ps≤kMaxPageSize) (hs:Slotted ps p kLeaf (es.map (Entry.cell ps))) (hok:∀ e∈es,e.Ok ps) {i:ℕ}
 {e:Entry} (hi:es[i]? = some e) : Node.key p i=e.key := by
 have hk:=(hok e (mem_of_getElem? hi)).key_lt hmax
 have hcell:(es.map (Entry.cell ps))[i]? = some (e.cell ps):=by
  rw [getElem?_map,hi]
  rfl
 rw [Entry.cell] at hcell
 split at hcell
 · exact leaf_key hs hcell hk
 · exact leaf_key hs hcell hk

lemma leaf_count (hs:Slotted ps p kLeaf (es.map (Entry.cell ps))) : Node.count p=es.length := by
 rw [hs.count,length_map]

lemma lowerBound_eq (hmax:ps≤kMaxPageSize) (hs:Slotted ps p kLeaf (es.map (Entry.cell ps))) (hok:∀ e∈es,e.Ok ps)
 (hsort:(es.map fun e=>keyMark e.key).Pairwise (· < ·)) (key:Bytes) : lowerBound p key=slotOf es key := by
 rw [lowerBound,leaf_count hs]
 apply bisect_takeWhile
 · intro i e hi
   rw [leaf_entry_key hmax hs hok hi,Bool.eq_iff_iff,beq_iff_eq,compareBytes_lt_iff,decide_eq_true_eq]
 · rw [pairwise_map] at hsort
   refine hsort.imp ?_
   intro a b hab hb
   rw [decide_eq_true_eq] at hb ⊢
   exact lt_trans ((keyMark_lt_keyMark _ _).mp hab) hb

end LeafPage

section Node
variable {ps:ℕ} {p:Bytes} {cells:List (Bytes × ℕ)}

lemma node_count (hs:Slotted ps p kInterior (cells.map fun c=>buildInteriorCell c.1 c.2)) : Node.count p=cells.length := by
 rw [hs.count,length_map]

lemma node_cell (hmax:ps≤kMaxPageSize) (hs:Slotted ps p kInterior (cells.map fun c=>buildInteriorCell c.1 c.2))
 (hk:∀ c∈cells,c.1.length ≤ maxKeyBytesFor ps) {i:ℕ} {c:Bytes × ℕ} (hi:cells[i]? = some c) : Node.key p i=c.1 := by
 have hcell:(cells.map fun c=>buildInteriorCell c.1 c.2)[i]? =
   some (buildInteriorCell c.1 c.2):=by
  rw [getElem?_map,hi]
  rfl
 have h1:=hk c (mem_of_getElem? hi)
 have h2:=maxKeyBytesFor_lt hmax
 exact interior_key hs hcell (by omega)

lemma node_child (hs:Slotted ps p kInterior (cells.map fun c=>buildInteriorCell c.1 c.2))
 {i:ℕ} {c:Bytes × ℕ} (hi:cells[i]? = some c) (hc:c.2<2^64) : Node.child p i=c.2 := by
 have hcell:(cells.map fun c=>buildInteriorCell c.1 c.2)[i]? =
   some (buildInteriorCell c.1 c.2):=by
  rw [getElem?_map,hi]
  rfl
 exact interior_child hs hcell hc

lemma childIndex_eq (hmax:ps≤kMaxPageSize) (hs:Slotted ps p kInterior (cells.map fun c=>buildInteriorCell c.1 c.2))
 (hk:∀ c∈cells,c.1.length ≤ maxKeyBytesFor ps) (hsort:(cells.map Prod.fst).Pairwise (· < ·)) (key:Bytes) :
 childIndex p key=(cells.takeWhile fun c=>decide (c.1≤key)).length := by
 rw [childIndex,node_count hs]
 apply bisect_takeWhile
 · intro i c hi
   rw [node_cell hmax hs hk hi,Bool.eq_iff_iff,bne_iff_ne,ne_eq,compareBytes_gt_iff,decide_eq_true_eq,not_lt]
 · rw [pairwise_map] at hsort
   refine hsort.imp ?_
   intro a b hab hb
   rw [decide_eq_true_eq] at hb ⊢
   exact le_trans hab.le hb

end Node

lemma kidsSeps_sublist (kids:List (Bytes × Tree)) : (kids.map fun kt=>sepMark kt.1).Sublist (Tree.kidsMarks kids) := by
 induction kids with
 | nil=>exact List.Sublist.slnil
 | cons kt kids ih=>
  obtain ⟨k,t⟩:=kt
  rw [map_cons,Tree.kidsMarks]
  exact (List.Sublist.cons_cons _ ih).trans (sublist_append_right _ _)

lemma kidsSeps_sorted {kids:List (Bytes × Tree)} {ms:List Mark} (h:(Tree.kidsMarks kids++ms).Pairwise (· < ·)) :
 (kids.map Prod.fst).Pairwise (· < ·) := by
 have h1:=((pairwise_append.mp h).1).sublist (kidsSeps_sublist kids)
 rw [pairwise_map] at h1 ⊢
 exact h1.imp fun hab=>(sepMark_lt_sepMark _ _).mp hab

lemma kidsMarks_below {kids:List (Bytes × Tree)} {key:Bytes}
 (h:(Tree.kidsMarks kids).Pairwise (· < ·)) (hk:∀ kt∈kids,kt.1≤key) : ∀ m∈Tree.kidsMarks kids,m<keyMark key := by
 induction kids with
 | nil=>
  intro m hm
  cases hm
 | cons kt kids ih=>
  obtain ⟨k,t⟩:=kt
  rw [Tree.kidsMarks] at h ⊢
  obtain ⟨_,h2,h3⟩:=pairwise_append.mp h
  have hsep:sepMark k<keyMark key:=
   (sepMark_lt_keyMark _ _).mpr (hk (k,t) mem_cons_self)
  intro m hm
  rcases mem_append.mp hm with hm | hm
  · exact lt_trans (h3 m hm _ mem_cons_self) hsep
  · rcases mem_cons.mp hm with rfl | hm
    · exact hsep
    · exact ih (pairwise_cons.mp h2).2 (fun x hx=>hk x (mem_cons_of_mem _ hx)) m hm

lemma kidsLevels_le {kids:List (Bytes × Tree)} {k:Bytes} {t:Tree} (h:(k,t)∈kids) :
 t.levels≤Tree.levels.kidsLevels kids := by
 induction kids with
 | nil=>cases h
 | cons kt kids ih=>
  obtain ⟨k',t'⟩:=kt
  rw [Tree.levels.kidsLevels]
  rcases mem_cons.mp h with h | h
  · obtain ⟨_,rfl⟩:=Prod.mk.inj h
    exact le_max_left _ _
  · exact le_trans (ih h) (le_max_right _ _)

lemma plug_levels_lt (f:Frame) (t:Tree) : t.levels<(f.plug t).levels := by
 cases f with
 | cell p l s rest z=>
  have h:t.levels≤Tree.levels.kidsLevels (l++(s,t)::rest):=
   kidsLevels_le (k:=s) (by simp)
  have h2:=le_max_left (Tree.levels.kidsLevels (l++(s,t)::rest)) z.levels
  simp only [Frame.plug,Tree.levels]
  omega
 | last p l=>
  have h2:=le_max_right (Tree.levels.kidsLevels l) t.levels
  simp only [Frame.plug,Tree.levels]
  omega

/-- Everything left of the hole is below the key, everything right of it above. -/
structure Focus (fs:List Frame) (key:Bytes) : Prop where
 below : ∀ m∈pathMarksBefore fs,m<keyMark key
 above : ∀ m∈pathMarksAfter fs,keyMark key < m

lemma Focus.nil (key:Bytes) : Focus [] key := by
 constructor <;> intro m hm <;> cases hm

lemma focus_concat (fs:List Frame) (f:Frame) (key:Bytes) :
 Focus (fs++[f]) key ↔ Focus fs key ∧ (∀ m∈f.marksBefore,m<keyMark key) ∧ ∀ m∈f.marksAfter,keyMark key < m := by
 have hb:pathMarksBefore (fs++[f])=f.marksBefore++pathMarksBefore fs:=by
  rw [pathMarksBefore_append]
  simp [pathMarksBefore]
 have ha:pathMarksAfter (fs++[f])=pathMarksAfter fs++f.marksAfter:=by
  rw [pathMarksAfter_append]
  simp [pathMarksAfter]
 constructor
 · rintro ⟨h1,h2⟩
   rw [hb] at h1
   rw [ha] at h2
   simp only [mem_append] at h1 h2
   exact ⟨⟨fun m hm=>h1 m (Or.inr hm),fun m hm=>h2 m (Or.inl hm)⟩,fun m hm=>h1 m (Or.inl hm),fun m hm=>h2 m (Or.inr hm)⟩
 · rintro ⟨⟨h1,h2⟩,h3,h4⟩
   refine ⟨?_,?_⟩
   · rw [hb]
     intro m hm
     exact (mem_append.mp hm).elim (h3 m) (h1 m)
   · rw [ha]
     intro m hm
     exact (mem_append.mp hm).elim (h2 m) (h4 m)

lemma node_focus (p:ℕ) (kids:List (Bytes × Tree)) (last:Tree) (key:Bytes)
 (hsort:(Tree.node p kids last).marks.Pairwise (· < ·)) : ∃ (f:Frame) (t:Tree),Tree.node p kids last=f.plug t ∧
  (∀ m∈f.marksBefore,m<keyMark key) ∧ ∀ m∈f.marksAfter,keyMark key < m := by
 have hsplit:=takeWhile_append_dropWhile (p:=fun kt:Bytes × Tree=>decide (kt.1≤key)) (l:=kids)
 generalize hA:kids.takeWhile (fun kt=>decide (kt.1≤key))=A at hsplit
 have hle:∀ kt∈A,kt.1≤key:=by
  intro kt hkt
  rw [← hA] at hkt
  simpa using all_eq_true.mp all_takeWhile _ hkt
 rw [Tree.marks,← hsplit,Tree.kidsMarks_append,append_assoc] at hsort
 have hbelow:=kidsMarks_below (pairwise_append.mp hsort).1 hle
 cases hB:kids.dropWhile (fun kt=>decide (kt.1≤key)) with
 | nil=>
  rw [hB,append_nil] at hsplit
  refine ⟨.last p A,last,?_,hbelow,?_⟩
  · rw [← hsplit]
    rfl
  · intro m hm
    cases hm
 | cons kt rest=>
  obtain ⟨s,t⟩:=kt
  have hs:key<s:=by
   have hne:kids.dropWhile (fun kt=>decide (kt.1≤key))≠[]:=by rw [hB]; simp
   have hh:=head_dropWhile_not (fun kt:Bytes × Tree=>decide (kt.1≤key)) hne
   simp only [hB,head_cons,decide_eq_false_iff_not,not_le] at hh
   exact hh
  rw [hB] at hsplit hsort
  refine ⟨.cell p A s rest last,t,?_,hbelow,?_⟩
  · rw [← hsplit]
    rfl
  · -- everything from the separator on is above it
    rw [Tree.kidsMarks,append_assoc,cons_append] at hsort
    have h2:=(pairwise_append.mp (pairwise_append.mp hsort).2.1).2.1
    obtain ⟨h3,_⟩:=pairwise_cons.mp h2
    have hkey:keyMark key<sepMark s:=(keyMark_lt_sepMark _ _).mpr hs
    intro m hm
    simp only [Frame.marksAfter,cons_append] at hm
    rcases mem_cons.mp hm with rfl | hm
    · exact hkey
    · exact lt_trans hkey (h3 m hm)

lemma focus_exists (key:Bytes) (n:ℕ) (t:Tree) (hn:t.levels≤n) (hsort:t.marks.Pairwise (· < ·)) :
 ∃ (fs:List Frame) (p:ℕ) (es:List Entry),t=plugAll fs (.leaf p es) ∧ Focus fs key := by
 induction n generalizing t with
 | zero=>cases t <;> simp [Tree.levels] at hn
 | succ n ih=>
  cases t with
  | leaf p es=>exact ⟨[],p,es,rfl,Focus.nil key⟩
  | node p kids last=>
   obtain ⟨f,t',hplug,hbelow,habove⟩:=node_focus p kids last key hsort
   have hlev:=plug_levels_lt f t'
   rw [← hplug] at hlev
   rw [hplug,f.plug_marks] at hsort
   obtain ⟨fs,q,es,ht',hf⟩:=ih t' (by omega)
    (pairwise_append.mp (pairwise_append.mp hsort).1).2.1
   refine ⟨fs++[f],q,es,?_,(focus_concat fs f key).mpr ⟨hf,hbelow,habove⟩⟩
   rw [plugAll_append,← ht',hplug]
   rfl

lemma path_lt_levels (fs:List Frame) (p:ℕ) (es:List Entry) : fs.length<(plugAll fs (.leaf p es)).levels := by
 have hgen:∀ (gs:List Frame) (t:Tree),gs.length+t.levels≤(plugAll gs t).levels:=by
  intro gs
  induction gs with
  | nil=>intro t; simp [plugAll]
  | cons g gs ih=>
   intro t
   have h1:=ih (g.plug t)
   have h2:=plug_levels_lt g t
   rw [length_cons,plugAll]
   omega
 have h:=hgen fs (.leaf p es)
 simp only [Tree.levels] at h
 omega

lemma Frame.plug_pages (f:Frame) (t:Tree) : (f.plug t).pages=(f.factsBefore t.page).flatMap Fact.pages++t.pages ++
  f.factsAfter.flatMap Fact.pages := by
 rw [Tree.pages,f.plug_facts,flatMap_append,flatMap_append,Tree.pages]

lemma page_mem_pages (t:Tree) : t.page∈t.pages := by
 cases t with
 | leaf p es=>simp [Tree.pages,Tree.facts,Fact.pages,Tree.page]
 | node p kids last=>simp [Tree.pages,Tree.facts,Fact.pages,Tree.page]

lemma frame_child {ps:ℕ} {σ:WriteTxn} (f:Frame) (hole:ℕ) (hhole:hole<2^64)
 (hf:(Fact.node f.page (f.cells hole) (f.right hole)).Holds ps σ) : BTree.childAt (σ.page f.page) f.left.length=hole := by
 obtain ⟨hs,hr,_⟩:=hf
 rw [BTree.childAt,node_count hs]
 cases f with
 | cell p l s rest z=>
  have hget:(Frame.cells (.cell p l s rest z) hole)[l.length]? = some (s,hole):=by
   rw [Frame.cells,getElem?_append_right (by simp),length_map,Nat.sub_self]
   rfl
  rw [if_pos (by simp [Frame.cells,Frame.left])]
  exact node_child hs hget hhole
 | last p l=>
  rw [if_neg (by simp [Frame.cells,Frame.left])]
  exact hr

lemma Frame.cells_sorted (f:Frame) (t:Tree) (hole:ℕ) (hsort:(f.plug t).marks.Pairwise (· < ·)) :
 ((f.cells hole).map Prod.fst).Pairwise (· < ·) := by
 cases f with
 | cell p l s rest z=>
  have h:((l++(s,t)::rest).map Prod.fst).Pairwise (· < ·):=kidsSeps_sorted hsort
  simpa [Frame.cells,map_map,Function.comp_def] using h
 | last p l=>
  have h:(l.map Prod.fst).Pairwise (· < ·):=kidsSeps_sorted hsort
  simpa [Frame.cells,map_map,Function.comp_def] using h

lemma frame_slot {ps:ℕ} {σ:WriteTxn} (hmax:ps≤kMaxPageSize) (f:Frame) (t:Tree)
 (hole:ℕ) (key:Bytes) (hsort:(f.plug t).marks.Pairwise (· < ·))
 (hf:(Fact.node f.page (f.cells hole) (f.right hole)).Holds ps σ)
 (hbelow:∀ m∈f.marksBefore,m<keyMark key) (habove:∀ m∈f.marksAfter,keyMark key < m) :
 childIndex (σ.page f.page) key=f.left.length := by
 have hleft:∀ kt∈f.left,kt.1≤key:=fun kt hkt=>
  (sepMark_lt_keyMark _ _).mp (hbelow _ ((kidsSeps_sublist f.left).subset
   (mem_map_of_mem (f:=fun kt:Bytes × Tree=>sepMark kt.1) hkt)))
 have hall:∀ c∈f.left.map (fun kt=>(kt.1,kt.2.page)),decide (c.1≤key)=true:=by
  intro c hc
  obtain ⟨kt,hkt,rfl⟩:=mem_map.mp hc
  exact decide_eq_true (hleft kt hkt)
 rw [childIndex_eq hmax hf.1 hf.2.2 (f.cells_sorted t hole hsort)]
 cases f with
 | cell p l s rest z=>
  have hs:key<s:=(keyMark_lt_sepMark _ _).mp (habove _ (by simp [Frame.marksAfter]))
  rw [Frame.left] at hall
  rw [Frame.cells,takeWhile_append_of_pos hall,takeWhile_cons_of_neg (by simpa using hs),append_nil,length_map]
  rfl
 | last p l=>
  rw [Frame.left] at hall
  rw [Frame.cells,takeWhile_eq_self_iff.mpr hall,length_map]
  rfl

lemma plug_parts {ps:ℕ} {σ:WriteTxn} {own:List ℕ} {f:Frame} {t:Tree} (hfacts:∀ x∈(f.plug t).facts,x.Holds ps σ)
 (hown:∀ q∈(f.plug t).pages,q∈own) (hsort:(f.plug t).marks.Pairwise (· < ·)) :
 (∀ x∈t.facts,x.Holds ps σ) ∧ (∀ q∈t.pages,q∈own) ∧ t.marks.Pairwise (· < ·) := by
 rw [f.plug_facts] at hfacts
 rw [f.plug_pages] at hown
 rw [f.plug_marks] at hsort
 exact ⟨fun x hx=>hfacts x (by simp [hx]),fun q hq=>hown q (by simp [hq]),
  (pairwise_append.mp (pairwise_append.mp hsort).1).2.1⟩

section Descent
variable {ps:ℕ} {σ:WriteTxn} {own free:List ℕ} (hP:Pages ps σ own free) (key:Bytes)
include hP

lemma findLeafLoop_step (n:ℕ) (f:Frame) (t:Tree) (path:List PathEntry)
 (hfacts:∀ x∈(f.plug t).facts,x.Holds ps σ) (hown:∀ q∈(f.plug t).pages,q∈own)
 (hsort:(f.plug t).marks.Pairwise (· < ·)) (hbelow:∀ m∈f.marksBefore,m<keyMark key)
 (habove:∀ m∈f.marksAfter,keyMark key < m) : BTree.findLeafLoop key (n+1) (f.plug t).page path σ =
  BTree.findLeafLoop key n t.page (path++[f.entry]) σ := by
 have hread:=hP.readPage_run (Or.inl (hown _ (page_mem_pages (f.plug t))))
 have hchildown:t.page∈own:=hown _ (by rw [f.plug_pages]; simp [page_mem_pages])
 rw [f.plug_facts] at hfacts
 have hfact:(Fact.node f.page (f.cells t.page) (f.right t.page)).Holds ps σ:=
  hfacts _ (by simp [Frame.factsBefore])
 have hchild:=frame_child f t.page (hP.own_lt_u64 hchildown) hfact
 have hslot:=frame_slot hP.size_max f t t.page key hsort hfact hbelow habove
 have hinter:Node.type (σ.page f.page)=kInterior:=hfact.1.type
 have hnleaf:Node.isLeaf (σ.page f.page)=false:=by rw [hfact.1.isLeaf_eq]; rfl
 have hpos:=hP.own_pos hchildown
 rw [f.plug_page] at hread ⊢
 rw [BTree.findLeafLoop,Act.bind_of_ok _ hread,if_neg (by rw [hnleaf]; decide),if_neg (by rw [hinter]; decide)]
 simp only [hslot]
 rw [BTree.childAt] at hchild
 rw [hchild,if_neg (by omega)]
 rfl

lemma findLeafLoop_run (n:ℕ) (fs:List Frame) (p:ℕ) (es:List Entry) (path:List PathEntry) (hn:fs.length<n)
 (hfacts:∀ x∈(plugAll fs (.leaf p es)).facts,x.Holds ps σ) (hown:∀ q∈(plugAll fs (.leaf p es)).pages,q∈own)
 (hsort:(plugAll fs (.leaf p es)).marks.Pairwise (· < ·)) (hf:Focus fs key) :
 BTree.findLeafLoop key n (plugAll fs (.leaf p es)).page path σ =
  (.ok (path++pathEntries fs++[⟨p,slotOf es key⟩],σ.page p),σ) := by
 induction n generalizing fs path with
 | zero=>omega
 | succ n ih=>
  rcases fs.eq_nil_or_concat with rfl | ⟨gs,f,rfl⟩
  · have hread:=hP.readPage_run (Or.inl (hown p (page_mem_pages (.leaf p es))))
    obtain ⟨hs,he⟩:=hfacts (.leaf p es) (by simp [plugAll,Tree.facts])
    have hleaf:Node.isLeaf (σ.page p)=true:=by rw [hs.isLeaf_eq]; rfl
    have hlb:=lowerBound_eq hP.size_max hs (fun e hm=>(he e hm).1) hsort key
    rw [BTree.findLeafLoop,plugAll,Tree.page,Act.bind_of_ok _ hread,if_pos hleaf,hlb]
    simp [pathEntries]
  · rw [concat_eq_append] at hn hfacts hown hsort hf ⊢
    obtain ⟨hf1,hf2,hf3⟩:=(focus_concat gs f key).mp hf
    have hplug:plugAll (gs++[f]) (.leaf p es)=f.plug (plugAll gs (.leaf p es)):=
     plugAll_append _ _ _
    rw [hplug] at hfacts hown hsort ⊢
    obtain ⟨h1,h2,h3⟩:=plug_parts hfacts hown hsort
    rw [length_append,length_singleton] at hn
    rw [findLeafLoop_step hP key n f _ path hfacts hown hsort hf2 hf3,ih gs (path++[f.entry]) (by omega) h1 h2 h3 hf1]
    simp [pathEntries]

lemma findLeafLoop_too_deep (n:ℕ) (fs:List Frame) (p:ℕ) (es:List Entry) (path:List PathEntry) (hn:n≤fs.length)
 (hfacts:∀ x∈(plugAll fs (.leaf p es)).facts,x.Holds ps σ) (hown:∀ q∈(plugAll fs (.leaf p es)).pages,q∈own)
 (hsort:(plugAll fs (.leaf p es)).marks.Pairwise (· < ·)) (hf:Focus fs key) :
 BTree.findLeafLoop key n (plugAll fs (.leaf p es)).page path σ = (.error (corrupt "b-tree too deep"),σ) := by
 induction n generalizing fs path with
 | zero=>rfl
 | succ n ih=>
  rcases fs.eq_nil_or_concat with rfl | ⟨gs,f,rfl⟩
  · simp at hn
  · rw [concat_eq_append] at hn hfacts hown hsort hf ⊢
    obtain ⟨hf1,hf2,hf3⟩:=(focus_concat gs f key).mp hf
    have hplug:plugAll (gs++[f]) (.leaf p es)=f.plug (plugAll gs (.leaf p es)):=
     plugAll_append _ _ _
    rw [hplug] at hfacts hown hsort ⊢
    obtain ⟨h1,h2,h3⟩:=plug_parts hfacts hown hsort
    rw [length_append,length_singleton] at hn
    rw [findLeafLoop_step hP key n f _ path hfacts hown hsort hf2 hf3]
    exact ih gs (path++[f.entry]) (by omega) h1 h2 h3 hf1

end Descent

end Archivum.TreeShape
