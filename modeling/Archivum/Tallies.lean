import Mathlib

set_option autoImplicit false

/-!
# Totals per key

An ordered map of sums, one per key that occurs, as `map[key] += value` in a
loop builds it.
-/
namespace Archivum.Tallies
open List

variable {κ M α:Type} [LinearOrder κ] [AddCommMonoid M]

/-- `map[k] += v` on the entries of a map in key order. -/
def add (k:κ) (v:M) : List (κ × M) → List (κ × M)
 | []=>[(k,v)]
 | e::rest=>
  if k<e.1 then (k,v)::e::rest
  else if k=e.1 then (k,e.2+v)::rest
  else e::add k v rest

/-- The sums of `g` over the elements with the same `f`. -/
def tally (f:α → κ) (g:α → M) (l:List α) : List (κ × M) :=
 l.foldl (fun m a=>add (f a) (g a) m) []

def total (f:α → κ) (g:α → M) (l:List α) (k:κ) : M := ((l.filter fun a=>f a=k).map g).sum

def KeyOrder (m:List (κ × M)) : Prop := m.Pairwise fun a b=>a.1<b.1

def valueAt (m:List (κ × M)) (k:κ) : M := ((m.filter fun e=>e.1=k).map Prod.snd).sum

omit [AddCommMonoid M] in
lemma KeyOrder.not_mem {e:κ × M} {m:List (κ × M)} (h:KeyOrder (e::m)) {k:κ} (hk:k≤e.1) : ∀ x∈m,x.1≠k :=
 fun x hx=>(hk.trans_lt ((pairwise_cons.mp h).1 x hx)).ne'

lemma mem_keys_add (k:κ) (v:M) (m:List (κ × M)) (j:κ) : j∈(add k v m).map Prod.fst ↔ j=k ∨ j∈m.map Prod.fst := by
 induction m with
 | nil=>simp [add]
 | cons e m ih=>
  rw [add]
  by_cases hlt:k<e.1
  · rw [if_pos hlt]
    simp
  · rw [if_neg hlt]
    by_cases heq:k=e.1
    · rw [if_pos heq]
      simp [heq]
    · rw [if_neg heq,map_cons,mem_cons,ih,map_cons,mem_cons]
      tauto

lemma KeyOrder.add {m:List (κ × M)} (h:KeyOrder m) (k:κ) (v:M) : KeyOrder (add k v m) := by
 induction m with
 | nil=>exact pairwise_singleton _ _
 | cons e m ih=>
  have he:=pairwise_cons.mp h
  unfold Tallies.add
  by_cases hlt:k<e.1
  · rw [if_pos hlt]
    refine pairwise_cons.mpr ⟨fun x hx=>?_,h⟩
    rcases mem_cons.mp hx with rfl | hx
    · exact hlt
    · exact hlt.trans (he.1 x hx)
  · rw [if_neg hlt]
    by_cases heq:k=e.1
    · rw [if_pos heq]
      exact pairwise_cons.mpr ⟨fun x hx=>heq ▸ he.1 x hx,he.2⟩
    · rw [if_neg heq]
      refine pairwise_cons.mpr ⟨fun x hx=>?_,ih he.2⟩
      have hkey:x.1=k ∨ x.1∈m.map Prod.fst:=(mem_keys_add k v m x.1).mp (mem_map_of_mem hx)
      rcases hkey with hxk | hxm
      · rw [hxk]
        exact lt_of_le_of_ne (not_lt.mp hlt) (Ne.symm heq)
      · obtain ⟨y,hy,hyx⟩:=mem_map.mp hxm
        exact hyx ▸ he.1 y hy

lemma valueAt_add {m:List (κ × M)} (k:κ) (v:M) (j:κ) :
 valueAt (add k v m) j=valueAt m j+if j=k then v else 0 := by
 induction m with
 | nil=>
  by_cases hj:j=k
  · simp [add,valueAt,hj]
  · simp [add,valueAt,hj,Ne.symm hj]
 | cons e m ih=>
  rw [add]
  unfold valueAt at ih ⊢
  by_cases hlt:k<e.1
  · rw [if_pos hlt]
    by_cases hj:j=k
    · subst hj
      simp [add_comm]
    · simp [hj,Ne.symm hj]
  · rw [if_neg hlt]
    by_cases heq:k=e.1
    · rw [if_pos heq]
      by_cases hj:j=k
      · subst hj
        simp [← heq,add_right_comm]
      · have hje:e.1≠j:=fun h=>hj (heq.trans h).symm
        simp [hj,Ne.symm hj,hje]
    · rw [if_neg heq]
      by_cases hje:e.1=j
      · rw [filter_cons_of_pos (by simpa using hje),filter_cons_of_pos (by simpa using hje),
         map_cons,map_cons,sum_cons,sum_cons,ih,add_assoc]
      · rw [filter_cons_of_neg (by simpa using hje),filter_cons_of_neg (by simpa using hje),ih]

lemma foldl_add (f:α → κ) (g:α → M) (l:List α) (m:List (κ × M)) (hm:KeyOrder m) :
 KeyOrder (l.foldl (fun m a=>add (f a) (g a) m) m) ∧
 (∀ k,k∈(l.foldl (fun m a=>add (f a) (g a) m) m).map Prod.fst ↔ k∈l.map f ∨ k∈m.map Prod.fst) ∧
 ∀ k,valueAt (l.foldl (fun m a=>add (f a) (g a) m) m) k=valueAt m k+total f g l k := by
 induction l generalizing m with
 | nil=>exact ⟨hm,fun k=>by simp,fun k=>by simp [total]⟩
 | cons a l ih=>
  obtain ⟨hord,hkeys,hval⟩:=ih (add (f a) (g a) m) (hm.add _ _)
  refine ⟨hord,fun k=>?_,fun k=>?_⟩
  · rw [foldl_cons,hkeys,mem_keys_add,map_cons,mem_cons]
    tauto
  · rw [foldl_cons,hval,valueAt_add,add_assoc]
    congr 1
    by_cases hk:f a=k
    · simp [total,hk]
    · simp [total,hk,Ne.symm hk]

section Tally
variable (f:α → κ) (g:α → M) (l:List α)

lemma tally_keyOrder : KeyOrder (tally f g l) := (foldl_add f g l [] List.Pairwise.nil).1

lemma mem_keys_tally (k:κ) : k∈(tally f g l).map Prod.fst ↔ k∈l.map f := by
 simpa [tally] using (foldl_add f g l [] List.Pairwise.nil).2.1 k

lemma valueAt_tally (k:κ) : valueAt (tally f g l) k=total f g l k := by
 simpa [tally,valueAt] using (foldl_add f g l [] List.Pairwise.nil).2.2 k

end Tally

lemma KeyOrder.valueAt_of_mem {m:List (κ × M)} (h:KeyOrder m) {e:κ × M} (he:e∈m) : valueAt m e.1=e.2 := by
 induction m with
 | nil=>cases he
 | cons x m ih=>
  have hx:=pairwise_cons.mp h
  have hnone:∀ {k:κ},k≤x.1 → m.filter (fun y=>y.1=k)=[]:=fun hk=>
   filter_eq_nil_iff.mpr fun y hy=>by simpa using h.not_mem hk y hy
  unfold valueAt at ih ⊢
  rcases mem_cons.mp he with rfl | he'
  · rw [filter_cons_of_pos (by simp),hnone le_rfl]
    simp
  · rw [filter_cons_of_neg (by simpa using (hx.1 e he').ne)]
    exact ih hx.2 he'

lemma mem_tally (f:α → κ) (g:α → M) (l:List α) (k:κ) (v:M) : (k,v)∈tally f g l ↔ k∈l.map f ∧ v=total f g l k := by
 constructor
 · intro h
   have hval:=(tally_keyOrder f g l).valueAt_of_mem h
   rw [valueAt_tally] at hval
   exact ⟨(mem_keys_tally f g l k).mp (mem_map_of_mem h),hval.symm⟩
 · rintro ⟨hk,rfl⟩
   obtain ⟨e,he,rfl⟩:=mem_map.mp ((mem_keys_tally f g l k).mpr hk)
   have hval:=(tally_keyOrder f g l).valueAt_of_mem he
   rw [valueAt_tally] at hval
   rw [hval]
   exact he

lemma sum_tally {N:Type} [AddCommMonoid N] (f:α → κ) (g:α → M) (l:List α) (h:κ × M → N) :
 ((tally f g l).map h).sum = ∑ k∈(l.map f).toFinset,h (k,total f g l k) := by
 have hnd:((tally f g l).map Prod.fst).Nodup:=
  pairwise_map.mpr ((tally_keyOrder f g l).imp fun hab=>hab.ne)
 have hkeys:(l.map f).toFinset=((tally f g l).map Prod.fst).toFinset:=by
  ext k
  rw [mem_toFinset,mem_toFinset,mem_keys_tally]
 rw [hkeys,sum_toFinset _ hnd,map_map]
 congr 1
 refine map_congr_left fun e he=>?_
 rw [Function.comp_apply,← valueAt_tally f g l,(tally_keyOrder f g l).valueAt_of_mem he]

lemma total_perm (f:α → κ) (g:α → M) {l l':List α} (h:l.Perm l') (k:κ) :
 total f g l k=total f g l' k := ((h.filter _).map g).sum_eq

lemma total_append_of_not_mem (f:α → κ) (g:α → M) (l:List α) {more:List α} {k:κ} (h:k ∉ more.map f) :
 total f g (l++more) k=total f g l k := by
 have hnone:more.filter (fun a=>f a=k)=[]:=filter_eq_nil_iff.mpr fun a ha hk=>
  h (mem_map.mpr ⟨a,ha,of_decide_eq_true hk⟩)
 rw [total,filter_append,hnone,append_nil,total]

lemma tally_map {β:Type} (f:β → κ) (g:β → M) (h:α → β) (l:List α) : tally f g (l.map h)=tally (f ∘ h) (g ∘ h) l := foldl_map

lemma total_map {β:Type} (f:β → κ) (g:β → M) (h:α → β) (l:List α) (k:κ) :
 total f g (l.map h) k=total (f ∘ h) (g ∘ h) l k := by
 rw [total,filter_map,map_map]
 rfl

lemma sum_tally_le {N:Type} [AddCommMonoid N] [PartialOrder N] [IsOrderedAddMonoid N] (f:α → κ) (g:α → M)
 {l l' more:List α} (hperm:l'.Perm (l++more)) {h:κ × M → N} (hnonneg:∀ e,0≤h e)
 (hzero:∀ a∈more,h (f a,total f g l' (f a))=0) : ((tally f g l').map h).sum≤((tally f g l).map h).sum := by
 rw [sum_tally,sum_tally]
 have htouched:∀ k∈(more.map f).toFinset,h (k,total f g l' k)=0:=by
  intro k hk
  obtain ⟨a,ha,rfl⟩:=mem_map.mp (mem_toFinset.mp hk)
  exact hzero a ha
 have huntouched:∀ k∈(l'.map f).toFinset \ (more.map f).toFinset,k∈(l.map f).toFinset ∧ total f g l' k=total f g l k:=by
  intro k hk
  rw [Finset.mem_sdiff,mem_toFinset,mem_toFinset] at hk
  rw [mem_toFinset,total_perm f g hperm,total_append_of_not_mem f g l hk.2]
  have hmem:k∈(l++more).map f:=(hperm.map f).mem_iff.mp hk.1
  rw [map_append,mem_append] at hmem
  exact ⟨hmem.resolve_right hk.2,rfl⟩
 calc ∑ k∈(l'.map f).toFinset,h (k,total f g l' k)
   = ∑ k∈(l'.map f).toFinset \ (more.map f).toFinset,h (k,total f g l' k):=by
       refine (Finset.sum_subset Finset.sdiff_subset fun k hk hnot=>htouched k ?_).symm
       by_contra hmore
       exact hnot (Finset.mem_sdiff.mpr ⟨hk,hmore⟩)
  _ = ∑ k∈(l'.map f).toFinset \ (more.map f).toFinset,h (k,total f g l k):=
    Finset.sum_congr rfl fun k hk=>by rw [(huntouched k hk).2]
  _≤∑ k∈(l.map f).toFinset,h (k,total f g l k):=
    Finset.sum_le_sum_of_subset_of_nonneg (fun k hk=>(huntouched k hk).1) fun k _ _=>hnonneg _

end Archivum.Tallies
