import Mathlib

set_option autoImplicit false

/-!
# Overlaying lists of writes

A list of writes `(key, value)` laid over a function, later writes over earlier
ones. A key holds its last write, or what it held before; so two functions that
differ only at written keys agree after the same writes.
-/
namespace Archivum.Overlays
open List

variable {K V:Type} [DecidableEq K]

def overlay (ws:List (K × V)) (s:K → V) : K → V :=
 ws.foldl (fun s w=>Function.update s w.1 w.2) s

@[simp] lemma overlay_nil (s:K → V) : overlay [] s=s := rfl

lemma overlay_cons (w:K × V) (ws:List (K × V)) (s:K → V) : overlay (w::ws) s=overlay ws (Function.update s w.1 w.2) := rfl

lemma overlay_append (ws vs:List (K × V)) (s:K → V) : overlay (ws++vs) s=overlay vs (overlay ws s) := by
 rw [overlay,foldl_append]
 rfl

lemma overlay_other (ws:List (K × V)) (s:K → V) (k:K) (h:k ∉ ws.map Prod.fst) : overlay ws s k=s k := by
 induction ws generalizing s with
 | nil=>rfl
 | cons w ws ih=>
  rw [map_cons,mem_cons,not_or] at h
  rw [overlay_cons,ih _ h.2,Function.update_of_ne h.1]

lemma overlay_congr (ws:List (K × V)) (s u:K → V) (k:K) (h:k∈ws.map Prod.fst ∨ s k=u k) : overlay ws s k=overlay ws u k := by
 induction ws generalizing s u with
 | nil=>simpa using h
 | cons w ws ih=>
  rw [overlay_cons,overlay_cons]
  apply ih
  rw [map_cons,mem_cons] at h
  by_cases hk:k=w.1
  · exact Or.inr (by rw [hk,Function.update_self,Function.update_self])
  · rcases h with (h | h) | h
    · exact absurd h hk
    · exact Or.inl h
    · exact Or.inr (by rw [Function.update_of_ne hk,Function.update_of_ne hk,h])

lemma overlay_mem (ws:List (K × V)) (s:K → V) (k:K) (h:k∈ws.map Prod.fst) : ∃ w∈ws,w.1=k ∧ overlay ws s k=w.2 := by
 induction ws generalizing s with
 | nil=>cases h
 | cons w ws ih=>
  rw [overlay_cons]
  by_cases hlater:k∈ws.map Prod.fst
  · obtain ⟨v,hv,hk,hval⟩:=ih (Function.update s w.1 w.2) hlater
    exact ⟨v,mem_cons_of_mem _ hv,hk,hval⟩
  · rw [map_cons,mem_cons] at h
    rcases h with rfl | h
    · refine ⟨w,mem_cons_self,rfl,?_⟩
      rw [overlay_other _ _ _ hlater,Function.update_self]
    · exact absurd h hlater

lemma overlay_last (ws:List (K × V)) (s:K → V) (i:ℕ) {w:K × V} (hi:ws[i]? = some w)
 (hlast:∀ j,i<j → (ws[j]?).map Prod.fst≠some w.1) : overlay ws s w.1=w.2 := by
 obtain ⟨hlt,hw⟩:=List.getElem?_eq_some_iff.mp hi
 have hsplit:ws=ws.take i++w::ws.drop (i+1):=by
  conv_lhs=>rw [← take_append_drop i ws,drop_eq_getElem_cons hlt,hw]
 rw [hsplit,overlay_append,overlay_cons,overlay_other,Function.update_self]
 intro hmem
 obtain ⟨v,hv,hk⟩:=mem_map.mp hmem
 obtain ⟨j,hj⟩:=mem_iff_getElem?.mp hv
 rw [getElem?_drop] at hj
 refine hlast (i+1+j) (by omega) ?_
 rw [hj,Option.map_some,hk]

end Archivum.Overlays
