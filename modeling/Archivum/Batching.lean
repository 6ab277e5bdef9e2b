import Mathlib

set_option autoImplicit false

/-!
# Grouping by key and cutting into batches

An ordered map of lists, as `map[key].push_back(value)` in a loop builds it, and
a list cut into pieces of a given size.
-/
namespace Archivum.Batching
open List

variable {κ β:Type}

section Groups
variable [LinearOrder κ]

/-- `map[k].push_back(v)` on the entries of a map in key order. -/
def push (k:κ) (v:β) : List (κ × List β) → List (κ × List β)
 | []=>[(k,[v])]
 | e::rest=>
  if k<e.1 then (k,[v])::e::rest
  else if k=e.1 then (e.1,e.2++[v])::rest
  else e::push k v rest

end Groups

def carried (m:List (κ × List β)) : List (κ × β) := m.flatMap fun e=>e.2.map fun v=>(e.1,v)

lemma carried_cons (e:κ × List β) (m:List (κ × List β)) : carried (e::m)=(e.2.map fun v=>(e.1,v))++carried m := rfl

lemma carried_push [LinearOrder κ] (k:κ) (v:β) (m:List (κ × List β)) : (carried (push k v m)).Perm ((k,v)::carried m) := by
 induction m with
 | nil=>exact List.Perm.refl _
 | cons e m ih=>
  unfold push
  by_cases hlt:k<e.1
  · rw [if_pos hlt]
    exact List.Perm.refl _
  · rw [if_neg hlt]
    by_cases heq:k=e.1
    · rw [if_pos heq,carried_cons,carried_cons,map_append,append_assoc,heq]
      exact perm_middle
    · rw [if_neg heq,carried_cons,carried_cons]
      exact (ih.append_left _).trans perm_middle

/-- The loop `for (i = 0; i < size; i += n)` over the pieces; `fuel` bounds its rounds by the length. -/
def cutLoop (n:ℕ) : ℕ → List β → List (List β)
 | 0,_=>[]
 | _+1,[]=>[]
 | fuel+1,v::l=>(v::l).take n::cutLoop n fuel ((v::l).drop n)

def cut (n:ℕ) (l:List β) : List (List β) := cutLoop n l.length l

section Pieces
variable {n:ℕ} (hn:1 ≤ n)
include hn

lemma flatten_cutLoop {fuel:ℕ} {l:List β} (hfuel:l.length≤fuel) : (cutLoop n fuel l).flatten=l := by
 induction fuel generalizing l with
 | zero=>
  rw [length_eq_zero_iff.mp (Nat.le_zero.mp hfuel)]
  rfl
 | succ fuel ih=>
  cases l with
  | nil=>rfl
  | cons v l=>
   have hshort:((v::l).drop n).length≤fuel:=by
    rw [length_drop]
    omega
   rw [cutLoop,flatten_cons,ih hshort,take_append_drop]

lemma flatten_cut (l:List β) : (cut n l).flatten=l := flatten_cutLoop hn le_rfl

lemma mem_cutLoop {fuel:ℕ} {l piece:List β} (h:piece∈cutLoop n fuel l) : piece≠[] ∧ piece.length≤n := by
 induction fuel generalizing l with
 | zero=>cases h
 | succ fuel ih=>
  cases l with
  | nil=>cases h
  | cons v l=>
   rcases mem_cons.mp h with rfl | h
   · obtain ⟨m,rfl⟩:∃ m,n=m+1:=⟨n-1,by omega⟩
     exact ⟨cons_ne_nil _ _,length_take_le _ _⟩
   · exact ih h

lemma mem_cut {l piece:List β} (h:piece∈cut n l) : piece≠[] ∧ piece.length≤n := mem_cutLoop hn h

end Pieces

end Archivum.Batching
