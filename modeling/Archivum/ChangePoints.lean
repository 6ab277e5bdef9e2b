import Mathlib

set_option autoImplicit false

/-!
# Where a function of time changes

A function on the integers is sampled at a list of times, and a time is kept if
the value there differs from the value before it in the list. If the function
does not change between the times, the times that are kept are exactly those at
which it differs from the moment before.
-/
namespace Archivum.ChangePoints
open List

section Samples
variable {β:Type} (f:ℤ → β) (D:β → β → Prop) [DecidableRel D]

/-- The times whose value differs from that of the time before, `a` being the first. -/
def changes : ℤ → List ℤ → List (ℤ × β)
 | _,[]=>[]
 | a,t::ts=>(if D (f t) (f a) then [(t,f t)] else [])++changes t ts

/-- The values are the same from `a` on except at the listed times. -/
def StillOff (ts:List ℤ) (a b:ℤ) : Prop := ∀ x,a<x → x ≤ b → x ∉ ts → f x=f (x-1)

variable {f D}

lemma eq_of_still {a b:ℤ} (hab:a≤b) (h:∀ x,a<x → x≤b → f x=f (x-1)) : f b=f a := by
 obtain ⟨n,rfl⟩:=Int.le.dest hab
 induction n with
 | zero=>rw [Nat.cast_zero,add_zero]
 | succ n ih=>
  have hlast:=h (a+(n+1:ℕ)) (by omega) (le_refl _)
  rw [hlast,show a+((n+1:ℕ):ℤ)-1=a+(n:ℤ) by omega]
  exact ih (by omega) fun x hx hx'=>h x hx (by omega)

lemma mem_changes {a:ℤ} {ts:List ℤ} (hirr:∀ v,¬D v v) (hsorted:ts.Pairwise (·≤·)) (hfrom:∀ t∈ts,a≤t)
 {b:ℤ} (hstill:StillOff f ts a b) (hto:∀ t∈ts,t≤b) (t:ℤ) (v:β) :
 (t,v)∈changes f D a ts ↔ t∈ts ∧ a<t ∧ D (f t) (f (t-1)) ∧ v=f t := by
 induction ts generalizing a with
 | nil=>simp [changes]
 | cons s ts ih=>
  obtain ⟨hfirst,hrest⟩:=pairwise_cons.mp hsorted
  have hs:=hfrom s mem_cons_self
  have hsb:=hto s mem_cons_self
  have hstill':StillOff f ts s b:=by
   intro x hx hxb hmem
   refine hstill x (by omega) hxb fun hmem'=>?_
   rcases mem_cons.mp hmem' with rfl | hmem'
   · omega
   · exact hmem hmem'
  have htail:=ih hrest hfirst hstill' fun x hx=>hto x (mem_cons_of_mem _ hx)
  -- nothing happens between the two times
  have hquiet:∀ x,a≤x → x<s → f x=f a:=by
   intro x hx hxs
   refine eq_of_still hx fun y hy hyx=>hstill y hy (by omega) fun hmem=>?_
   rcases mem_cons.mp hmem with rfl | hmem
   · omega
   · have:=hfirst y hmem
     omega
  rw [changes,mem_append,htail]
  constructor
  · rintro (hhead | ⟨hmem,hst,hD,rfl⟩)
    · split_ifs at hhead with hD
      · obtain ⟨rfl,rfl⟩:=Prod.mk.inj (mem_singleton.mp hhead)
        have hne:a≠t:=by
         rintro rfl
         exact hirr _ hD
        rw [← hquiet (t-1) (by omega) (by omega)] at hD
        exact ⟨mem_cons_self,by omega,hD,rfl⟩
      · cases hhead
    · exact ⟨mem_cons_of_mem _ hmem,by omega,hD,rfl⟩
  · rintro ⟨hmem,hat,hD,rfl⟩
    by_cases hst:s<t
    · rcases mem_cons.mp hmem with rfl | hmem
      · omega
      · exact .inr ⟨hmem,hst,hD,rfl⟩
    · obtain rfl:t=s:=by
       rcases mem_cons.mp hmem with h | hmem
       · exact h
       · have:=hfirst t hmem
         omega
      rw [hquiet (t-1) (by omega) (by omega)] at hD
      rw [if_pos hD]
      exact .inl (mem_singleton_self _)

lemma changes_sorted {a:ℤ} {ts:List ℤ} (hirr:∀ v,¬D v v) (hsorted:ts.Pairwise (·≤·)) (hfrom:∀ t∈ts,a≤t) :
 (changes f D a ts).Pairwise (fun p q=>p.1<q.1) ∧ ∀ p∈changes f D a ts,a<p.1 := by
 induction ts generalizing a with
 | nil=>exact ⟨List.Pairwise.nil,fun p hp=>nomatch hp⟩
 | cons s ts ih=>
  obtain ⟨hfirst,hrest⟩:=pairwise_cons.mp hsorted
  obtain ⟨hpair,hafter⟩:=ih hrest hfirst
  have hs:=hfrom s mem_cons_self
  have hhead:∀ p∈(if D (f s) (f a) then [(s,f s)] else []),a<p.1 ∧ p.1=s:=by
   intro p hp
   split_ifs at hp with hD
   · obtain rfl:=mem_singleton.mp hp
     refine ⟨lt_of_le_of_ne hs ?_,rfl⟩
     rintro rfl
     exact hirr _ hD
   · cases hp
  rw [changes]
  constructor
  · rw [pairwise_append]
    refine ⟨?_,hpair,fun p hp q hq=>?_⟩
    · split_ifs
      · exact pairwise_singleton _ _
      · exact List.Pairwise.nil
    · rw [(hhead p hp).2]
      exact hafter q hq
  · intro p hp
    rcases mem_append.mp hp with hp | hp
    · exact (hhead p hp).1
    · exact lt_of_le_of_lt hs (hafter p hp)

end Samples

end Archivum.ChangePoints
