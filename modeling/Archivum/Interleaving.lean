import Archivum.ActionRules

set_option autoImplicit false

/-!
# Parties that share a state

Each party has a local state; a turn of one party reads and changes its own and
the shared one. A schedule is the list of whose turn it is, with what that party
sees of its environment.
-/
namespace Archivum.Interleaving
open StatefulActions

variable {ι σ χ ℓ:Type} [DecidableEq ι] {step:χ → σ → ℓ → σ × ℓ}

def turn (step:χ → σ → ℓ → σ × ℓ) (x:ι × χ) (s:σ × (ι → ℓ)) : σ × (ι → ℓ) :=
 ((step x.2 s.1 (s.2 x.1)).1,Function.update s.2 x.1 (step x.2 s.1 (s.2 x.1)).2)

lemma turn_fst (x:ι × χ) (s:σ × (ι → ℓ)) : (turn step x s).1=(step x.2 s.1 (s.2 x.1)).1 := rfl

lemma turn_self (x:ι × χ) (s:σ × (ι → ℓ)) : (turn step x s).2 x.1=(step x.2 s.1 (s.2 x.1)).2 :=
 Function.update_self ..

lemma turn_other {x:ι × χ} {i:ι} (h:i≠x.1) (s:σ × (ι → ℓ)) : (turn step x s).2 i=s.2 i :=
 Function.update_of_ne h ..

/-- What the mover keeps for itself and leaves standing for every other party holds in any schedule. -/
theorem after_keeps {I:σ → Prop} {J:σ → ℓ → Prop}
 (hmove:∀ x s l,I s → J s l → I (step x s l).1 ∧ J (step x s l).1 (step x s l).2)
 (hother:∀ x s l l',I s → J s l → J s l' → J (step x s l).1 l') (xs:List (ι × χ)) {s:σ × (ι → ℓ)}
 (h:I s.1 ∧ ∀ i,J s.1 (s.2 i)) : I (after (turn step) xs s).1 ∧
  ∀ i,J (after (turn step) xs s).1 ((after (turn step) xs s).2 i) := by
 refine after_preserves (I:=fun s : σ × (ι → ℓ)=>I s.1 ∧ ∀ i,J s.1 (s.2 i)) (fun x s hs=>?_) xs h
 have hmoved:=hmove x.2 s.1 (s.2 x.1) hs.1 (hs.2 x.1)
 refine ⟨hmoved.1,fun i=>?_⟩
 by_cases hi:i=x.1
 · subst hi
   rw [turn_self]
   exact hmoved.2
 · rw [turn_other hi]
   exact hother x.2 s.1 _ _ hs.1 (hs.2 x.1) (hs.2 i)

/-- How a transaction goes: to its end, refused, or committed with its answer lost. -/
inductive Fault (ε:Type)
 | none
 | refused (e:ε)
 | cut (e:ε)

def Fault.Refuses {ε:Type} (f:Fault ε) : Prop := ∃ e,f=.refused e

/-- The body of a transaction drops it with an error, or commits a state and then answers. -/
def transaction {ε α:Type} (f:Fault ε) (body:σ → Except ε (σ × Except ε α)) : Act ε σ α := fun s=>
 match f,body s with
 | .refused e,_=>(.error e,s)
 | _,.error e=>(.error e,s)
 | .none,.ok (s',answer)=>(answer,s')
 | .cut e,.ok (s',_)=>(.error e,s')

lemma transaction_cases {ε α:Type} (f:Fault ε) (body:σ → Except ε (σ × Except ε α)) (s:σ) :
 (∃ e,transaction f body s=(.error e,s) ∧ (f.Refuses ∨ body s=.error e)) ∨ ∃ s' answer,¬f.Refuses ∧ body s=.ok (s',answer) ∧
   (transaction f body s=(answer,s') ∨ ∃ e,transaction f body s=(.error e,s')) := by
 unfold transaction Fault.Refuses
 cases hbody:body s with
 | error e=>cases f <;> exact .inl ⟨_,rfl,by simp⟩
 | ok p=>
  cases f with
  | refused e=>exact .inl ⟨e,rfl,.inl ⟨e,rfl⟩⟩
  | none=>exact .inr ⟨p.1,p.2,by simp,rfl,.inl rfl⟩
  | cut e=>exact .inr ⟨p.1,p.2,by simp,rfl,.inr ⟨e,rfl⟩⟩

/-- The shared mark is taken only where it is free, and only its holder clears it. -/
structure Guards (marked:σ → Prop) (holds:ℓ → Prop) (step:χ → σ → ℓ → σ × ℓ) : Prop where
 acquire : ∀ x s l,¬holds l → holds (step x s l).2 → ¬marked s ∧ marked (step x s l).1
 keep : ∀ x s l,holds l → marked s → holds (step x s l).2 → marked (step x s l).1
 respect : ∀ x s l,¬holds l → marked s → marked (step x s l).1

structure Exclusive (marked:σ → Prop) (holds:ℓ → Prop) (s:σ × (ι → ℓ)) : Prop where
 marked : ∀ i,holds (s.2 i) → marked s.1
 one : ∀ i j,holds (s.2 i) → holds (s.2 j) → i=j

lemma Guards.turn {marked:σ → Prop} {holds:ℓ → Prop} (hg:Guards marked holds step) (x:ι × χ)
 {s:σ × (ι → ℓ)} (h:Exclusive marked holds s) : Exclusive marked holds (turn step x s) := by
 have other:∀ i,i≠x.1 → holds (s.2 i) → ¬holds (s.2 x.1):=fun i hne hi hx=>hne (h.one i x.1 hi hx)
 -- a party that holds the mark keeps any other from taking it
 have alone:∀ i,i≠x.1 → holds (s.2 i) → ¬holds (step x.2 s.1 (s.2 x.1)).2:=fun i hne hi hx=>
  (hg.acquire x.2 s.1 (s.2 x.1) (other i hne hi) hx).1 (h.marked i hi)
 constructor
 · intro i hi
   by_cases hix:i=x.1
   · subst hix
     rw [turn_self] at hi
     by_cases hold:holds (s.2 x.1)
     · exact hg.keep x.2 s.1 _ hold (h.marked _ hold) hi
     · exact (hg.acquire x.2 s.1 _ hold hi).2
   · rw [turn_other hix] at hi
     exact hg.respect x.2 s.1 _ (other i hix hi) (h.marked i hi)
 · intro i j hi hj
   by_cases hix:i=x.1 <;> by_cases hjx:j=x.1
   · exact hix.trans hjx.symm
   · subst hix
     rw [turn_self] at hi
     rw [turn_other hjx] at hj
     exact absurd hi (alone j hjx hj)
   · subst hjx
     rw [turn_self] at hj
     rw [turn_other hix] at hi
     exact absurd hj (alone i hix hi)
   · rw [turn_other hix] at hi
     rw [turn_other hjx] at hj
     exact h.one i j hi hj

end Archivum.Interleaving
