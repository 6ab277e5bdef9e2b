import Archivum.StatefulActions

set_option autoImplicit false

/-!
# Pre- and postconditions for fallible stateful actions

A triple says what holds after an action that succeeds and what holds after one
that fails. The rules below take actions apart; each operation of a model needs
one triple, and a loop one triple by induction.
-/
namespace Archivum.StatefulActions.Act
open Act

variable {ε σ α β:Type} {P P':σ → Prop} {Q R:α → σ → Prop} {S:β → σ → Prop}
 {E E':ε → σ → Prop}

/-- Started where `P` holds, `m` ends where `Q` holds if it succeeds and where `E` holds if it
fails. -/
def Triple (P:σ → Prop) (m:Act ε σ α) (Q:α → σ → Prop) (E:ε → σ → Prop) : Prop :=
 ∀ s,P s → match m s with
  | (.ok a,s')=>Q a s'
  | (.error e,s')=>E e s'

namespace Triple

lemma ok {m:Act ε σ α} (h:Triple P m Q E) {s s':σ} {a:α} (hs:P s) (hm:m s=(.ok a,s')) : Q a s' := by
 have:=h s hs
 rwa [hm] at this

lemma error {m:Act ε σ α} (h:Triple P m Q E) {s s':σ} {e:ε} (hs:P s) (hm:m s=(.error e,s')) : E e s' := by
 have:=h s hs
 rwa [hm] at this

lemma run {m:Act ε σ α} (h:Triple P m Q E) {s:σ} (hs:P s) (hE:∀ e s',¬E e s') : ∃ a s',m s=(.ok a,s') ∧ Q a s' := by
 have hpost:=h s hs
 rcases hm:m s with ⟨r,s'⟩
 rw [hm] at hpost
 cases r with
 | ok a=>exact ⟨a,s',rfl,hpost⟩
 | error e=>exact absurd hpost (hE e s')

lemma pure {a:α} (h:∀ s,P s → Q a s) : Triple P (Pure.pure a:Act ε σ α) Q E := h

lemma fail {e:ε} (h:∀ s,P s → E e s) : Triple P (fail e:Act ε σ α) Q E := h

lemma reads {f:σ → α} (h:∀ s,P s → Q (f s) s) : Triple P (reads f:Act ε σ α) Q E := h

lemma modify {f:σ → σ} {Q:Unit → σ → Prop} (h:∀ s,P s → Q () (f s)) : Triple P (modify f:Act ε σ Unit) Q E := h

lemma bind {m:Act ε σ α} {f:α → Act ε σ β} (hm:Triple P m Q E) (hf:∀ a,Triple (Q a) (f a) S E) : Triple P (m >>= f) S E := by
 intro s hs
 have hpost:=hm s hs
 rw [bind_run]
 rcases hrun:m s with ⟨r,s'⟩
 rw [hrun] at hpost
 cases r with
 | ok a=>exact hf a s' hpost
 | error e=>exact hpost

lemma weaken {m:Act ε σ α} (h:Triple P m Q E) (hP:∀ s,P' s → P s)
 (hQ:∀ a s,Q a s → R a s) (hE:∀ e s,E e s → E' e s) : Triple P' m R E' := by
 intro s hs
 have hpost:=h s (hP s hs)
 rcases hrun:m s with ⟨r,s'⟩
 rw [hrun] at hpost
 cases r with
 | ok a=>exact hQ a s' hpost
 | error e=>exact hE e s' hpost

lemma pre {m:Act ε σ α} (h:Triple P m Q E) (hP:∀ s,P' s → P s) : Triple P' m Q E :=
 h.weaken hP (fun _ _ hq=>hq) fun _ _ he=>he

lemma post {m:Act ε σ α} (h:Triple P m Q E) (hQ:∀ a s,Q a s → R a s) : Triple P m R E :=
 h.weaken (fun _ hp=>hp) hQ fun _ _ he=>he

lemma onError {m:Act ε σ α} (h:Triple P m Q E) (hE:∀ e s,E e s → E' e s) : Triple P m Q E' :=
 h.weaken (fun _ hp=>hp) (fun _ _ hq=>hq) hE

lemma both {m:Act ε σ α} (h:Triple P m Q E) (h':Triple P m R E') :
 Triple P m (fun a s=>Q a s ∧ R a s) fun e s=>E e s ∧ E' e s := by
 intro s hs
 have h1:=h s hs
 have h2:=h' s hs
 rcases hrun:m s with ⟨r,s'⟩
 rw [hrun] at h1 h2
 cases r with
 | ok a=>exact ⟨h1,h2⟩
 | error e=>exact ⟨h1,h2⟩

lemma fact {φ:Prop} {m:Act ε σ α} (h:φ → Triple P m Q E) : Triple (fun s=>φ ∧ P s) m Q E :=
 fun s hs=>h hs.1 s hs.2

lemma fact_right {φ:Prop} {m:Act ε σ α} (h:φ → Triple P m Q E) : Triple (fun s=>P s ∧ φ) m Q E :=
 fun s hs=>h hs.2 s hs.1

lemma exists_fact {ι:Type} {A:ι → σ → Prop} {m:Act ε σ α} (h:∀ i,Triple (A i) m Q E) : Triple (fun s=>∃ i,A i s) m Q E :=
 fun s ⟨i,hi⟩=>h i s hi

lemma ite {c:Prop} [Decidable c] {m m':Act ε σ α} (ht:c → Triple P m Q E)
 (hf:¬c → Triple P m' Q E) : Triple P (if c then m else m') Q E := by
 by_cases h:c
 · rw [if_pos h]
   exact ht h
 · rw [if_neg h]
   exact hf h

lemma onlyIf {c:Prop} [Decidable c] {m:Act ε σ Unit} {Q:Unit → σ → Prop}
 (ht:c → Triple P m Q E) (hf:¬c → ∀ s,P s → Q () s) : Triple P (onlyIf c m) Q E :=
 ite ht fun h=>pure (hf h)

lemma attempt {m:Act ε σ α} (h:Triple P m Q E) :
 Triple P (attempt m) (fun r s=>match r with
   | .ok a=>Q a s
   | .error e=>E e s) E' := by
 intro s hs
 have hpost:=h s hs
 rcases hrun:m s with ⟨r,s'⟩
 rw [hrun] at hpost
 rw [attempt_of hrun]
 cases r with
 | ok a=>exact hpost
 | error e=>exact hpost

lemma zoom {τ:Type} {g:τ → σ} {u:τ → σ → τ} {m:Act ε σ α} (h:Triple P m Q E) (hg:∀ t s,g (u t s)=s) :
 Triple (fun t=>P (g t)) (zoom g u m) (fun a t=>Q a (g t)) fun e t=>E e (g t) := by
 intro t ht
 have hpost:=h (g t) ht
 rcases hrun:m (g t) with ⟨r,s'⟩
 rw [hrun] at hpost
 rw [zoom_of hrun]
 cases r with
 | ok a=>
  change Q a (g (u t s'))
  rwa [hg]
 | error e=>
  change E e (g (u t s'))
  rwa [hg]

end Triple

/-- What the action returns satisfies `Q`, whatever state it starts from. -/
def Returns (Q:α → Prop) (m:Act ε σ α) : Prop := ∀ s a s',m s=(.ok a,s') → Q a

namespace Returns

variable {P Q:α → Prop} {S:β → Prop}

lemma pure {a:α} (h:Q a) : Returns Q (Pure.pure a:Act ε σ α) := by
 intro s b s' hrun
 cases hrun
 exact h

lemma fail (e:ε) : Returns Q (fail e:Act ε σ α) := by
 intro s b s' hrun
 cases hrun

lemma bind_of {m:Act ε σ α} {f:α → Act ε σ β} (hm:Returns P m) (hf:∀ a,P a → Returns S (f a)) : Returns S (m >>= f) := by
 intro s b s' hrun
 obtain ⟨a,s₁,h₁,h₂⟩:=bind_ok_inv hrun
 exact hf a (hm s a s₁ h₁) s₁ b s' h₂

lemma bind {m:Act ε σ α} {f:α → Act ε σ β} (hf:∀ a,Returns S (f a)) :
 Returns S (m >>= f) := bind_of (P:=fun _=>True) (fun _ _ _ _=>trivial) fun a _=>hf a

lemma ite {c:Prop} [Decidable c] {m m':Act ε σ α} (ht:Returns Q m) (hf:Returns Q m') :
 Returns Q (if c then m else m') := by
 by_cases h:c
 · rwa [if_pos h]
 · rwa [if_neg h]

end Returns

/-- Run from `s`, whether it succeeds or fails, the action ends in a state related to `s`. -/
def Follows (R:σ → σ → Prop) (m:Act ε σ α) (s:σ) : Prop := R s (m s).2

namespace Follows

variable {R R':σ → σ → Prop} {s:σ}

lemma mono {m:Act ε σ α} (h:Follows R m s) (hR:∀ t,R s t → R' s t) : Follows R' m s :=
 hR _ h

lemma attempt {m:Act ε σ α} (h:Follows R m s) : Follows R (attempt m) s := h

lemma bind_reads {f:σ → α} {m:α → Act ε σ β} (h:Follows R (m (f s)) s) : Follows R (reads f >>= m) s := h

lemma modify {f:σ → σ} (h:R s (f s)) : Follows R (modify f:Act ε σ Unit) s := h

lemma zoom {τ:Type} {T:τ → τ → Prop} {g:σ → τ} {u:σ → τ → σ} {m:Act ε τ α}
 (h:Follows T m (g s)) (hu:∀ t,T (g s) t → R s (u s t)) : Follows R (zoom g u m) s :=
 hu _ h

lemma ite {c:Prop} [Decidable c] {m m':Act ε σ α} (ht:c → Follows R m s)
 (hf:¬c → Follows R m' s) : Follows R (if c then m else m') s := by
 by_cases h:c
 · rw [if_pos h]
   exact ht h
 · rw [if_neg h]
   exact hf h

variable [IsPreorder σ R]

lemma pure (a:α) : Follows R (Pure.pure a:Act ε σ α) s := refl_of R s

lemma fail (e:ε) : Follows R (fail e:Act ε σ α) s := refl_of R s

lemma onlyIf {c:Prop} [Decidable c] {m:Act ε σ Unit} (h:Follows R m s) :
 Follows R (onlyIf c m) s := ite (fun _=>h) fun _=>pure ()

lemma ok {R:σ → σ → Prop} {m:Act ε σ α} {s':σ} {a:α} (hm:Follows R m s) (hrun:m s=(.ok a,s')) : R s s' := by
 unfold Follows at hm
 rwa [hrun] at hm

lemma bind_ok {m:Act ε σ α} {f:α → Act ε σ β} (hm:Follows R m s)
 (hf:∀ a s',m s=(.ok a,s') → Follows R (f a) s') : Follows R (m >>= f) s := by
 unfold Follows at hm
 rw [Follows,bind_run]
 rcases hrun:m s with ⟨r,s'⟩
 rw [hrun] at hm
 cases r with
 | ok a=>exact trans_of R hm (hf a s' hrun)
 | error e=>exact hm

lemma bind_of {m:Act ε σ α} {f:α → Act ε σ β} (hm:Follows R' m s)
 (hR:∀ t,R' s t → R s t) (hf:∀ a s',R' s s' → Follows R (f a) s') : Follows R (m >>= f) s := by
 exact bind_ok (hm.mono hR) fun a s' hrun=>hf a s' (hm.ok hrun)

lemma bind {m:Act ε σ α} {f:α → Act ε σ β} (hm:Follows R m s)
 (hf:∀ a s',R s s' → Follows R (f a) s') : Follows R (m >>= f) s :=
 bind_of hm (fun _ h=>h) hf

end Follows

def Always (R:σ → σ → Prop) (m:Act ε σ α) : Prop := ∀ s,Follows R m s

namespace Always

variable {R R':σ → σ → Prop}

lemma ok {m:Act ε σ α} (h:Always R m) {s s':σ} {a:α} (hrun:m s=(.ok a,s')) : R s s' := by
 have hs:=h s
 unfold Follows at hs
 rwa [hrun] at hs

lemma mono {m:Act ε σ α} (h:Always R m) (hR:∀ s t,R s t → R' s t) : Always R' m :=
 fun s=>(h s).mono (hR s)

lemma ite {c:Prop} [Decidable c] {m m':Act ε σ α} (ht:Always R m) (hf:Always R m') :
 Always R (if c then m else m') := fun s=>Follows.ite (fun _=>ht s) fun _=>hf s

variable [IsPreorder σ R]

lemma pure (a:α) : Always R (Pure.pure a:Act ε σ α) := fun _=>Follows.pure a

lemma fail (e:ε) : Always R (fail e:Act ε σ α) := fun _=>Follows.fail e

lemma reads (f:σ → α) : Always R (reads f:Act ε σ α) := fun s=>refl_of R s

lemma bind {m:Act ε σ α} {f:α → Act ε σ β} (hm:Always R m) (hf:∀ a,Always R (f a)) :
 Always R (m >>= f) := fun s=>Follows.bind (hm s) fun a s' _=>hf a s'

lemma onlyIf {c:Prop} [Decidable c] {m:Act ε σ Unit} (h:Always R m) : Always R (onlyIf c m) :=
 fun s=>Follows.onlyIf (h s)

end Always

def Same {τ:Type} (view:σ → τ) (s t:σ) : Prop := view t=view s

instance {τ:Type} (view:σ → τ) : IsPreorder σ (Same view) where
 refl _ := rfl
 trans _ _ _ h h':=h'.trans h

end Archivum.StatefulActions.Act

namespace Archivum.StatefulActions

section Runs
variable {ι σ:Type}

def after (step:ι → σ → σ) (xs:List ι) (s:σ) : σ := xs.foldl (fun s x=>step x s) s

lemma after_append (step:ι → σ → σ) (xs ys:List ι) (s:σ) :
 after step (xs++ys) s=after step ys (after step xs s) := List.foldl_append

def Meets (step:ι → σ → σ) (C:ι → σ → Prop) : List ι → σ → Prop
 | [],_=>True
 | x::xs,s=>C x s ∧ Meets step C xs (step x s)

instance decidableMeets {step:ι → σ → σ} {C:ι → σ → Prop} [∀ x s,Decidable (C x s)] :
  ∀ (xs:List ι) (s:σ),Decidable (Meets step C xs s)
 | [],_=>isTrue trivial
 | x::xs,s=>@instDecidableAnd _ _ _ (decidableMeets xs (step x s))

lemma meets_append {step:ι → σ → σ} {C:ι → σ → Prop} (xs ys:List ι) (s:σ) :
 Meets step C (xs++ys) s ↔ Meets step C xs s ∧ Meets step C ys (after step xs s) := by
 induction xs generalizing s with
 | nil=>exact ⟨fun h=>⟨trivial,h⟩,fun h=>h.2⟩
 | cons x xs ih=>exact (and_congr_right fun _=>ih (step x s)).trans and_assoc.symm

lemma meets_of_forall {step:ι → σ → σ} {C:ι → Prop} (xs:List ι) (s:σ) (h:∀ x∈xs,C x) : Meets step (fun x _=>C x) xs s := by
 induction xs generalizing s with
 | nil=>trivial
 | cons x xs ih=>exact ⟨h x List.mem_cons_self,ih (step x s) fun y hy=>h y (List.mem_cons_of_mem x hy)⟩

lemma after_invariant {step:ι → σ → σ} {C:ι → σ → Prop} {I:σ → Prop}
 (hstep:∀ x s,I s → C x s → I (step x s)) (xs:List ι) {s:σ} (hs:I s) (hmeets:Meets step C xs s) : I (after step xs s) := by
 induction xs generalizing s with
 | nil=>exact hs
 | cons x xs ih=>exact ih (hstep x s hs hmeets.1) hmeets.2

lemma after_preserves {step:ι → σ → σ} {I:σ → Prop} (hstep:∀ x s,I s → I (step x s))
 (xs:List ι) {s:σ} (hs:I s) : I (after step xs s) := by
 induction xs generalizing s with
 | nil=>exact hs
 | cons x xs ih=>exact ih (hstep x s hs)

end Runs

end Archivum.StatefulActions
