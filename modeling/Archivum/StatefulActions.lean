import Mathlib

set_option autoImplicit false

/-!
# Fallible state-passing computations

An action maps a state to an outcome and a new state. A failing action keeps
the changes it made before it failed, as a C++ function that returns an error
half way does. `throw` leaves the state alone.
-/
namespace Archivum.StatefulActions

/-- A computation over a state `σ` that may fail with an `ε`. -/
def Act (ε σ α:Type) : Type := σ → Except ε α × σ

variable {ε σ α β:Type}

namespace Act

protected def pure (a:α) : Act ε σ α := fun s=>(.ok a,s)

protected def bind (m:Act ε σ α) (f:α → Act ε σ β) : Act ε σ β := fun s=>
 match m s with
 | (.ok a,s')=>f a s'
 | (.error e,s')=>(.error e,s')

instance : Monad (Act ε σ) where
 pure := Act.pure
 bind:=Act.bind

/-- Fails with `e`, leaving the state as it is. -/
def fail (e:ε) : Act ε σ α := fun s=>(.error e,s)

def reads (f:σ → α) : Act ε σ α := fun s=>(.ok (f s),s)

def modify (f:σ → σ) : Act ε σ Unit := fun s=>(.ok (),f s)

/-- Runs `m` if the condition holds. -/
def onlyIf (c:Prop) [Decidable c] (m:Act ε σ Unit) : Act ε σ Unit :=
 if c then m else Act.pure ()

/-- Runs `m` and hands its outcome, good or bad, to what follows. -/
def attempt (m:Act ε σ α) : Act ε σ (Except ε α) := fun s=>(.ok (m s).1,(m s).2)

def zoom {τ:Type} (get:σ → τ) (set:σ → τ → σ) (m:Act ε τ α) : Act ε σ α := fun s=>
 ((m (get s)).1,set s (m (get s)).2)

@[simp] lemma pure_run (a:α) (s:σ) : (pure a:Act ε σ α) s=(.ok a,s) := rfl
@[simp] lemma fail_run (e:ε) (s:σ) : (fail e:Act ε σ α) s=(.error e,s) := rfl
@[simp] lemma reads_run (f:σ → α) (s:σ) : (reads f:Act ε σ α) s=(.ok (f s),s) := rfl
@[simp] lemma modify_run (f:σ → σ) (s:σ) : (modify f:Act ε σ Unit) s=(.ok (),f s) := rfl

lemma attempt_of {m:Act ε σ α} {s s':σ} {r:Except ε α} (h:m s=(r,s')) : attempt m s=(.ok r,s') := by
 rw [attempt,h]

lemma attempt_inv {m:Act ε σ α} {s s':σ} {r:Except ε α} (h:attempt m s=(.ok r,s')) : m s=(r,s') := by
 obtain ⟨hr,hs⟩:=Prod.mk.inj h
 exact Prod.ext (Except.ok.inj hr) hs

lemma zoom_of {τ:Type} {g:σ → τ} {u:σ → τ → σ} {m:Act ε τ α} {s:σ} {t:τ}
 {r:Except ε α} (h:m (g s)=(r,t)) : zoom g u m s=(r,u s t) := by
 rw [zoom,h]

lemma bind_run (m:Act ε σ α) (f:α → Act ε σ β) (s:σ) :
 (m >>= f) s=match m s with
   | (.ok a,s')=>f a s'
   | (.error e,s')=>(.error e,s') := rfl

lemma bind_of_ok {m:Act ε σ α} {s s':σ} {a:α} (f:α → Act ε σ β) (h:m s=(.ok a,s')) : (m >>= f) s=f a s' := by
 rw [bind_run,h]

lemma bind_of_error {m:Act ε σ α} {s s':σ} {e:ε} (f:α → Act ε σ β) (h:m s=(.error e,s')) : (m >>= f) s=(.error e,s') := by
 rw [bind_run,h]

lemma bind_reads (g:σ → α) (f:α → Act ε σ β) (s:σ) : (reads g >>= f) s=f (g s) s := rfl

lemma bind_congr {m:Act ε σ α} {f k:α → Act ε σ β} (h:∀ a s,f a s=k a s) (s:σ) : (m >>= f) s=(m >>= k) s := by
 rw [bind_run,bind_run]
 rcases m s with ⟨_ | a,s'⟩
 · rfl
 · exact h a s'

lemma bind_assoc {γ:Type} (m:Act ε σ α) (f:α → Act ε σ β) (k:β → Act ε σ γ) (s:σ) :
 ((m >>= f) >>= k) s=(m >>= fun a=>f a >>= k) s := by
 rw [bind_run,bind_run,bind_run]
 rcases m s with ⟨_ | a,s'⟩
 · rfl
 · rfl

lemma zoom_bind {τ γ:Type} {g:σ → τ} {u:σ → τ → σ} (hg:∀ s t,g (u s t)=t)
 (hu:∀ s t t',u (u s t) t'=u s t') (m:Act ε τ α) (f:α → Act ε τ β) (k:β → Act ε σ γ) (s:σ) :
 (zoom g u (m >>= f) >>= k) s=(zoom g u m >>= fun a=>zoom g u (f a) >>= k) s := by
 rw [bind_run,bind_run,zoom,zoom,bind_run]
 rcases m (g s) with ⟨_ | a,t⟩
 · rfl
 · dsimp only
   rw [bind_run,zoom,hg,hu]

lemma bind_ok_inv {m:Act ε σ α} {f:α → Act ε σ β} {s s':σ} {b:β}
 (h:(m >>= f) s=(.ok b,s')) : ∃ a s1,m s=(.ok a,s1) ∧ f a s1=(.ok b,s') := by
 rw [bind_run] at h
 cases hm:m s with
 | mk r s1=>
  cases r with
  | ok a=>
   rw [hm] at h
   exact ⟨a,s1,rfl,h⟩
  | error e=>
   rw [hm] at h
   cases h

end Act

end Archivum.StatefulActions
