import Archivum.StatefulActions

set_option autoImplicit false

/-!
# Readers of a sequence

A reader takes values off the front of a list. `Reads m xs a` says that `m` reads
exactly `xs` and returns `a`, whatever follows; a format round-trips when its
reader reads what its writer appends.
-/
namespace Archivum.Decoders
open StatefulActions List

section Readers
variable {ε τ α β:Type}

/-- `m` reads exactly `xs` off the front and returns `a`. -/
def Reads (m:Act ε (List τ) α) (xs:List τ) (a:α) : Prop := ∀ rest,m (xs++rest)=(.ok a,rest)

/-- Runs `m` so many times. -/
def times (m:Act ε (List τ) α) : ℕ → Act ε (List τ) (List α)
 | 0=>return []
 | n+1=>do
  let a ← m
  let as ← times m n
  return a::as

/-- Runs `m` on the whole input; `e` if something is left over. -/
def whole (m:Act ε (List τ) α) (e:ε) (input:List τ) : Except ε α :=
 match m input with
 | (.ok a,[])=>.ok a
 | (.ok _,_::_)=>.error e
 | (.error e',_)=>.error e'

lemma Reads.pure (a:α) : Reads (pure a:Act ε (List τ) α) [] a := fun _=>rfl

lemma Reads.bind {m:Act ε (List τ) α} {f:α → Act ε (List τ) β} {xs ys:List τ} {a:α} {b:β}
 (hm:Reads m xs a) (hf:Reads (f a) ys b) : Reads (m >>= f) (xs++ys) b := by
 intro rest
 rw [append_assoc,Act.bind_of_ok _ (hm _)]
 exact hf rest

lemma Reads.last {m:Act ε (List τ) α} {f:α → Act ε (List τ) β} {xs:List τ} {a:α} {b:β}
 (hm:Reads m xs a) (hf:Reads (f a) [] b) : Reads (m >>= f) xs b := by
 have hall:=hm.bind hf
 rwa [append_nil] at hall

lemma Reads.map {m:Act ε (List τ) α} {xs:List τ} {a:α} (hm:Reads m xs a) (g:α → β) :
 Reads (m >>= fun a=>return g a) xs (g a) := by
 intro rest
 rw [Act.bind_of_ok _ (hm rest)]
 rfl

lemma Reads.ite_neg {c:Prop} [Decidable c] {m k:Act ε (List τ) α} {xs:List τ} {a:α} (hc:¬c)
 (hk:Reads k xs a) : Reads (if c then m else k) xs a := by
 rw [if_neg hc]
 exact hk

lemma Reads.times {m:Act ε (List τ) α} {write:α → List τ} {as:List α}
 (h:∀ a∈as,Reads m (write a) a) : Reads (times m as.length) (as.flatMap write) as := by
 induction as with
 | nil=>exact Reads.pure []
 | cons a as ih=>
  rw [length_cons,flatMap_cons]
  exact (h a mem_cons_self).bind ((ih fun x hx=>h x (mem_cons_of_mem _ hx)).map (a :: ·))

lemma whole_reads {m:Act ε (List τ) α} {xs:List τ} {a:α} (h:Reads m xs a) (e:ε) : whole m e xs=.ok a := by
 have hrun:=h []
 rw [append_nil] at hrun
 rw [whole,hrun]

lemma whole_leftover {m:Act ε (List τ) α} {xs:List τ} {a:α} (h:Reads m xs a) (e:ε) (x:τ)
 (rest:List τ) : whole m e (xs++x::rest)=.error e := by
 rw [whole,h]

lemma whole_inv {m:Act ε (List τ) α} {e:ε} {input:List τ} {a:α} (h:whole m e input=.ok a) : m input=(.ok a,[]) := by
 rw [whole] at h
 rcases hm:m input with ⟨r,rest⟩
 rw [hm] at h
 cases r with
 | error e'=>cases h
 | ok a'=>
  cases rest with
  | nil=>
   cases h
   rfl
  | cons x rest=>cases h

/-- What `m` reads off an input it reads off every longer one. -/
def Onward (m:Act ε (List τ) α) : Prop := ∀ xs a rest,m xs=(.ok a,rest) → ∀ ys,m (xs++ys)=(.ok a,rest++ys)

lemma Onward.pure (a:α) : Onward (pure a:Act ε (List τ) α) := by
 intro xs b rest h ys
 cases h
 rfl

lemma Onward.fail (e:ε) : Onward (Act.fail e:Act ε (List τ) α) := by
 intro xs a rest h
 cases h

lemma Onward.bind {m:Act ε (List τ) α} {f:α → Act ε (List τ) β} (hm:Onward m) (hf:∀ a,Onward (f a)) : Onward (m >>= f) := by
 intro xs b rest h ys
 obtain ⟨a,zs,hfirst,hsecond⟩:=Act.bind_ok_inv h
 exact (Act.bind_of_ok _ (hm _ _ _ hfirst ys)).trans (hf a _ _ _ hsecond ys)

lemma Onward.times {m:Act ε (List τ) α} (hm:Onward m) (n:ℕ) : Onward (times m n) := by
 induction n with
 | zero=>exact Onward.pure []
 | succ n ih=>exact hm.bind fun a=>ih.bind fun as=>Onward.pure (a::as)

/-- A proper part of what `m` reads is not read. -/
theorem whole_prefix {m:Act ε (List τ) α} (hm:Onward m) {xs ys:List τ} {a:α} (h:Reads m (xs++ys) a)
 (hys:ys≠[]) (e:ε) : ∃ e',whole m e xs=.error e' := by
 cases hwhole:whole m e xs with
 | error e'=>exact ⟨e',rfl⟩
 | ok b=>
  have hfull:=h []
  rw [append_nil,hm _ _ _ (whole_inv hwhole) ys] at hfull
  exact absurd (Prod.mk.inj hfull).2 hys

/-- What `m` returns was written, as `write` does it, in front of what it leaves. -/
def Exact (m:Act ε (List τ) α) (write:α → List τ) : Prop :=
 ∀ xs a rest,m xs=(.ok a,rest) → xs=write a++rest

lemma times_exact {m:Act ε (List τ) α} {write:α → List τ} (hm:Exact m write) (n:ℕ) {xs rest:List τ}
 {as:List α} (h:times m n xs=(.ok as,rest)) : xs=as.flatMap write++rest := by
 induction n generalizing xs as with
 | zero=>
  cases h
  rfl
 | succ n ih=>
  obtain ⟨a,ys,hfirst,h⟩:=Act.bind_ok_inv h
  obtain ⟨as',zs,hrest,h⟩:=Act.bind_ok_inv h
  cases h
  rw [hm _ _ _ hfirst,ih hrest,flatMap_cons,append_assoc]

lemma times_length {m:Act ε (List τ) α} (n:ℕ) {xs rest:List τ} {as:List α} (h:times m n xs=(.ok as,rest)) : as.length=n := by
 induction n generalizing xs as with
 | zero=>
  cases h
  rfl
 | succ n ih=>
  obtain ⟨a,ys,-,h⟩:=Act.bind_ok_inv h
  obtain ⟨as',zs,hrest,h⟩:=Act.bind_ok_inv h
  cases h
  rw [length_cons,ih hrest]

lemma times_all {m:Act ε (List τ) α} {P:α → Prop} (hm:∀ xs a rest,m xs=(.ok a,rest) → P a) (n:ℕ)
 {xs rest:List τ} {as:List α} (h:times m n xs=(.ok as,rest)) : ∀ a∈as,P a := by
 induction n generalizing xs as with
 | zero=>
  cases h
  exact fun _ ha=>nomatch ha
 | succ n ih=>
  obtain ⟨a,ys,hfirst,h⟩:=Act.bind_ok_inv h
  obtain ⟨as',zs,hrest,h⟩:=Act.bind_ok_inv h
  cases h
  intro x hx
  rcases mem_cons.mp hx with rfl | hx
  · exact hm _ _ _ hfirst
  · exact ih hrest x hx

end Readers

end Archivum.Decoders
