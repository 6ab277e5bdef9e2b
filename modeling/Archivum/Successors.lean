import Mathlib.Data.List.Sort

set_option autoImplicit false

/-!
# Elements of a list with their successors

What is read off each element and the one after it, for a list in the order of a
time: a change from some time on is seen at the elements from there on, and at
the last one before it.
-/
namespace Archivum.Successors
open List

variable {α β:Type}

/-- Each element with the one after it; the last one is followed by `next`. -/
def pairs : List α → Option α → List (α × Option α)
 | [],_=>[]
 | a::l,next=>(a,l.head?.or next)::pairs l next

lemma pairs_append (l l':List α) (next:Option α) : pairs (l++l') next=pairs l (l'.head?.or next)++pairs l' next := by
 induction l with
 | nil=>rfl
 | cons a l ih=>
  rw [cons_append,pairs,pairs,ih,cons_append]
  cases l with
  | nil=>simp
  | cons b l=>rfl

lemma mem_of_mem_pairs {l:List α} {next:Option α} {p:α × Option α} (h:p∈pairs l next) : p.1∈l := by
 induction l with
 | nil=>cases h
 | cons a l ih=>
  rcases mem_cons.mp h with rfl | h
  · exact mem_cons_self
  · exact mem_cons_of_mem a (ih h)

lemma filterMap_pairs_last {g:α × Option α → Option β} {l:List α} (next next':Option α)
 (h:∀ a∈l.getLast?,∀ n,g (a,n)=none) : (pairs l next).filterMap g=(pairs l next').filterMap g := by
 induction l with
 | nil=>rfl
 | cons a l ih=>
  cases l with
  | nil=>
   have hnone:∀ n,g (a,n)=none:=h a rfl
   simp only [pairs,filterMap_cons,hnone]
  | cons b l=>
   have hrest:=ih h
   rw [pairs,filterMap_cons,hrest]
   rfl

section Times
variable {f:α → ℤ}

lemma split_at {l:List α} (h:l.Pairwise fun a b=>f a≤f b) (t:ℤ) :
 l.filter (fun a=>f a<t)++l.filter (fun a=>t≤f a)=l := by
 induction l with
 | nil=>rfl
 | cons a l ih=>
  rw [pairwise_cons] at h
  by_cases ha:f a<t
  · have hnot:¬t≤f a:=not_le.mpr ha
    simp only [filter_cons,ha,hnot,decide_true,decide_false,if_true,Bool.false_eq_true,if_false,cons_append]
    rw [ih h.2]
  · -- everything from here on is late
    have hlate:∀ b∈a::l,t≤f b:=by
     intro b hb
     rcases mem_cons.mp hb with rfl | hb
     · exact not_lt.mp ha
     · exact (not_lt.mp ha).trans (h.1 b hb)
    have hnone:(a::l).filter (fun a=>f a<t)=[]:=
     filter_eq_nil_iff.mpr fun b hb=>by simpa using hlate b hb
    have hall:(a::l).filter (fun a=>t≤f a)=a::l:=
     filter_eq_self.mpr fun b hb=>decide_eq_true (hlate b hb)
    rw [hnone,hall,nil_append]

lemma head?_late {l:List α} {w t:ℤ} (hl:l.Pairwise fun a b=>f a≤f b) : (l.filter fun a=>w≤f a).head? =
  ((l.filter fun a=>f a<t).filter fun a=>w≤f a).head?.or ((l.filter fun a=>t≤f a).filter fun a=>w≤f a).head? := by
 rw [← head?_append,← filter_append,split_at hl]

lemma early_early {l:List α} {w t:ℤ} (hwt:w≤t) : (l.filter fun a=>f a<t).filter (fun a=>f a<w)=l.filter fun a=>f a<w := by
 rw [filter_filter]
 refine filter_congr fun a _=>?_
 have hle:f a<w → f a<t:=fun h=>h.trans_le hwt
 simpa using hle

/-- Two lists that agree before a time: what is read off the elements before some earlier time is the same, unless the
last one before the change is among them and something is read off it. -/
theorem filterMap_pairs_agree {g:α × Option α → Option β} {l l':List α} {w t:ℤ} (hwt:w≤t)
 (hl:l.Pairwise fun a b=>f a≤f b) (hl':l'.Pairwise fun a b=>f a≤f b)
 (hagree:l.filter (fun a=>f a<t)=l'.filter fun a=>f a<t)
 (hlast:∀ a∈(l.filter fun a=>f a<t).getLast?,f a<w → ∀ n,g (a,n)=none) :
 ∃ next,(pairs l none).filterMap g=(pairs (l.filter fun a=>f a<w) next).filterMap g ++
   (pairs (l.filter fun a=>w≤f a) none).filterMap g ∧
  (pairs l' none).filterMap g=(pairs (l.filter fun a=>f a<w) next).filterMap g ++
   (pairs (l'.filter fun a=>w≤f a) none).filterMap g := by
 have hearly:l'.filter (fun a=>f a<w)=l.filter fun a=>f a<w:=by
  rw [← early_early hwt,← hagree,early_early hwt]
 have hsplit:∀ {m:List α},m.Pairwise (fun a b=>f a≤f b) → (pairs m none).filterMap g =
   (pairs (m.filter fun a=>f a<w) (m.filter fun a=>w≤f a).head?).filterMap g ++
    (pairs (m.filter fun a=>w≤f a) none).filterMap g:=by
  intro m hm
  nth_rewrite 1 [← split_at hm w]
  rw [pairs_append,filterMap_append,Option.or_none]
 refine ⟨(l.filter fun a=>w≤f a).head?,hsplit hl,?_⟩
 rw [hsplit hl',hearly]
 congr 1
 cases hmid:(l.filter fun a=>f a<t).filter fun a=>w≤f a with
 | nil=>
  -- the last one before the change is early
  refine filterMap_pairs_last _ _ fun a ha=>?_
  have hall:(l.filter fun a=>f a<t)=l.filter fun a=>f a<w:=by
   have hpre:=split_at (hl.filter _) w (l:=l.filter fun a=>f a<t)
   rw [hmid,append_nil,early_early hwt] at hpre
   exact hpre.symm
  refine hlast a (by rw [hall]; exact ha) ?_
  exact of_decide_eq_true (mem_filter.mp (mem_of_getLast? ha)).2
 | cons b rest=>
  have hmid':(l'.filter fun a=>f a<t).filter (fun a=>w≤f a)=b::rest:=by rw [← hagree,hmid]
  rw [head?_late (t:=t) hl,head?_late (t:=t) hl',hmid,hmid']
  rfl

end Times

end Archivum.Successors
