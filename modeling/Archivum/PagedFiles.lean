import Archivum.VfsModel
import Archivum.Overlays

set_option autoImplicit false

/-!
# Files made of pages

A file of whole pages, and what writing pages into it leaves: the pages written
laid over the pages before, the file as long as the last page needs, with zero
pages where nothing was written yet.
-/
namespace Archivum.PagedFiles
open ByteStrings VfsModel Overlays List

lemma flatMap_pages_length {ps:ℕ} (f:ℕ → Bytes) (n:ℕ) (h:∀ p<n,(f p).length=ps) : ((range n).flatMap f).length=n*ps := by
 induction n with
 | zero=>simp
 | succ n ih=>
  rw [range_succ,flatMap_append,length_append,ih fun p hp=>h p (by omega)]
  simp only [flatMap_cons,flatMap_nil,append_nil,h n (by omega)]
  ring

lemma slice_flatMap_pages {ps:ℕ} (f:ℕ → Bytes) (n:ℕ) (h:∀ p<n,(f p).length=ps)
 {p:ℕ} (hp:p<n) : slice ((range n).flatMap f) (p*ps) ps=f p := by
 induction n with
 | zero=>omega
 | succ n ih=>
  have hlen:=flatMap_pages_length f n fun p hp=>h p (by omega)
  rw [range_succ,flatMap_append]
  simp only [flatMap_cons,flatMap_nil,append_nil]
  rcases Nat.lt_or_ge p n with hpn | hpn
  · rw [slice_append_left _ _ _ _ ?_]
    · exact ih (fun p hp=>h p (by omega)) hpn
    · rw [hlen,← Nat.succ_mul]
      exact Nat.mul_le_mul_right _ hpn
  · obtain rfl:p=n:=by omega
    rw [slice_append_right _ _ _ _ hlen.le,hlen,Nat.sub_self,← h p hp,slice_all]

/-- The bytes are `n` pages, those of `f`; beyond them `f` is the zero page. -/
structure Paged (ps:ℕ) (b:Bytes) (n:ℕ) (f:ℕ → Bytes) : Prop where
 length : b.length=n*ps
 page : ∀ p<n,slice b (p*ps) ps=f p
 beyond : ∀ p,n ≤ p → f p=replicate ps 0

section Paged
variable {ps:ℕ} {b:Bytes} {n:ℕ} {f:ℕ → Bytes}

/-- The pages below `n`, zero pages from there on. -/
def padded (ps n:ℕ) (f:ℕ → Bytes) (p:ℕ) : Bytes := if p<n then f p else replicate ps 0

lemma paged_flatMap (h:∀ p<n,(f p).length=ps) : Paged ps ((range n).flatMap f) n (padded ps n f) where
 length := flatMap_pages_length f n h
 page p hp:=by rw [padded,if_pos hp,slice_flatMap_pages f n h hp]
 beyond p hp:=by rw [padded,if_neg (by omega)]

lemma page_end_le (ps:ℕ) {p n:ℕ} (h:p<n) : p*ps+ps≤n*ps := by
 rw [← Nat.succ_mul]
 exact Nat.mul_le_mul_right _ h

lemma eq_flatMap_of_pages (hlen:b.length=n*ps) (hpage:∀ p<n,slice b (p*ps) ps=f p) : b=(range n).flatMap f := by
 induction n generalizing b with
 | zero=>
  rw [Nat.zero_mul] at hlen
  exact length_eq_zero_iff.mp hlen
 | succ n ih=>
  rw [Nat.succ_mul] at hlen
  have hfront:b.take (n*ps)=(range n).flatMap f:=by
   apply ih
   · rw [length_take]
     omega
   · intro p hp
     have hend:=page_end_le ps hp
     rw [← hpage p (by omega),slice,slice,drop_take,take_take,min_eq_left (by omega)]
  have hback:b.drop (n*ps)=f n:=by
   rw [← hpage n (by omega),slice,take_of_length_le]
   rw [length_drop]
   omega
  rw [range_succ,flatMap_append,← hfront]
  simp only [flatMap_cons,flatMap_nil,append_nil]
  rw [← hback,take_append_drop]

lemma slice_replicate {k o l:ℕ} (x:UInt8) (h:o+l≤k) : slice (replicate k x) o l=replicate l x := by
 rw [slice,drop_replicate,take_replicate,min_eq_left (by omega)]

lemma Paged.slice_resize (h:Paged ps b n f) {m q:ℕ} (hnm:n ≤ m) (hq:q < m) : slice (resize b (m*ps)) (q*ps) ps=f q := by
 have hle:b.length ≤ m*ps:=by
  rw [h.length]
  exact Nat.mul_le_mul_right _ hnm
 rw [resize,take_of_length_le hle]
 rcases Nat.lt_or_ge q n with hqn | hqn
 · have hend:=page_end_le ps hqn
   rw [slice_append_left _ _ _ _ (by rw [h.length]; exact hend),h.page q hqn]
 · have hend:=page_end_le ps hq
   have hstart:n*ps≤q*ps:=Nat.mul_le_mul_right _ hqn
   rw [slice_append_right _ _ _ _ (by rw [h.length]; exact hstart),h.beyond q hqn,h.length,slice_replicate]
   omega

lemma Paged.writeAt (h:Paged ps b n f) (p:ℕ) {d:Bytes} (hd:d.length=ps) :
 Paged ps (VfsModel.writeAt b (p*ps) d) (max n (p+1)) (Function.update f p d) where
 length := by
  rw [writeAt_length,h.length,hd,← Nat.succ_mul,Nat.succ_eq_add_one,Nat.mul_max_mul_right]
 page q hq:=by
  have hsize:max b.length (p*ps+d.length)=max n (p+1)*ps:=by
   rw [h.length,hd,← Nat.succ_mul,Nat.succ_eq_add_one,Nat.mul_max_mul_right]
  rw [VfsModel.writeAt,hsize]
  by_cases hqp:q=p
  · subst hqp
    have hend:q*ps+d.length ≤ max n (q+1)*ps:=by
     rw [hd]
     exact page_end_le ps hq
    rw [Function.update_self,← hd,slice_patch_self]
    rw [resize_length,hd]
    rw [hd] at hend
    exact hend
  · rw [Function.update_of_ne hqp,slice_patch_disjoint,h.slice_resize (le_max_left _ _) hq]
    rcases Nat.lt_or_gt_of_ne hqp with hlt | hgt
    · exact Or.inl (page_end_le ps hlt)
    · rw [hd]
      exact Or.inr (page_end_le ps hgt)
 beyond q hq:=by
  rw [Function.update_of_ne (by omega)]
  exact h.beyond q (by omega)

def writePages (ps:ℕ) (imgs:List (ℕ × Bytes)) (b:Bytes) : Bytes :=
 imgs.foldl (fun b x=>VfsModel.writeAt b (x.1*ps) x.2) b

lemma writePages_cons (x:ℕ × Bytes) (imgs:List (ℕ × Bytes)) (b:Bytes) :
 writePages ps (x::imgs) b=writePages ps imgs (VfsModel.writeAt b (x.1*ps) x.2) := rfl

lemma Paged.writePages (imgs:List (ℕ × Bytes)) (hlen:∀ x∈imgs,x.2.length=ps) (h:Paged ps b n f) :
 ∃ m,n ≤ m ∧ (∀ x∈imgs,x.1 < m) ∧ (m=n ∨ ∃ x∈imgs,m=x.1+1) ∧
  Paged ps (PagedFiles.writePages ps imgs b) m (overlay imgs f) := by
 induction imgs generalizing b n f with
 | nil=>exact ⟨n,le_rfl,by simp,Or.inl rfl,h⟩
 | cons x imgs ih=>
  obtain ⟨m,hnm,hbelow,hm,hpaged⟩:=ih (fun y hy=>hlen y (mem_cons_of_mem _ hy)) (h.writeAt x.1 (hlen x mem_cons_self))
  refine ⟨m,by omega,?_,?_,hpaged⟩
  · intro y hy
    rcases mem_cons.mp hy with rfl | hy
    · omega
    · exact hbelow y hy
  · rcases hm with hm | ⟨y,hy,hm⟩
    · rcases max_choice n (x.1+1) with hmax | hmax
      · exact Or.inl (by omega)
      · exact Or.inr ⟨x,mem_cons_self,by omega⟩
    · exact Or.inr ⟨y,mem_cons_of_mem _ hy,hm⟩

end Paged

end Archivum.PagedFiles
