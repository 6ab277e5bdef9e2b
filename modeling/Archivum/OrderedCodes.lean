import Archivum.ByteStrings

set_option autoImplicit false

/-!
# Encodings that keep an order

Two strings rank as `o` if every pair of strings that begin with them compares
as `o`, and as their rests when `o` is equality. Such pairs can be put one
after the other, so an encoding that ranks its values field by field ranks
tuples of them.
-/
namespace Archivum.OrderedCodes
open ByteStrings List

def Ranks (a b:Bytes) (o:Ordering) : Prop :=
 ∀ x y,compareBytes (a++x) (b++y)=o.then (compareBytes x y)

namespace Ranks

lemma refl (a:Bytes) : Ranks a a .eq := by
 intro x y
 induction a with
 | nil=>rfl
 | cons b a ih=>simpa [compareBytes] using ih

lemma append {a b a' b':Bytes} {o o':Ordering} (h:Ranks a b o) (h':Ranks a' b' o') : Ranks (a++a') (b++b') (o.then o') := by
 intro x y
 rw [append_assoc,append_assoc,h,h',Ordering.then_assoc]

lemma cons (c:UInt8) {a b:Bytes} {o:Ordering} (h:Ranks a b o) : Ranks (c::a) (c::b) o :=
 (refl [c]).append h

lemma of_lt {c d:UInt8} (h:c<d) (a b:Bytes) : Ranks (c::a) (d::b) .lt := by
 intro x y
 rw [cons_append,cons_append,compareBytes,if_pos h]
 rfl

lemma of_gt {c d:UInt8} (h:d<c) (a b:Bytes) : Ranks (c::a) (d::b) .gt := by
 intro x y
 rw [cons_append,cons_append,compareBytes,if_neg (not_lt_of_gt h),if_pos h]
 rfl

lemma compare_eq {a b:Bytes} {o:Ordering} (h:Ranks a b o) : compareBytes a b=o := by
 have:=h [] []
 rwa [append_nil,append_nil,show compareBytes [] []=.eq from rfl,Ordering.then_eq] at this

lemma of_length {a b:Bytes} (h:a.length=b.length) : Ranks a b (compareBytes a b) := by
 induction a generalizing b with
 | nil=>
  obtain rfl:=length_eq_zero_iff.mp h.symm
  exact refl []
 | cons c a ih=>
  cases b with
  | nil=>cases h
  | cons d b=>
   rw [compareBytes]
   split_ifs with hlt hgt
   · exact of_lt hlt a b
   · exact of_gt hgt a b
   · obtain rfl:=le_antisymm (not_lt.mp hgt) (not_lt.mp hlt)
     exact (ih (Nat.succ.inj h)).cons c

end Ranks

def compareNats (n m:ℕ) : Ordering := if n < m then .lt else if m<n then .gt else .eq

lemma compareNats_split (n m:ℕ) : compareNats n m=(compareNats (n/256) (m/256)).then (compareNats (n%256) (m%256)) := by
 unfold compareNats
 rcases lt_trichotomy (n/256) (m/256) with h | h | h
 · rw [if_pos (by omega),if_pos h]
   rfl
 · rw [if_neg (by omega:¬n/256 < m/256),if_neg (by omega:¬m/256<n/256),Ordering.eq_then]
   congr 1
   · exact propext (by omega)
   · congr 1
     exact propext (by omega)
 · rw [if_neg (by omega),if_pos (by omega),if_neg (by omega:¬n/256 < m/256),if_pos h]
   rfl

lemma ranks_byte (n m:ℕ) : Ranks [UInt8.ofNat (n%256)] [UInt8.ofNat (m%256)] (compareNats (n%256) (m%256)) := by
 have hlt:∀ i j:ℕ,(UInt8.ofNat (i%256)<UInt8.ofNat (j%256)) ↔ i%256<j%256:=by
  intro i j
  rw [UInt8.lt_iff_toNat_lt]
  simp
 have h:=Ranks.of_length (a:=[UInt8.ofNat (n%256)]) (b:=[UInt8.ofNat (m%256)]) rfl
 simp only [compareBytes,hlt] at h
 exact h

/-- `w` bytes, the most significant first. -/
def toBE (w n:ℕ) : Bytes := (toLE w n).reverse

lemma toBE_succ (w n:ℕ) : toBE (w+1) n=toBE w (n/256)++[UInt8.ofNat (n%256)] := by
 rw [toBE,toLE,reverse_cons]
 rfl

lemma ranks_toBE {w n m:ℕ} (hn:n<256^w) (hm:m<256^w) : Ranks (toBE w n) (toBE w m) (compareNats n m) := by
 induction w generalizing n m with
 | zero=>
  obtain ⟨rfl,rfl⟩:n=0 ∧ m=0:=by omega
  exact Ranks.refl []
 | succ w ih=>
  rw [pow_succ] at hn hm
  rw [toBE_succ,toBE_succ,compareNats_split]
  exact (ih (by omega) (by omega)).append (ranks_byte n m)

end Archivum.OrderedCodes
