import Archivum.ByteStrings

set_option autoImplicit false

/-!
# Decimal numbers in ASCII

The number that a run of digits spells, of any length, and the run of a given
width that spells a number.
-/
namespace Archivum.DecimalText
open ByteStrings List

def isDigit (b:UInt8) : Bool := 48 ≤ b.toNat ∧ b.toNat ≤ 57

def value (s:Bytes) : ℕ := s.foldl (fun n b=>n*10+(b.toNat-48)) 0

def digit (k:ℕ) : UInt8 := UInt8.ofNat (48+k)

/-- The last `w` digits of a number. -/
def fixed : ℕ → ℕ → Bytes
 | 0,_=>[]
 | w+1,n=>fixed w (n/10)++[digit (n%10)]

lemma digit_toNat {k:ℕ} (h:k<10) : (digit k).toNat=48+k := by
 rw [digit,UInt8.toNat_ofNat_of_lt']
 change 48+k<256
 omega

lemma isDigit_digit {k:ℕ} (h:k<10) : isDigit (digit k)=true := by
 rw [isDigit,digit_toNat h]
 exact decide_eq_true (by omega)

lemma digit_of_isDigit {b:UInt8} (h:isDigit b=true) : b.toNat-48<10 ∧ digit (b.toNat-48)=b := by
 have h:48≤b.toNat ∧ b.toNat≤57:=of_decide_eq_true h
 refine ⟨by omega,?_⟩
 rw [digit,Nat.add_sub_cancel' h.1,UInt8.ofNat_toNat]

@[simp] lemma value_concat (s:Bytes) (b:UInt8) : value (s++[b])=value s*10+(b.toNat-48) := by
 rw [value,foldl_append]
 rfl

@[simp] lemma fixed_length (w n:ℕ) : (fixed w n).length=w := by
 induction w generalizing n with
 | zero=>rfl
 | succ w ih=>rw [fixed,length_append,ih,length_singleton]

lemma fixed_isDigit (w n:ℕ) : (fixed w n).all isDigit=true := by
 induction w generalizing n with
 | zero=>rfl
 | succ w ih=>
  rw [fixed,all_append,ih,Bool.true_and,all_cons,isDigit_digit (Nat.mod_lt n (by decide))]
  rfl

lemma value_fixed {w n:ℕ} (h:n<10^w) : value (fixed w n)=n := by
 induction w generalizing n with
 | zero=>
  rw [pow_zero,Nat.lt_one_iff] at h
  exact h.symm
 | succ w ih=>
  rw [pow_succ] at h
  rw [fixed,value_concat,ih (by omega),digit_toNat (Nat.mod_lt n (by decide))]
  omega

lemma fixed_value {s:Bytes} (h:s.all isDigit=true) : fixed s.length (value s)=s := by
 induction s using reverseRecOn with
 | nil=>rfl
 | append_singleton s b ih=>
  rw [all_append,Bool.and_eq_true,all_cons,Bool.and_eq_true] at h
  obtain ⟨hlt,hb⟩:=digit_of_isDigit h.2.1
  have hdiv:(value s*10+(b.toNat-48))/10=value s:=by omega
  have hmod:(value s*10+(b.toNat-48))%10=b.toNat-48:=by omega
  rw [value_concat,length_append,length_singleton,fixed,hdiv,hmod,ih h.1,hb]

end Archivum.DecimalText
