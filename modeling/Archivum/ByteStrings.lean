import Mathlib

set_option autoImplicit false

/-!
# Byte strings: slices, overwrites, little-endian integers, memcmp order

A buffer is a list of bytes. `slice` reads a range, `patch` overwrites one in
place, and integers are stored little-endian in a fixed number of bytes.
Comparison is memcmp on the common length, then by length; it agrees with the
lexicographic order of lists, which is a linear order.
-/
namespace Archivum.ByteStrings
open List

abbrev Bytes := List UInt8

instance linearOrderUInt8 : LinearOrder UInt8 where
 le_refl a := UInt8.le_refl a
 le_trans _ _ _:=UInt8.le_trans
 lt_iff_le_not_ge a b:=by
  simp only [UInt8.lt_iff_toNat_lt,UInt8.le_iff_toNat_le]
  omega
 le_antisymm _ _:=UInt8.le_antisymm
 le_total a b:=UInt8.le_total a b
 toDecidableLE:=inferInstance

instance decidableMemBytes (b:Bytes) (l:List Bytes) : Decidable (b∈l) := inferInstance

def slice (b:Bytes) (off len:ℕ) : Bytes := (b.drop off).take len

/-- Overwrites the bytes of `b` from `off` on by `d`; what would fall past the end is cut. -/
def patch (b:Bytes) (off:ℕ) (d:Bytes) : Bytes :=
 b.take off++d.take (b.length-off)++b.drop (off+d.length)

lemma slice_length (b:Bytes) (off len:ℕ) (h:off+len≤b.length) : (slice b off len).length=len := by
 simp only [slice,length_take,length_drop]
 omega

lemma slice_length_le (b:Bytes) (off len:ℕ) : (slice b off len).length≤len := by
 simp only [slice,length_take]
 omega

lemma getElem?_slice (b:Bytes) (off len i:ℕ) :
 (slice b off len)[i]? = if i<len then b[off+i]? else none := by
 simp only [slice,getElem?_take,getElem?_drop]

@[simp] lemma patch_length (b:Bytes) (off:ℕ) (d:Bytes) : (patch b off d).length=b.length := by
 simp only [patch,length_append,length_take,length_drop]
 omega

lemma getElem?_patch_outside (b:Bytes) (off:ℕ) (d:Bytes) (i:ℕ)
 (h:i<off ∨ off+d.length ≤ i) : (patch b off d)[i]? = b[i]? := by
 rcases Nat.lt_or_ge i b.length with hi | hi
 · rcases h with h | h
   · rw [patch,append_assoc,getElem?_append_left (by simp; omega),getElem?_take_of_lt h]
   · have hl:(b.take off++d.take (b.length-off)).length=off+d.length:=by
      simp only [length_append,length_take]
      omega
     rw [patch,getElem?_append_right (by omega),hl,getElem?_drop]
     congr 1
     omega
 · rw [getElem?_eq_none (by rwa [patch_length]),getElem?_eq_none hi]

lemma getElem?_patch_inside (b:Bytes) (off:ℕ) (d:Bytes) (i:ℕ)
 (h:off+d.length≤b.length) (h1:off ≤ i) (h2:i<off+d.length) : (patch b off d)[i]? = d[i-off]? := by
 have ht:(b.take off).length=off:=by
  simp only [length_take]
  omega
 rw [patch,take_of_length_le (by omega:d.length≤b.length-off),
  getElem?_append_left (by simp only [length_append]; omega),getElem?_append_right (by omega),ht]

lemma slice_ext {a b:Bytes} {o p l:ℕ} (h:∀ i,i<l → a[o+i]? = b[p+i]?) : slice a o l=slice b p l := by
 apply ext_getElem?
 intro i
 simp only [getElem?_slice]
 split_ifs with hi
 · exact h i hi
 · rfl

lemma slice_patch_disjoint (b:Bytes) (off:ℕ) (d:Bytes) (o l:ℕ)
 (hd:o+l≤off ∨ off+d.length≤o) : slice (patch b off d) o l=slice b o l := by
 apply slice_ext
 intro i hi
 exact getElem?_patch_outside b off d (o+i) (by omega)

lemma slice_patch_inside (b:Bytes) (off:ℕ) (d:Bytes) (o l:ℕ)
 (h:off+d.length≤b.length) (h1:off≤o) (h2:o+l≤off+d.length) : slice (patch b off d) o l=slice d (o-off) l := by
 apply slice_ext
 intro i hi
 rw [getElem?_patch_inside b off d (o+i) h (by omega) (by omega)]
 congr 1
 omega

lemma slice_all (d:Bytes) : slice d 0 d.length=d := by
 simp only [slice,drop_zero,take_length]

lemma slice_patch_self (b:Bytes) (off:ℕ) (d:Bytes) (h:off+d.length≤b.length) : slice (patch b off d) off d.length=d := by
 rw [slice_patch_inside b off d off d.length h (le_refl _) (le_refl _),Nat.sub_self,slice_all]

lemma slice_slice (b:Bytes) (o l o' l':ℕ) (h:o'+l'≤l) : slice (slice b o l) o' l'=slice b (o+o') l' := by
 apply ext_getElem?
 intro i
 simp only [getElem?_slice]
 split_ifs with h1 h2
 · congr 1
   omega
 · omega
 · rfl

lemma slice_patch_window (b:Bytes) (s l o:ℕ) (d:Bytes) (h:s+l≤b.length)
 (ho:o+d.length≤l) : slice (patch b (s+o) d) s l=patch (slice b s l) o d := by
 have hl:=slice_length b s l h
 apply ext_getElem?
 intro k
 by_cases hk:k<l
 · rw [getElem?_slice,if_pos hk]
   by_cases hin:o≤k ∧ k<o+d.length
   · rw [getElem?_patch_inside _ _ _ _ (by omega) (by omega) (by omega),getElem?_patch_inside _ _ _ _ (by omega) hin.1 hin.2]
     congr 1
     omega
   · rw [getElem?_patch_outside _ _ _ _ (by omega),getElem?_patch_outside _ _ _ _ (by omega),getElem?_slice,if_pos hk]
 · rw [getElem?_slice,if_neg hk,getElem?_eq_none (by rw [patch_length]; omega)]

lemma slice_append_left (a b:Bytes) (o l:ℕ) (h:o+l≤a.length) : slice (a++b) o l=slice a o l := by
 apply slice_ext
 intro i hi
 exact getElem?_append_left (by omega)

lemma slice_append_right (a b:Bytes) (o l:ℕ) (h:a.length≤o) : slice (a++b) o l=slice b (o-a.length) l := by
 apply slice_ext
 intro i hi
 rw [getElem?_append_right (by omega)]
 congr 1
 omega

lemma slice_middle (a d b:Bytes) (o l:ℕ) (ho:a.length=o) (hl:d.length=l) : slice (a++d++b) o l=d := by
 subst ho hl
 rw [append_assoc,slice_append_right _ _ _ _ (Nat.le_refl _),Nat.sub_self,slice_append_left _ _ _ _ (by omega),slice_all]

lemma patch_middle (a d d' b:Bytes) (o:ℕ) (ho:a.length=o) (hd:d'.length=d.length) : patch (a++d++b) o d'=a++d'++b := by
 subst ho
 have h1:(a++d++b).take a.length=a:=by
  rw [append_assoc,take_left]
 have h2:(a++d++b).drop (a.length+d'.length)=b:=by
  rw [hd,← length_append,drop_left]
 rw [patch,h1,h2,take_of_length_le (by simp only [length_append]; omega)]

def fromLE : Bytes → ℕ
 | []=>0
 | b::bs=>b.toNat+256*fromLE bs

/-- The low `n` bytes of `v`, least significant first. -/
def toLE : ℕ → ℕ → Bytes
 | 0,_=>[]
 | n+1,v=>UInt8.ofNat (v%256)::toLE n (v/256)

@[simp] lemma toLE_length (n v:ℕ) : (toLE n v).length=n := by
 induction n generalizing v with
 | zero=>rfl
 | succ n ih=>simp only [toLE,length_cons,ih]

lemma fromLE_toLE (n v:ℕ) : fromLE (toLE n v)=v%256^n := by
 induction n generalizing v with
 | zero=>simp only [toLE,fromLE,pow_zero,Nat.mod_one]
 | succ n ih=>
  have hb:(UInt8.ofNat (v%256)).toNat=v%256:=by
   simp only [UInt8.toNat_ofNat',Nat.reducePow,Nat.mod_mod]
  simp only [toLE,fromLE,ih,hb]
  rw [pow_succ,Nat.mul_comm,Nat.mul_comm (256^n) 256,Nat.mod_mul,Nat.mul_comm]

lemma fromLE_toLE_of_lt (n v:ℕ) (h:v<256^n) : fromLE (toLE n v)=v := by
 rw [fromLE_toLE,Nat.mod_eq_of_lt h]

lemma fromLE_lt (b:Bytes) : fromLE b<256^b.length := by
 induction b with
 | nil=>simp only [fromLE,length_nil,pow_zero,Nat.lt_one_iff]
 | cons x b ih=>
  have hx:=x.toNat_lt
  simp only [fromLE,length_cons,pow_succ]
  omega

lemma toLE_fromLE (b:Bytes) : toLE b.length (fromLE b)=b := by
 induction b with
 | nil=>rfl
 | cons x b ih=>
  have hx:=x.toNat_lt
  have h1:(x.toNat+256*fromLE b)%256=x.toNat:=by omega
  have h2:(x.toNat+256*fromLE b)/256=fromLE b:=by omega
  simp only [fromLE,length_cons,toLE,h1,h2,ih,UInt8.ofNat_toNat]

/-- Reads the `n`-byte integer at `off`. -/
def getLE (n:ℕ) (b:Bytes) (off:ℕ) : ℕ := fromLE (slice b off n)

abbrev getU16 (b:Bytes) (off:ℕ) : ℕ := getLE 2 b off
abbrev getU32 (b:Bytes) (off:ℕ) : ℕ := getLE 4 b off
abbrev getU64 (b:Bytes) (off:ℕ) : ℕ := getLE 8 b off

lemma getLE_middle (n v:ℕ) (a b:Bytes) (o:ℕ) (ho:a.length=o) (hv:v<256^n) : getLE n (a++toLE n v++b) o=v := by
 rw [getLE,slice_middle a _ b o n ho (toLE_length n v),fromLE_toLE_of_lt n v hv]

lemma slice_flatten (fs:List Bytes) (i:ℕ) {d:Bytes} {o l:ℕ} (hd:fs[i]? = some d)
 (ho:(fs.take i).flatten.length=o) (hl:d.length=l) : slice fs.flatten o l=d := by
 obtain ⟨hi,rfl⟩:=List.getElem?_eq_some_iff.mp hd
 have hsplit:fs.flatten=(fs.take i).flatten++fs[i]++(fs.drop (i+1)).flatten:=by
  conv_lhs=>rw [← take_append_drop i fs,drop_eq_getElem_cons hi]
  simp only [flatten_append,flatten_cons,append_assoc]
 rw [hsplit]
 exact slice_middle _ _ _ o l ho hl

lemma getLE_flatten (fs:List Bytes) (i:ℕ) {n v o:ℕ} (hd:fs[i]? = some (toLE n v))
 (ho:(fs.take i).flatten.length=o) (hv:v<256^n) : getLE n fs.flatten o=v := by
 rw [getLE,slice_flatten fs i hd ho (toLE_length n v),fromLE_toLE_of_lt n v hv]

/-- Stores the low `n` bytes of `v` at `off`. -/
def putLE (n:ℕ) (b:Bytes) (off v:ℕ) : Bytes := patch b off (toLE n v)

abbrev putU16 (b:Bytes) (off v:ℕ) : Bytes := putLE 2 b off v
abbrev putU32 (b:Bytes) (off v:ℕ) : Bytes := putLE 4 b off v
abbrev putU64 (b:Bytes) (off v:ℕ) : Bytes := putLE 8 b off v

lemma getLE_lt (n:ℕ) (b:Bytes) (off:ℕ) : getLE n b off<256^n := by
 have h1:=fromLE_lt (slice b off n)
 have h2:256^(slice b off n).length≤256^n:=
  Nat.pow_le_pow_right (by decide) (slice_length_le b off n)
 exact lt_of_lt_of_le h1 h2

@[simp] lemma putLE_length (n:ℕ) (b:Bytes) (off v:ℕ) : (putLE n b off v).length=b.length :=
 patch_length b off _

lemma getLE_putLE_self (n:ℕ) (b:Bytes) (off v:ℕ) (h:off+n≤b.length) (hv:v<256^n) : getLE n (putLE n b off v) off=v := by
 have hs:=slice_patch_self b off (toLE n v) (by simpa only [toLE_length] using h)
 rw [toLE_length] at hs
 rw [getLE,putLE,hs,fromLE_toLE_of_lt n v hv]

lemma slice_putLE_disjoint (n:ℕ) (b:Bytes) (off v o l:ℕ)
 (hd:o+l≤off ∨ off+n≤o) : slice (putLE n b off v) o l=slice b o l :=
 slice_patch_disjoint b off _ o l (by simpa only [toLE_length] using hd)

lemma getLE_putLE_disjoint (m n:ℕ) (b:Bytes) (off v o:ℕ)
 (hd:o+m≤off ∨ off+n≤o) : getLE m (putLE n b off v) o=getLE m b o := by
 rw [getLE,getLE,slice_putLE_disjoint n b off v o m hd]

lemma getLE_patch_disjoint (m:ℕ) (b:Bytes) (off:ℕ) (d:Bytes) (o:ℕ)
 (hd:o+m≤off ∨ off+d.length≤o) : getLE m (patch b off d) o=getLE m b o := by
 rw [getLE,getLE,slice_patch_disjoint b off d o m hd]

def compareBytes : Bytes → Bytes → Ordering
 | [],[]=>.eq
 | [],_::_=>.lt
 | _::_,[]=>.gt
 | a::as,b::bs=>if a<b then .lt else if b<a then .gt else compareBytes as bs

lemma compareBytes_lt_iff (a b:Bytes) : compareBytes a b=.lt ↔ a<b := by
 induction a generalizing b with
 | nil=>cases b <;> simp [compareBytes]
 | cons x a ih=>
  cases b with
  | nil=>simp [compareBytes]
  | cons y b=>
   rw [cons_lt_cons_iff]
   by_cases h1:x<y
   · simp [compareBytes,h1]
   · by_cases h2:y<x
     · simp [compareBytes,h1,h2,ne_of_gt h2]
     · have he:x=y:=le_antisymm (not_lt.mp h2) (not_lt.mp h1)
       simp [compareBytes,he,ih]

lemma compareBytes_eq_iff (a b:Bytes) : compareBytes a b=.eq ↔ a=b := by
 induction a generalizing b with
 | nil=>cases b <;> simp [compareBytes]
 | cons x a ih=>
  cases b with
  | nil=>simp [compareBytes]
  | cons y b=>
   by_cases h1:x<y
   · simp [compareBytes,h1,ne_of_lt h1]
   · by_cases h2:y<x
     · simp [compareBytes,h1,h2,ne_of_gt h2]
     · have he:x=y:=le_antisymm (not_lt.mp h2) (not_lt.mp h1)
       simp [compareBytes,he,ih]

lemma compareBytes_gt_iff (a b:Bytes) : compareBytes a b=.gt ↔ b<a := by
 rcases lt_trichotomy a b with h | h | h
 · have hl:=(compareBytes_lt_iff a b).mpr h
   simp [hl,not_lt_of_gt h]
 · have he:=(compareBytes_eq_iff a b).mpr h
   simp [h,(compareBytes_eq_iff b b).mpr rfl]
 · have h1:compareBytes a b≠.lt:=fun hc=>absurd ((compareBytes_lt_iff a b).mp hc) (not_lt_of_gt h)
   have h2:compareBytes a b≠.eq:=fun hc=>absurd ((compareBytes_eq_iff a b).mp hc) (ne_of_gt h)
   cases hc:compareBytes a b with
   | lt=>exact absurd hc h1
   | eq=>exact absurd hc h2
   | gt=>simp [h]

end Archivum.ByteStrings
