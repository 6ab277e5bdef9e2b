import Archivum.OrderedCodes
import Archivum.RecordFormat

set_option autoImplicit false

/-!
# The order of keys

The bytes of a key compare as its values do, column by column, and a key is the
beginning of another exactly when its values are the first values of the other.
Whatever bytes follow the keys, they only decide when the values are equal.
-/
namespace Archivum.KeyOrder
open ByteStrings RecordModel RecordFormat OrderedCodes

def compareColumns : Row → Row → Ordering
 | a::as,b::bs=>(a.compare b).then (compareColumns as bs)
 | _,_=>.eq

lemma flipped_toNat (v:Int64) : ((v.toUInt64 ^^^ 0x8000000000000000).toNat:ℤ)=v.toInt+2^63 := by
 have hbound:=v.toUInt64.toNat_lt
 have hdiv:(v.toUInt64.toNat ^^^ 2^63)/2^63=v.toUInt64.toNat/2^63 ^^^ 1:=by
  rw [Nat.xor_div_two_pow,Nat.div_self (by decide)]
 have hmod:(v.toUInt64.toNat ^^^ 2^63)%2^63=v.toUInt64.toNat%2^63:=by
  rw [Nat.xor_mod_two_pow,Nat.mod_self,Nat.xor_zero]
 have hint:v.toInt=if 2*v.toUInt64.toNat<2^64 then (v.toUInt64.toNat:ℤ)
   else (v.toUInt64.toNat:ℤ)-2^64:=by
  rw [← Int64.toInt_toBitVec,BitVec.toInt_eq_toNat_cond]
  rfl
 have hxor:(v.toUInt64 ^^^ 0x8000000000000000).toNat=v.toUInt64.toNat ^^^ 2^63:=by
  rw [UInt64.toNat_xor]
  rfl
 rw [hxor,hint]
 -- the flip moves the number to the other half
 obtain h | h:v.toUInt64.toNat/2^63=0 ∨ v.toUInt64.toNat/2^63=1:=by omega
 · rw [h,Nat.zero_xor] at hdiv
   rw [if_pos (by omega)]
   omega
 · rw [h,Nat.xor_self] at hdiv
   rw [if_neg (by omega)]
   omega

lemma ranks_be64Flipped (v w:Int64) : Ranks (be64Flipped v) (be64Flipped w) (Value.compareInts v w) := by
 have hbound:∀ u:UInt64,u.toNat<256^8:=fun u=>by simpa using u.toNat_lt
 have h:=ranks_toBE (hbound (v.toUInt64 ^^^ 0x8000000000000000)) (hbound (w.toUInt64 ^^^ 0x8000000000000000))
 have hv:=flipped_toNat v
 have hw:=flipped_toNat w
 have hcompare:compareNats (v.toUInt64 ^^^ 0x8000000000000000).toNat (w.toUInt64 ^^^ 0x8000000000000000).toNat =
   Value.compareInts v w:=by
  unfold compareNats Value.compareInts
  simp only [Int64.lt_iff_toInt_lt]
  congr 1
  · exact propext (by omega)
  · congr 1
    exact propext (by omega)
 rw [hcompare] at h
 exact h

lemma ranks_escaped (s t:Bytes) : Ranks (escaped s) (escaped t) (compareBytes s t) := by
 induction s generalizing t with
 | nil=>
  cases t with
  | nil=>exact Ranks.refl _
  | cons c t=>
   by_cases hc:c=0
   · rw [escaped,escaped,if_pos hc]
     exact (Ranks.of_lt (by decide) _ _).cons 0
   · rw [escaped,escaped,if_neg hc]
     exact Ranks.of_lt (UInt8.pos_iff_ne_zero.mpr hc) _ _
 | cons b s ih=>
  cases t with
  | nil=>
   by_cases hb:b=0
   · rw [escaped,escaped,if_pos hb]
     exact (Ranks.of_gt (by decide) _ _).cons 0
   · rw [escaped,escaped,if_neg hb]
     exact Ranks.of_gt (UInt8.pos_iff_ne_zero.mpr hb) _ _
  | cons c t=>
   -- an escaped byte begins with the byte itself
   have hhead:∀ d:UInt8,∃ rest,(if d=0 then [0,0xFF] else [d])=d::rest:=by
    intro d
    split_ifs with hd
    · exact ⟨_,by rw [hd]⟩
    · exact ⟨_,rfl⟩
   obtain ⟨x,hx⟩:=hhead b
   obtain ⟨y,hy⟩:=hhead c
   rcases lt_trichotomy b c with h | rfl | h
   · rw [compareBytes,if_pos h,escaped,escaped,hx,hy]
     exact Ranks.of_lt h _ _
   · rw [compareBytes,if_neg (lt_irrefl b),if_neg (lt_irrefl b),escaped,escaped]
     exact (Ranks.refl _).append (ih t)
   · rw [compareBytes,if_neg (not_lt_of_gt h),if_pos h,escaped,escaped,hx,hy]
     exact Ranks.of_gt h _ _

lemma same_kind {t:ColumnType} {v w:Value} (hv:v.matches t=true) (hw:w.matches t=true)
 (hv':v.isNull=false) (hw':w.isNull=false) : v.kind=w.kind := by
 simp only [Value.matches,hv',hw',Bool.false_or,beq_iff_eq] at hv hw
 rw [hv,hw]

lemma ranks_encodeKeyValue {t:ColumnType} {v w:Value} (hv:v.matches t=true) (hw:w.matches t=true) :
 Ranks (encodeKeyValue v) (encodeKeyValue w) (v.compare w) := by
 cases v with
 | null=>
  cases w with
  | null=>exact Ranks.refl _
  | _=>exact Ranks.of_lt (by decide) _ _
 | integer i=>
  cases w with
  | null=>exact Ranks.of_gt (by decide) _ _
  | integer j=>exact (ranks_be64Flipped i j).cons 1
  | _=>cases same_kind hv hw rfl rfl
 | decimal i=>
  cases w with
  | null=>exact Ranks.of_gt (by decide) _ _
  | decimal j=>exact (ranks_be64Flipped i j).cons 1
  | _=>cases same_kind hv hw rfl rfl
 | timestamp i=>
  cases w with
  | null=>exact Ranks.of_gt (by decide) _ _
  | timestamp j=>exact (ranks_be64Flipped i j).cons 1
  | _=>cases same_kind hv hw rfl rfl
 | text x=>
  cases w with
  | null=>exact Ranks.of_gt (by decide) _ _
  | text y=>exact (ranks_escaped x y).cons 1
  | _=>cases same_kind hv hw rfl rfl
 | blob x=>
  cases w with
  | null=>exact Ranks.of_gt (by decide) _ _
  | blob y=>exact (ranks_escaped x y).cons 1
  | _=>cases same_kind hv hw rfl rfl
 | boolean x=>
  cases w with
  | null=>exact Ranks.of_gt (by decide) _ _
  | boolean y=>
   have h:=Ranks.of_length (a:=[if x then 1 else 0]) (b:=[if y then 1 else 0]) rfl
   cases x <;> cases y <;> exact h.cons 1
  | _=>cases same_kind hv hw rfl rfl
 | uuid x=>
  cases w with
  | null=>exact Ranks.of_gt (by decide) _ _
  | uuid y=>exact (Ranks.of_length (x.2.trans y.2.symm)).cons 1
  | _=>cases same_kind hv hw rfl rfl

lemma ranks_encodeKey {types:List ColumnType} {a b:Row} (ha:OfTypes types a) (hb:OfTypes types b) :
 Ranks (encodeKey a) (encodeKey b) (compareColumns a b) := by
 induction ha generalizing b with
 | nil=>
  cases hb
  exact Ranks.refl _
 | cons hv _ ih=>
  cases hb with
  | cons hw hb=>
   rw [encodeKey,encodeKey,List.flatMap_cons,List.flatMap_cons,compareColumns]
   exact (ranks_encodeKeyValue hv hw).append (ih hb)

lemma encodeKey_append (a b:Row) : encodeKey (a++b)=encodeKey a++encodeKey b := List.flatMap_append

lemma encodeKey_begins_iff {types more:List ColumnType} {a b:Row} (ha:OfTypes types a)
 (hb:OfTypes (types++more) b) : encodeKey a <+: encodeKey b ↔ a <+: b := by
 constructor
 · rintro ⟨x,hx⟩
   have hfirst:OfTypes types (b.take types.length):=by
    have:=List.forall₂_take types.length hb
    rwa [List.take_left] at this
   rw [← List.take_append_drop types.length b,encodeKey_append] at hx
   rw [(encodeKey_inj ha hfirst hx).1]
   exact List.take_prefix _ _
 · rintro ⟨c,rfl⟩
   exact ⟨encodeKey c,(encodeKey_append a c).symm⟩

/-- The order of keys is that of their values, column by column, and one key begins another exactly when
its values are the leading values of the other. -/
theorem encodeKey_keeps_order (types:List ColumnType) :
  (∀ a b,OfTypes types a → OfTypes types b → compareBytes (encodeKey a) (encodeKey b)=compareColumns a b) ∧
   ∀ more a b,OfTypes types a → OfTypes (types++more) b →
    (encodeKey a <+: encodeKey b ↔ a=b.take a.length) := by
 constructor
 · intro a b ha hb
   exact (ranks_encodeKey ha hb).compare_eq
 · intro more a b ha hb
   rw [encodeKey_begins_iff ha hb,List.prefix_iff_eq_take]

/-- An embedded zero byte, a null and a negative number. -/
theorem zero_byte_key_order :
  compareBytes (encodeKey [.text [97,0],.null]) (encodeKey [.text [97,0,98],.integer (-1)])=.lt ∧
   (encodeKey [.text [97,0]] <+: encodeKey [.text [97,0],.integer (-1)]) := by
 have htypes:OfTypes [.text,.integer] [.text [97,0],.null]:=.cons rfl (.cons rfl .nil)
 have htypes':OfTypes [.text,.integer] [.text [97,0,98],.integer (-1)]:=.cons rfl (.cons rfl .nil)
 have hlonger:OfTypes ([.text]++[.integer]) [.text [97,0],.integer (-1)]:=.cons rfl (.cons rfl .nil)
 refine ⟨?_,?_⟩
 · rw [(encodeKey_keeps_order [.text,.integer]).1 _ _ htypes htypes']
   rfl
 · exact ((encodeKey_keeps_order [.text]).2 [.integer] [.text [97,0]] _ (.cons rfl .nil) hlonger).mpr rfl

end Archivum.KeyOrder
