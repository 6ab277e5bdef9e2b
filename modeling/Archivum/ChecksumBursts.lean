import Archivum.PageFormat

set_option autoImplicit false

/-!
# What the page checksum catches

The table-driven checksum shifts the bits of a page through a linear register,
least significant bit of each byte first. Every accepted page leaves the same
value in it, so the difference of two accepted pages leaves zero; a difference
within 32 consecutive bits is one register full of bits and does not.
-/
namespace Archivum.ChecksumBursts
open ByteStrings PageTxn PageFormat List

section Register

lemma odd_iff (c:UInt32) : c &&& 1=1 ↔ c.toNat%2=1 := by
 rw [← UInt32.toNat_inj,UInt32.toNat_and,← Nat.and_one_is_mod]
 rfl

lemma half_toNat (c:UInt32) : (c >>> 1).toNat=c.toNat/2 := by
 rw [UInt32.toNat_shiftRight,Nat.shiftRight_eq_div_pow]
 rfl

lemma tableStep_eq (c:UInt32) :
 tableStep c=(if c.toNat%2=1 then (0x82F63B78:UInt32) else 0) ^^^ (c >>> 1) := by
 rw [tableStep]
 simp only [odd_iff]
 split_ifs
 · rfl
 · exact UInt32.zero_xor.symm

lemma tableStep_xor (a b:UInt32) : tableStep (a ^^^ b)=tableStep a ^^^ tableStep b := by
 have hshift:(a ^^^ b) >>> 1=(a >>> 1) ^^^ (b >>> 1):=by
  apply UInt32.toNat_inj.mp
  rw [half_toNat,UInt32.toNat_xor,UInt32.toNat_xor,half_toNat,half_toNat,Nat.xor_div_two]
 have hodd:(if (a ^^^ b).toNat%2=1 then (0x82F63B78:UInt32) else 0) =
   (if a.toNat%2=1 then 0x82F63B78 else 0) ^^^ (if b.toNat%2=1 then 0x82F63B78 else 0):=by
  rw [UInt32.toNat_xor,Nat.xor_mod_two_eq]
  split_ifs <;> first | rfl | omega
 rw [tableStep_eq,tableStep_eq,tableStep_eq,hshift,hodd]
 ac_rfl

lemma steps_xor (n:ℕ) (a b:UInt32) : tableStep^[n] (a ^^^ b)=tableStep^[n] a ^^^ tableStep^[n] b := by
 induction n generalizing a b with
 | zero=>rfl
 | succ n ih=>rw [Function.iterate_succ_apply,tableStep_xor,ih]; rfl

/-- The polynomial has bit 31, so no step loses a bit. -/
theorem tableStep_eq_zero {c:UInt32} (h:tableStep c=0) : c=0 := by
 have hlt:=c.toNat_lt
 have hhalf:=half_toNat c
 rw [tableStep_eq,UInt32.xor_eq_zero_iff] at h
 rw [← h] at hhalf
 apply UInt32.toNat_inj.mp
 rw [UInt32.toNat_zero]
 split_ifs at hhalf
 · have hpoly:(0x82F63B78:UInt32).toNat=0x82F63B78:=rfl
   omega
 · rw [UInt32.toNat_zero] at hhalf
   omega

lemma steps_eq_zero {n:ℕ} {c:UInt32} (h:tableStep^[n] c=0) : c=0 := by
 induction n generalizing c with
 | zero=>exact h
 | succ n ih=>exact tableStep_eq_zero (ih h)

lemma ofNat_toNat_lt {n:ℕ} (h:n<2^32) : (UInt32.ofNat n).toNat=n := by
 rw [UInt32.toNat_ofNat']
 exact Nat.mod_eq_of_lt h

lemma tableStep_double {n:ℕ} (h:n<2^31) : tableStep (UInt32.ofNat (2*n))=UInt32.ofNat n := by
 have hn:(UInt32.ofNat (2*n)).toNat=2*n:=ofNat_toNat_lt (by omega)
 rw [tableStep_eq,hn,if_neg (by omega),UInt32.zero_xor]
 apply UInt32.toNat_inj.mp
 rw [half_toNat,hn,ofNat_toNat_lt (by omega)]
 omega

lemma steps_shift (k:ℕ) {n:ℕ} (h:2^k*n<2^32) : tableStep^[k] (UInt32.ofNat (2^k*n))=UInt32.ofNat n := by
 induction k with
 | zero=>rw [pow_zero,Nat.one_mul]; rfl
 | succ k ih=>
  rw [pow_succ,Nat.mul_comm _ 2,Nat.mul_assoc] at h ⊢
  rw [Function.iterate_succ_apply,tableStep_double (by omega)]
  exact ih (by omega)

end Register

section Bits

/-- The register after the bits, the first one first. -/
def feed (c:UInt32) (w:List Bool) : UInt32 := w.foldl (fun c x=>tableStep (c ^^^ UInt32.ofNat x.toNat)) c

lemma feed_append (c:UInt32) (v w:List Bool) : feed c (v++w)=feed (feed c v) w := foldl_append

def value : List Bool → ℕ
 | []=>0
 | x::w=>x.toNat+2*value w

lemma value_lt (w:List Bool) : value w<2^w.length := by
 induction w with
 | nil=>exact Nat.one_pos
 | cons x w ih=>
  have hx:=x.toNat_le
  rw [value,length_cons,pow_succ]
  omega

lemma value_append (v w:List Bool) : value (v++w)=value v+2^v.length*value w := by
 induction v with
 | nil=>rw [nil_append,value,length_nil,pow_zero,Nat.one_mul,Nat.zero_add]
 | cons x v ih=>
  rw [cons_append,value,value,ih,length_cons,pow_succ,Nat.mul_comm (2^v.length) 2,Nat.mul_assoc]
  omega

lemma value_eq_zero {w:List Bool} (h:value w=0) : ∀ x∈w,x=false := by
 induction w with
 | nil=>exact fun x hx=>absurd hx not_mem_nil
 | cons x w ih=>
  rw [value] at h
  intro y hy
  rcases mem_cons.mp hy with rfl | hy
  · exact Bool.toNat_eq_zero.mp (by omega)
  · exact ih (by omega) y hy

lemma ofNat_bit (x:Bool) {n:ℕ} (h:n<2^31) : UInt32.ofNat (x.toNat+2*n)=UInt32.ofNat x.toNat ^^^ UInt32.ofNat (2*n) := by
 have hx:=x.toNat_le
 apply UInt32.toNat_inj.mp
 rw [UInt32.toNat_xor,ofNat_toNat_lt (by omega),ofNat_toNat_lt (by omega),ofNat_toNat_lt (by omega)]
 have hdiv:(x.toNat ^^^ 2*n)/2=n:=by
  rw [Nat.xor_div_two,Nat.div_eq_of_lt (by omega),Nat.mul_div_cancel_left _ (by decide),Nat.zero_xor]
 have hmod:(x.toNat ^^^ 2*n)%2=x.toNat:=by
  rw [Nat.xor_mod_two_eq]
  omega
 omega

/-- Up to 32 bits at once: they meet the register where it stands. -/
theorem feed_eq (c:UInt32) {w:List Bool} (h:w.length≤32) :
 feed c w=tableStep^[w.length] (c ^^^ UInt32.ofNat (value w)) := by
 induction w generalizing c with
 | nil=>exact UInt32.xor_zero.symm
 | cons x w ih=>
  rw [length_cons] at h ⊢
  have hlt:value w<2^31:=(value_lt w).trans_le (Nat.pow_le_pow_right (by decide) (by omega))
  have hstep:tableStep (c ^^^ UInt32.ofNat (value (x::w))) =
    tableStep (c ^^^ UInt32.ofNat x.toNat) ^^^ UInt32.ofNat (value w):=by
   rw [value,ofNat_bit x hlt,← UInt32.xor_assoc,tableStep_xor,tableStep_double hlt]
  rw [Function.iterate_succ_apply,hstep]
  exact ih (tableStep (c ^^^ UInt32.ofNat x.toNat)) (by omega)

lemma feed_zeros (c:UInt32) (m:ℕ) : feed c (replicate m false)=tableStep^[m] c := by
 induction m generalizing c with
 | zero=>rfl
 | succ m ih=>
  rw [replicate_succ,Function.iterate_succ_apply,← ih]
  exact congrArg (fun c=>feed (tableStep c) (replicate m false)) UInt32.xor_zero

lemma feed_xor {v w:List Bool} (h:v.length=w.length) (c d:UInt32) :
 feed (c ^^^ d) (zipWith xor v w)=feed c v ^^^ feed d w := by
 induction v generalizing w c d with
 | nil=>
  obtain rfl:=length_eq_zero_iff.mp h.symm
  rfl
 | cons x v ih=>
  cases w with
  | nil=>cases h
  | cons y w=>
   have hbit:UInt32.ofNat (xor x y).toNat=UInt32.ofNat x.toNat ^^^ UInt32.ofNat y.toNat:=by
    cases x <;> cases y <;> rfl
   have hstep:tableStep (c ^^^ d ^^^ UInt32.ofNat (xor x y).toNat) =
     tableStep (c ^^^ UInt32.ofNat x.toNat) ^^^ tableStep (d ^^^ UInt32.ofNat y.toNat):=by
    rw [← tableStep_xor,hbit]
    congr 1
    ac_rfl
   rw [zipWith_cons_cons,feed,foldl_cons,hstep]
   exact ih (Nat.succ.inj h) _ _

/-- Bits that are set within 32 consecutive positions only do not leave zero. -/
theorem feed_burst {e:List Bool} {k:ℕ} (hwin:∀ i,e[i]? = some true → k ≤ i ∧ i<k+32) (h:feed 0 e=0) : ∀ x∈e,x=false := by
 have hbefore:e.take k=replicate (e.take k).length false:=by
  refine eq_replicate_iff.mpr ⟨rfl,fun x hx=>?_⟩
  obtain ⟨i,hi,rfl⟩:=mem_iff_getElem.mp hx
  rw [length_take] at hi
  rw [getElem_take]
  by_contra htrue
  have:=(hwin i (by rw [getElem?_eq_getElem (by omega)]; simpa using htrue)).1
  omega
 have hafter:e.drop (k+32)=replicate (e.drop (k+32)).length false:=by
  refine eq_replicate_iff.mpr ⟨rfl,fun x hx=>?_⟩
  obtain ⟨i,hi,rfl⟩:=mem_iff_getElem.mp hx
  rw [length_drop] at hi
  rw [getElem_drop]
  by_contra htrue
  have:=(hwin (k+32+i) (by rw [getElem?_eq_getElem (by omega)]; simpa using htrue)).2
  omega
 have hsplit:e=e.take k++((e.drop k).take 32++e.drop (k+32)):=by
  rw [← drop_drop,take_append_drop,take_append_drop]
 have hmid:((e.drop k).take 32).length≤32:=by
  rw [length_take]
  omega
 have hzero:tableStep^[(e.take k).length] 0=0:=by
  have:=steps_xor (e.take k).length 0 0
  rwa [UInt32.xor_self,UInt32.xor_self] at this
 rw [hsplit,feed_append,hbefore,feed_zeros,hzero,feed_append,feed_eq _ hmid,hafter,feed_zeros,UInt32.zero_xor] at h
 have hvalue:value ((e.drop k).take 32)=0:=by
  have hlt:=(value_lt ((e.drop k).take 32)).trans_le (Nat.pow_le_pow_right (by decide) hmid)
  have:=congrArg UInt32.toNat (steps_eq_zero (steps_eq_zero h))
  rwa [ofNat_toNat_lt hlt,UInt32.toNat_zero] at this
 intro x hx
 rw [hsplit,mem_append,mem_append] at hx
 rcases hx with hx | hx | hx
 · rw [hbefore] at hx
   exact eq_of_mem_replicate hx
 · exact value_eq_zero hvalue x hx
 · rw [hafter] at hx
   exact eq_of_mem_replicate hx

end Bits

section Pages

def byteBits (b:UInt8) : List Bool := (range 8).map b.toNat.testBit

/-- The bits of a page, bytes in order, least significant bit first. -/
def bits (page:Bytes) : List Bool := page.flatMap byteBits

lemma bits_length (page:Bytes) : (bits page).length=8*page.length := by
 induction page with
 | nil=>rfl
 | cons b page ih=>
  rw [bits,flatMap_cons,length_append,length_cons,byteBits,length_map,length_range]
  exact (congrArg (8+·) ih).trans (by omega)

lemma value_testBits : ∀ n<256,value ((range 8).map n.testBit)=n := by
 decide +kernel

lemma value_bits (page:Bytes) : value (bits page)=fromLE page := by
 induction page with
 | nil=>rfl
 | cons b page ih=>
  rw [bits,flatMap_cons,value_append,byteBits,value_testBits _ b.toNat_lt,length_map,length_range,fromLE]
  exact congrArg (b.toNat+256*·) ih

/-- The table looks eight steps ahead. -/
theorem table_byte (c:UInt32) (b:UInt8) : kTable ((c ^^^ b.toUInt32) &&& 0xFF) ^^^ (c >>> 8)=feed c (byteBits b) := by
 have hb:=b.toNat_lt
 have hlen:(byteBits b).length=8:=by rw [byteBits,length_map,length_range]
 have hword:UInt32.ofNat (value (byteBits b))=b.toUInt32:=by
  apply UInt32.toNat_inj.mp
  rw [byteBits,value_testBits _ hb,ofNat_toNat_lt (by omega),UInt8.toNat_toUInt32]
 rw [feed_eq c (by omega),hlen,hword]
 have htop:(c ^^^ b.toUInt32).toNat/2^8=c.toNat/2^8:=by
  rw [UInt32.toNat_xor,← Nat.shiftRight_eq_div_pow,Nat.shiftRight_xor_distrib,Nat.shiftRight_eq_div_pow,
   Nat.shiftRight_eq_div_pow,UInt8.toNat_toUInt32,Nat.div_eq_of_lt hb,Nat.xor_zero]
 generalize c ^^^ b.toUInt32=z at htop ⊢
 have hz:=z.toNat_lt
 have hsplit:z=(z &&& 0xFF) ^^^ UInt32.ofNat (2^8*(z.toNat/2^8)):=by
  apply UInt32.toNat_inj.mp
  rw [UInt32.toNat_xor,UInt32.toNat_and,ofNat_toNat_lt (by omega)]
  change z.toNat=(z.toNat &&& 2^8-1) ^^^ 2^8*(z.toNat/2^8)
  rw [Nat.and_two_pow_sub_one_eq_mod]
  refine Nat.eq_of_testBit_eq fun i=>?_
  rw [Nat.testBit_xor,Nat.testBit_mod_two_pow,Nat.testBit_two_pow_mul,Nat.testBit_div_two_pow]
  by_cases hi:i<8
  · simp [hi,Nat.not_le.mpr hi]
  · simp [hi,Nat.not_lt.mp hi,Nat.sub_add_cancel (Nat.not_lt.mp hi)]
 have hshift:UInt32.ofNat (z.toNat/2^8)=c >>> 8:=by
  apply UInt32.toNat_inj.mp
  rw [ofNat_toNat_lt (by omega),htop,UInt32.toNat_shiftRight,Nat.shiftRight_eq_div_pow]
  rfl
 conv_rhs=>rw [hsplit]
 rw [steps_xor,steps_shift 8 (by omega),hshift]
 rfl

lemma crc32c_eq (data:Bytes) : crc32c data = ~~~feed (~~~0) (bits data) := by
 have hfold:∀ c,data.foldl (fun c b=>kTable ((c ^^^ b.toUInt32) &&& 0xFF) ^^^ (c >>> 8)) c=feed c (bits data):=by
  induction data with
  | nil=>exact fun c=>rfl
  | cons b data ih=>
   intro c
   rw [foldl_cons,table_byte,ih]
   exact (feed_append c (byteBits b) (bits data)).symm
 rw [crc32c,crc32cFrom,hfold]

/-- The register after every page whose trailer is its checksum. -/
theorem feed_accepted {page:Bytes} (h:pageChecksumOk page=true) : feed (~~~0) (bits page)=tableStep^[32] (~~~0) := by
 rw [pageChecksumOk,Bool.and_eq_true,decide_eq_true_eq,decide_eq_true_eq] at h
 obtain ⟨hlen,htrailer⟩:=h
 simp only [kPageTrailerBytes] at hlen htrailer
 have hsplit:page=pageBody page++slice page (page.length-4) 4:=by
  have hlast:slice page (page.length-4) 4=page.drop (page.length-4):=
   take_of_length_le (by rw [length_drop]; omega)
  rw [hlast]
  exact (take_append_drop _ _).symm
 have hbits:(bits (slice page (page.length-4) 4)).length=32:=by
  rw [bits_length,slice_length _ _ _ (by omega)]
 have hword:UInt32.ofNat (value (bits (slice page (page.length-4) 4)))=crc32c (pageBody page):=by
  rw [value_bits,show fromLE (slice page (page.length-4) 4)=_ from htrailer,UInt32.ofNat_toNat]
 have hbody:=crc32c_eq (pageBody page)
 conv_lhs=>rw [hsplit,bits,flatMap_append]
 rw [feed_append,show flatMap byteBits (slice page (page.length-4) 4)=bits _ from rfl,feed_eq _ hbits.le,hbits,hword,
  hbody,UInt32.xor_not,show flatMap byteBits (pageBody page)=bits _ from rfl,UInt32.xor_self]

lemma eq_of_xor_false {v w:List Bool} (h:v.length=w.length) (hx:∀ x∈zipWith xor v w,x=false) : v=w := by
 induction v generalizing w with
 | nil=>exact (length_eq_zero_iff.mp h.symm).symm
 | cons x v ih=>
  cases w with
  | nil=>cases h
  | cons y w=>
   rw [zipWith_cons_cons] at hx
   have hxy:x=y:=by
    have:=hx _ mem_cons_self
    cases x <;> cases y <;> first | rfl | cases this
   rw [hxy,ih (Nat.succ.inj h) fun z hz=>hx z (mem_cons_of_mem _ hz)]

/-- A sealed page and a different one that agree outside a window of 32 bits. -/
theorem burst_rejected {page q:Bytes} (hlen:q.length=(sealPage page).length) (hne:q≠sealPage page) {k:ℕ}
  (hwin:∀ i,(bits q)[i]?≠(bits (sealPage page))[i]? → k ≤ i ∧ i<k+32) : pageChecksumOk q=false := by
 by_contra hok
 rw [Bool.not_eq_false] at hok
 have h5:5 ≤ q.length:=by
  rw [pageChecksumOk,Bool.and_eq_true,decide_eq_true_eq] at hok
  exact hok.1
 rw [sealPage_length] at hlen
 have hpage:=sealPage_ok page (by omega)
 have hbits:(bits q).length=(bits (sealPage page)).length:=by
  rw [bits_length,bits_length,hlen,sealPage_length]
 have hfeed:=feed_xor hbits (~~~0) (~~~0)
 rw [UInt32.xor_self,feed_accepted hok,feed_accepted hpage,UInt32.xor_self] at hfeed
 have hsame:=eq_of_xor_false hbits (feed_burst (fun i hi=>hwin i fun heq=>?_) hfeed)
 · apply hne
   rw [← toLE_fromLE q,← toLE_fromLE (sealPage page),← value_bits,← value_bits,hsame,hlen,sealPage_length]
 · rw [getElem?_zipWith,heq] at hi
   cases hb:(bits (sealPage page))[i]? with
   | none=>
    rw [hb] at hi
    cases hi
   | some x=>
    rw [hb] at hi
    cases x <;> cases hi

/-- The difference straddles the body and the trailer. -/
theorem burst_rejected_straddling :
  pageChecksumOk (((sealPage [1,2,3,4,5,6,7,8]).set 3 0xFF).set 4 0xFF)=false := by
 have hwin:∀ i<64,(bits (((sealPage [1,2,3,4,5,6,7,8]).set 3 0xFF).set 4 0xFF))[i]?≠
   (bits (sealPage [1,2,3,4,5,6,7,8]))[i]? → 24 ≤ i ∧ i<24+32:=by
  decide +kernel
 refine burst_rejected (by decide +kernel) (by decide +kernel) fun i hi=>hwin i ?_ hi
 by_contra hge
 refine hi ?_
 rw [getElem?_eq_none (by rw [bits_length]; simp; omega),getElem?_eq_none (by rw [bits_length]; simp; omega)]

end Pages

end Archivum.ChecksumBursts
