import Archivum.JournalModel

set_option autoImplicit false

/-!
# Records in a file

The bytes of some records, what makes the scan stop, and why the records a scan
finds are determined by the bytes. A record that was cut short is rejected for
its length alone.
-/
namespace Archivum.JournalFormat
open ByteStrings PageFormat VfsModel JournalModel List

def framesOf (rs:List Bytes) : Bytes := rs.flatMap frame

@[simp] lemma framesOf_nil : framesOf []=[] := rfl

@[simp] lemma framesOf_cons (x:Bytes) (rs:List Bytes) : framesOf (x::rs)=frame x++framesOf rs := rfl

@[simp] lemma framesOf_append (rs ss:List Bytes) : framesOf (rs++ss)=framesOf rs++framesOf ss := flatMap_append

@[simp] lemma frame_length (x:Bytes) : (frame x).length=kRecordHeaderBytes+x.length := by
 simp [frame,kRecordHeaderBytes]
 omega

@[simp] lemma makeHeader_length : makeHeader.length=kHeaderBytes := by
 simp [makeHeader,kMagic,kHeaderBytes]

/-- A payload that `append` takes. -/
structure Fits (max:ℕ) (x:Bytes) : Prop where
 nonempty : x≠[]
 le : x.length ≤ max

/-- The refs of records that start at `off`. -/
def refsFrom : ℕ → List Bytes → List RecordRef
 | _,[]=>[]
 | off,x::rs=>⟨off,x.length⟩::refsFrom (off+(frame x).length) rs

lemma refsFrom_append (off:ℕ) (rs ss:List Bytes) :
 refsFrom off (rs++ss)=refsFrom off rs++refsFrom (off+(framesOf rs).length) ss := by
 induction rs generalizing off with
 | nil=>simp [refsFrom]
 | cons x rs ih=>
  simp only [cons_append,refsFrom,ih,framesOf_cons,length_append,Nat.add_assoc]

def Rejected (max:ℕ) (t:Bytes) : Prop :=
 t.length<kRecordHeaderBytes ∨ getU32 t 0=0 ∨ max<getU32 t 0 ∨
  t.length<kRecordHeaderBytes+getU32 t 0 ∨
  (recordCrc (slice t 0 4) (slice t kRecordHeaderBytes (getU32 t 0))).toNat≠getU32 t 4

section Frames
variable {max:ℕ} {x t:Bytes}

lemma frame_parts (x t:Bytes) : slice (frame x++t) 0 4=toLE 4 x.length ∧
 slice (frame x++t) 4 4=toLE 4 (recordCrc (toLE 4 x.length) x).toNat ∧ slice (frame x++t) kRecordHeaderBytes x.length=x := by
 have hassoc:frame x++t=toLE 4 x.length ++
   (toLE 4 (recordCrc (toLE 4 x.length) x).toNat++(x++t)):=by
  simp [frame]
 refine ⟨?_,?_,?_⟩
 · rw [hassoc,slice_append_left _ _ _ _ (by simp)]
   simpa using slice_all (toLE 4 x.length)
 · rw [hassoc,← append_assoc]
   exact slice_middle _ _ _ _ _ (toLE_length _ _) (toLE_length _ _)
 · rw [frame,append_assoc]
   refine (slice_append_right _ _ _ _ (by simp [kRecordHeaderBytes])).trans ?_
   rw [slice_append_left _ _ _ _ (by simp [kRecordHeaderBytes])]
   simpa [kRecordHeaderBytes] using slice_all x

lemma getU32_frame (hx:x.length<2^32) (t:Bytes) : getU32 (frame x++t) 0=x.length := by
 rw [getU32,getLE,(frame_parts x t).1,fromLE_toLE_of_lt _ _ (by simpa using hx)]

lemma crc_frame (x t:Bytes) : getU32 (frame x++t) 4=(recordCrc (toLE 4 x.length) x).toNat := by
 rw [getU32,getLE,(frame_parts x t).2.1,fromLE_toLE_of_lt _ _ (UInt32.toNat_lt _)]

lemma not_rejected_frame (hmax:max<2^32) (hx:Fits max x) (t:Bytes) : ¬Rejected max (frame x++t) := by
 have hlen:=getU32_frame (lt_of_le_of_lt hx.le hmax) t
 have hpos:0<x.length:=length_pos_of_ne_nil hx.nonempty
 have hle:=hx.le
 rw [Rejected,hlen,crc_frame,(frame_parts x t).1,(frame_parts x t).2.2]
 simp only [length_append,frame_length]
 omega

lemma toLE_slice {b:Bytes} {o:ℕ} (h:o+4≤b.length) : toLE 4 (getU32 b o)=slice b o 4 := by
 have hback:=toLE_fromLE (slice b o 4)
 rwa [slice_length _ _ _ h] at hback

lemma frame_of_accepted (h:¬Rejected max t) : Fits max (slice t kRecordHeaderBytes (getU32 t 0)) ∧
  t=frame (slice t kRecordHeaderBytes (getU32 t 0)) ++ t.drop (kRecordHeaderBytes+getU32 t 0) := by
 simp only [Rejected,not_or,not_lt] at h
 obtain ⟨hlong,hpos,hmax,hfit,hcrc⟩:=h
 have hlen:(slice t kRecordHeaderBytes (getU32 t 0)).length=getU32 t 0:=slice_length _ _ _ hfit
 refine ⟨⟨fun hnil=>hpos ?_,by rwa [hlen]⟩,?_⟩
 · rw [← hlen,hnil,length_nil]
 · simp only [kRecordHeaderBytes] at hlong
   rw [frame,hlen,toLE_slice (by omega),not_ne_iff.mp hcrc,toLE_slice (by omega),slice,slice,slice,
    drop_zero,← drop_drop,append_assoc,take_append_drop]
   have h8:t.take 4++(t.drop 4).take 4=t.take 8:=by
    rw [← take_add]
   rw [h8]
   exact (take_append_drop 8 t).symm

lemma rejected_torn (hmax:max<2^32) (hx:Fits max x) {n:ℕ} (hn:n<(frame x).length) : Rejected max ((frame x).take n) := by
 have hlen:((frame x).take n).length=n:=by
  rw [length_take]
  omega
 by_cases h8:n<kRecordHeaderBytes
 · exact Or.inl (by rw [hlen]; exact h8)
 · refine Or.inr (Or.inr (Or.inr (Or.inl ?_)))
   have hread:getU32 ((frame x).take n) 0=x.length:=by
    have hwhole:=getU32_frame (lt_of_le_of_lt hx.le hmax) []
    rw [append_nil] at hwhole
    rw [← hwhole,getU32,getU32,getLE,getLE]
    congr 1
    apply slice_ext
    intro i hi
    rw [getElem?_take_of_lt (by simp only [kRecordHeaderBytes] at h8; omega)]
   rw [hread,hlen]
   rwa [frame_length] at hn

lemma rejected_zeros {n:ℕ} (hn:4≤n) (t:Bytes) : Rejected max (replicate n 0++t) := by
 refine Or.inr (Or.inl ?_)
 rw [getU32,getLE,slice_append_left _ _ _ _ (by simpa using hn),slice,drop_zero,take_replicate,min_eq_left hn]
 rfl

lemma rejected_nil : Rejected max [] := Or.inl (by decide)

lemma frame_inj {y s:Bytes} (hx:x.length<2^32) (hy:y.length<2^32) (h:frame x++t=frame y++s) : x=y ∧ t=s := by
 have hlen:x.length=y.length:=by
  rw [← getU32_frame hx t,h,getU32_frame hy s]
 have hxy:x=y:=by
  rw [← (frame_parts x t).2.2,h,hlen,(frame_parts y s).2.2]
 subst hxy
 exact ⟨rfl,append_cancel_left h⟩

end Frames

/-- The bytes are those of the records `rs` and a rest where no record starts. -/
structure Scans (max:ℕ) (b:Bytes) (rs:List Bytes) (tail:Bytes) : Prop where
 bytes : b=framesOf rs++tail
 fits : ∀ x∈rs,Fits max x
 rejected : Rejected max tail

lemma Scans.unique {max:ℕ} (hmax:max<2^32) {b:Bytes} {rs ss:List Bytes} {t u:Bytes}
 (h:Scans max b rs t) (h':Scans max b ss u) : rs=ss ∧ t=u := by
 have hbytes:=h.bytes.symm.trans h'.bytes
 have hr:=h.rejected
 have hr':=h'.rejected
 have hf:=h.fits
 have hf':=h'.fits
 clear h h'
 induction rs generalizing ss with
 | nil=>
  cases ss with
  | nil=>exact ⟨rfl,hbytes⟩
  | cons y ss=>
   simp only [framesOf_nil,nil_append,framesOf_cons,append_assoc] at hbytes
   rw [hbytes] at hr
   exact absurd hr (not_rejected_frame hmax (hf' y mem_cons_self) _)
 | cons x rs ih=>
  cases ss with
  | nil=>
   simp only [framesOf_nil,nil_append,framesOf_cons,append_assoc] at hbytes
   rw [← hbytes] at hr'
   exact absurd hr' (not_rejected_frame hmax (hf x mem_cons_self) _)
  | cons y ss=>
   simp only [framesOf_cons,append_assoc] at hbytes
   have hx:=hf x mem_cons_self
   have hy:=hf' y mem_cons_self
   obtain ⟨rfl,hrest⟩:=frame_inj (lt_of_le_of_lt hx.le hmax) (lt_of_le_of_lt hy.le hmax) hbytes
   obtain ⟨rfl,rfl⟩:=ih hrest (fun z hz=>hf z (mem_cons_of_mem _ hz)) (fun z hz=>hf' z (mem_cons_of_mem _ hz))
   exact ⟨rfl,rfl⟩

end Archivum.JournalFormat
