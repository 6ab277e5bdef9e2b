import Archivum.ByteStrings
import Archivum.PageTxn

set_option autoImplicit false

/-!
# On-disk formats of the database file and the log

The page trailer, the database header in page 0, the log header and the log's
frame headers, with the checksums that seal them. Decoding what was encoded
gives it back; nothing else is needed of the checksum function.
-/
namespace Archivum.PageFormat
open ByteStrings PageTxn List

/-- One round of `make_table`. -/
def tableStep (c:UInt32) : UInt32 :=
 if c &&& 1=1 then (0x82F63B78:UInt32) ^^^ (c >>> 1) else c >>> 1

/-- `kTable[i]` -/
def kTable (i:UInt32) : UInt32 := tableStep^[8] i

def crc32cFrom (crc:UInt32) (data:Bytes) : UInt32 :=
 ~~~(data.foldl (fun c b=>kTable ((c ^^^ b.toUInt32) &&& 0xFF) ^^^ (c >>> 8)) (~~~crc))

def crc32c (data:Bytes) : UInt32 := crc32cFrom 0 data

lemma crc32cFrom_append (crc:UInt32) (a b:Bytes) : crc32cFrom crc (a++b)=crc32cFrom (crc32cFrom crc a) b := by
 rw [crc32cFrom,crc32cFrom,crc32cFrom,UInt32.not_not,foldl_append]

def pageBody (page:Bytes) : Bytes := page.take (page.length-kPageTrailerBytes)

def sealPage (page:Bytes) : Bytes :=
 patch page (page.length-kPageTrailerBytes) (toLE 4 (crc32c (pageBody page)).toNat)

def pageChecksumOk (page:Bytes) : Bool :=
 decide (kPageTrailerBytes+1 ≤ page.length) &&
  decide (getU32 page (page.length-kPageTrailerBytes)=(crc32c (pageBody page)).toNat)

@[simp] lemma sealPage_length (page:Bytes) : (sealPage page).length=page.length :=
 patch_length _ _ _

lemma toNat_lt_u32 (c:UInt32) : c.toNat<256^4 := c.toNat_lt

lemma slice_sealPage (page:Bytes) (o l:ℕ) (h:o+l≤page.length-kPageTrailerBytes) :
 slice (sealPage page) o l=slice page o l :=
 slice_patch_disjoint _ _ _ _ _ (Or.inl h)

lemma sealPage_ok (page:Bytes) (h:5≤page.length) : pageChecksumOk (sealPage page)=true := by
 have hbody:pageBody (sealPage page)=pageBody page:=by
  rw [pageBody,sealPage_length]
  simpa only [slice,drop_zero,pageBody] using
   slice_sealPage page 0 (page.length-kPageTrailerBytes) (by omega)
 have htrailer:getU32 (sealPage page) (page.length-kPageTrailerBytes) = (crc32c (pageBody page)).toNat:=
  getLE_putLE_self 4 page _ _ (by simp only [kPageTrailerBytes]; omega) (toNat_lt_u32 _)
 rw [pageChecksumOk,sealPage_length,hbody,decide_eq_true htrailer,Bool.and_true]
 exact decide_eq_true h

abbrev DbId := { b:Bytes // b.length=16 }

/-- `ARCHVDB1` -/
def dbHeaderMagic : Bytes := [65,82,67,72,86,68,66,49]

def kFormatVersion : ℕ := 3

/-- `DbHeader::kEncodedBytes` -/
def kDbHeaderBytes : ℕ := 72

structure DbHeader extends PageTxn.DbHeader where
 pageSize : ℕ
 formatVersion : ℕ := kFormatVersion
 changeCounter : ℕ := 0
 dbId : DbId
 commitTimeUs : ℤ := 0
 deriving DecidableEq

/-- The low 64 bits of an `int64_t`. -/
def int64Bits (v:ℤ) : ℕ := (v%2^64).toNat

/-- The `int64_t` with these bits. -/
def int64OfBits (n:ℕ) : ℤ := if n<2^63 then n else (n:ℤ)-2^64

lemma int64OfBits_bits (v:ℤ) (h : -2^63≤v) (h':v<2^63) : int64OfBits (int64Bits v)=v := by
 unfold int64OfBits int64Bits
 split_ifs <;> omega

lemma int64Bits_lt (v:ℤ) : int64Bits v<256^8 := by
 unfold int64Bits
 omega

def isPageSize (n:ℕ) : Bool :=
 decide (kMinPageSize ≤ n) && decide (n ≤ kMaxPageSize) && decide (n &&& (n-1)=0)

namespace DbHeader

/-- The header's fields in the order `encode` stores them. -/
def parts (h:DbHeader) : List Bytes :=
 [dbHeaderMagic,toLE 4 h.pageSize,toLE 4 h.formatVersion,toLE 8 h.pageCount,
  toLE 8 h.freelistHead,toLE 8 h.freelistCount,toLE 8 h.changeCounter,h.dbId.1,
  toLE 8 (int64Bits h.commitTimeUs)]

def bytes (h:DbHeader) : Bytes := h.parts.flatten

def encode (h:DbHeader) (page:Bytes) : Bytes := patch page 0 h.bytes

def fields (page:Bytes) (hlen:kDbHeaderBytes ≤ page.length) : DbHeader where
 pageSize := getU32 page 8
 formatVersion:=getU32 page 12
 pageCount:=getU64 page 16
 freelistHead:=getU64 page 24
 freelistCount:=getU64 page 32
 changeCounter:=getU64 page 40
 dbId:=⟨slice page 48 16,slice_length _ _ _ (by simp only [kDbHeaderBytes] at hlen; omega)⟩
 commitTimeUs:=int64OfBits (getU64 page 64)

def decode (page:Bytes) : Except Status DbHeader :=
 if hlen:kDbHeaderBytes ≤ page.length then
  let h:=fields page hlen
  if slice page 0 8≠dbHeaderMagic then .error (corrupt "database header magic mismatch")
  else if h.formatVersion≠kFormatVersion then
   .error ⟨.unsupported,"database format version " ++ toString h.formatVersion⟩
  else if ¬isPageSize h.pageSize then .error (corrupt "database header page size invalid")
  else if h.pageCount=0 then .error (corrupt "database header page count zero")
  else .ok h
 else .error (corrupt "database header too short")

/-- The header's fields fit the widths they are stored in, and its sizes are legal. -/
structure Fits (h:DbHeader) : Prop where
 pageSize : isPageSize h.pageSize=true
 version : h.formatVersion=kFormatVersion
 pageCount_pos : 0<h.pageCount
 pageCount : h.pageCount<2^64
 freelistHead : h.freelistHead<2^64
 freelistCount : h.freelistCount<2^64
 changeCounter : h.changeCounter<2^64
 time_ge : -2^63 ≤ h.commitTimeUs
 time_lt : h.commitTimeUs<2^63

lemma bytes_length (h:DbHeader) : h.bytes.length=kDbHeaderBytes := by
 simp only [bytes,parts,length_flatten,map_cons,map_nil,toLE_length,h.dbId.2]
 rfl

@[simp] lemma encode_length (h:DbHeader) (page:Bytes) : (h.encode page).length=page.length := patch_length _ _ _

lemma Fits.pageSize_le {h:DbHeader} (hf:h.Fits) : kMinPageSize≤h.pageSize ∧ h.pageSize≤kMaxPageSize := by
 have:=hf.pageSize
 simp only [isPageSize,Bool.and_eq_true,decide_eq_true_eq] at this
 exact this.1

lemma decode_of_bytes {h:DbHeader} (hf:h.Fits) {page:Bytes}
 (hlen:kDbHeaderBytes≤page.length) (hpage:slice page 0 kDbHeaderBytes=h.bytes) : decode page=.ok h := by
 have hps:=hf.pageSize_le
 simp only [kMinPageSize,kMaxPageSize] at hps
 have hfv:=hf.version
 have hsl:∀ o l,o+l≤kDbHeaderBytes → slice page o l=slice h.bytes o l:=by
  intro o l hol
  rw [← hpage,slice_slice _ _ _ _ _ hol,Nat.zero_add]
 have hget:∀ i n v o,o+n≤kDbHeaderBytes → h.parts[i]? = some (toLE n v) →
   (h.parts.take i).flatten.length=o → v<256^n → getLE n page o=v:=by
  intro i n v o hon hd ho hv
  rw [getLE,hsl o n hon]
  exact getLE_flatten h.parts i hd ho hv
 have hoff:∀ i,(h.parts.take i).flatten.length=([8,4,4,8,8,8,8,16,8].take i).sum:=by
  intro i
  rw [length_flatten,map_take]
  congr 2
  simp only [parts,map_cons,map_nil,toLE_length,h.dbId.2]
  rfl
 have hmagic:slice page 0 8=dbHeaderMagic:=by
  rw [hsl 0 8 (by decide)]
  exact slice_flatten h.parts 0 rfl rfl rfl
 have e1:=hget 1 4 h.pageSize 8 (by decide) rfl (hoff 1) (by omega)
 have e2:=hget 2 4 h.formatVersion 12 (by decide) rfl (hoff 2) (by rw [hfv]; decide)
 have e3:=hget 3 8 h.pageCount 16 (by decide) rfl (hoff 3) hf.pageCount
 have e4:=hget 4 8 h.freelistHead 24 (by decide) rfl (hoff 4) hf.freelistHead
 have e5:=hget 5 8 h.freelistCount 32 (by decide) rfl (hoff 5) hf.freelistCount
 have e6:=hget 6 8 h.changeCounter 40 (by decide) rfl (hoff 6) hf.changeCounter
 have e7:slice page 48 16=h.dbId.1:=by
  rw [hsl 48 16 (by decide)]
  exact slice_flatten h.parts 7 rfl (hoff 7) h.dbId.2
 have e8:=hget 8 8 (int64Bits h.commitTimeUs) 64 (by decide) rfl (hoff 8) (int64Bits_lt _)
 have hfields:fields page hlen=h:=by
  obtain ⟨⟨pc,fh,fc⟩,ps,fv,cc,⟨id,hid⟩,ct⟩:=h
  simp only [fields] at *
  simp only [e1,e2,e3,e4,e5,e6,e7,e8,int64OfBits_bits _ hf.time_ge hf.time_lt]
 rw [decode,dif_pos hlen,hfields,if_neg (by rw [hmagic]; simp),if_neg (by simp [hfv]),
  if_neg (by simp [hf.pageSize]),if_neg (Nat.ne_of_gt hf.pageCount_pos)]

/-- Page 0 as `commit` and `init` write it: the header over a zeroed page, sealed. -/
def page0 (h:DbHeader) : Bytes := sealPage (h.encode (replicate h.pageSize 0))

@[simp] lemma page0_length (h:DbHeader) : h.page0.length=h.pageSize := by
 rw [page0,sealPage_length,encode_length,length_replicate]

lemma decode_page0 {h:DbHeader} (hf:h.Fits) (n:ℕ) (hn:kDbHeaderBytes≤n) : decode (slice h.page0 0 n)=.ok h := by
 have hps:=hf.pageSize_le
 simp only [kMinPageSize,kMaxPageSize] at hps
 have hlen:=h.page0_length
 simp only [kDbHeaderBytes] at hn
 refine decode_of_bytes hf ?_ ?_
 · simp only [slice,length_take,length_drop,hlen,kDbHeaderBytes]
   omega
 · have hsub:kDbHeaderBytes≤h.pageSize-kPageTrailerBytes:=by
    simp only [kDbHeaderBytes,kPageTrailerBytes]
    omega
   rw [slice_slice _ _ _ _ _ (by simp only [kDbHeaderBytes]; omega),Nat.zero_add,page0,
    slice_sealPage _ _ _ (by simpa using hsub),encode,← h.bytes_length]
   refine slice_patch_self _ 0 _ ?_
   rw [h.bytes_length,length_replicate]
   omega

lemma page0_ok {h:DbHeader} (hf:h.Fits) : pageChecksumOk h.page0=true := by
 refine sealPage_ok _ ?_
 have:=hf.pageSize_le.1
 simp only [kMinPageSize] at this
 rw [encode_length,length_replicate]
 omega

end DbHeader

/-- `ARCHWAL1` -/
def walHeaderMagic : Bytes := [65,82,67,72,87,65,76,49]

/-- `WalHeader::kEncodedBytes` -/
def kWalHeaderBytes : ℕ := 48

structure WalHeader where
 pageSize : ℕ
 salt1 : UInt32
 salt2 : UInt32
 dbId : DbId
 baseChangeCounter : ℕ
 deriving DecidableEq

namespace WalHeader

def parts (h:WalHeader) : List Bytes :=
 [walHeaderMagic,toLE 4 h.pageSize,toLE 4 h.salt1.toNat,toLE 4 h.salt2.toNat,h.dbId.1,
  toLE 8 h.baseChangeCounter]

def chainSeed (h:WalHeader) : UInt32 := crc32c h.parts.flatten

def encode (h:WalHeader) : Bytes := h.parts.flatten++toLE 4 h.chainSeed.toNat

def decode (b:Bytes) : Except Status WalHeader :=
 if hlen:kWalHeaderBytes ≤ b.length then
  if slice b 0 8≠walHeaderMagic then .error (corrupt "WAL header magic mismatch")
  else if getU32 b 44≠(crc32c (slice b 0 44)).toNat then
   .error (corrupt "WAL header checksum mismatch")
  else
   .ok
    { pageSize:=getU32 b 8
      salt1:=UInt32.ofNat (getU32 b 12)
      salt2:=UInt32.ofNat (getU32 b 16)
      dbId:=⟨slice b 20 16,slice_length _ _ _ (by simp only [kWalHeaderBytes] at hlen; omega)⟩
      baseChangeCounter:=getU64 b 36 }
 else .error (corrupt "WAL header too short")

structure Fits (h:WalHeader) : Prop where
 pageSize : h.pageSize<2^32
 base : h.baseChangeCounter<2^64

lemma parts_length (h:WalHeader) : h.parts.flatten.length=44 := by
 simp only [parts,length_flatten,map_cons,map_nil,toLE_length,h.dbId.2]
 rfl

@[simp] lemma encode_length (h:WalHeader) : h.encode.length=kWalHeaderBytes := by
 rw [encode,length_append,h.parts_length,toLE_length]
 rfl

lemma decode_encode {h:WalHeader} (hf:h.Fits) : decode h.encode=.ok h := by
 have hlen:kWalHeaderBytes≤h.encode.length:=h.encode_length.ge
 have hsl:∀ o l,o+l≤44 → slice h.encode o l=slice h.parts.flatten o l:=by
  intro o l hol
  exact slice_append_left _ _ _ _ (by rw [h.parts_length]; exact hol)
 have hoff:∀ i,(h.parts.take i).flatten.length=([8,4,4,4,16,8].take i).sum:=by
  intro i
  rw [length_flatten,map_take]
  congr 2
  simp only [parts,map_cons,map_nil,toLE_length,h.dbId.2]
  rfl
 have hget:∀ i n v o,o+n≤44 → h.parts[i]? = some (toLE n v) →
   ([8,4,4,4,16,8].take i).sum=o → v<256^n → getLE n h.encode o=v:=by
  intro i n v o hon hd ho hv
  rw [getLE,hsl o n hon]
  exact getLE_flatten h.parts i hd (ho ▸ hoff i) hv
 have hmagic:slice h.encode 0 8=walHeaderMagic:=by
  rw [hsl 0 8 (by decide)]
  exact slice_flatten h.parts 0 rfl rfl rfl
 have e1:=hget 1 4 h.pageSize 8 (by decide) rfl rfl hf.pageSize
 have e2:=hget 2 4 h.salt1.toNat 12 (by decide) rfl rfl (toNat_lt_u32 _)
 have e3:=hget 3 4 h.salt2.toNat 16 (by decide) rfl rfl (toNat_lt_u32 _)
 have e4:slice h.encode 20 16=h.dbId.1:=by
  rw [hsl 20 16 (by decide)]
  exact slice_flatten h.parts 4 rfl (hoff 4) h.dbId.2
 have e5:=hget 5 8 h.baseChangeCounter 36 (by decide) rfl rfl hf.base
 have hbody:slice h.encode 0 44=h.parts.flatten:=by
  rw [hsl 0 44 le_rfl,← h.parts_length,slice_all]
 have hcrc:getU32 h.encode 44=(crc32c (slice h.encode 0 44)).toNat:=by
  rw [hbody]
  have:=getLE_middle 4 h.chainSeed.toNat h.parts.flatten [] 44 h.parts_length (toNat_lt_u32 _)
  rwa [append_nil] at this
 rw [decode,dif_pos hlen,if_neg (by rw [hmagic]; simp),if_neg (by rw [hcrc]; simp)]
 obtain ⟨ps,s1,s2,⟨id,hid⟩,bc⟩:=h
 simp only [e1,e2,e3,e4,e5,UInt32.ofNat_toNat]

end WalHeader

/-- `WalFrameHeader::kEncodedBytes` -/
def kFrameHeaderBytes : ℕ := 32

structure WalFrameHeader where
 pageNo : ℕ
 dbSizeAfterCommit : ℕ
 salt1 : UInt32
 salt2 : UInt32
 deriving DecidableEq

/-- `chained_checksum`: over the previous frame's checksum, the header with the checksum field
zeroed, and the page. -/
def chainedChecksum (header page:Bytes) (previous:UInt32) : UInt32 :=
 crc32cFrom (crc32cFrom (crc32c (toLE 4 previous.toNat)) header) page

namespace WalFrameHeader

def parts (h:WalFrameHeader) : List Bytes :=
 [toLE 8 h.pageNo,toLE 8 h.dbSizeAfterCommit,toLE 4 h.salt1.toNat,toLE 4 h.salt2.toNat,
  toLE 4 0,toLE 4 0]

/-- The checksum `encode` computes and stores. -/
def checksum (h:WalFrameHeader) (page:Bytes) (previous:UInt32) : UInt32 :=
 chainedChecksum h.parts.flatten page previous

def encode (h:WalFrameHeader) (page:Bytes) (previous:UInt32) : Bytes :=
 putU32 h.parts.flatten 24 (h.checksum page previous).toNat

def decode (b page:Bytes) (previous:UInt32) : Except Status (WalFrameHeader × UInt32) :=
 if b.length<kFrameHeaderBytes then .error (corrupt "WAL frame header too short")
 else
  let copy:=slice b 0 kFrameHeaderBytes
  let c:=chainedChecksum (putU32 copy 24 0) page previous
  if c.toNat≠getU32 copy 24 then .error (corrupt "WAL frame checksum mismatch")
  else
   .ok (⟨getU64 copy 0,getU64 copy 8,UInt32.ofNat (getU32 copy 16),
    UInt32.ofNat (getU32 copy 20)⟩,c)

structure Fits (h:WalFrameHeader) : Prop where
 pageNo : h.pageNo<2^64
 dbSize : h.dbSizeAfterCommit<2^64

lemma parts_length (h:WalFrameHeader) : h.parts.flatten.length=kFrameHeaderBytes := by
 simp only [parts,length_flatten,map_cons,map_nil,toLE_length]
 rfl

@[simp] lemma encode_length (h:WalFrameHeader) (page:Bytes) (previous:UInt32) :
 (h.encode page previous).length=kFrameHeaderBytes := by
 rw [encode,putLE_length,h.parts_length]

lemma decode_encode {h:WalFrameHeader} (hf:h.Fits) (page:Bytes) (previous:UInt32) :
 decode (h.encode page previous) page previous=.ok (h,h.checksum page previous) := by
 have hlen:=h.parts_length
 have hcopy:slice (h.encode page previous) 0 kFrameHeaderBytes=h.encode page previous:=by
  rw [← h.encode_length page previous,slice_all]
 have hzero:putU32 (h.encode page previous) 24 0=h.parts.flatten:=by
  have hsplit:h.parts.flatten=(h.parts.take 4).flatten++toLE 4 0++toLE 4 0:=rfl
  have hoff:(h.parts.take 4).flatten.length=24:=rfl
  have henc:h.encode page previous=(h.parts.take 4).flatten ++
    toLE 4 (h.checksum page previous).toNat++toLE 4 0:=by
   rw [encode,putU32,putLE,hsplit]
   exact patch_middle _ _ _ _ 24 hoff (by rw [toLE_length,toLE_length])
  rw [henc,putU32,putLE,hsplit]
  exact patch_middle _ _ _ _ 24 hoff (by rw [toLE_length,toLE_length])
 have hsum:getU32 (h.encode page previous) 24=(h.checksum page previous).toNat:=
  getLE_putLE_self 4 _ 24 _ (by rw [hlen]; decide) (toNat_lt_u32 _)
 have hget:∀ i n v o,o+n≤24 → h.parts[i]? = some (toLE n v) → (h.parts.take i).flatten.length=o → v<256^n →
   getLE n (h.encode page previous) o=v:=by
  intro i n v o hon hd ho hv
  rw [encode,putU32,getLE_putLE_disjoint n 4 _ 24 _ o (Or.inl hon)]
  exact getLE_flatten h.parts i hd ho hv
 have e1:=hget 0 8 h.pageNo 0 (by decide) rfl rfl hf.pageNo
 have e2:=hget 1 8 h.dbSizeAfterCommit 8 (by decide) rfl rfl hf.dbSize
 have e3:=hget 2 4 h.salt1.toNat 16 (by decide) rfl rfl (toNat_lt_u32 _)
 have e4:=hget 3 4 h.salt2.toNat 20 (by decide) rfl rfl (toNat_lt_u32 _)
 rw [decode,if_neg (by rw [encode_length]; exact lt_irrefl _)]
 simp only [hcopy,hzero,hsum,e1,e2,e3,e4,UInt32.ofNat_toNat]
 exact if_neg (not_not_intro rfl)

end WalFrameHeader

end Archivum.PageFormat
