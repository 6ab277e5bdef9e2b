import Archivum.RecoveryModel
import Archivum.VfsRules

set_option autoImplicit false

/-!
# Copies and digests of files

A copy that succeeds has the bytes of its source; one that fails has changed
nothing but its destination. The digest of a file is its size and checksum.
-/
namespace Archivum.RecoveryModel
open ByteStrings StatefulActions PageTxn PageFormat VfsModel List Act

/-- The disks differ at `p` only. -/
def OnlyAt (p:Path) (d d':Disk) : Prop := ∀ q,q≠p → d'.find q=d.find q

lemma onlyAt_put (p:Path) (d:Disk) (b:Bytes) : OnlyAt p d (d.put p b) :=
 fun _ hq=>Disk.find_put_of_ne d b hq

lemma onlyAt_refl (p:Path) (d:Disk) : OnlyAt p d d := fun _ _=>rfl

lemma take_append_slice (b:Bytes) (off l:ℕ) : b.take off++slice b off l=b.take (off+(slice b off l).length) := by
 rw [take_add,slice,length_take,length_drop]
 congr 1
 rcases Nat.le_total l (b.length-off) with h | h
 · rw [min_eq_left h]
 · rw [min_eq_right h,take_of_length_le (by rw [length_drop]; exact h),take_of_length_le (by rw [length_drop])]

lemma drop_eq_slice_append (b:Bytes) (off l:ℕ) : b.drop off=slice b off l++b.drop (off+(slice b off l).length) := by
 have h:=take_append_drop (off+(slice b off l).length) b
 rw [← take_append_slice,append_assoc] at h
 exact append_cancel_left ((take_append_drop off b).trans h.symm)

lemma slice_eq_nil_iff (b:Bytes) (off:ℕ) {l:ℕ} (hl:0<l) : slice b off l=[] ↔ b.length≤off := by
 rw [slice,take_eq_nil_iff,drop_eq_nil_iff]
 omega

section Rules
variable {F:Prop} {d:Disk} {src dst path:Path} {b:Bytes}

lemma copyBytes_rule (hsrc:d.find src=some b) (hne:src≠dst) (n off:ℕ) (hfuel:b.length≤off+n) :
 Act.Triple (Vfs.At F (d.put dst (b.take off))) (copyBytes src dst b.length n off)
  (fun _=>Vfs.At F (d.put dst b)) fun _=>Vfs.Failed F (OnlyAt dst d) := by
 induction n generalizing off with
 | zero=>
  rw [copyBytes,take_of_length_le (by omega)]
  exact Triple.pure fun _ h=>h
 | succ n ih=>
  rw [copyBytes]
  refine Triple.ite (fun hend=>?_) fun hmore=>?_
  · rw [take_of_length_le hend]
    exact Triple.pure fun _ h=>h
  · have hread:(d.put dst (b.take off)).find src=some b:=by
     rw [Disk.find_put_of_ne _ _ hne]
     exact hsrc
    refine Triple.bind ((read_rule hread off (2^16)).onError fun _ _ h=>
     h.imp fun _ hd=>hd ▸ onlyAt_put dst d _) fun buf=>Triple.fact fun hbuf=>?_
    subst hbuf
    rw [if_neg (by rw [slice_eq_nil_iff b off (by decide)]; exact hmore)]
    have hlen:(b.take off).length=off:=by
     rw [length_take]
     omega
    have hwrite:=write_rule (F:=F) (Disk.find_put_self d dst (b.take off)) off (slice b off (2^16))
    have hend:writeAt (b.take off) off (slice b off (2^16)) =
      b.take (off+(slice b off (2^16)).length):=by
     have:=writeAt_end (b.take off) (slice b off (2^16))
     rwa [hlen,take_append_slice] at this
    rw [Disk.put_put,hend] at hwrite
    refine Triple.bind (hwrite.onError fun _ _ h=>h.imp ?_) fun _=>ih _ ?_
    · rintro _ ⟨k,rfl⟩
      rw [Disk.put_put]
      exact onlyAt_put dst d _
    · have:slice b off (2^16)≠[]:=by
       rw [ne_eq,slice_eq_nil_iff b off (by decide)]
       exact hmore
      have:=length_pos_iff.mpr this
      omega

lemma copyFile_rule (hsrc:d.find src=some b) (hne:src≠dst) :
 Act.Triple (Vfs.At F d) (copyFile src dst) (fun _=>Vfs.At F (d.put dst b)) fun _=>Vfs.Failed F (OnlyAt dst d) := by
 have hself:∀ d',d'=d → OnlyAt dst d d':=fun _ h=>h ▸ onlyAt_refl dst d
 have hput:∀ c d',d'=d.put dst c → OnlyAt dst d d':=fun c _ h=>h ▸ onlyAt_put dst d c
 have hread:(d.put dst []).find src=some b:=by
  rw [Disk.find_put_of_ne _ _ hne]
  exact hsrc
 rw [copyFile]
 refine Triple.bind ((openFile_rule hsrc (by simp) rfl).onError fun _ _ h=>h.imp hself)
  fun _=>?_
 refine Triple.bind ((createFile_rule d dst).onError fun _ _ h=>h.imp hself) fun _=>?_
 refine Triple.bind ((size_rule hread).onError fun _ _ h=>h.imp (hput [])) fun size=>Triple.fact fun hsize=>?_
 subst hsize
 refine Triple.bind (copyBytes_rule hsrc hne b.length 0 (by omega)) fun _=>?_
 refine Triple.bind ((sync_rule dst).onError fun _ _ h=>h.imp (hput b)) fun _=>?_
 refine Triple.bind ((close_rule dst).onError fun _ _ h=>h.imp (hput b)) fun _=>?_
 exact (syncDirectory_rule _).onError fun _ _ h=>h.imp (hput b)

lemma digestBytes_rule (hf:d.find path=some b) (n off:ℕ) (crc:UInt32) (hfuel:b.length≤off+n) :
 Act.Triple (Vfs.At F d) (digestBytes path b.length n off crc)
  (fun r σ=>r=crc32cFrom crc (b.drop off) ∧ σ.At F d) fun _=>Vfs.Failed F (· = d) := by
 have hend:b.length≤off → crc=crc32cFrom crc (b.drop off):=by
  intro h
  rw [drop_eq_nil_of_le h,crc32cFrom,foldl_nil,UInt32.not_not]
 induction n generalizing off crc with
 | zero=>exact Triple.pure fun _ h=>⟨hend (by omega),h⟩
 | succ n ih=>
  rw [digestBytes]
  refine Triple.ite (fun hdone=>Triple.pure fun _ h=>⟨hend hdone,h⟩) fun hmore=>?_
  refine Triple.bind (read_rule hf off (2^16)) fun buf=>Triple.fact fun hbuf=>?_
  subst hbuf
  have hne:slice b off (2^16)≠[]:=by
   rw [ne_eq,slice_eq_nil_iff b off (by decide)]
   exact hmore
  have hpos:=length_pos_iff.mpr hne
  rw [if_neg hne]
  have hih:=ih (off+(slice b off (2^16)).length) (crc32cFrom crc (slice b off (2^16)))
   (by omega) (by
    intro h
    rw [drop_eq_nil_of_le h]
    simp [crc32cFrom])
  refine hih.post fun r σ h=>⟨?_,h.2⟩
  rw [h.1,drop_eq_slice_append b off (2^16),crc32cFrom_append]

lemma fileDigest_rule (hf:d.find path=some b) : Act.Triple (Vfs.At F d) (fileDigest path)
  (fun r σ=>r=⟨b.length,crc32c b⟩ ∧ σ.At F d) fun _=>Vfs.Failed F (· = d) := by
 rw [fileDigest]
 refine Triple.bind (openFile_rule hf (by simp) rfl) fun _=>?_
 refine Triple.bind (size_rule hf) fun size=>Triple.fact fun hsize=>?_
 subst hsize
 refine Triple.bind (digestBytes_rule hf b.length 0 0 (by omega))
  fun crc=>Triple.fact fun hcrc=>?_
 exact Triple.pure fun _ h=>⟨by rw [hcrc,drop_zero]; rfl,h⟩

end Rules

end Archivum.RecoveryModel
