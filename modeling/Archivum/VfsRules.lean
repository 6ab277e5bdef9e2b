import Archivum.ActionRules
import Archivum.VfsModel

set_option autoImplicit false

/-!
# What each file system operation does, with and without faults

The triples are stated once for both readings. `F` says whether faults may
happen: where they may, an operation that fails leaves one of a few disks or has
lost power, after which everything fails; where they may not, it succeeds.
-/
namespace Archivum.VfsModel
open ByteStrings StatefulActions PageTxn

/-- The process sees the disk `d`; where faults may happen, the power may be gone instead. -/
def Vfs.At (F:Prop) (d:Disk) (σ:Vfs) : Prop :=
 (F ∧ σ.crashed=true) ∨ (σ.files=d ∧ (F ∨ σ.Calm))

/-- After an operation that failed: the power is gone or the process sees a disk in `D`. -/
def Vfs.Failed (F:Prop) (D:Disk → Prop) (σ:Vfs) : Prop :=
 F ∧ (σ.crashed=true ∨ D σ.files)

lemma Vfs.Calm.at {σ:Vfs} (h:σ.Calm) (F:Prop) : σ.At F σ.files := Or.inr ⟨rfl,Or.inr h⟩

lemma Vfs.at_true (σ:Vfs) : σ.At True σ.files := Or.inr ⟨rfl,Or.inl trivial⟩

lemma Vfs.Failed.at {F:Prop} {d:Disk} {σ:Vfs} (h:σ.Failed F (· = d)) : σ.At F d :=
 h.2.elim (fun hc=>Or.inl ⟨h.1,hc⟩) fun hd=>Or.inr ⟨hd,Or.inl h.1⟩

lemma Vfs.Failed.imp {F:Prop} {D D':Disk → Prop} {σ:Vfs} (h:σ.Failed F D)
 (hD:∀ d,D d → D' d) : σ.Failed F D' := ⟨h.1,h.2.imp_right (hD _)⟩

lemma Vfs.At.files {F:Prop} {d:Disk} {σ:Vfs} (h:σ.At F d) (halive:σ.crashed=false) : σ.files=d := by
 rcases h with ⟨-,hc⟩ | ⟨hd,-⟩
 · rw [halive] at hc
   cases hc
 · exact hd

lemma Vfs.At.calm {d:Disk} {σ:Vfs} (h:σ.At False d) : σ.files=d ∧ σ.Calm :=
 h.elim (fun hc=>hc.1.elim) fun hd=>⟨hd.1,hd.2.resolve_left id⟩

section Rules
variable {F:Prop} {d:Disk} {α:Type}

lemma operation_rule {what:String} {failed:ℕ → Vfs → Vfs} {cut:Vfs → Vfs} {act:VfsM α}
 {Q:α → Vfs → Prop} {D:Disk → Prop} (hact:∀ σ:Vfs,σ.files=d → (F ∨ σ.Calm) → ∃ a σ',act σ=(.ok a,σ') ∧ Q a σ')
 (hfailed:∀ n σ,σ.files=d → D (failed n σ).files) :
 Act.Triple (Vfs.At F d) (operation what failed cut act) Q fun _=>Vfs.Failed F D := by
 intro σ hσ
 rw [operation]
 rcases hσ with ⟨hF,hc⟩ | ⟨hd,hcalm⟩
 · rw [if_pos hc]
   exact ⟨hF,Or.inl hc⟩
 · by_cases hc:σ.crashed=true
   · rw [if_pos hc]
     refine ⟨hcalm.elim id fun h=>?_,Or.inl hc⟩
     rw [h.alive] at hc
     cases hc
   · rw [if_neg hc]
     have hF:∀ x ds,σ.decisions=x::ds → F:=by
      intro x ds hx
      refine hcalm.elim id fun h=>?_
      rw [h.quiet] at hx
      cases hx
     rcases hdec:σ.decisions with _ | ⟨x,ds⟩
     · obtain ⟨a,σ',hrun,hq⟩:=hact σ hd hcalm
       simp only [hrun]
       exact hq
     · cases x with
       | proceed=>
        obtain ⟨a,σ',hrun,hq⟩:=hact { σ with decisions:=ds } hd (Or.inl (hF _ _ hdec))
        simp only [hrun]
        exact hq
       | fail n=>exact ⟨hF _ _ hdec,Or.inr (hfailed n { σ with decisions:=ds } hd)⟩
       | crash survivors=>exact ⟨hF _ _ hdec,Or.inl rfl⟩

lemma plainOperation_rule {what:String} {act:VfsM α} {Q:α → Vfs → Prop}
 (hact:∀ σ:Vfs,σ.files=d → (F ∨ σ.Calm) → ∃ a σ',act σ=(.ok a,σ') ∧ Q a σ') :
 Act.Triple (Vfs.At F d) (plainOperation what act) Q fun _=>Vfs.Failed F (· = d) :=
 operation_rule hact fun _ _ h=>h

variable {path:Path} {b:Bytes}

lemma Vfs.at_of_files {σ:Vfs} (hd:σ.files=d) (h:F ∨ σ.Calm) : σ.At F d := Or.inr ⟨hd,h⟩

lemma Vfs.at_mutate {σ:Vfs} (op:PendingOp) (p:Path) (d':Disk) (h:F ∨ σ.Calm) :
 (σ.mutate op p d').At F d' := Or.inr ⟨rfl,h.imp_right fun hc=>hc.mutate _ _ _⟩

lemma pathExists_rule (path:Path) : Act.Triple (Vfs.At F d) (Vfs.pathExists path)
  (fun r σ=>r=(d.find path).isSome ∧ σ.At F d) fun _=>Vfs.Failed F (· = d) :=
 plainOperation_rule fun σ hd h=>
  ⟨_,σ,rfl,congrArg (fun d=>(Disk.find d path).isSome) hd,Vfs.at_of_files hd h⟩

lemma list_rule (dir:Path) : Act.Triple (Vfs.At F d) (Vfs.list dir)
  (fun r σ=>r=d.list dir ∧ σ.At F d) fun _=>Vfs.Failed F (· = d) :=
 plainOperation_rule fun σ hd h=>
  ⟨_,σ,rfl,congrArg (Disk.list · dir) hd,Vfs.at_of_files hd h⟩

lemma operation_ok_inv {what:String} {failed:ℕ → Vfs → Vfs} {cut:Vfs → Vfs} {act:VfsM α}
  {σ σ':Vfs} {a:α} (h:operation what failed cut act σ=(.ok a,σ')) :
  ∃ ds,act { σ with decisions:=ds }=(.ok a,σ') := by
 rw [operation] at h
 split at h
 · cases h
 · split at h
   · exact ⟨σ.decisions,h⟩
   · exact ⟨_,h⟩
   · cases h
   · cases h

lemma list_error {dir:Path} {σ σ':Vfs} {e:Status} (h:Vfs.list dir σ=(.error e,σ')) : e.code≠.notFound := by
 rw [Vfs.list,plainOperation,operation] at h
 split at h
 · cases h
   exact ErrorCode.noConfusion
 · split at h
   · cases h
   · cases h
   · cases h
     exact ErrorCode.noConfusion
   · cases h
     exact ErrorCode.noConfusion

lemma close_rule (path:Path) : Act.Triple (Vfs.At F d) (File.close path) (fun _=>Vfs.At F d) fun _=>Vfs.Failed F (· = d) :=
 plainOperation_rule fun σ hd h=>⟨_,σ,rfl,Vfs.at_of_files hd h⟩

lemma sync_rule (path:Path) : Act.Triple (Vfs.At F d) (File.sync path) (fun _=>Vfs.At F d) fun _=>Vfs.Failed F (· = d) :=
 plainOperation_rule fun _ hd h=>
  ⟨_,_,rfl,Vfs.at_of_files hd (h.imp_right fun hc=>hc.persist _)⟩

lemma syncDirectory_rule (dir:Path) : Act.Triple (Vfs.At F d) (Vfs.syncDirectory dir) (fun _=>Vfs.At F d)
  fun _=>Vfs.Failed F (· = d) :=
 plainOperation_rule fun _ hd h=>
  ⟨_,_,rfl,Vfs.at_of_files hd (h.imp_right fun hc=>hc.persist _)⟩

lemma read_rule (hf:d.find path=some b) (off len:ℕ) : Act.Triple (Vfs.At F d) (File.read path off len)
  (fun r σ=>r=slice b off len ∧ σ.At F d) fun _=>Vfs.Failed F (· = d) := by
 refine plainOperation_rule fun σ hd h=>⟨slice b off len,σ,?_,rfl,Vfs.at_of_files hd h⟩
 rw [hd,hf]

lemma size_rule (hf:d.find path=some b) : Act.Triple (Vfs.At F d) (File.size path)
  (fun r σ=>r=b.length ∧ σ.At F d) fun _=>Vfs.Failed F (· = d) := by
 refine plainOperation_rule fun σ hd h=>⟨b.length,σ,?_,rfl,Vfs.at_of_files hd h⟩
 rw [hd,hf]

lemma openFile_rule (hf:d.find path=some b) {flags:OpenFlags}
 (hc:flags.create=true → flags.write=true) (ht:flags.truncate=false) :
 Act.Triple (Vfs.At F d) (Vfs.openFile path flags) (fun _=>Vfs.At F d) fun _=>Vfs.Failed F (· = d) := by
 refine plainOperation_rule fun σ hd h=>⟨(),σ,?_,Vfs.at_of_files hd h⟩
 rw [if_neg (fun hx=>hx.2 (hc hx.1)),if_neg (by simp [ht]),hd,hf]
 simp [ht]

lemma createFile_rule (d:Disk) (path:Path) :
  Act.Triple (Vfs.At F d) (Vfs.openFile path { write:=true,create:=true,truncate:=true })
   (fun _=>Vfs.At F (d.put path [])) fun _=>Vfs.Failed F (· = d) := by
 refine plainOperation_rule fun σ hd h=>?_
 cases hf:d.find path with
 | none=>
  refine ⟨(),_,?_,Vfs.at_mutate (.create path) path (d.put path []) h⟩
  rw [if_neg (by simp),if_neg (by simp),hd,hf]
  rfl
 | some b=>
  refine ⟨(),_,?_,Vfs.at_mutate (.truncate path 0) path (d.put path []) h⟩
  rw [if_neg (by simp),if_neg (by simp),hd,hf]
  rfl

lemma write_rule (hf:d.find path=some b) (off:ℕ) (data:Bytes) : Act.Triple (Vfs.At F d) (File.write path off data)
  (fun _=>Vfs.At F (d.put path (writeAt b off data)))
  fun _=>Vfs.Failed F fun d'=>∃ n,d'=d.put path (writeAt b off (data.take n)) := by
 refine operation_rule (fun σ hd h=>⟨(),σ.mutate (.write path off data) path
  (d.put path (writeAt b off data)),?_,Vfs.at_mutate _ _ _ h⟩) fun n σ hd=>⟨n,?_⟩
 · simp only [hd,hf,File.recordWrite]
 · simp only [File.recordWrite,hd,hf,Vfs.mutate_files]

lemma truncate_rule (hf:d.find path=some b) (n:ℕ) : Act.Triple (Vfs.At F d) (File.truncate path n)
  (fun _=>Vfs.At F (d.put path (resize b n))) fun _=>Vfs.Failed F (· = d) := by
 refine plainOperation_rule fun σ hd h=>⟨(),_,?_,Vfs.at_mutate (.truncate path n) path _ h⟩
 rw [hd,hf]

lemma rename_rule {src dst:Path} (hf:d.find src=some b) : Act.Triple (Vfs.At F d) (Vfs.rename src dst)
  (fun _=>Vfs.At F ((d.remove src).put dst b)) fun _=>Vfs.Failed F (· = d) := by
 refine plainOperation_rule fun σ hd h=>
  ⟨(),{ σ.mutate (.rename src dst) dst ((d.remove src).put dst b) with
   touched:=src::dst::σ.touched },?_,?_⟩
 · have hsome:(σ.files.find src).isSome=true:=by rw [hd,hf]; rfl
   rw [if_pos hsome,hd,Disk.rename,hf]
 · exact Or.inr ⟨rfl,h.imp_right fun hc=>⟨hc.alive,hc.quiet⟩⟩

lemma operation_alive {what:String} {failed:ℕ → Vfs → Vfs} {cut:Vfs → Vfs} {act:VfsM α}
 (hact:∀ σ a σ',act σ=(.ok a,σ') → σ'.crashed=σ.crashed) :
 Act.Triple (fun _=>True) (operation what failed cut act) (fun _ σ=>σ.crashed=false) fun _ _=>True := by
 intro σ _
 rw [operation]
 by_cases hc:σ.crashed=true
 · rw [if_pos hc]
   trivial
 · rw [if_neg hc]
   have hend:Act.Triple (fun τ:Vfs=>τ.crashed=σ.crashed) act
     (fun _ σ'=>σ'.crashed=false) fun _ _=>True:=by
    intro τ hτ
    rcases hrun:act τ with ⟨r,σ'⟩
    cases r with
    | ok a=>exact ((hact τ a σ' hrun).trans hτ).trans (Bool.eq_false_of_not_eq_true hc)
    | error e=>trivial
   rcases σ.decisions with _ | ⟨x,ds⟩
   · exact hend σ rfl
   · cases x with
     | proceed=>exact hend { σ with decisions:=ds } rfl
     | fail n=>trivial
     | crash survivors=>trivial

lemma syncDirectory_alive (dir:Path) : Act.Triple (fun _=>True) (Vfs.syncDirectory dir) (fun _ σ=>σ.crashed=false)
  fun _ _=>True := by
 refine operation_alive fun σ a σ' h=>?_
 cases h
 rfl

end Rules

end Archivum.VfsModel
