import Archivum.ActionRules
import Archivum.VfsModel

set_option autoImplicit false

/-!
# What an action may touch

The footprint of an action: the files it may change, whatever faults happen on
the way. Outside it every file keeps its bytes, unless the power is lost, after
which nothing happens any more.
-/
namespace Archivum.Footprints
open ByteStrings StatefulActions PageTxn VfsModel Act

structure Steady (σ:Vfs) : Prop where
 alive : σ.crashed=false
 uncut : ∀ survivors,Decision.crash survivors ∉ σ.decisions

/-- From `σ` to `σ'` only files in `S` were touched. -/
structure Frame (S:Path → Prop) (σ σ':Vfs) : Prop where
 steady : Steady σ → Steady σ'
 dead : σ.crashed=true → σ'.crashed=true
 files : σ'.crashed=true ∨ ∀ q,¬S q → σ'.files.find q=σ.files.find q
 touched : ∃ new,σ'.touched=new++σ.touched ∧ ∀ q∈new,S q

namespace Frame

variable {S T:Path → Prop} {σ σ' σ'':Vfs}

lemma refl (σ:Vfs) : Frame S σ σ := ⟨id,id,Or.inr fun _ _=>rfl,[],rfl,by simp⟩

lemma trans (h:Frame S σ σ') (h':Frame S σ' σ'') : Frame S σ σ'' where
 steady hσ := h'.steady (h.steady hσ)
 dead hc:=h'.dead (h.dead hc)
 files:=by
  rcases h'.files with hc | hf'
  · exact Or.inl hc
  · rcases h.files with hc | hf
    · exact Or.inl (h'.dead hc)
    · exact Or.inr fun q hq=>(hf' q hq).trans (hf q hq)
 touched:=by
  obtain ⟨new,hnew,hS⟩:=h.touched
  obtain ⟨new',hnew',hS'⟩:=h'.touched
  refine ⟨new'++new,by rw [hnew',hnew,List.append_assoc],fun q hq=>?_⟩
  exact (List.mem_append.mp hq).elim (hS' q) (hS q)

lemma mono (h:Frame S σ σ') (hST:∀ q,S q → T q) : Frame T σ σ' where
 steady := h.steady
 dead:=h.dead
 files:=h.files.imp_right fun hf q hq=>hf q fun hs=>hq (hST q hs)
 touched:=by
  obtain ⟨new,hnew,hS⟩:=h.touched
  exact ⟨new,hnew,fun q hq=>hST q (hS q hq)⟩

lemma persist (σ:Vfs) (q:PendingOp → Bool) : Frame S σ (σ.persist q) :=
 ⟨fun h=>⟨h.alive,h.uncut⟩,id,Or.inr fun _ _=>rfl,[],rfl,by simp⟩

lemma draw (σ:Vfs) (n:ℕ) : Frame S σ { σ with drawn:=n } :=
 ⟨fun h=>⟨h.alive,h.uncut⟩,id,Or.inr fun _ _=>rfl,[],rfl,by simp⟩

lemma decide {x:Decision} {ds:List Decision} (h:σ.decisions=x::ds) :
  Frame S σ { σ with decisions:=ds } := by
 refine ⟨fun hσ=>⟨hσ.alive,fun survivors hmem=>?_⟩,id,Or.inr fun _ _=>rfl,[],rfl,by simp⟩
 refine hσ.uncut survivors ?_
 rw [h]
 exact List.mem_cons_of_mem _ hmem

lemma mutate (σ:Vfs) (op:PendingOp) {p:Path} {d:Disk} (hp:S p)
 (hd:∀ q,¬S q → d.find q=σ.files.find q) : Frame S σ (σ.mutate op p d) :=
 ⟨fun h=>⟨h.alive,h.uncut⟩,id,Or.inr hd,[p],rfl,by simpa using hp⟩

lemma crash (h:Frame S σ σ') (survivors:List (ℕ × ℕ)) (hσ:¬Steady σ) : Frame S σ (σ'.crash survivors) :=
 ⟨fun hs=>(hσ hs).elim,fun _=>rfl,Or.inl rfl,h.touched⟩

end Frame

instance (S:Path → Prop) : IsPreorder Vfs (Frame S) where
 refl := Frame.refl
 trans _ _ _:=Frame.trans

/-- The action touches only files in `S`, from every state. -/
def Within {α:Type} (S:Path → Prop) (m:VfsM α) : Prop := ∀ σ,Act.Follows (Frame S) m σ

section Operations
variable {α β:Type} {S:Path → Prop} {path:Path}

lemma Within.pure (a:α) : Within S (Pure.pure a:VfsM α) := fun _=>Follows.pure a

lemma Within.fail (e:Status) : Within S (fail e:VfsM α) := fun _=>Follows.fail e

lemma Within.bind {m:VfsM α} {f:α → VfsM β} (hm:Within S m) (hf:∀ a,Within S (f a)) :
 Within S (m >>= f) := fun σ=>(hm σ).bind fun a s' _=>hf a s'

lemma Within.ite {c:Prop} [Decidable c] {m m':VfsM α} (ht:Within S m) (hf:Within S m') :
 Within S (if c then m else m') := fun σ=>Follows.ite (fun _=>ht σ) fun _=>hf σ

lemma Within.attempt {m:VfsM α} (hm:Within S m) : Within S (attempt m) :=
 fun σ=>(hm σ).attempt

lemma Within.onlyIf {c:Prop} [Decidable c] {m:VfsM Unit} (hm:Within S m) : Within S (onlyIf c m) := fun σ=>(hm σ).onlyIf

lemma Within.operation {what:String} {failed:ℕ → Vfs → Vfs} {cut:Vfs → Vfs} {act:VfsM α}
 (hact:Within S act) (hfailed:∀ n σ,Frame S σ (failed n σ))
 (hcut:∀ σ,Frame S σ (cut σ)) : Within S (operation what failed cut act) := by
 intro σ
 rw [Act.Follows,VfsModel.operation]
 split
 · exact Frame.refl _
 · split
   · exact hact σ
   · rename_i hds
     exact (Frame.decide hds).trans (hact _)
   · rename_i hds
     exact (Frame.decide hds).trans (hfailed _ _)
   · rename_i survivors _ hds
     refine ((Frame.decide hds).trans (hcut _)).crash _ fun hσ=>hσ.uncut survivors ?_
     rw [hds]
     exact List.mem_cons_self

lemma Within.plain {what:String} {act:VfsM α} (hact:Within S act) : Within S (plainOperation what act) :=
 Within.operation hact (fun _ σ=>Frame.refl σ) fun σ=>Frame.refl σ

lemma pathExists_within (path:Path) : Within S (Vfs.pathExists path) :=
 Within.plain fun σ=>Frame.refl σ

lemma list_within (dir:Path) : Within S (Vfs.list dir) := Within.plain fun σ=>Frame.refl σ

lemma close_within (path:Path) : Within S (File.close path) := Within.plain fun σ=>Frame.refl σ

lemma sync_within (path:Path) : Within S (File.sync path) :=
 Within.plain fun σ=>Frame.persist σ _

lemma syncDirectory_within (dir:Path) : Within S (Vfs.syncDirectory dir) :=
 Within.plain fun σ=>Frame.persist σ _

lemma read_within (path:Path) (off len:ℕ) : Within S (File.read path off len) := by
 refine Within.plain fun σ=>?_
 simp only [Act.Follows]
 cases σ.files.find path <;> exact Frame.refl σ

lemma size_within (path:Path) : Within S (File.size path) := by
 refine Within.plain fun σ=>?_
 simp only [Act.Follows]
 cases σ.files.find path <;> exact Frame.refl σ

lemma find_put_outside (hp:S path) (d:Disk) (b:Bytes) {q:Path} (hq:¬S q) : (d.put path b).find q=d.find q := by
 refine Disk.find_put_of_ne d b ?_
 rintro rfl
 exact hq hp

lemma recordWrite_frame (hp:S path) (off:ℕ) (data:Bytes) (σ:Vfs) : Frame S σ (File.recordWrite path off data σ) := by
 rw [File.recordWrite]
 cases σ.files.find path with
 | none=>exact Frame.refl σ
 | some b=>exact Frame.mutate σ _ hp fun q hq=>find_put_outside hp _ _ hq

lemma write_within (hp:S path) (off:ℕ) (data:Bytes) : Within S (File.write path off data) := by
 refine Within.operation (fun σ=>?_) (fun n=>recordWrite_frame hp off _) (recordWrite_frame hp off _)
 simp only [Act.Follows]
 cases σ.files.find path with
 | none=>exact Frame.refl σ
 | some b=>exact recordWrite_frame hp off data σ

lemma truncate_within (hp:S path) (n:ℕ) : Within S (File.truncate path n) := by
 refine Within.plain fun σ=>?_
 simp only [Act.Follows]
 cases σ.files.find path with
 | none=>exact Frame.refl σ
 | some b=>exact Frame.mutate σ _ hp fun q hq=>find_put_outside hp _ _ hq

lemma openFile_within (hp:S path) (flags:OpenFlags) : Within S (Vfs.openFile path flags) := by
 refine Within.plain fun σ=>?_
 have hput:∀ op,Frame S σ (σ.mutate op path (σ.files.put path [])):=fun op=>
  Frame.mutate σ op hp fun q hq=>find_put_outside hp _ _ hq
 simp only [Act.Follows]
 cases σ.files.find path with
 | none=>
  dsimp only
  split_ifs
  · exact Frame.refl σ
  · exact Frame.refl σ
  · exact hput _
  · exact Frame.refl σ
 | some b=>
  dsimp only
  split_ifs
  · exact Frame.refl σ
  · exact Frame.refl σ
  · exact hput _
  · exact Frame.refl σ

lemma openRead_within (path:Path) : Within S (Vfs.openFile path {}) := by
 refine Within.plain fun σ=>?_
 simp only [Act.Follows]
 cases σ.files.find path <;> exact Frame.refl σ

lemma remove_within (hp:S path) : Within S (Vfs.remove path) := by
 refine Within.plain fun σ=>?_
 simp only [Act.Follows]
 split_ifs
 · refine Frame.mutate σ _ hp fun q hq=>Disk.find_remove_of_ne _ ?_
   rintro rfl
   exact hq hp
 · exact Frame.refl σ

lemma rename_within {src dst:Path} (hs:S src) (hd:S dst) : Within S (Vfs.rename src dst) := by
 refine Within.plain fun σ=>?_
 simp only [Act.Follows]
 split_ifs with hsome
 · obtain ⟨b,hb⟩:=Option.isSome_iff_exists.mp hsome
   refine ⟨fun h=>⟨h.alive,h.uncut⟩,id,Or.inr fun q hq=>?_,[src,dst],rfl,?_⟩
   · change (σ.files.rename src dst).find q=_
     rw [Disk.rename,hb]
     have hqs:q≠src:=by
      rintro rfl
      exact hq hs
     rw [find_put_outside hd _ _ hq,Disk.find_remove_of_ne _ hqs]
   · simp [hs,hd]
 · exact Frame.refl σ

lemma randomBytes_within (n:ℕ) : Within S (randomBytes n) := fun σ=>Frame.draw σ _

lemma initEntropy_within : Within S initEntropy := Within.plain fun σ=>Frame.refl σ

end Operations

def facing (ds:List Decision) (σ:Vfs) : Vfs := { σ with decisions:=ds }

lemma facing_nil {σ:Vfs} (h:σ.Calm) : facing [] σ=σ := by
 rw [facing,← h.quiet]

lemma plainOperation_fails {α:Type} {σ:Vfs} (h:σ.Calm) (what:String) (act:VfsM α) :
 plainOperation what act (facing [.fail 0] σ) = (.error (ioError ("injected failure: " ++ what)),σ) := by
 have halive:(facing [.fail 0] σ).crashed=false:=h.alive
 rw [plainOperation,operation,if_neg (by rw [halive]; exact Bool.false_ne_true)]
 exact Prod.ext rfl (facing_nil h)

/-- Run where nothing goes wrong, the action takes some number of decisions; run with as many
operations proceeding, it does the same and leaves the decisions after those. -/
def Polled {α:Type} (m:VfsM α) : Prop :=
 ∀ σ:Vfs,σ.Calm → (m σ).2.Calm ∧ ∃ k,∀ ds,
  m (facing (List.replicate k .proceed++ds) σ)=((m σ).1,facing ds (m σ).2)

namespace Polled

variable {α β:Type}

lemma pure (a:α) : Polled (Pure.pure a:VfsM α) := fun _ hσ=>⟨hσ,0,fun _=>rfl⟩

lemma fail (e:Status) : Polled (fail e:VfsM α) := fun _ hσ=>⟨hσ,0,fun _=>rfl⟩

lemma bind {m:VfsM α} {f:α → VfsM β} (hm:Polled m) (hf:∀ a,Polled (f a)) : Polled (m >>= f) := by
 intro σ hσ
 obtain ⟨hcalm,k,hk⟩:=hm σ hσ
 rw [bind_run]
 rcases hrun:m σ with ⟨_ | a,τ⟩
 · rw [hrun] at hcalm hk
   refine ⟨hcalm,k,fun ds=>?_⟩
   rw [bind_run,hk]
 · rw [hrun] at hcalm hk
   obtain ⟨hcalm',k',hk'⟩:=hf a τ hcalm
   refine ⟨hcalm',k+k',fun ds=>?_⟩
   rw [List.replicate_add,List.append_assoc,bind_run,hk]
   exact hk' ds

lemma ite {c:Prop} [Decidable c] {m m':VfsM α} (ht:Polled m) (hf:Polled m') :
 Polled (if c then m else m') := by
 by_cases h:c
 · rwa [if_pos h]
 · rwa [if_neg h]

lemma onlyIf {c:Prop} [Decidable c] {m:VfsM Unit} (hm:Polled m) : Polled (onlyIf c m) := ite hm (pure ())

lemma operation {what:String} {failed:ℕ → Vfs → Vfs} {cut:Vfs → Vfs} {act:VfsM α}
 (hact:∀ σ ds,act (facing ds σ)=((act σ).1,facing ds (act σ).2))
 (hcalm:∀ σ:Vfs,σ.Calm → (act σ).2.Calm) : Polled (operation what failed cut act) := by
 intro σ hσ
 rw [operation_calm hσ]
 refine ⟨hcalm σ hσ,1,fun ds=>?_⟩
 have halive:(facing (List.replicate 1 .proceed++ds) σ).crashed=false:=hσ.alive
 rw [VfsModel.operation,if_neg (by rw [halive]; exact Bool.false_ne_true)]
 exact hact σ ds

end Polled

section Polls
variable (path:Path)

lemma read_polled (off len:ℕ) : Polled (File.read path off len) := by
 refine Polled.operation (fun σ ds=>?_) fun σ hσ=>?_
 · simp only [facing]
   cases σ.files.find path <;> rfl
 · cases σ.files.find path <;> exact hσ

lemma size_polled : Polled (File.size path) := by
 refine Polled.operation (fun σ ds=>?_) fun σ hσ=>?_
 · simp only [facing]
   cases σ.files.find path <;> rfl
 · cases σ.files.find path <;> exact hσ

lemma write_polled (off:ℕ) (data:Bytes) : Polled (File.write path off data) := by
 refine Polled.operation (fun σ ds=>?_) fun σ hσ=>?_
 · simp only [facing,File.recordWrite]
   cases σ.files.find path <;> rfl
 · simp only [File.recordWrite]
   cases σ.files.find path with
   | none=>exact hσ
   | some b=>exact hσ.mutate _ _ _

lemma truncate_polled (n:ℕ) : Polled (File.truncate path n) := by
 refine Polled.operation (fun σ ds=>?_) fun σ hσ=>?_
 · simp only [facing]
   cases σ.files.find path <;> rfl
 · cases σ.files.find path with
   | none=>exact hσ
   | some b=>exact hσ.mutate _ _ _

lemma sync_polled : Polled (File.sync path) :=
 Polled.operation (fun _ _=>rfl) fun _ hσ=>hσ.persist _

lemma syncDirectory_polled : Polled (Vfs.syncDirectory path) :=
 Polled.operation (fun _ _=>rfl) fun _ hσ=>hσ.persist _

lemma close_polled : Polled (File.close path) := Polled.operation (fun _ _=>rfl) fun _ hσ=>hσ

lemma openFile_polled (flags:OpenFlags) : Polled (Vfs.openFile path flags) := by
 refine Polled.operation (fun σ ds=>?_) fun σ hσ=>?_
 · cases hf:σ.files.find path <;> simp only [facing,hf] <;> split_ifs <;> rfl
 · cases hf:σ.files.find path <;> simp only <;> split_ifs <;> first | exact hσ | exact hσ.mutate _ _ _

lemma rename_polled (dst:Path) : Polled (Vfs.rename path dst) := by
 refine Polled.operation (fun σ ds=>?_) fun σ hσ=>?_
 · by_cases h:(σ.files.find path).isSome=true
   · have h':((facing ds σ).files.find path).isSome=true:=h
     refine (if_pos h').trans ?_
     rw [if_pos h]
     rfl
   · have h':¬((facing ds σ).files.find path).isSome=true:=h
     refine (if_neg h').trans ?_
     rw [if_neg h]
 · by_cases h:(σ.files.find path).isSome=true
   · simp only [if_pos h]
     exact ⟨hσ.alive,hσ.quiet⟩
   · simp only [if_neg h]
     exact hσ

end Polls

end Archivum.Footprints
