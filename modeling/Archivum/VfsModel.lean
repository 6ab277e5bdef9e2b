import Archivum.PageTxn

set_option autoImplicit false

/-!
# The file system boundary, with injected faults and power loss

What the running process sees (`files`), what survives a power loss (`durable`)
and the mutations in between (`pending`), as the fault-injecting file system of
the tests has them. Every operation first takes the injector's decision:
proceed, fail with an I/O error, or lose power. `touched` records the paths that
were ever changed, for statements about what an operation leaves alone.
-/
namespace Archivum.VfsModel
open ByteStrings StatefulActions PageTxn List

abbrev Path := List Char

def Path.text (p:Path) : String := String.ofList p

def ioError (message:String) : Status := ⟨.ioError,message⟩
def crashedStatus (message:String) : Status := ⟨.crashed,message⟩
def alreadyExists (message:String) : Status := ⟨.alreadyExists,message⟩

abbrev Disk := List (Path × Bytes)

namespace Disk

def find (d:Disk) (p:Path) : Option Bytes := d.lookup p

def remove (d:Disk) (p:Path) : Disk := d.filter fun x=>x.1≠p

def put (d:Disk) (p:Path) (b:Bytes) : Disk := (p,b)::d.remove p

@[simp] lemma find_put_self (d:Disk) (p:Path) (b:Bytes) : (d.put p b).find p=some b := by
 simp [find,put]

@[simp] lemma find_remove_self (d:Disk) (p:Path) : (d.remove p).find p=none := by
 rw [find,lookup_eq_none_iff]
 intro x hx
 have hne:x.1≠p:=by simpa using (mem_filter.mp hx).2
 simpa using hne.symm

lemma find_remove_of_ne (d:Disk) {p q:Path} (h:q≠p) : (d.remove p).find q=d.find q := by
 induction d with
 | nil=>rfl
 | cons x d ih=>
  simp only [find,remove] at ih ⊢
  by_cases hx:x.1=p
  · have hq:(q == x.1)=false:=by simpa [hx] using h
    rw [filter_cons_of_neg (by simp [hx]),ih,lookup_cons,hq]
  · rw [filter_cons_of_pos (by simp [hx]),lookup_cons,lookup_cons,ih]

lemma find_put_of_ne (d:Disk) {p q:Path} (b:Bytes) (h:q≠p) : (d.put p b).find q=d.find q := by
 have hq:(q == p)=false:=by simpa using h
 rw [put,find,lookup_cons,hq]
 exact find_remove_of_ne d h

lemma put_put (d:Disk) (p:Path) (a b:Bytes) : (d.put p a).put p b=d.put p b := by
 rw [put,put,put,remove,remove,filter_cons_of_neg (by simp),filter_filter]
 simp

/-- `MemVfs::rename` -/
def rename (d:Disk) (src dst:Path) : Disk :=
 match d.find src with
 | some b=>(d.remove src).put dst b
 | none=>d

/-- Names, not paths, of the files directly in `dir`. -/
def list (d:Disk) (dir:Path) : List Path :=
 d.filterMap fun x=>
  if (dir++['/']).isPrefixOf x.1 ∧ '/' ∉ x.1.drop (dir.length+1) then
   some (x.1.drop (dir.length+1))
  else none

lemma mem_list_iff (d:Disk) (dir name:Path) : name∈d.list dir ↔ '/' ∉ name ∧ (d.find (dir ++ '/' :: name)).isSome := by
 simp only [list,mem_filterMap,find,lookup_isSome_iff]
 constructor
 · rintro ⟨x,hx,hn⟩
   split_ifs at hn with h
   · obtain rfl:=Option.some.inj hn
     obtain ⟨t,ht⟩ := isPrefixOf_iff_prefix.mp h.1
     refine ⟨h.2,x,hx,?_⟩
     rw [← ht]
     simp
 · rintro ⟨hslash,x,hx,hp⟩
   have hxp:x.1=dir ++ '/' :: name:=by simpa using (beq_iff_eq.mp hp).symm
   refine ⟨x,hx,?_⟩
   have hdrop:x.1.drop (dir.length+1)=name:=by
    rw [hxp]
    simp
   rw [if_pos ⟨List.isPrefixOf_iff_prefix.mpr ⟨name,by rw [hxp]; simp⟩,by rw [hdrop]; exact hslash⟩,hdrop]

end Disk

def resize (b:Bytes) (size:ℕ) : Bytes := b.take size++replicate (size-b.length) 0

/-- Writes all of `data` at `off`, extending the file if needed. -/
def writeAt (b:Bytes) (off:ℕ) (data:Bytes) : Bytes :=
 patch (resize b (max b.length (off+data.length))) off data

@[simp] lemma resize_length (b:Bytes) (n:ℕ) : (resize b n).length=n := by
 simp only [resize,length_append,length_take,length_replicate]
 omega

@[simp] lemma writeAt_length (b:Bytes) (off:ℕ) (d:Bytes) : (writeAt b off d).length=max b.length (off+d.length) := by
 rw [writeAt,patch_length,resize_length]

lemma resize_of_le (b:Bytes) {n:ℕ} (h:n≤b.length) : resize b n=b.take n := by
 rw [resize,Nat.sub_eq_zero_of_le h,replicate_zero,append_nil]

lemma resize_self (b:Bytes) : resize b b.length=b := by
 rw [resize_of_le b le_rfl,take_length]

lemma resize_of_length {b:Bytes} {n:ℕ} (h:b.length=n) : resize b n=b := by
 subst h
 exact resize_self b

lemma writeAt_end (b d:Bytes) : writeAt b b.length d=b++d := by
 have hr:resize b (b.length+d.length)=b++replicate d.length 0:=by
  rw [resize,take_of_length_le (by omega)]
  congr 2
  omega
 rw [writeAt,max_eq_right (by omega),hr,← append_nil (b++replicate _ _),
  patch_middle b _ d [] b.length rfl (by simp),append_nil]

inductive PendingOp
 | create (path:Path)
 | write (path:Path) (off:ℕ) (data:Bytes)
 | truncate (path:Path) (size:ℕ)
 | remove (path:Path)
 | rename (src dst:Path)
 deriving DecidableEq

/-- `apply_to_durable` -/
def PendingOp.apply (d:Disk) : PendingOp → Disk
 | create p=>if (d.find p).isSome then d else d.put p []
 | write p off data=>
  match d.find p with
  | some b=>d.put p (writeAt b off data)
  | none=>d
 | truncate p size=>
  match d.find p with
  | some b=>d.put p (resize b size)
  | none=>d
 | remove p=>d.remove p
 | rename src dst=>d.rename src dst

/-- A write cut short after `n` bytes. -/
def PendingOp.tear (n:ℕ) : PendingOp → PendingOp
 | write p off data=>write p off (data.take n)
 | op=>op

/-- The injector's decision for one operation. A failing write may have written its first bytes. At
a power loss `survivors` lists the pending operations that reach the disk, in the order in which
they do, each with the number of bytes that do. -/
inductive Decision
 | proceed
 | fail (bytes:ℕ)
 | crash (survivors:List (ℕ × ℕ))
 deriving DecidableEq

structure Vfs where
 files : Disk
 durable : Disk
 pending : List PendingOp
 crashed : Bool
 /-- What the injector decides for the operations to come; afterwards all proceed. -/
 decisions : List Decision
 touched : List Path
 /-- The random bytes to come, and how many were drawn. -/
 entropy : ℕ → UInt8
 drawn : ℕ

abbrev VfsM := Act Status Vfs

namespace Vfs

/-- A mutation of the file at `p`. -/
def mutate (σ:Vfs) (op:PendingOp) (p:Path) (files:Disk) : Vfs :=
 { σ with files,pending:=σ.pending++[op],touched:=p::σ.touched }

/-- `FaultVfs::crash` -/
def crash (σ:Vfs) (survivors:List (ℕ × ℕ)) : Vfs :=
 { σ with
   files:=[]
   durable:=(survivors.filterMap fun s=>(σ.pending[s.1]?).map (PendingOp.tear s.2)).foldl
     PendingOp.apply σ.durable
   pending:=[]
   crashed:=true }

/-- `FaultVfs::recover`: what a process sees after the reboot. -/
def recover (σ:Vfs) : Vfs := { σ with files:=σ.durable,pending:=[],crashed:=false }

def isFileOp (path:Path) : PendingOp → Bool
 | .create p=>p=path
 | .write p _ _=>p=path
 | .truncate p _=>p=path
 | _=>false

def isDirOp : PendingOp → Bool
 | .create _=>true
 | .remove _=>true
 | .rename _ _=>true
 | _=>false

/-- Makes the pending operations that satisfy `q` durable, in order. -/
def persist (σ:Vfs) (q:PendingOp → Bool) : Vfs :=
 { σ with
   durable:=(σ.pending.filter q).foldl PendingOp.apply σ.durable
   pending:=σ.pending.filter fun op=>!q op }

end Vfs

/-- The frame of every operation: nothing works after a power loss; the injector decides; `failed`
is what a failing operation has done, `cut` what one has that was in flight at a power loss. -/
def operation {α:Type} (what:String) (failed:ℕ → Vfs → Vfs) (cut:Vfs → Vfs) (act:VfsM α) :
  VfsM α := fun σ=>
 if σ.crashed then (.error (crashedStatus what),σ)
 else match σ.decisions with
  | []=>act σ
  | .proceed::ds=>act { σ with decisions:=ds }
  | .fail n::ds=>(.error (ioError ("injected failure: " ++ what)),failed n { σ with decisions:=ds })
  | .crash survivors::ds=>
   (.error (crashedStatus what),(cut { σ with decisions:=ds }).crash survivors)

def plainOperation {α:Type} (what:String) (act:VfsM α) : VfsM α :=
 operation what (fun _=>id) id act

structure OpenFlags where
 write : Bool := false
 create : Bool := false
 truncate : Bool := false

namespace Vfs

/-- `Vfs::exists` -/
def pathExists (path:Path) : VfsM Bool :=
 plainOperation ("exists " ++ path.text) (Act.reads fun σ=>(σ.files.find path).isSome)

def openFile (path:Path) (flags:OpenFlags) : VfsM Unit :=
 plainOperation ("open " ++ path.text) fun σ=>
  if flags.create ∧ ¬flags.write then
   (.error (invalidArgument ("create requires write: " ++ path.text)),σ)
  else if flags.truncate ∧ ¬flags.write then
   (.error (invalidArgument ("truncate requires write: " ++ path.text)),σ)
  else match σ.files.find path with
   | none=>
    if flags.create then (.ok (),σ.mutate (.create path) path (σ.files.put path []))
    else (.error (notFound ("mem open: " ++ path.text)),σ)
   | some _=>
    if flags.truncate then (.ok (),σ.mutate (.truncate path 0) path (σ.files.put path []))
    else (.ok (),σ)

def remove (path:Path) : VfsM Unit :=
 plainOperation ("remove " ++ path.text) fun σ=>
  if (σ.files.find path).isSome then
   (.ok (),σ.mutate (.remove path) path (σ.files.remove path))
  else (.error (notFound ("mem remove: " ++ path.text)),σ)

def rename (src dst:Path) : VfsM Unit :=
 plainOperation ("rename " ++ src.text) fun σ=>
  if (σ.files.find src).isSome then
   (.ok (),{ σ.mutate (.rename src dst) dst (σ.files.rename src dst) with
    touched:=src::dst::σ.touched })
  else (.error (notFound ("mem rename: " ++ src.text)),σ)

/-- `persist_directory` -/
def syncDirectory (dir:Path) : VfsM Unit :=
 plainOperation ("sync_directory " ++ dir.text) fun σ=>(.ok (),σ.persist isDirOp)

def list (dir:Path) : VfsM (List Path) :=
 plainOperation ("list " ++ dir.text) (Act.reads fun σ=>σ.files.list dir)

end Vfs

namespace File

/-- At most `len` bytes from `off`; fewer only at the end of the file. -/
def read (path:Path) (off len:ℕ) : VfsM Bytes :=
 plainOperation ("read " ++ path.text) fun σ=>
  match σ.files.find path with
  | some b=>(.ok (slice b off len),σ)
  | none=>(.error (ioError "mem file closed"),σ)

/-- `record_write` -/
def recordWrite (path:Path) (off:ℕ) (data:Bytes) (σ:Vfs) : Vfs :=
 match σ.files.find path with
 | some b=>σ.mutate (.write path off data) path (σ.files.put path (writeAt b off data))
 | none=>σ

def write (path:Path) (off:ℕ) (data:Bytes) : VfsM Unit :=
 operation ("write " ++ path.text) (fun n=>recordWrite path off (data.take n))
  (recordWrite path off data) fun σ=>
  match σ.files.find path with
  | some _=>(.ok (),recordWrite path off data σ)
  | none=>(.error (ioError "mem file closed"),σ)

/-- `persist_file` -/
def sync (path:Path) : VfsM Unit :=
 plainOperation ("sync " ++ path.text) fun σ=>(.ok (),σ.persist (Vfs.isFileOp path))

def truncate (path:Path) (size:ℕ) : VfsM Unit :=
 plainOperation ("truncate " ++ path.text) fun σ=>
  match σ.files.find path with
  | some b=>(.ok (),σ.mutate (.truncate path size) path (σ.files.put path (resize b size)))
  | none=>(.error (ioError "mem file closed"),σ)

def size (path:Path) : VfsM ℕ :=
 plainOperation ("size " ++ path.text) fun σ=>
  match σ.files.find path with
  | some b=>(.ok b.length,σ)
  | none=>(.error (ioError "mem file closed"),σ)

def close (path:Path) : VfsM Unit :=
 plainOperation ("close " ++ path.text) (pure ())

end File

/-- `directory_of`: up to the last slash. -/
def directoryOf (path:Path) : Path :=
 match (path.reverse.dropWhile fun c=>c ≠ '/' ∧ c ≠ '\\').reverse with
 | []=>['.']
 | [c]=>[c]
 | dir=>dir.dropLast

/-- `random_bytes` -/
def randomBytes (n:ℕ) : VfsM { b:Bytes // b.length=n } := fun σ=>
 (.ok ⟨(range n).map fun i=>σ.entropy (σ.drawn+i),by simp⟩,{ σ with drawn:=σ.drawn+n })

/-- `init_entropy` -/
def initEntropy : VfsM Unit := plainOperation "entropy" (pure ())

structure Vfs.Calm (σ:Vfs) : Prop where
 alive : σ.crashed=false
 quiet : σ.decisions=[]

/-- A file system with these files, all of them durable, where nothing will go wrong. -/
def Vfs.quiet (files:Disk) : Vfs where
 files := files
 durable:=files
 pending:=[]
 crashed:=false
 decisions:=[]
 touched:=[]
 entropy _:=0
 drawn:=0

lemma Vfs.quiet_calm (files:Disk) : (Vfs.quiet files).Calm := ⟨rfl,rfl⟩

section Calm
variable {σ:Vfs} {path:Path} {b:Bytes}

lemma operation_calm {α:Type} (h:σ.Calm) (what:String) (f:ℕ → Vfs → Vfs) (c:Vfs → Vfs)
 (act:VfsM α) : operation what f c act σ=act σ := by
 unfold operation
 rw [h.alive,h.quiet]
 rfl

lemma plainOperation_calm {α:Type} (h:σ.Calm) (what:String) (act:VfsM α) :
 plainOperation what act σ=act σ := operation_calm h what _ _ act

lemma Vfs.Calm.mutate (h:σ.Calm) (op:PendingOp) (p:Path) (d:Disk) : (σ.mutate op p d).Calm := ⟨h.alive,h.quiet⟩

lemma Vfs.Calm.persist (h:σ.Calm) (q:PendingOp → Bool) : (σ.persist q).Calm :=
 ⟨h.alive,h.quiet⟩

@[simp] lemma Vfs.mutate_files (σ:Vfs) (op:PendingOp) (p:Path) (d:Disk) : (σ.mutate op p d).files=d := rfl

lemma pathExists_calm (h:σ.Calm) (path:Path) :
 Vfs.pathExists path σ=(.ok (σ.files.find path).isSome,σ) := plainOperation_calm h _ _

lemma read_calm (h:σ.Calm) (hf:σ.files.find path=some b) (off len:ℕ) :
 File.read path off len σ=(.ok (slice b off len),σ) := by
 refine (plainOperation_calm h _ _).trans ?_
 simp only [hf]

lemma size_calm (h:σ.Calm) (hf:σ.files.find path=some b) : File.size path σ=(.ok b.length,σ) := by
 refine (plainOperation_calm h _ _).trans ?_
 simp only [hf]

lemma close_calm (h:σ.Calm) (path:Path) : File.close path σ=(.ok (),σ) :=
 plainOperation_calm h _ _

lemma initEntropy_calm (h:σ.Calm) : initEntropy σ=(.ok (),σ) := plainOperation_calm h _ _

lemma sync_calm (h:σ.Calm) (path:Path) : File.sync path σ=(.ok (),σ.persist (Vfs.isFileOp path)) := plainOperation_calm h _ _

lemma syncDirectory_calm (h:σ.Calm) (dir:Path) :
 Vfs.syncDirectory dir σ=(.ok (),σ.persist Vfs.isDirOp) := plainOperation_calm h _ _

lemma openFile_calm (h:σ.Calm) (hf:σ.files.find path=some b) {flags:OpenFlags}
 (hc:flags.create=true → flags.write=true) (ht:flags.truncate=false) : Vfs.openFile path flags σ=(.ok (),σ) := by
 refine (plainOperation_calm h _ _).trans ?_
 rw [if_neg (fun hx=>hx.2 (hc hx.1)),if_neg (by simp [ht]),hf]
 simp [ht]

lemma openFile_create_calm (h:σ.Calm) (hf:σ.files.find path=none) {flags:OpenFlags}
 (hw:flags.write=true) (hc:flags.create=true) : Vfs.openFile path flags σ =
  (.ok (),σ.mutate (.create path) path (σ.files.put path [])) := by
 refine (plainOperation_calm h _ _).trans ?_
 rw [if_neg (by simp [hw]),if_neg (by simp [hw]),hf]
 simp [hc]

lemma write_calm (h:σ.Calm) (hf:σ.files.find path=some b) (off:ℕ) (data:Bytes) :
 File.write path off data σ=(.ok (),σ.mutate (.write path off data) path (σ.files.put path (writeAt b off data))) := by
 refine (operation_calm h _ _ _ _).trans ?_
 simp only [hf,File.recordWrite]

lemma truncate_calm (h:σ.Calm) (hf:σ.files.find path=some b) (n:ℕ) :
 File.truncate path n σ=(.ok (),σ.mutate (.truncate path n) path (σ.files.put path (resize b n))) := by
 refine (plainOperation_calm h _ _).trans ?_
 simp only [hf]

lemma remove_calm (h:σ.Calm) (hf:σ.files.find path=some b) :
 Vfs.remove path σ=(.ok (),σ.mutate (.remove path) path (σ.files.remove path)) := by
 refine (plainOperation_calm h _ _).trans ?_
 simp only [hf,Option.isSome_some,if_true]

/-! What each mutation leaves, for chains of them. -/

lemma write_run (h:σ.Calm) (hf:σ.files.find path=some b) (off:ℕ) (data:Bytes) :
 ∃ σ',File.write path off data σ=(.ok (),σ') ∧ σ'.Calm ∧ σ'.files=σ.files.put path (writeAt b off data) :=
 ⟨_,write_calm h hf off data,h.mutate _ _ _,rfl⟩

lemma truncate_run (h:σ.Calm) (hf:σ.files.find path=some b) (n:ℕ) :
 ∃ σ',File.truncate path n σ=(.ok (),σ') ∧ σ'.Calm ∧ σ'.files=σ.files.put path (resize b n) :=
 ⟨_,truncate_calm h hf n,h.mutate _ _ _,rfl⟩

lemma sync_run (h:σ.Calm) (path:Path) : ∃ σ',File.sync path σ=(.ok (),σ') ∧ σ'.Calm ∧ σ'.files=σ.files :=
 ⟨_,sync_calm h path,h.persist _,rfl⟩

lemma syncDirectory_run (h:σ.Calm) (dir:Path) : ∃ σ',Vfs.syncDirectory dir σ=(.ok (),σ') ∧ σ'.Calm ∧ σ'.files=σ.files :=
 ⟨_,syncDirectory_calm h dir,h.persist _,rfl⟩

lemma create_run (h:σ.Calm) (hf:σ.files.find path=none) (flags:OpenFlags) (hw:flags.write=true) (hc:flags.create=true) :
 ∃ σ',Vfs.openFile path flags σ=(.ok (),σ') ∧ σ'.Calm ∧ σ'.files=σ.files.put path [] :=
 ⟨_,openFile_create_calm h hf hw hc,h.mutate _ _ _,rfl⟩

end Calm

end Archivum.VfsModel
