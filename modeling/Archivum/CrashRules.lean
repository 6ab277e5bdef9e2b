import Archivum.ActionRules
import Archivum.VfsModel

set_option autoImplicit false

/-!
# One file across power losses

What a process sees of one file, what is durable of it, and what is pending. A
power loss leaves the durable contents with some of the pending operations
applied, in any order and possibly torn; every operation either proceeds or is
where the power is lost.
-/
namespace Archivum.CrashRules
open ByteStrings StatefulActions PageTxn VfsModel List

lemma writeAt_eq (b:Bytes) (off:ℕ) (data:Bytes) : writeAt b off data=resize b off++data++b.drop (off+data.length) := by
 have hfront:(resize b (max b.length (off+data.length))).take off=resize b off:=by
  rw [resize,resize,take_append,take_take,take_replicate,length_take]
  congr 2
  · omega
  · omega
 have hback:(resize b (max b.length (off+data.length))).drop (off+data.length) =
   b.drop (off+data.length):=by
  rw [resize]
  by_cases hle:off+data.length≤b.length
  · rw [max_eq_left hle,Nat.sub_self,replicate_zero,append_nil,take_length]
  · rw [drop_of_length_le (l:=b) (by omega),drop_of_length_le]
    simp only [length_append,length_take,length_replicate]
    omega
 rw [writeAt,patch,hfront,hback,resize_length,take_of_length_le (by omega)]

inductive FileOp
 | create
 | write (off:ℕ) (data:Bytes)
 | truncate (size:ℕ)

namespace FileOp

def on (p:Path) : FileOp → PendingOp
 | create=>.create p
 | write off data=>.write p off data
 | truncate size=>.truncate p size

/-- What the operation makes of the contents; a write to a file that is not there is dropped. -/
def apply : Option Bytes → FileOp → Option Bytes
 | f,create=>some (f.getD [])
 | f,write off data=>f.map fun b=>writeAt b off data
 | f,truncate size=>f.map fun b=>resize b size

def tear (n:ℕ) : FileOp → FileOp
 | write off data=>write off (data.take n)
 | op=>op

lemma tear_on (p:Path) (n:ℕ) (op:FileOp) : (op.on p).tear n=(op.tear n).on p := by
 cases op <;> rfl

lemma on_inj {p:Path} {o o':FileOp} (h:o.on p=o'.on p) : o=o' := by
 cases o <;> cases o' <;> simp_all [on]

lemma find_apply (p:Path) (d:Disk) (op:FileOp) : (PendingOp.apply d (op.on p)).find p=op.apply (d.find p) := by
 cases op with
 | create=>
  rw [on,PendingOp.apply,apply]
  cases h:d.find p with
  | none=>simp
  | some b=>simp [h]
 | write off data=>
  rw [on,PendingOp.apply,apply]
  cases h:d.find p with
  | none=>simp [h]
  | some b=>simp
 | truncate size=>
  rw [on,PendingOp.apply,apply]
  cases h:d.find p with
  | none=>simp [h]
  | some b=>simp

lemma find_foldl (p:Path) (ops:List FileOp) (d:Disk) :
 ((ops.map (on p)).foldl PendingOp.apply d).find p=ops.foldl apply (d.find p) := by
 induction ops generalizing d with
 | nil=>rfl
 | cons op ops ih=>
  rw [map_cons,foldl_cons,foldl_cons,ih,find_apply]

end FileOp

/-- The operations of `ops` that survive, in the order in which they reach the disk, each with the
number of bytes that do. -/
def surviving (ops:List FileOp) (survivors:List (ℕ × ℕ)) : List FileOp :=
 survivors.filterMap fun s=>(ops[s.1]?).map (FileOp.tear s.2)

/-- The contents a power loss can leave; `A` says what may survive. -/
def Outcome (A:List (ℕ × ℕ) → Prop) (d:Option Bytes) (ops:List FileOp) (x:Option Bytes) : Prop :=
 ∃ survivors,A survivors ∧ x=(surviving ops survivors).foldl FileOp.apply d

lemma outcome_nil {A:List (ℕ × ℕ) → Prop} {d x:Option Bytes} (h:Outcome A d [] x) : x=d := by
 obtain ⟨survivors,-,rfl⟩:=h
 have hnone:surviving [] survivors=[]:=by
  rw [surviving,filterMap_eq_nil_iff]
  intro s _
  rfl
 rw [hnone]
 rfl

lemma Outcome.induct {A:List (ℕ × ℕ) → Prop} {d x:Option Bytes} {ops:List FileOp}
 {P:Option Bytes → Prop} (h:Outcome A d ops x) (hd:P d) (hstep:∀ y op n,op∈ops → P y → P ((op.tear n).apply y)) : P x := by
 obtain ⟨survivors,-,rfl⟩:=h
 refine foldlRecOn _ _ hd fun y hy o ho=>?_
 obtain ⟨s,-,hs⟩:=mem_filterMap.mp ho
 obtain ⟨op,hop,rfl⟩:=Option.map_eq_some_iff.mp hs
 exact hstep y op s.2 (mem_of_getElem? hop) hy

/-- Every operation to come proceeds or is where the power goes, with survivors that satisfy `A`. -/
def Sound (A:List (ℕ × ℕ) → Prop) (decisions:List Decision) : Prop :=
 ∀ x∈decisions,x=.proceed ∨ ∃ survivors,x=.crash survivors ∧ A survivors

/-- Power is on; the process sees `f`, of which `d` is durable and `ops` are pending. Nothing else is
pending. -/
structure On (A:List (ℕ × ℕ) → Prop) (p:Path) (f d:Option Bytes) (ops:List FileOp) (σ:Vfs) :
  Prop where
 alive : σ.crashed=false
 sound : Sound A σ.decisions
 file : σ.files.find p=f
 durable : σ.durable.find p=d
 pending : σ.pending=ops.map (FileOp.on p)

/-- The power was lost, and what is durable satisfies `C`. -/
structure Lost (A:List (ℕ × ℕ) → Prop) (p:Path) (C:Option Bytes → Prop) (σ:Vfs) : Prop where
 crashed : σ.crashed=true
 allowed : ∃ survivors,A survivors
 durable : C (σ.durable.find p)

section Rules
variable {A:List (ℕ × ℕ) → Prop} {p:Path} {f d:Option Bytes} {ops:List FileOp} {σ:Vfs}
 {α:Type}

lemma Lost.mono {C C':Option Bytes → Prop} (h:Lost A p C σ) (hC:∀ x,C x → C' x) :
 Lost A p C' σ := ⟨h.crashed,h.allowed,hC _ h.durable⟩

lemma On.crash (h:On A p f d ops σ) {survivors:List (ℕ × ℕ)} (hA:A survivors) :
 Lost A p (Outcome A d ops) (σ.crash survivors) := by
 refine ⟨rfl,⟨survivors,hA⟩,survivors,hA,?_⟩
 have hmap:(survivors.filterMap fun s=>(σ.pending[s.1]?).map (PendingOp.tear s.2)) =
   (surviving ops survivors).map (FileOp.on p):=by
  rw [surviving,map_filterMap]
  congr 1
  funext s
  rw [h.pending,getElem?_map]
  cases ops[s.1]? with
  | none=>rfl
  | some op=>exact congrArg some (FileOp.tear_on p s.2 op)
 change ((survivors.filterMap fun s=>(σ.pending[s.1]?).map (PendingOp.tear s.2)).foldl PendingOp.apply σ.durable).find p=_
 rw [hmap,FileOp.find_foldl,h.durable]

/-- The rule for every operation: what it does when it proceeds, and what is pending when the power
is lost. -/
theorem operation_rule {what:String} {failed:ℕ → Vfs → Vfs} {cut:Vfs → Vfs} {act:VfsM α}
 {Q:α → Vfs → Prop} {f':Option Bytes} {ops':List FileOp} (hact:∀ σ:Vfs,On A p f d ops σ → ∃ a σ',act σ=(.ok a,σ') ∧ Q a σ')
 (hcut:∀ σ:Vfs,On A p f d ops σ → On A p f' d ops' (cut σ)) :
 Act.Triple (On A p f d ops) (operation what failed cut act) Q fun _=>Lost A p (Outcome A d ops') := by
 intro σ hσ
 rw [operation,if_neg (by simp [hσ.alive])]
 have hrest:∀ x ds,σ.decisions=x::ds → On A p f d ops { σ with decisions:=ds }:=by
  intro x ds hx
  refine ⟨hσ.alive,fun y hy=>hσ.sound y ?_,hσ.file,hσ.durable,hσ.pending⟩
  rw [hx]
  exact mem_cons_of_mem _ hy
 rcases hdec:σ.decisions with _ | ⟨x,ds⟩
 · obtain ⟨a,σ',hrun,hq⟩:=hact σ hσ
   simp only [hrun]
   exact hq
 · rcases hσ.sound x (by rw [hdec]; exact mem_cons_self) with rfl | ⟨survivors,rfl,hA⟩
   · obtain ⟨a,σ',hrun,hq⟩:=hact _ (hrest _ _ hdec)
     simp only [hrun]
     exact hq
   · exact (hcut _ (hrest _ _ hdec)).crash hA

lemma plainOperation_rule {what:String} {act:VfsM α} {Q:α → Vfs → Prop}
 (hact:∀ σ:Vfs,On A p f d ops σ → ∃ a σ',act σ=(.ok a,σ') ∧ Q a σ') :
 Act.Triple (On A p f d ops) (plainOperation what act) Q fun _=>Lost A p (Outcome A d ops) :=
 operation_rule hact fun _ h=>h

lemma pathExists_rule : Act.Triple (On A p f d ops) (Vfs.pathExists p) (fun r σ=>r=f.isSome ∧ On A p f d ops σ)
  fun _=>Lost A p (Outcome A d ops) :=
 plainOperation_rule fun σ h=>⟨_,σ,rfl,congrArg Option.isSome h.file,h⟩

variable {b:Bytes}

lemma size_rule : Act.Triple (On A p (some b) d ops) (File.size p) (fun r σ=>r=b.length ∧ On A p (some b) d ops σ)
  fun _=>Lost A p (Outcome A d ops) := by
 refine plainOperation_rule fun σ h=>⟨b.length,σ,?_,rfl,h⟩
 rw [h.file]

lemma read_rule (off len:ℕ) : Act.Triple (On A p (some b) d ops) (File.read p off len)
  (fun r σ=>r=slice b off len ∧ On A p (some b) d ops σ) fun _=>Lost A p (Outcome A d ops) := by
 refine plainOperation_rule fun σ h=>⟨slice b off len,σ,?_,rfl,h⟩
 rw [h.file]

lemma On.mutate (h:On A p f d ops σ) (op:FileOp) {b:Bytes} (hb:op.apply f=some b) :
 On A p (op.apply f) d (ops++[op]) (σ.mutate (op.on p) p (σ.files.put p b)) where
 alive := h.alive
 sound:=h.sound
 file:=by rw [hb]; exact Disk.find_put_self _ _ _
 durable:=h.durable
 pending:=by
  change σ.pending++[op.on p]=_
  rw [h.pending,map_append]
  rfl

lemma openFile_rule :
  Act.Triple (On A p (some b) d ops) (Vfs.openFile p { write:=true,create:=true })
   (fun _=>On A p (some b) d ops) fun _=>Lost A p (Outcome A d ops) := by
 refine plainOperation_rule fun σ h=>⟨(),σ,?_,h⟩
 rw [if_neg (by simp),if_neg (by simp),h.file]
 rfl

lemma createFile_rule :
  Act.Triple (On A p none d ops) (Vfs.openFile p { write:=true,create:=true })
   (fun _=>On A p (some []) d (ops++[.create])) fun _=>Lost A p (Outcome A d ops) := by
 refine plainOperation_rule fun σ h=>⟨(),_,?_,h.mutate .create (b:=[]) rfl⟩
 rw [if_neg (by simp),if_neg (by simp),h.file]
 rfl

lemma On.recordWrite (h:On A p (some b) d ops σ) (off:ℕ) (data:Bytes) :
 On A p (some (writeAt b off data)) d (ops++[.write off data]) (File.recordWrite p off data σ) := by
 rw [File.recordWrite,h.file]
 exact h.mutate (.write off data) (b:=writeAt b off data) rfl

lemma write_rule (off:ℕ) (data:Bytes) : Act.Triple (On A p (some b) d ops) (File.write p off data)
  (fun _=>On A p (some (writeAt b off data)) d (ops++[.write off data]))
  fun _=>Lost A p (Outcome A d (ops++[.write off data])) := by
 refine operation_rule (fun σ h=>⟨(),_,?_,h.recordWrite off data⟩) fun σ h=>h.recordWrite off data
 rw [h.file]

lemma truncate_rule (size:ℕ) : Act.Triple (On A p (some b) d ops) (File.truncate p size)
  (fun _=>On A p (some (resize b size)) d (ops++[.truncate size])) fun _=>Lost A p (Outcome A d ops) := by
 refine plainOperation_rule fun σ h=>⟨(),_,?_,h.mutate (.truncate size) (b:=resize b size) rfl⟩
 rw [h.file]
 rfl

lemma isFileOp_on (op:FileOp) : Vfs.isFileOp p (op.on p)=true := by
 cases op <;> simp [FileOp.on,Vfs.isFileOp]

lemma sync_rule : Act.Triple (On A p f d ops) (File.sync p) (fun _=>On A p f (ops.foldl FileOp.apply d) [])
  fun _=>Lost A p (Outcome A d ops) := by
 refine plainOperation_rule fun σ h=>⟨(),_,rfl,h.alive,h.sound,h.file,?_,?_⟩
 · have hall:σ.pending.filter (Vfs.isFileOp p)=ops.map (FileOp.on p):=by
    rw [h.pending,filter_eq_self]
    intro x hx
    obtain ⟨op,-,rfl⟩:=mem_map.mp hx
    exact isFileOp_on op
   change ((σ.pending.filter (Vfs.isFileOp p)).foldl PendingOp.apply σ.durable).find p=_
   rw [hall,FileOp.find_foldl,h.durable]
 · change (σ.pending.filter fun op=>!Vfs.isFileOp p op)=[]
   rw [h.pending,filter_eq_nil_iff]
   intro x hx
   obtain ⟨op,-,rfl⟩:=mem_map.mp hx
   simp [isFileOp_on op]

lemma syncDirectory_rule (dir:Path) : Act.Triple (On A p f d []) (Vfs.syncDirectory dir) (fun _=>On A p f d [])
  fun _=>Lost A p (Outcome A d []) := by
 refine plainOperation_rule fun σ h=>⟨(),_,rfl,h.alive,h.sound,h.file,?_,?_⟩
 · change ((σ.pending.filter Vfs.isDirOp).foldl PendingOp.apply σ.durable).find p=_
   rw [h.pending]
   exact h.durable
 · change (σ.pending.filter fun op=>!Vfs.isDirOp op)=_
   rw [h.pending]
   rfl

/-- Power is on, nothing is pending, and the file is `f`. -/
structure Rest (p:Path) (f:Option Bytes) (σ:Vfs) : Prop where
 alive : σ.crashed=false
 file : σ.files.find p=f
 durable : σ.durable.find p=f
 pending : σ.pending=[]

/-- Whether the power is lost at each of the next operations, and what survives. -/
def facing (cuts:List (Option (List (ℕ × ℕ)))) (σ:Vfs) : Vfs :=
 { σ with decisions:=cuts.map fun c=>c.elim .proceed .crash }

lemma sound_facing {cuts:List (Option (List (ℕ × ℕ)))} (hA:∀ s,some s∈cuts → A s) (σ:Vfs) :
 Sound A (facing cuts σ).decisions := by
 intro x hx
 obtain ⟨c,hc,rfl⟩:=mem_map.mp hx
 cases c with
 | none=>exact Or.inl rfl
 | some s=>exact Or.inr ⟨s,rfl,hA s hc⟩

lemma Rest.on (h:Rest p f σ) (cuts:List (Option (List (ℕ × ℕ)))) (hA:∀ s,some s∈cuts → A s) :
 On A p f f [] (facing cuts σ) := ⟨h.alive,sound_facing hA σ,h.file,h.durable,h.pending⟩

lemma Rest.find (h:Rest p f σ) : Rest p (σ.files.find p) σ := by
 rw [h.file]
 exact h

lemma Rest.crash (h:Rest p f σ) (survivors:List (ℕ × ℕ)) : Rest p f (σ.crash survivors).recover := by
 have hnone:(survivors.filterMap fun s=>(σ.pending[s.1]?).map (PendingOp.tear s.2))=[]:=by
  rw [h.pending,filterMap_eq_nil_iff]
  intro s _
  rfl
 have hdurable:(σ.crash survivors).durable=σ.durable:=by
  rw [Vfs.crash,hnone]
  rfl
 refine ⟨rfl,?_,?_,rfl⟩
 · change (σ.crash survivors).durable.find p=f
   rw [hdurable,h.durable]
 · change (σ.crash survivors).durable.find p=f
   rw [hdurable,h.durable]

lemma On.rest (h:On A p f f [] σ) : Rest p f σ := ⟨h.alive,h.file,h.durable,h.pending⟩

lemma Lost.recover {C:Option Bytes → Prop} (h:Lost A p C σ) : ∃ f,C f ∧ Rest p f σ.recover := ⟨_,h.durable,rfl,rfl,rfl,rfl⟩

end Rules

end Archivum.CrashRules
