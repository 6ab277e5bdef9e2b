import Archivum.CheckpointRules

set_option autoImplicit false

/-!
# The log in memory and the log on disk

Whatever was appended to a log and however often it was emptied: what `Wal::open`
rebuilds from the file is the log object that wrote it.
-/
namespace Archivum.LogReopening
open ByteStrings StatefulActions PageTxn PageFormat VfsModel WalModel Histories LogImage DbOpen CheckpointRules Act

inductive LogCall
 | append (c:Commit)
 | reset (baseChangeCounter:ℕ)

def LogCall.run : LogCall → WalM Unit
 | append c=>Wal.appendTransaction c.images c.header.pageCount
 | reset base=>Wal.reset base

/-- The images are those of a commit, and a change counter has 64 bits. -/
def LogCall.Sound (pageSize:ℕ) : LogCall → Prop
 | append c=>Loggable pageSize c
 | reset base=>base<2^64

def runCalls : List LogCall → WalM Unit
 | []=>return ()
 | x::xs=>do
  x.run
  runCalls xs

/-- The log object is that of the file. -/
def InStep (F:Prop) (path:Path) (ps:ℕ) (id:DbId) (s : WalIO) : Prop :=
 ∃ h cs d,(WalHeader.Fits h ∧ h.pageSize=ps ∧ h.dbId=id ∧ (∀ c∈cs,Loggable ps c) ∧
  Disk.find d path=some (logBytes h cs)) ∧ s.wal=logObject path h false cs ∧ s.vfs.At F d

variable {F:Prop} {path:Path} {ps:ℕ} {id:DbId}

lemma LogCall.run_rule {x:LogCall} (hx:x.Sound ps) :
 Triple (InStep F path ps id) x.run (fun _=>InStep F path ps id) fun _ _=>F := by
 refine Triple.exists_fact fun h=>Triple.exists_fact fun cs=>Triple.exists_fact fun d=>Triple.fact fun hlog=>?_
 obtain ⟨hfits,rfl,rfl,hcs,hfile⟩:=hlog
 cases x with
 | append c=>
  refine (appendTransaction_rule hfile hcs hx).post fun _ s hs=>⟨h,cs++[c],_,⟨hfits,rfl,rfl,?_,?_⟩,hs⟩
  · intro y hy
    rcases List.mem_append.mp hy with hy | hy
    · exact hcs y hy
    · rw [List.mem_singleton.mp hy]
      exact hx
  · exact Disk.find_put_self _ _ _
 | reset base=>
  refine (reset_rule (w:=logObject path h false cs) hfile rfl rfl base).post ?_
  rintro _ s ⟨salt1,salt2,hwal,d',hhold,hat⟩
  refine ⟨{ h with salt1,salt2,baseChangeCounter:=base },[],d',⟨⟨hfits.pageSize,hx⟩,rfl,rfl,
   fun c hc=>absurd hc List.not_mem_nil,hhold.1.trans (congrArg some ?_)⟩,hwal,hat⟩
  rw [logBytes,txnBytes,List.append_nil]
  rfl

lemma runCalls_rule (calls:List LogCall) (h:∀ x∈calls,x.Sound ps) :
 Triple (InStep F path ps id) (runCalls calls) (fun _=>InStep F path ps id) fun _ _=>F := by
 induction calls with
 | nil=>exact Triple.pure fun _ hs=>hs
 | cons x calls ih=>
  exact Triple.bind (LogCall.run_rule (h x List.mem_cons_self)) fun _=>
   ih fun y hy=>h y (List.mem_cons_of_mem _ hy)

/-- Without faults the file can be opened; where it can, the log is the one that was closed. -/
theorem reopen_same {σ:Vfs} {h:WalHeader} {cs:List Commit} (hfits:h.Fits)
  (hcs:∀ c∈cs,Loggable h.pageSize c) (hfile:σ.files.find path=some (logBytes h cs)) {calls:List LogCall}
  (hcalls:∀ x∈calls,x.Sound h.pageSize) {s : WalIO}
  (hrun:runCalls calls ⟨σ,logObject path h false cs⟩=(.ok (),s)) (base:ℕ) :
  (s.vfs.Calm → ∃ w τ,
   Wal.openLog path h.pageSize { dbId:=h.dbId,newBaseChangeCounter:=base } s.vfs=(.ok w,τ)) ∧
  ∀ w τ,Wal.openLog path h.pageSize { dbId:=h.dbId,newBaseChangeCounter:=base } s.vfs=(.ok w,τ) →
   w.commitList=s.wal.commitList ∧ (∀ page snapshot,w.find page snapshot=s.wal.find page snapshot) ∧
    w.header.baseChangeCounter=s.wal.header.baseChangeCounter ∧ w.chain=s.wal.chain := by
 have hstep:InStep True path h.pageSize h.dbId s:=(runCalls_rule calls hcalls).ok
  ⟨h,cs,σ.files,⟨hfits,rfl,rfl,hcs,hfile⟩,rfl,σ.at_true⟩ hrun
 obtain ⟨h',cs',d,⟨hfits',hps,hid,hcs',hfile'⟩,hwal,hat⟩:=hstep
 rw [← hps,← hid]
 have hholds:=logHolds_exact hfits' (hps ▸ hcs')
 constructor
 · intro hcalm
   have hd:=hat.files hcalm.alive
   obtain ⟨τ,hopen,-⟩:=openLog_calm hcalm (hd ▸ hfile') hholds base
   exact ⟨_,τ,hopen⟩
 · intro w τ hopen
   obtain ⟨rfl,-⟩:=(openLog_write_rule hfile' hholds base).ok hat hopen
   rw [hwal]
   exact ⟨rfl,fun _ _=>rfl,rfl,rfl⟩

def exampleCalls : List LogCall := [.append (exampleCommit 1 1),.reset 1,.append (exampleCommit 2 2),.append (exampleCommit 3 3)]

lemma exampleCalls_sound : ∀ x∈exampleCalls,x.Sound 512 := by
 have hcommit:∀ (x:UInt8) {n:ℕ},n<5 → LogCall.Sound 512 (.append (exampleCommit x (n+1))):=fun x n hn=>
  loggable_of_follows (exampleCommit_follows x (by decide) le_rfl (by omega))
 simp only [exampleCalls,List.forall_mem_cons]
 exact ⟨hcommit 1 (by decide),show 1<2^64 by decide,hcommit 2 (by decide),hcommit 3 (by decide),fun _ hx=>absurd hx List.not_mem_nil⟩

theorem reopen_same_example : ∃ s w τ,
  runCalls exampleCalls ⟨Vfs.quiet [(['w'],logBytes (exampleLogHeader 0) [])],logObject ['w'] (exampleLogHeader 0) false []⟩ =
   (.ok (),s) ∧
  Wal.openLog ['w'] 512 { dbId:=(exampleLogHeader 0).dbId } s.vfs=(.ok w,τ) ∧ w.commitList=s.wal.commitList := by
 have hfits:(exampleLogHeader 0).Fits:=⟨by change 512<2^32; decide,by change 0<2^64; decide⟩
 have hnone:∀ c∈([]:List Commit),Loggable 512 c:=fun c hc=>absurd hc List.not_mem_nil
 obtain ⟨⟨⟩,s,hrun,h,cs,d,-,-,hat⟩:=(runCalls_rule (F:=False) exampleCalls exampleCalls_sound).run
  (s:=⟨Vfs.quiet [(['w'],logBytes (exampleLogHeader 0) [])],logObject ['w'] (exampleLogHeader 0) false []⟩)
  ⟨exampleLogHeader 0,[],_,⟨hfits,rfl,rfl,hnone,rfl⟩,rfl,(Vfs.quiet_calm _).at False⟩ fun _ _ h=>h
 obtain ⟨hopens,hsame⟩:=reopen_same hfits hnone rfl exampleCalls_sound hrun 0
 obtain ⟨w,τ,hopen⟩:=hopens hat.calm.2
 exact ⟨s,w,τ,hrun,hopen,(hsame w τ hopen).1⟩

end Archivum.LogReopening
