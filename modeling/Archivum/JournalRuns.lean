import Archivum.JournalRules

set_option autoImplicit false

/-!
# A journal over any number of power losses

A process opens the journal and appends to it; the power can go at any file
system operation, and then the next process starts from what is durable. Beside
the run stand the records of the last open, the appends acknowledged since, and
the append that was in flight when the power went.
-/
namespace Archivum.JournalRuns
open ByteStrings StatefulActions PageTxn VfsModel JournalModel JournalFormat JournalRules CrashRules

def Journal.contents (j:Journal) (σ:Vfs) : List Bytes :=
 j.records.map fun r=>
  slice ((σ.files.find j.path).getD []) (r.offset+kRecordHeaderBytes) r.length

lemma slices_refsFrom (pre post:Bytes) (rs:List Bytes) : (refsFrom pre.length rs).map (fun r=>
  slice (pre++framesOf rs++post) (r.offset+kRecordHeaderBytes) r.length)=rs := by
 induction rs generalizing pre with
 | nil=>rfl
 | cons x rs ih=>
  have hrest:pre++framesOf (x::rs)++post=(pre++frame x)++framesOf rs++post:=by
   simp
  have hhead:slice (pre++framesOf (x::rs)++post) (pre.length+kRecordHeaderBytes) x.length=x:=by
   rw [List.append_assoc,slice_append_right _ _ _ _ (by omega),Nat.add_sub_cancel_left,framesOf_cons,List.append_assoc]
   exact (frame_parts x _).2.2
  rw [refsFrom,List.map_cons,hhead,← List.length_append,hrest,ih]

lemma Holds.contents {p:Path} {options:Options} {rs:List Bytes} {j:Journal} {σ:Vfs}
 (h:Holds p options rs j) (hfile:σ.files.find p=some (fileOf rs)) : Journal.contents j σ=rs := by
 have:=slices_refsFrom makeHeader [] rs
 rw [makeHeader_length,List.append_nil] at this
 rw [Journal.contents,h.path_eq,hfile,h.records]
 exact this

/-- What the process does next; `cuts` says at which of its file system operations the power goes,
and what of the pending operations survives. -/
inductive Event
 | «open» (cuts:List (Option (List (ℕ × ℕ))))
 | append (payload:Bytes) (cuts:List (Option (List (ℕ × ℕ))))
 /-- The power goes between two calls. -/
 | powerLoss (survivors:List (ℕ × ℕ))

/-- The process, with what is remembered of its journal: what the last open found, which appends
returned ok since, and which one was in flight when the power went. -/
structure World where
 vfs : Vfs
 journal : Option Journal := none
 found : Option (List Bytes) := none
 acked : List Bytes := []
 inFlight : Option Bytes := none

section Step
variable (honest:Bool) (path:Path) (options:Options)

/-- After a power loss the next process sees what is durable, and holds no journal. -/
def World.reboot (w:World) (σ:Vfs) : World := { w with vfs:=σ.recover,journal:=none }

def Event.step : Event → World → World
 | «open» cuts,w=>
  match openJournal honest path options (facing cuts w.vfs) with
  | (.ok j,σ)=>
   { vfs:=σ,journal:=some j,found:=some (Journal.contents j σ) }
  | (.error _,σ)=>if σ.crashed then w.reboot σ else { w with vfs:=σ }
 | append payload cuts,w=>
  match w.journal with
  | none=>w
  | some j=>
   match Journal.append honest payload ⟨facing cuts w.vfs,j⟩ with
   | (.ok _,s)=>{ w with vfs:=s.vfs,journal:=some s.journal,acked:=w.acked++[payload] }
   | (.error _,s)=>
    if s.vfs.crashed then { w.reboot s.vfs with inFlight:=some payload }
    else { w with vfs:=s.vfs,journal:=some s.journal }
 | powerLoss survivors,w=>w.reboot (w.vfs.crash survivors)

end Step

section Invariant
variable {path:Path} {options:Options}

/-- The records a file may hold after the power went: those acknowledged, and perhaps the one in
flight. -/
def Expected (w:World) (R rs:List Bytes) : Prop :=
 rs=R++w.acked ∨ ∃ x,w.inFlight=some x ∧ rs=R++w.acked++[x]

structure Inv (path:Path) (options:Options) (w:World) : Prop where
 rest : ∃ f,Rest path f w.vfs
 /-- Between an open and a power loss the file is exactly what was found and acknowledged. -/
 running : ∀ j,w.journal=some j → ∃ R,w.found=some R ∧ w.inFlight=none ∧
  Holds path options (R++w.acked) j ∧ w.vfs.files.find path=some (fileOf (R++w.acked))
 stopped : w.journal=none → ∀ R,w.found=some R → ∃ rs,Expected w R rs ∧
  Keeps options.maxRecordBytes.toNat rs (w.vfs.files.find path)

lemma Inv.keeps {w:World} (h:Inv path options w) {R:List Bytes} (hR:w.found=some R) :
 ∃ rs,Expected w R rs ∧ Keeps options.maxRecordBytes.toNat rs (w.vfs.files.find path) := by
 cases hj:w.journal with
 | none=>exact h.stopped hj R hR
 | some j=>
  obtain ⟨R',hR',hin,hholds,hfile⟩:=h.running j hj
  obtain rfl:=Option.some.inj (hR.symm.trans hR')
  refine ⟨R++w.acked,Or.inl rfl,framesOf (R++w.acked),[],?_,by simp,hholds.fits,rejected_nil⟩
  rw [hfile]
  rfl

lemma Inv.reboot {w:World} {σ:Vfs} {A:List (ℕ × ℕ) → Prop} {C:Option Bytes → Prop} (hlost:Lost A path C σ)
 (hC:∀ R,w.found=some R → ∀ f,C f → ∃ rs,Expected w R rs ∧
  Keeps options.maxRecordBytes.toNat rs f) : Inv path options (w.reboot σ) := by
 obtain ⟨f,hf,hrest⟩:=hlost.recover
 refine ⟨⟨f,hrest⟩,(fun _ hj=>nomatch hj),fun _ R hR=>?_⟩
 change ∃ rs,Expected w R rs ∧ Keeps _ rs (σ.recover.files.find path)
 rw [hrest.file]
 exact hC R hR f hf

lemma Inv.open {w:World} (h:Inv path options w) (cuts:List (Option (List (ℕ × ℕ)))) :
 Inv path options ((Event.open cuts).step true path options w) := by
 obtain ⟨f,hrest⟩:=h.rest
 have hany:=openJournal_rule options f _ (hrest.on (A:=fun _=>True) cuts fun _ _=>trivial)
 rw [Event.step]
 rcases hrun:openJournal true path options (facing cuts w.vfs) with ⟨r,σ⟩
 rw [hrun] at hany
 cases r with
 | ok j=>
  obtain ⟨rs,hholds,hon⟩:=hany
  have hcontents:=Holds.contents hholds hon.file
  refine ⟨⟨_,hon.rest⟩,fun j' hj'=>?_,fun hno=>nomatch hno⟩
  cases hj'
  refine ⟨rs,congrArg some hcontents,rfl,?_,?_⟩
  · rw [List.append_nil]
    exact hholds
  · rw [List.append_nil]
    exact hon.file
 | error e=>
  have hlost:Lost (fun _=>True) path (fun _=>True) σ:=hany
  simp only [hlost.crashed,if_true]
  cases hfound:w.found with
  | none=>
   refine Inv.reboot hlost fun R hR=>?_
   rw [hfound] at hR
   cases hR
  | some R=>
   obtain ⟨rs,hexp,hkeep⟩:=h.keeps hfound
   rw [hrest.file] at hkeep
   have hlost':=(openJournal_keeps hkeep).error (hrest.on (A:=fun _=>True) cuts fun _ _=>trivial) hrun
   refine Inv.reboot hlost' fun R' hR' f hf=>?_
   obtain rfl:=Option.some.inj (hfound.symm.trans hR')
   exact ⟨rs,hexp,hf⟩

lemma Inv.append (hsafe:options.unsafeSkipSync=false) {w:World} (h:Inv path options w)
 (payload:Bytes) (cuts:List (Option (List (ℕ × ℕ)))) :
 Inv path options ((Event.append payload cuts).step true path options w) := by
 obtain ⟨f,hrest⟩:=h.rest
 rw [Event.step]
 cases hj:w.journal with
 | none=>exact h
 | some j=>
  obtain ⟨R,hR,hin,hholds,hfile⟩:=h.running j hj
  have hfile':=hrest.find
  rw [hfile] at hfile'
  have hready:Ready (fun _=>True) path options (R++w.acked) ⟨facing cuts w.vfs,j⟩:=
   ⟨hholds,hfile'.on cuts fun _ _=>trivial⟩
  have hpost:=append_rule hsafe hholds.fits payload _ hready
  simp only
  rcases hrun:Journal.append true payload ⟨facing cuts w.vfs,j⟩ with ⟨r,s⟩
  rw [hrun] at hpost
  cases r with
  | ok _=>
   obtain ⟨hholds',hon⟩:=hpost
   refine ⟨⟨_,hon.rest⟩,fun j' hj'=>?_,fun hno=>nomatch hno⟩
   cases hj'
   refine ⟨R,hR,hin,?_,?_⟩
   · change Holds path options (R++(w.acked++[payload])) s.journal
     rw [← List.append_assoc]
     exact hholds'
   · change s.vfs.files.find path=some (fileOf (R++(w.acked++[payload])))
     rw [← List.append_assoc]
     exact hon.file
  | error e=>
   rcases hpost with ⟨⟨hholds',hon⟩,-⟩ | ⟨-,hlost⟩
   · -- Refused: the journal is as it was.
     simp only [hon.alive,Bool.false_eq_true,if_false]
     refine ⟨⟨_,hon.rest⟩,fun j' hj'=>?_,fun hno=>nomatch hno⟩
     cases hj'
     exact ⟨R,hR,hin,hholds',hon.file⟩
   · simp only [hlost.crashed,if_true]
     refine Inv.reboot (w:={ w with inFlight:=some payload }) hlost fun R' hR' f hf=>?_
     obtain rfl:=Option.some.inj (hR.symm.trans hR')
     rcases hf with hf | hf
     · exact ⟨_,Or.inl rfl,hf⟩
     · exact ⟨_,Or.inr ⟨payload,rfl,rfl⟩,hf⟩

lemma Inv.powerLoss {w:World} (h:Inv path options w) (survivors:List (ℕ × ℕ)) :
 Inv path options ((Event.powerLoss survivors).step true path options w) := by
 obtain ⟨f,hrest⟩:=h.rest
 refine ⟨⟨f,hrest.crash survivors⟩,(fun _ hj=>nomatch hj),fun _ R hR=>?_⟩
 obtain ⟨rs,hexp,hkeep⟩:=h.keeps hR
 refine ⟨rs,hexp,?_⟩
 rw [hrest.file] at hkeep
 change Keeps _ rs ((w.vfs.crash survivors).recover.files.find path)
 rwa [(hrest.crash survivors).file]

lemma Inv.step (hsafe:options.unsafeSkipSync=false) {w:World} (h:Inv path options w) (e:Event) :
 Inv path options (e.step true path options w) := by
 cases e with
 | «open» cuts=>exact h.open cuts
 | append payload cuts=>exact h.append hsafe payload cuts
 | powerLoss survivors=>exact h.powerLoss survivors

end Invariant

lemma openJournal_total {path:Path} (options:Options) {f:Option Bytes} {σ:Vfs}
 (h:Rest path f σ) : ∃ j σ',openJournal true path options (facing [] σ)=(.ok j,σ') := by
 obtain ⟨j,σ',hrun,-⟩:=(openJournal_rule options f).run
  (h.on (A:=fun _=>False) [] fun _ hs=>nomatch hs) fun _ _ hlost=>hlost.allowed.elim fun _ h=>h
 exact ⟨j,σ',hrun⟩

/-- After any run, an open yields the records of the last open, those acknowledged since, and at most
the append in flight, whole; and an open that is not cut off succeeds. -/
theorem open_yields_acknowledged (path:Path) (options:Options) (hsafe:options.unsafeSkipSync=false)
  {σ:Vfs} {f:Option Bytes} (hσ:Rest path f σ) (events:List Event) {w:World}
  (hw:after (Event.step true path options) events { vfs:=σ }=w) :
  (∃ j σ',openJournal true path options (facing [] w.vfs)=(.ok j,σ')) ∧
   ∀ R,w.found=some R → ∀ cuts j σ',
    openJournal true path options (facing cuts w.vfs)=(.ok j,σ') →
    Expected w R (Journal.contents j σ') := by
 have hinv:Inv path options w:=by
  rw [← hw]
  refine after_preserves (I:=Inv path options) (fun e w h=>h.step hsafe e) events ?_
  exact ⟨⟨f,hσ⟩,(fun _ hj=>nomatch hj),fun _ _ hR=>nomatch hR⟩
 obtain ⟨g,hrest⟩:=hinv.rest
 refine ⟨openJournal_total options hrest,fun R hR cuts j σ' hopen=>?_⟩
 obtain ⟨rs,hexp,hkeep⟩:=hinv.keeps hR
 rw [hrest.file] at hkeep
 obtain ⟨hholds,hon⟩:=(openJournal_keeps hkeep).ok (hrest.on (A:=fun _=>True) cuts fun _ _=>trivial) hopen
 rw [Holds.contents hholds hon.file]
 exact hexp

def tornRun : World :=
 after (Event.step true ['j'] {}) [.open [],.append [7] [],.append [8] [none,some [(0,3)]]]
  { vfs:=Vfs.quiet [] }

theorem tornRun_open_yields : ∃ j σ',
  openJournal true ['j'] {} (facing [] tornRun.vfs)=(.ok j,σ') ∧
   tornRun.acked=[[7]] ∧ Expected tornRun [] (Journal.contents j σ') := by
 obtain ⟨⟨j,σ',hopen⟩,hyields⟩:=open_yields_acknowledged ['j'] {} rfl
  (f:=none) ⟨rfl,rfl,rfl,rfl⟩ [.open [],.append [7] [],.append [8] [none,some [(0,3)]]]
  (w:=tornRun) rfl
 exact ⟨j,σ',hopen,by decide +kernel,hyields [] (by decide +kernel) [] j σ' hopen⟩

def skippedRun : World :=
 after (Event.step true ['j'] { unsafeSkipSync:=true }) [.open [],.append [7] [],.powerLoss []]
  { vfs:=Vfs.quiet [] }

/-- Where the sync is skipped, an acknowledged append can be lost. -/
theorem skippedRun_loses : skippedRun.found=some [] ∧ ∃ j σ',
  openJournal true ['j'] { unsafeSkipSync:=true } (facing [] skippedRun.vfs) =
   (.ok j,σ') ∧ ¬Expected skippedRun [] (Journal.contents j σ') := by
 have hacked:skippedRun.acked=[[7]]:=by decide +kernel
 have hin:skippedRun.inFlight=none:=by decide +kernel
 have hfound:((Event.open []).step true ['j'] { unsafeSkipSync:=true } skippedRun).found=some []:=by
  decide +kernel
 have hrest:Rest ['j'] (skippedRun.vfs.files.find ['j']) skippedRun.vfs:=
  ⟨by decide +kernel,rfl,by decide +kernel,by decide +kernel⟩
 obtain ⟨j,σ',hopen⟩:=openJournal_total { unsafeSkipSync:=true } hrest
 rw [Event.step,hopen] at hfound
 refine ⟨by decide +kernel,j,σ',hopen,?_⟩
 rw [Option.some.inj hfound]
 rintro (hexp | ⟨x,hx,-⟩)
 · rw [hacked] at hexp
   cases hexp
 · rw [hin] at hx
   cases hx

end Archivum.JournalRuns
