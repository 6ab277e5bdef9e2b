import Archivum.CrashRules
import Archivum.JournalFormat

set_option autoImplicit false

/-!
# Opening and appending, with power losses

The rules for a journal on a file system that keeps what was synced: an open
finds the records of the file and leaves exactly their bytes behind, and a power
loss on the way takes none of them.
-/
namespace Archivum.JournalRules
open ByteStrings StatefulActions PageTxn PageFormat VfsModel JournalModel JournalFormat CrashRules List Act

lemma writeAt_zero (b h:Bytes) : writeAt b 0 h=h++b.drop h.length := by
 rw [writeAt_eq,Nat.zero_add,resize_of_le b (Nat.zero_le _),take_zero,nil_append]

section Scan
variable {A:List (ℕ × ℕ) → Prop} {p:Path} {d:Option Bytes} {ops:List FileOp}
 {options:Options}

lemma scanRecords_rule (n:ℕ) (pre rest:Bytes) (records:List RecordRef) (hfuel:(pre++rest).length<pre.length+n) :
 Act.Triple (On A p (some (pre++rest)) d ops) (scanRecords p options (pre++rest).length n pre.length records)
  (fun r σ=>(∃ rs tail,Scans options.maxRecordBytes.toNat rest rs tail ∧
   r=(records++refsFrom pre.length rs,pre.length+(framesOf rs).length)) ∧ On A p (some (pre++rest)) d ops σ)
  fun _=>Lost A p (Outcome A d ops) := by
 induction n generalizing pre rest records with
 | zero=>
  rw [length_append] at hfuel
  omega
 | succ n ih=>
  have hstop:Rejected options.maxRecordBytes.toNat rest →
    Act.Triple (On A p (some (pre++rest)) d ops) (pure (records,pre.length):VfsM _)
     (fun r σ=>(∃ rs tail,Scans options.maxRecordBytes.toNat rest rs tail ∧
      r=(records++refsFrom pre.length rs,pre.length+(framesOf rs).length)) ∧
      On A p (some (pre++rest)) d ops σ) fun _=>Lost A p (Outcome A d ops):=fun hr=>
   Triple.pure fun _ h=>⟨⟨[],rest,⟨rfl,by simp,hr⟩,by simp [refsFrom]⟩,h⟩
  rw [scanRecords]
  refine Triple.ite (fun hshort=>hstop (Or.inl ?_)) fun hlong=>?_
  · rw [length_append] at hshort
    omega
  rw [length_append] at hlong
  have hslice:slice (pre++rest) pre.length kRecordHeaderBytes=slice rest 0 kRecordHeaderBytes:=by
   rw [slice_append_right _ _ _ _ le_rfl,Nat.sub_self]
  have hlen:(slice rest 0 kRecordHeaderBytes).length=kRecordHeaderBytes:=
   slice_length _ _ _ (by omega)
  have hread0:getU32 (slice rest 0 kRecordHeaderBytes) 0=getU32 rest 0:=by
   rw [getU32,getU32,getLE,getLE,slice_slice _ _ _ _ _ (by decide)]
  have hread4:getU32 (slice rest 0 kRecordHeaderBytes) 4=getU32 rest 4:=by
   rw [getU32,getU32,getLE,getLE,slice_slice _ _ _ _ _ (by decide)]
  have hfour:slice (slice rest 0 kRecordHeaderBytes) 0 4=slice rest 0 4:=
   slice_slice _ _ _ _ _ (by decide)
  refine Triple.bind (read_rule _ _) fun rh=>Triple.fact fun hrh=>?_
  rw [hrh,hslice,if_neg (by simp [hlen]),hread0,hread4,hfour]
  refine Triple.ite (fun hbad=>hstop ?_) fun hgood=>?_
  · rcases hbad with h | h
    · exact Or.inr (Or.inl h)
    · exact Or.inr (Or.inr (Or.inl h))
  refine Triple.ite (fun hshort=>hstop ?_) fun hfit=>?_
  · rw [length_append] at hshort
    exact Or.inr (Or.inr (Or.inr (Or.inl (by omega))))
  rw [length_append] at hfit
  have hpay:slice (pre++rest) (pre.length+kRecordHeaderBytes) (getU32 rest 0) =
    slice rest kRecordHeaderBytes (getU32 rest 0):=by
   rw [slice_append_right _ _ _ _ (by omega),Nat.add_sub_cancel_left]
  have hpaylen:(slice rest kRecordHeaderBytes (getU32 rest 0)).length=getU32 rest 0:=
   slice_length _ _ _ (by omega)
  refine Triple.bind (read_rule _ _) fun payload=>Triple.fact fun hpayload=>?_
  rw [hpayload,hpay,if_neg (by simp [hpaylen])]
  refine Triple.ite (fun hcrc=>hstop ?_) fun hcrc=>?_
  · exact Or.inr (Or.inr (Or.inr (Or.inr hcrc)))
  -- The record is one, and the scan goes on after it.
  have haccepted:¬Rejected options.maxRecordBytes.toNat rest:=by
   simp only [Rejected,not_or,not_lt]
   exact ⟨by omega,fun h=>hgood (Or.inl h),not_lt.mp fun h=>hgood (Or.inr h),by omega,hcrc⟩
  obtain ⟨hfits,hrest⟩:=frame_of_accepted haccepted
  set x:=slice rest kRecordHeaderBytes (getU32 rest 0) with hx
  set more:=rest.drop (kRecordHeaderBytes+getU32 rest 0) with hmore
  have hsplit:pre++rest=(pre++frame x)++more:=by
   rw [append_assoc,← hrest]
  have hoff:pre.length+kRecordHeaderBytes+getU32 rest 0=(pre++frame x).length:=by
   rw [length_append,frame_length,hpaylen,Nat.add_assoc]
  rw [hoff,hsplit]
  refine (ih (pre++frame x) more _ ?_).post fun r σ hpost=>?_
  · rw [← hsplit,← hoff]
    rw [length_append] at hfuel ⊢
    omega
  obtain ⟨⟨rs,tail,hscan,hr⟩,hon⟩:=hpost
  refine ⟨⟨x::rs,tail,⟨?_,?_,hscan.rejected⟩,?_⟩,hon⟩
  · rw [framesOf_cons,append_assoc,← hscan.bytes]
    exact hrest
  · intro y hy
    rcases mem_cons.mp hy with rfl | hy
    · exact hfits
    · exact hscan.fits y hy
  · rw [hr,refsFrom,framesOf_cons,hpaylen]
    simp only [length_append,append_assoc,cons_append,nil_append,Nat.add_assoc]

end Scan

/-- The file is the header, the records `rs`, and a rest where no record starts. -/
def Keeps (max:ℕ) (rs:List Bytes) (x:Option Bytes) : Prop :=
 ∃ body tail,x=some (makeHeader++body) ∧ Scans max body rs tail

/-- Exactly the header and the records `rs`. -/
def fileOf (rs:List Bytes) : Bytes := makeHeader++framesOf rs

/-- The journal object of a file that holds the records `rs`. -/
structure Holds (p:Path) (options:Options) (rs:List Bytes) (j:Journal) : Prop where
 path_eq : j.path=p
 options_eq : j.options=options
 records : j.records=refsFrom kHeaderBytes rs
 end_eq : j.end=(fileOf rs).length
 working : j.failed=false ∧ j.closed=false
 fits : ∀ x∈rs,Fits options.maxRecordBytes.toNat x

section Open
variable {A:List (ℕ × ℕ) → Prop} {p:Path} {options:Options} {rs:List Bytes} {tail:Bytes}

lemma syncOr_true (p:Path) : File.syncOr true p=File.sync p := rfl

lemma syncDirectoryOr_true (p:Path) : Vfs.syncDirectoryOr true p=Vfs.syncDirectory p := rfl

lemma Keeps.trim {body:Bytes} (h:Scans options.maxRecordBytes.toNat body rs tail) {x:Option Bytes}
 (hx:Outcome A (some (makeHeader++body)) [.truncate (fileOf rs).length] x) : Keeps options.maxRecordBytes.toNat rs x := by
 refine hx.induct (P:=Keeps options.maxRecordBytes.toNat rs) ⟨body,tail,rfl,h⟩ ?_
 rintro y op n hop ⟨body',tail',rfl,h'⟩
 obtain rfl:=mem_singleton.mp hop
 refine ⟨framesOf rs,[],?_,⟨by simp,h'.fits,rejected_nil⟩⟩
 have hle:(fileOf rs).length≤(makeHeader++body').length:=by
  rw [fileOf,h'.bytes]
  simp
 change some (resize (makeHeader++body') (fileOf rs).length)=_
 rw [resize_of_le _ hle,h'.bytes,← append_assoc]
 exact congrArg some take_left

lemma Scans.file {body:Bytes} (h:Scans options.maxRecordBytes.toNat body rs tail) : makeHeader++body=fileOf rs++tail := by
 rw [h.bytes,fileOf,append_assoc]

lemma scanFile_rule {d:Option Bytes} {ops:List FileOp} {body:Bytes}
 (h:Scans options.maxRecordBytes.toNat body rs tail) : Act.Triple (On A p (some (makeHeader++body)) d ops)
  (scanRecords p options (makeHeader++body).length (makeHeader++body).length kHeaderBytes [])
  (fun found σ=>found=(refsFrom kHeaderBytes rs,(fileOf rs).length) ∧
   On A p (some (makeHeader++body)) d ops σ) fun _=>Lost A p (Outcome A d ops) := by
 have hscan:Act.Triple (On A p (some (makeHeader++body)) d ops)
   (scanRecords p options (makeHeader++body).length (makeHeader++body).length makeHeader.length []) _ _:=
  scanRecords_rule (makeHeader++body).length makeHeader body [] (by
   rw [makeHeader_length]
   simp [kHeaderBytes])
 rw [makeHeader_length] at hscan
 refine hscan.post fun found σ hpost=>⟨?_,hpost.2⟩
 obtain ⟨⟨rs',tail',hscan',hfound⟩,-⟩:=hpost
 obtain ⟨rfl,rfl⟩:=h.unique options.maxRecordBytes.toNat_lt hscan'
 rw [hfound,fileOf,length_append,makeHeader_length,nil_append]

lemma Scans.holds {body:Bytes} (h:Scans options.maxRecordBytes.toNat body rs tail) (dropped:ℕ)
  (rewritten:Bool) : Holds p options rs
   { path:=p,options:=options,records:=refsFrom kHeaderBytes rs,«end»:=(fileOf rs).length,
     droppedTailBytes:=dropped,headerRewritten:=rewritten } :=
 ⟨rfl,rfl,rfl,rfl,⟨rfl,rfl⟩,h.fits⟩

lemma Scans.tail_nil {body:Bytes} (h:Scans options.maxRecordBytes.toNat body rs tail) :
 tail=[] ↔ (makeHeader++body).length-(fileOf rs).length=0 := by
 rw [Scans.file h,length_append,Nat.add_sub_cancel_left,length_eq_zero_iff]

lemma Scans.resize_file {body:Bytes} (h:Scans options.maxRecordBytes.toNat body rs tail) :
 resize (makeHeader++body) (fileOf rs).length=fileOf rs := by
 rw [Scans.file h,resize_of_le _ (by simp),take_left]

lemma recoverRecords_rule (body:Bytes) (rewritten:Bool) (h:Scans options.maxRecordBytes.toNat body rs tail) :
 Act.Triple (On A p (some (makeHeader++body)) (some (makeHeader++body)) [])
  (recoverRecords true p options (makeHeader++body).length rewritten)
  (fun j σ=>Holds p options rs j ∧ On A p (some (fileOf rs)) (some (fileOf rs)) [] σ)
  fun _=>Lost A p (Keeps options.maxRecordBytes.toNat rs) := by
 have hkeep:∀ x,Outcome A (some (makeHeader++body)) [] x → Keeps options.maxRecordBytes.toNat rs x:=by
  intro x hx
  rw [outcome_nil hx]
  exact ⟨body,tail,rfl,h⟩
 rw [recoverRecords]
 refine Triple.bind ((scanFile_rule h).onError fun _ _ hl=>hl.mono hkeep) fun found=>
  Triple.fact fun hfound=>?_
 rw [hfound]
 refine Triple.bind (Q:=fun _=>On A p (some (fileOf rs)) (some (fileOf rs)) [])
  (Triple.onlyIf (fun hcut=>?_) fun hnot σ hσ=>?_) fun _=>
   Triple.pure fun σ hσ=>⟨Scans.holds h _ _,hσ⟩
 · rw [syncOr_true]
   refine Triple.bind ((truncate_rule _).onError fun _ _ hl=>hl.mono hkeep) fun _=>?_
   refine sync_rule.weaken (fun _ hσ=>hσ) (fun _ σ hσ=>?_) fun _ _ hl=>hl.mono fun x hx=>Keeps.trim h hx
   have hdurable:([]++[FileOp.truncate (fileOf rs).length]).foldl FileOp.apply
     (some (makeHeader++body))=some (fileOf rs):=congrArg some (Scans.resize_file h)
   rwa [Scans.resize_file h,hdurable] at hσ
 · rw [Scans.file h,(Scans.tail_nil h).mpr (not_not.mp hnot),append_nil] at hσ
   exact hσ

lemma repairHeader_present (body:Bytes) : Act.Triple (On A p (some (makeHeader++body)) (some (makeHeader++body)) [])
  (repairHeader true p (makeHeader++body).length) (fun r σ=>r=((makeHeader++body).length,false) ∧
   On A p (some (makeHeader++body)) (some (makeHeader++body)) [] σ)
  fun _=>Lost A p (Outcome A (some (makeHeader++body)) []) := by
 have hslice:slice (makeHeader++body) 0 kHeaderBytes=makeHeader:=by
  rw [slice_append_left _ _ _ _ (by simp),← makeHeader_length,slice_all]
 refine Triple.bind (read_rule _ _) fun header=>Triple.fact fun hheader=>?_
 rw [hheader,hslice,if_pos ⟨makeHeader_length,rfl⟩]
 exact Triple.pure fun _ hσ=>⟨rfl,hσ⟩

lemma repairHeader_rule (b:Bytes) : Act.Triple (On A p (some b) (some b) []) (repairHeader true p b.length)
  (fun r σ=>∃ body,r.1=(makeHeader++body).length ∧ On A p (some (makeHeader++body)) (some (makeHeader++body)) [] σ)
  fun _=>Lost A p fun _=>True := by
 refine Triple.bind ((read_rule _ _).onError fun _ _ hl=>hl.mono fun _ _=>trivial) fun header=>Triple.fact fun hheader=>?_
 refine Triple.ite (fun hok=>?_) fun _=>?_
 · have hb:b=makeHeader++b.drop kHeaderBytes:=by
    rw [← hok.2,hheader,slice,drop_zero,take_append_drop]
   exact Triple.pure fun σ hσ=>⟨b.drop kHeaderBytes,by rw [← hb],by rw [← hb]; exact hσ⟩
 · -- The file as long as the header at least, and what is pending for that.
   have hgrow:Act.Triple (On A p (some b) (some b) []) (onlyIf (b.length<kHeaderBytes) (File.truncate p kHeaderBytes))
     (fun _ σ=>∃ b' ops,(b'.length=max b.length kHeaderBytes ∧
      ops.foldl FileOp.apply (some b)=some b') ∧ On A p (some b') (some b) ops σ)
     fun _=>Lost A p fun _=>True:=by
    refine Triple.onlyIf (fun hshort=>?_) fun hlong σ hσ=>?_
    · refine (truncate_rule _).weaken (fun _ hσ=>hσ) (fun _ σ hσ=>?_) fun _ _ hl=>hl.mono fun _ _=>trivial
      exact ⟨resize b kHeaderBytes,[.truncate kHeaderBytes],⟨by rw [resize_length]; omega,rfl⟩,hσ⟩
    · exact ⟨b,[],⟨by omega,rfl⟩,hσ⟩
   refine Triple.bind hgrow fun _=>Triple.exists_fact fun b'=>
    Triple.exists_fact fun ops=>Triple.fact fun hgrown=>?_
   obtain ⟨hlen,hops⟩:=hgrown
   refine Triple.bind ((write_rule _ _).onError fun _ _ hl=>hl.mono fun _ _=>trivial) fun _=>?_
   rw [syncOr_true,syncDirectoryOr_true]
   refine Triple.bind (sync_rule.onError fun _ _ hl=>hl.mono fun _ _=>trivial) fun _=>?_
   rw [foldl_append,hops]
   have hwritten:([FileOp.write 0 makeHeader].foldl FileOp.apply (some b')) =
     some (makeHeader++b'.drop kHeaderBytes):=by
    change some (writeAt b' 0 makeHeader)=_
    rw [writeAt_zero,makeHeader_length]
   rw [hwritten,writeAt_zero,makeHeader_length]
   refine Triple.bind ((syncDirectory_rule _).onError fun _ _ hl=>hl.mono fun _ _=>trivial)
    fun _=>Triple.pure fun σ hσ=>⟨b'.drop kHeaderBytes,?_,hσ⟩
   rw [length_append,makeHeader_length,length_drop,hlen]
   omega

lemma scans_exists (max:ℕ) (b:Bytes) : ∃ rs tail,Scans max b rs tail := by
 induction hn:b.length using Nat.strong_induction_on generalizing b with
 | _ n ih=>
  by_cases hr:Rejected max b
  · exact ⟨[],b,rfl,by simp,hr⟩
  · obtain ⟨hfits,hb⟩:=frame_of_accepted hr
    set x:=slice b kRecordHeaderBytes (getU32 b 0) with hx
    have hlt:(b.drop (kRecordHeaderBytes+getU32 b 0)).length<n:=by
     have hlen:=congrArg length hb
     rw [length_append,frame_length] at hlen
     simp only [kRecordHeaderBytes] at hlen ⊢
     omega
    obtain ⟨rs,tail,hscan⟩:=ih _ hlt _ rfl
    refine ⟨x::rs,tail,?_,?_,hscan.rejected⟩
    · rw [framesOf_cons,append_assoc,← hscan.bytes]
      exact hb
    · intro y hy
      rcases mem_cons.mp hy with rfl | hy
      · exact hfits
      · exact hscan.fits y hy

lemma openJournal_keeps {f:Option Bytes} (hf:Keeps options.maxRecordBytes.toNat rs f) :
 Act.Triple (On A p f f []) (openJournal true p options)
  (fun j σ=>Holds p options rs j ∧ On A p (some (fileOf rs)) (some (fileOf rs)) [] σ)
  fun _=>Lost A p (Keeps options.maxRecordBytes.toNat rs) := by
 obtain ⟨body,tail,rfl,h⟩:=hf
 have hkeep:∀ x,Outcome A (some (makeHeader++body)) [] x → Keeps options.maxRecordBytes.toNat rs x:=by
  intro x hx
  rw [outcome_nil hx]
  exact ⟨body,tail,rfl,h⟩
 refine Triple.bind (pathExists_rule.onError fun _ _ hl=>hl.mono hkeep) fun present=>
  Triple.fact fun hpresent=>?_
 refine Triple.bind (openFile_rule.onError fun _ _ hl=>hl.mono hkeep) fun _=>?_
 rw [hpresent,Option.isSome_some,if_pos rfl,recover]
 refine Triple.bind (size_rule.onError fun _ _ hl=>hl.mono hkeep) fun size=>
  Triple.fact fun hsize=>?_
 rw [hsize]
 refine Triple.bind ((repairHeader_present body).onError fun _ _ hl=>hl.mono hkeep) fun r=>
  Triple.fact fun hr=>?_
 rw [hr]
 exact recoverRecords_rule body false h

lemma openJournal_rule (options:Options) (f:Option Bytes) : Act.Triple (On A p f f []) (openJournal true p options)
  (fun j σ=>∃ rs,Holds p options rs j ∧ On A p (some (fileOf rs)) (some (fileOf rs)) [] σ) fun _=>Lost A p fun _=>True := by
 refine Triple.bind (pathExists_rule.onError fun _ _ hl=>hl.mono fun _ _=>trivial) fun present=>
  Triple.fact fun hpresent=>?_
 cases f with
 | none=>
  refine Triple.bind (createFile_rule.onError fun _ _ hl=>hl.mono fun _ _=>trivial) fun _=>?_
  rw [hpresent,Option.isSome_none,if_neg (by simp),createNew,syncOr_true,syncDirectoryOr_true]
  refine Triple.bind ((write_rule _ _).onError fun _ _ hl=>hl.mono fun _ _=>trivial) fun _=>?_
  refine Triple.bind (sync_rule.onError fun _ _ hl=>hl.mono fun _ _=>trivial) fun _=>?_
  have hwritten:writeAt [] 0 makeHeader=fileOf []:=by
   rw [writeAt_zero,drop_nil,fileOf,framesOf_nil]
  have hdurable:([]++[FileOp.create]++[FileOp.write 0 makeHeader]).foldl FileOp.apply none =
    some (fileOf []):=congrArg some hwritten
  rw [hwritten,hdurable]
  refine Triple.bind ((syncDirectory_rule _).onError fun _ _ hl=>hl.mono fun _ _=>trivial)
   fun _=>Triple.pure fun σ hσ=>⟨[],⟨rfl,rfl,rfl,?_,⟨rfl,rfl⟩,by simp⟩,hσ⟩
  rw [fileOf,framesOf_nil,append_nil,makeHeader_length]
 | some b=>
  refine Triple.bind (openFile_rule.onError fun _ _ hl=>hl.mono fun _ _=>trivial) fun _=>?_
  rw [hpresent,Option.isSome_some,if_pos rfl,recover]
  refine Triple.bind (size_rule.onError fun _ _ hl=>hl.mono fun _ _=>trivial) fun size=>
   Triple.fact fun hsize=>?_
  rw [hsize]
  refine Triple.bind (repairHeader_rule b) fun r=>Triple.exists_fact fun body=>
   Triple.fact fun hr=>?_
  rw [hr]
  obtain ⟨rs,tail,hscan⟩:=scans_exists options.maxRecordBytes.toNat body
  exact (recoverRecords_rule body r.2 hscan).weaken (fun _ hσ=>hσ) (fun j σ hj=>⟨rs,hj⟩) fun _ _ hl=>hl.mono fun _ _=>trivial

end Open

section Append
variable {A:List (ℕ × ℕ) → Prop} {p:Path} {options:Options} {rs:List Bytes} {x:Bytes}

lemma writeAt_again (a d:Bytes) (n m:ℕ) : writeAt (a++d.take n) a.length (d.take m)=a++d.take (max n m) := by
 have hfront:resize (a++d.take n) a.length=a:=by
  rw [resize_of_le _ (by simp),take_left]
 rw [writeAt_eq,hfront,append_assoc,← drop_drop,drop_left]
 congr 1
 by_cases hle:m≤n
 · have htake:d.take m=(d.take n).take m:=by rw [take_take,min_eq_left hle]
   rw [htake,length_take,max_eq_left hle]
   by_cases hlen:m≤(d.take n).length
   · rw [min_eq_left hlen,take_append_drop]
   · rw [min_eq_right (by omega),drop_length,append_nil,take_of_length_le (by omega)]
 · rw [max_eq_right (by omega),drop_of_length_le,append_nil]
   rw [length_take,length_take]
   omega

lemma keeps_torn (hrs:∀ y∈rs,Fits options.maxRecordBytes.toNat y) (hx:Fits options.maxRecordBytes.toNat x) {y:Option Bytes}
 (hy:Outcome A (some (fileOf rs)) [.write (fileOf rs).length (frame x)] y) :
 Keeps options.maxRecordBytes.toNat rs y ∨ Keeps options.maxRecordBytes.toNat (rs++[x]) y := by
 obtain ⟨n,rfl⟩:∃ n,y=some (fileOf rs++(frame x).take n):=by
  refine hy.induct (P:=fun y=>∃ n,y=some (fileOf rs++(frame x).take n)) ⟨0,by simp⟩ ?_
  rintro y op m hop ⟨n,rfl⟩
  obtain rfl:=mem_singleton.mp hop
  exact ⟨max n m,congrArg some (writeAt_again _ _ n m)⟩
 by_cases hn:n<(frame x).length
 · refine Or.inl ⟨framesOf rs++(frame x).take n,(frame x).take n,?_,rfl,hrs,?_⟩
   · rw [fileOf,append_assoc]
   · exact rejected_torn options.maxRecordBytes.toNat_lt hx hn
 · refine Or.inr ⟨framesOf (rs++[x]),[],?_,by simp,?_,rejected_nil⟩
   · rw [take_of_length_le (by omega),fileOf,framesOf_append,append_assoc]
     simp
   · intro y hy
     rcases mem_append.mp hy with hy | hy
     · exact hrs y hy
     · rw [mem_singleton.mp hy]
       exact hx

lemma writeAt_fileOf (rs:List Bytes) (x:Bytes) : writeAt (fileOf rs) (fileOf rs).length (frame x)=fileOf (rs++[x]) := by
 rw [writeAt_end,fileOf,fileOf,framesOf_append,append_assoc]
 simp

/-- The journal holds `rs`, all of it durable. -/
def Ready (A:List (ℕ × ℕ) → Prop) (p:Path) (options:Options) (rs:List Bytes) (s : JournalIO) :
  Prop :=
 Holds p options rs s.journal ∧ On A p (some (fileOf rs)) (some (fileOf rs)) [] s.vfs

lemma append_of_write {honest:Bool} {On₁ On₂ C:Vfs → Prop} (x:Bytes)
 (hblock:Fits options.maxRecordBytes.toNat x → Act.Triple On₁
  (do
   File.write p (fileOf rs).length (frame x)
   onlyIf (options.unsafeSkipSync=false) (File.syncOr honest p)) (fun _=>On₂) fun _=>C) :
 Act.Triple (fun s : JournalIO=>Holds p options rs s.journal ∧ On₁ s.vfs) (Journal.append honest x)
  (fun _ s=>Holds p options (rs++[x]) s.journal ∧ On₂ s.vfs)
  fun _ s=>(Holds p options rs s.journal ∧ On₁ s.vfs) ∧ ¬Fits options.maxRecordBytes.toNat x ∨
   Fits options.maxRecordBytes.toNat x ∧ C s.vfs := by
 rintro ⟨σ,j⟩ ⟨hj,hσ⟩
 change Holds p options rs j at hj
 change On₁ σ at hσ
 rw [Journal.append,bind_reads]
 simp only [hj.working,Bool.false_eq_true,if_false]
 by_cases hnil:x=[]
 · rw [if_pos hnil]
   exact Or.inl ⟨⟨hj,hσ⟩,fun hx=>hx.nonempty hnil⟩
 rw [if_neg hnil,hj.options_eq]
 by_cases hbig:options.maxRecordBytes.toNat<x.length
 · rw [if_pos hbig]
   exact Or.inl ⟨⟨hj,hσ⟩,fun hx=>absurd hx.le (not_le.mpr hbig)⟩
 rw [if_neg hbig,hj.path_eq,hj.end_eq]
 have hx:Fits options.maxRecordBytes.toNat x:=⟨hnil,not_lt.mp hbig⟩
 have hpost:=hblock hx σ hσ
 rcases hrun:(do
   File.write p (fileOf rs).length (frame x)
   onlyIf (options.unsafeSkipSync=false) (File.syncOr honest p):VfsM Unit) σ with ⟨r,σ'⟩
 rw [hrun] at hpost
 have hio:Journal.io (do
   File.write p (fileOf rs).length (frame x)
   onlyIf (options.unsafeSkipSync=false) (File.syncOr honest p)) ⟨σ,j⟩ = (r,⟨σ',j⟩):=zoom_of (g := JournalIO.vfs) hrun
 rw [bind_of_ok _ (attempt_of hio)]
 cases r with
 | error e=>exact Or.inr ⟨hx,hpost⟩
 | ok _=>
  refine ⟨⟨hj.path_eq,hj.options_eq,?_,?_,hj.working,fun y hy=>?_⟩,hpost⟩
  · change j.records++[⟨j.end,x.length⟩]=_
    rw [hj.records,refsFrom_append,hj.end_eq,fileOf,length_append,makeHeader_length]
    rfl
  · change j.end+(frame x).length=_
    rw [hj.end_eq,← writeAt_fileOf,writeAt_end,length_append]
  · rcases mem_append.mp hy with hy | hy
    · exact hj.fits y hy
    · rw [mem_singleton.mp hy]
      exact hx

lemma append_rule (hsafe:options.unsafeSkipSync=false) (hrs:∀ y∈rs,Fits options.maxRecordBytes.toNat y) (x:Bytes) :
 Act.Triple (Ready A p options rs) (Journal.append true x) (fun _=>Ready A p options (rs++[x]))
  fun _ s=>Ready A p options rs s ∧ ¬Fits options.maxRecordBytes.toNat x ∨
   Fits options.maxRecordBytes.toNat x ∧ Lost A p (fun y=>Keeps options.maxRecordBytes.toNat rs y ∨
    Keeps options.maxRecordBytes.toNat (rs++[x]) y) s.vfs := by
 refine append_of_write x fun hx=>?_
 rw [onlyIf,if_pos hsafe,syncOr_true]
 refine Triple.bind ((write_rule _ _).onError fun _ _ hl=>
  hl.mono fun y hy=>keeps_torn hrs hx hy) fun _=>?_
 refine sync_rule.weaken (fun _ h=>h) (fun _ σ h=>?_) fun _ _ hl=>
  hl.mono fun y hy=>keeps_torn hrs hx hy
 have hdurable:([]++[FileOp.write (fileOf rs).length (frame x)]).foldl FileOp.apply
   (some (fileOf rs))=some (fileOf (rs++[x])):=congrArg some (writeAt_fileOf rs x)
 rwa [writeAt_fileOf,hdurable] at h

end Append

end Archivum.JournalRules
