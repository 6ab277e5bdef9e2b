import Archivum.RecoveryRules

set_option autoImplicit false

/-!
# What point-in-time recovery promises

Every recovery that returns leaves a committed state of the history, reached
from the backup by consecutive commits within the target. A time target is
reported as reached whatever was supplied, so whether it was met depends on the
files: the backup must not be later than the target, and no supplied commit may
lie behind a gap.
-/
namespace Archivum.PointInTime
open ByteStrings StatefulActions PageTxn PageFormat VfsModel WalModel DbModel Histories LogImage List
open DbOpen RecoveryModel ReplayRules RecoveryRules

lemma idHex_length (id:DbId) : (Db.idHex id).length=32 := by
 rw [Db.idHex,length_flatMap]
 have hmap:id.1.map (fun b=>(Db.hexOf b).length)=replicate 16 2:=by
  rw [eq_replicate_iff]
  refine ⟨by rw [length_map,id.2],fun n hn=>?_⟩
  obtain ⟨b,-,rfl⟩:=mem_map.mp hn
  rfl
 rw [hmap]
 rfl

lemma paddedDigits_length {n:ℕ} (hn:n<2^64) : (Db.paddedDigits n).length=20 := by
 have hlen:(Nat.toDigits 10 n).length≤20:=
  (Nat.length_toDigits_le_iff (by decide) (by decide)).mpr (hn.trans (by decide))
 rw [Db.paddedDigits,length_append,length_replicate,min_eq_right hlen]
 omega

lemma digitsValue_paddedDigits {n:ℕ} (hn:n<2^64) : digitsValue (Db.paddedDigits n)=n := by
 rw [digitsValue,Db.paddedDigits,Nat.ofDigitChars_append,Nat.ofDigitChars_replicate_zero,
  Nat.mul_zero,Nat.ofDigitChars_ten_toDigits]
 omega

lemma isDigit_of_mem_paddedDigits {n:ℕ} {c:Char} (hc:c∈Db.paddedDigits n) : c.isDigit=true := by
 rcases mem_append.mp hc with hc | hc
 · rw [(mem_replicate.mp hc).2]
   rfl
 · exact Nat.isDigit_of_mem_toDigits (by decide) le_rfl hc

lemma segmentBase_archiveSegmentName (id:DbId) {n:ℕ} (hn:n<2^64) : segmentBase id (Db.archiveSegmentName id n)=some n := by
 have hname:Db.archiveSegmentName id n =
   (Db.idHex id++['-'])++(Db.paddedDigits n++['.','w','a','l']):=by
  simp [Db.archiveSegmentName]
 have hhead:(Db.idHex id++['-']).length=33:=by
  rw [length_append,idHex_length]
  rfl
 have hdigits:=paddedDigits_length hn
 have hlen:(Db.archiveSegmentName id n).length=57:=by
  rw [hname,length_append,hhead,length_append,hdigits]
  rfl
 have hend:(Db.archiveSegmentName id n).drop 53=['.','w','a','l']:=by
  rw [hname,← append_assoc]
  exact drop_left' (by rw [length_append,hhead,hdigits])
 have hmid:((Db.archiveSegmentName id n).drop 33).take 20=Db.paddedDigits n:=by
  rw [hname,drop_left' hhead,take_left' hdigits]
 have hall:(Db.paddedDigits n).all Char.isDigit=true:=by
  rw [all_eq_true]
  exact fun c hc=>isDigit_of_mem_paddedDigits hc
 rw [segmentBase,idHex_length,hlen,hend,if_neg]
 · simp only [hmid,hall,if_true,digitsValue_paddedDigits hn]
 · rw [hname]
   simp

lemma archiveSegmentName_inj {id:DbId} {j k:ℕ} (hj:j<2^64) (hk:k<2^64)
 (h:Db.archiveSegmentName id j=Db.archiveSegmentName id k) : j=k := by
 have:=segmentBase_archiveSegmentName id hj
 rw [h,segmentBase_archiveSegmentName id hk] at this
 exact (Option.some.inj this).symm

lemma slash_not_mem_hexOf (b:UInt8) : '/' ∉ Db.hexOf b := by
 have hdigit:∀ i,Db.hexDigits.getD i '0' ≠ '/':=by
  intro i
  rw [getD_eq_getElem?_getD]
  cases hi:Db.hexDigits[i]? with
  | none=>decide
  | some c=>
   intro hc
   have hmem:=mem_of_getElem? hi
   change c = '/' at hc
   rw [hc] at hmem
   exact absurd hmem (by decide)
 intro h
 rcases mem_cons.mp h with h | h
 · exact hdigit _ h.symm
 · exact hdigit _ (mem_singleton.mp h).symm

lemma slash_not_mem_archiveSegmentName (id:DbId) (n:ℕ) : '/' ∉ Db.archiveSegmentName id n := by
 have hhex : '/' ∉ Db.idHex id:=by
  intro h
  obtain ⟨b,-,hb⟩:=mem_flatMap.mp h
  exact slash_not_mem_hexOf b hb
 have hdigits : '/' ∉ Db.paddedDigits n:=fun h=>by
  have:=isDigit_of_mem_paddedDigits h
  exact absurd this (by decide)
 simp [Db.archiveSegmentName,hhex,hdigits]

def Admits (t:RecoveryTarget) (counter:ℕ) (timeUs:ℤ) : Prop :=
 (∀ n,t.changeCounter=some n → counter ≤ n) ∧ ∀ u,t.timeUs=some u → timeUs ≤ u

lemma within_iff (t:RecoveryTarget) (counter:ℕ) (timeUs:ℤ) : t.within counter timeUs=true ↔ Admits t counter timeUs := by
 rw [RecoveryTarget.within,Admits,Bool.and_eq_true]
 cases t.changeCounter <;> cases t.timeUs <;> simp

/-- A recovery from a backup of a history with segments and a live log of it, whatever is missing
and whatever goes wrong on the way: if it returns, the output is the committed state at the counter
it reports, and the commits since the backup were applied, each within the target. -/
theorem recoverToPoint_committed {H:Line} {σ σ':Vfs} {backup dir live out:Path}
  {target:RecoveryTarget} {b:ℕ} {rep:RecoveryReport} (hb:b ≤ H.last)
  (hbackup:σ.files.find backup=some (H.image b))
  (hsegments:∀ name k x,segmentBase H.root.dbId name=some k →
   σ.files.find (dir ++ '/' :: name)=some x → ∃ B L h,LogFile H B L h x)
  (hlive:live≠[] → ∀ x,σ.files.find live=some x → ∃ B L h,LogFile H B L h x)
  (hrun:recoverToPoint backup dir live target out σ=(.ok rep,σ')) :
  σ'.files.find out=some (H.image rep.changeCounter) ∧ rep.startChangeCounter=b ∧
   b ≤ rep.changeCounter ∧ rep.changeCounter ≤ H.last ∧
   rep.transactionsApplied=rep.changeCounter-b ∧
   ∀ k,b<k → k ≤ rep.changeCounter → Admits target k (H.headerAt k).commitTimeUs := by
 have hgiven:Given True H σ.files backup dir live out b:=
  { le_last:=hb
    backupFile:=hbackup
    segment:=fun name k x hk hx=>by
      obtain ⟨B,L,h,hl⟩:=hsegments name k x hk hx
      exact ⟨B,L,h,hl,Or.inl trivial⟩
    liveLog:=hlive
    fresh:=Or.inl trivial
    apart:=Or.inl trivial }
 obtain ⟨n,hout⟩:=(recoverToPoint_rule target hgiven).ok σ.at_true hrun
 have hprog:=hout.progress
 rw [hprog.counter,hout.output.files hout.alive,Disk.find_put_self]
 exact ⟨rfl,hprog.start,hprog.from_le,hprog.le_last,hprog.applied,
  fun k hk hkn=>(within_iff _ _ _).mp (hprog.within k hk hkn)⟩

section Time
variable {H:Line} {d:Disk} {backup dir live out:Path} {b:ℕ} {T:ℤ}

/-- An archived segment named by the base `k`, with the commits after `B` up to `L`. -/
def Segment (H:Line) (d:Disk) (dir:Path) (k B L:ℕ) : Prop :=
 dir≠[] ∧ k<2^64 ∧ Db.archiveSegmentName H.root.dbId k∈d.list dir ∧
  Holds H d (dir ++ '/' :: Db.archiveSegmentName H.root.dbId k) B L

/-- The live log holds the commits after `B` up to `L`. -/
def LiveLog (H:Line) (d:Disk) (live:Path) (B L:ℕ) : Prop := live≠[] ∧ Holds H d live B L

def Supplied (H:Line) (d:Disk) (dir live:Path) (n:ℕ) : Prop :=
 ∃ B L,((∃ k,Segment H d dir k B L) ∨ LiveLog H d live B L) ∧ B<n ∧ n ≤ L

/-- The commit can be reached from the backup without a gap: along segments, and from where they
end along the live log. -/
def Connected (H:Line) (d:Disk) (dir live:Path) (b n:ℕ) : Prop :=
 ∃ c,(∀ m,b < m → m ≤ c → ∃ k B L,Segment H d dir k B L ∧ k < m ∧ m ≤ L) ∧
  (n ≤ c ∨ ∃ B L,LiveLog H d live B L ∧ B ≤ c ∧ n ≤ L)

/-- The files of a recovery to a time: a backup, archived segments under the names the archive
gives them and a live log, all of one history whose commit times do not decrease. -/
structure Inputs (H:Line) (d:Disk) (backup dir live out:Path) (b:ℕ) : Prop where
 le_last : b ≤ H.last
 backupFile : d.find backup=some (H.image b)
 segment : ∀ name k x,segmentBase H.root.dbId name=some k → d.find (dir ++ '/' :: name)=some x →
  ∃ B L h,LogFile H B L h x ∧ B ≤ k
 liveLog : live≠[] → ∀ x,d.find live=some x → ∃ B L h,LogFile H B L h x
 apart : ∀ name k,segmentBase H.root.dbId name=some k →
  dir ++ '/' :: name≠out ∧ dir ++ '/' :: name≠live
 named : ∀ name∈d.list dir,∀ k,segmentBase H.root.dbId name=some k →
  ∃ j<2^64,name=Db.archiveSegmentName H.root.dbId j
 times : ∀ j k,0<j → j ≤ k → k ≤ H.last →
  (H.headerAt j).commitTimeUs ≤ (H.headerAt k).commitTimeUs

def Fresh (d:Disk) (out:Path) : Prop := d.find out=none ∧ d.find (walPathOf out)=none

lemma Inputs.given (hin:Inputs H d backup dir live out b) (hfresh:Fresh d out) : Given False H d backup dir live out b where
 le_last := hin.le_last
 backupFile:=hin.backupFile
 segment name k x hk hx:=by
  obtain ⟨B,L,h,hl,hB⟩:=hin.segment name k x hk hx
  exact ⟨B,L,h,hl,Or.inr hB⟩
 liveLog:=hin.liveLog
 fresh:=Or.inr hfresh
 apart:=Or.inr hin.apart

/-- What a recovery to the time `T` should mean: if it reports the target as reached, the output
holds no commit later than `T` and every supplied commit at or before it. -/
def MeetsTime (H:Line) (d:Disk) (dir live out:Path) (T:ℤ)
  (r:Except Status RecoveryReport × Vfs) : Prop :=
 ∀ rep,r.1=.ok rep → rep.targetReached=true →
  r.2.files.find out=some (H.image rep.changeCounter) ∧
   (∀ k,0<k → k ≤ rep.changeCounter → (H.headerAt k).commitTimeUs ≤ T) ∧
   ∀ k,Supplied H d dir live k → (H.headerAt k).commitTimeUs ≤ T → k ≤ rep.changeCounter

/-- The backup is not later than `T`, and no supplied commit up to `T` lies behind a gap. -/
def Gapless (H:Line) (d:Disk) (dir live:Path) (T:ℤ) (b:ℕ) : Prop :=
 (∀ k,0<k → k ≤ b → (H.headerAt k).commitTimeUs ≤ T) ∧
  ∀ n,b<n → Supplied H d dir live n → (H.headerAt n).commitTimeUs ≤ T →
   Connected H d dir live b n

lemma mem_foundSegments_iff (hin:Inputs H d backup dir live out b) {x:ℕ × Path} :
 x∈foundSegments H d out dir b ↔ ∃ B L,Segment H d dir x.1 B L ∧
  x.2=dir ++ '/' :: Db.archiveSegmentName H.root.dbId x.1 := by
 have hapart:=hin.apart
 have hlist:∀ name k,segmentBase H.root.dbId name=some k →
   (name∈(d.put out (H.image b)).list dir ↔ name∈d.list dir):=by
  intro name k hk
  rw [Disk.mem_list_iff,Disk.mem_list_iff,Disk.find_put_of_ne _ _ (hapart name k hk).1]
 constructor
 · intro hx
   have hdir:dir≠[]:=by
    rintro rfl
    rw [foundSegments,if_pos rfl] at hx
    cases hx
   rw [foundSegments,if_neg hdir] at hx
   obtain ⟨name,hmem,hbase,hpath⟩:=(segmentsOf_spec _ _ _).2.1 x hx
   rw [hlist name _ hbase] at hmem
   obtain ⟨j,hj,rfl⟩:=hin.named name hmem _ hbase
   rw [segmentBase_archiveSegmentName _ hj] at hbase
   obtain rfl:=Option.some.inj hbase
   obtain ⟨y,hy⟩:=Option.isSome_iff_exists.mp ((Disk.mem_list_iff _ _ _).mp hmem).2
   obtain ⟨B,L,h,hl,-⟩:=hin.segment _ _ y (segmentBase_archiveSegmentName _ hj) hy
   exact ⟨B,L,⟨hdir,hj,hmem,h,y,hy,hl⟩,hpath⟩
 · rintro ⟨B,L,⟨hdir,hk,hmem,-⟩,hpath⟩
   have hbase:=segmentBase_archiveSegmentName H.root.dbId hk
   rw [foundSegments,if_neg hdir]
   obtain ⟨p,hp⟩:=(segmentsOf_spec H.root.dbId dir _).2.2 _ ((hlist _ _ hbase).mpr hmem) _ hbase
   obtain ⟨name,hname,hbase',hpath'⟩:=(segmentsOf_spec _ _ _).2.1 _ hp
   rw [hlist name _ hbase'] at hname
   obtain ⟨j,hj,rfl⟩:=hin.named name hname _ hbase'
   rw [segmentBase_archiveSegmentName _ hj] at hbase'
   obtain rfl:=Option.some.inj hbase'
   have hx:x=(x.1,p):=Prod.ext rfl (hpath.trans hpath'.symm)
   rw [hx]
   exact hp

lemma covered_iff (hin:Inputs H d backup dir live out b) {c:ℕ} : Covered H d (foundSegments H d out dir b) b c ↔
  ∀ m,b < m → m ≤ c → ∃ k B L,Segment H d dir k B L ∧ k < m ∧ m≤L := by
 constructor
 · intro hcov m hm hmc
   obtain ⟨s,hs,B,L,hh,hlt,hle⟩:=hcov m hm hmc
   obtain ⟨B',L',hseg,hpath⟩:=(mem_foundSegments_iff hin).mp hs
   rw [hpath] at hh
   obtain ⟨rfl,rfl⟩:=hh.unique hseg.2.2.2
   exact ⟨s.1,B,L,hseg,hlt,hle⟩
 · intro hcov m hm hmc
   obtain ⟨k,B,L,hseg,hlt,hle⟩:=hcov m hm hmc
   exact ⟨(k,_),(mem_foundSegments_iff hin).mpr ⟨B,L,hseg,rfl⟩,B,L,hseg.2.2.2,hlt,hle⟩

lemma recoverToPoint_time {σ:Vfs} (hσ:σ.Calm)
  (hin:Inputs H σ.files backup dir live out b) (hfresh:Fresh σ.files out) :
  ∃ rep σ' n,recoverToPoint backup dir live { timeUs:=some T } out σ=(.ok rep,σ') ∧
   Outcome False H σ.files dir live { timeUs:=some T } out b n rep σ' := by
 obtain ⟨rep,σ',hrun,n,hout⟩:=(recoverToPoint_rule _ (hin.given hfresh)).run (hσ.at False) fun _ _=>id
 exact ⟨rep,σ',n,hrun,hout⟩

lemma outcome_time_le {σ':Vfs} {rep:RecoveryReport} {n:ℕ}
  (hout:Outcome False H d dir live { timeUs:=some T } out b n rep σ') {k:ℕ} (hk:b<k)
  (hkn:k≤n) : (H.headerAt k).commitTimeUs≤T :=
 ((within_iff _ _ _).mp (hout.progress.within k hk hkn)).2 T rfl

lemma gapless_of_meetsTime {σ:Vfs} (hσ:σ.Calm)
  (hin:Inputs H σ.files backup dir live out b) (hfresh:Fresh σ.files out)
  (hmeets:MeetsTime H σ.files dir live out T
   (recoverToPoint backup dir live { timeUs:=some T } out σ)) :
  Gapless H σ.files dir live T b := by
 obtain ⟨rep,σ',n,hrun,hout⟩:=recoverToPoint_time (T:=T) hσ hin hfresh
 rw [hrun] at hmeets
 obtain ⟨-,hearly,hall⟩:=hmeets rep rfl hout.targetReached
 rw [hout.progress.counter] at hearly hall
 refine ⟨fun k hk hkb=>hearly k hk (hkb.trans hout.progress.from_le),fun m hm hsup htime=>?_⟩
 have hmn:=hall m hsup htime
 obtain ⟨c,hcov,hcn,hend⟩:=hout.reached.resolve_left id
 refine ⟨c,(covered_iff hin).mp hcov,?_⟩
 rcases hend with rfl | ⟨B,L,hne,hh,hB,hL⟩
 · exact Or.inl hmn
 · exact Or.inr ⟨B,L,⟨hne,hh⟩,hB,hmn.trans hL⟩

lemma meetsTime_of_gapless {σ:Vfs} (hσ:σ.Calm)
  (hin:Inputs H σ.files backup dir live out b) (hfresh:Fresh σ.files out)
  (hgap:Gapless H σ.files dir live T b) :
  MeetsTime H σ.files dir live out T
   (recoverToPoint backup dir live { timeUs:=some T } out σ) := by
 obtain ⟨rep,σ',n,hrun,hout⟩:=recoverToPoint_time (T:=T) hσ hin hfresh
 have hprog:=hout.progress
 rw [hrun]
 intro rep' hrep _
 obtain rfl:=Except.ok.inj hrep
 rw [hprog.counter]
 refine ⟨?_,fun k hk hkn=>?_,fun m hsup htime=>?_⟩
 · change σ'.files.find out=_
   rw [hout.output.files hout.alive,Disk.find_put_self]
 · rcases Nat.lt_or_ge b k with hbk | hbk
   · exact outcome_time_le hout hbk hkn
   · exact hgap.1 k hk hbk
 by_contra hlt
 have hnm:n < m:=Nat.lt_of_not_ge hlt
 have hmlast:m≤H.last:=by
  obtain ⟨B,L,hfile,-,hmL⟩:=hsup
  rcases hfile with ⟨k,-,-,-,h,x,-,hl⟩ | ⟨-,h,x,-,hl⟩
  · exact hmL.trans hl.last_le
  · exact hmL.trans hl.last_le
 -- The target did not stop it: the next commit is not later than `m`.
 have hnext:=hin.times (n+1) m (Nat.succ_pos n) hnm hmlast
 have hcomplete:Complete H σ.files (foundSegments H σ.files out dir b) live b n:=by
  rcases hout.complete with (hdone | ⟨-,hbeyond⟩) | hF | hc
  · cases hdone
  · have hin':=(within_iff { timeUs:=some T } (n+1) (H.headerAt (n+1)).commitTimeUs).mpr
     ⟨fun _ hx=>(nomatch hx),fun u hu=>by
      obtain rfl:=Option.some.inj hu
      exact hnext.trans htime⟩
    rw [hin'] at hbeyond
    cases hbeyond
  · exact hF.elim
  · exact hc
 obtain ⟨c,hbc,hcn,hsegs,hlive⟩:=hcomplete
 obtain ⟨e,hcov,hend⟩:=hgap.2 m (by have:=hprog.from_le; omega) hsup htime
 -- The segments end at `c`, so nothing beyond it is covered.
 have hec:e ≤ c:=by
  by_contra hgt
  obtain ⟨k,B,L,hseg,hkc,hcL⟩:=hcov (c+1) (by omega) (by omega)
  have hmem:(k,dir ++ '/' :: Db.archiveSegmentName H.root.dbId k) ∈
    foundSegments H σ.files out dir b:=(mem_foundSegments_iff hin).mpr ⟨B,L,hseg,rfl⟩
  have:=hsegs _ hmem (Nat.le_of_lt_succ hkc) B L hseg.2.2.2
  omega
 rcases hend with hme | ⟨B,L,⟨hne,hh⟩,hB,hmL⟩
 · omega
 · have:=hlive B L hne hh (hB.trans hec)
   omega

lemma refuseExisting_calm {σ:Vfs} (hσ:σ.Calm) {path:Path} : (σ.files.find path=none → refuseExisting path σ=(.ok (),σ)) ∧
  (σ.files.find path≠none → ∃ e,refuseExisting path σ=(.error e,σ)) := by
 rw [refuseExisting,Act.bind_of_ok _ (pathExists_calm hσ path)]
 constructor
 · intro hnone
   rw [hnone]
   rfl
 · intro hsome
   obtain ⟨x,hx⟩:=Option.ne_none_iff_exists'.mp hsome
   rw [hx]
   exact ⟨_,rfl⟩

lemma recoverToPoint_refused {σ:Vfs} (hσ:σ.Calm) (hold:¬Fresh σ.files out)
 (backup dir live:Path) (target:RecoveryTarget) : ∃ e,recoverToPoint backup dir live target out σ=(.error e,σ) := by
 rw [recoverToPoint]
 by_cases hout:σ.files.find out=none
 · obtain ⟨e,he⟩:=(refuseExisting_calm hσ).2 fun hwal=>hold ⟨hout,hwal⟩
   exact ⟨e,(Act.bind_of_ok _ ((refuseExisting_calm hσ).1 hout)).trans (Act.bind_of_error _ he)⟩
 · obtain ⟨e,he⟩:=(refuseExisting_calm hσ).2 hout
   exact ⟨e,Act.bind_of_error _ he⟩

/-- A recovery to a time does what it reports exactly when the output is new only if the backup is
not later than the target and no supplied commit up to the target lies behind a gap. -/
theorem recoverToPoint_time_iff {σ:Vfs} (hσ:σ.Calm)
  (hin:Inputs H σ.files backup dir live out b) :
  MeetsTime H σ.files dir live out T
    (recoverToPoint backup dir live { timeUs:=some T } out σ) ↔
   (Fresh σ.files out → Gapless H σ.files dir live T b) := by
 constructor
 · intro hmeets hfresh
   exact gapless_of_meetsTime hσ hin hfresh hmeets
 · intro hgap
   by_cases hfresh:Fresh σ.files out
   · exact meetsTime_of_gapless hσ hin hfresh (hgap hfresh)
   · obtain ⟨e,herr⟩:=recoverToPoint_refused hσ hfresh backup dir live
      { timeUs:=some T }
     rw [herr]
     intro rep hrep
     cases hrep

end Time

def twoCommits : Line := exampleLine (fun _=>1) 2 (by decide)

def exampleSegment (B:ℕ) : Path := ['a','/']++Db.archiveSegmentName twoCommits.root.dbId B

/-- A backup at counter 0 and the segment with the commits after `B` up to 2. -/
def exampleArchive (B:ℕ) : Disk :=
 [(['b'],twoCommits.image 0),
  (exampleSegment B,logBytes (exampleLogHeader B) (twoCommits.between B 2))]

lemma twoCommits_last : twoCommits.last=2 := exampleLine_last _ _

lemma exampleArchive_log {B:ℕ} (hB:B≤2) :
 LogFile twoCommits B 2 (exampleLogHeader B) (logBytes (exampleLogHeader B) (twoCommits.between B 2)) :=
 exampleLogFile _ _ hB le_rfl

lemma exampleArchive_find {B:ℕ} {name:Path} {x:Bytes} (hx:(exampleArchive B).find (['a'] ++ '/' :: name)=some x) :
 name=Db.archiveSegmentName twoCommits.root.dbId B ∧ x=logBytes (exampleLogHeader B) (twoCommits.between B 2) := by
 have hb:((['a'] ++ '/' :: name) == ['b'])=false:=by simp
 rw [exampleArchive,Disk.find,lookup_cons,hb,lookup_cons] at hx
 by_cases hp:((['a'] ++ '/' :: name) == exampleSegment B)=true
 · rw [hp] at hx
   have hname:=beq_iff_eq.mp hp
   simp only [exampleSegment,cons_append,nil_append,cons.injEq,true_and] at hname
   exact ⟨hname,(Option.some.inj hx).symm⟩
 · rw [Bool.eq_false_of_not_eq_true hp] at hx
   cases hx

lemma exampleArchive_segment {B:ℕ} (hB:B≤2) : Segment twoCommits (exampleArchive B) ['a'] B B 2 := by
 have hfind:(exampleArchive B).find (['a'] ++ '/' :: Db.archiveSegmentName twoCommits.root.dbId B) =
    some (logBytes (exampleLogHeader B) (twoCommits.between B 2)):=by
  rw [exampleArchive,Disk.find,lookup_cons,lookup_cons]
  simp [exampleSegment]
 refine ⟨by decide,by omega,(Disk.mem_list_iff _ _ _).mpr ⟨slash_not_mem_archiveSegmentName _ _,?_⟩,
  _,_,hfind,exampleArchive_log hB⟩
 rw [hfind]
 rfl

lemma twoCommits_time {n:ℕ} (hn:n≤2) : (twoCommits.headerAt n).commitTimeUs=n :=
 congrArg PageFormat.DbHeader.commitTimeUs (exampleHeaderAfter (fun _=>1) hn)

lemma exampleArchive_inputs {B:ℕ} (hB:B≤2) : Inputs twoCommits (exampleArchive B) ['b'] ['a'] [] ['o'] 0 where
 le_last := Nat.zero_le _
 backupFile:=rfl
 segment name k x hk hx:=by
  obtain ⟨rfl,rfl⟩:=exampleArchive_find hx
  rw [segmentBase_archiveSegmentName _ (by omega)] at hk
  obtain rfl:=Option.some.inj hk
  exact ⟨B,2,_,exampleArchive_log hB,le_rfl⟩
 liveLog h:=absurd rfl h
 apart name k _:=by simp
 named name hmem k _:=by
  obtain ⟨x,hx⟩:=Option.isSome_iff_exists.mp ((Disk.mem_list_iff _ _ _).mp hmem).2
  exact ⟨B,by omega,(exampleArchive_find hx).1⟩
 times j k hj hjk hk:=by
  rw [twoCommits_last] at hk
  rw [twoCommits_time hk,twoCommits_time (hjk.trans hk)]
  exact_mod_cast hjk

lemma exampleArchive_fresh (B:ℕ) : Fresh (exampleArchive B) ['o'] := by
 constructor <;> rw [exampleArchive,Disk.find,lookup_cons,lookup_cons] <;> simp [exampleSegment,walPathOf]

/-- With the segment from the backup on, the recovery ends at a committed state. -/
theorem recovered_committed : ∃ rep σ',
  recoverToPoint ['b'] ['a'] [] {} ['o'] (Vfs.quiet (exampleArchive 0))=(.ok rep,σ') ∧
   σ'.files.find ['o']=some (twoCommits.image rep.changeCounter) := by
 have hin:=exampleArchive_inputs (B:=0) (by decide)
 obtain ⟨rep,σ',hrun,-⟩:=(recoverToPoint_rule {}
  (hin.given (exampleArchive_fresh 0))).run ((Vfs.quiet_calm (exampleArchive 0)).at False)
   fun _ _=>id
 refine ⟨rep,σ',hrun,(recoverToPoint_committed hin.le_last hin.backupFile ?_ hin.liveLog hrun).1⟩
 intro name k x hk hx
 obtain ⟨B,L,h,hl,-⟩:=hin.segment name k x hk hx
 exact ⟨B,L,h,hl⟩

/-- The same files meet a time target. -/
theorem recovered_meets_time :
  MeetsTime twoCommits (exampleArchive 0) ['a'] [] ['o'] 5
   (recoverToPoint ['b'] ['a'] [] { timeUs:=some 5 } ['o'] (Vfs.quiet (exampleArchive 0))) := by
 refine (recoverToPoint_time_iff (Vfs.quiet_calm _) (exampleArchive_inputs (by decide))).mpr
  fun _=>⟨fun k hk hk0=>by omega,fun n _ hsup _=>?_⟩
 refine ⟨2,fun m hm hm2=>⟨0,0,2,exampleArchive_segment (by decide),hm,hm2⟩,Or.inl ?_⟩
 obtain ⟨B,L,hfile,-,hn⟩:=hsup
 rcases hfile with ⟨k,-,-,-,h,x,-,hl⟩ | ⟨hne,-⟩
 · exact hn.trans (twoCommits_last ▸ hl.last_le)
 · exact absurd rfl hne

/-- Without the first segment the second commit is not recovered, and the target is reported as
reached all the same. -/
theorem gap_misses_time :
  ¬MeetsTime twoCommits (exampleArchive 1) ['a'] [] ['o'] 5
   (recoverToPoint ['b'] ['a'] [] { timeUs:=some 5 } ['o'] (Vfs.quiet (exampleArchive 1))) := by
 intro hmeets
 have hgap:=gapless_of_meetsTime (Vfs.quiet_calm (exampleArchive 1))
  (exampleArchive_inputs (by decide)) (exampleArchive_fresh 1) hmeets
 obtain ⟨c,hcov,hend⟩:=hgap.2 2 (by decide)
  ⟨1,2,Or.inl ⟨1,exampleArchive_segment (by decide)⟩,by decide,le_rfl⟩
  (by rw [twoCommits_time le_rfl]; decide)
 rcases hend with hc | ⟨B,L,⟨hne,-⟩,-⟩
 · obtain ⟨k,B,L,⟨-,hk,hmem,-⟩,hk1,-⟩:=hcov 1 (by decide) (by omega)
   obtain ⟨x,hx⟩:=Option.isSome_iff_exists.mp ((Disk.mem_list_iff _ _ _).mp hmem).2
   have:=archiveSegmentName_inj hk (by decide) (exampleArchive_find hx).1
   omega
 · exact hne rfl

end Archivum.PointInTime
