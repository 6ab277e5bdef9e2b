import Archivum.CopyRules
import Archivum.DbOpen

set_option autoImplicit false

/-!
# Replaying logs of one history

The output of a recovery holds the committed state at some counter. A log of the
same history moves it forward commit by commit, as far as the log and the target
go; the rules say how far, whether or not I/O faults may happen on the way.
-/
namespace Archivum.ReplayRules
open ByteStrings StatefulActions PageTxn PageFormat VfsModel WalModel DbModel Histories LogImage Act
open Overlays PagedFiles DbReads DbOpen RecoveryModel

section Log
variable {F:Prop} {d:Disk} {path:Path} {b:Bytes} {h:WalHeader} {cs:List Commit}

lemma openLog_foreign (hf:d.find path=some b) {ps:ℕ} {id:DbId}
  (hno:Wal.ownHeader ps id (slice b 0 kWalHeaderBytes)=none) :
  Act.Triple (Vfs.At F d) (Wal.openLog path ps { dbId:=id,readOnly:=true })
   (fun _ _=>False) fun _=>Vfs.At F d := by
 have hkeep:∀ (_:Status) (σ:Vfs),σ.Failed F (· = d) → σ.At F d:=fun _ _ h=>h.at
 rw [Wal.openLog]
 refine Triple.bind ((pathExists_rule path).onError hkeep) fun present=>Triple.fact fun hp=>?_
 rw [hf] at hp
 subst hp
 rw [if_neg (by simp)]
 refine Triple.bind ((openFile_rule hf (by simp) rfl).onError hkeep) fun _=>?_
 rw [if_neg (by simp),Wal.recover]
 refine Triple.bind ((size_rule hf).onError hkeep) fun size=>Triple.fact fun _=>?_
 refine Triple.bind ((read_rule hf _ _).onError hkeep) fun hbuf=>Triple.fact fun hh=>?_
 subst hh
 rw [hno]
 exact Triple.fail fun _ hσ=>hσ

lemma readFramePage_rule {w:Wal} (hf:d.find w.path=some b) (hl:LogHolds w.header cs b)
 (hps:w.header.pageSize=w.pageSize) (hnext:w.nextFrame=(Line.imagesOf cs).length+1)
 {i:ℕ} {x:ℕ × Bytes} (hx:(Line.imagesOf cs)[i]? = some x) :
 Act.Triple (Vfs.At F d) (w.readFramePage (i+1)) (fun r σ=>r=x.2 ∧ σ.At F d) fun _=>Vfs.Failed F (· = d) := by
 have hi:i<(Line.imagesOf cs).length:=(List.getElem?_eq_some_iff.mp hx).1
 have hdata:=hl.frame_data hx
 obtain ⟨hlen,hok⟩:=imagesOf_length_eq hl.loggable x (List.mem_of_getElem? hx)
 rw [hps] at hdata hlen
 rw [Wal.readFramePage,if_neg (by omega)]
 refine Triple.bind (read_rule hf _ _) fun page=>Triple.fact fun hpage=>?_
 rw [hpage,hdata,if_neg (by simp [hlen]),if_neg (by simp [hok])]
 exact Triple.pure fun _ hσ=>⟨rfl,hσ⟩

lemma writeFrames_rule (ps:ℕ) {out:Path} (hne:path≠out) (hf:d.find path=some b)
 (hl:LogHolds h cs b) (n i:ℕ) (x:Bytes) (hin:i+n≤(Line.imagesOf cs).length) :
 Act.Triple (Vfs.At F (d.put out x)) (writeFrames ps out (logObject path h true cs) n (i+1))
  (fun _=>Vfs.At F (d.put out (writePages ps (((Line.imagesOf cs).drop i).take n) x))) fun _ _=>F := by
 induction n generalizing i x with
 | zero=>exact Triple.pure fun _ hσ=>hσ
 | succ n ih=>
  have hlt:i<(Line.imagesOf cs).length:=by omega
  have hget:=List.getElem?_eq_getElem hlt
  have hread:(d.put out x).find path=some b:=by rw [Disk.find_put_of_ne _ _ hne,hf]
  rw [writeFrames]
  refine Triple.bind ((readFramePage_rule (w:=logObject path h true cs) hread hl rfl rfl
   hget).onError fun _ _ hE=>hE.1) fun page=>Triple.fact fun hpage=>?_
  have hno:(logObject path h true cs).framePages.getD (i+1-1) 0 =
    ((Line.imagesOf cs)[i]).1:=by
   simp [logObject,indexOf,hlt]
  rw [hno,hpage]
  have hwrite:=write_rule (F:=F) (Disk.find_put_self d out x) (((Line.imagesOf cs)[i]).1*ps) ((Line.imagesOf cs)[i]).2
  rw [Disk.put_put] at hwrite
  refine Triple.bind (hwrite.onError fun _ _ hE=>hE.1) fun _=>?_
  rw [List.drop_eq_getElem_cons hlt,List.take_succ_cons,writePages_cons]
  exact ih (i+1) _ (by omega)

end Log

/-- The recovery has come from the backup at `b` to the commit `n`. -/
structure Progress (H:Line) (target:RecoveryTarget) (b n:ℕ) (rep:RecoveryReport) : Prop where
 start : rep.startChangeCounter=b
 counter : rep.changeCounter=n
 time : rep.commitTimeUs=(H.headerAt n).commitTimeUs
 applied : rep.transactionsApplied=n-b
 from_le : b ≤ n
 le_last : n ≤ H.last
 within : ∀ k,b<k → k ≤ n → target.within k (H.headerAt k).commitTimeUs=true

/-- The target keeps the recovery from going beyond `n`. -/
def Stopped (H:Line) (target:RecoveryTarget) (n:ℕ) : Prop :=
 target.done n=true ∨
  (n<H.last ∧ target.within (n+1) (H.headerAt (n+1)).commitTimeUs=false)

section Commits
variable {F:Prop} {d:Disk} {seg out:Path} {H:Line} {target:RecoveryTarget}
 {start B L:ℕ} {h:WalHeader} {b:Bytes}

lemma Progress.advance {n:ℕ} {rep:RecoveryReport} {c:WalCommit}
 (hp:Progress H target start n rep) (hn:n<H.last) (hc:c.changeCounter=n+1)
 (ht:c.commitTimeUs=(H.headerAt (n+1)).commitTimeUs) (hw:target.within c.changeCounter c.commitTimeUs=true) :
 Progress H target start (n+1) (rep.applied c) where
 start := hp.start
 counter:=hc
 time:=ht
 applied:=by
  have:=hp.from_le
  simp only [RecoveryReport.applied,hp.applied]
  omega
 from_le:=by have:=hp.from_le; omega
 le_last:=hn
 within:=by
  intro k hk hkn
  rcases Nat.lt_or_ge n k with h | h
  · obtain rfl:k=n+1:=by omega
    rwa [hc,ht] at hw
  · exact hp.within k hk h

lemma Progress.countSegment {n:ℕ} {rep rep':RecoveryReport}
 (hp:Progress H target start n rep') : Progress H target start n (rep.countSegment rep') := by
 rw [RecoveryReport.countSegment]
 split
 · exact ⟨hp.start,hp.counter,hp.time,hp.applied,hp.from_le,hp.le_last,hp.within⟩
 · exact hp

lemma between_cons {j:ℕ} {c:Commit} (hj:j<L) (hc:H.commits[j]? = some c) : H.between j L=c::H.between (j+1) L := by
 have h1:=Line.between_split (H:=H) (b:=j) (n:=L) (m:=j+1) (by omega) hj
 rw [Line.between_succ le_rfl hc,Line.between_self] at h1
 exact h1

lemma applyCommit_rule (hne:seg≠out) (hf:d.find seg=some b) (hl:LogFile H B L h b)
 {n:ℕ} (hBn:B≤n) (hnL:n<L) {c:Commit} (hc:H.commits[n]? = some c) {wc:WalCommit}
 (hframe:wc.frame=(Line.imagesOf (H.between B n)).length+c.images.length) (hsize:wc.dbSize=c.header.pageCount) :
 Act.Triple (Vfs.At F (d.put out (H.image n))) (applyCommit H.pageSize out (logObject seg h true (H.between B L))
   (Line.imagesOf (H.between B n)).length wc) (fun _=>Vfs.At F (d.put out (H.image (n+1)))) fun _ _=>F := by
 have hsplit:Line.imagesOf (H.between B L) =
   Line.imagesOf (H.between B n)++(c.images++Line.imagesOf (H.between (n+1) L)):=by
  rw [Line.between_split hBn hnL.le,between_cons hnL hc,Line.imagesOf_append]
  rfl
 have hlen:(Line.imagesOf (H.between B n)).length+c.images.length ≤
   (Line.imagesOf (H.between B L)).length:=by
  rw [hsplit]
  simp only [List.length_append]
  omega
 have himages:((Line.imagesOf (H.between B L)).drop (Line.imagesOf (H.between B n)).length).take
   c.images.length=c.images:=by
  rw [hsplit,List.drop_left,List.take_left]
 have hwrite:=writeFrames_rule (F:=F) H.pageSize hne hf hl.holds c.images.length
  (Line.imagesOf (H.between B n)).length (H.image n) hlen
 rw [himages,Line.writePages_image hc] at hwrite
 rw [applyCommit,hframe,Nat.add_sub_cancel_left]
 refine Triple.bind hwrite fun _=>?_
 refine Triple.bind ((size_rule (Disk.find_put_self d out _)).onError fun _ _ hE=>hE.1) fun size=>Triple.fact fun hs=>?_
 have hn:n+1≤H.last:=hnL.trans_le hl.last_le
 have hcount:wc.dbSize*H.pageSize=(H.image (n+1)).length:=by
  rw [Line.image_length hn,Line.count,Line.headerAt_succ hc,hsize]
 exact Triple.onlyIf (fun hlt=>by omega) fun _ _ hσ=>hσ

/-- The commits of a log of the history, from the commit after `j` on. The output has come to
`n`, so the commits up to `n` are skipped. -/
theorem applyCommits_rule (hne:seg≠out) (hf:d.find seg=some b) (hl:LogFile H B L h b)
 {j n:ℕ} (hBj:B≤j) (hjn:j≤n) (hjL:j≤L) {rep:RecoveryReport} (hp:Progress H target start n rep) :
 Act.Triple (Vfs.At F (d.put out (H.image n))) (applyCommits H.pageSize target out seg (logObject seg h true (H.between B L))
   (walCommits (Line.imagesOf (H.between B j)).length (H.between j L)) (Line.imagesOf (H.between B j)).length rep)
  (fun r σ=>∃ m,σ.At F (d.put out (H.image m)) ∧ n ≤ m ∧ (m=n ∨ m≤L) ∧
   Progress H target start m r.1 ∧ (r.2=true → Stopped H target m) ∧ (r.2=false → L ≤ m)) fun _ _=>F := by
 induction hk:L-j generalizing j n rep with
 | zero=>
  obtain rfl:j=L:=by omega
  rw [Line.between_self]
  exact Triple.pure fun σ hσ=>
   ⟨n,hσ,le_rfl,Or.inl rfl,hp,fun hx=>(Bool.false_ne_true hx).elim,fun _=>hjn⟩
 | succ k ih=>
  have hlt:j<L:=by omega
  have hlast:j<H.last:=hlt.trans_le hl.last_le
  obtain ⟨c,hc⟩:=Line.commit_exists hlast
  have hcounter:c.header.changeCounter=j+1:=by
   rw [← Line.headerAt_succ hc,Line.headerAt_counter hlast]
  have hnext:(Line.imagesOf (H.between B j)).length+c.images.length =
    (Line.imagesOf (H.between B (j+1))).length:=by
   rw [Line.between_succ hBj hc,Line.imagesOf_append,List.length_append]
   simp [Line.imagesOf]
  rw [between_cons hlt hc,walCommits,applyCommits,hp.counter,hcounter]
  refine Triple.ite (fun hskip=>?_) fun hnew=>?_
  · rw [hnext]
    exact ih (j:=j+1) (by omega) hskip hlt hp (by omega)
  · change ¬j+1≤n at hnew
    obtain rfl:n=j:=by omega
    have htime:c.header.commitTimeUs=(H.headerAt (n+1)).commitTimeUs:=by
     rw [Line.headerAt_succ hc]
    refine Triple.ite (fun hbeyond=>?_) fun hin=>?_
    · refine Triple.pure fun σ hσ=>⟨n,hσ,le_rfl,Or.inl rfl,hp,fun _=>Or.inr ?_,?_⟩
      · rw [← htime]
        exact ⟨hlast,by simpa using hbeyond⟩
      · intro hx
        cases hx
    · rw [if_neg (not_not_intro rfl),hnext]
      have hwithin:target.within (n+1) c.header.commitTimeUs=true:=by simpa using hin
      have hadv:=hp.advance (c:=⟨(Line.imagesOf (H.between B (n+1))).length,
       c.header.pageCount,n+1,c.header.commitTimeUs⟩) hlast rfl htime hwithin
      refine Triple.bind (applyCommit_rule hne hf hl hBj hlt hc hnext.symm rfl) fun _=>?_
      refine Triple.ite (fun hdone=>?_) fun _=>?_
      · exact Triple.pure fun σ hσ=>⟨n+1,hσ,by omega,Or.inr (by omega),hadv,
         fun _=>Or.inl hdone,fun hx=>(Bool.false_ne_true hx.symm).elim⟩
      · refine (ih (j:=n+1) (by omega) le_rfl hlt hadv (by omega)).post ?_
        rintro r σ ⟨m,hσ,hm,hmL,hrest⟩
        exact ⟨m,hσ,by omega,by omega,hrest⟩

end Commits

end Archivum.ReplayRules
