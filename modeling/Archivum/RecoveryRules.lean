import Archivum.ReplayRules

set_option autoImplicit false

/-!
# Point-in-time recovery from the files of one history

How far a recovery gets from a backup with the archived segments and the live
log it is given: along the segments that cover one commit after the other, then
along the live log, until the target stops it. Where faults may happen it may
end earlier, but always at a committed state.
-/
namespace Archivum.RecoveryRules
open ByteStrings StatefulActions PageTxn PageFormat VfsModel WalModel DbModel Histories LogImage List Act
open Overlays PagedFiles DbReads DbOpen RecoveryModel ReplayRules

lemma logFile_unique {H:Line} {B L B' L':ℕ} {h h':WalHeader} {b:Bytes}
 (hl:LogFile H B L h b) (hl':LogFile H B' L' h' b) : B=B' ∧ L=L' := by
 have hhdr:h=h':=by
  have h1:=WalHeader.decode_encode hl.holds.fits
  rw [← header_slice hl.holds,header_slice hl'.holds,WalHeader.decode_encode hl'.holds.fits] at h1
  exact (Except.ok.inj h1).symm
 subst hhdr
 obtain rfl:B=B':=hl.base.symm.trans hl'.base
 refine ⟨rfl,?_⟩
 have hindex:=hl.holds.recovered_eq.1.symm.trans hl'.holds.recovered_eq.1
 have hlen:=congrArg (fun x:Index=>x.commitList.length) hindex
 have hcount:∀ {n:ℕ},B≤n → n≤H.last →
   (indexOf (H.between B n)).commitList.length=n-B:=by
  intro n hn hlast
  rw [indexOf,walCommits_length,Line.between,length_drop,length_take]
  rw [Line.last] at hlast
  omega
 simp only [hcount hl.base_le hl.last_le,hcount hl'.base_le hl'.last_le] at hlen
 have:=hl.base_le
 have:=hl'.base_le
 omega

lemma magic_of_decode {page:Bytes} {h:PageFormat.DbHeader} (hd:DbHeader.decode page=.ok h) :
 slice page 0 8=dbHeaderMagic := by
 by_contra hne
 simp only [DbHeader.decode,if_pos hne] at hd
 split at hd <;> cases hd

lemma ownHeader_image {H:Line} {n:ℕ} (hn:n≤H.last) (ps:ℕ) (id:DbId) :
 Wal.ownHeader ps id (slice (H.image n) 0 kWalHeaderBytes)=none := by
 have hmagic:slice (slice (H.image n) 0 kWalHeaderBytes) 0 8=dbHeaderMagic:=by
  have hmin:=(Line.pageSize_bounds (H:=H)).1
  have hpage:=magic_of_decode (decode_pages_zero hn)
  rw [Line.pages_zero hn,← image_page0 hn,slice_slice _ _ _ _ _ (by simp only [kMinPageSize] at hmin; omega)] at hpage
  rw [slice_slice _ _ _ _ _ (by decide)]
  exact hpage
 rw [Wal.ownHeader]
 split
 · rfl
 · have hbad:∀ x,WalHeader.decode (slice (H.image n) 0 kWalHeaderBytes)≠.ok x:=by
    intro x hx
    have hne:dbHeaderMagic≠walHeaderMagic:=by decide
    simp only [WalHeader.decode,hmagic,if_pos hne] at hx
    split at hx <;> cases hx
   split
   · rfl
   · rename_i x hx
     exact absurd hx (hbad x)

/-- The file at `p` is a log of the history with base `B` and last commit `L`. -/
def Holds (H:Line) (d:Disk) (p:Path) (B L:ℕ) : Prop :=
 ∃ h b,d.find p=some b ∧ LogFile H B L h b

lemma Holds.unique {H:Line} {d:Disk} {p:Path} {B L B' L':ℕ} (h:Holds H d p B L) (h':Holds H d p B' L') : B=B' ∧ L=L' := by
 obtain ⟨hdr,b,hf,hl⟩:=h
 obtain ⟨hdr',b',hf',hl'⟩:=h'
 obtain rfl:=Option.some.inj (hf.symm.trans hf')
 exact logFile_unique hl hl'

section Log
variable {F:Prop} {d:Disk} {seg out live:Path} {H:Line} {target:RecoveryTarget}
 {start B L n:ℕ} {rep:RecoveryReport}

lemma replayLog_rule (hne:seg≠out) (hh:Holds H d seg B L)
 (hp:Progress H target start n rep) (isLive:Bool) (hbase:F ∨ isLive=true ∨ B≤n) :
 Act.Triple (Vfs.At F (d.put out (H.image n))) (replayLog H.pageSize target out H.root.dbId seg isLive rep)
  (fun r σ=>∃ m,σ.At F (d.put out (H.image m)) ∧ n ≤ m ∧ (m=n ∨ B≤n ∧ m≤L) ∧
   Progress H target start m r.1 ∧ (r.2=true → isLive=true ∨ Stopped H target m) ∧
   (Stopped H target m ∨ F ∨ (B≤n → L ≤ m)) ∧ (r.2=false → L ≤ m)) fun _ _=>F := by
 obtain ⟨h,b,hf,hl⟩:=hh
 have hseg:(d.put out (H.image n)).find seg=some b:=by
  rw [Disk.find_put_of_ne _ _ hne,hf]
 have hopen:=openLog_rule (F:=F) hseg hl.holds
 rw [hl.pageSize,hl.dbId] at hopen
 rw [replayLog]
 refine Triple.bind hopen.attempt fun opened=>?_
 cases opened with
 | error e=>
  refine Triple.ite (fun hlive=>?_) fun _=>Triple.fail fun _ hE=>hE.1
  exact Triple.pure fun σ hσ=>⟨n,hσ.at,le_rfl,Or.inl rfl,hp,fun _=>Or.inl hlive,
   Or.inr (Or.inl hσ.1),fun hx=>(Bool.false_ne_true hx.symm).elim⟩
 | ok wal=>
  refine Triple.fact fun hwal=>?_
  subst hwal
  have hB:(logObject seg h true (H.between B L)).header.baseChangeCounter=B:=hl.base
  simp only
  rw [hp.counter,hB]
  refine Triple.ite (fun hlt=>?_) fun hge=>?_
  · refine Triple.ite (fun hlive=>?_) fun hlive=>Triple.fail fun _ _=>?_
    · exact Triple.pure fun σ hσ=>⟨n,hσ,le_rfl,Or.inl rfl,hp,fun _=>Or.inl hlive,
       Or.inr (Or.inr fun hBn=>by omega),fun hx=>(Bool.false_ne_true hx.symm).elim⟩
    · rcases hbase with hF | hb | hb
      · exact hF
      · exact absurd hb hlive
      · omega
  · have hBn:B≤n:=by omega
    have happly:=applyCommits_rule (F:=F) hne hf hl le_rfl hBn hl.base_le hp
    rw [Line.between_self] at happly
    refine Triple.bind happly fun r=>?_
    refine Triple.pure ?_
    rintro σ ⟨m,hσ,hnm,hmL,hprog,hstop,hgo⟩
    refine ⟨m,hσ,hnm,hmL.imp_right fun hm=>⟨hBn,hm⟩,hprog.countSegment,?_,?_,?_⟩
    · intro hx
      rcases Bool.or_eq_true_iff.mp hx with hx | hx
      · exact Or.inr (hstop hx)
      · exact Or.inl hx
    · cases hr:r.2 with
      | true=>exact Or.inl (hstop hr)
      | false=>exact Or.inr (Or.inr fun _=>hgo hr)
    · intro hx
      exact hgo (Bool.or_eq_false_iff.mp hx).1

lemma replayLog_output (d:Disk) (out:Path) (target:RecoveryTarget) (rep:RecoveryReport)
 (hn:n≤H.last) (isLive:Bool) : Act.Triple (Vfs.At F (d.put out (H.image n)))
  (replayLog H.pageSize target out H.root.dbId out isLive rep)
  (fun r σ=>r=(rep,true) ∧ σ.At F (d.put out (H.image n))) fun _ _=>isLive=false := by
 have hopen:=openLog_foreign (F:=F) (Disk.find_put_self d out (H.image n)) (ownHeader_image hn H.pageSize H.root.dbId)
 rw [replayLog]
 refine Triple.bind hopen.attempt fun opened=>?_
 cases opened with
 | error e=>
  refine Triple.ite (fun _=>?_) fun hlive=>Triple.fail fun _ _=>?_
  · exact Triple.pure fun σ hσ=>⟨rfl,hσ⟩
  · simpa using hlive
 | ok wal=>exact fun σ hσ=>hσ.elim

lemma replayLive_rule (hout:d.find out=none) (hlive:live≠[] → ∀ b,d.find live=some b → ∃ B L h,LogFile H B L h b)
 (hp:Progress H target start n rep) : Act.Triple (Vfs.At F (d.put out (H.image n)))
  (replayLive H.pageSize target out H.root.dbId live rep) (fun r σ=>∃ m,σ.At F (d.put out (H.image m)) ∧ n ≤ m ∧
   (m=n ∨ ∃ B L,live≠[] ∧ Holds H d live B L ∧ B≤n ∧ m≤L) ∧ Progress H target start m r ∧ (Stopped H target m ∨ F ∨
    ∀ B L,live≠[] → Holds H d live B L → B≤n → L ≤ m)) fun _ _=>F := by
 rw [replayLive]
 refine Triple.ite (fun hnil=>?_) fun hsome=>?_
 · exact Triple.pure fun σ hσ=>⟨n,hσ,le_rfl,Or.inl rfl,hp,Or.inr (Or.inr fun B L hx=>absurd hnil hx)⟩
 refine Triple.bind ((pathExists_rule live).onError fun _ _ hE=>hE.1) fun present=>Triple.fact fun hpresent=>?_
 by_cases hself:live=out
 · subst hself
   rw [Disk.find_put_self] at hpresent
   subst hpresent
   rw [if_neg (by simp)]
   refine Triple.bind ((replayLog_output d live target rep hp.le_last true).onError fun _ _ hE=>by cases hE)
    fun r=>Triple.fact fun hr=>?_
   subst hr
   refine Triple.pure fun σ hσ=>⟨n,hσ,le_rfl,Or.inl rfl,hp,Or.inr (Or.inr ?_)⟩
   rintro B L - ⟨h,b,hb,-⟩
   rw [hout] at hb
   cases hb
 · rw [Disk.find_put_of_ne _ _ hself] at hpresent
   cases hb:d.find live with
   | none=>
    rw [hb] at hpresent
    subst hpresent
    rw [if_pos (by simp)]
    refine Triple.pure fun σ hσ=>⟨n,hσ,le_rfl,Or.inl rfl,hp,Or.inr (Or.inr ?_)⟩
    rintro B L - ⟨h,b,hb',-⟩
    rw [hb] at hb'
    cases hb'
   | some b=>
    rw [hb] at hpresent
    subst hpresent
    rw [if_neg (by simp)]
    obtain ⟨B,L,h,hl⟩:=hlive hsome b hb
    have hh:Holds H d live B L:=⟨h,b,hb,hl⟩
    refine Triple.bind (replayLog_rule hself hh hp true (Or.inr (Or.inl rfl))) fun r=>?_
    refine Triple.pure ?_
    rintro σ ⟨m,hσ,hnm,hm,hprog,-,hend,-⟩
    refine ⟨m,hσ,hnm,hm.imp_right fun hm=>⟨B,L,hsome,hh,hm.1,hm.2⟩,hprog,?_⟩
    refine hend.imp_right fun hend=>hend.imp_right fun hend B' L' _ hh' hB'=>?_
    obtain ⟨rfl,rfl⟩:=hh.unique hh'
    exact hend hB'

end Log

section Segments

lemma mem_insert {s:Segments} {k:ℕ} {p:Path} {x:ℕ × Path} (h:x∈s.insert k p) : x=(k,p) ∨ x∈s := by
 induction s with
 | nil=>simpa [Segments.insert] using h
 | cons y s ih=>
  rw [Segments.insert] at h
  split_ifs at h
  · exact mem_cons.mp h
  · exact (mem_cons.mp h).imp_right (mem_cons_of_mem _)
  · rcases mem_cons.mp h with rfl | h
    · exact Or.inr mem_cons_self
    · exact (ih h).imp_right (mem_cons_of_mem _)

lemma insert_keeps {s:Segments} (k:ℕ) (p:Path) : (k,p)∈s.insert k p ∧ ∀ x∈s,x.1≠k → x∈s.insert k p := by
 induction s with
 | nil=>exact ⟨mem_cons_self,by simp⟩
 | cons y s ih=>
  rw [Segments.insert]
  split_ifs with h1 h2
  · exact ⟨mem_cons_self,fun x hx _=>mem_cons_of_mem _ hx⟩
  · refine ⟨mem_cons_self,fun x hx hne=>?_⟩
    rcases mem_cons.mp hx with rfl | hx
    · exact absurd h2.symm hne
    · exact mem_cons_of_mem _ hx
  · refine ⟨mem_cons_of_mem _ ih.1,fun x hx hne=>?_⟩
    rcases mem_cons.mp hx with rfl | hx
    · exact mem_cons_self
    · exact mem_cons_of_mem _ (ih.2 x hx hne)

def Ascending (s:Segments) : Prop := s.Pairwise fun x y=>x.1<y.1

lemma Ascending.insert {s:Segments} (h:Ascending s) (k:ℕ) (p:Path) : Ascending (s.insert k p) := by
 induction s with
 | nil=>exact pairwise_singleton _ _
 | cons y s ih=>
  obtain ⟨hy,hs⟩:=pairwise_cons.mp h
  rw [Segments.insert]
  split_ifs with h1 h2
  · refine pairwise_cons.mpr ⟨fun x hx=>?_,h⟩
    rcases mem_cons.mp hx with rfl | hx
    · exact h1
    · exact h1.trans (hy x hx)
  · exact pairwise_cons.mpr ⟨fun x hx=>h2 ▸ hy x hx,hs⟩
  · refine pairwise_cons.mpr ⟨fun x hx=>?_,ih hs⟩
    rcases mem_insert hx with rfl | hx
    · change y.1<k
      omega
    · exact hy x hx

lemma Ascending.key_unique {s:Segments} (h:Ascending s) {x y:ℕ × Path} (hx:x∈s) (hy:y∈s) (hk:x.1=y.1) : x=y := by
 have hnodup:(s.map Prod.fst).Nodup:=(pairwise_map.mpr h).imp fun hlt=>Nat.ne_of_lt hlt
 exact inj_on_of_nodup_map hnodup hx hy hk

lemma pick_spec {s:Segments} {c:ℕ} {x:ℕ × Path} (h:s.pick c=some x) : x∈s ∧ x.1 ≤ c := by
 have:=mem_filter.mp (mem_of_getLast? h)
 exact ⟨this.1,by simpa using this.2⟩

lemma pick_none {s:Segments} {c:ℕ} (h:s.pick c=none) {x:ℕ × Path} (hx:x∈s) : c<x.1 := by
 by_contra hle
 have hmem:x∈s.filter fun x=>decide (x.1 ≤ c):=
  mem_filter.mpr ⟨hx,by simpa using hle⟩
 rw [getLast?_eq_none_iff.mp h] at hmem
 cases hmem

lemma erase_length_lt {s:Segments} {x:ℕ × Path} (hx:x∈s) : (s.erase x.1).length<s.length := by
 refine length_filter_lt_length_iff_exists.mpr ⟨x,hx,?_⟩
 simp

/-- What the map of an archive directory holds: for each base found in a name, a file of that
base. -/
theorem segmentsOf_spec (id:DbId) (dir:Path) (names:List Path) : Ascending (segmentsOf id dir names) ∧
  (∀ x∈segmentsOf id dir names,∃ n∈names,segmentBase id n=some x.1 ∧ x.2=dir ++ '/' :: n) ∧
  ∀ n∈names,∀ k,segmentBase id n=some k → ∃ p,(k,p)∈segmentsOf id dir names := by
 induction names using reverseRecOn with
 | nil=>
  refine ⟨List.Pairwise.nil,fun x hx=>?_,fun n hn=>?_⟩
  · cases hx
  · cases hn
 | append_singleton names n ih=>
  obtain ⟨hasc,hof,hall⟩:=ih
  have hstep:segmentsOf id dir (names++[n])=(segmentBase id n).elim (segmentsOf id dir names) fun base=>
    (segmentsOf id dir names).insert base (dir ++ '/' :: n):=by
   rw [segmentsOf,foldl_append,foldl_cons,foldl_nil]
   cases segmentBase id n <;> rfl
  rw [hstep]
  cases hn:segmentBase id n with
  | none=>
   refine ⟨hasc,fun x hx=>?_,fun n' hn' k hk=>?_⟩
   · obtain ⟨n',hmem,hrest⟩:=hof x hx
     exact ⟨n',mem_append_left _ hmem,hrest⟩
   · rcases mem_append.mp hn' with hn' | hn'
     · exact hall n' hn' k hk
     · rw [mem_singleton.mp hn',hn] at hk
       cases hk
  | some base=>
   refine ⟨hasc.insert _ _,fun x hx=>?_,fun n' hn' k hk=>?_⟩
   · rcases mem_insert hx with rfl | hx
     · exact ⟨n,mem_append_right _ mem_cons_self,hn,rfl⟩
     · obtain ⟨n',hmem,hrest⟩:=hof x hx
       exact ⟨n',mem_append_left _ hmem,hrest⟩
   · by_cases hkb:k=base
     · rw [hkb]
       exact ⟨_,(insert_keeps _ _).1⟩
     · rcases mem_append.mp hn' with hn' | hn'
       · obtain ⟨p,hp⟩:=hall n' hn' k hk
         exact ⟨p,(insert_keeps _ _).2 _ hp hkb⟩
       · rw [mem_singleton.mp hn',hn] at hk
         exact absurd (Option.some.inj hk).symm hkb

end Segments

section Recovery
variable {F:Prop} {d:Disk} {out live:Path} {H:Line} {target:RecoveryTarget} {start n:ℕ}
 {rep:RecoveryReport}

/-- Every commit after `b` up to `c` is in a segment whose name has an earlier base. -/
def Covered (H:Line) (d:Disk) (all:Segments) (b c:ℕ) : Prop :=
 ∀ k,b<k → k ≤ c → ∃ s∈all,∃ B L,Holds H d s.2 B L ∧ s.1<k ∧ k ≤ L

/-- The segments cover the commits up to some counter, and the live log the others. -/
def Reached (H:Line) (d:Disk) (all:Segments) (live:Path) (b n:ℕ) : Prop :=
 ∃ c,Covered H d all b c ∧ c ≤ n ∧
  (n=c ∨ ∃ B L,live≠[] ∧ Holds H d live B L ∧ B ≤ c ∧ n ≤ L)

/-- Nothing that was supplied leads further: no segment beyond the counter where the segments
end, and not the live log beyond `n`. -/
def Complete (H:Line) (d:Disk) (all:Segments) (live:Path) (b n:ℕ) : Prop :=
 ∃ c,b ≤ c ∧ c ≤ n ∧ (∀ s∈all,s.1 ≤ c → ∀ B L,Holds H d s.2 B L → L ≤ c) ∧
  ∀ B L,live≠[] → Holds H d live B L → B ≤ c → L ≤ n

/-- A segment is a log of the history whose base is at most the one in its name. Where faults may
happen it may be any log of the history, and the output may lie among the segments. -/
def Usable (F:Prop) (H:Line) (d:Disk) (out:Path) (s:ℕ × Path) : Prop :=
 (s.2≠out ∧ ∃ B L,Holds H d s.2 B L ∧ (F ∨ B ≤ s.1)) ∨ (s.2=out ∧ F)

lemma replayLoop_rule (live:Path) (target:RecoveryTarget) {all:Segments} (segs:Segments)
 (hasc:Ascending all) (hout:d.find out=none) (hlive:live≠[] → ∀ b,d.find live=some b → ∃ B L h,LogFile H B L h b)
 (husable:∀ s∈all,Usable F H d out s) (hapart:F ∨ ∀ s∈all,s.2≠live)
 (hp:Progress H target start n rep) (hcov:Covered H d all start n) (hsub:segs ⊆ all)
 (hdone:∀ s∈all,s ∉ segs → ∀ B L,Holds H d s.2 B L → L≤n) (fuel:ℕ) (hfuel:segs.length<fuel) :
 Act.Triple (Vfs.At F (d.put out (H.image n))) (replayLoop H.pageSize target out H.root.dbId live fuel segs rep)
  (fun r σ=>∃ m,σ.At F (d.put out (H.image m)) ∧ Progress H target start m r ∧
   Reached H d all live start m ∧ (Stopped H target m ∨ F ∨ Complete H d all live start m)) fun _ _=>F := by
 induction fuel generalizing n segs rep with
 | zero=>omega
 | succ fuel ih=>
  rw [replayLoop,hp.counter]
  refine Triple.ite (fun hdn=>?_) fun _=>?_
  · exact Triple.pure fun σ hσ=>
     ⟨n,hσ,hp,⟨n,hcov,le_rfl,Or.inl rfl⟩,Or.inl (Or.inl hdn)⟩
  cases hpick:segs.pick n with
  | none=>
   refine (replayLive_rule hout hlive hp).post ?_
   rintro r σ ⟨m,hσ,hnm,hm,hprog,hend⟩
   refine ⟨m,hσ,hprog,⟨n,hcov,hnm,hm⟩,hend.imp_right fun hend=>hend.imp_right fun hend=>?_⟩
   refine ⟨n,hp.from_le,hnm,fun s hs hsn=>hdone s hs fun hmem=>?_,hend⟩
   have:=pick_none hpick hmem
   omega
  | some x=>
   obtain ⟨hx,hxn⟩:=pick_spec hpick
   rcases husable x (hsub hx) with ⟨hne,B,L,hh,hB⟩ | ⟨hself,hF⟩
   · refine Triple.bind (replayLog_rule hne hh hp (decide (x.2=live)) (hB.imp_right fun hB=>Or.inr (hB.trans hxn))) fun r=>?_
     refine Triple.exists_fact fun m=>Triple.fact_right ?_
     rintro ⟨hnm,hm,hprog,hstop,hend,hgo⟩
     have hcov':Covered H d all start m:=by
      intro k hk hkm
      rcases Nat.lt_or_ge n k with hnk | hnk
      · exact ⟨x,hsub hx,B,L,hh,by omega,by omega⟩
      · exact hcov k hk hnk
     refine Triple.ite (fun hr=>?_) fun hr=>?_
     · refine Triple.pure fun σ hσ=>⟨m,hσ,hprog,⟨m,hcov',le_rfl,Or.inl rfl⟩,?_⟩
       rcases hstop hr with hlv | hst
       · exact Or.inr (Or.inl (hapart.elim id fun hne'=>
          absurd (of_decide_eq_true hlv) (hne' x (hsub hx))))
       · exact Or.inl hst
     · refine ih _ hprog hcov' (fun s hs=>hsub (mem_filter.mp hs).1) ?_ ?_
       · intro s hs hnot B' L' hh'
         by_cases hsegs:s∈segs
         · have hkey:s.1=x.1:=by
            by_contra hne'
            exact hnot (mem_filter.mpr ⟨hsegs,by simpa using hne'⟩)
           obtain rfl:=hasc.key_unique hs (hsub hx) hkey
           obtain ⟨rfl,rfl⟩:=hh.unique hh'
           exact hgo (Bool.eq_false_of_not_eq_true hr)
         · exact (hdone s hs hsegs B' L' hh').trans hnm
       · have:=erase_length_lt hx
         omega
   · have hrun:=(replayLog_output (F:=F) d out target rep hp.le_last (decide (x.2=live))).onError fun _ _ _=>hF
     nth_rewrite 3 [← hself] at hrun
     refine Triple.bind hrun fun r=>Triple.fact fun hr=>?_
     subst hr
     exact Triple.pure fun σ hσ=>
      ⟨n,hσ,hp,⟨n,hcov,le_rfl,Or.inl rfl⟩,Or.inr (Or.inl hF)⟩

lemma refuseExisting_rule (path:Path) : Act.Triple (Vfs.At F d) (refuseExisting path) (fun _ σ=>d.find path=none ∧ σ.At F d)
  fun _ _=>F ∨ d.find path≠none := by
 rw [refuseExisting]
 refine Triple.bind ((pathExists_rule path).onError fun _ _ hE=>Or.inl hE.1) fun present=>Triple.fact fun hp=>?_
 refine Triple.ite (fun hyes=>Triple.fail fun _ _=>Or.inr ?_) fun hno=>
  Triple.pure fun _ hσ=>⟨?_,hσ⟩
 · rw [hyes] at hp
   exact fun hnone=>by rw [hnone] at hp; cases hp
 · rw [Bool.eq_false_of_not_eq_true hno] at hp
   exact Option.isNone_iff_eq_none.mp (by simpa using hp.symm)

lemma backupHeader_rule {backup:Path} (hn:n≤H.last) :
 Act.Triple (Vfs.At F (d.put out (H.image n))) (backupHeader backup out)
  (fun r σ=>r=H.headerAt n ∧ σ.At F (d.put out (H.image n))) fun _ _=>F := by
 have hfile:=Disk.find_put_self d out (H.image n)
 have hprobe:=probe_image hn
 rw [probeHeader] at hprobe
 rw [backupHeader]
 refine Triple.bind ((read_rule hfile _ _).onError fun _ _ hE=>hE.1) fun probe=>Triple.fact fun hpr=>?_
 subst hpr
 split at hprobe
 · rename_i hlong
   rw [if_neg (by omega),hprobe]
   refine Triple.bind ((read_rule hfile _ _).onError fun _ _ hE=>hE.1) fun page0=>Triple.fact fun hp0=>?_
   rw [hp0,Line.headerAt_pageSize hn,image_page0 hn,if_neg]
   · exact Triple.pure fun _ hσ=>⟨rfl,hσ⟩
   · rw [DbHeader.page0_length,Line.headerAt_pageSize hn]
     simp [DbHeader.page0_ok (Line.headerAt_fits hn)]
 · cases hprobe

/-- The segments the recovery finds: the directory is listed when the output is there already. -/
def foundSegments (H:Line) (d:Disk) (out dir:Path) (b:ℕ) : Segments :=
 if dir=[] then [] else segmentsOf H.root.dbId dir ((d.put out (H.image b)).list dir)

lemma listSegments_rule {dir:Path} {b:ℕ} : Act.Triple (Vfs.At F (d.put out (H.image b))) (listSegments H.root.dbId dir)
  (fun r σ=>(r=foundSegments H d out dir b ∨ F ∧ r=[]) ∧ σ.At F (d.put out (H.image b))) fun _ _=>F := by
 rw [listSegments,foundSegments]
 refine Triple.ite (fun hnil=>?_) fun hne=>?_
 · rw [if_pos hnil]
   exact Triple.pure fun _ hσ=>⟨Or.inl rfl,hσ⟩
 · rw [if_neg hne]
   refine Triple.bind (list_rule dir).attempt fun names=>?_
   cases names with
   | ok names=>
    refine Triple.fact fun hnames=>?_
    subst hnames
    exact Triple.pure fun _ hσ=>⟨Or.inl rfl,hσ⟩
   | error e=>
    refine Triple.ite (fun _=>?_) fun _=>Triple.fail fun _ hE=>hE.1
    exact Triple.pure fun _ hE=>⟨Or.inr ⟨hE.1,rfl⟩,hE.at⟩

/-- The files a recovery is given. Where no fault is to happen, the output is new, its name is not
a segment's, the live log is not a segment, and each segment starts at or before the base in its
name. -/
structure Given (F:Prop) (H:Line) (d:Disk) (backup dir live out:Path) (b:ℕ) : Prop where
 le_last : b ≤ H.last
 backupFile : d.find backup=some (H.image b)
 segment : ∀ name k x,segmentBase H.root.dbId name=some k → d.find (dir ++ '/' :: name)=some x →
  ∃ B L h,LogFile H B L h x ∧ (F ∨ B ≤ k)
 liveLog : live≠[] → ∀ x,d.find live=some x → ∃ B L h,LogFile H B L h x
 fresh : F ∨ d.find out=none ∧ d.find (walPathOf out)=none
 apart : F ∨ ∀ name k,segmentBase H.root.dbId name=some k →
  dir ++ '/' :: name≠out ∧ dir ++ '/' :: name≠live

lemma mem_foundSegments {dir:Path} {b:ℕ} {x:ℕ × Path}
 (hx:x∈foundSegments H d out dir b) : ∃ name,segmentBase H.root.dbId name=some x.1 ∧
  x.2=dir ++ '/' :: name ∧ ((d.put out (H.image b)).find x.2).isSome := by
 rw [foundSegments] at hx
 split at hx
 · cases hx
 · obtain ⟨name,hmem,hbase,hpath⟩:=(segmentsOf_spec _ _ _).2.1 x hx
   exact ⟨name,hbase,hpath,hpath ▸ ((Disk.mem_list_iff _ _ _).mp hmem).2⟩

lemma foundSegments_ascending {dir:Path} {b:ℕ} : Ascending (foundSegments H d out dir b) := by
 rw [foundSegments]
 split
 · exact List.Pairwise.nil
 · exact (segmentsOf_spec _ _ _).1

lemma Given.usable {backup dir:Path} {b:ℕ} (hg:Given F H d backup dir live out b)
 {s:ℕ × Path} (hs:s∈foundSegments H d out dir b) : Usable F H d out s := by
 obtain ⟨name,hbase,hpath,hsome⟩:=mem_foundSegments hs
 by_cases hself:s.2=out
 · refine Or.inr ⟨hself,hg.apart.elim id fun hne=>?_⟩
   exact absurd (hpath.symm.trans hself) (hne name _ hbase).1
 · rw [Disk.find_put_of_ne _ _ hself] at hsome
   obtain ⟨x,hx⟩:=Option.isSome_iff_exists.mp hsome
   obtain ⟨B,L,h,hl,hB⟩:=hg.segment name s.1 x hbase (hpath ▸ hx)
   exact Or.inl ⟨hself,B,L,⟨h,x,hx,hl⟩,hB⟩

structure Outcome (F:Prop) (H:Line) (d:Disk) (dir live:Path) (target:RecoveryTarget)
  (out:Path) (b n:ℕ) (rep:RecoveryReport) (σ:Vfs) : Prop where
 output : σ.At F (d.put out (H.image n))
 alive : σ.crashed=false
 progress : Progress H target b n rep
 targetReached : rep.targetReached=target.reached n
 reached : F ∨ Reached H d (foundSegments H d out dir b) live b n
 complete : Stopped H target n ∨ F ∨ Complete H d (foundSegments H d out dir b) live b n

lemma recoverToPoint_rule (target:RecoveryTarget) {backup dir:Path} {b:ℕ} (hg:Given F H d backup dir live out b) :
 Act.Triple (Vfs.At F d) (recoverToPoint backup dir live target out)
  (fun rep σ=>∃ n,Outcome F H d dir live target out b n rep σ) fun _ _=>F := by
 have hfresh:∀ {p:Path},(p=out ∨ p=walPathOf out) → F ∨ d.find p≠none → F:=by
  rintro p hp (hF | hne)
  · exact hF
  · refine hg.fresh.elim id fun hf=>?_
    rcases hp with rfl | rfl
    · exact absurd hf.1 hne
    · exact absurd hf.2 hne
 rw [recoverToPoint]
 refine Triple.bind ((refuseExisting_rule out).onError fun _ _=>hfresh (Or.inl rfl)) fun _=>Triple.fact fun hout=>?_
 refine Triple.bind ((refuseExisting_rule _).onError fun _ _=>hfresh (Or.inr rfl)) fun _=>Triple.fact fun _=>?_
 have hne:backup≠out:=by
  rintro rfl
  rw [hg.backupFile] at hout
  cases hout
 refine Triple.bind ((copyFile_rule hg.backupFile hne).onError fun _ _ hE=>hE.1) fun _=>?_
 refine Triple.bind ((openFile_rule (Disk.find_put_self d out _) (by simp) rfl).onError
  fun _ _ hE=>hE.1) fun _=>?_
 refine Triple.bind (backupHeader_rule hg.le_last) fun h=>Triple.fact fun hh=>?_
 subst hh
 rw [Line.headerAt_dbId hg.le_last,Line.headerAt_pageSize hg.le_last]
 refine Triple.bind listSegments_rule fun segs=>Triple.fact fun hsegs=>?_
 have hstart:Progress H target b b ⟨(H.headerAt b).changeCounter,(H.headerAt b).changeCounter,
   (H.headerAt b).commitTimeUs,0,0,false⟩:=
  ⟨Line.headerAt_counter hg.le_last,Line.headerAt_counter hg.le_last,rfl,(Nat.sub_self b).symm,
   le_rfl,hg.le_last,fun k hk hkb=>by omega⟩
 have hasc:Ascending segs:=by
  rcases hsegs with rfl | ⟨-,rfl⟩
  · exact foundSegments_ascending
  · exact List.Pairwise.nil
 have hin:∀ s∈segs,s∈foundSegments H d out dir b:=by
  rcases hsegs with rfl | ⟨-,rfl⟩
  · exact fun _ hs=>hs
  · exact fun _ hs=>by cases hs
 have hloop:=replayLoop_rule (F:=F) live target segs hasc hout hg.liveLog (fun s hs=>hg.usable (hin s hs))
  (hg.apart.imp_right fun hne s hs=>by
   obtain ⟨name,hbase,hpath,-⟩:=mem_foundSegments (hin s hs)
   exact hpath ▸ (hne name _ hbase).2)
  hstart (fun k hk hkb=>by omega) (fun _ hs=>hs) (fun s hs hnot=>absurd hs hnot)
  (segs.length+1) (Nat.lt_succ_self _)
 refine Triple.bind hloop fun rep=>Triple.exists_fact fun n=>
  Triple.fact_right ?_
 rintro ⟨hprog,hreach,hend⟩
 refine Triple.bind ((sync_rule out).onError fun _ _ hE=>hE.1) fun _=>?_
 refine Triple.bind ((close_rule out).onError fun _ _ hE=>hE.1) fun _=>?_
 refine Triple.bind (((syncDirectory_rule (dirOf out)).both
  ((syncDirectory_alive (dirOf out)).pre fun _ _=>trivial)).onError fun _ _ hE=>hE.1.1)
  fun _=>Triple.pure fun σ hσ=>⟨n,hσ.1,hσ.2,?_,?_,?_,?_⟩
 · exact ⟨hprog.start,hprog.counter,hprog.time,hprog.applied,hprog.from_le,hprog.le_last,hprog.within⟩
 · rw [hprog.counter]
 · rcases hsegs with rfl | ⟨hF,-⟩
   · exact Or.inr hreach
   · exact Or.inl hF
 · rcases hsegs with rfl | ⟨hF,-⟩
   · exact hend
   · exact Or.inr (Or.inl hF)

end Recovery

end Archivum.RecoveryRules
