import Archivum.CopyRules
import Archivum.EngineFootprints

set_option autoImplicit false

/-!
# Passes of the archive shipper

What one pass does to the local archive and to the destination, whatever fails on
the way: the local archive is left alone, and a segment at the destination is
either what it was before or a copy of the local one.
-/
namespace Archivum.ArchiveShipping
open ByteStrings StatefulActions PageTxn PageFormat VfsModel WalModel DbModel RecoveryModel List Act
open ShipperModel Footprints

lemma inDir_inj {a b n m:Path} (hn : '/' ∉ n) (hm : '/' ∉ m) (h:inDir a n=inDir b m) : a=b ∧ n=m := by
 have hsplit:∀ {a n:Path},'/' ∉ n →
   (inDir a n).reverse.takeWhile (fun c=>decide (c ≠ '/'))=n.reverse:=by
  intro a n hn
  have hrev:(inDir a n).reverse=n.reverse ++ '/' :: a.reverse:=by simp [inDir]
  rw [hrev,takeWhile_append_of_pos]
  · simp
  · intro c hc
    simp only [decide_eq_true_eq]
    rintro rfl
    exact hn (mem_reverse.mp hc)
 have hname:n=m:=by
  have:=hsplit (a:=b) hm
  rw [← h,hsplit hn] at this
  exact reverse_injective this
 subst hname
 exact ⟨append_cancel_right h,rfl⟩

lemma inDir_append (dir n m:Path) : inDir dir n++m=inDir dir (n++m) := by
 simp [inDir]

lemma slash_not_mem_part {n:Path} (hn : '/' ∉ n) : '/' ∉ n++Db.partSuffix := by
 rw [mem_append]
 exact fun h=>h.elim hn (by decide)

lemma isSegment_iff (name:Path) : isSegment name=true ↔ ∃ n,name=n++['.','w','a','l'] := by
 rw [isSegment,Bool.and_eq_true,decide_eq_true_eq,decide_eq_true_eq]
 constructor
 · rintro ⟨-,h⟩
   exact ⟨name.take (name.length-4),by rw [← h,take_append_drop]⟩
 · rintro ⟨n,rfl⟩
   simp

lemma not_isSegment_append (n e:Path) (he:e.getLast?≠some 'l') (hne:e≠[]) : isSegment (n++e)=false := by
 rw [Bool.eq_false_iff,ne_eq,isSegment_iff]
 rintro ⟨m,hm⟩
 have h:=congrArg getLast? hm
 rw [getLast?_append_of_ne_nil _ hne,getLast?_append_of_ne_nil _ (by simp)] at h
 exact he h

lemma not_isSegment_part (n:Path) : isSegment (n++Db.partSuffix)=false :=
 not_isSegment_append n _ (by decide) (by decide)

lemma not_isSegment_backupPart : isSegment backupPart=false := by decide

lemma not_isSegment_backupName (c:ℕ) : isSegment (backupName c)=false :=
 not_isSegment_append _ _ (by decide) (by decide)

lemma slash_not_mem_backupName (c:ℕ) : '/' ∉ backupName c := by
 rw [backupName,mem_append,mem_append]
 rintro ((h | h) | h)
 · revert h
   decide
 · have:=Nat.isDigit_of_mem_toDigits (by decide) (by decide) h
   revert this
   decide
 · revert h
   decide

variable (cfg:ShipConfig)

/-- The local archive is as it was, and a segment at the destination is as it was or a copy of the
local one. -/
structure Carries (d d':Disk) : Prop where
 archive : ∀ n,'/' ∉ n → d'.find (inDir cfg.archiveDir n)=d.find (inDir cfg.archiveDir n)
 copies : ∀ n,'/' ∉ n → isSegment n →
  d'.find (inDir cfg.backup.destination n)=d.find (inDir cfg.backup.destination n) ∨
  ∃ b,d'.find (inDir cfg.backup.destination n)=some b ∧
   d.find (inDir cfg.archiveDir n)=some b

variable {cfg} {d d':Disk}

lemma Carries.refl (d:Disk) : Carries cfg d d := ⟨fun _ _=>rfl,fun _ _ _=>Or.inl rfl⟩

lemma Carries.trans {d'':Disk} (h:Carries cfg d d') (h':Carries cfg d' d'') : Carries cfg d d'' where
 archive n hn := (h'.archive n hn).trans (h.archive n hn)
 copies n hn hs:=by
  rcases h'.copies n hn hs with he | ⟨b,hb,ha⟩
  · rw [he]
    exact h.copies n hn hs
  · rw [h.archive n hn] at ha
    exact Or.inr ⟨b,hb,ha⟩

lemma Carries.isSome {n:Path} (h:Carries cfg d d') (hn : '/' ∉ n) (hs:isSegment n)
 (hd:(d.find (inDir cfg.backup.destination n)).isSome) : (d'.find (inDir cfg.backup.destination n)).isSome := by
 rcases h.copies n hn hs with he | ⟨b,hb,-⟩
 · rwa [he]
 · rw [hb]
   rfl

def Aside (cfg:ShipConfig) (q:Path) : Prop :=
 ∃ n,'/' ∉ n ∧ isSegment n=false ∧ q=inDir cfg.backup.destination n

lemma carries_of_aside (hne:cfg.archiveDir≠cfg.backup.destination)
 (h:∀ q,¬Aside cfg q → d'.find q=d.find q) : Carries cfg d d' where
 archive n hn := by
  refine h _ ?_
  rintro ⟨m,hm,-,hq⟩
  exact hne (inDir_inj hn hm hq).1
 copies n hn hs:=by
  refine Or.inl (h _ ?_)
  rintro ⟨m,hm,hms,hq⟩
  obtain ⟨-,rfl⟩:=inDir_inj hn hm hq
  rw [hs] at hms
  cases hms

lemma aside_part {n:Path} (hn : '/' ∉ n) : Aside cfg (inDir cfg.backup.destination (n++Db.partSuffix)) :=
 ⟨_,slash_not_mem_part hn,not_isSegment_part n,rfl⟩

section Segments
variable {F:Prop} {n:Path} {b:Bytes}

lemma verifyCopy_rule {src copy:Path} (hsrc:d.find src=some b) (hcopy:d.find copy=some b) :
 Act.Triple (fun s : ShipIO=>s.vfs.At F d) (verifyCopy src copy)
  (fun _ s=>s.vfs.At F d) fun _ s=>s.vfs.Failed F (· = d) := by
 rw [verifyCopy]
 refine Triple.bind ((fileDigest_rule hsrc).zoom fun _ _=>rfl) fun x=>
  Triple.fact fun hx=>?_
 refine Triple.bind ((fileDigest_rule hcopy).zoom fun _ _=>rfl) fun y=>
  Triple.fact fun hy=>?_
 rw [if_pos (hx.trans hy.symm)]
 exact Triple.pure fun _ h=>h

/-- The segments were shipped and the backups left alone. -/
structure Ships (cfg:ShipConfig) (d d':Disk) : Prop extends Carries cfg d d' where
 backups : ∀ c,d'.find (inDir cfg.backup.destination (backupName c)) =
  d.find (inDir cfg.backup.destination (backupName c))

lemma Ships.refl (d:Disk) : Ships cfg d d := ⟨Carries.refl d,fun _=>rfl⟩

lemma Ships.trans {d'':Disk} (h:Ships cfg d d') (h':Ships cfg d' d'') : Ships cfg d d'' :=
 ⟨h.toCarries.trans h'.toCarries,fun c=>(h'.backups c).trans (h.backups c)⟩

lemma backupName_ne_part (c:ℕ) (n:Path) : backupName c≠n++Db.partSuffix := by
 intro h
 have hlast:=congrArg getLast? h
 rw [backupName,getLast?_append_of_ne_nil _ (by simp),getLast?_append_of_ne_nil _ (by decide)] at hlast
 revert hlast
 decide

lemma carries_shipped (hne:cfg.archiveDir≠cfg.backup.destination) (hn : '/' ∉ n)
 (ha:d.find (inDir cfg.archiveDir n)=some b) :
 Carries cfg d ((((d.put (inDir cfg.backup.destination (n++Db.partSuffix)) b).remove
  (inDir cfg.backup.destination (n++Db.partSuffix))).put (inDir cfg.backup.destination n) b)) where
 archive m hm := by
  have h1:inDir cfg.archiveDir m≠inDir cfg.backup.destination n:=fun h=>
   hne (inDir_inj hm hn h).1
  have h2:inDir cfg.archiveDir m≠inDir cfg.backup.destination (n++Db.partSuffix):=fun h=>
   hne (inDir_inj hm (slash_not_mem_part hn) h).1
  rw [Disk.find_put_of_ne _ _ h1,Disk.find_remove_of_ne _ h2,Disk.find_put_of_ne _ _ h2]
 copies m hm hs:=by
  by_cases hmn:m=n
  · subst hmn
    exact Or.inr ⟨b,Disk.find_put_self _ _ _,ha⟩
  · have h1:inDir cfg.backup.destination m≠inDir cfg.backup.destination n:=fun h=>
     hmn (inDir_inj hm hn h).2
    have h2:inDir cfg.backup.destination m ≠
      inDir cfg.backup.destination (n++Db.partSuffix):=fun h=>by
     rw [(inDir_inj hm (slash_not_mem_part hn) h).2,not_isSegment_part] at hs
     cases hs
    rw [Disk.find_put_of_ne _ _ h1,Disk.find_remove_of_ne _ h2,Disk.find_put_of_ne _ _ h2]
    exact Or.inl rfl

lemma shipSegment_rule (hne:cfg.archiveDir≠cfg.backup.destination) (hn : '/' ∉ n)
 (hs:isSegment n) (ha:d.find (inDir cfg.archiveDir n)=some b) : Act.Triple (fun s : ShipIO=>s.vfs.At F d) (shipSegment cfg n)
  (fun _ s=>∃ d',(Ships cfg d d' ∧ (d'.find (inDir cfg.backup.destination n)).isSome) ∧ s.vfs.At F d')
  fun _ s=>s.vfs.Failed F (Ships cfg d) := by
 have hsrc:inDir cfg.archiveDir n≠inDir cfg.backup.destination (n++Db.partSuffix):=fun h=>
  hne (inDir_inj hn (slash_not_mem_part hn) h).1
 have honly:∀ d',OnlyAt (inDir cfg.backup.destination (n++Db.partSuffix)) d d' →
   Ships cfg d d':=by
  intro d' h
  refine ⟨carries_of_aside hne fun q hq=>h q ?_,fun c=>h _ fun hq=>?_⟩
  · rintro rfl
    exact hq (aside_part hn)
  · exact backupName_ne_part c n (inDir_inj (slash_not_mem_backupName c) (slash_not_mem_part hn) hq).2
 have hcarried:Ships cfg d _:=⟨carries_shipped hne hn ha,fun c=>by
  have h1:inDir cfg.backup.destination (backupName c)≠inDir cfg.backup.destination n:=
   fun hq=>by
    rw [← (inDir_inj (slash_not_mem_backupName c) hn hq).2,not_isSegment_backupName] at hs
    cases hs
  have h2:inDir cfg.backup.destination (backupName c) ≠
    inDir cfg.backup.destination (n++Db.partSuffix):=fun hq=>
   backupName_ne_part c n (inDir_inj (slash_not_mem_backupName c) (slash_not_mem_part hn) hq).2
  rw [Disk.find_put_of_ne _ _ h1,Disk.find_remove_of_ne _ h2,Disk.find_put_of_ne _ _ h2]⟩
 rw [shipSegment]
 refine Triple.bind (((copyFile_rule ha hsrc).zoom fun _ _=>rfl).onError fun _ _ h=>
  h.imp honly) fun _=>?_
 refine Triple.bind (((rename_rule (Disk.find_put_self _ _ _)).zoom fun _ _=>rfl).onError
  fun _ _ h=>h.imp fun d' hd=>honly d' (hd ▸ onlyAt_put _ d b)) fun _=>?_
 refine Triple.bind (((syncDirectory_rule _).zoom fun _ _=>rfl).onError fun _ _ h=>
  h.imp fun _ hd=>hd ▸ hcarried) fun _=>?_
 refine (verifyCopy_rule ?_ (Disk.find_put_self _ _ _)).weaken (fun _ h=>h)
  (fun _ s h=>⟨_,⟨hcarried,?_⟩,h⟩) fun _ _ h=>h.imp fun _ hd=>hd ▸ hcarried
 · rw [hcarried.archive n hn]
   exact ha
 · rw [Disk.find_put_self]
   rfl

lemma shipSegments_rule (hne:cfg.archiveDir≠cfg.backup.destination) (have' names:List Path)
 (hnames:∀ n∈names,'/' ∉ n ∧ (d.find (inDir cfg.archiveDir n)).isSome) (shipped:ℕ) :
 Act.Triple (fun s : ShipIO=>s.vfs.At F d) (shipSegments cfg have' names shipped)
  (fun _ s=>∃ d',(Ships cfg d d' ∧ ∀ n∈names,isSegment n → n∈have' ∨
   (d'.find (inDir cfg.backup.destination n)).isSome) ∧ s.vfs.At F d')
  fun _ s=>s.vfs.Failed F (Ships cfg d) := by
 induction names generalizing d shipped with
 | nil=>exact Triple.pure fun s h=>⟨d,⟨Ships.refl d,by simp⟩,h⟩
 | cons n names ih=>
  obtain ⟨hn,hsome⟩:=hnames n mem_cons_self
  have hrest:=fun m hm=>hnames m (mem_cons_of_mem _ hm)
  rw [shipSegments]
  refine Triple.ite (fun hskip=>?_) fun hship=>?_
  · refine (ih hrest shipped).post ?_
    rintro _ s ⟨d',⟨hc,hall⟩,hat⟩
    refine ⟨d',⟨hc,fun m hm hs=>?_⟩,hat⟩
    rcases mem_cons.mp hm with rfl | hm
    · exact Or.inl (hskip.resolve_left (not_not_intro hs))
    · exact hall m hm hs
  · obtain ⟨b,hb⟩:=Option.isSome_iff_exists.mp hsome
    have hseg:isSegment n=true:=Decidable.not_not.mp fun h=>hship (Or.inl h)
    refine Triple.bind (shipSegment_rule hne hn hseg hb) fun _=>Triple.exists_fact fun d₁=>
     Triple.fact fun h₁=>?_
    have hnames₁:∀ m∈names,'/' ∉ m ∧ (d₁.find (inDir cfg.archiveDir m)).isSome:=by
     intro m hm
     rw [h₁.1.archive m (hrest m hm).1]
     exact hrest m hm
    refine (ih hnames₁ (shipped+1)).weaken (fun _ h=>h) ?_ fun _ _ h=>
     h.imp fun _ hc=>h₁.1.trans hc
    rintro _ s ⟨d',⟨hc,hall⟩,hat⟩
    refine ⟨d',⟨h₁.1.trans hc,fun m hm hs=>?_⟩,hat⟩
    rcases mem_cons.mp hm with rfl | hm
    · exact Or.inr (hc.isSome hn hs h₁.2)
    · exact hall m hm hs

end Segments

section Follows
variable {S:Path → Prop} {s : ShipIO}

lemma rejectCopy_follows {path:Path} (hp:S path) (e:Status) : Act.Follows (ShipKeeps S) (rejectCopy path e) s := by
 refine Follows.bind ((remove_within hp).ship s).attempt fun _ _ _=>?_
 exact Follows.bind (Follows.modify ⟨Frame.refl _,rfl,rfl⟩) fun _ _ _=>
  Follows.fail e

lemma copyBytes_within (src:Path) {dst:Path} (hd:S dst) (size n off:ℕ) : Within S (copyBytes src dst size n off) := by
 induction n generalizing off with
 | zero=>exact Within.pure ()
 | succ n ih=>
  refine Within.ite (Within.pure ()) ((read_within _ _ _).bind fun buf=>?_)
  exact Within.ite (Within.pure ()) ((write_within hd _ _).bind fun _=>ih _)

lemma copyFile_within (src:Path) {dst:Path} (hd:S dst) : Within S (copyFile src dst) := by
 refine (openRead_within src).bind fun _=>(openFile_within hd _).bind fun _=>?_
 refine (size_within src).bind fun size=>(copyBytes_within src hd _ _ _).bind fun _=>?_
 refine (sync_within dst).bind fun _=>(close_within dst).bind fun _=>?_
 exact syncDirectory_within _

lemma digestBytes_within (path:Path) (size n off:ℕ) (crc:UInt32) : Within S (digestBytes path size n off crc) := by
 induction n generalizing off crc with
 | zero=>exact Within.pure crc
 | succ n ih=>
  refine Within.ite (Within.pure crc) ((read_within _ _ _).bind fun buf=>?_)
  exact Within.ite (Within.fail _) (ih _ _)

lemma fileDigest_within (path:Path) : Within S (fileDigest path) := by
 refine (openRead_within path).bind fun _=>(size_within path).bind fun size=>?_
 exact (digestBytes_within path _ _ _ _).bind fun _=>Within.pure _

lemma verifyPages_within (path:Path) (pageSize n p:ℕ) : Within S (verifyPages path pageSize n p) := by
 induction n generalizing p with
 | zero=>exact Within.pure ()
 | succ n ih=>exact (read_within _ _ _).bind fun page=>Within.ite (Within.fail _) (ih _)

lemma verifyBackupFile_within (path:Path) : Within S (verifyBackupFile path) := by
 refine (openRead_within path).bind fun _=>(read_within _ _ _).bind fun probe=>?_
 refine Within.ite (Within.fail _) ?_
 cases DbHeader.decode (resize probe kMinPageSize) with
 | error e=>exact Within.fail e
 | ok h=>
  refine (size_within path).bind fun size=>?_
  exact Within.ite (Within.fail _) (verifyPages_within _ _ _ _)

lemma shipSegment_follows {n:Path} (hcopy:S (inDir cfg.backup.destination n))
 (hpart:S (inDir cfg.backup.destination (n++Db.partSuffix))) : Act.Follows (ShipKeeps S) (shipSegment cfg n) s := by
 refine Follows.bind ((copyFile_within _ hpart).ship s) fun _ s₁ _=>?_
 refine Follows.bind ((rename_within hpart hcopy).ship s₁) fun _ s₂ _=>?_
 refine Follows.bind ((syncDirectory_within _).ship s₂) fun _ s₃ _=>?_
 refine Follows.bind ((fileDigest_within _).ship s₃) fun x s₄ _=>?_
 refine Follows.bind ((fileDigest_within _).ship s₄) fun y s₅ _=>?_
 exact Follows.ite (fun _=>Follows.pure ()) fun _=>rejectCopy_follows hcopy _

lemma shipSegments_follows
 {have':List Path}
 (hS:∀ n,isSegment n → n ∉ have' → S (inDir cfg.backup.destination n) ∧
  S (inDir cfg.backup.destination (n++Db.partSuffix)))
 (names:List Path) (shipped:ℕ) :
 Act.Follows (ShipKeeps S) (shipSegments cfg have' names shipped) s := by
 induction names generalizing s shipped with
 | nil=>exact Follows.pure shipped
 | cons n names ih=>
  rw [shipSegments]
  refine Follows.ite (fun _=>ih shipped) fun hship=>?_
  have hn:=hS n (Decidable.not_not.mp fun h=>hship (Or.inl h)) fun h=>hship (Or.inr h)
  exact Follows.bind (shipSegment_follows hn.1 hn.2) fun _ _ _=>ih _

lemma destinationNames_follows : Act.Follows (ShipKeeps S) (destinationNames cfg) s := by
 refine Follows.bind ((list_within _).ship s).attempt fun names _ _=>?_
 cases names with
 | ok names=>exact Follows.pure names
 | error e=>exact Follows.fail _

lemma localNames_follows : Act.Follows (ShipKeeps S) (localNames cfg) s := by
 refine Follows.bind ((list_within _).ship s).attempt fun names _ _=>?_
 cases names with
 | ok names=>exact Follows.pure names
 | error e=>exact Follows.ite (fun _=>Follows.pure []) fun _=>Follows.fail e

lemma placeBackup_follows {c:ℕ} (hpart:S (inDir cfg.backup.destination backupPart))
 (hfinal:S (inDir cfg.backup.destination (backupName c))) : Act.Follows (ShipKeeps S) (placeBackup cfg c) s := by
 refine Follows.bind ((rename_within hpart hfinal).ship s) fun _ s₁ _=>?_
 refine Follows.bind ((syncDirectory_within _).ship s₁) fun _ s₂ _=>?_
 refine Follows.bind ((verifyBackupFile_within _).ship s₂).attempt fun verified _ _=>?_
 cases verified with
 | ok _=>exact Follows.pure ()
 | error e=>exact rejectCopy_follows hfinal e

lemma takeBackup_follows (hpart:S (inDir cfg.backup.destination backupPart))
 (hfinal:∀ c,S (inDir cfg.backup.destination (backupName c))) : Act.Follows (ShipFrame S) (takeBackup cfg) s := by
 refine Follows.bind (follows_onDb ((backup_follows hpart).mono fun _ h=>h.toDbFrame)) fun c _ _=>?_
 exact (placeBackup_follows hpart (hfinal c)).mono fun _ h=>h.frame

lemma shipBackup_follows (hpart:S (inDir cfg.backup.destination backupPart))
 (hfinal:∀ c,S (inDir cfg.backup.destination (backupName c))) (now:ℤ) :
 Act.Follows (ShipFrame S) (shipBackup cfg now) s := by
 refine Follows.bind_reads (Follows.ite (fun _=>Follows.pure false) fun _=>?_)
 refine Follows.bind_of ((pathExists_within _).ship s) (fun _ h=>h.frame) fun already s₁ _=>?_
 refine Follows.ite (fun _=>Follows.pure true) fun _=>?_
 exact Follows.bind (takeBackup_follows hpart hfinal) fun _ _ _=>Follows.pure true

end Follows

/-- Every segment of the local archive is at the destination under its name. -/
def Present (cfg:ShipConfig) (d:Disk) : Prop :=
 ∀ n,'/' ∉ n → isSegment n → (d.find (inDir cfg.archiveDir n)).isSome →
  (d.find (inDir cfg.backup.destination n)).isSome

lemma Present.carries (hp:Present cfg d) (h:Carries cfg d d') : Present cfg d' := by
 intro n hn hs ha
 rw [h.archive n hn] at ha
 exact h.isSome hn hs (hp n hn hs ha)

lemma triple_of_follows {α:Type} {S:Path → Prop} {m:ShipM α} (h:∀ s,Act.Follows (ShipFrame S) m s) :
 Act.Triple (fun s=>s.vfs.At True d) m (fun _ s=>∃ d',(∀ q,¬S q → d'.find q=d.find q) ∧ s.vfs.At True d')
  fun _ s=>s.vfs.Failed True fun d'=>∀ q,¬S q → d'.find q=d.find q := by
 intro s hs
 have hframe:ShipFrame S s (m s).2:=h s
 have hend:(m s).2.vfs.crashed=true ∨ ∀ q,¬S q → (m s).2.vfs.files.find q=d.find q:=by
  rcases hs with ⟨-,hc⟩ | ⟨hd,-⟩
  · exact Or.inl (hframe.vfs.dead hc)
  · rw [← hd]
    exact hframe.vfs.files
 rcases hrun:m s with ⟨r,s'⟩
 rw [hrun] at hend
 cases r with
 | error e=>exact ⟨trivial,hend⟩
 | ok a=>
  rcases hend with hc | hq
  · exact ⟨d,fun _ _=>rfl,Or.inl ⟨trivial,hc⟩⟩
  · exact ⟨s'.vfs.files,hq,s'.vfs.at_true⟩

lemma destinationNames_rule {F:Prop} : Act.Triple (fun s : ShipIO=>s.vfs.At F d) (destinationNames cfg)
  (fun r s=>r=d.list cfg.backup.destination ∧ s.vfs.At F d) fun _ s=>s.vfs.Failed F (· = d) := by
 refine Triple.bind ((list_rule _).zoom fun _ _=>rfl).attempt fun names=>?_
 cases names with
 | ok names=>exact Triple.pure fun _ h=>h
 | error e=>exact Triple.fail fun _ h=>h

lemma localNames_rule {F:Prop} : Act.Triple (fun s : ShipIO=>s.vfs.At F d) (localNames cfg)
  (fun r s=>r=d.list cfg.archiveDir ∧ s.vfs.At F d) fun _ s=>s.vfs.Failed F (· = d) := by
 intro s hs
 have hlist:=(list_rule (F:=F) (d:=d) cfg.archiveDir).zoom
  (g := ShipIO.vfs) (u:=fun s v=>{ s with vfs:=v }) (fun _ _=>rfl) s hs
 rw [localNames]
 rcases hrun:ShipperModel.io (Vfs.list cfg.archiveDir) s with ⟨r,s'⟩
 have hrun':zoom ShipIO.vfs (fun s v=>{ s with vfs:=v }) (Vfs.list cfg.archiveDir) s = (r,s'):=hrun
 rw [hrun'] at hlist
 rw [bind_of_ok _ (attempt_of hrun)]
 cases r with
 | ok names=>exact hlist
 | error e=>
  have hcode:e.code≠.notFound:=by
   have h:(Vfs.list cfg.archiveDir s.vfs).1=.error e:=congrArg Prod.fst hrun
   have hrun':Vfs.list cfg.archiveDir s.vfs=(.error e,(Vfs.list cfg.archiveDir s.vfs).2):=
    Prod.ext h rfl
   exact list_error hrun'
  simp only [if_neg hcode]
  exact hlist

lemma shipBackup_rule (hne:cfg.archiveDir≠cfg.backup.destination) (now:ℤ) :
 Act.Triple (fun s : ShipIO=>s.vfs.At True d) (shipBackup cfg now) (fun _ s=>∃ d',Carries cfg d d' ∧ s.vfs.At True d')
  fun _ s=>s.vfs.Failed True (Carries cfg d) := by
 have hfollows:∀ s,Act.Follows (ShipFrame (Aside cfg)) (shipBackup cfg now) s:=fun s=>
  shipBackup_follows ⟨_,by decide,not_isSegment_backupPart,rfl⟩
   (fun c=>⟨_,slash_not_mem_backupName c,not_isSegment_backupName c,rfl⟩) now
 refine (triple_of_follows hfollows).weaken (fun _ h=>h) ?_ fun _ _ h=>
  h.imp fun _ hq=>carries_of_aside hne hq
 rintro _ s ⟨d',hq,hat⟩
 exact ⟨d',carries_of_aside hne hq,hat⟩

section Pass
variable {F:Prop} {now:ℤ}

/-- What the backup step of a pass must leave, whatever disk the segments left. -/
def BackupCarries (cfg:ShipConfig) (F:Prop) (d:Disk) (now:ℤ) : Prop :=
 ∀ d₁,Ships cfg d d₁ → Act.Triple (fun s : ShipIO=>s.vfs.At F d₁) (shipBackup cfg now)
  (fun _ s=>∃ d',Carries cfg d₁ d' ∧ s.vfs.At F d') fun _ s=>s.vfs.Failed F (Carries cfg d₁)

lemma backupCarries (hne:cfg.archiveDir≠cfg.backup.destination) (d:Disk) (now:ℤ) :
 BackupCarries cfg True d now := fun _ _=>shipBackup_rule hne now

lemma backupCarries_present (hzero:(d.find (inDir cfg.backup.destination (backupName 0))).isSome) (now:ℤ) :
 BackupCarries cfg F d now := by
 intro d₁ h₁
 rw [← h₁.backups 0] at hzero
 refine Triple.bind (Q:=fun _ s=>s.vfs.At F d₁) (Triple.reads fun _ h=>h) fun s=>?_
 refine Triple.ite (fun _=>Triple.pure fun _ h=>⟨d₁,Carries.refl d₁,h⟩) fun _=>?_
 have hself:∀ d',d'=d₁ → Carries cfg d₁ d':=by
  intro d' h
  rw [h]
  exact Carries.refl d₁
 refine Triple.bind (((pathExists_rule _).zoom fun _ _=>rfl).onError fun _ _ h=>
  h.imp hself) fun already=>Triple.fact fun halready=>?_
 rw [if_pos (halready.trans hzero)]
 exact Triple.pure fun _ h=>⟨d₁,Carries.refl d₁,h⟩

lemma shipPass_rule (hne:cfg.archiveDir≠cfg.backup.destination) (hbackup:BackupCarries cfg F d now) :
 Act.Triple (fun s : ShipIO=>s.vfs.At F d) (shipPass cfg now)
  (fun _ s=>∃ d',(Carries cfg d d' ∧ Present cfg d') ∧ s.vfs.At F d') fun _ s=>s.vfs.Failed F (Carries cfg d) := by
 have hself:∀ d',d'=d → Carries cfg d d':=by
  intro d' h
  rw [h]
  exact Carries.refl d
 rw [shipPass]
 refine Triple.bind (destinationNames_rule.onError fun _ _ h=>h.imp hself) fun have'=>
  Triple.fact fun hhave=>?_
 refine Triple.bind (localNames_rule.onError fun _ _ h=>h.imp hself) fun names=>
  Triple.fact fun hnames=>?_
 subst hhave hnames
 have hlisted:=fun n hn=>(Disk.mem_list_iff d cfg.archiveDir n).mp hn
 refine Triple.bind ((shipSegments_rule hne _ _ hlisted 0).onError fun _ _ h=>
  h.imp fun _ hc=>hc.toCarries) fun shipped=>
  Triple.exists_fact fun d₁=>Triple.fact fun h₁=>?_
 have hpresent:Present cfg d₁:=by
  intro n hn hs ha
  rw [h₁.1.archive n hn] at ha
  rcases h₁.2 n ((Disk.mem_list_iff _ _ _).mpr ⟨hn,ha⟩) hs with hin | hin
  · exact h₁.1.isSome hn hs ((Disk.mem_list_iff _ _ _).mp hin).2
  · exact hin
 refine Triple.bind ((hbackup d₁ h₁.1).onError fun _ _ h=>
  h.imp fun _ hc=>h₁.1.toCarries.trans hc) fun done=>Triple.exists_fact fun d₂=>
  Triple.fact fun h₂=>?_
 exact Triple.pure fun _ h=>⟨d₂,⟨h₁.1.toCarries.trans h₂,hpresent.carries h₂⟩,h⟩

lemma setStatus_rule {P:Vfs → Prop} {E:Status → ShipIO → Prop} (f:ShipStatus → ShipStatus) :
 Act.Triple (fun s=>P s.vfs) (setStatus f) (fun _ s=>P s.vfs) E :=
 Triple.modify fun _ h=>h

lemma shipOnce_rule (hne:cfg.archiveDir≠cfg.backup.destination) (hbackup:BackupCarries cfg F d now) :
 Act.Triple (fun s : ShipIO=>s.vfs.At F d) (shipOnce cfg now)
  (fun _ s=>∃ d',(Carries cfg d d' ∧ Present cfg d') ∧ s.vfs.At F d') fun _ s=>s.vfs.Failed F (Carries cfg d) := by
 rw [shipOnce]
 refine Triple.bind (setStatus_rule _) fun _=>?_
 refine Triple.bind (shipPass_rule hne hbackup).attempt fun r=>?_
 cases r with
 | ok x=>exact Triple.modify fun _ h=>h
 | error e=>
  refine Triple.bind (setStatus_rule (P:=Vfs.Failed F (Carries cfg d)) _) fun _=>?_
  exact Triple.fail fun _ h=>h

end Pass

section Relations
variable {R : ShipIO → ShipIO → Prop} [IsPreorder ShipIO R] {T:Path → Prop} {s : ShipIO} {now:ℤ}

lemma shipPass_follows (hS:∀ n,isSegment n → n ∉ s.vfs.files.list cfg.backup.destination →
  T (inDir cfg.backup.destination n) ∧ T (inDir cfg.backup.destination (n++Db.partSuffix)))
 (hR:∀ s t,ShipKeeps T s t → R s t) (hbackup:∀ s',ShipKeeps T s s' → Act.Follows R (shipBackup cfg now) s') :
 Act.Follows R (shipPass cfg now) s := by
 refine Follows.bind_ok (destinationNames_follows.mono (hR s)) fun have' s₁ hrun=>?_
 have h₁:ShipKeeps T s s₁:=destinationNames_follows.ok hrun
 obtain ⟨rfl,-⟩:=(destinationNames_rule (F:=True)).ok s.vfs.at_true hrun
 refine Follows.bind_of localNames_follows (hR s₁) fun names s₂ h₂=>?_
 refine Follows.bind_of (shipSegments_follows hS _ _) (hR s₂) fun shipped s₃ h₃=>?_
 refine Follows.bind (hbackup s₃ ?_) fun done _ _=>Follows.pure _
 exact trans_of (ShipKeeps T) h₁ (trans_of (ShipKeeps T) h₂ h₃)

lemma shipOnce_follows
  (hS:∀ n,isSegment n → n ∉ s.vfs.files.list cfg.backup.destination →
   T (inDir cfg.backup.destination n) ∧ T (inDir cfg.backup.destination (n++Db.partSuffix)))
  (hR:∀ s t,ShipKeeps T s t → R s t)
  (hstatus:∀ (s : ShipIO) (st:ShipStatus),R s { s with status:=st })
  (hbackup:∀ s',ShipKeeps T s s' → Act.Follows R (shipBackup cfg now) s') :
  Act.Follows R (shipOnce cfg now) s := by
 have hset:∀ f s,Act.Follows R (setStatus f) s:=fun f s=>Follows.modify (hstatus s _)
 refine Follows.bind_ok (hset _ s) fun _ s₁ hrun=>?_
 cases hrun
 have hpass:Act.Follows R (shipPass cfg now) { s with status:={ s.status with lastAttemptUs:=now } }:=
  shipPass_follows hS hR fun s₂ h₂=>hbackup s₂ ⟨h₂.vfs,h₂.db,h₂.lastBackup⟩
 refine Follows.bind hpass.attempt fun r s₃ _=>?_
 cases r with
 | ok x=>exact hset _ s₃
 | error e=>exact Follows.bind (hset _ s₃) fun _ _ _=>Follows.fail e

end Relations

end Archivum.ArchiveShipping
