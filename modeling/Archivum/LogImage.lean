import Archivum.Histories

set_option autoImplicit false

/-!
# The bytes of a log and what recovery finds in them

`logBytes h cs` is a log file that holds the commits `cs`: the header and the
chained frames as appends write them. The recovery loop reads exactly these
commits back, whatever stands behind them, as long as that does not complete
another one.
-/
namespace Archivum.LogImage
open ByteStrings StatefulActions PageTxn PageFormat VfsModel WalModel Histories Wal List

/-- A commit that can stand in a log of pages of `ps` bytes. -/
structure Loggable (ps:ℕ) (c:Commit) : Prop where
 fits : c.header.Fits
 pageSize : c.header.pageSize=ps
 length : ∀ x∈c.dirty,x.2.length=ps
 ok : ∀ x∈c.dirty,pageChecksumOk x.2=true
 lt : ∀ x∈c.dirty,x.1<2^64

lemma loggable_of_follows {prev:PageFormat.DbHeader} {c:Commit} (h:c.Follows prev) : Loggable prev.pageSize c where
 fits := h.fits
 pageSize:=h.pageSize
 length:=h.dirty_length
 ok:=h.dirty_ok
 lt x hx:=lt_trans (h.dirty_lt x hx) h.fits.pageCount

lemma loggable_of_line {H:Line} {c:Commit} (hc:c∈H.commits) : Loggable H.pageSize c := by
 obtain ⟨n,hn⟩:=mem_iff_getElem?.mp hc
 have:=loggable_of_follows (Line.commit_follows hn)
 rwa [Line.headerAt_pageSize (Line.commits_lt hn).le] at this

def frameRun (h:WalHeader) (c:Commit) (running:UInt32) : Bytes × UInt32 :=
 encodeFrames h c.header.pageCount c.images running

def txnBytes (h:WalHeader) : List Commit → UInt32 → Bytes
 | [],_=>[]
 | c::cs,running=>(frameRun h c running).1++txnBytes h cs (frameRun h c running).2

def chainAfter (h:WalHeader) (cs:List Commit) (running:UInt32) : UInt32 :=
 cs.foldl (fun r c=>(frameRun h c r).2) running

def logBytes (h:WalHeader) (cs:List Commit) : Bytes := h.encode++txnBytes h cs h.chainSeed

/-- The commits as the log lists them, the frames before them being `off`. -/
def walCommits : ℕ → List Commit → List WalCommit
 | _,[]=>[]
 | off,c::cs=>
  ⟨off+c.images.length,c.header.pageCount,c.header.changeCounter,c.header.commitTimeUs⟩ ::
   walCommits (off+c.images.length) cs

def indexOf (cs:List Commit) : Index where
 lastCommit := (Line.imagesOf cs).length
 commitList:=walCommits 0 cs
 framePages:=(Line.imagesOf cs).map Prod.fst

lemma walCommits_length (off:ℕ) (cs:List Commit) : (walCommits off cs).length=cs.length := by
 induction cs generalizing off with
 | nil=>rfl
 | cons c cs ih=>rw [walCommits,length_cons,length_cons,ih]

lemma walCommits_append (off:ℕ) (cs:List Commit) (c:Commit) : walCommits off (cs++[c])=walCommits off cs ++
  [⟨off+(Line.imagesOf (cs++[c])).length,c.header.pageCount,c.header.changeCounter,c.header.commitTimeUs⟩] := by
 induction cs generalizing off with
 | nil=>simp [walCommits,Line.imagesOf]
 | cons d cs ih=>
  simp only [cons_append,walCommits,ih,Line.imagesOf,flatMap_cons,length_append]
  congr 4
  omega

lemma indexOf_concat (cs:List Commit) (c:Commit) : indexOf (cs++[c])=(indexOf cs).publish (c.images.map Prod.fst)
  ⟨(indexOf cs).lastCommit+c.images.length,c.header.pageCount,c.header.changeCounter,c.header.commitTimeUs⟩ := by
 have himg:Line.imagesOf (cs++[c])=Line.imagesOf cs++c.images:=by
  rw [Line.imagesOf_append]
  simp [Line.imagesOf]
 simp only [indexOf,Index.publish,walCommits_append,himg,length_append,map_append,Nat.zero_add]

lemma chainAfter_concat (h:WalHeader) (cs:List Commit) (c:Commit) (running:UInt32) :
 chainAfter h (cs++[c]) running=(frameRun h c (chainAfter h cs running)).2 := by
 rw [chainAfter,foldl_append]
 rfl

lemma txnBytes_append (h:WalHeader) (cs ds:List Commit) (running:UInt32) : txnBytes h (cs++ds) running =
  txnBytes h cs running++txnBytes h ds (chainAfter h cs running) := by
 induction cs generalizing running with
 | nil=>rfl
 | cons c cs ih=>
  simp only [cons_append,txnBytes,ih,append_assoc]
  rfl

lemma encodeFrames_length (h:WalHeader) (dbSize ps:ℕ) (imgs:List (ℕ × Bytes))
 (himgs:∀ x∈imgs,x.2.length=ps) (running:UInt32) :
 (encodeFrames h dbSize imgs running).1.length=imgs.length*frameBytes ps := by
 induction imgs generalizing running with
 | nil=>simp [encodeFrames]
 | cons x imgs ih=>
  obtain ⟨p,d⟩:=x
  have hd:=himgs (p,d) mem_cons_self
  simp only at hd
  simp only [encodeFrames,length_append,WalFrameHeader.encode_length,hd,
   ih (fun x hx=>himgs x (mem_cons_of_mem _ hx)),length_cons,frameBytes]
  ring

namespace Loggable

variable {ps:ℕ} {c:Commit}

lemma images_length (h:Loggable ps c) : ∀ x∈c.images,x.2.length=ps := by
 intro x hx
 rcases Line.mem_images.mp hx with hx | rfl
 · exact h.length x hx
 · rw [DbHeader.page0_length,h.pageSize]

lemma images_ok (h:Loggable ps c) : ∀ x∈c.images,pageChecksumOk x.2=true := by
 intro x hx
 rcases Line.mem_images.mp hx with hx | rfl
 · exact h.ok x hx
 · exact DbHeader.page0_ok h.fits

lemma run_length (h:Loggable ps c) (hdr:WalHeader) (running:UInt32) :
 (frameRun hdr c running).1.length=c.images.length*frameBytes ps :=
 encodeFrames_length hdr _ ps _ h.images_length running

end Loggable

lemma txnBytes_length {ps:ℕ} (h:WalHeader) (cs:List Commit) (hcs:∀ c∈cs,Loggable ps c) (running:UInt32) :
 (txnBytes h cs running).length=(Line.imagesOf cs).length*frameBytes ps := by
 induction cs generalizing running with
 | nil=>simp [txnBytes,Line.imagesOf]
 | cons c cs ih=>
  rw [txnBytes,length_append,(hcs c mem_cons_self).run_length,ih fun d hd=>hcs d (mem_cons_of_mem _ hd)]
  simp only [Line.imagesOf,flatMap_cons,length_append]
  ring

lemma logBytes_length {ps:ℕ} (h:WalHeader) (cs:List Commit) (hcs:∀ c∈cs,Loggable ps c) :
 (logBytes h cs).length=frameOffset ps ((Line.imagesOf cs).length+1) := by
 rw [logBytes,length_append,WalHeader.encode_length,txnBytes_length h cs hcs,frameOffset,Nat.add_sub_cancel]

/-- The recovery loop where the file is `b`. -/
def scanBytes (h:WalHeader) (b:Bytes) : ℕ → ℕ → Scan → Scan
 | 0,_,s=>s
 | n+1,frame,s=>
  let buf := slice b (frameOffset h.pageSize frame) (frameBytes h.pageSize)
  if buf.length≠frameBytes h.pageSize then s
  else match s.frame h frame buf with
   | none=>s
   | some s'=>scanBytes h b n (frame+1) s'

lemma frame_cases {h:WalHeader} {s s':Scan} {frame:ℕ} {buf:Bytes} (hf:s.frame h frame buf=some s') :
 (s'.index=s.index ∧ s'.chain=s.chain) ∨ s'.index.lastCommit=frame := by
 simp only [Scan.frame] at hf
 split at hf
 · cases hf
 · split_ifs at hf
   · cases hf
     exact Or.inl ⟨rfl,rfl⟩
   · split at hf
     · cases hf
     · cases hf
       exact Or.inr rfl

lemma scanBytes_lastCommit (h:WalHeader) (b:Bytes) (n frame:ℕ) (s:Scan) (hs:s.index.lastCommit<frame) :
 s.index.lastCommit≤(scanBytes h b n frame s).index.lastCommit ∧
  ((scanBytes h b n frame s).index.lastCommit=s.index.lastCommit →
   (scanBytes h b n frame s).index=s.index ∧ (scanBytes h b n frame s).chain=s.chain) := by
 induction n generalizing frame s with
 | zero=>exact ⟨le_rfl,fun _=>⟨rfl,rfl⟩⟩
 | succ n ih=>
  rw [scanBytes]
  split
  · exact ⟨le_rfl,fun _=>⟨rfl,rfl⟩⟩
  · cases hf:s.frame h frame (slice b (frameOffset h.pageSize frame) (frameBytes h.pageSize)) with
    | none=>exact ⟨le_rfl,fun _=>⟨rfl,rfl⟩⟩
    | some s'=>
     rcases frame_cases hf with ⟨hi,hc⟩ | hnew
     · have:=ih (frame+1) s' (by rw [hi]; omega)
       rw [hi,hc] at this
       exact this
     · obtain ⟨hle,-⟩:=ih (frame+1) s' (by omega)
       simp only
       exact ⟨by omega,fun heq=>absurd heq (by omega)⟩

def frameHeader (h:WalHeader) (page dbSize:ℕ) : WalFrameHeader := ⟨page,dbSize,h.salt1,h.salt2⟩

section Frames
variable {h:WalHeader} {s:Scan} {frame page dbSize:ℕ} {d:Bytes}

lemma frame_parts (hd:d.length=h.pageSize) (fh:WalFrameHeader) (running:UInt32) :
 slice (fh.encode d running++d) 0 kFrameHeaderBytes=fh.encode d running ∧
  slice (fh.encode d running++d) kFrameHeaderBytes h.pageSize=d := by
 have hlen:=fh.encode_length d running
 constructor
 · rw [slice_append_left _ _ _ _ (by rw [hlen,Nat.zero_add]),← hlen,slice_all]
 · rw [slice_append_right _ _ _ _ hlen.le,hlen,Nat.sub_self,← hd,slice_all]

lemma frame_plain (hd:d.length=h.pageSize) (hok:pageChecksumOk d=true)
  (hp:page<2^64) (s:Scan) (frame:ℕ) :
  s.frame h frame ((frameHeader h page 0).encode d s.running++d) =
   some { s with
    pending:=s.pending++[page]
    running:=(frameHeader h page 0).checksum d s.running } := by
 obtain ⟨h1,h2⟩:=frame_parts hd (frameHeader h page 0) s.running
 rw [Scan.frame,h1,h2,WalFrameHeader.decode_encode ⟨hp,by simp [frameHeader]⟩]
 simp [frameHeader,hok]

lemma frame_commit {hdr:PageFormat.DbHeader} (hd:d.length=h.pageSize)
  (hok:pageChecksumOk d=true) (hdec:DbHeader.decode d=.ok hdr) (hpos:0<dbSize)
  (hlt:dbSize<2^64) :
  s.frame h frame ((frameHeader h 0 dbSize).encode d s.running++d) =
   some
    { index:=s.index.publish (s.pending++[0])
        ⟨frame,dbSize,hdr.changeCounter,hdr.commitTimeUs⟩
      chain:=(frameHeader h 0 dbSize).checksum d s.running
      pending:=[]
      running:=(frameHeader h 0 dbSize).checksum d s.running } := by
 obtain ⟨h1,h2⟩:=frame_parts hd (frameHeader h 0 dbSize) s.running
 rw [Scan.frame,h1,h2,WalFrameHeader.decode_encode ⟨by simp [frameHeader],hlt⟩]
 simp [frameHeader,hok,hdec,hpos.ne']

lemma scanBytes_step {b u v w:Bytes} {n:ℕ} {s':Scan} (hb:b=u++v++w)
 (hu:u.length=frameOffset h.pageSize frame) (hv:v.length=frameBytes h.pageSize) (hs:s.frame h frame v=some s') :
 scanBytes h b (n+1) frame s=scanBytes h b n (frame+1) s' := by
 have hslice:slice b (frameOffset h.pageSize frame) (frameBytes h.pageSize)=v:=by
  rw [hb]
  exact slice_middle u v w _ _ hu hv
 rw [scanBytes,hslice]
 simp only [hv,ne_eq,not_true_eq_false,if_false,hs]

lemma frameOffset_succ (ps frame:ℕ) (hf:0<frame) : frameOffset ps (frame+1)=frameOffset ps frame+frameBytes ps := by
 obtain ⟨f,rfl⟩:∃ f,frame=f+1:=⟨frame-1,by omega⟩
 simp only [frameOffset,Nat.add_sub_cancel]
 ring

lemma frame_length (hd:d.length=h.pageSize) (fh:WalFrameHeader) (running:UInt32) :
 (fh.encode d running++d).length=frameBytes h.pageSize := by
 rw [length_append,fh.encode_length,hd,frameBytes]

end Frames

lemma scan_txn {h:WalHeader} {b:Bytes} {c:Commit} (hc:Loggable h.pageSize c) (n:ℕ)
  (post:Bytes) (dirty:List (ℕ × Bytes)) (hd:∀ x∈dirty,x∈c.dirty) (pre:Bytes)
  (frame:ℕ) (s:Scan) (hpos:0<frame) (hpre:pre.length=frameOffset h.pageSize frame)
  (hb:b=pre++(encodeFrames h c.header.pageCount (dirty++[(0,c.header.page0)]) s.running).1 ++
   post) :
  scanBytes h b (dirty.length+1+n) frame s =
   scanBytes h b n (frame+dirty.length+1)
    { index:=s.index.publish (s.pending++dirty.map Prod.fst++[0])
        ⟨frame+dirty.length,c.header.pageCount,c.header.changeCounter,c.header.commitTimeUs⟩
      chain:=
       (encodeFrames h c.header.pageCount (dirty++[(0,c.header.page0)]) s.running).2
      pending:=[]
      running:=
       (encodeFrames h c.header.pageCount (dirty++[(0,c.header.page0)]) s.running).2 } := by
 have hfit:=hc.fits
 induction dirty generalizing pre frame s with
 | nil=>
  have hlen:c.header.page0.length=h.pageSize:=by rw [DbHeader.page0_length,hc.pageSize]
  have hdec:DbHeader.decode c.header.page0=.ok c.header:=by
   have hps:=hfit.pageSize_le.1
   simp only [kMinPageSize] at hps
   have:=DbHeader.decode_page0 hfit c.header.pageSize (by simp only [kDbHeaderBytes]; omega)
   rwa [← DbHeader.page0_length,slice_all] at this
  have hstep:=scanBytes_step (n:=n) (w:=post) (u:=pre) (b:=b)
   (by simpa [encodeFrames,frameHeader] using hb) hpre (frame_length hlen (frameHeader h 0 c.header.pageCount)
    s.running) (frame_commit hlen (DbHeader.page0_ok hfit) hdec hfit.pageCount_pos hfit.pageCount)
  rw [length_nil,Nat.zero_add,Nat.add_comm 1 n,hstep]
  simp [encodeFrames,frameHeader]
 | cons x dirty ih=>
  obtain ⟨p,d⟩:=x
  have hx:=hd (p,d) mem_cons_self
  have hlen:=hc.length (p,d) hx
  simp only at hlen
  have hne:dirty++[(0,c.header.page0)]≠[]:=by simp
  have henc:encodeFrames h c.header.pageCount ((p,d)::(dirty++[(0,c.header.page0)])) s.running =
    ((frameHeader h p 0).encode d s.running++d ++ (encodeFrames h c.header.pageCount (dirty++[(0,c.header.page0)])
      ((frameHeader h p 0).checksum d s.running)).1,(encodeFrames h c.header.pageCount (dirty++[(0,c.header.page0)])
      ((frameHeader h p 0).checksum d s.running)).2):=by
   rw [encodeFrames]
   simp only [if_neg hne,frameHeader]
  rw [cons_append,henc] at hb
  have hfl:=frame_length hlen (frameHeader h p 0) s.running
  have hstep:=scanBytes_step (n:=dirty.length+1+n) (b:=b) (u:=pre) (v:=(frameHeader h p 0).encode d s.running++d)
   (by rw [hb]; simp only [append_assoc]; rfl) hpre hfl
   (frame_plain hlen (hc.ok _ hx) (hc.lt _ hx) s frame)
  have hih:=ih (fun y hy=>hd y (mem_cons_of_mem _ hy)) (pre++((frameHeader h p 0).encode d s.running++d)) (frame+1) { s with
     pending:=s.pending++[p]
     running:=(frameHeader h p 0).checksum d s.running } (Nat.succ_pos _)
   (by rw [length_append,hpre,hfl,frameOffset_succ _ _ hpos])
   (by rw [hb]; simp only [append_assoc])
  have hn:(⟨p,d⟩::dirty:List (ℕ × Bytes)).length+1+n=dirty.length+1+n+1:=by
   simp only [length_cons]
   omega
  rw [hn,hstep,hih,cons_append,henc]
  simp only [map_cons,append_assoc,cons_append,nil_append,length_cons]
  congr 2
  · omega
  · congr 2
    omega

lemma scan_commits {h:WalHeader} {b post:Bytes} (n:ℕ) (cs ds:List Commit)
 (hcs:∀ c∈cs,Loggable h.pageSize c) (hds:∀ c∈ds,Loggable h.pageSize c) (hb:b=logBytes h (ds++cs)++post) :
 scanBytes h b ((Line.imagesOf cs).length+n) ((Line.imagesOf ds).length+1)
   ⟨indexOf ds,chainAfter h ds h.chainSeed,[],chainAfter h ds h.chainSeed⟩ =
  scanBytes h b n ((Line.imagesOf (ds++cs)).length+1) ⟨indexOf (ds++cs),chainAfter h (ds++cs) h.chainSeed,[],
    chainAfter h (ds++cs) h.chainSeed⟩ := by
 induction cs generalizing ds with
 | nil=>simp [Line.imagesOf]
 | cons c cs ih=>
  have hc:=hcs c mem_cons_self
  have hsplit:ds++c::cs=(ds++[c])++cs:=by simp
  have hbytes:logBytes h (ds++c::cs)=logBytes h ds ++ (frameRun h c (chainAfter h ds h.chainSeed)).1 ++
    txnBytes h cs (frameRun h c (chainAfter h ds h.chainSeed)).2:=by
   rw [logBytes,txnBytes_append,txnBytes,logBytes]
   simp only [append_assoc]
  have htxn:=scan_txn (b:=b) hc ((Line.imagesOf cs).length+n)
   (txnBytes h cs (frameRun h c (chainAfter h ds h.chainSeed)).2++post) c.dirty
   (fun _ hx=>hx) (logBytes h ds) ((Line.imagesOf ds).length+1)
   ⟨indexOf ds,chainAfter h ds h.chainSeed,[],chainAfter h ds h.chainSeed⟩ (Nat.succ_pos _)
   (logBytes_length h ds hds)
   (by
    rw [hb,hbytes]
    simp only [append_assoc]
    rfl)
  have hcount:(Line.imagesOf (c::cs)).length+n =
    c.dirty.length+1+((Line.imagesOf cs).length+n):=by
   simp only [Line.imagesOf,flatMap_cons,length_append,Commit.images,length_singleton]
   omega
  have hlen:(Line.imagesOf (ds++[c])).length=(Line.imagesOf ds).length+c.dirty.length+1:=by
   rw [Line.imagesOf_append,length_append]
   simp only [Line.imagesOf,flatMap_cons,flatMap_nil,append_nil,Commit.images,length_append,length_singleton]
   omega
  have hnext:Scan.mk ((indexOf ds).publish ([]++c.dirty.map Prod.fst++[0])
      ⟨(Line.imagesOf ds).length+1+c.dirty.length,c.header.pageCount,c.header.changeCounter,c.header.commitTimeUs⟩)
     (frameRun h c (chainAfter h ds h.chainSeed)).2 []
     (frameRun h c (chainAfter h ds h.chainSeed)).2 =
    ⟨indexOf (ds++[c]),chainAfter h (ds++[c]) h.chainSeed,[],chainAfter h (ds++[c]) h.chainSeed⟩:=by
   rw [indexOf_concat,chainAfter_concat]
   simp only [Commit.images,map_append,map_cons,map_nil,nil_append,length_append,length_singleton,indexOf]
   congr 3
   omega
  have hframe:(Line.imagesOf ds).length+1+c.dirty.length+1 =
    (Line.imagesOf (ds++[c])).length+1:=by
   rw [hlen]
   omega
  have hih:=ih (ds++[c]) (fun d hd=>hcs d (mem_cons_of_mem _ hd))
   (by
    intro d hd
    rcases mem_append.mp hd with hd | hd
    · exact hds d hd
    · rw [mem_singleton.mp hd]
      exact hc)
   (by rw [hb,hsplit])
  rw [hcount,htxn]
  refine Eq.trans ?_ (hih.trans ?_)
  · rw [← hnext,← hframe]
    rfl
  · rw [hsplit]

def recovered (h:WalHeader) (b:Bytes) : Scan :=
 scanBytes h b (frameSlots h.pageSize b.length) 1 (Scan.start h)

/-- The file is a log with header `h` that holds the commits `cs`; a torn tail may follow, which
does not complete a further commit. -/
structure LogHolds (h:WalHeader) (cs:List Commit) (b:Bytes) : Prop where
 fits : h.Fits
 loggable : ∀ c∈cs,Loggable h.pageSize c
 bytes : ∃ tail,b=logBytes h cs++tail
 quiet : (recovered h b).index.lastCommit=(Line.imagesOf cs).length

namespace LogHolds

variable {h:WalHeader} {cs:List Commit} {b:Bytes}

lemma length_le (hl:LogHolds h cs b) : frameOffset h.pageSize ((Line.imagesOf cs).length+1)≤b.length := by
 obtain ⟨tail,rfl⟩:=hl.bytes
 rw [length_append,logBytes_length h cs hl.loggable]
 omega

lemma slots_le (hl:LogHolds h cs b) : (Line.imagesOf cs).length≤frameSlots h.pageSize b.length := by
 have hlen:=hl.length_le
 rw [frameOffset,Nat.add_sub_cancel] at hlen
 rw [frameSlots,Nat.le_div_iff_mul_le (by simp only [frameBytes,kFrameHeaderBytes]; omega)]
 omega

lemma recovered_eq (hl:LogHolds h cs b) :
 (recovered h b).index=indexOf cs ∧ (recovered h b).chain=chainAfter h cs h.chainSeed := by
 have hquiet:=hl.quiet
 obtain ⟨tail,hb⟩:=hl.bytes
 obtain ⟨n,hn⟩:∃ n,frameSlots h.pageSize b.length=(Line.imagesOf cs).length+n:=
  ⟨_,(Nat.add_sub_cancel' hl.slots_le).symm⟩
 have hscan:=scan_commits n cs [] hl.loggable (by simp) hb
 have hrec:recovered h b=scanBytes h b n ((Line.imagesOf cs).length+1)
   ⟨indexOf cs,chainAfter h cs h.chainSeed,[],chainAfter h cs h.chainSeed⟩:=by
  rw [recovered,hn]
  exact hscan
 rw [hrec] at hquiet ⊢
 have hlast:=scanBytes_lastCommit h b n ((Line.imagesOf cs).length+1)
  ⟨indexOf cs,chainAfter h cs h.chainSeed,[],chainAfter h cs h.chainSeed⟩ (Nat.lt_succ_self _)
 exact hlast.2 hquiet

end LogHolds

lemma logHolds_exact {h:WalHeader} {cs:List Commit} (hf:h.Fits)
 (hcs:∀ c∈cs,Loggable h.pageSize c) : LogHolds h cs (logBytes h cs) where
 fits := hf
 loggable:=hcs
 bytes:=⟨[],by simp⟩
 quiet:=by
  have hslots:frameSlots h.pageSize (logBytes h cs).length=(Line.imagesOf cs).length+0:=by
   rw [logBytes_length h cs hcs,frameSlots,frameOffset,Nat.add_sub_cancel,Nat.add_sub_cancel_left,
    Nat.mul_div_cancel _ (by simp only [frameBytes,kFrameHeaderBytes]; omega),Nat.add_zero]
  have hscan:=scan_commits 0 cs [] hcs (by simp) (append_nil (logBytes h cs)).symm
  rw [recovered,hslots]
  exact (congrArg (fun s=>s.index.lastCommit) hscan).trans rfl

lemma encodeFrames_data (h:WalHeader) (dbSize ps:ℕ) (imgs:List (ℕ × Bytes))
 (himgs:∀ x∈imgs,x.2.length=ps) (running:UInt32) (i:ℕ) {x:ℕ × Bytes} (hx:imgs[i]? = some x) :
 slice (encodeFrames h dbSize imgs running).1 (i*frameBytes ps+kFrameHeaderBytes) ps=x.2 := by
 induction imgs generalizing running i with
 | nil=>simp at hx
 | cons y imgs ih=>
  obtain ⟨p,d⟩:=y
  have hd:d.length=ps:=himgs (p,d) mem_cons_self
  simp only [encodeFrames]
  set fh:WalFrameHeader:=⟨p,if imgs=[] then dbSize else 0,h.salt1,h.salt2⟩
  have hlen:(fh.encode d running).length=kFrameHeaderBytes:=fh.encode_length d running
  cases i with
  | zero=>
   obtain rfl:(p,d)=x:=by simpa using hx
   rw [Nat.zero_mul,Nat.zero_add]
   exact slice_middle _ d _ _ _ hlen hd
  | succ i=>
   have hoff:(fh.encode d running++d).length=frameBytes ps:=by
    rw [length_append,hlen,hd,frameBytes]
   rw [slice_append_right _ _ _ _ (by rw [hoff,Nat.succ_mul]; omega),hoff]
   have:=ih (fun y hy=>himgs y (mem_cons_of_mem _ hy)) (fh.checksum d running) i (by simpa using hx)
   convert this using 2
   rw [Nat.succ_mul]
   omega

lemma txnBytes_data {ps:ℕ} (h:WalHeader) (cs:List Commit)
 (hcs:∀ c∈cs,Loggable ps c) (running:UInt32) (i:ℕ) {x:ℕ × Bytes} (hx:(Line.imagesOf cs)[i]? = some x) :
 slice (txnBytes h cs running) (i*frameBytes ps+kFrameHeaderBytes) ps=x.2 := by
 induction cs generalizing running i with
 | nil=>simp [Line.imagesOf] at hx
 | cons c cs ih=>
  have hc:=hcs c mem_cons_self
  have hlen:=hc.run_length h running
  simp only [Line.imagesOf,flatMap_cons] at hx
  rw [txnBytes]
  rcases Nat.lt_or_ge i c.images.length with hi | hi
  · rw [getElem?_append_left hi] at hx
    rw [slice_append_left _ _ _ _ ?_]
    · exact encodeFrames_data h _ ps _ hc.images_length running i hx
    · have hmul:=Nat.mul_le_mul_right (frameBytes ps) (Nat.succ_le_of_lt hi)
      rw [Nat.succ_mul] at hmul
      rw [hlen]
      simp only [frameBytes] at hmul ⊢
      omega
  · rw [getElem?_append_right hi] at hx
    have hmul:=Nat.mul_le_mul_right (frameBytes ps) hi
    rw [slice_append_right _ _ _ _ (by rw [hlen]; omega),hlen]
    have:=ih (fun d hd=>hcs d (mem_cons_of_mem _ hd)) (frameRun h c running).2 (i-c.images.length) hx
    convert this using 2
    rw [Nat.sub_mul]
    omega

lemma LogHolds.frame_data {h:WalHeader} {cs:List Commit} {b:Bytes} (hl:LogHolds h cs b)
 {i:ℕ} {x:ℕ × Bytes} (hx:(Line.imagesOf cs)[i]? = some x) :
 slice b (frameOffset h.pageSize (i+1)+kFrameHeaderBytes) h.pageSize=x.2 := by
 obtain ⟨tail,rfl⟩:=hl.bytes
 have hi:i<(Line.imagesOf cs).length:=(List.getElem?_eq_some_iff.mp hx).1
 have hmul:=Nat.mul_le_mul_right (frameBytes h.pageSize) (Nat.succ_le_of_lt hi)
 rw [Nat.succ_mul] at hmul
 have hlen:=txnBytes_length h cs hl.loggable h.chainSeed
 rw [logBytes,append_assoc,frameOffset,Nat.add_sub_cancel]
 rw [slice_append_right _ _ _ _ (by rw [WalHeader.encode_length]; omega),WalHeader.encode_length,
  slice_append_left _ _ _ _ ?_]
 · have:=txnBytes_data h cs hl.loggable h.chainSeed i hx
   convert this using 2
   omega
 · rw [hlen]
   simp only [frameBytes] at hmul ⊢
   omega

lemma imagesOf_length_eq {ps:ℕ} {cs:List Commit} (hcs:∀ c∈cs,Loggable ps c) :
 ∀ x∈Line.imagesOf cs,x.2.length=ps ∧ pageChecksumOk x.2=true := by
 intro x hx
 obtain ⟨c,hc,hxc⟩:=mem_flatMap.mp hx
 exact ⟨(hcs c hc).images_length x hxc,(hcs c hc).images_ok x hxc⟩

end Archivum.LogImage
