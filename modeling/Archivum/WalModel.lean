import Archivum.PageFormat
import Archivum.VfsModel

set_option autoImplicit false

/-!
# The write-ahead log

The log file holds a header and frames, each a frame header and a full page
image. A transaction is a run of frames that ends in a commit frame, the page-0
image. The index of the log is kept as the list of the pages of the committed
frames: the frames of a page are their positions in it, in ascending order.
-/
namespace Archivum.WalModel
open ByteStrings StatefulActions PageTxn PageFormat VfsModel Act

/-- One committed transaction in the log, with what its page-0 image says. -/
structure WalCommit where
 frame : ℕ
 dbSize : ℕ
 changeCounter : ℕ
 commitTimeUs : ℤ
 deriving DecidableEq

structure WalOpenOptions where
 dbId : DbId
 newBaseChangeCounter : ℕ := 0
 readOnly : Bool := false

structure Index where
 lastCommit : ℕ := 0
 commitList : List WalCommit := []
 /-- Page of frame `i + 1`, committed frames only. -/
 framePages : List ℕ := []
 deriving DecidableEq

structure Wal extends Index where
 path : Path
 pageSize : ℕ
 header : WalHeader
 nextFrame : ℕ := 1
 chain : UInt32
 failed : Bool := false
 readOnly : Bool := false

def frameBytes (pageSize:ℕ) : ℕ := kFrameHeaderBytes+pageSize

def frameOffset (pageSize frame:ℕ) : ℕ := kWalHeaderBytes+(frame-1)*frameBytes pageSize

def randomSalt : VfsM UInt32 := do
 let b ← randomBytes 4
 return UInt32.ofNat (fromLE b.1)

namespace Index

/-- The frames of a committed transaction and the commit join the index. -/
def publish (x:Index) (pages:List ℕ) (c:WalCommit) : Index :=
 ⟨c.frame,x.commitList++[c],x.framePages++pages⟩

/-- The frame numbers of `page`, ascending. -/
def frames (x:Index) (page:ℕ) : List ℕ :=
 ((List.range x.framePages.length).map (· + 1)).filter fun f=>x.framePages[f-1]? = some page

/-- Latest frame for `page` at or before `snapshot`, or 0. -/
def find (x:Index) (page snapshot:ℕ) : ℕ :=
 ((x.frames page).filter fun f=>f ≤ snapshot).getLastD 0

/-- Page count recorded by the commit at `frame` (0 for none). -/
def dbSizeAt (x:Index) (frame:ℕ) : ℕ :=
 match x.commitList.find? fun c=>c.frame=frame with
 | some c=>c.dbSize
 | none=>0

/-- Latest frame per page among committed frames up to `upTo`, by page. -/
def latestFrames (x:Index) (upTo:ℕ) : List (ℕ × ℕ) :=
 (x.framePages.dedup.mergeSort (· ≤ ·)).filterMap fun p=>
  if x.find p upTo=0 then none else some (p,x.find p upTo)

end Index

namespace Wal

def writeHeader (path:Path) (h:WalHeader) : VfsM Unit := do
 File.write path 0 h.encode
 File.sync path

/-- Bytes of the file that belong to committed transactions, header included. -/
def committedBytes (w:Wal) : ℕ := frameOffset w.pageSize (w.lastCommit+1)

/-- What the recovery loop carries: the index so far and the checksum of its last frame, the pages
of the frames since the last commit, and the running checksum. -/
structure Scan where
 index : Index
 chain : UInt32
 pending : List ℕ
 running : UInt32

def Scan.start (h:WalHeader) : Scan := ⟨{},h.chainSeed,[],h.chainSeed⟩

/-- One turn of the recovery loop on the bytes of a frame; `none` ends the loop. -/
def Scan.frame (h:WalHeader) (s:Scan) (frame:ℕ) (buf:Bytes) : Option Scan :=
 let page:=slice buf kFrameHeaderBytes h.pageSize
 match WalFrameHeader.decode (slice buf 0 kFrameHeaderBytes) page s.running with
 | .error _=>none
 | .ok (fh,checksum)=>
  if fh.salt1≠h.salt1 ∨ fh.salt2≠h.salt2 then none
  else if ¬pageChecksumOk page then none
  else if fh.dbSizeAfterCommit=0 then
   some { s with pending:=s.pending++[fh.pageNo],running:=checksum }
  -- The commit frame is the page-0 image; it names the commit.
  else if fh.pageNo≠0 then none
  else match DbHeader.decode page with
   | .error _=>none
   | .ok hdr=>
    some
     { index:=s.index.publish (s.pending++[fh.pageNo])
         ⟨frame,fh.dbSizeAfterCommit,hdr.changeCounter,hdr.commitTimeUs⟩
       chain:=checksum
       pending:=[]
       running:=checksum }

/-- The frames from `frame` on, `n` of which fit into the file. -/
def scanLoop (path:Path) (h:WalHeader) : ℕ → ℕ → Scan → VfsM Scan
 | 0,_,s=>return s
 | n+1,frame,s=>do
  let buf ← File.read path (frameOffset h.pageSize frame) (frameBytes h.pageSize)
  if buf.length≠frameBytes h.pageSize then return s
  else match s.frame h frame buf with
   | none=>return s
   | some s'=>scanLoop path h n (frame+1) s'

/-- The number of whole frames in a log of `size` bytes. -/
def frameSlots (pageSize size:ℕ) : ℕ := (size-kWalHeaderBytes)/frameBytes pageSize

def ownHeader (pageSize:ℕ) (dbId:DbId) (buf:Bytes) : Option WalHeader :=
 if buf.length≠kWalHeaderBytes then none
 else match WalHeader.decode buf with
  | .error _=>none
  | .ok h=>if h.pageSize=pageSize ∧ h.dbId=dbId then some h else none

def blank (path:Path) (h:WalHeader) (readOnly:Bool) : Wal where
 path := path
 pageSize:=h.pageSize
 header:=h
 chain:=h.chainSeed
 readOnly:=readOnly

def found (path:Path) (h:WalHeader) (readOnly:Bool) (s:Scan) : Wal where
 toIndex := s.index
 path:=path
 pageSize:=h.pageSize
 header:=h
 nextFrame:=s.index.lastCommit+1
 chain:=s.chain
 readOnly:=readOnly

/-- The end of recovery: the torn tail is cut off and the log made durable. -/
def trimTail (w:Wal) (size:ℕ) : VfsM Wal := do
 onlyIf (w.committedBytes<size) (File.truncate w.path w.committedBytes)
 File.sync w.path
 Vfs.syncDirectory (directoryOf w.path)
 return w

def recover (path:Path) (pageSize:ℕ) (o:WalOpenOptions) : VfsM Wal := do
 let size ← File.size path
 let hbuf ← File.read path 0 kWalHeaderBytes
 match ownHeader pageSize o.dbId hbuf with
 | none=>
  if o.readOnly then
   fail (corrupt ("log header invalid or for another database: " ++ path.text))
  else do
   -- An unreadable header means no committed transaction can be behind it: a fresh log.
   let salt1 ← randomSalt
   let salt2 ← randomSalt
   let h:WalHeader:=⟨pageSize,salt1,salt2,o.dbId,o.newBaseChangeCounter⟩
   File.truncate path 0
   writeHeader path h
   return blank path h false
 | some h=>do
  let s ← scanLoop path h (frameSlots pageSize size) 1 (Scan.start h)
  let w:=found path h o.readOnly s
  if o.readOnly then return w
  else w.trimTail size

/-- `Wal::open` -/
def openLog (path:Path) (pageSize:ℕ) (o:WalOpenOptions) : VfsM Wal := do
 let present ← Vfs.pathExists path
 if o.readOnly ∧ ¬present then fail (notFound path.text)
 else do
  Vfs.openFile path { write:=!o.readOnly,create:=!o.readOnly }
  if ¬present then do
   let salt1 ← randomSalt
   let salt2 ← randomSalt
   let h:WalHeader:=⟨pageSize,salt1,salt2,o.dbId,o.newBaseChangeCounter⟩
   writeHeader path h
   Vfs.syncDirectory (directoryOf path)
   return blank path h o.readOnly
  else recover path pageSize o

def readFramePage (w:Wal) (frame:ℕ) : VfsM Bytes := do
 if frame=0 ∨ w.nextFrame ≤ frame then fail (invalidArgument "bad WAL frame read")
 else do
  let page ← File.read w.path (frameOffset w.pageSize frame+kFrameHeaderBytes) w.pageSize
  if page.length≠w.pageSize then fail (corrupt "short WAL frame read")
  else if ¬pageChecksumOk page then fail (corrupt "WAL frame page checksum mismatch")
  else return page

/-- The copy loop of `copy_committed_to` from `off` on, `n` turns at most. -/
def copyLoop (src dst:Path) (total:ℕ) : ℕ → ℕ → VfsM Unit
 | 0,_=>return ()
 | n+1,off=>
  if total ≤ off then return ()
  else do
   let want := min (2^16) (total-off)
   let buf ← File.read src off want
   if buf.length≠want then
    fail (corrupt ("short read while archiving the log: " ++ src.text))
   else do
    File.write dst off buf
    copyLoop src dst total n (off+buf.length)

def copyCommittedTo (w:Wal) (path:Path) : VfsM Unit := do
 Vfs.openFile path { write:=true,create:=true,truncate:=true }
 copyLoop w.path path w.committedBytes (w.committedBytes+1) 0
 File.sync path
 File.close path
 Vfs.syncDirectory (directoryOf path)

/-- The frames of a transaction, chained from `running`; the last image is the commit frame. -/
def encodeFrames (h:WalHeader) (dbSize:ℕ) : List (ℕ × Bytes) → UInt32 → Bytes × UInt32
 | [],running=>([],running)
 | (page,data)::rest,running=>
  let fh : WalFrameHeader := ⟨page,if rest=[] then dbSize else 0,h.salt1,h.salt2⟩
  let r:=encodeFrames h dbSize rest (fh.checksum data running)
  (fh.encode data running++data++r.1,r.2)

def commitOf (image:Bytes) (frame dbSize:ℕ) : WalCommit :=
 match DbHeader.decode image with
 | .ok h=>⟨frame,dbSize,h.changeCounter,h.commitTimeUs⟩
 | .error _=>⟨frame,dbSize,0,0⟩

end Wal

/-- The log object next to the file system it works on. -/
structure WalIO where
 vfs : Vfs
 wal : Wal

abbrev WalM := Act Status WalIO

namespace Wal

def io {α:Type} (m:VfsM α) : WalM α := zoom WalIO.vfs (fun s v=>{ s with vfs:=v }) m

def set (f:Wal → Wal) : WalM Unit := modify fun s=>{ s with wal:=f s.wal }

def discardUncommitted (w:Wal) : VfsM Unit := do
 File.truncate w.path (frameOffset w.pageSize w.nextFrame)
 File.sync w.path

def failedStatus (path:Path) : Status :=
 ioError ("WAL failed after an earlier I/O error; reopen the database: " ++ path.text)

def appendTransaction (images:List (ℕ × Bytes)) (dbSizeAfter:ℕ) : WalM Unit := do
 let w ← reads WalIO.wal
 if images=[] then fail (invalidArgument "empty transaction")
 else if w.readOnly then
  fail (invalidArgument ("log opened read-only: " ++ w.path.text))
 else if w.failed then fail (failedStatus w.path)
 else if images.any fun x=>x.2.length≠w.pageSize then
  fail (invalidArgument "page image size")
 else do
  let r:=encodeFrames w.header dbSizeAfter images w.chain
  let done ← attempt (io (do
   File.write w.path (frameOffset w.pageSize w.nextFrame) r.1
   File.sync w.path))
  match done with
  | .error s=>do
   -- Whatever landed is unreachable through the chain; remove it if we can and refuse
   -- further appends until reopened.
   let discarded ← attempt (io w.discardUncommitted)
   set fun w=>{ w with failed:=true }
   match discarded with
   | .error d=>fail (if d.code=.crashed then d else s)
   | .ok _=>fail s
  | .ok _=>do
   let commitFrame:=w.nextFrame+images.length-1
   set fun w=>
    { w with
      toIndex:=w.toIndex.publish (images.map Prod.fst)
        (commitOf ((images.getLast?.map Prod.snd).getD []) commitFrame dbSizeAfter)
      nextFrame:=commitFrame+1
      chain:=r.2 }

def reset (baseChangeCounter:ℕ) : WalM Unit := do
 let w ← reads WalIO.wal
 if w.readOnly then fail (invalidArgument ("log opened read-only: " ++ w.path.text))
 else if w.failed then fail (failedStatus w.path)
 else do
  let salt1 ← io randomSalt
  let salt2 ← io randomSalt
  let h:={ w.header with salt1,salt2,baseChangeCounter }
  set fun w=>{ w with header:=h }
  let emptied ← attempt (io (File.truncate w.path 0))
  match emptied with
  | .error s=>do
   set fun w=>{ w with failed:=true }
   fail s
  | .ok _=>do
   -- The frames are gone from the file: the index says so even if the header write fails.
   set fun _=>blank w.path h w.readOnly
   let written ← attempt (io (writeHeader w.path h))
   match written with
   | .error s=>do
    set fun w=>{ w with failed:=true }
    fail s
   | .ok _=>return ()

end Wal

end Archivum.WalModel
