import Archivum.WalModel

set_option autoImplicit false

/-!
# The database: open, snapshot reads, commit, checkpoint, backup

One data file and its log. Commits append page images to the log; a checkpoint
copies the latest images into the data file, archives the log when an archive
directory is set, and empties the log. Reads go to the log first, then to the
data file, through a cache of clean pages.
-/
namespace Archivum.DbModel
open ByteStrings StatefulActions PageTxn PageFormat VfsModel WalModel Act

structure DbOptions where
 pageSize : ℕ := 4096
 cachePages : ℕ := 1024
 checkpointThresholdFrames : ℕ := 1000
 createIfMissing : Bool := true
 archiveDir : Path := []

structure Db where
 path : Path
 options : DbOptions
 pageSize : ℕ
 dbId : DbId
 wal : Wal
 activeReaders : ℕ := 0
 closed : Bool := false
 /-- Clean pages by (page, frame), most recently used first; frame 0 is the data file's copy. -/
 cache : List ((ℕ × ℕ) × Bytes) := []

def walPathOf (path:Path) : Path := path++['.','w','a','l']

def removeStaleLog (path:Path) : VfsM Unit := do
 let walExists ← attempt (Vfs.pathExists (walPathOf path))
 match walExists with
 | .ok true=>do
  Vfs.remove (walPathOf path)
  Vfs.syncDirectory (directoryOf path)
 | _=>return ()

/-- The `init` lambda of `Db::open`: a file of one page, and no log. -/
def initFile (path:Path) (options:DbOptions) : VfsM Unit := do
 let id ← randomBytes 16
 let h:PageFormat.DbHeader:={ pageSize:=options.pageSize,dbId:=id }
 File.truncate path 0
 File.write path 0 h.page0
 File.sync path
 Vfs.syncDirectory (directoryOf path)
 removeStaleLog path

/-- The log, identified by its own header, and the page 0 it holds, if it can supply one of
`pageSize` bytes. -/
def recoverPage0FromWal (walPath:Path) (pageSize:ℕ) : VfsM (Option (Wal × Bytes)) := do
 let present ← Vfs.pathExists walPath
 if ¬present then return none
 else do
  Vfs.openFile walPath {}
  let hbuf ← File.read walPath 0 kWalHeaderBytes
  File.close walPath
  if hbuf.length≠kWalHeaderBytes then return none
  else match WalHeader.decode hbuf with
   | .error _=>return none
   | .ok wh=>
    if wh.pageSize≠pageSize then return none
    else do
     let wal ← Wal.openLog walPath wh.pageSize
      { dbId:=wh.dbId,newBaseChangeCounter:=wh.baseChangeCounter }
     if wal.find 0 wal.lastCommit=0 then return none
     else do
      let page0 ← wal.readFramePage (wal.find 0 wal.lastCommit)
      return some (wal,page0)

/-- The branch of `Db::open` for a page 0 that is unusable: taken from the log, or initialised
anew when the file is at most one page, or refused. -/
def replacePage0 (path:Path) (options:DbOptions) (pageSize size:ℕ) :
  VfsM (PageFormat.DbHeader × Option Wal) := do
 let fromWal ← recoverPage0FromWal (walPathOf path) pageSize
 match fromWal with
 | some (wal,page0)=>
  match DbHeader.decode page0 with
  | .ok h=>return (h,some wal)
  | .error e=>fail e
 | none=>
  if size ≤ pageSize then do
   initFile path options
   let page0 ← File.read path 0 pageSize
   match DbHeader.decode (resize page0 pageSize) with
   | .ok h=>return (h,none)
   | .error e=>fail e
  else
   fail (corrupt ("database header invalid and not recoverable from the log: " ++ path.text))

def probeHeader (probe:Bytes) : Except Status PageFormat.DbHeader :=
 if kDbHeaderBytes ≤ probe.length then DbHeader.decode (resize probe kMinPageSize)
 else .error (corrupt "database file too short")

/-- The page size `Db::open` goes by: the file's if its header can be read, else the option. -/
def probedPageSize (probe:Bytes) (options:DbOptions) : ℕ :=
 match probeHeader probe with
 | .ok h=>h.pageSize
 | .error _=>options.pageSize

def usableHeader (probe page0:Bytes) : Option PageFormat.DbHeader :=
 match probeHeader probe with
 | .ok h=>if page0.length=h.pageSize ∧ pageChecksumOk page0 then some h else none
 | .error _=>none

/-- The log continues the file: its base is the file's change counter, or a crash landed between a
checkpoint's file sync and its log reset. -/
def continues (wal:Wal) (fileCounter:ℕ) : Bool :=
 decide (wal.header.baseChangeCounter=fileCounter) ||
  match wal.commitList.getLast? with
  | none=>false
  | some c=>decide (wal.header.baseChangeCounter<fileCounter) && decide (fileCounter ≤ c.changeCounter)

def logFor (path:Path) (hdr:PageFormat.DbHeader) : Option Wal → VfsM Wal
 | some wal=>return wal
 | none=>Wal.openLog (walPathOf path) hdr.pageSize
   { dbId:=hdr.dbId,newBaseChangeCounter:=hdr.changeCounter }

/-- `Db::open` once page 0 is settled: the durability barrier, the log, and the check that the log
continues the file. -/
def openLogFor (path:Path) (options:DbOptions) (hdr:PageFormat.DbHeader) (wal?:Option Wal) :
  VfsM Db := do
 File.sync path
 Vfs.syncDirectory (directoryOf path)
 let wal ← logFor path hdr wal?
 if continues wal hdr.changeCounter then
  return { path,options,pageSize:=hdr.pageSize,dbId:=hdr.dbId,wal }
 else
  fail (corrupt ("log " ++ (walPathOf path).text ++ " (base change counter " ++
   toString wal.header.baseChangeCounter ++ ") does not continue database " ++ path.text ++
   " (change counter " ++ toString hdr.changeCounter ++
   "); restore the matching log or remove it deliberately"))

/-- `Db::open` -/
def openDb (path:Path) (options:DbOptions) : VfsM Db := do
 if ¬isPageSize options.pageSize then
  fail (invalidArgument "page_size must be a power of two in [512, 65536]")
 else do
  initEntropy
  let present ← Vfs.pathExists path
  if ¬present ∧ ¬options.createIfMissing then fail (notFound path.text)
  else do
   Vfs.openFile path { write:=true,create:=true }
   let size ← File.size path
   onlyIf (¬present ∨ size=0) (initFile path options)
   let probe ← File.read path 0 kMinPageSize
   let page0 ← File.read path 0 (probedPageSize probe options)
   let size ← File.size path
   match usableHeader probe page0 with
   | some h=>openLogFor path options h none
   | none=>do
    let r ← replacePage0 path options (probedPageSize probe options) size
    openLogFor path options r.1 r.2

/-- The database object next to the file system it works on. -/
structure DbIO where
 vfs : Vfs
 db : Db

abbrev DbM := Act Status DbIO

namespace Db

def io {α:Type} (m:VfsM α) : DbM α := zoom DbIO.vfs (fun s v=>{ s with vfs:=v }) m

def set (f:Db → Db) : DbM Unit := modify fun s=>{ s with db:=f s.db }

def onWal {α:Type} (m:WalM α) : DbM α :=
 zoom (fun s=>⟨s.vfs,s.db.wal⟩)
  (fun s w=>{ s with vfs:=w.vfs,db:={ s.db with wal:=w.wal } }) m

def cacheGet (db:Db) (key:ℕ × ℕ) : Option Bytes := db.cache.lookup key

/-- A new or used entry goes to the front; what exceeds the capacity falls off the back. -/
def cachePut (db:Db) (key:ℕ × ℕ) (data:Bytes) : Db :=
 { db with
   cache:=((key,data)::db.cache.filter fun x=>x.1≠key).take (max 8 db.options.cachePages) }

def readFilePage (db:Db) (page:ℕ) : VfsM Bytes := do
 let out ← File.read db.path (page*db.pageSize) db.pageSize
 if out.length≠db.pageSize then
  fail (corrupt ("page " ++ toString page ++ " beyond end of file: " ++ db.path.text))
 else if ¬pageChecksumOk out then
  fail (corrupt ("page " ++ toString page ++ " checksum mismatch: " ++ db.path.text))
 else return out

/-- The copy at `frame`, or the data file's. -/
def readCopy (db:Db) (page frame:ℕ) : VfsM Bytes :=
 if frame≠0 then db.wal.readFramePage frame else db.readFilePage page

def readCommitted (page snapshot:ℕ) : DbM Bytes := do
 let db ← reads DbIO.db
 if db.closed then fail (ioError "database closed")
 else
  let frame:=db.wal.find page snapshot
  match db.cacheGet (page,frame) with
  | some data=>do
   set fun db=>db.cachePut (page,frame) data
   return data
  | none=>do
   let out ← io (db.readCopy page frame)
   set fun db=>db.cachePut (page,frame) out
   return out

def committedHeader (snapshot:ℕ) : DbM PageFormat.DbHeader := do
 let page0 ← readCommitted 0 snapshot
 match DbHeader.decode page0 with
 | .ok h=>return h
 | .error e=>fail e

structure ReadTxn where
 snapshot : ℕ
 pageCount : ℕ
 changeCounter : ℕ

def readerEnded : DbM Unit := set fun db=>{ db with activeReaders:=db.activeReaders-1 }

def beginRead : DbM ReadTxn := do
 let db ← reads DbIO.db
 if db.closed then fail (ioError "database closed")
 else do
  let snapshot:=db.wal.lastCommit
  set fun db=>{ db with activeReaders:=db.activeReaders+1 }
  let header ← attempt (committedHeader snapshot)
  match header with
  | .error e=>do
   readerEnded
   fail e
  | .ok h=>return ⟨snapshot,h.pageCount,h.changeCounter⟩

/-- `ReadTxn::read_page` -/
def readPage (t:ReadTxn) (page:ℕ) : DbM Bytes :=
 if t.pageCount ≤ page then
  fail (invalidArgument ("page " ++ toString page ++ " out of range"))
 else readCommitted page t.snapshot

/-- What a write transaction holds when it commits: the dirty pages in page order and the header
fields it changed. -/
structure Update where
 dirty : List (ℕ × Bytes)
 header : PageTxn.DbHeader
 deriving DecidableEq

def commitHeader (snapshot:PageFormat.DbHeader) (u:Update) (nowUs:ℤ) : PageFormat.DbHeader :=
 { snapshot with
   toDbHeader:=u.header
   changeCounter:=(snapshot.changeCounter+1)%2^64
   commitTimeUs:=nowUs }

def commitImages (snapshot:PageFormat.DbHeader) (u:Update) (nowUs:ℤ) : List (ℕ × Bytes) :=
 u.dirty.map (fun x=>(x.1,sealPage x.2))++[(0,(commitHeader snapshot u nowUs).page0)]

/-- `begin_write`: the header the transaction starts from. -/
def beginWrite : DbM PageFormat.DbHeader := do
 let db ← reads DbIO.db
 if db.closed then fail (ioError "database closed")
 else if db.wal.failed then
  fail (ioError ("database refuses writes after a log I/O error; reopen it: " ++ db.path.text))
 else committedHeader db.wal.lastCommit

def hexDigits : List Char :=
 ['0','1','2','3','4','5','6','7','8','9','a','b','c','d','e','f']

def hexOf (b:UInt8) : Path :=
 [hexDigits.getD (b.toNat/16) '0',hexDigits.getD (b.toNat%16) '0']

def idHex (id:DbId) : Path := id.1.flatMap hexOf

def paddedDigits (n:ℕ) : Path :=
 List.replicate (20-min 20 (Nat.toDigits 10 n).length) '0' ++ Nat.toDigits 10 n

def archiveSegmentName (id:DbId) (base:ℕ) : Path :=
 idHex id++['-']++paddedDigits base++['.','w','a','l']

def copyFrames (db:Db) : List (ℕ × ℕ) → VfsM Unit
 | []=>return ()
 | (page,frame)::rest=>do
  let buf ← db.wal.readFramePage frame
  File.write db.path (page*db.pageSize) buf
  db.copyFrames rest

/-- `.part` -/
def partSuffix : Path := ['.','p','a','r','t']

/-- The log goes to the archive under a temporary name and is renamed into place. -/
def archiveLog (db:Db) : VfsM Unit :=
 if db.options.archiveDir=[] then return ()
 else do
  let seg:=db.options.archiveDir ++ '/' :: archiveSegmentName db.dbId db.wal.header.baseChangeCounter
  db.wal.copyCommittedTo (seg++partSuffix)
  Vfs.rename (seg++partSuffix) seg
  Vfs.syncDirectory db.options.archiveDir

def checkpointLocked : DbM Unit := do
 let db ← reads DbIO.db
 if db.closed then fail (ioError "database closed")
 else if db.activeReaders≠0 then fail ⟨.busy,"checkpoint deferred: active readers"⟩
 else if db.wal.lastCommit=0 then return ()
 else do
  io (db.copyFrames (db.wal.latestFrames db.wal.lastCommit))
  let dbSize:=db.wal.dbSizeAt db.wal.lastCommit
  let size ← io (File.size db.path)
  onlyIf (dbSize*db.pageSize<size) (io (File.truncate db.path (dbSize*db.pageSize)))
  -- The data file is durable before the log that made it so goes away.
  io (File.sync db.path)
  io db.archiveLog
  set fun db=>{ db with cache:=[] }
  onWal (Wal.reset ((db.wal.commitList.getLast?.map WalCommit.changeCounter).getD 0))

def cacheFrames : List (ℕ × Bytes) → ℕ → Db → Db
 | [],_,db=>db
 | (page,data)::rest,frame,db=>cacheFrames rest (frame+1) (db.cachePut (page,frame) data)

def commitFrames (images:List (ℕ × Bytes)) (dbSize:ℕ) : DbM Unit := do
 let db ← reads DbIO.db
 if db.closed then fail (ioError "database closed")
 else do
  onWal (Wal.appendTransaction images dbSize)
  set (cacheFrames images db.wal.nextFrame)
  let db ← reads DbIO.db
  if db.options.checkpointThresholdFrames ≤ db.wal.nextFrame-1 ∧ db.activeReaders=0 then do
   -- Best effort: the commit is already durable.
   let _ ← attempt checkpointLocked
   return ()
  else return ()

/-- `begin_write`, the transaction's changes, and `WriteTxn::commit`. -/
def commit (u:Update) (nowUs:ℤ) : DbM Unit := do
 let snapshot ← beginWrite
 if u.dirty=[] ∧ u.header=snapshot.toDbHeader then return ()
 else commitFrames (commitImages snapshot u nowUs) u.header.pageCount

/-- The pages from `page` on, `n` of them. -/
def backupPages (t:ReadTxn) (dst:Path) : ℕ → ℕ → DbM Unit
 | 0,_=>return ()
 | n+1,page=>do
  let db ← reads DbIO.db
  let buf ← readPage t page
  io (File.write dst (page*db.pageSize) buf)
  backupPages t dst n (page+1)

def backupFile (t:ReadTxn) (dst:Path) : DbM Unit := do
 io (Vfs.openFile dst { write:=true,create:=true,truncate:=true })
 backupPages t dst t.pageCount 0
 io (do
  File.sync dst
  File.close dst
  Vfs.syncDirectory (directoryOf dst))

def backup (dst:Path) : DbM ℕ := do
 let t ← beginRead
 let done ← attempt (backupFile t dst)
 readerEnded
 match done with
 | .error e=>fail e
 | .ok _=>return t.changeCounter

end Db

end Archivum.DbModel
