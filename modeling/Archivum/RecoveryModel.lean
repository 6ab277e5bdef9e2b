import Archivum.DbModel

set_option autoImplicit false

/-!
# Copies, digests and point-in-time recovery

A backup plus archived log segments, replayed to a target change counter or
time. The segment to go on with is the one with the largest base at or below the
current counter; the live log comes last.
-/
namespace Archivum.RecoveryModel
open ByteStrings StatefulActions PageTxn PageFormat VfsModel WalModel DbModel Act

/-- `dir_of` -/
def dirOf (path:Path) : Path :=
 match path.reverse.dropWhile fun c=>c ≠ '/' ∧ c ≠ '\\' with
 | []=>['.']
 | _::rest=>rest.reverse

/-- The copy loop from `off` on, `n` turns at most. -/
def copyBytes (src dst:Path) (size:ℕ) : ℕ → ℕ → VfsM Unit
 | 0,_=>return ()
 | n+1,off=>
  if size ≤ off then return ()
  else do
   let buf ← File.read src off (2^16)
   if buf=[] then return ()
   else do
    File.write dst off buf
    copyBytes src dst size n (off+buf.length)

def copyFile (src dst:Path) : VfsM Unit := do
 Vfs.openFile src {}
 Vfs.openFile dst { write:=true,create:=true,truncate:=true }
 let size ← File.size src
 copyBytes src dst size size 0
 File.sync dst
 File.close dst
 Vfs.syncDirectory (dirOf dst)

structure FileDigest where
 size : ℕ
 crc32c : UInt32
 deriving DecidableEq

/-- The checksum of the bytes from `off` on, `n` turns at most. -/
def digestBytes (path:Path) (size:ℕ) : ℕ → ℕ → UInt32 → VfsM UInt32
 | 0,_,crc=>return crc
 | n+1,off,crc=>
  if size ≤ off then return crc
  else do
   let buf ← File.read path off (2^16)
   if buf=[] then fail (ioError ("short read at " ++ toString off ++ ": " ++ path.text))
   else digestBytes path size n (off+buf.length) (crc32cFrom crc buf)

def fileDigest (path:Path) : VfsM FileDigest := do
 Vfs.openFile path {}
 let size ← File.size path
 let crc ← digestBytes path size size 0 0
 return ⟨size,crc⟩

/-- The page loop of `verify_backup_file`. -/
def verifyPages (path:Path) (pageSize:ℕ) : ℕ → ℕ → VfsM Unit
 | 0,_=>return ()
 | n+1,p=>do
  let page ← File.read path (p*pageSize) pageSize
  if page.length≠pageSize ∨ ¬pageChecksumOk page then
   fail (corrupt ("backup " ++ path.text ++ ": page " ++ toString p ++ " checksum mismatch"))
  else verifyPages path pageSize n (p+1)

def verifyBackupFile (path:Path) : VfsM Unit := do
 Vfs.openFile path {}
 let probe ← File.read path 0 kMinPageSize
 if probe.length<kDbHeaderBytes then fail (corrupt ("backup too short: " ++ path.text))
 else match DbHeader.decode (resize probe kMinPageSize) with
  | .error e=>fail e
  | .ok h=>do
   let size ← File.size path
   if size≠h.pageCount*h.pageSize then
    fail (corrupt ("backup " ++ path.text ++ " is " ++ toString size ++
     " bytes, header says " ++ toString h.pageCount ++ " pages of " ++ toString h.pageSize))
   else verifyPages path h.pageSize h.pageCount 0

structure RecoveryTarget where
 changeCounter : Option ℕ := none
 timeUs : Option ℤ := none

structure RecoveryReport where
 startChangeCounter : ℕ
 changeCounter : ℕ
 commitTimeUs : ℤ
 transactionsApplied : ℕ := 0
 segmentsApplied : ℕ := 0
 targetReached : Bool := false
 deriving DecidableEq

/-- `within_target` -/
def RecoveryTarget.within (t:RecoveryTarget) (counter:ℕ) (timeUs:ℤ) : Bool :=
 (match t.changeCounter with
  | some n=>decide (counter ≤ n)
  | none=>true) &&
 match t.timeUs with
 | some u=>decide (timeUs ≤ u)
 | none=>true

/-- `target_done` -/
def RecoveryTarget.done (t:RecoveryTarget) (counter:ℕ) : Bool :=
 match t.changeCounter with
 | some n=>decide (n ≤ counter)
 | none=>false

/-- `target_reached` -/
def RecoveryTarget.reached (t:RecoveryTarget) (counter:ℕ) : Bool :=
 match t.changeCounter with
 | some n=>decide (counter=n)
 | none=>true

/-- `strtoull` on decimal digits, which saturates. -/
def digitsValue (digits:Path) : ℕ :=
 min (Nat.ofDigitChars 10 digits 0) (2^64-1)

def segmentBase (id:DbId) (name:Path) : Option ℕ :=
 if name.length≠(Db.idHex id).length+1+20+4 ∨ ¬(Db.idHex id++['-']).isPrefixOf name ∨
   name.drop (name.length-4)≠['.','w','a','l'] then none
 else
  let digits:=(name.drop ((Db.idHex id).length+1)).take 20
  if digits.all Char.isDigit then some (digitsValue digits) else none

abbrev Segments := List (ℕ × Path)

namespace Segments

/-- `segments[base] = path` -/
def insert (base:ℕ) (path:Path) : Segments → Segments
 | []=>[(base,path)]
 | x::xs=>
  if base<x.1 then (base,path)::x::xs
  else if base=x.1 then (base,path)::xs
  else x::insert base path xs

def pick (s:Segments) (counter:ℕ) : Option (ℕ × Path) :=
 (s.filter fun x=>x.1 ≤ counter).getLast?

def erase (s:Segments) (base:ℕ) : Segments := s.filter fun x=>x.1≠base

end Segments

def segmentsOf (id:DbId) (dir:Path) (names:List Path) : Segments :=
 names.foldl (fun s n=>match segmentBase id n with
  | some base=>s.insert base (dir ++ '/' :: n)
  | none=>s) []

def listSegments (id:DbId) (dir:Path) : VfsM Segments :=
 if dir=[] then return []
 else do
  let names ← attempt (Vfs.list dir)
  match names with
  | .ok names=>return segmentsOf id dir names
  | .error e=>if e.code=.notFound then return [] else fail e

section Replay
variable (pageSize:ℕ) (target:RecoveryTarget) (out:Path)

/-- The frames from `frame` on, `n` of them, go into the output. -/
def writeFrames (wal:Wal) : ℕ → ℕ → VfsM Unit
 | 0,_=>return ()
 | n+1,frame=>do
  let page ← wal.readFramePage frame
  File.write out (wal.framePages.getD (frame-1) 0*pageSize) page
  writeFrames wal n (frame+1)

def applyCommit (wal:Wal) (prev:ℕ) (c:WalCommit) : VfsM Unit := do
 writeFrames pageSize out wal (c.frame-prev) (prev+1)
 let size ← File.size out
 onlyIf (c.dbSize*pageSize<size) (File.truncate out (c.dbSize*pageSize))

def RecoveryReport.applied (rep:RecoveryReport) (c:WalCommit) : RecoveryReport :=
 { rep with
   changeCounter:=c.changeCounter
   commitTimeUs:=c.commitTimeUs
   transactionsApplied:=rep.transactionsApplied+1 }

/-- The commits of one log, after its frame `prev`: the report and whether to stop. -/
def applyCommits (seg:Path) (wal:Wal) :
  List WalCommit → ℕ → RecoveryReport → VfsM (RecoveryReport × Bool)
 | [],_,rep=>return (rep,false)
 | c::cs,prev,rep=>
  -- Already in the file.
  if c.changeCounter ≤ rep.changeCounter then applyCommits seg wal cs c.frame rep
  else if ¬target.within c.changeCounter c.commitTimeUs then return (rep,true)
  else if c.changeCounter≠rep.changeCounter+1 then
   fail (corrupt ("segment " ++ seg.text ++ " commit " ++ toString c.changeCounter ++
    " does not follow " ++ toString rep.changeCounter))
  else do
   applyCommit pageSize out wal prev c
   if target.done c.changeCounter then return (rep.applied c,true)
   else applyCommits seg wal cs c.frame (rep.applied c)

def RecoveryReport.countSegment (before after:RecoveryReport) : RecoveryReport :=
 if before.transactionsApplied<after.transactionsApplied then
  { after with segmentsApplied:=after.segmentsApplied+1 }
 else after

def replayLog (id:DbId) (seg:Path) (isLive:Bool) (rep:RecoveryReport) :
  VfsM (RecoveryReport × Bool) := do
 let opened ← attempt (Wal.openLog seg pageSize { dbId:=id,readOnly:=true })
 match opened with
 | .error e=>
  -- A live log for another database is not ours to read.
  if isLive then return (rep,true) else fail e
 | .ok wal=>
  if rep.changeCounter<wal.header.baseChangeCounter then
   if isLive then return (rep,true)
   else fail (corrupt ("segment " ++ seg.text ++ " continues from change counter " ++
    toString wal.header.baseChangeCounter ++ ", beyond " ++ toString rep.changeCounter))
  else do
   let r ← applyCommits pageSize target out seg wal wal.commitList 0 rep
   return (rep.countSegment r.1,r.2 || isLive)

def replayLive (id:DbId) (live:Path) (rep:RecoveryReport) : VfsM RecoveryReport :=
 if live=[] then return rep
 else do
  let present ← Vfs.pathExists live
  if ¬present then return rep
  else do
   let r ← replayLog pageSize target out id live true rep
   return r.1

/-- The segment loop, `n` turns at most. -/
def replayLoop (id:DbId) (live:Path) : ℕ → Segments → RecoveryReport → VfsM RecoveryReport
 | 0,_,rep=>return rep
 | n+1,segments,rep=>
  if target.done rep.changeCounter then return rep
  else match segments.pick rep.changeCounter with
   | none=>replayLive pageSize target out id live rep
   | some (base,seg)=>do
    let r ← replayLog pageSize target out id seg (seg=live) rep
    if r.2 then return r.1
    else replayLoop id live n (segments.erase base) r.1

end Replay

def refuseExisting (path:Path) : VfsM Unit := do
 let present ← Vfs.pathExists path
 if present then fail (alreadyExists ("recovery output exists: " ++ path.text)) else return ()

def backupHeader (backup out:Path) : VfsM PageFormat.DbHeader := do
 let probe ← File.read out 0 kMinPageSize
 if probe.length<kDbHeaderBytes then fail (corrupt ("backup too short: " ++ backup.text))
 else match DbHeader.decode (resize probe kMinPageSize) with
  | .error e=>fail e
  | .ok h=>do
   let page0 ← File.read out 0 h.pageSize
   if page0.length≠h.pageSize ∨ ¬pageChecksumOk page0 then
    fail (corrupt "backup page 0 checksum mismatch")
   else return h

def recoverToPoint (backup archiveDir live:Path) (target:RecoveryTarget) (out:Path) :
  VfsM RecoveryReport := do
 refuseExisting out
 refuseExisting (walPathOf out)
 copyFile backup out
 Vfs.openFile out { write:=true }
 let h ← backupHeader backup out
 let segments ← listSegments h.dbId archiveDir
 let rep ← replayLoop h.pageSize target out h.dbId live (segments.length+1) segments
  { startChangeCounter:=h.changeCounter,changeCounter:=h.changeCounter,
    commitTimeUs:=h.commitTimeUs }
 File.sync out
 File.close out
 Vfs.syncDirectory (dirOf out)
 return { rep with targetReached:=target.reached rep.changeCounter }

end Archivum.RecoveryModel
