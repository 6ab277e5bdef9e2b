import Archivum.RecoveryModel

set_option autoImplicit false

/-!
# The off-host archive copy

`ship_once` copies every archived segment the destination lacks, each under a
temporary name that is renamed into place and then verified against its source,
and takes a backup when one is due.
-/
namespace Archivum.ShipperModel
open ByteStrings StatefulActions PageTxn PageFormat VfsModel WalModel DbModel RecoveryModel Act

structure BackupConfig where
 destination : Path
 archiveCadenceSeconds : ℕ := 0
 backupCadenceSeconds : ℕ := 86400

structure ShipConfig where
 /-- `database.archive_dir` -/
 archiveDir : Path
 backup : BackupConfig

structure ShipStatus where
 lastSuccessUs : ℤ := 0
 lastAttemptUs : ℤ := 0
 lastBackupUs : ℤ := 0
 lastError : String := ""
 segmentsShipped : ℕ := 0
 backupsShipped : ℕ := 0
 failures : ℕ := 0
 verificationFailures : ℕ := 0
 deriving DecidableEq

/-- The counters `Db::stats` reports. -/
structure DbStats where
 pageCount : ℕ := 0
 freelistCount : ℕ := 0
 changeCounter : ℕ := 0
 walFrames : ℕ := 0
 activeReaders : ℕ := 0

/-- `Db::stats`: the first three counters are left as they are. -/
def dbStats (db:Db) : DbStats :=
 { walFrames:=db.wal.nextFrame-1,activeReaders:=db.activeReaders }

/-- The shipper with the database and the file system it works on. -/
structure ShipIO where
 vfs : Vfs
 db : Db
 status : ShipStatus

abbrev ShipM := Act Status ShipIO

def io {α:Type} (m:VfsM α) : ShipM α := zoom ShipIO.vfs (fun s v=>{ s with vfs:=v }) m

def onDb {α:Type} (m:DbM α) : ShipM α :=
 zoom (fun s=>⟨s.vfs,s.db⟩) (fun s d=>{ s with vfs:=d.vfs,db:=d.db }) m

def setStatus (f:ShipStatus → ShipStatus) : ShipM Unit :=
 modify fun s=>{ s with status:=f s.status }

def isSegment (name:Path) : Bool :=
 decide (4 ≤ name.length) && decide (name.drop (name.length-4)=['.','w','a','l'])

def backupName (counter:ℕ) : Path :=
 ['b','a','c','k','u','p','-']++Nat.toDigits 10 counter++['.','d','b']

def backupPart : Path := ['b','a','c','k','u','p','.','p','a','r','t']

/-- `dir/name` -/
def inDir (dir name:Path) : Path := dir ++ '/' :: name

/-- `Status::to_string` -/
def statusText (s:Status) : String :=
 let code:=match s.code with
  | .ioError => "io_error"
  | .notFound => "not_found"
  | .alreadyExists => "already_exists"
  | .corrupt => "corrupt"
  | .invalidArgument => "invalid_argument"
  | .unsupported => "unsupported"
  | .crashed => "crashed"
  | .busy => "busy"
  | .constraint => "constraint"
 if s.message = "" then code else code ++ ": " ++ s.message

section Pass
variable (cfg:ShipConfig)

/-- A verification that failed: the file goes, and the failure is counted. -/
def rejectCopy (path:Path) (e:Status) : ShipM Unit := do
 let _ ← attempt (io (Vfs.remove path))
 setStatus fun st=>{ st with verificationFailures:=st.verificationFailures+1 }
 fail e

def verifyCopy (src copy:Path) : ShipM Unit := do
 let a ← io (fileDigest src)
 let b ← io (fileDigest copy)
 if a=b then return ()
 else rejectCopy copy (ioError ("off-host copy of " ++ src.text ++ " does not match its source (" ++
  toString a.size ++ " bytes, crc " ++ toString a.crc32c ++ " vs " ++ toString b.size ++
  " bytes, crc " ++ toString b.crc32c ++ ")"))

/-- Copied to a temporary name, renamed into place, verified under its final name. -/
def shipSegment (name:Path) : ShipM Unit := do
 io (copyFile (inDir cfg.archiveDir name) (inDir cfg.backup.destination (name++Db.partSuffix)))
 io (Vfs.rename (inDir cfg.backup.destination (name++Db.partSuffix))
  (inDir cfg.backup.destination name))
 io (Vfs.syncDirectory cfg.backup.destination)
 verifyCopy (inDir cfg.archiveDir name) (inDir cfg.backup.destination name)

def shipSegments (have':List Path) : List Path → ℕ → ShipM ℕ
 | [],shipped=>return shipped
 | name::names,shipped=>
  if ¬isSegment name ∨ name∈have' then shipSegments have' names shipped
  else do
   shipSegment cfg name
   shipSegments have' names (shipped+1)

/-- The names of the local archive; a directory that is missing has none. -/
def localNames : ShipM (List Path) := do
 let names ← attempt (io (Vfs.list cfg.archiveDir))
 match names with
 | .ok names=>return names
 | .error e=>if e.code=.notFound then return [] else fail e

def destinationNames : ShipM (List Path) := do
 let names ← attempt (io (Vfs.list cfg.backup.destination))
 match names with
 | .ok names=>return names
 | .error e=>fail (ioError ("destination unavailable: " ++ statusText e))

/-- The backup is renamed to the counter it is at, and verified page by page under that name. -/
def placeBackup (counter:ℕ) : ShipM Unit := do
 let final:=inDir cfg.backup.destination (backupName counter)
 io (Vfs.rename (inDir cfg.backup.destination backupPart) final)
 io (Vfs.syncDirectory cfg.backup.destination)
 let verified ← attempt (io (verifyBackupFile final))
 match verified with
 | .ok _=>return ()
 | .error e=>rejectCopy final e

def takeBackup : ShipM Unit := do
 let counter ← onDb (Db.backup (inDir cfg.backup.destination backupPart))
 placeBackup cfg counter

def backupDue (now lastBackup:ℤ) : Bool :=
 decide (lastBackup=0) || decide ((cfg.backup.backupCadenceSeconds:ℤ)*1000000 ≤ now-lastBackup)

/-- A backup when one is due: one that exists under the name expected is never rewritten. -/
def shipBackup (now:ℤ) : ShipM Bool := do
 let s ← reads id
 if ¬backupDue cfg now s.status.lastBackupUs then return false
 else do
  let already ← io (Vfs.pathExists
   (inDir cfg.backup.destination (backupName (dbStats s.db).changeCounter)))
  if already then return true
  else do
   takeBackup cfg
   return true

/-- The work of one pass: how many segments were shipped, and whether a backup is there. -/
def shipPass (now:ℤ) : ShipM (ℕ × Bool) := do
 let have' ← destinationNames cfg
 let names ← localNames cfg
 let shipped ← shipSegments cfg have' names 0
 let done ← shipBackup cfg now
 return (shipped,done)

/-- `ArchiveShipper::ship_once` -/
def shipOnce (now:ℤ) : ShipM Unit := do
 setStatus fun st=>{ st with lastAttemptUs:=now }
 let r ← attempt (shipPass cfg now)
 match r with
 | .ok (shipped,done)=>
  setStatus fun st=>
   { st with
     lastSuccessUs:=now
     lastError := ""
     segmentsShipped:=st.segmentsShipped+shipped
     lastBackupUs:=if done then now else st.lastBackupUs
     backupsShipped:=if done then st.backupsShipped+1 else st.backupsShipped }
 | .error e=>do
  setStatus fun st=>{ st with lastError:=statusText e,failures:=st.failures+1 }
  fail e

end Pass

end Archivum.ShipperModel
