import Archivum.PageFormat
import Archivum.VfsModel

set_option autoImplicit false

/-!
# The append-only journal

A header and then records, each with its length and a checksum over the length
and the payload. `open` keeps the longest run of valid records and cuts off the
rest; `append` writes at the end and syncs.
-/
namespace Archivum.JournalModel
open ByteStrings StatefulActions PageTxn PageFormat VfsModel Act

def kHeaderBytes : ℕ := 16
def kRecordHeaderBytes : ℕ := 8

structure Options where
 maxRecordBytes : UInt32 := 16*1024*1024
 unsafeSkipSync : Bool := false
 deriving DecidableEq

structure RecordRef where
 /-- Of the record header. -/
 offset : ℕ
 /-- Payload bytes. -/
 length : ℕ
 deriving DecidableEq

structure Journal where
 path : Path
 options : Options
 records : List RecordRef := []
 «end» : ℕ := 0
 droppedTailBytes : ℕ := 0
 headerRewritten : Bool := false
 failed : Bool := false
 closed : Bool := false

def kMagic : Bytes := [0x41,0x52,0x43,0x48,0x4A,0x4E,0x4C,0x31]

def kVersion : ℕ := 1

def makeHeader : Bytes :=
 kMagic++toLE 4 kVersion++toLE 4 (crc32c (kMagic++toLE 4 kVersion)).toNat

/-- The checksum of a record: over the bytes of its length, then over its payload. -/
def recordCrc (lengthBytes payload:Bytes) : UInt32 := crc32cFrom (crc32c lengthBytes) payload

/-- A record as `append` writes it. -/
def frame (payload:Bytes) : Bytes :=
 toLE 4 payload.length++toLE 4 (recordCrc (toLE 4 payload.length) payload).toNat++payload

/-- `sync` of a file or a directory; a sync that lies reports success and persists nothing
(`drop_all_syncs`). -/
def File.syncOr (honest:Bool) (path:Path) : VfsM Unit :=
 if honest then File.sync path
 else plainOperation ("sync " ++ path.text) fun σ=>(.ok (),σ)

def Vfs.syncDirectoryOr (honest:Bool) (dir:Path) : VfsM Unit :=
 if honest then Vfs.syncDirectory dir
 else plainOperation ("sync_directory " ++ dir.text) fun σ=>(.ok (),σ)

section Open
variable (honest:Bool) (path:Path) (options:Options)

def createNew : VfsM Journal := do
 File.write path 0 makeHeader
 File.syncOr honest path
 Vfs.syncDirectoryOr honest (directoryOf path)
 return { path,options,«end»:=kHeaderBytes }

/-- The header is a constant: one that is torn or missing is written again. Returns the size of the
file and whether the header was written. -/
def repairHeader (size:ℕ) : VfsM (ℕ × Bool) := do
 let header ← File.read path 0 kHeaderBytes
 if header.length=kHeaderBytes ∧ header=makeHeader then return (size,false)
 else do
  onlyIf (size<kHeaderBytes) (File.truncate path kHeaderBytes)
  File.write path 0 makeHeader
  File.syncOr honest path
  Vfs.syncDirectoryOr honest (directoryOf path)
  return (max size kHeaderBytes,true)

/-- The loop over the records: the refs found so far and where the next one would start. -/
def scanRecords (size:ℕ) : ℕ → ℕ → List RecordRef → VfsM (List RecordRef × ℕ)
 | 0,off,records=>return (records,off)
 | n+1,off,records=>
  if size<off+kRecordHeaderBytes then return (records,off)
  else do
   let rh ← File.read path off kRecordHeaderBytes
   if rh.length≠kRecordHeaderBytes then return (records,off)
   else do
    let length := getU32 rh 0
    let expectedCrc:=getU32 rh 4
    if length=0 ∨ options.maxRecordBytes.toNat<length then return (records,off)
    else if size<off+kRecordHeaderBytes+length then return (records,off)
    else do
     let payload ← File.read path (off+kRecordHeaderBytes) length
     if payload.length≠length then return (records,off)
     else if (recordCrc (slice rh 0 4) payload).toNat≠expectedCrc then return (records,off)
     else scanRecords size n (off+kRecordHeaderBytes+length) (records++[⟨off,length⟩])

def recoverRecords (size:ℕ) (rewritten:Bool) : VfsM Journal := do
 let found ← scanRecords path options size size kHeaderBytes []
 onlyIf (size-found.2≠0) (do
  File.truncate path found.2
  File.syncOr honest path)
 return { path,options,records:=found.1,«end»:=found.2,droppedTailBytes:=size-found.2,
          headerRewritten:=rewritten }

def recover : VfsM Journal := do
 let size ← File.size path
 let header ← repairHeader honest path size
 recoverRecords honest path options header.1 header.2

/-- `Journal::open` -/
def openJournal : VfsM Journal := do
 let present ← Vfs.pathExists path
 Vfs.openFile path { write:=true,create:=true }
 if present then recover honest path options
 else createNew honest path options

end Open

structure JournalIO where
 vfs : Vfs
 journal : Journal

abbrev JournalM := Act Status JournalIO

namespace Journal

def io {α:Type} (m:VfsM α) : JournalM α :=
 zoom JournalIO.vfs (fun s v=>{ s with vfs:=v }) m

def set (f:Journal → Journal) : JournalM Unit := modify fun s=>{ s with journal:=f s.journal }

/-- `Journal::append` -/
def append (honest:Bool) (payload:Bytes) : JournalM Unit := do
 let j ← reads JournalIO.journal
 if j.closed then fail (ioError ("journal closed: " ++ j.path.text))
 else if j.failed then fail (ioError ("journal failed; reopen to recover: " ++ j.path.text))
 else if payload=[] then fail (invalidArgument "empty journal record")
 else if j.options.maxRecordBytes.toNat<payload.length then
  fail (invalidArgument "journal record exceeds max_record_bytes")
 else do
  let done ← attempt (io (do
   File.write j.path j.end (frame payload)
   onlyIf (j.options.unsafeSkipSync=false) (File.syncOr honest j.path)))
  match done with
  | .error e=>do
   set fun j=>{ j with failed:=true }
   fail e
  | .ok _=>
   set fun j=>{ j with
    records:=j.records++[⟨j.end,payload.length⟩]
    «end»:=j.end+(frame payload).length }

/-- `Journal::read` -/
def read (index:ℕ) : JournalM Bytes := do
 let j ← reads JournalIO.journal
 if j.closed then fail (ioError ("journal closed: " ++ j.path.text))
 else match j.records[index]? with
  | none=>fail (notFound "journal record index out of range")
  | some ref=>do
   let out ← io (File.read j.path (ref.offset+kRecordHeaderBytes) ref.length)
   if out.length≠ref.length then fail (corrupt ("journal record short read: " ++ j.path.text))
   else return out

end Journal

end Archivum.JournalModel
