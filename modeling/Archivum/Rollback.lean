import Archivum.Batching
import Archivum.PunchlineDb

set_option autoImplicit false

/-!
# The rollback export

The closed shifts of a pay period as the batches that the old server ingests:
one entry per shift, grouped by device, a given number to a batch.
-/
namespace Archivum.Rollback
open ByteStrings PageTxn RecordModel LocalTimes KeyedTables PunchlineData PunchlineDb Batching List

/-- `iso_utc`; the year is cut to four digits. -/
def isoUtc (us:ℤ) : String :=
 let secs:=us.tdiv 1000000
 let days:=secs.tdiv 86400-if secs.tmod 86400<0 then 1 else 0
 let rem:=secs.tmod 86400+if secs.tmod 86400<0 then 86400 else 0
 let z:=days+719468
 let era:=(if 0 ≤ z then z else z-146096).tdiv 146097
 let doe:=z-era*146097
 let yoe:=(doe-doe.tdiv 1460+doe.tdiv 36524-doe.tdiv 146096).tdiv 365
 let doy:=doe-(365*yoe+yoe.tdiv 4-yoe.tdiv 100)
 let mp:=(5*doy+2).tdiv 153
 let d:=doy-(153*mp+2).tdiv 5+1
 let m:=mp+if mp<10 then 3 else -9
 let y:=yoe+era*400+if m ≤ 2 then 1 else 0
 padded 4 (y.tmod 10000) ++ "-" ++ padded 2 m ++ "-" ++ padded 2 d ++ "T" ++ padded 2 (rem.tdiv 3600) ++ ":" ++
  padded 2 ((rem.tmod 3600).tdiv 60) ++ ":" ++ padded 2 (rem.tmod 60) ++ "Z"

structure ExportEntry where
 uuid : Bytes
 employeeId : Bytes
 employeeName : Bytes
 company : Bytes
 costCenter : Bytes
 clockIn : Bytes
 clockOut : Bytes
 minutes : ℤ
 note : Bytes
 archivumState : EntryState
 deriving DecidableEq

structure ExportBatch where
 clientVersion : Bytes := ascii "archivum-rollback"
 deviceId : Bytes
 submittedAt : Bytes
 entries : List ExportEntry
 deriving DecidableEq

structure RollbackExport where
 batches : List ExportBatch
 shifts : ℕ
 openShiftsSkipped : ℕ
 employeesWithoutRouting : ℕ
 deriving DecidableEq

structure Gathered where
 perDevice : List (Bytes × List ExportEntry) := []
 shifts : ℕ := 0
 openShiftsSkipped : ℕ := 0
 employeesWithoutRouting : ℕ := 0

def uuidText (u:UuidBytes) : Bytes := ascii (Value.uuidText u.1)

def missing (sh:Shift) (what:String) : Status :=
 corrupt ("shift " ++ toString sh.id ++ " names a missing " ++ what)

def entryOf (sh:Shift) (emp:Employee) (inEntry:TimeEntry) : ExportEntry where
 uuid := uuidText inEntry.entryUuid
 employeeId:=emp.employeeNumber
 employeeName:=emp.displayName
 company:=emp.company
 costCenter:=emp.costCenter
 clockIn:=ascii (isoUtc sh.inTime)
 clockOut:=ascii (isoUtc sh.outTime)
 minutes:=(sh.outTime-sh.inTime).tdiv 60000000
 note:=inEntry.note
 archivumState:=sh.state

def unreleased (releasedOnly:Bool) (sh:Shift) : Bool :=
 releasedOnly && sh.state≠.released && sh.state≠.locked

def partsOf (db:Db) (sh:Shift) : Except Status (Employee × Device × TimeEntry) :=
 match db.employeeById sh.employeeId with
 | none=>.error (missing sh "employee")
 | some emp=>
  match db.deviceById sh.deviceId with
  | none=>.error (missing sh "device")
  | some device=>
   match db.entryById sh.inEntryId with
   | none=>.error (missing sh "in punch")
   | some inEntry=>.ok (emp,device,inEntry)

def gatherShift (db:Db) (releasedOnly:Bool) (g:Gathered) (sh:Shift) : Except Status Gathered :=
 if sh.outEntryId=0 then .ok { g with openShiftsSkipped:=g.openShiftsSkipped+1 }
 else if unreleased releasedOnly sh then .ok g
 else do
  let (emp,device,inEntry) ← partsOf db sh
  return {
   g with
   employeesWithoutRouting:=
    if emp.company=[] ∨ emp.costCenter=[] then g.employeesWithoutRouting+1 else g.employeesWithoutRouting
   perDevice:=push (uuidText device.deviceUuid) (entryOf sh emp inEntry) g.perDevice
   shifts:=g.shifts+1 }

def gather (db:Db) (releasedOnly:Bool) : List Shift → Gathered → Except Status Gathered
 | [],g=>.ok g
 | sh::rest,g=>do
  let g ← gatherShift db releasedOnly g sh
  gather db releasedOnly rest g

def shiftsOf (db:Db) (periodId:ℤ) : List Shift :=
 (db.shifts.rows.filter fun sh=>sh.periodId≠0 ∧ sh.periodId=periodId).insertionSort fun a b=>
  a.employeeId ≤ b.employeeId

def batchesOf (now:ℤ) (size:ℕ) (group:Bytes × List ExportEntry) : List ExportBatch :=
 (cut size group.2).map fun entries=>{ deviceId:=group.1,submittedAt:=ascii (isoUtc now),entries }

def rollbackExport (db:Db) (periodId:ℤ) (releasedOnly:Bool) (now:ℤ) (deviceBatchSize:ℕ) :
  Except Status RollbackExport :=
 match db.periodById periodId with
 | none=>.error (notFound "no such pay period")
 | some _=>do
  let g ← gather db releasedOnly (shiftsOf db periodId) {}
  return {
   batches:=g.perDevice.flatMap (batchesOf now deviceBatchSize)
   shifts:=g.shifts
   openShiftsSkipped:=g.openShiftsSkipped
   employeesWithoutRouting:=g.employeesWithoutRouting }

/-- The shift is closed, and it is released or locked if only those are wanted. -/
def Wanted (releasedOnly:Bool) (sh:Shift) : Prop :=
 sh.outEntryId≠0 ∧ (releasedOnly=true → sh.state=.released ∨ sh.state=.locked)

instance (releasedOnly:Bool) (sh:Shift) : Decidable (Wanted releasedOnly sh) := by
 unfold Wanted
 infer_instance

def wanted (db:Db) (periodId:ℤ) (releasedOnly:Bool) : List Shift :=
 (db.shifts.rows.filter fun sh=>sh.periodId≠0 ∧ sh.periodId=periodId).filter fun sh=>Wanted releasedOnly sh

def IsEntryOf (db:Db) (sh:Shift) (x:Bytes × ExportEntry) : Prop :=
 ∃ emp device inEntry,db.employeeById sh.employeeId=some emp ∧ db.deviceById sh.deviceId=some device ∧
  db.entryById sh.inEntryId=some inEntry ∧ x=(uuidText device.deviceUuid,entryOf sh emp inEntry)

def sent (batches:List ExportBatch) : List (Bytes × ExportEntry) :=
 batches.flatMap fun b=>b.entries.map fun e=>(b.deviceId,e)

section Gathering
variable {db:Db} {releasedOnly:Bool} {g g':Gathered}

lemma wanted_iff {sh:Shift} : Wanted releasedOnly sh ↔ sh.outEntryId≠0 ∧ unreleased releasedOnly sh=false := by
 unfold Wanted unreleased
 cases releasedOnly with
 | false=>simp
 | true=>cases sh.state <;> simp

lemma partsOf_ok {sh:Shift} {emp:Employee} {device:Device} {inEntry:TimeEntry}
 (h:partsOf db sh=.ok (emp,device,inEntry)) : db.employeeById sh.employeeId=some emp ∧
  db.deviceById sh.deviceId=some device ∧ db.entryById sh.inEntryId=some inEntry := by
 unfold partsOf at h
 split at h
 · cases h
 · rename_i emp' hemp
   split at h
   · cases h
   · rename_i device' hdevice
     split at h
     · cases h
     · rename_i inEntry' hentry
       cases h
       exact ⟨hemp,hdevice,hentry⟩

lemma gatherShift_ok {sh:Shift} (h:gatherShift db releasedOnly g sh=.ok g') :
 (Wanted releasedOnly sh ∧ g'.shifts=g.shifts+1 ∧ ∃ x,IsEntryOf db sh x ∧ g'.perDevice=push x.1 x.2 g.perDevice) ∨
 (¬Wanted releasedOnly sh ∧ g'.shifts=g.shifts ∧ g'.perDevice=g.perDevice) := by
 unfold gatherShift at h
 rw [wanted_iff]
 split at h
 · rename_i hopen
   cases h
   exact .inr ⟨fun hw=>hw.1 hopen,rfl,rfl⟩
 · rename_i hclosed
   split at h
   · rename_i hstate
     cases h
     exact .inr ⟨fun hw=>Bool.noConfusion (hstate.symm.trans hw.2),rfl,rfl⟩
   · rename_i hstate
     cases hparts:partsOf db sh with
     | error e=>
      rw [hparts] at h
      cases h
     | ok parts=>
      obtain ⟨emp,device,inEntry⟩:=parts
      rw [hparts] at h
      cases h
      obtain ⟨hemp,hdevice,hentry⟩:=partsOf_ok hparts
      exact .inl ⟨⟨hclosed,Bool.eq_false_iff.mpr hstate⟩,rfl,_,⟨emp,device,inEntry,hemp,hdevice,hentry,rfl⟩,rfl⟩

lemma gather_ok {shifts:List Shift} (h:gather db releasedOnly shifts g=.ok g') :
 ∃ entries,List.Forall₂ (IsEntryOf db) (shifts.filter fun sh=>Wanted releasedOnly sh) entries ∧
  (carried g'.perDevice).Perm (carried g.perDevice++entries) ∧ g'.shifts=g.shifts+entries.length := by
 induction shifts generalizing g with
 | nil=>
  cases h
  exact ⟨[],.nil,by rw [append_nil],rfl⟩
 | cons sh rest ih=>
  cases hfirst:gatherShift db releasedOnly g sh with
  | error e=>
   rw [gather,hfirst] at h
   cases h
  | ok g₁=>
   rw [gather,hfirst] at h
   obtain ⟨entries,hentries,hperm,hcount⟩:=ih h
   rcases gatherShift_ok hfirst with ⟨hw,hshifts,x,hx,hpush⟩ | ⟨hw,hshifts,hsame⟩
   · refine ⟨x::entries,?_,?_,?_⟩
     · rw [filter_cons,if_pos (decide_eq_true hw)]
       exact .cons hx hentries
     · rw [hpush] at hperm
       exact hperm.trans (((carried_push x.1 x.2 g.perDevice).append_right entries).trans perm_middle.symm)
     · rw [hcount,hshifts,length_cons]
       omega
   · refine ⟨entries,?_,hsame ▸ hperm,hshifts ▸ hcount⟩
     rwa [filter_cons,if_neg (by rwa [decide_eq_true_eq])]

def Linked (db:Db) : Prop := ∀ sh∈db.shifts,(db.employeeById sh.employeeId).isSome ∧
 (db.deviceById sh.deviceId).isSome ∧ (db.entryById sh.inEntryId).isSome

lemma gather_run {shifts:List Shift} (hlinked:Linked db) (hmem:∀ sh∈shifts,sh∈db.shifts) :
 ∃ g',gather db releasedOnly shifts g=.ok g' := by
 induction shifts generalizing g with
 | nil=>exact ⟨g,rfl⟩
 | cons sh rest ih=>
  have hfirst:∃ g₁,gatherShift db releasedOnly g sh=.ok g₁:=by
   obtain ⟨hemp,hdevice,hentry⟩:=hlinked sh (hmem sh mem_cons_self)
   obtain ⟨emp,hemp⟩:=Option.isSome_iff_exists.mp hemp
   obtain ⟨device,hdevice⟩:=Option.isSome_iff_exists.mp hdevice
   obtain ⟨inEntry,hentry⟩:=Option.isSome_iff_exists.mp hentry
   have hparts:partsOf db sh=.ok (emp,device,inEntry):=by
    unfold partsOf
    rw [hemp,hdevice,hentry]
   unfold gatherShift
   split
   · exact ⟨_,rfl⟩
   · split
     · exact ⟨_,rfl⟩
     · rw [hparts]
       exact ⟨_,rfl⟩
  obtain ⟨g₁,hfirst⟩:=hfirst
  rw [gather,hfirst]
  exact ih fun s hs=>hmem s (mem_cons_of_mem sh hs)

end Gathering

lemma sent_batchesOf {size:ℕ} (hsize:1 ≤ size) (now:ℤ) (group:Bytes × List ExportEntry) :
 sent (batchesOf now size group)=group.2.map fun e=>(group.1,e) := by
 unfold sent batchesOf
 rw [flatMap_map]
 change ((cut size group.2).flatMap (map fun e=>(group.1,e)))=_
 rw [flatMap_def,← map_flatten,flatten_cut hsize]

lemma sent_batches {size:ℕ} (hsize:1 ≤ size) (now:ℤ) (groups:List (Bytes × List ExportEntry)) :
 sent (groups.flatMap (batchesOf now size))=carried groups := by
 induction groups with
 | nil=>rfl
 | cons group groups ih=>
  unfold sent at ih ⊢
  rw [flatMap_cons,flatMap_append,ih,carried_cons]
  congr 1
  exact sent_batchesOf hsize now group

lemma length_sent (batches:List ExportBatch) : (sent batches).length=(batches.map fun b=>b.entries.length).sum := by
 unfold sent
 rw [length_flatMap]
 simp only [length_map]

lemma mem_batches {size:ℕ} (hsize:1 ≤ size) {now:ℤ} {groups:List (Bytes × List ExportEntry)}
 {b:ExportBatch} (hb:b∈groups.flatMap (batchesOf now size)) : b.entries≠[] ∧ b.entries.length ≤ size := by
 obtain ⟨group,-,hb⟩:=mem_flatMap.mp hb
 obtain ⟨entries,hentries,rfl⟩:=mem_map.mp hb
 exact mem_cut hsize hentries

/-- The export of a period with a batch size of at least one: it succeeds where the rows that the shifts name are
there, each wanted shift has exactly one entry, under its own device, there is no other entry, no batch is empty or
too long, and the shifts are counted. -/
theorem export_complete (db:Db) (periodId:ℤ) (releasedOnly:Bool) (now:ℤ) {size:ℕ} (hsize:1 ≤ size) :
  (∀ out,rollbackExport db periodId releasedOnly now size=.ok out →
   (∃ entries,List.Forall₂ (IsEntryOf db) (wanted db periodId releasedOnly) entries ∧
    (sent out.batches).Perm entries) ∧
   (∀ b∈out.batches,b.entries≠[] ∧ b.entries.length ≤ size) ∧
   out.shifts=(out.batches.map fun b=>b.entries.length).sum) ∧
  ((db.periodById periodId).isSome → Linked db →
   ∃ out,rollbackExport db periodId releasedOnly now size=.ok out) := by
 have hchosen:((shiftsOf db periodId).filter fun sh=>Wanted releasedOnly sh).Perm
   (wanted db periodId releasedOnly):=(perm_insertionSort _ _).filter _
 constructor
 · intro out hrun
   unfold rollbackExport at hrun
   cases hperiod:db.periodById periodId with
   | none=>
    rw [hperiod] at hrun
    cases hrun
   | some period=>
    rw [hperiod] at hrun
    cases hgather:gather db releasedOnly (shiftsOf db periodId) {} with
    | error e=>
     rw [hgather] at hrun
     cases hrun
    | ok g=>
     rw [hgather] at hrun
     cases hrun
     obtain ⟨entries,hentries,hperm,hcount⟩:=gather_ok hgather
     have hsent:(sent (g.perDevice.flatMap (batchesOf now size))).Perm entries:=by
      rw [sent_batches hsize]
      exact hperm
     obtain ⟨entries',hentries',hperm'⟩:=perm_comp_forall₂ hchosen.symm hentries
     refine ⟨⟨entries',hentries',hsent.trans hperm'.symm⟩,fun b hb=>mem_batches hsize hb,?_⟩
     rw [← length_sent,hsent.length_eq]
     exact hcount.trans (Nat.zero_add _)
 · intro hperiod hlinked
   obtain ⟨period,hperiod⟩:=Option.isSome_iff_exists.mp hperiod
   have hmem:∀ sh∈shiftsOf db periodId,sh∈db.shifts:=by
    intro sh hsh
    exact Table.mem_rows.mp (mem_of_mem_filter ((mem_insertionSort _).mp hsh))
   obtain ⟨g,hg⟩:∃ g,gather db releasedOnly (shiftsOf db periodId) {}=.ok g:=gather_run hlinked hmem
   unfold rollbackExport
   rw [hperiod,hg]
   exact ⟨_,rfl⟩

def exampleStore : Db where
 employees := exampleEmployees
 devices:=exampleDevices
 payPeriods:=examplePeriods
 timeEntries:=⟨[{ id:=1,entryUuid:=zeroUuid,employeeId:=1,deviceId:=1,journalId:=none
                  journalSequence:=0,kind:=.in_,deviceTime:=1709190000000000
                  localTime:=ascii "2024-02-29T07:00:00",siteZone:=ascii "UTC",tzdbVersion:=ascii "2024a"
                  receiptTime:=0,attestation:=.manual,createdAt:=0 }],pairwise_singleton _ _⟩
 shifts:=⟨[{ id:=1,employeeId:=1,deviceId:=1,inEntryId:=1,localDay:=19782,periodId:=1
             inTime:=1709180000000000 },
       { id:=2,employeeId:=1,deviceId:=1,inEntryId:=1,outEntryId:=2,localDay:=19782
         periodId:=1,inTime:=1709190000000000,outTime:=1709218800000000 }],
  pairwise_pair.mpr (show (1:ℤ)<2 by decide)⟩

theorem exampleStore_complete :
  ∃ out,rollbackExport exampleStore 1 false 1709300000000000 100=.ok out ∧
   out.shifts=(out.batches.map fun b=>b.entries.length).sum ∧ (wanted exampleStore 1 false).length=1 := by
 obtain ⟨hshape,hruns⟩:=export_complete exampleStore 1 false 1709300000000000 (show 1 ≤ 100 by decide)
 have hlinked:∀ sh∈exampleStore.shifts.rows,(exampleStore.employeeById sh.employeeId).isSome ∧
   (exampleStore.deviceById sh.deviceId).isSome ∧ (exampleStore.entryById sh.inEntryId).isSome:=by decide +kernel
 obtain ⟨out,hout⟩:=hruns (by decide) fun sh hsh=>hlinked sh (Table.mem_rows.mpr hsh)
 exact ⟨out,hout,(hshape out hout).2.2,by decide⟩

end Archivum.Rollback
