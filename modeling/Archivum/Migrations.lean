import Archivum.Interleaving
import Archivum.RecordModel

set_option autoImplicit false

/-!
# Migrations

Every step of a module commits in a transaction of its own. Other runs commit
theirs between the first read of a run and its transactions, and a run may fail
or stop anywhere.
-/
namespace Archivum.Migrations
open ByteStrings StatefulActions PageTxn RecordModel Interleaving List

variable {ω:Type}

/-- A step changes the rest of the store: what is neither `archivum_migrations` nor the version. -/
structure Migration (ω:Type) where
 version : ℕ
 name : Bytes
 apply : Option (ω → Except Status ω)

structure Recorded where
 module : Bytes
 version : ℕ
 name : Bytes
 appliedAt : ℤ
 deriving DecidableEq

structure Store (ω:Type) where
 /-- The rows of `archivum_migrations` as they were committed, none before the table is there. -/
 migrations : Option (List Recorded) := none
 schemaVersion : UInt64 := 0
 rest : ω

def Store.rows (s:Store ω) : List Recorded := s.migrations.getD []

def validateFrom : ℕ → List Bytes → List (Migration ω) → Except Status Unit
 | _,_,[]=>.ok ()
 | i,names,m::ms=>
  if m.version≠i+1 then .error (invalidArgument ("migration " ++ text m.name ++ " has version " ++
   toString m.version ++ ", expected " ++ toString (i+1)))
  else if m.name=[] then .error (invalidArgument ("migration " ++ toString m.version ++ " has no name"))
  else if m.name∈names then .error (invalidArgument ("migration name repeated: " ++ text m.name))
  else if m.apply.isNone then .error (invalidArgument ("migration " ++ text m.name ++ " has no apply function"))
  else validateFrom (i+1) (m.name::names) ms

def validateMigrations (ms:List (Migration ω)) : Except Status Unit := validateFrom 0 [] ms

/-- The rows of a module in the order of their key. -/
def Store.appliedMigrations (s:Store ω) (module:Bytes) : List (ℕ × Bytes) :=
 ((s.rows.filter fun r=>r.module=module).insertionSort fun a b=>a.version ≤ b.version).map fun r=>(r.version,r.name)

structure Report where
 fromVersion : ℕ
 toVersion : ℕ
 applied : List Bytes := []

/-- Where a run stands: before its read, before the transaction of a step, or returned. -/
inductive Phase
 | start
 | step (i:ℕ) (rep:Report)
 | done (result:Except Status Report)

structure Run (ω:Type) where
 module : Bytes
 migrations : List (Migration ω)
 phase : Phase := .start

/-- The names recorded are those of the binary, one by one. -/
def compareApplied (module:Bytes) : ℕ → List (ℕ × Bytes) → List (Migration ω) → Except Status Unit
 | i,a::as,m::ms=>
  if a.1≠i+1 ∨ a.2≠m.name then .error (corrupt ("migration " ++ text module ++ " " ++ toString (i+1) ++
   " recorded as '" ++ text a.2 ++ "', this binary has '" ++ text m.name ++ "'"))
  else compareApplied module (i+1) as ms
 | _,_,_=>.ok ()

def Run.read (r:Run ω) (s:Store ω) : Except Status Report :=
 let applied:=s.appliedMigrations r.module
 if r.module=[] then .error (invalidArgument "migration module needs a name")
 else match validateMigrations r.migrations with
  | .error e=>.error e
  | .ok _=>
   if r.migrations.length<applied.length then
    .error ⟨.unsupported,"database has " ++ toString applied.length ++ " migrations of " ++ text r.module ++
     ", newer than this binary's " ++ toString r.migrations.length⟩
   else match compareApplied r.module 0 applied r.migrations with
    | .error e=>.error e
    | .ok _=>.ok ⟨applied.length,applied.length,[]⟩

/-- The transaction of one step, up to its commit. -/
def applyStep (module:Bytes) (m:Migration ω) (now:ℤ) (s:Store ω) : Except Status (Store ω) :=
 if (s.appliedMigrations module).length≠m.version-1 then
  .error ⟨.busy,"schema changed underneath the migration"⟩
 else match m.apply.map fun f=>f s.rest with
  | none=>.error (invalidArgument ("migration " ++ text m.name ++ " has no apply function"))
  | some (.error e)=>.error ⟨e.code,"migration " ++ text module ++ " " ++ text m.name ++ ": " ++ e.message⟩
  | some (.ok rest)=>
   if s.rows.any fun r=>r.module == module && r.version == m.version then
    .error (constraint "primary key of archivum_migrations")
   else .ok ⟨some (s.rows++[⟨module,m.version,m.name,now⟩]),s.schemaVersion+1,rest⟩

/-- The run goes on from what its transaction answered. -/
def Run.next (r:Run ω) {α:Type} (phase:α → Phase) (p:Except Status α × Store ω) : Store ω × Run ω :=
 (p.2,{ r with phase:=match p.1 with
  | .ok a=>phase a
  | .error e=>.done (.error e) })

/-- `migrate`, one read and then one transaction at a time, each at a time and with a fault. -/
def migrate (x:ℤ × Fault Status) (s:Store ω) (r:Run ω) : Store ω × Run ω :=
 match r.phase with
 | .done _=>(s,r)
 | .start=>r.next (fun rep=>.step rep.fromVersion rep)
  (transaction x.2 (fun s=>(r.read s).map fun rep=>(s,.ok rep)) s)
 | .step i rep=>match r.migrations[i]? with
  | none=>(s,{ r with phase:=.done (.ok rep) })
  | some m=>r.next (fun _:Unit=>.step (i+1) { rep with toVersion:=m.version,applied:=rep.applied++[m.name] })
   (transaction x.2 (fun s=>(applyStep r.module m x.1 s).map fun s=>(s,.ok ())) s)

lemma validateFrom_version {ms:List (Migration ω)} {i:ℕ} {names:List Bytes} (h:validateFrom i names ms=.ok ())
 {k:ℕ} {m:Migration ω} (hk:ms[k]? = some m) : m.version=i+k+1 := by
 induction ms generalizing i names k with
 | nil=>cases hk
 | cons a ms ih=>
  rw [validateFrom] at h
  split_ifs at h with hversion hname hseen happly
  cases k with
  | zero=>
   cases hk
   exact not_not.mp hversion
  | succ k=>
   have:=ih h hk
   omega

/-! ### What every schedule keeps -/

variable (lists:Bytes → List (Migration ω)) (init:ω)

/-- The step behind a row, done again. -/
def redo (w:ω) (r:Recorded) : Except Status ω :=
 match (lists r.module)[r.version-1]?.bind Migration.apply with
 | some f=>f w
 | none=>.error (corrupt "no such migration")

def count (s:Store ω) (module:Bytes) : ℕ := (s.rows.filter fun r=>r.module=module).length

/-- The rows of each module are the first steps of its list, and what they did is all that was done. -/
structure Kept (s:Store ω) : Prop where
 names : ∀ module,(s.rows.filter fun r=>r.module=module).map (fun r=>(r.version,r.name)) =
  ((lists module).take (count s module)).map fun m=>(m.version,m.name)
 version : s.schemaVersion=UInt64.ofNat s.rows.length
 rest : s.rows.foldlM (redo lists) init=.ok s.rest

/-- What a run knows: the steps before its own are recorded, all of them once it returned ok. -/
def Knows (s:Store ω) (r:Run ω) : Prop := r.migrations <+: lists r.module ∧ match r.phase with
 | .start=>True
 | .step i _=>i ≤ count s r.module
 | .done (.ok _)=>r.migrations.length ≤ count s r.module
 | .done (.error _)=>True

variable {lists init} {s s':Store ω} {r:Run ω}

lemma appliedMigrations_length (s:Store ω) (module:Bytes) : (s.appliedMigrations module).length=count s module := by
 rw [Store.appliedMigrations,length_map,length_insertionSort,count]

/-- One committed step: the next of its module's list, and nothing of any other module. -/
structure Commits (lists:Bytes → List (Migration ω)) (module:Bytes) (m:Migration ω) (s s':Store ω) : Prop where
 next : (lists module)[count s module]? = some m
 rows : ∃ now,s'.rows=s.rows++[⟨module,m.version,m.name,now⟩]
 version : s'.schemaVersion=s.schemaVersion+1
 rest : redo lists s.rest ⟨module,m.version,m.name,0⟩=.ok s'.rest

lemma applyStep_commits (hvalid:validateMigrations (lists r.module)=.ok ()) (hlist:r.migrations <+: lists r.module)
 {i:ℕ} {m:Migration ω} (hm:r.migrations[i]? = some m) {now:ℤ} (h:applyStep r.module m now s=.ok s') :
 Commits lists r.module m s s' := by
 have hfull:(lists r.module)[i]? = some m:=by
  obtain ⟨rest,hrest⟩:=hlist
  rw [← hrest,getElem?_append_left (List.getElem?_eq_some_iff.mp hm).1,hm]
 have hversion:=validateFrom_version hvalid hfull
 unfold applyStep at h
 by_cases hbusy:(s.appliedMigrations r.module).length=m.version-1
 · rw [if_neg (not_not.mpr hbusy)] at h
   rw [appliedMigrations_length] at hbusy
   have hcount:count s r.module=i:=by omega
   cases hf:m.apply with
   | none=>
    rw [hf] at h
    cases h
   | some f=>
    rw [hf] at h
    cases hrest:f s.rest with
    | error e=>
     simp only [Option.map_some,hrest] at h
     cases h
    | ok rest=>
     simp only [Option.map_some,hrest] at h
     split_ifs at h
     cases h
     refine ⟨hcount ▸ hfull,⟨now,rfl⟩,rfl,?_⟩
     have hindex:m.version-1=i:=by omega
     rw [redo,hindex,hfull,Option.bind_some,hf]
     exact hrest
 · rw [if_pos hbusy] at h
   cases h

lemma Commits.count {module:Bytes} {m:Migration ω} (h:Commits lists module m s s') (other:Bytes) :
 count s' other=count s other+if other=module then 1 else 0 := by
 obtain ⟨now,hrows⟩:=h.rows
 rw [Migrations.count,hrows,filter_append,length_append,Migrations.count]
 by_cases ho:other=module
 · simp [ho]
 · simp [ho,Ne.symm ho]

lemma Commits.kept {module:Bytes} {m:Migration ω} (h:Commits lists module m s s') (hs:Kept lists init s) :
 Kept lists init s' := by
 obtain ⟨now,hrows⟩:=h.rows
 refine ⟨fun other=>?_,?_,?_⟩
 · rw [h.count,hrows,filter_append,map_append,hs.names]
   by_cases ho:other=module
   · subst ho
     rw [if_pos rfl,take_add_one,h.next,map_append]
     simp
   · simp [ho,Ne.symm ho]
 · rw [h.version,hs.version,hrows,length_append,length_singleton,UInt64.ofNat_add]
   rfl
 · rw [hrows,foldlM_append,hs.rest]
   have hlast:=h.rest
   change (redo lists s.rest _ >>= pure)=_
   unfold redo at hlast ⊢
   rw [hlast]
   rfl

lemma read_count {rep:Report} (h:r.read s=.ok rep) : rep.fromVersion=count s r.module := by
 unfold Run.read at h
 dsimp only at h
 cases hvalid:validateMigrations r.migrations with
 | error e=>
  simp only [hvalid] at h
  split_ifs at h
 | ok u=>
  cases hsame:compareApplied r.module 0 (s.appliedMigrations r.module) r.migrations with
  | error e=>
   simp only [hvalid,hsame] at h
   split_ifs at h
  | ok u=>
   simp only [hvalid,hsame] at h
   split_ifs at h
   cases h
   exact appliedMigrations_length s r.module

lemma map_ok {α β:Type} {f:α → β} {m:Except Status α} {b:β} (h:m.map f=.ok b) : ∃ a,m=.ok a ∧ f a=b := by
 cases m with
 | error e=>cases h
 | ok a=>exact ⟨a,rfl,Except.ok.inj h⟩

lemma migrate_spec (hvalid:∀ module,validateMigrations (lists module)=.ok ()) (x:ℤ × Fault Status) (s:Store ω) {r:Run ω}
 (hr:Knows lists s r) : Knows lists (migrate x s r).1 (migrate x s r).2 ∧
  ((migrate x s r).1=s ∨ ∃ m,Commits lists r.module m s (migrate x s r).1) := by
 unfold migrate
 cases hphase:r.phase with
 | done result=>exact ⟨hr,.inl rfl⟩
 | start=>
  obtain ⟨e,hrun,-⟩ | ⟨s',answer,-,hbody,hrun⟩:=transaction_cases x.2 (fun s=>(r.read s).map fun rep=>(s,.ok rep)) s
  · simp only [hrun]
    exact ⟨⟨hr.1,trivial⟩,.inl rfl⟩
  · obtain ⟨rep,hread,hpair⟩:=map_ok hbody
    cases hpair
    obtain hrun | ⟨e,hrun⟩:=hrun
    all_goals simp only [hrun]
    · exact ⟨⟨hr.1,(read_count hread).le⟩,.inl rfl⟩
    · exact ⟨⟨hr.1,trivial⟩,.inl rfl⟩
 | step i rep=>
  have hi:i ≤ count s r.module:=by
   have:=hr.2
   rwa [hphase] at this
  cases hm:r.migrations[i]? with
  | none=>
   simp only [hm]
   exact ⟨⟨hr.1,(List.getElem?_eq_none_iff.mp hm).trans hi⟩,.inl trivial⟩
  | some m=>
   simp only [hm]
   obtain ⟨e,hrun,-⟩ | ⟨s',answer,-,hbody,hrun⟩:=
    transaction_cases x.2 (fun s=>(applyStep r.module m x.1 s).map fun s=>(s,.ok ())) s
   · rw [hrun]
     exact ⟨⟨hr.1,trivial⟩,.inl rfl⟩
   · obtain ⟨t,hstep,hpair⟩:=map_ok hbody
     cases hpair
     have hc:=applyStep_commits (hvalid r.module) hr.1 hm hstep
     obtain hrun | ⟨e,hrun⟩:=hrun
     all_goals rw [hrun]
     · refine ⟨⟨hr.1,?_⟩,.inr ⟨m,hc⟩⟩
       change i+1 ≤ count _ r.module
       rw [Run.next,hc.count,if_pos rfl]
       omega
     · exact ⟨⟨hr.1,trivial⟩,.inr ⟨m,hc⟩⟩

lemma Knows.later (hr:Knows lists s r) (hle:count s r.module ≤ count s' r.module) : Knows lists s' r := by
 refine ⟨hr.1,?_⟩
 have hphase:=hr.2
 cases hp:r.phase with
 | start=>trivial
 | step i rep=>
  rw [hp] at hphase
  exact hphase.trans hle
 | done result=>
  rw [hp] at hphase
  cases result with
  | error e=>trivial
  | ok rep=>exact hphase.trans hle

lemma Kept.applied (hvalid:∀ module,validateMigrations (lists module)=.ok ()) (hs:Kept lists init s)
 (module:Bytes) : s.appliedMigrations module=((lists module).take (count s module)).map fun m=>(m.version,m.name) := by
 have hsorted:(s.rows.filter fun r=>r.module=module).Pairwise fun a b=>a.version≤b.version:=by
  have hversions:((lists module).take (count s module)).Pairwise fun a b=>a.version≤b.version:=by
   refine (pairwise_iff_getElem.mpr fun i j hi hj hij=>?_).sublist (take_sublist _ _)
   have h1:=validateFrom_version (hvalid module) (getElem?_eq_getElem hi)
   have h2:=validateFrom_version (hvalid module) (getElem?_eq_getElem hj)
   omega
  have hmap:=hs.names module
  have:=(pairwise_map (f:=fun m : Migration ω=>(m.version,m.name)) (R:=fun a b=>a.1≤b.1)).mpr hversions
  rw [← hmap,pairwise_map] at this
  exact this
 rw [Store.appliedMigrations,Pairwise.insertionSort_eq hsorted,hs.names]

section Schedules
variable {ι:Type} [DecidableEq ι] (init)

/-- Whatever runs interleave and wherever they fail: each module has its first steps recorded, the version
counts them, the rest of the store is what the recorded steps did once each and in the order of their commits, and
a run that returned ok has all its steps recorded. -/
theorem migrations_once (hvalid:∀ module,validateMigrations (lists module)=.ok ()) (runs:ι → Run ω)
  (hruns:∀ i,(runs i).phase=.start ∧ (runs i).migrations <+: lists (runs i).module) (schedule:List (ι × (ℤ × Fault Status))) :
  let end_:=after (turn migrate) schedule (({ rest:=init }:Store ω),runs)
  (∀ module,∃ n,end_.1.appliedMigrations module=((lists module).take n).map fun m=>(m.version,m.name)) ∧
   end_.1.schemaVersion=UInt64.ofNat end_.1.rows.length ∧ end_.1.rows.foldlM (redo lists) init=.ok end_.1.rest ∧
   ∀ i rep,(end_.2 i).phase=.done (.ok rep) →
    (end_.2 i).migrations.length ≤ (end_.1.appliedMigrations (end_.2 i).module).length := by
 have hstart:Kept lists init ({ rest:=init }:Store ω):=⟨fun module=>by simp [Store.rows,count],rfl,rfl⟩
 have hknows:∀ i,Knows lists ({ rest:=init }:Store ω) (runs i):=fun i=>
  ⟨(hruns i).2,by rw [(hruns i).1]; trivial⟩
 have hmove:∀ x s r,Kept lists init s → Knows lists s r →
   Kept lists init (migrate x s r).1 ∧ Knows lists (migrate x s r).1 (migrate x s r).2:=by
  intro x s r hs hr
  obtain ⟨hr',hsame | ⟨m,hc⟩⟩:=migrate_spec hvalid x s hr
  · rw [hsame] at hr' ⊢
    exact ⟨hs,hr'⟩
  · exact ⟨hc.kept hs,hr'⟩
 have hother:∀ x s r r',Kept lists init s → Knows lists s r → Knows lists s r' → Knows lists (migrate x s r).1 r':=by
  intro x s r r' hs hr hr'
  obtain ⟨-,hsame | ⟨m,hc⟩⟩:=migrate_spec hvalid x s hr
  · rwa [hsame]
  · exact hr'.later (by rw [hc.count]; omega)
 obtain ⟨hkept,hall⟩:=after_keeps hmove hother schedule (s:=(_,runs)) ⟨hstart,hknows⟩
 refine ⟨fun module=>⟨_,hkept.applied hvalid module⟩,hkept.version,hkept.rest,fun i rep hdone=>?_⟩
 have hlast:=(hall i).2
 rw [hdone] at hlast
 rw [appliedMigrations_length]
 exact hlast

/-- Two steps of one module: plant, then double the beds. -/
def gardenLists (module:Bytes) : List (Migration ℕ) :=
 if module=[103] then [⟨1,[112],some fun w=>.ok (w+1)⟩,⟨2,[100],some fun w=>.ok (2*w)⟩] else []

lemma gardenLists_valid (module:Bytes) : validateMigrations (gardenLists module)=.ok () := by
 unfold gardenLists
 split_ifs <;> rfl

def turns : List (ℕ × (ℤ × Fault Status)) :=
 [(0,1,.none),(1,1,.none),(0,2,.cut ⟨.ioError,"power"⟩),(1,3,.none),(2,4,.none),(2,5,.none),(2,6,.none)]

def race : Store ℕ × (ℕ → Run ℕ) :=
 StatefulActions.after (turn migrate) turns ({ rest:=0 },fun _=>⟨[103],gardenLists [103],.start⟩)

/-- The first run loses its answer after one step, the second read before that and is refused, the third
does what is left. -/
theorem migrations_once_race : race.1.rest=2 ∧ race.1.rows.foldlM (redo gardenLists) 0=.ok race.1.rest ∧
  2 ≤ (race.1.appliedMigrations [103]).length := by
 have h:=migrations_once 0 gardenLists_valid (fun _=>⟨[103],gardenLists [103],.start⟩) (fun _=>⟨rfl,prefix_rfl⟩) turns
 exact ⟨by decide +kernel,h.2.2.1,h.2.2.2 2 ⟨1,2,[[100]]⟩ rfl⟩

end Schedules

end Archivum.Migrations
