import Archivum.ExceptionRules

set_option autoImplicit false

/-!
# Pairing as a function of the punches

What the fold decides depends on the punches alone: `pairUp` lists its
decisions, each punch in exactly one of them, and the fold carries them out in
order. From this follow the shifts that a repair leaves and the exceptions it
opens.
-/
namespace Archivum.PairingRules
open ByteStrings StatefulActions StatefulActions.Act KeyedTables PunchlineData PunchlineDb PunchlineFrames List
open ExceptionQueue ExceptionRules Payroll Sync

inductive Decision
 /-- The shift of an in punch stays open. -/
 | left (sh:Shift) (inEntry:TimeEntry) (interrupted:Bool)
 /-- The shift of an in punch is closed by an out punch. -/
 | closed (sh:Shift) (inEntry out:TimeEntry)
 /-- An out punch closes nothing. -/
 | unpaired (e:TimeEntry) (why:String)

def noIn : String := "out punch without an in punch"

def otherDevice : String := "out punch from a different device than the open in punch"

def decideAt (employeeId:ℤ) (current:Option (Shift × TimeEntry)) (e:TimeEntry) :
  List Decision × Option (Shift × TimeEntry) :=
 match e.kind,current with
 | .in_,none=>([],some (beginShift employeeId e,e))
 | .in_,some (sh,inEntry)=>([.left sh inEntry true],some (beginShift employeeId e,e))
 | .out,none=>([.unpaired e noIn],none)
 | .out,some (sh,inEntry)=>
  if pairOut sh e then ([.closed sh inEntry e],none)
  else if sh.deviceId≠e.deviceId then ([.unpaired e otherDevice],some (sh,inEntry))
  else ([.left sh inEntry true,.unpaired e noIn],none)

def pairUp (employeeId:ℤ) : List TimeEntry → Option (Shift × TimeEntry) → List Decision
 | [],none=>[]
 | [],some (sh,inEntry)=>[.left sh inEntry false]
 | e::rest,current=>
  (decideAt employeeId current e).1++pairUp employeeId rest (decideAt employeeId current e).2

def perform (env:Env) (employeeId:ℤ) : Decision → PunchM (List ℤ)
 | .left sh inEntry interrupted=>persistOpen env employeeId interrupted (some (sh,inEntry))
 | .closed sh inEntry out=>closeShift env employeeId sh inEntry out
 | .unpaired e why=>flagUnpaired env employeeId e why

section Fold
variable (env:Env) (employeeId:ℤ)

lemma forEachOpened_append {α:Type} (f:α → PunchM (List ℤ)) (l l':List α) (db:Db) : forEachOpened f (l++l') db =
  (forEachOpened f l >>= fun opened=>forEachOpened f l' >>= fun more=>pure (opened++more)) db := by
 induction l generalizing db with
 | nil=>
  change forEachOpened f l' db=(forEachOpened f l' >>= fun more=>pure more) db
  rw [bind_run]
  rcases forEachOpened f l' db with ⟨_ | more,s⟩
  · rfl
  · rfl
 | cons a l ih=>
  rw [cons_append,forEachOpened,forEachOpened,bind_assoc]
  refine bind_congr (fun opened s=>?_) db
  rw [bind_run,ih,bind_assoc]
  simp only [bind_run]
  rcases forEachOpened f l s with ⟨_ | rest,s'⟩
  · rfl
  · simp only [pure_run]
    rcases forEachOpened f l' s' with ⟨_ | more,s''⟩
    · rfl
    · change (Except.ok (opened++(rest++more)),s'')=(Except.ok (opened++rest++more),s'')
      rw [append_assoc]

lemma forEachOpened_singleton {α:Type} (f:α → PunchM (List ℤ)) (a:α) (db:Db) : forEachOpened f [a] db=f a db := by
 rw [forEachOpened,bind_run]
 rcases f a db with ⟨_ | opened,s⟩
 · rfl
 · change (Except.ok (opened++[]),s)=(Except.ok opened,s)
   rw [append_nil]

lemma foldEntry_eq (current:Option (Shift × TimeEntry)) (e:TimeEntry) (db:Db) : foldEntry env employeeId current e db =
  (forEachOpened (perform env employeeId) (decideAt employeeId current e).1 >>= fun opened=>
   pure ((decideAt employeeId current e).2,opened)) db := by
 have hone:∀ (d:Decision) (next:Option (Shift × TimeEntry)) (s:Db),
   (perform env employeeId d >>= fun opened=>pure (next,opened)) s =
    (forEachOpened (perform env employeeId) [d] >>= fun opened=>pure (next,opened)) s:=by
  intro d next s
  rw [bind_run,bind_run,forEachOpened_singleton]
 unfold foldEntry decideAt
 rcases e.kind with _ | _
 · rcases current with _ | ⟨sh,inEntry⟩
   · rfl
   · exact hone (.left sh inEntry true) _ db
 · rcases current with _ | ⟨sh,inEntry⟩
   · exact hone (.unpaired e noIn) _ db
   · dsimp only
     by_cases hpair:pairOut sh e=true
     · rw [if_pos hpair,if_pos hpair]
       exact hone (.closed sh inEntry e) _ db
     · rw [if_neg hpair,if_neg hpair]
       by_cases hdevice:sh.deviceId≠e.deviceId
       · rw [if_pos hdevice,if_pos hdevice]
         exact hone (.unpaired e otherDevice) _ db
       · rw [if_neg hdevice,if_neg hdevice,forEachOpened,bind_assoc]
         refine bind_congr (fun interrupted s=>?_) db
         rw [bind_run,bind_assoc,bind_run,forEachOpened_singleton]
         rfl

lemma foldEntries_eq (entries:List TimeEntry) (current:Option (Shift × TimeEntry)) (db:Db) :
 foldEntries env employeeId entries current db =
  forEachOpened (perform env employeeId) (pairUp employeeId entries current) db := by
 induction entries generalizing current db with
 | nil=>
  rcases current with _ | ⟨sh,inEntry⟩
  · rfl
  · exact (forEachOpened_singleton (perform env employeeId) (.left sh inEntry false) db).symm
 | cons e rest ih=>
  rw [foldEntries,pairUp,forEachOpened_append,bind_run,foldEntry_eq,bind_run,bind_run]
  rcases forEachOpened (perform env employeeId) (decideAt employeeId current e).1 db with ⟨_ | opened,s⟩
  · rfl
  · change (foldEntries env employeeId rest (decideAt employeeId current e).2 >>= _) s=_
    rw [bind_run,ih]
    rfl

end Fold

def Decision.uses : Decision → List TimeEntry
 | left _ inEntry _=>[inEntry]
 | closed _ inEntry out=>[inEntry,out]
 | unpaired e _=>[e]

def Decision.shift : Decision → Option Shift
 | left sh _ _=>some sh
 | closed sh _ out=>some (endShift sh out)
 | unpaired _ _=>none

/-- The shift of a decision begins with its in punch, and an out punch closes it by the pairing rule. -/
def Decision.Proper (employeeId:ℤ) : Decision → Prop
 | left sh inEntry _=>sh=beginShift employeeId inEntry
 | closed sh inEntry out=>sh=beginShift employeeId inEntry ∧ pairOut sh out=true
 | unpaired _ _=>True

def pending (current:Option (Shift × TimeEntry)) : List TimeEntry := (current.map Prod.snd).toList

def Begun (employeeId:ℤ) (current:Option (Shift × TimeEntry)) : Prop :=
 ∀ c∈current,c.1=beginShift employeeId c.2

section Decisions
variable {employeeId:ℤ}

lemma decideAt_uses (current:Option (Shift × TimeEntry)) (e:TimeEntry) :
 ((decideAt employeeId current e).1.flatMap Decision.uses++pending (decideAt employeeId current e).2).Perm
  (pending current++[e]) := by
 unfold decideAt
 rcases e.kind with _ | _
 · rcases current with _ | ⟨sh,inEntry⟩
   · exact .refl _
   · exact .refl _
 · rcases current with _ | ⟨sh,inEntry⟩
   · exact .refl _
   · dsimp only
     by_cases hpair:pairOut sh e=true
     · rw [if_pos hpair]
       exact .refl _
     · rw [if_neg hpair]
       by_cases hdevice:sh.deviceId≠e.deviceId
       · rw [if_pos hdevice]
         exact .swap _ _ _
       · rw [if_neg hdevice]
         exact .refl _

lemma pairUp_uses (entries:List TimeEntry) (current:Option (Shift × TimeEntry)) :
 ((pairUp employeeId entries current).flatMap Decision.uses).Perm (pending current++entries) := by
 induction entries generalizing current with
 | nil=>
  rcases current with _ | ⟨sh,inEntry⟩
  · exact .refl _
  · exact .refl _
 | cons e rest ih=>
  rw [pairUp,flatMap_append]
  calc (decideAt employeeId current e).1.flatMap Decision.uses ++
     (pairUp employeeId rest (decideAt employeeId current e).2).flatMap Decision.uses
    |>.Perm ((decideAt employeeId current e).1.flatMap Decision.uses ++
     (pending (decideAt employeeId current e).2++rest)):=(ih _).append_left _
   _ |>.Perm (pending current++[e]++rest):=by
     rw [← append_assoc]
     exact (decideAt_uses current e).append_right rest
   _ |>.Perm (pending current++e::rest):=by
     rw [append_assoc]
     exact .refl _

lemma decideAt_proper {current:Option (Shift × TimeEntry)} (h:Begun employeeId current) (e:TimeEntry) :
 (∀ d∈(decideAt employeeId current e).1,d.Proper employeeId) ∧ Begun employeeId (decideAt employeeId current e).2 := by
 have hnew:Begun employeeId (some (beginShift employeeId e,e)):=by
  rintro c hc
  cases hc
  rfl
 have hnone:Begun employeeId none:=fun c hc=>nomatch hc
 unfold decideAt
 rcases e.kind with _ | _
 · rcases current with _ | ⟨sh,inEntry⟩
   · exact ⟨(fun d hd=>nomatch hd),hnew⟩
   · refine ⟨fun d hd=>?_,hnew⟩
     obtain rfl:=mem_singleton.mp hd
     exact h _ rfl
 · rcases current with _ | ⟨sh,inEntry⟩
   · refine ⟨fun d hd=>?_,hnone⟩
     obtain rfl:=mem_singleton.mp hd
     exact trivial
   · dsimp only
     by_cases hpair:pairOut sh e=true
     · rw [if_pos hpair]
       refine ⟨fun d hd=>?_,hnone⟩
       obtain rfl:=mem_singleton.mp hd
       exact ⟨h _ rfl,hpair⟩
     · rw [if_neg hpair]
       by_cases hdevice:sh.deviceId≠e.deviceId
       · rw [if_pos hdevice]
         refine ⟨fun d hd=>?_,h⟩
         obtain rfl:=mem_singleton.mp hd
         exact trivial
       · rw [if_neg hdevice]
         refine ⟨fun d hd=>?_,hnone⟩
         rcases mem_cons.mp hd with rfl | hd
         · exact h _ rfl
         · obtain rfl:=mem_singleton.mp hd
           exact trivial

lemma pairUp_proper (entries:List TimeEntry) {current:Option (Shift × TimeEntry)}
 (h:Begun employeeId current) : ∀ d∈pairUp employeeId entries current,d.Proper employeeId := by
 induction entries generalizing current with
 | nil=>
  rcases current with _ | ⟨sh,inEntry⟩
  · exact fun d hd=>nomatch hd
  · intro d hd
    obtain rfl:=mem_singleton.mp hd
    exact h _ rfl
 | cons e rest ih=>
  obtain ⟨hhere,hnext⟩:=decideAt_proper h e
  intro d hd
  rcases mem_append.mp hd with hd | hd
  · exact hhere d hd
  · exact ih hnext d hd

end Decisions

def numbered : ℤ → List Shift → List Shift
 | _,[]=>[]
 | id,sh::rest=>{ sh with id } :: numbered (id+1) rest

lemma numbered_append (id:ℤ) (l l':List Shift) : numbered id (l++l')=numbered id l++numbered (id+l.length) l' := by
 induction l generalizing id with
 | nil=>simp [numbered]
 | cons sh l ih=>
  rw [cons_append,numbered,numbered,ih,cons_append,length_cons]
  congr 3
  push_cast
  ring

lemma mem_numbered {id:ℤ} {l:List Shift} {sh:Shift} (h:sh∈numbered id l) :
  ∃ sh₀∈l,sh={ sh₀ with id:=sh.id } := by
 induction l generalizing id with
 | nil=>cases h
 | cons sh₁ l ih=>
  rcases mem_cons.mp h with rfl | h
  · exact ⟨sh₁,mem_cons_self,rfl⟩
  · obtain ⟨sh₀,hmem,heq⟩:=ih h
    exact ⟨sh₀,mem_cons_of_mem _ hmem,heq⟩

section Stored
variable {env:Env} {employeeId:ℤ} {db db':Db}

def Adds (l:List Shift) (db db':Db) : Prop :=
 db'.shifts.rows=db.shifts.rows++numbered (db.shifts.lastKey+1) l ∧
  db'.shifts.lastKey=db.shifts.lastKey+l.length

lemma Adds.nil (h:Same Db.shifts db db') : Adds [] db db' := by
 unfold Same at h
 unfold Adds
 rw [h]
 simp [numbered]

lemma Adds.trans {l l':List Shift} {db'':Db} (h:Adds l db db') (h':Adds l' db' db'') : Adds (l++l') db db'' := by
 constructor
 · rw [h'.1,h.1,h.2,numbered_append,append_assoc]
   congr 3
   ring
 · rw [h'.2,h.2,length_append]
   push_cast
   ring

lemma Adds.then_same {l:List Shift} {db'':Db} (h:Adds l db db') (h':Same Db.shifts db' db'') : Adds l db db'' := by
 have:=h.trans (Adds.nil h')
 rwa [append_nil] at this

lemma storeShift_ok {sh sh':Shift} (hrun:storeShift sh db=(.ok sh',db')) :
  sh'={ sh with id:=db.shifts.lastKey+1 } ∧ db'={ db with shifts:=db.shifts.put sh' } ∧
   Adds [sh] db db' := by
 obtain ⟨_,s₁,h₁,hrun⟩:=bind_ok_inv hrun
 cases h₁
 obtain ⟨_,s₂,h₂,hrun⟩:=bind_ok_inv hrun
 cases hrun
 have hdb:=(insert_ok h₂).2
 refine ⟨rfl,hdb,?_⟩
 have hlast:∀ b∈db.shifts,key b<key { sh with id:=db.shifts.lastKey+1 }:=by
  intro b hb
  have hle:=Table.key_le_lastKey hb
  change key b<db.shifts.lastKey+1
  omega
 rw [hdb]
 exact ⟨Table.rows_put_of_lastKey hlast,Table.lastKey_put hlast⟩

lemma flag_shifts (k:ExceptionKey) (detail:Bytes) : Always (Same Db.shifts) (flag env k detail) :=
 flag_always (fun _ _=>rfl) env k detail

lemma perform_adds {d:Decision} {opened:List ℤ} (hrun:perform env employeeId d db=(.ok opened,db')) :
 Adds d.shift.toList db db' := by
 cases d with
 | left sh inEntry interrupted=>
  obtain ⟨sh',s,hstore,hrun⟩:=bind_ok_inv hrun
  refine (storeShift_ok hstore).2.2.then_same (Always.ok ?_ hrun)
  exact .ite (flag_shifts _ _) (.ite (flag_shifts _ _) (.pure _))
 | closed sh inEntry out=>
  obtain ⟨sh',s,hstore,hrun⟩:=bind_ok_inv hrun
  refine (storeShift_ok hstore).2.2.then_same (Always.ok ?_ hrun)
  exact .bind (flagLong_always (fun _ _=>rfl) env _ _) fun _=>
   .bind (checkSchedule_always (fun _ _=>rfl) env _ _) fun _=>
   .bind (recordAnnotations_always (fun _ _=>rfl) _ _ _ _) fun _=>.pure _
 | unpaired e why=>exact Adds.nil (Always.ok (flag_shifts _ _) hrun)

lemma performAll_adds {ds:List Decision} {opened:List ℤ}
 (hrun:forEachOpened (perform env employeeId) ds db=(.ok opened,db')) : Adds (ds.filterMap Decision.shift) db db' := by
 induction ds generalizing db opened with
 | nil=>
  cases hrun
  exact Adds.nil rfl
 | cons d ds ih=>
  obtain ⟨_,s₁,hperform,hrun⟩:=bind_ok_inv hrun
  obtain ⟨_,s₂,hrest,hrun⟩:=bind_ok_inv hrun
  cases hrun
  have hadds:=(perform_adds hperform).trans (ih hrest)
  rw [filterMap_cons]
  cases hshift:d.shift with
  | none=>rwa [hshift] at hadds
  | some sh=>rwa [hshift] at hadds

lemma dropShift_ok {sh:Shift} (hrun:dropShift env employeeId sh db=(.ok (),db')) : db'.shifts=db.shifts.erase sh.id := by
 obtain ⟨_,s₁,h₁,hrun⟩:=bind_ok_inv hrun
 obtain ⟨_,s₂,h₂,hrun⟩:=bind_ok_inv hrun
 have hresolve:Same Db.shifts db s₁:=
  Always.ok (forAll_always fun p _=>resolvePairing_always (fun _ _=>rfl) env _ p) h₁
 have hannotations:Same Db.shifts s₁ s₂:=Always.ok (removeAnnotations_always (fun _ _=>rfl) _) h₂
 rw [(remove_ok hrun).2]
 change s₂.shifts.erase sh.id=_
 rw [hannotations,hresolve]

lemma dropAll_ok {l:List Shift} (hrun:forAll (dropShift env employeeId) l db=(.ok (),db')) (sh:Shift) :
 sh∈db'.shifts ↔ sh∈db.shifts ∧ sh.id ∉ l.map Shift.id := by
 induction l generalizing db with
 | nil=>
  cases hrun
  simp
 | cons a l ih=>
  obtain ⟨_,s,hdrop,hrest⟩:=bind_ok_inv hrun
  rw [ih hrest,dropShift_ok hdrop,Table.mem_erase,map_cons,mem_cons,not_or,and_assoc]
  exact Iff.rfl

end Stored

def foldable (db:Db) (employeeId start:ℤ) : List TimeEntry :=
 (currentEntriesFrom db employeeId start).filter fun e=>!laterThanSubmitted e.state

def rebuilt (db:Db) (employeeId fromUs:ℤ) : Option (ℤ × List Shift) :=
 rebuildRange db employeeId (db.shifts.rows.length+2) fromUs

structure Repaired (env:Env) (employeeId fromUs:ℤ) (db:Db) (start:ℤ) (affected:List Shift)
  (opened:List ℤ) (db₁ db₂ db₃ db':Db) : Prop where
 range : rebuilt db employeeId fromUs=some (start,affected)
 dropped : forAll (dropShift env employeeId) affected db=(.ok (),db₁)
 resolved : forAll (resolveUnpaired env employeeId) (foldable db employeeId start) db₁=(.ok (),db₂)
 folded : forEachOpened (perform env employeeId) (pairUp employeeId (foldable db employeeId start) none) db₂ =
  (.ok opened,db₃)
 rest : ∀ R : Db → Db → Prop,IsPreorder Db R → Ignores mealBreaks R → Ignores timesheetHolds R → R db₃ db'

section Repair
variable {env:Env} {employeeId fromUs start:ℤ} {affected:List Shift} {opened:List ℤ} {db db₁ db₂ db₃ db':Db}

lemma dropAll_always {R:Db → Db → Prop} [IsPreorder Db R] (hx:Ignores exceptions R)
 (ha:Ignores shiftAnnotations R) (hs:Ignores shifts R) (l:List Shift) : Always R (forAll (dropShift env employeeId) l) :=
 forAll_always fun sh _=>dropShift_always hx ha env employeeId hs sh

lemma resolveAll_always {R:Db → Db → Prop} [IsPreorder Db R] (hx:Ignores exceptions R) (l:List TimeEntry) :
 Always R (forAll (resolveUnpaired env employeeId) l) :=
 forAll_always fun e _=>resolveUnpaired_always hx env employeeId e

lemma perform_always {R:Db → Db → Prop} [IsPreorder Db R] (hx:Ignores exceptions R)
 (ha:Ignores shiftAnnotations R) (hs:Grows shifts R) (d:Decision) : Always R (perform env employeeId d) := by
 cases d with
 | left sh inEntry interrupted=>exact persistOpen_always hx hs env employeeId _ _
 | closed sh inEntry out=>exact closeShift_always hx ha hs env employeeId _ _ _
 | unpaired e why=>exact flagUnpaired_always hx env _ _ _

lemma repairPairing_ok (hrun:repairPairing env employeeId fromUs db=(.ok opened,db')) :
 ∃ start affected db₁ db₂ db₃,Repaired env employeeId fromUs db start affected opened db₁ db₂ db₃ db' := by
 unfold repairPairing at hrun
 rw [bind_reads] at hrun
 cases hrange:rebuildRange db employeeId (db.shifts.rows.length+2) fromUs with
 | none=>
  rw [hrange] at hrun
  cases hrun
 | some r=>
  obtain ⟨start,affected⟩:=r
  rw [hrange] at hrun
  obtain ⟨_,db₁,hdrop,hrun⟩:=bind_ok_inv hrun
  rw [bind_reads] at hrun
  have hentries:Same Db.timeEntries db db₁:=
   (dropAll_always (fun _ _=>rfl) (fun _ _=>rfl) (fun _ _=>rfl) affected).ok hdrop
  have hsame:currentEntriesFrom db₁ employeeId start=currentEntriesFrom db employeeId start:=by
   unfold currentEntriesFrom
   rw [hentries]
  rw [hsame] at hrun
  obtain ⟨_,db₂,hresolve,hrun⟩:=bind_ok_inv hrun
  obtain ⟨_,db₃,hfold,hrun⟩:=bind_ok_inv hrun
  obtain ⟨_,db₄,hmeals,hrun⟩:=bind_ok_inv hrun
  obtain ⟨_,db₅,hholds,hrun⟩:=bind_ok_inv hrun
  cases hrun
  rw [foldEntries_eq] at hfold
  refine ⟨start,affected,db₁,db₂,db₃,hrange,hdrop,hresolve,hfold,fun R _ hm hh=>?_⟩
  exact trans_of R ((rebuildMeals_always hm _ _).ok hmeals)
   ((forAll_always fun p _=>evaluateHold_always hh env employeeId p).ok hholds)

namespace Repaired

variable (h:Repaired env employeeId fromUs db start affected opened db₁ db₂ db₃ db')
include h

lemma follows {R:Db → Db → Prop} [IsPreorder Db R] (hx:Ignores exceptions R) (ha:Ignores shiftAnnotations R)
 (hs:Ignores shifts R) (hm:Ignores mealBreaks R) (hh:Ignores timesheetHolds R) : R db db' :=
 trans_of R ((dropAll_always hx ha hs affected).ok h.dropped) <|
  trans_of R ((resolveAll_always hx _).ok h.resolved) <|
  trans_of R ((forEachOpened_always fun d _=>perform_always hx ha hs.grows d).ok h.folded) (h.rest R inferInstance hm hh)

lemma shifts_eq : db'.shifts.rows=(db.shifts.rows.filter fun sh=>sh.id ∉ affected.map Shift.id) ++
 numbered (db₁.shifts.lastKey+1) ((pairUp employeeId (foldable db employeeId start) none).filterMap Decision.shift) := by
 have hkept:db₁.shifts.rows=db.shifts.rows.filter fun sh=>sh.id ∉ affected.map Shift.id:=by
  refine Ordered.ext db₁.shifts.ordered (db.shifts.ordered.sublist filter_sublist) fun sh=>?_
  rw [mem_filter,decide_eq_true_eq]
  exact dropAll_ok h.dropped sh
 have hresolved:Same Db.shifts db₁ db₂:=(resolveAll_always (fun _ _=>rfl) _).ok h.resolved
 have hrest:Same Db.shifts db₃ db':=h.rest _ inferInstance (fun _ _=>rfl) fun _ _=>rfl
 rw [hrest,(performAll_adds h.folded).1,hresolved,hkept]

end Repaired

end Repair

end Archivum.PairingRules
