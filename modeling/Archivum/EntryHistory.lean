import Archivum.CallEffects
import Archivum.RecordFormat
import Archivum.RowChanges

set_option autoImplicit false

/-!
# What becomes of an entry

An entry that is stored stays, with its columns; its state goes on step by step,
each step with an approval. The ids and uuids it was given stay with it too.
-/
namespace Archivum.EntryHistory
open ByteStrings StatefulActions StatefulActions.Act PageTxn RecordModel RecordFormat TableDefs StoreModel RowRules List
open LocalTimes KeyedTables PunchlineData PunchlineDb PunchlineFrames Payroll Sync Lifecycle RowChanges SettledRows
open CallEffects

/-- The entry later: only the four columns that calls may write have changed. -/
structure Kept (e e':TimeEntry) : Prop where
 columns : e'={ e with
  periodId:=e'.periodId,state:=e'.state,approvalAuditId:=e'.approvalAuditId,supersededBy:=e'.supersededBy }
 period : e'.periodId=e.periodId ∨ e.periodId=0
 superseded : e'.supersededBy=e.supersededBy ∨ e.supersededBy=0

namespace Kept
variable {e e₁ e₂:TimeEntry}

protected theorem refl (e:TimeEntry) : Kept e e := ⟨rfl,.inl rfl,.inl rfl⟩

protected theorem trans (h:Kept e e₁) (h':Kept e₁ e₂) : Kept e e₂ where
 columns := by rw [h'.columns,h.columns]
 period:=by
  rcases h.period with hsame | hnone
  · rw [← hsame]
    exact h'.period
  · exact .inr hnone
 superseded:=by
  rcases h.superseded with hsame | hnone
  · rw [← hsame]
    exact h'.superseded
  · exact .inr hnone

lemma id_eq (h:Kept e e₁) : e₁.id=e.id := by rw [h.columns]

lemma uuid_eq (h:Kept e e₁) : e₁.entryUuid=e.entryUuid := by rw [h.columns]

end Kept

lemma stepEntry_kept (env:Env) (periodId employeeId:ℤ) (from_ to_:EntryState) (e:TimeEntry) :
 Kept e (stepEntry env periodId employeeId from_ to_ e) := by
 unfold stepEntry
 split
 · exact ⟨rfl,.inl rfl,.inl rfl⟩
 · exact .refl e

lemma lockedEntry_kept (periodId:ℤ) (e:TimeEntry) : Kept e (lockedEntry periodId e) := by
 unfold lockedEntry
 split
 · exact ⟨rfl,.inl rfl,.inl rfl⟩
 · exact .refl e

lemma assignedEntry_kept (p:PayPeriod) (e:TimeEntry) : Kept e (assignedEntry p e) := by
 unfold assignedEntry
 split
 · exact .refl e
 · split
   · rename_i hnone
     exact ⟨rfl,.inr hnone.1,.inl rfl⟩
   · exact .refl e

lemma assignedEntry_state (p:PayPeriod) (e:TimeEntry) : (assignedEntry p e).state=e.state := by
 unfold assignedEntry
 split
 · rfl
 · split
   · rfl
   · rfl

/-- A row that a call adds: an entry of the batch, or one that was written by hand. -/
inductive Added (env:Env) (c:Call) (db:Db) (row:TimeEntry) : Prop
 | entered (device:Device) (zone:Bytes) (batch:IncomingBatch) (divergence:Option ℤ) (e:IncomingEntry)
   (periodId:ℤ) (he:e∈incomingOf c)
   (hrow:row=entryOf env device zone batch divergence e (db.timeEntries.lastKey+1) periodId)
 | written (m:ManualEntry) (employee:Employee) (deviceId:ℤ) (period:Option PayPeriod)
   (hrow:row=manualRow env m employee deviceId period (db.timeEntries.lastKey+1))

section Effects
variable {env:Env} {c:Call} {db db':Db}

lemma Added.id_eq {row:TimeEntry} (h:Added env c db row) : row.id=db.timeEntries.lastKey+1 := by
 cases h with
 | entered _ _ _ _ _ _ _ hrow=>rw [hrow]; rfl
 | written _ _ _ _ hrow=>rw [hrow]; rfl

lemma lt_of_added {row e:TimeEntry} (h:Added env c db row) (he:e∈db.timeEntries) : key e<key row := by
 have hle:e.id≤db.timeEntries.lastKey:=Table.key_le_lastKey he
 show e.id < row.id
 rw [h.id_eq]
 omega

/-- The entry's state has stayed, or it has gone one step with an approval that names it. -/
def Stepped (db db':Db) (e e':TimeEntry) : Prop :=
 e'.state=e.state ∨
  nextState e.state=some e'.state ∧
  (∃ a∈db'.approvals,a ∉ db.approvals ∧ a.periodId=e.periodId ∧ a.employeeId=e.employeeId ∧
   a.fromState=e.state ∧ a.toState=e'.state) ∧
  ∀ other∈db.timeEntries,other.employeeId=e.employeeId → other.periodId=e.periodId →
   other.supersededBy=0 → rank e.state ≤ rank other.state

lemma nextState_of_requested {req:TransitionRequest} {from_ to_:EntryState}
 (h:requestedStep req=.ok (from_,to_)) : nextState from_=some to_ := by
 unfold requestedStep at h
 split at h
 · cases h
 · rename_i step hstep
   split at h
   · cases h
   · cases h
     obtain ⟨to',-,hmap⟩:=Option.bind_eq_some_iff.mp hstep
     obtain ⟨from',hpred,hpair⟩:=Option.map_eq_some_iff.mp hmap
     cases hpair
     cases to_ with
     | recorded=>cases hpred
     | submitted=>cases hpred; rfl
     | approved=>cases hpred; rfl
     | released=>cases hpred; rfl
     | locked=>cases hpred; rfl

lemma rank_of_movable {periodId employeeId:ℤ} {from_:EntryState}
 (h:checkMovable (db.entriesInPeriod periodId employeeId) from_=.ok ()) {e:TimeEntry}
 (he:e∈db.timeEntries) (hcurrent:currentIn periodId employeeId e=true) : rank from_ ≤ rank e.state := by
 obtain ⟨hne,hin,hemployee,hlive⟩:=of_decide_eq_true hcurrent
 unfold checkMovable at h
 split at h
 · cases h
 · rename_i hnone
   have hmem:e∈(db.entriesInPeriod periodId employeeId).filter fun e=>e.supersededBy=0:=by
    refine mem_filter.mpr ⟨?_,decide_eq_true hlive⟩
    exact (mem_insertionSort _).mpr (mem_filter.mpr ⟨he,decide_eq_true ⟨hne,hin,hemployee⟩⟩)
   exact not_lt.mp fun hlt=>find?_eq_none.mp hnone e hmem (decide_eq_true hlt)

lemma stepEntry_stepped {req:TransitionRequest} {from_ to_:EntryState} (hstep:requestedStep req=.ok (from_,to_))
 (hmovable:checkMovable (db.entriesInPeriod req.periodId req.employeeId) from_=.ok ())
 (happroval:∃ a,db'.approvals=db.approvals.put a ∧ a.id=db.approvals.lastKey+1 ∧
  a.periodId=req.periodId ∧ a.employeeId=req.employeeId ∧ a.fromState=from_ ∧ a.toState=to_) (e:TimeEntry) :
 Stepped db db' e (stepEntry env req.periodId req.employeeId from_ to_ e) := by
 unfold stepEntry
 split
 · rename_i hmoves
   obtain ⟨hcurrent,rfl⟩:=hmoves
   obtain ⟨hne,hin,hemployee,-⟩:=of_decide_eq_true hcurrent
   obtain ⟨a,hput,hid,hperiod,hwhose,hfrom,hto⟩:=happroval
   refine .inr ⟨nextState_of_requested hstep,⟨a,?_,?_,?_,?_,hfrom,hto⟩,?_⟩
   · rw [hput]
     exact Table.mem_put_self
   · intro hold
     have hle:a.id≤db.approvals.lastKey:=Table.key_le_lastKey hold
     omega
   · rw [hperiod,hin]
   · rw [hwhose,hemployee]
   · intro other hother hemployee' hin' hlive
     refine rank_of_movable hmovable hother (decide_eq_true ⟨?_,?_,?_,hlive⟩)
     · rwa [hin']
     · rw [hin',hin]
     · rw [hemployee',hemployee]
 · exact .inl rfl

lemma lockedEntry_stepped {p:PayPeriod}
 (hreleased:∀ e∈db.timeEntries,e.periodId≠0 → e.periodId=p.id → e.supersededBy=0 → e.state=.released)
 (happrovals:∀ e∈db.timeEntries,e.periodId≠0 → e.periodId=p.id → e.supersededBy=0 →
  ∃ a∈db'.approvals,a ∉ db.approvals ∧ a.periodId=p.id ∧ a.employeeId=e.employeeId ∧
   a.fromState=.released ∧ a.toState=.locked) {e:TimeEntry} (he:e∈db.timeEntries) :
 Stepped db db' e (lockedEntry p.id e) := by
 unfold lockedEntry
 split
 · rename_i hlocks
   obtain ⟨hne,hin,hlive⟩:=hlocks
   have hstate:=hreleased e he hne hin hlive
   obtain ⟨a,ha,hnew,hperiod,hwhose,hfrom,hto⟩:=happrovals e he hne hin hlive
   refine .inr ⟨by rw [hstate]; rfl,⟨a,ha,hnew,by rw [hperiod,hin],hwhose,by rw [hfrom,hstate],hto⟩,?_⟩
   intro other hother _ hin' hlive'
   rw [hstate,hreleased other hother (by rwa [hin']) (by rw [hin',hin]) hlive']
 · exact .inl rfl

lemma mapped_of_eq {t t':Table TimeEntry} (h:t'=t) : Mapped id t t' := by
 intro b
 rw [h]
 exact ⟨fun hb=>⟨b,hb,rfl⟩,by rintro ⟨a,ha,rfl⟩; exact ha⟩

def supersededEntry (o:TimeEntry) (id:ℤ) (e:TimeEntry) : TimeEntry :=
 if e=o then { o with supersededBy:=id } else e

lemma mapped_superseded {t:Table TimeEntry} {o:TimeEntry} (ho:o∈t) (id:ℤ) :
  Mapped (supersededEntry o id) t (t.put { o with supersededBy:=id }) := by
 intro b
 rw [Table.mem_put]
 constructor
 · rintro (rfl | ⟨hb,hne⟩)
   · exact ⟨o,ho,if_pos rfl⟩
   · exact ⟨b,hb,if_neg fun hbo=>hne (by rw [hbo]; rfl)⟩
 · rintro ⟨a,ha,rfl⟩
   unfold supersededEntry
   split
   · exact .inl rfl
   · rename_i hne
     exact .inr ⟨ha,fun hkey=>hne (Table.eq_of_key ha ho hkey)⟩

lemma effect_entries (h:Effect env c db db') :
 (∃ f:TimeEntry → TimeEntry,(∀ e∈db.timeEntries,Kept e (f e) ∧ Stepped db db' e (f e) ∧
   (¬stepsTimesheets c → (f e).state=e.state)) ∧ Mapped f db.timeEntries db'.timeEntries) ∨
  ∃ row,Added env c db row ∧ db'.timeEntries=db.timeEntries.put row := by
 cases h with
 | other h=>
  exact .inl ⟨id,fun e _=>⟨.refl e,.inl rfl,fun _=>rfl⟩,mapped_of_eq (Prod.mk.inj h).1⟩
 | entered device zone batch divergence e lt he _ _ _ hrow _=>
  exact .inr ⟨_,.entered device zone batch divergence e _ he rfl,hrow⟩
 | written m employee deviceId lt cls period _ _ hrow _=>
  exact .inr ⟨_,.written m employee deviceId period rfl,hrow⟩
 | superseded o id ho hcurrent _ hrow _=>
  refine .inl ⟨supersededEntry o id,fun e _=>?_,by rw [hrow]; exact mapped_superseded ho id⟩
  unfold supersededEntry
  split
  · subst e
    exact ⟨⟨rfl,.inl rfl,.inr hcurrent⟩,.inl rfl,fun _=>rfl⟩
  · exact ⟨.refl e,.inl rfl,fun _=>rfl⟩
 | repaired _ _ _ _ _ _ _ hrest=>
  exact .inl ⟨id,fun e _=>⟨.refl e,.inl rfl,fun _=>rfl⟩,mapped_of_eq (Prod.mk.inj hrest).1⟩
 | moved hsteps req _ _ hstep _ hmovable hentries _ _ happroval=>
  exact .inl ⟨_,fun e _=>⟨stepEntry_kept _ _ _ _ _ e,stepEntry_stepped hstep hmovable happroval e,
   fun hnot=>absurd hsteps hnot⟩,hentries⟩
 | locked hsteps _ _ _ hreleased hentries _ _ happrovals=>
  exact .inl ⟨_,fun e he=>⟨lockedEntry_kept _ e,lockedEntry_stepped hreleased happrovals he,
   fun hnot=>absurd hsteps hnot⟩,hentries⟩
 | created _ _ _ _ hentries _ _ _=>
  exact .inl ⟨_,fun e _=>⟨assignedEntry_kept _ e,.inl (assignedEntry_state _ e),fun _=>assignedEntry_state _ e⟩,hentries⟩

lemma effect_kept (h:Effect env c db db') {e:TimeEntry} (he:e∈db.timeEntries) :
 ∃ e'∈db'.timeEntries,Kept e e' ∧ Stepped db db' e e' ∧ (¬stepsTimesheets c → e'.state=e.state) := by
 rcases effect_entries h with ⟨f,hf,hmapped⟩ | ⟨row,hadded,hrow⟩
 · exact ⟨f e,(hmapped (f e)).mpr ⟨e,he,rfl⟩,hf e he⟩
 · rw [hrow]
   exact ⟨e,Table.mem_put_of_ne he (lt_of_added hadded he).ne,.refl e,.inl rfl,fun _=>rfl⟩

lemma effect_origin (h:Effect env c db db') {e':TimeEntry} (he:e'∈db'.timeEntries) :
 (∃ e∈db.timeEntries,Kept e e') ∨ Added env c db e' := by
 rcases effect_entries h with ⟨f,hf,hmapped⟩ | ⟨row,hadded,hrow⟩
 · obtain ⟨e,hmem,rfl⟩:=(hmapped e').mp he
   exact .inl ⟨e,hmem,(hf e hmem).1⟩
 · rw [hrow] at he
   rcases Table.mem_put.mp he with rfl | ⟨hmem,-⟩
   · exact .inr hadded
   · exact .inl ⟨e',hmem,.refl e'⟩

lemma effects_kept (hquiet:¬stepsTimesheets c) (h:Effects env c db db') {e:TimeEntry} (he:e∈db.timeEntries) :
 ∃ e'∈db'.timeEntries,Kept e e' ∧ e'.state=e.state := by
 induction h with
 | refl=>exact ⟨e,he,.refl e,rfl⟩
 | tail _ heffect ih=>
  obtain ⟨e₁,he₁,hkept,hstate⟩:=ih
  obtain ⟨e₂,he₂,hkept₂,-,hstate₂⟩:=effect_kept heffect he₁
  exact ⟨e₂,he₂,hkept.trans hkept₂,(hstate₂ hquiet).trans hstate⟩

lemma Stepped.of_same {db₁ db₂:Db} {e e':TimeEntry} (h:Stepped db₁ db₂ e e') (hbefore:Same punches db db₁)
 (hafter:Same punches db₂ db') : Stepped db db' e e' := by
 obtain ⟨hentries,hrest⟩:=Prod.mk.inj hbefore
 have happrovals:=(Prod.mk.inj (Prod.mk.inj hrest).2).2
 have happrovals':=(Prod.mk.inj (Prod.mk.inj (Prod.mk.inj hafter).2).2).2
 unfold Stepped at h ⊢
 rwa [happrovals',← happrovals,← hentries]

lemma call_stepped {db₀:Db} (hbefore:Same punches db₀ db) (hrun:c.run env db=(.ok (),db'))
 {e:TimeEntry} (he:e∈db₀.timeEntries) : ∃ e'∈db'.timeEntries,Kept e e' ∧ Stepped db₀ db' e e' := by
 have he':e∈db.timeEntries:=by rwa [(Prod.mk.inj hbefore).1]
 have hquiet:¬stepsTimesheets c → ∃ e'∈db'.timeEntries,Kept e e' ∧ Stepped db₀ db' e e':=by
  intro hnot
  obtain ⟨e',hmem,hkept,hstate⟩:=effects_kept hnot (call_effects hrun) he'
  exact ⟨e',hmem,hkept,.inl hstate⟩
 cases c with
 | sync deviceId batch=>exact hquiet id
 | manual m=>exact hquiet id
 | period r=>exact hquiet id
 | move req=>
  obtain ⟨_,db₁,hmove,hrun⟩:=bind_ok_inv hrun
  cases hrun
  obtain ⟨db₂,hmoved,hrest⟩:=transition_effect hmove
  obtain ⟨e',hmem,hkept,hstepped,-⟩:=effect_kept hmoved he'
  exact ⟨e',by rwa [(Prod.mk.inj hrest).1],hkept,hstepped.of_same hbefore hrest⟩
 | lock periodId who tid oid account=>
  obtain ⟨_,db₁,hlock,hrun⟩:=bind_ok_inv hrun
  cases hrun
  obtain ⟨e',hmem,hkept,hstepped,-⟩:=effect_kept (lockPeriod_effect hlock) he'
  exact ⟨e',hmem,hkept,hstepped.of_same hbefore rfl⟩

end Effects

section Runs
variable (cfg:Config) (release:Bytes)

lemma serve_stepped (c:ℤ × Call) {db:Db} {e:TimeEntry} (he:e∈db.timeEntries) :
 ∃ e'∈(serve cfg release c db).timeEntries,Kept e e' ∧ Stepped db (serve cfg release c db) e e' := by
 rcases serve_cases cfg release c db with hsame | ⟨env,-,-,hrun⟩
 · rw [hsame]
   exact ⟨e,he,.refl e,.inl rfl⟩
 · exact call_stepped rfl hrun he

lemma after_kept (calls:List (ℤ × Call)) {db:Db} {e:TimeEntry} (he:e∈db.timeEntries) :
 ∃ e'∈(after (serve cfg release) calls db).timeEntries,Kept e e' := by
 induction calls generalizing db e with
 | nil=>exact ⟨e,he,.refl e⟩
 | cons c calls ih=>
  obtain ⟨e₁,he₁,hkept,-⟩:=serve_stepped cfg release c he
  obtain ⟨e₂,he₂,hkept₂⟩:=ih he₁
  exact ⟨e₂,he₂,hkept.trans hkept₂⟩

def EachStepped (db db':Db) : Prop := ∀ e∈db.timeEntries,∃ e'∈db'.timeEntries,Kept e e' ∧ Stepped db db' e e'

def EachKept (db db':Db) : Prop := ∀ e∈db.timeEntries,∃ e'∈db'.timeEntries,Kept e e'

/-- In every run an entry that is stored stays with its columns, and each call steps its state at most once, with an
approval that names the step and nothing current of its timesheet behind it. -/
theorem entries_kept_stepwise (done later:List (ℤ × Call)) (c:ℤ × Call) (db₀:Db) :
  EachStepped (after (serve cfg release) done db₀) (serve cfg release c (after (serve cfg release) done db₀)) ∧
   EachKept (after (serve cfg release) done db₀) (after (serve cfg release) (done++c::later) db₀) := by
 refine ⟨fun e he=>serve_stepped cfg release c he,fun e he=>?_⟩
 rw [after_append]
 exact after_kept cfg release (c::later) he

end Runs

def exampleSubmission : ℤ × Call :=
 (1709300000000000,.move { periodId:=1,employeeId:=1,toState:=ascii "submitted",
                           who:={ roles:=[],employeeId:=some 1 } })

example : (after (serve {} []) [(1709300000000000,.sync 1 (exampleBatch 1
   [examplePunch 1 "in" 1709190000000000 "2024-02-29T07:00:00"])),exampleSubmission] exampleSite).timeEntries.rows.map
  TimeEntry.state=[.submitted] := by decide +kernel

def manualForm (uuid:UuidBytes) : Bool := uuid.1.take 8=0xEE::replicate 7 0

lemma manualForm_manualUuid (id:ℤ) : manualForm (manualUuid id)=true := by
 refine decide_eq_true ?_
 exact take_left' rfl

lemma manualUuid_ne {i j:ℤ} (hi:0 < i) (hij:i<j) (hj:j<2^63) : manualUuid i≠manualUuid j := by
 intro heq
 have hbytes:=append_cancel_left (congrArg Subtype.val heq)
 have hnat:=congrArg fromLE (reverse_injective hbytes)
 rw [fromLE_toLE_of_lt _ _ (UInt64.toNat_lt _),fromLE_toLE_of_lt _ _ (UInt64.toNat_lt _)] at hnat
 have hbits:=congrArg UInt64.toBitVec (UInt64.toNat_inj.mp hnat)
 have hint:(Int64.ofInt i).toInt=(Int64.ofInt j).toInt:=congrArg BitVec.toInt hbits
 rw [Int64.toInt_ofInt_of_le (by omega) (by omega),Int64.toInt_ofInt_of_le (by omega) (by omega)] at hint
 omega

/-- Ids are positive, and who has a uuid of the derived form has the one of its id. -/
def Derived (db:Db) : Prop :=
 ∀ e∈db.timeEntries,0<e.id ∧ (manualForm e.entryUuid=true → e.entryUuid=manualUuid e.id)

lemma derived_effect {env:Env} {c:Call} {db db':Db}
 (hforms:∀ e∈incomingOf c,manualForm e.entryUuid=false) (h:Effect env c db db') (hdb:Derived db) : Derived db' := by
 intro e' he'
 rcases effect_origin h he' with ⟨e,he,hkept⟩ | hadded
 · rw [hkept.id_eq,hkept.uuid_eq]
   exact hdb e he
 · have hlast:0≤db.timeEntries.lastKey:=Table.lastKey_nonneg fun e he=>(hdb e he).1
   refine ⟨by rw [hadded.id_eq]; omega,fun hform=>?_⟩
   cases hadded with
   | entered device zone batch divergence e periodId he hrow=>
    rw [hrow] at hform
    exact absurd hform (Bool.eq_false_iff.mp (hforms e he))
   | written m employee deviceId period hrow=>
    rw [hrow]
    rfl

def KeepsAway (c:ℤ × Call) (_:Db) : Prop := ∀ e∈incomingOf c.2,manualForm e.entryUuid=false

instance (c:ℤ × Call) (db:Db) : Decidable (KeepsAway c db) := by
 unfold KeepsAway
 infer_instance

lemma derived_serve {cfg:Config} {release:Bytes} (c:ℤ × Call) (db:Db) (hdb:Derived db)
 (haway:KeepsAway c db) : Derived (serve cfg release c db) :=
 serve_invariant (fun _ _ _ hold heffect=>derived_effect haway heffect hold) hdb

def uuidTaken : Status := constraint "unique index time_entries_uuid on time_entries"

def uuidIndex : IndexDef := PunchlineSchema.uniqueIndex "time_entries_uuid" ["entry_uuid"]

lemma rows_timeEntries (db:Db) :
 db.tables.rows PunchlineSchema.timeEntries.name=db.timeEntries.rows.map TimeEntry.toRow := rfl

lemma uuid_free {db:Db} {row:TimeEntry} (h:∀ e∈db.timeEntries,e.entryUuid≠row.entryUuid) :
 prefixExists (db.tables.rows PunchlineSchema.timeEntries.name) PunchlineSchema.timeEntries uuidIndex
  (project PunchlineSchema.timeEntries row.toRow uuidIndex.columns)=false := by
 have htypes:∀ u:UuidBytes,OfTypes [.uuid] [.uuid u]:=fun u=>.cons rfl .nil
 rw [rows_timeEntries,prefixExists,any_map,any_eq_false]
 intro e he hprefix
 obtain ⟨rest,hrest⟩ := isPrefixOf_iff_prefix.mp hprefix
 have hvalues:=(encodeKey_inj (htypes row.entryUuid) (htypes e.entryUuid) hrest).1
 exact h e he (Value.uuid.inj (cons.inj hvalues).1).symm

lemma ne_uuidTaken {e:Status} (h:e.message.toList.head?≠some 'u') : (.error e:Except Status Unit)≠.error uuidTaken := by
 intro heq
 cases heq
 exact h rfl

lemma validateRow_ne {t:TableDef} {row:Row} : validateRow t row≠.error uuidTaken := by
 intro hfails
 unfold validateRow at hfails
 split at hfails
 · exact ne_uuidTaken (by simp [invalidArgument]) hfails
 rcases seq_error hfails with hvalue | hcheck
 · obtain ⟨p,-,hvalue⟩:=allOk_error hvalue
   unfold validateValue at hvalue
   split at hvalue
   · split at hvalue
     · exact ne_uuidTaken (by simp [constraint]) hvalue
     · cases hvalue
   · split at hvalue
     · exact ne_uuidTaken (by simp [invalidArgument]) hvalue
     · split at hvalue
       · split at hvalue
         · cases hvalue
         · exact ne_uuidTaken (by simp [invalidArgument]) hvalue
       · cases hvalue
 · obtain ⟨c,-,hcheck⟩:=allOk_error hcheck
   split at hcheck
   · cases hcheck
   · exact ne_uuidTaken (by simp [constraint]) hcheck

lemma checkIndex_ne {s:Tables} {t:TableDef} {row:Row} {idx:IndexDef}
 (h:idx.unique=true → constraint ("unique index " ++ text idx.name ++ " on " ++ text t.name)=uuidTaken →
  prefixExists (s.rows t.name) t idx (project t row idx.columns)=false) : s.checkIndex t row idx≠.error uuidTaken := by
 intro hfails
 unfold Tables.checkIndex at hfails
 dsimp only at hfails
 split at hfails
 · exact ne_uuidTaken (by simp [invalidArgument]) hfails
 · split at hfails
   · cases hfails
   · rename_i hunique
     split at hfails
     · rename_i hexists
       have hidx:idx.unique=true:=by
        cases hu:idx.unique with
        | true=>rfl
        | false=>simp [hu] at hunique
       rw [h hidx (Except.error.inj hfails)] at hexists
       cases hexists
     · cases hfails

lemma checkParents_ne {s:Tables} {t:TableDef} {row:Row} {old:Option Row} : s.checkParents t row old≠.error uuidTaken := by
 intro hfails
 obtain ⟨fk,-,hfails⟩:=allOk_error hfails
 unfold Tables.checkParent at hfails
 dsimp only at hfails
 split at hfails
 · cases hfails
 · split at hfails
   · cases hfails
   · split at hfails
     · exact ne_uuidTaken (by simp [corrupt]) hfails
     · cases hfound:s.parentExists _ fk _ with
       | error e=>
        rw [hfound] at hfails
        unfold Tables.parentExists at hfound
        split at hfound
        · cases hfound
        · split at hfound
          · cases hfound
            exact ne_uuidTaken (by simp [corrupt]) hfails
          · cases hfound
       | ok found=>
        rw [hfound] at hfails
        cases found with
        | true=>cases hfails
        | false=>exact ne_uuidTaken (by simp [constraint]) hfails

lemma not_uuidTaken {db:Db} {row:TimeEntry} (h:∀ e∈db.timeEntries,e.entryUuid≠row.entryUuid) :
 checkInsert timeEntries row db≠.error uuidTaken := by
 intro hfails
 unfold checkInsert at hfails
 rcases seq_error hfails with hvalid | hfails
 · exact validateRow_ne hvalid
 rcases seq_error hfails with hlength | hfails
 · unfold Tables.checkKeyLength at hlength
   split at hlength
   · exact ne_uuidTaken (by simp [invalidArgument]) hlength
   · cases hlength
 dsimp only at hfails
 split at hfails
 · exact ne_uuidTaken (by simp [constraint]) hfails
 rcases seq_error hfails with hindex | hparents
 · obtain ⟨idx,hidx,hindex⟩:=allOk_error hindex
   refine checkIndex_ne (fun hunique hname=>?_) hindex
   simp only [timeEntries,PunchlineSchema.timeEntries,mem_cons,not_mem_nil,or_false] at hidx
   rcases hidx with rfl | rfl | hidx
   · exact uuid_free h
   · exact absurd hname (by decide +kernel)
   · rcases hidx with rfl | rfl | rfl | rfl | rfl | rfl | rfl | rfl | rfl <;> cases hunique
 · exact checkParents_ne hparents

/-- Where the devices keep away from such uuids, the uuid derived for the next entry is free, and the row of a manual entry
is not refused for it. -/
theorem manual_uuid_free (cfg:Config) (release:Bytes) (calls:List (ℤ × Call)) (db₀:Db) (hunused:Unused db₀)
  (haway:Meets (serve cfg release) KeepsAway calls db₀)
  (hids:(after (serve cfg release) calls db₀).timeEntries.lastKey+1<2^63) (env:Env) (m:ManualEntry)
  (employee:Employee) (deviceId:ℤ) (period:Option PayPeriod) :
  (∀ e∈(after (serve cfg release) calls db₀).timeEntries,
   e.entryUuid≠manualUuid ((after (serve cfg release) calls db₀).timeEntries.lastKey+1)) ∧
  (PunchlineDb.insert timeEntries (manualRow env m employee deviceId period
    ((after (serve cfg release) calls db₀).timeEntries.lastKey+1)) (after (serve cfg release) calls db₀)).1 ≠
   .error uuidTaken := by
 have hderived:Derived (after (serve cfg release) calls db₀):=by
  refine after_invariant derived_serve calls (fun e he=>?_) haway
  rw [Table.mem_def,hunused.1] at he
  cases he
 have hfree:∀ e∈(after (serve cfg release) calls db₀).timeEntries,
   e.entryUuid≠manualUuid ((after (serve cfg release) calls db₀).timeEntries.lastKey+1):=by
  intro e he heq
  obtain ⟨hpos,hform⟩:=hderived e he
  have hle:e.id ≤ (after (serve cfg release) calls db₀).timeEntries.lastKey:=Table.key_le_lastKey he
  rw [hform (by rw [heq]; exact manualForm_manualUuid _)] at heq
  exact manualUuid_ne hpos (by omega) hids heq
 refine ⟨hfree,fun hfails=>?_⟩
 unfold PunchlineDb.insert at hfails
 split at hfails
 · rename_i e hcheck
   cases hfails
   exact not_uuidTaken hfree hcheck
 · cases hfails

def exampleManual : ManualEntry where
 employeeId := 1
 kind:=ascii "out"
 deviceTimeUs:=1709218800000000
 localTime:=ascii "2024-02-29T15:00:00"
 reason:=ascii "tablet was charging"
 editClass:=ascii "payroll"
 reasonCode:=ascii "MISSED"
 editor:=ascii "Max"

def morningWith (uuid:UuidBytes) : ℤ × Call :=
 (1709300000000000,.sync 1 (exampleBatch 1
  [{ examplePunch 1 "in" 1709190000000000 "2024-02-29T07:00:00" with entryUuid:=uuid }]))

theorem morning_uuid_free : Unused exampleSite ∧ Meets (serve {} []) KeepsAway [morningWith (exampleUuid 1)] exampleSite ∧
  (PunchlineDb.insert timeEntries (manualRow { now:=1709300000000000,auditId:=2,release:=[] } exampleManual
   { id:=1,employeeNumber:=ascii "7",displayName:=ascii "Ada",siteZone:=ascii "UTC" } 1 none
    ((after (serve {} []) [morningWith (exampleUuid 1)] exampleSite).timeEntries.lastKey+1))
   (after (serve {} []) [morningWith (exampleUuid 1)] exampleSite)).1≠.error uuidTaken :=
 ⟨by decide,by decide +kernel,
  (manual_uuid_free {} [] [morningWith (exampleUuid 1)] exampleSite (by decide) (by decide +kernel) (by decide +kernel)
   _ _ _ _ _).2⟩

/-- A device may take the uuid that the next entry will be given; the same request passes where it has not. -/
theorem chosen_uuid_refuses_manual :
  (recorded {} [] 1709300000000000 (.manual exampleManual)
   (after (serve {} []) [morningWith (manualUuid 2)] exampleSite)).1=.error uuidTaken ∧
  (recorded {} [] 1709300000000000 (.manual exampleManual)
   (after (serve {} []) [morningWith (exampleUuid 1)] exampleSite)).1=.ok () := by
 decide +kernel

end Archivum.EntryHistory
