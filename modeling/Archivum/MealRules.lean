import Archivum.BatchRules
import Archivum.SettledRows
import Archivum.Successors

set_option autoImplicit false

/-!
# Meals

The meals of an employee against the punches that begin and end them, and what a
rebuild from some time on makes of them.
-/
namespace Archivum.MealRules
open ByteStrings StatefulActions StatefulActions.Act RecordModel LocalTimes KeyedTables PunchlineData PunchlineDb List
open PunchlineFrames ExceptionQueue Payroll Sync Lifecycle PairingRules BatchRules SettledRows Successors

instance : Std.Total earlier := ⟨fun a b=>by
 unfold earlier
 omega⟩

instance : IsTrans TimeEntry earlier := ⟨fun a b c=>by
 unfold earlier
 omega⟩

lemma time_le_of_earlier {a b:TimeEntry} (h:earlier a b) : a.deviceTime≤b.deviceTime := by
 unfold earlier at h
 omega

def currentOf (db:Db) (employeeId:ℤ) : List TimeEntry :=
 (db.timeEntries.rows.filter fun e=>e.employeeId=employeeId ∧ e.supersededBy=0).insertionSort earlier

section Lists
variable {db db':Db} {employeeId:ℤ} {e:TimeEntry}

lemma mem_currentOf : e∈currentOf db employeeId ↔ e∈db.timeEntries ∧ e.employeeId=employeeId ∧ e.supersededBy=0 := by
 unfold currentOf
 rw [mem_insertionSort,mem_filter,decide_eq_true_eq]
 exact Iff.rfl

lemma currentOf_sorted : (currentOf db employeeId).Pairwise earlier := pairwise_insertionSort _ _

lemma currentOf_times : (currentOf db employeeId).Pairwise fun a b=>a.deviceTime≤b.deviceTime :=
 currentOf_sorted.imp time_le_of_earlier

lemma rows_nodup (t:Table TimeEntry) : t.rows.Nodup := t.ordered.imp fun hab heq=>(heq ▸ hab).ne rfl

lemma currentOf_nodup : (currentOf db employeeId).Nodup :=
 (perm_insertionSort _ _).nodup_iff.mpr ((rows_nodup _).filter _)

lemma eq_of_rows {t:Table TimeEntry} {l l':List TimeEntry} (hl:l.Pairwise earlier) (hl':l'.Pairwise earlier)
 (hnodup:l.Nodup) (hnodup':l'.Nodup) (hrows:∀ e∈l,e∈t) (hmem:∀ e,e∈l ↔ e∈l') : l=l' := by
 refine List.Perm.eq_of_pairwise (fun a b ha hb hab hba=>?_) hl hl' ((perm_ext_iff_of_nodup hnodup hnodup').mpr hmem)
 have hid:a.id=b.id:=by
  unfold earlier at hab hba
  omega
 exact Table.eq_of_key (hrows a ha) (hrows b ((hmem b).mpr hb)) hid

end Lists

def marked (db:Db) (e:TimeEntry) : Bool := e.kind=.out ∧ (db.entryBreakCodes.get? e.id).isSome

/-- What the claims of a meal are: the punch it begins with, its beginning, and the punch and the time it ends with. -/
def outline (m:MealBreak) : ℤ × ℤ × ℤ × ℤ := (m.outEntryId,m.startedAt,m.inEntryId,m.endedAt)

def due (db:Db) (p:TimeEntry × Option TimeEntry) : Option (ℤ × ℤ × ℤ × ℤ) :=
 if marked db p.1 then
  match p.2.filter fun e=>e.kind=.in_ with
  | some e=>some (p.1.id,p.1.deviceTime,e.id,e.deviceTime)
  | none=>some (p.1.id,p.1.deviceTime,0,0)
 else none

def mealsOf (db:Db) (employeeId:ℤ) : List (ℤ × ℤ × ℤ × ℤ) :=
 (db.mealBreaks.rows.filter fun m=>m.employeeId=employeeId).map outline

/-- The employee's meals are those that the current punches begin, each once. -/
def Exact (db:Db) (employeeId:ℤ) : Prop :=
 (mealsOf db employeeId).Perm ((pairs (currentOf db employeeId) none).filterMap (due db))

instance (db:Db) (employeeId:ℤ) : Decidable (Exact db employeeId) := by
 unfold Exact
 infer_instance

lemma withNext_eq (l:List TimeEntry) : withNext l=pairs l none := by
 induction l with
 | nil=>rfl
 | cons e l ih=>rw [withNext,pairs,ih,Option.or_none]

section Rebuild
variable {db db':Db} {employeeId:ℤ}

lemma removeMeals_ok {l:List MealBreak} (hrun:forAll (fun m=>remove mealBreaks m.id) l db=(.ok (),db'))
 (m:MealBreak) : m∈db'.mealBreaks ↔ m∈db.mealBreaks ∧ m.id ∉ l.map MealBreak.id := by
 induction l generalizing db with
 | nil=>
  cases hrun
  simp
 | cons a l ih=>
  obtain ⟨_,db₁,hremove,hrest⟩:=bind_ok_inv hrun
  have herase:db₁.mealBreaks=db.mealBreaks.erase a.id:=by
   rw [(remove_ok hremove).2]
   rfl
  rw [ih hrest,herase,Table.mem_erase,map_cons,mem_cons,not_or,and_assoc]
  exact Iff.rfl

lemma removeMeal_ok {e:TimeEntry} (hrun:removeMeal e db=(.ok (),db')) (m:MealBreak) :
 m∈db'.mealBreaks ↔ m∈db.mealBreaks ∧ ¬(e.kind=.out ∧ m.outEntryId=e.id) := by
 unfold removeMeal at hrun
 split at hrun
 · rename_i hkind
   cases hrun
   tauto
 · rename_i hkind
   rw [bind_reads] at hrun
   rw [removeMeals_ok hrun]
   refine and_congr_right fun hm=>not_congr ?_
   rw [mem_map]
   constructor
   · rintro ⟨m',hm',hid⟩
     obtain ⟨hmem,hout⟩:=mem_filter.mp hm'
     rw [← Table.eq_of_key (t:=db.mealBreaks) hmem hm hid]
     exact ⟨not_not.mp hkind,of_decide_eq_true hout⟩
   · intro h
     exact ⟨m,mem_filter.mpr ⟨hm,decide_eq_true h.2⟩,rfl⟩

lemma removeAll_ok {l:List TimeEntry} (hrun:forAll removeMeal l db=(.ok (),db')) :
 db'.mealBreaks.rows=db.mealBreaks.rows.filter fun m=>∀ e∈l,¬(e.kind=.out ∧ m.outEntryId=e.id) := by
 have hmem:∀ m,m∈db'.mealBreaks ↔ m∈db.mealBreaks ∧ ∀ e∈l,¬(e.kind=.out ∧ m.outEntryId=e.id):=by
  intro m
  induction l generalizing db with
  | nil=>
   cases hrun
   simp
  | cons a l ih=>
   obtain ⟨_,db₁,hremove,hrest⟩:=bind_ok_inv hrun
   rw [ih hrest,removeMeal_ok hremove,forall_mem_cons,and_assoc]
 refine Ordered.ext db'.mealBreaks.ordered (db.mealBreaks.ordered.sublist filter_sublist) fun m=>?_
 rw [mem_filter,decide_eq_true_eq]
 exact hmem m

lemma outline_mealOf (out:TimeEntry) (next:Option TimeEntry) (code:Bytes) (lt:LocalTime) (id:ℤ)
 (hmarked:marked db out=true) : some (outline (mealOf db employeeId out next code lt id))=due db (out,next) := by
 unfold due mealOf
 rw [if_pos hmarked]
 dsimp only
 cases next.filter fun e=>e.kind=.in_ with
 | none=>rfl
 | some e=>
  cases premiumRuleAt db code lt.localDay with
  | none=>rfl
  | some rule=>rfl

lemma employee_mealOf (out:TimeEntry) (next:Option TimeEntry) (code:Bytes) (lt:LocalTime) (id:ℤ) :
 (mealOf db employeeId out next code lt id).employeeId=employeeId := by
 unfold mealOf
 dsimp only
 split
 · rfl
 · split
   · rfl
   · rfl

lemma id_mealOf (out:TimeEntry) (next:Option TimeEntry) (code:Bytes) (lt:LocalTime) (id:ℤ) :
 (mealOf db employeeId out next code lt id).id=id := by
 unfold mealOf
 dsimp only
 split
 · rfl
 · split
   · rfl
   · rfl

def Adds (employeeId:ℤ) (outlines:List (ℤ × ℤ × ℤ × ℤ)) (db db':Db) : Prop :=
 ∃ new:List MealBreak,db'.mealBreaks.rows=db.mealBreaks.rows++new ∧ new.map outline=outlines ∧
  ∀ m∈new,m.employeeId=employeeId

lemma Adds.trans {o o':List (ℤ × ℤ × ℤ × ℤ)} {db'':Db} (h:Adds employeeId o db db')
 (h':Adds employeeId o' db' db'') : Adds employeeId (o++o') db db'' := by
 obtain ⟨new,hrows,houtline,hemployee⟩:=h
 obtain ⟨new',hrows',houtline',hemployee'⟩:=h'
 refine ⟨new++new',by rw [hrows',hrows,append_assoc],by rw [map_append,houtline,houtline'],?_⟩
 intro m hm
 rcases mem_append.mp hm with hm | hm
 · exact hemployee m hm
 · exact hemployee' m hm

lemma Adds.none : Adds employeeId [] db db := ⟨[],(append_nil _).symm,rfl,fun _ hm=>nomatch hm⟩

lemma rebuildMeal_ok {p:TimeEntry × Option TimeEntry} {lt:LocalTime} (hparse:parseLocalTime p.1.localTime=.ok lt)
 (hrun:rebuildMeal employeeId p.1 p.2 db=(.ok (),db')) : Adds employeeId (due db p).toList db db' := by
 unfold rebuildMeal at hrun
 split at hrun
 · rename_i hkind
   cases hrun
   have hnot:marked db p.1=false:=decide_eq_false fun h=>hkind h.1
   unfold due
   rw [hnot]
   exact .none
 · rename_i hkind
   rw [bind_reads] at hrun
   cases hmark:db.entryBreakCodes.get? p.1.id with
   | none=>
    rw [hmark] at hrun
    cases hrun
    have hnot:marked db p.1=false:=decide_eq_false fun h=>by rw [hmark] at h; cases h.2
    unfold due
    rw [hnot]
    exact .none
   | some mark=>
    rw [hmark,hparse] at hrun
    dsimp only at hrun
    rw [nextId,bind_reads,bind_reads] at hrun
    have hmarked:marked db p.1=true:=decide_eq_true ⟨not_not.mp hkind,by rw [hmark]; rfl⟩
    rw [(insert_ok hrun).2,← outline_mealOf p.1 p.2 mark.breakCode lt (db.mealBreaks.lastKey+1) hmarked]
    refine ⟨[_],?_,rfl,fun m hm=>?_⟩
    · refine Table.rows_put_of_lastKey fun m hm=>?_
      show m.id<(mealOf db employeeId p.1 p.2 mark.breakCode lt (db.mealBreaks.lastKey+1)).id
      rw [id_mealOf]
      exact Int.lt_add_one_of_le (Table.key_le_lastKey hm)
    · rw [mem_singleton.mp hm]
      exact employee_mealOf _ _ _ _ _

def punched (db:Db) : Table TimeEntry × Table EntryBreakCode := (db.timeEntries,db.entryBreakCodes)

lemma due_congr (h:Same punched db db') : due db'=due db := by
 unfold due marked
 rw [(Prod.mk.inj h).2]

lemma rebuildAll_ok {l:List (TimeEntry × Option TimeEntry)} (hparse:∀ p∈l,∃ lt,parseLocalTime p.1.localTime=.ok lt)
 (hrun:forAll (fun p=>rebuildMeal employeeId p.1 p.2) l db=(.ok (),db')) :
 Adds employeeId (l.filterMap (due db)) db db' := by
 induction l generalizing db with
 | nil=>
  cases hrun
  exact .none
 | cons p l ih=>
  obtain ⟨_,db₁,hfirst,hrest⟩:=bind_ok_inv hrun
  obtain ⟨lt,hlt⟩:=hparse p mem_cons_self
  have hsame:Same punched db db₁:=(rebuildMeal_always (fun _ _=>rfl) employeeId p.1 p.2).ok hfirst
  have hlater:=ih (fun q hq=>hparse q (mem_cons_of_mem p hq)) hrest
  rw [due_congr hsame] at hlater
  have hboth:=(rebuildMeal_ok hlt hfirst).trans hlater
  rw [filterMap_cons]
  cases hdue:due db p with
  | none=>
   rw [hdue] at hboth
   exact hboth
  | some o=>
   rw [hdue] at hboth
   exact hboth

/-- The meals that a rebuild looks at: they begin with a current punch from a time on. -/
def begins (live:List TimeEntry) (m:MealBreak) : Bool := live.any fun e=>e.kind=.out ∧ m.outEntryId=e.id

lemma begins_iff {live:List TimeEntry} {m:MealBreak} : begins live m=true ↔ ∃ e∈live,e.kind=.out ∧ m.outEntryId=e.id := by
 unfold begins
 rw [any_eq_true]
 exact exists_congr fun e=>and_congr_right fun _=>decide_eq_true_iff

lemma entriesOf_current {fromUs:ℤ} (hbound:∀ e∈db.timeEntries,e.deviceTime<kForever/2) :
 (db.entriesOf employeeId fromUs (kForever/2)).filter (fun e=>e.supersededBy=0) =
  (currentOf db employeeId).filter fun e=>fromUs≤e.deviceTime := by
 have hmem:∀ e,e∈(db.entriesOf employeeId fromUs (kForever/2)).filter (fun e=>e.supersededBy=0) ↔
   e∈db.timeEntries ∧ e.employeeId=employeeId ∧ fromUs≤e.deviceTime ∧ e.supersededBy=0:=by
  intro e
  unfold Db.entriesOf
  rw [mem_filter,mem_insertionSort,mem_filter,decide_eq_true_eq,decide_eq_true_eq]
  constructor
  · rintro ⟨⟨he,hemployee,hfrom,-⟩,hcurrent⟩
    exact ⟨he,hemployee,hfrom,hcurrent⟩
  · rintro ⟨he,hemployee,hfrom,hcurrent⟩
    exact ⟨⟨he,hemployee,hfrom,hbound e he⟩,hcurrent⟩
 refine eq_of_rows (t:=db.timeEntries) ((pairwise_insertionSort _ _).filter _) (currentOf_sorted.filter _)
  (((perm_insertionSort _ _).nodup_iff.mpr ((rows_nodup _).filter _)).filter _) (currentOf_nodup.filter _)
  (fun e he=>((hmem e).mp he).1) fun e=>?_
 rw [hmem,mem_filter,mem_currentOf,decide_eq_true_eq]
 tauto

lemma rebuildMeals_ok {fromUs:ℤ} (hparse:∀ e∈db.timeEntries,∃ lt,parseLocalTime e.localTime=.ok lt)
 (hbound:∀ e∈db.timeEntries,e.deviceTime<kForever/2) (hrun:rebuildMeals employeeId fromUs db=(.ok (),db')) :
 ∃ new : List MealBreak,db'.mealBreaks.rows=(db.mealBreaks.rows.filter fun m=>
   !begins ((currentOf db employeeId).filter fun e=>fromUs-kDayUs≤e.deviceTime) m)++new ∧
  new.map outline=(pairs ((currentOf db employeeId).filter fun e=>fromUs-kDayUs≤e.deviceTime) none).filterMap
   (due db) ∧ ∀ m∈new,m.employeeId=employeeId := by
 unfold rebuildMeals at hrun
 rw [bind_reads,entriesOf_current hbound] at hrun
 obtain ⟨_,db₁,hremoved,hrebuilt⟩:=bind_ok_inv hrun
 have hsame:Same punched db db₁:=(forAll_always fun e _=>removeMeal_always (fun _ _=>rfl) e).ok hremoved
 rw [withNext_eq] at hrebuilt
 obtain ⟨new,hrows,houtlines,hemployee⟩:=rebuildAll_ok (fun p hp=>by
  have hlive:=mem_filter.mp (mem_of_mem_pairs hp)
  exact hparse p.1 (mem_currentOf.mp hlive.1).1) hrebuilt
 rw [due_congr hsame] at houtlines
 refine ⟨new,?_,houtlines,hemployee⟩
 rw [hrows,removeAll_ok hremoved]
 congr 1
 refine filter_congr fun m _=>?_
 rw [Bool.eq_iff_iff,decide_eq_true_eq,Bool.not_eq_true',← Bool.not_eq_true,begins_iff]
 exact ⟨fun h ⟨e,he,hbegins⟩=>h e he hbegins,fun h e he hbegins=>h ⟨e,he,hbegins⟩⟩

end Rebuild

/-- What every stored entry has, so that a meal is not missed. -/
structure Readable (db:Db) : Prop where
 parsed : ∀ e∈db.timeEntries,∃ lt,parseLocalTime e.localTime=.ok lt
 bounded : ∀ e∈db.timeEntries,e.deviceTime<kForever/2

/-- A change of one employee's punches from a time on. -/
structure Changed (employeeId t:ℤ) (db db':Db) : Prop where
 meals : db'.mealBreaks=db.mealBreaks
 others : ∀ e,e.employeeId≠employeeId → (e∈db'.timeEntries ↔ e∈db.timeEntries)
 before : ∀ e,e.deviceTime<t → e.supersededBy=0 → (e∈db'.timeEntries ↔ e∈db.timeEntries)
 /-- What is no longer current began no meal. -/
 gone : ∀ e∈currentOf db employeeId,marked db e=true → e∈db'.timeEntries
 marks : ∀ e∈db.timeEntries,db'.entryBreakCodes.get? e.id=db.entryBreakCodes.get? e.id

/-- The last current punch before a time, where it begins a meal, is at most a day earlier. -/
def WithinADay (db:Db) (employeeId t:ℤ) : Prop :=
 ∀ e∈((currentOf db employeeId).filter fun e=>e.deviceTime<t).getLast?,marked db e=true →
  t-kDayUs ≤ e.deviceTime

instance (db:Db) (employeeId t:ℤ) : Decidable (WithinADay db employeeId t) := by
 unfold WithinADay
 infer_instance

section Change
variable {db db₁ db':Db} {employeeId t fromUs:ℤ}

lemma Exact.mem_of_meal (h:Exact db employeeId) {m:MealBreak} (hm:m∈db.mealBreaks)
 (hemployee:m.employeeId=employeeId) : ∃ e∈currentOf db employeeId,marked db e=true ∧ m.outEntryId=e.id := by
 have hmem:outline m∈mealsOf db employeeId:=
  mem_map_of_mem (mem_filter.mpr ⟨hm,decide_eq_true hemployee⟩)
 obtain ⟨p,hp,hdue⟩:=mem_filterMap.mp (h.mem_iff.mp hmem)
 unfold due at hdue
 split at hdue
 · rename_i hmarked
   refine ⟨p.1,mem_of_mem_pairs hp,hmarked,?_⟩
   split at hdue
   · exact (Prod.mk.inj (Option.some.inj hdue)).1.symm
   · exact (Prod.mk.inj (Option.some.inj hdue)).1.symm
 · cases hdue

lemma Changed.marked_eq (h:Changed employeeId t db db₁) {e:TimeEntry} (he:e∈db.timeEntries) : marked db₁ e=marked db e := by
 unfold marked
 rw [h.marks e he]

lemma Changed.due_eq (h:Changed employeeId t db db₁) {l:List TimeEntry} (hl:∀ e∈l,e∈db.timeEntries)
 (next:Option TimeEntry) : (pairs l next).filterMap (due db)=(pairs l next).filterMap (due db₁) := by
 refine filterMap_congr fun p hp=>?_
 unfold due
 rw [h.marked_eq (hl p.1 (mem_of_mem_pairs hp))]

lemma Changed.current_before (h:Changed employeeId t db db₁) : ((currentOf db employeeId).filter fun e=>e.deviceTime<t) =
  (currentOf db₁ employeeId).filter fun e=>e.deviceTime<t := by
 refine eq_of_rows (t:=db.timeEntries) (currentOf_sorted.filter _) (currentOf_sorted.filter _) (currentOf_nodup.filter _)
  (currentOf_nodup.filter _) (fun e he=>(mem_currentOf.mp (mem_filter.mp he).1).1) fun e=>?_
 rw [mem_filter,mem_filter,mem_currentOf,mem_currentOf,decide_eq_true_eq]
 constructor
 · rintro ⟨⟨he,hemployee,hcurrent⟩,htime⟩
   exact ⟨⟨(h.before e htime hcurrent).mpr he,hemployee,hcurrent⟩,htime⟩
 · rintro ⟨⟨he,hemployee,hcurrent⟩,htime⟩
   exact ⟨⟨(h.before e htime hcurrent).mp he,hemployee,hcurrent⟩,htime⟩

lemma Changed.current_others (h:Changed employeeId t db db₁) {other:ℤ} (hother:other≠employeeId) :
 currentOf db₁ other=currentOf db other := by
 refine eq_of_rows (t:=db₁.timeEntries) currentOf_sorted currentOf_sorted currentOf_nodup currentOf_nodup
  (fun e he=>(mem_currentOf.mp he).1) fun e=>?_
 rw [mem_currentOf,mem_currentOf]
 constructor
 · rintro ⟨he,rfl,hcurrent⟩
   exact ⟨(h.others e hother).mp he,rfl,hcurrent⟩
 · rintro ⟨he,rfl,hcurrent⟩
   exact ⟨(h.others e hother).mpr he,rfl,hcurrent⟩

def spared (live:List TimeEntry) (o:ℤ × ℤ × ℤ × ℤ) : Bool := !live.any fun e=>e.kind=.out ∧ o.1=e.id

lemma spared_iff {live:List TimeEntry} {o:ℤ × ℤ × ℤ × ℤ} : spared live o=true ↔ ∀ e∈live,¬(e.kind=.out ∧ o.1=e.id) := by
 unfold spared
 simp

lemma due_some {p:TimeEntry × Option TimeEntry} {o:ℤ × ℤ × ℤ × ℤ} (h:due db p=some o) : marked db p.1=true ∧ o.1=p.1.id := by
 unfold due at h
 split at h
 · rename_i hmarked
   refine ⟨hmarked,?_⟩
   split at h
   · rw [← Option.some.inj h]
   · rw [← Option.some.inj h]
 · cases h

lemma Changed.kept (h:Changed employeeId t db db₁) {w:ℤ} (hday:WithinADay db employeeId t) (hwt:w≤t-kDayUs) :
 ∃ next,(((pairs (currentOf db employeeId) none).filterMap (due db)).filter
   (spared ((currentOf db₁ employeeId).filter fun e=>w≤e.deviceTime))) =
    (pairs ((currentOf db employeeId).filter fun e=>e.deviceTime<w) next).filterMap (due db₁) ∧
  (pairs (currentOf db₁ employeeId) none).filterMap (due db₁) =
   (pairs ((currentOf db employeeId).filter fun e=>e.deviceTime<w) next).filterMap (due db₁) ++
    (pairs ((currentOf db₁ employeeId).filter fun e=>w≤e.deviceTime) none).filterMap (due db₁) := by
 have hw:w≤t:=by
  unfold kDayUs at hwt
  omega
 have hlast:∀ e∈((currentOf db employeeId).filter fun e=>e.deviceTime<t).getLast?,e.deviceTime<w →
   ∀ n,due db₁ (e,n)=none:=by
  intro e he hearly n
  have hmem:=(mem_currentOf.mp (mem_filter.mp (mem_of_getLast? he)).1).1
  have hnot:¬marked db e=true:=fun hmarked=>by
   have:=hday e he hmarked
   omega
  unfold due
  rw [h.marked_eq hmem,if_neg hnot]
 obtain ⟨next,hold,hnew⟩:=filterMap_pairs_agree (g:=due db₁) hw currentOf_times currentOf_times h.current_before hlast
 refine ⟨next,?_,hnew⟩
 rw [h.due_eq fun e he=>(mem_currentOf.mp he).1,hold,filter_append]
 have hearly:∀ o∈(pairs ((currentOf db employeeId).filter fun e=>e.deviceTime<w) next).filterMap (due db₁),
   spared ((currentOf db₁ employeeId).filter fun e=>w≤e.deviceTime) o=true:=by
  intro o ho
  obtain ⟨p,hp,hdue⟩:=mem_filterMap.mp ho
  obtain ⟨hcurrent,htime⟩:=mem_filter.mp (mem_of_mem_pairs hp)
  obtain ⟨he,-,hlive⟩:=mem_currentOf.mp hcurrent
  have htime:=of_decide_eq_true htime
  refine spared_iff.mpr fun e hlate hbegins=>?_
  obtain ⟨hcurrent',htime'⟩:=mem_filter.mp hlate
  have hsame:p.1=e:=Table.eq_of_key ((h.before p.1 (by omega) hlive).mpr he) (mem_currentOf.mp hcurrent').1
   ((due_some hdue).2.symm.trans hbegins.2)
  have htime':=of_decide_eq_true htime'
  rw [hsame] at htime
  omega
 have hlate:∀ o∈(pairs ((currentOf db employeeId).filter fun e=>w≤e.deviceTime) none).filterMap (due db₁),
   ¬spared ((currentOf db₁ employeeId).filter fun e=>w≤e.deviceTime) o=true:=by
  intro o ho hspared
  obtain ⟨p,hp,hdue⟩:=mem_filterMap.mp ho
  obtain ⟨hcurrent,htime⟩:=mem_filter.mp (mem_of_mem_pairs hp)
  obtain ⟨he,hemployee,hlive⟩:=mem_currentOf.mp hcurrent
  obtain ⟨hmarked,hid⟩:=due_some hdue
  rw [h.marked_eq he] at hmarked
  refine spared_iff.mp hspared p.1 (mem_filter.mpr ⟨?_,htime⟩) ⟨(of_decide_eq_true hmarked).1,hid⟩
  exact mem_currentOf.mpr ⟨h.gone p.1 hcurrent hmarked,hemployee,hlive⟩
 rw [filter_eq_self.mpr hearly,filter_eq_nil_iff.mpr hlate,append_nil]

lemma exact_rebuilt (hexact:∀ employeeId,Exact db employeeId) (h:Changed employeeId t db db₁)
 (hread:Readable db₁) (hday:WithinADay db employeeId t) (hfrom:fromUs≤t)
 (hrun:rebuildMeals employeeId fromUs db₁=(.ok (),db')) (other:ℤ) : Exact db' other := by
 have hsame:Same punched db₁ db':=(rebuildMeals_always (fun _ _=>rfl) employeeId fromUs).ok hrun
 have hcurrent:∀ other,currentOf db' other=currentOf db₁ other:=by
  intro other
  unfold currentOf
  rw [(Prod.mk.inj hsame).1]
 obtain ⟨new,hrows,houtlines,hemployee⟩:=rebuildMeals_ok hread.parsed hread.bounded hrun
 unfold Exact
 rw [hcurrent,due_congr hsame]
 rw [h.meals] at hrows
 by_cases hother:other=employeeId
 · subst other
   obtain ⟨next,hkept,hnow⟩:=h.kept hday (w:=fromUs-kDayUs) (by omega)
   have hmeals:mealsOf db' employeeId=(mealsOf db employeeId).filter
     (spared ((currentOf db₁ employeeId).filter fun e=>fromUs-kDayUs≤e.deviceTime)) ++
      (pairs ((currentOf db₁ employeeId).filter fun e=>fromUs-kDayUs≤e.deviceTime) none).filterMap (due db₁):=by
    unfold mealsOf
    rw [hrows,filter_append,map_append,filter_eq_self.mpr fun m hm=>decide_eq_true (hemployee m hm),
     houtlines,filter_map,filter_comm]
    rfl
   rw [hmeals,hnow,← hkept]
   exact ((hexact employeeId).filter _).append_right _
 · have hmeals:mealsOf db' other=mealsOf db other:=by
    unfold mealsOf
    have hnew:new.filter (fun m=>m.employeeId=other)=[]:=
     filter_eq_nil_iff.mpr fun m hm hmine=>hother ((of_decide_eq_true hmine).symm.trans (hemployee m hm))
    rw [hrows,filter_append,hnew,append_nil,filter_filter]
    refine congrArg (map outline) (filter_congr fun m hm=>?_)
    refine Bool.and_eq_left_iff_imp.mpr fun hmine=>?_
    -- the punch that begins it is the other employee's
    obtain ⟨e,he,-,hid⟩:=(hexact other).mem_of_meal hm (of_decide_eq_true hmine)
    obtain ⟨he,hwhose,-⟩:=mem_currentOf.mp he
    rw [Bool.not_eq_true',← Bool.not_eq_true]
    intro hbegins
    obtain ⟨e',hlive,-,hid'⟩:=begins_iff.mp hbegins
    obtain ⟨he',hwhose',-⟩:=mem_currentOf.mp (mem_filter.mp hlive).1
    have hsame:e=e':=Table.eq_of_key ((h.others e (by rwa [hwhose])).mpr he) he' (hid.symm.trans hid')
    rw [hsame,hwhose'] at hwhose
    exact hother hwhose.symm
   rw [hmeals,h.current_others hother,← h.due_eq fun e he=>(mem_currentOf.mp he).1]
   exact hexact other

end Change

end Archivum.MealRules
