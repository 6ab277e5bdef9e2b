import Archivum.PunchlineFrames

set_option autoImplicit false

/-!
# Open exceptions

What opening and resolving do to the set of open exceptions, and the relation
that follows from it for any sequence of both.
-/
namespace Archivum.ExceptionRules
open ByteStrings StatefulActions StatefulActions.Act KeyedTables PunchlineData PunchlineDb PunchlineFrames
open ExceptionQueue

def OpenIn (db:Db) (x:Exception) : Prop := x∈db.exceptions ∧ x.state=.open_

/-- Exceptions that are open after were open before or are of the given sort. -/
def OnlyOpens (P:Exception → Prop) (db db':Db) : Prop := ∀ x,OpenIn db' x → OpenIn db x ∨ P x

instance (P:Exception → Prop) : IsPreorder Db (OnlyOpens P) where
 refl _ _ h := .inl h
 trans _ _ _ h h' x hx:=(h' x hx).elim (fun hx=>h x hx) .inr

lemma onlyOpens_mono {P Q:Exception → Prop} {db db':Db} (h:OnlyOpens P db db') (hPQ:∀ x,P x → Q x) :
 OnlyOpens Q db db' := fun x hx=>(h x hx).imp_right (hPQ x)

lemma ignores_onlyOpens {α:Type} [Keyed α] {T:Entity α} (h:∀ t db,(T.set t db).exceptions=db.exceptions)
 (P:Exception → Prop) : Ignores T (OnlyOpens P) := by
 intro t db x hx
 unfold OpenIn at hx
 rw [h] at hx
 exact .inl hx

section Queue
variable {db db':Db} {k:ExceptionKey} {env:Env} {x:Exception}

lemma mem_openOnes : x∈openOnes db ↔ OpenIn db x := by
 unfold openOnes
 rw [List.mem_insertionSort,List.mem_filter,decide_eq_true_eq]
 exact Iff.rfl

lemma mem_openMatching : x∈openMatching db k ↔ OpenIn db x ∧ isAbout k x=true := by
 unfold openMatching
 rw [List.mem_filter,mem_openOnes]

lemma isAbout_iff : isAbout k x=true ↔ x.kind=k.kind ∧ x.employeeId=k.employeeId ∧ x.deviceId=k.deviceId ∧
 x.entryId=k.entryId ∧ x.periodId=k.periodId := by
 unfold isAbout
 rw [decide_eq_true_eq]

lemma openIn_put (new:Exception) : OpenIn { db with exceptions:=db.exceptions.put new } x ↔
  x=new ∧ new.state=.open_ ∨ OpenIn db x ∧ x.id≠new.id := by
 unfold OpenIn
 rw [Table.mem_put]
 constructor
 · rintro ⟨rfl | ⟨hx,hne⟩,hopen⟩
   · exact .inl ⟨rfl,hopen⟩
   · exact .inr ⟨⟨hx,hopen⟩,hne⟩
 · rintro (⟨rfl,hopen⟩ | ⟨⟨hx,hopen⟩,hne⟩)
   · exact ⟨.inl rfl,hopen⟩
   · exact ⟨.inr ⟨hx,hne⟩,hopen⟩

def newException (env:Env) (k:ExceptionKey) (detail:Bytes) (id:ℤ) : Exception :=
 { id,kind:=k.kind,employeeId:=k.employeeId,deviceId:=k.deviceId,entryId:=k.entryId
   periodId:=k.periodId,detail,openedAt:=env.now }

lemma isAbout_new (env:Env) (k:ExceptionKey) (detail:Bytes) (id:ℤ) :
 isAbout k (newException env k detail id)=true := isAbout_iff.mpr ⟨rfl,rfl,rfl,rfl,rfl⟩

lemma openException_onlyOpens (detail:Bytes) : Always (OnlyOpens fun x=>isAbout k x=true) (openException env k detail) := by
 intro db
 unfold openException
 refine Follows.bind_reads ?_
 cases openMatching db k with
 | cons x rest=>exact Follows.pure _
 | nil=>
  refine Follows.bind_reads (Follows.bind (insert_follows fun _ x hx=>?_) fun _ _ _=>Follows.pure _)
  rcases (openIn_put _).mp hx with ⟨rfl,-⟩ | ⟨hx,-⟩
  · exact .inr (isAbout_new env k detail _)
  · exact .inl hx

lemma flag_onlyOpens (detail:Bytes) : Always (OnlyOpens fun x=>isAbout k x=true) (Sync.flag env k detail) :=
 .bind (openException_onlyOpens detail) fun _=>.pure _

lemma closeException_ok {id:ℤ} {state:ExceptionState} {by_:Bytes} (hstate:state≠.open_)
 (hrun:closeException env id state by_ db=(.ok (),db')) :
 (∃ x,OpenIn db x ∧ x.id=id) ∧ ∀ x,OpenIn db' x ↔ OpenIn db x ∧ x.id≠id := by
 unfold closeException at hrun
 rw [bind_reads] at hrun
 cases hget:db.exceptionById id with
 | none=>
  rw [hget] at hrun
  cases hrun
 | some x=>
  rw [hget] at hrun
  dsimp only at hrun
  obtain ⟨hx,hid⟩:=Table.get?_eq_some.mp hget
  by_cases hopen:x.state=.open_
  · rw [if_neg (not_not.mpr hopen)] at hrun
    rw [(update_ok hrun).2]
    refine ⟨⟨x,⟨hx,hopen⟩,hid⟩,fun y=>(openIn_put _).trans ?_⟩
    constructor
    · rintro (⟨-,hnew⟩ | ⟨hy,hne⟩)
      · exact absurd hnew hstate
      · exact ⟨hy,fun hyid=>hne (hyid.trans hid.symm)⟩
    · rintro ⟨hy,hne⟩
      exact .inr ⟨hy,fun hyid=>hne (hyid.trans hid)⟩
  · rw [if_pos hopen] at hrun
    cases hrun

lemma closeAll_ok {by_:Bytes} {l:List Exception} {state:ExceptionState} (hstate:state≠.open_)
 (hrun:forAll (fun x=>closeException env x.id state by_) l db=(.ok (),db')) :
 ∀ x,OpenIn db' x ↔ OpenIn db x ∧ x.id ∉ l.map Exception.id := by
 induction l generalizing db with
 | nil=>
  cases hrun
  intro x
  simp
 | cons y l ih=>
  obtain ⟨_,s,hclose,hrest⟩:=bind_ok_inv hrun
  intro x
  rw [ih hrest x,(closeException_ok hstate hclose).2 x,List.map_cons,List.mem_cons,not_or,and_assoc]

lemma resolveMatching_ok {by_:Bytes} {n:ℕ} (hrun:resolveMatching env k by_ db=(.ok n,db')) (x:Exception) :
 OpenIn db' x ↔ OpenIn db x ∧ isAbout k x=false := by
 unfold resolveMatching at hrun
 rw [bind_reads] at hrun
 obtain ⟨_,s,hclose,hrun⟩:=bind_ok_inv hrun
 cases hrun
 rw [closeAll_ok (by decide) hclose x]
 refine and_congr_right fun hx=>?_
 rw [← Bool.not_eq_true,not_iff_not,List.mem_map]
 constructor
 · rintro ⟨y,hy,hid⟩
   obtain ⟨hyopen,habout⟩:=mem_openMatching.mp hy
   rwa [Table.eq_of_key hx.1 hyopen.1 hid.symm]
 · intro habout
   exact ⟨x,mem_openMatching.mpr ⟨hx,habout⟩,rfl⟩

lemma closeException_onlyOpens (P:Exception → Prop) {state:ExceptionState} (hstate:state≠.open_) (id:ℤ)
 (by_:Bytes) : Always (OnlyOpens P) (closeException env id state by_) := by
 intro db
 unfold closeException
 refine Follows.bind_reads ?_
 cases db.exceptionById id with
 | none=>exact Follows.fail _
 | some x=>
  refine Follows.ite (fun _=>Follows.fail _) fun _=>update_follows fun _ _ y hy=>?_
  rcases (openIn_put _).mp hy with ⟨-,hopen⟩ | ⟨hy,-⟩
  · exact absurd hopen hstate
  · exact .inl hy

lemma resolveMatching_onlyOpens (P:Exception → Prop) (by_:Bytes) : Always (OnlyOpens P) (resolveMatching env k by_) :=
 .bind (.reads _) fun _=>
  .bind (forAll_always fun x _=>closeException_onlyOpens P (by decide) x.id by_) fun _=>.pure _

end Queue

end Archivum.ExceptionRules
