import Archivum.PunchlineDb

set_option autoImplicit false

/-!
# Changing one column of a row

A column that no check and no reference mentions may take any value of its
type.
-/
namespace Archivum.RowChanges
open ByteStrings StatefulActions PageTxn BTreeModel RecordModel TableDefs StoreModel RowRules KeyedTables PunchlineData
open PunchlineDb

lemma seq_error {m m':Except Status Unit} {e:Status} (h:(m >>= fun _=>m')=.error e) : m=.error e ∨ m'=.error e := by
 cases m with
 | error e'=>exact .inl h
 | ok u=>exact .inr h

lemma allOk_error {α:Type} {f:α → Except Status Unit} {l:List α} {e:Status} (h:allOk f l=.error e) : ∃ a∈l,f a=.error e := by
 induction l with
 | nil=>cases h
 | cons a l ih=>
  rcases seq_error h with hfirst | hrest
  · exact ⟨a,List.mem_cons_self,hfirst⟩
  · obtain ⟨b,hb,hfails⟩:=ih hrest
    exact ⟨b,List.mem_cons_of_mem a hb,hfails⟩

lemma validateRow_iff {t:TableDef} {row:Row} : validateRow t row=.ok () ↔ row.length=t.columns.length ∧
 (∀ p∈t.columns.zip row,validateValue t p.1 p.2=.ok ()) ∧ ∀ c∈t.checks,checkHolds t c row=true := by
 unfold validateRow
 by_cases hlen:row.length=t.columns.length
 · rw [if_neg (not_not.mpr hlen)]
   change (allOk _ _ >>= fun _=>allOk _ _)=.ok () ↔ _
   have hcheck:∀ c,(if checkHolds t c row then .ok ()
     else .error (constraint ("check " ++ text c.name ++ " on " ++ text t.name)):Except Status Unit)=.ok () ↔
     checkHolds t c row=true:=by
    intro c
    split
    · rename_i h
      exact iff_of_true rfl h
    · rename_i h
      exact iff_of_false nofun h
   rw [seq_ok,allOk_iff,allOk_iff,forall₂_congr fun c _=>hcheck c]
   exact ⟨fun h=>⟨hlen,h⟩,fun h=>h.2⟩
 · rw [if_pos hlen]
   exact ⟨nofun,fun h=>absurd h.1 hlen⟩

section Values
variable (t:TableDef) (name:String)

end Values

section Column
variable {t:TableDef} {row:Row} {i:ℕ} {v:Value}

end Column

end Archivum.RowChanges
