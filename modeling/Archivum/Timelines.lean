import Archivum.KeyedTables

set_option autoImplicit false

/-!
# Rows that are in force at some instants

A table where each owner has at most one row in force at an instant: a lookup by
instant does not depend on the order of the rows.
-/
namespace Archivum.Timelines
open KeyedTables List

variable {α ι:Type}

def AtMostOne (p:α → Bool) (rows:List α) : Prop :=
 ∀ a∈rows,∀ b∈rows,p a=true → p b=true → a=b

namespace AtMostOne
variable {p:α → Bool} {rows:List α}

lemma find?_eq_some (h:AtMostOne p rows) {a:α} : rows.find? p=some a ↔ a∈rows ∧ p a=true := by
 constructor
 · intro hfind
   exact ⟨mem_of_find?_eq_some hfind,find?_some hfind⟩
 · intro ⟨ha,hp⟩
   cases hfind:rows.find? p with
   | none=>exact absurd hp (find?_eq_none.mp hfind a ha)
   | some b=>rw [h b (mem_of_find?_eq_some hfind) a ha (find?_some hfind) hp]

lemma getLast?_eq_some (h:AtMostOne p rows) {a:α} : (rows.filter p).getLast? = some a ↔ a∈rows ∧ p a=true := by
 constructor
 · intro hlast
   exact mem_filter.mp (mem_of_getLast? hlast)
 · intro ⟨ha,hp⟩
   have hmem:a∈rows.filter p:=mem_filter.mpr ⟨ha,hp⟩
   cases hlast:(rows.filter p).getLast? with
   | none=>exact absurd (getLast?_eq_none_iff.mp hlast) (ne_nil_of_mem hmem)
   | some b=>
    obtain ⟨hb,hpb⟩:=mem_filter.mp (mem_of_getLast? hlast)
    rw [h b hb a ha hpb hp]

lemma congr (h:AtMostOne p rows) {rows':List α} (hmem:∀ a,a∈rows' ↔ a∈rows) : AtMostOne p rows' :=
 fun a ha b hb=>h a ((hmem a).mp ha) b ((hmem b).mp hb)

lemma find?_congr (h:AtMostOne p rows) {rows':List α} (hmem:∀ a,a∈rows' ↔ a∈rows) : rows'.find? p=rows.find? p := by
 ext a
 rw [h.find?_eq_some,(h.congr hmem).find?_eq_some,hmem]

lemma getLast?_congr (h:AtMostOne p rows) {rows':List α} (hmem:∀ a,a∈rows' ↔ a∈rows) :
 (rows'.filter p).getLast? = (rows.filter p).getLast? := by
 ext a
 rw [h.getLast?_eq_some,(h.congr hmem).getLast?_eq_some,hmem]

end AtMostOne

def OneAt [Keyed α] (owner:α → ℤ) (inForce:α → ι → Bool) (t:Table α) : Prop :=
 ∀ a∈t,∀ b∈t,owner a=owner b → ∀ i,inForce a i=true → inForce b i=true → a=b

section Tables
variable [Keyed α] {owner:α → ℤ} {inForce:α → ι → Bool} {t:Table α}

lemma oneAt_of_empty (h:t.rows=[]) : OneAt owner inForce t := by
 intro a ha
 rw [Table.mem_def,h] at ha
 cases ha

lemma OneAt.put (h:OneAt owner inForce t) {n:α}
 (hn:∀ a∈t,owner a=owner n → ∀ i,inForce a i=true → inForce n i=false) : OneAt owner inForce (t.put n) := by
 intro a ha b hb howner i hai hbi
 rcases Table.mem_put.mp ha with rfl | ⟨hold,-⟩
 · rcases Table.mem_put.mp hb with rfl | ⟨hold,-⟩
   · rfl
   · exact absurd hai (by rw [hn b hold howner.symm i hbi]; decide)
 · rcases Table.mem_put.mp hb with rfl | ⟨hold',-⟩
   · exact absurd hbi (by rw [hn a hold howner i hai]; decide)
   · exact h a hold b hold' howner i hai hbi

lemma OneAt.ofOwner (h:OneAt owner inForce t) (who:ℤ) (i:ι) :
 AtMostOne (fun a=>inForce a i) (t.rows.filter fun a=>owner a=who) := by
 intro a ha b hb hai hbi
 obtain ⟨ha,hwa⟩:=mem_filter.mp ha
 obtain ⟨hb,hwb⟩:=mem_filter.mp hb
 exact h a ha b hb ((of_decide_eq_true hwa).trans (of_decide_eq_true hwb).symm) i hai hbi

end Tables

end Archivum.Timelines
