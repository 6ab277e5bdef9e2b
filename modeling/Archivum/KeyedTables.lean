import Mathlib

set_option autoImplicit false

/-!
# Tables in the order of an integer key

A table is the list of its rows in ascending key order, no two with the same
key. Two tables with the same rows are equal, and so are two selections of them.
-/
namespace Archivum.KeyedTables
open List

/-- A row that carries its key. -/
class Keyed (α:Type) where
 key : α → ℤ

export Keyed (key)

variable {α:Type} [Keyed α]

def Ordered (rows:List α) : Prop := rows.Pairwise fun a b=>key a<key b

instance (rows:List α) : Decidable (Ordered rows) :=
 inferInstanceAs (Decidable (rows.Pairwise fun a b=>key a<key b))

/-- The row in its place, instead of the one with the same key if there is one. -/
def putRow (a:α) : List α → List α
 | []=>[a]
 | b::rows=>
  if key a<key b then a::b::rows
  else if key a=key b then a::rows
  else b::putRow a rows

namespace Ordered

lemma eq_of_key {rows:List α} (h:Ordered rows) {a b:α} (ha:a∈rows) (hb:b∈rows) (hkey:key a=key b) : a=b := by
 induction rows with
 | nil=>cases ha
 | cons c rows ih=>
  have hc:=pairwise_cons.mp h
  rcases mem_cons.mp ha with rfl | ha'
  · rcases mem_cons.mp hb with rfl | hb'
    · rfl
    · exact absurd hkey (hc.1 b hb').ne
  · rcases mem_cons.mp hb with rfl | hb'
    · exact absurd hkey.symm (hc.1 a ha').ne
    · exact ih hc.2 ha' hb'

lemma ext {rows rows':List α} (h:Ordered rows) (h':Ordered rows') (hmem:∀ a,a∈rows ↔ a∈rows') : rows=rows' := by
 have hnd:∀ {l:List α},Ordered l → l.Nodup:=fun hl=>
  hl.imp fun hab heq=>(heq ▸ hab).ne rfl
 exact List.Perm.eq_of_pairwise (fun a b _ _ hab hba=>absurd hab hba.asymm) h h'
  ((perm_ext_iff_of_nodup (hnd h) (hnd h')).mpr hmem)

lemma mem_putRow {rows:List α} (h:Ordered rows) (a b:α) : b∈putRow a rows ↔ b=a ∨ b∈rows ∧ key b≠key a := by
 induction rows with
 | nil=>simp [putRow]
 | cons c rows ih=>
  have hc:=pairwise_cons.mp h
  have hrest:key a≤key c → b∈rows → key b≠key a:=fun hac hb=>
   (hac.trans_lt (hc.1 b hb)).ne'
  rw [putRow]
  by_cases hlt:key a<key c
  · rw [if_pos hlt]
    have hne:b=c → key b≠key a:=fun hb=>hb ▸ hlt.ne'
    grind
  · rw [if_neg hlt]
    by_cases heq:key a=key c
    · rw [if_pos heq]
      grind
    · rw [if_neg heq,mem_cons,ih hc.2]
      grind

lemma putRow {rows:List α} (h:Ordered rows) (a:α) : Ordered (putRow a rows) := by
 induction rows with
 | nil=>exact pairwise_singleton _ _
 | cons c rows ih=>
  have hc:=pairwise_cons.mp h
  unfold KeyedTables.putRow
  by_cases hlt:key a<key c
  · rw [if_pos hlt]
    exact pairwise_cons.mpr ⟨fun b hb=>(mem_cons.mp hb).elim (fun e=>e ▸ hlt) fun hb=>hlt.trans (hc.1 b hb),h⟩
  · rw [if_neg hlt]
    by_cases heq:key a=key c
    · rw [if_pos heq]
      exact pairwise_cons.mpr ⟨fun b hb=>heq ▸ hc.1 b hb,hc.2⟩
    · rw [if_neg heq]
      refine pairwise_cons.mpr ⟨fun b hb=>?_,ih hc.2⟩
      rcases (mem_putRow hc.2 a b).mp hb with rfl | ⟨hb,_⟩
      · omega
      · exact hc.1 b hb

lemma key_le_getLast {rows:List α} (hord:Ordered rows) {a:α} (ha:a∈rows) : key a≤(rows.getLast?.map key).getD 0 := by
 induction rows generalizing a with
 | nil=>cases ha
 | cons c rows ih=>
  have hc:=pairwise_cons.mp hord
  cases rows with
  | nil=>
   rw [mem_singleton.mp ha]
   exact le_refl _
  | cons d rows=>
   rw [getLast?_cons_cons]
   rcases mem_cons.mp ha with rfl | ha'
   · exact (hc.1 d mem_cons_self).le.trans (ih hc.2 mem_cons_self)
   · exact ih hc.2 ha'

end Ordered

@[ext] structure Table (α:Type) [Keyed α] where
 rows : List α := []
 ordered:Ordered rows:=by decide

namespace Table

variable {t t':Table α} {a b:α} {k:ℤ} {p:α → Bool}

instance : Inhabited (Table α) := ⟨{ rows:=[],ordered:=List.Pairwise.nil }⟩

instance : Membership α (Table α) := ⟨fun t a=>a∈t.rows⟩

instance [DecidableEq α] : DecidableEq (Table α) := fun t t'=>
 decidable_of_iff (t.rows=t'.rows) Table.ext_iff.symm

instance [DecidableEq α] (a:α) (t:Table α) : Decidable (a∈t) :=
 inferInstanceAs (Decidable (a∈t.rows))

lemma mem_rows : a∈t.rows ↔ a∈t := Iff.rfl

def get? (t:Table α) (k:ℤ) : Option α := t.rows.find? fun a=>key a == k

def put (t:Table α) (a:α) : Table α := ⟨putRow a t.rows,t.ordered.putRow a⟩

def erase (t:Table α) (k:ℤ) : Table α :=
 ⟨t.rows.filter fun a=>key a != k,t.ordered.sublist filter_sublist⟩

def lastKey (t:Table α) : ℤ := (t.rows.getLast?.map key).getD 0

lemma mem_def : a∈t ↔ a∈t.rows := Iff.rfl

lemma eq_of_key (ha:a∈t) (hb:b∈t) (h:key a=key b) : a=b :=
 t.ordered.eq_of_key ha hb h

lemma ext_mem (h:∀ a,a∈t ↔ a∈t') : t=t' := Table.ext (t.ordered.ext t'.ordered h)

@[simp] lemma mem_put : b∈t.put a ↔ b=a ∨ b∈t ∧ key b≠key a := t.ordered.mem_putRow a b

@[simp] lemma mem_erase : b∈t.erase k ↔ b∈t ∧ key b≠k := by
 simp [mem_def,erase]

lemma get?_eq_some : t.get? k=some a ↔ a∈t ∧ key a=k := by
 constructor
 · intro h
   exact ⟨mem_of_find?_eq_some h,by simpa using find?_some h⟩
 · rintro ⟨ha,hk⟩
   cases hfind:t.get? k with
   | none=>
    have:=find?_eq_none.mp hfind a ha
    simp [hk] at this
   | some b=>
    have hb:key b=k:=by simpa using find?_some hfind
    rw [eq_of_key (mem_of_find?_eq_some hfind) ha (hb.trans hk.symm)]

lemma get?_eq_none : t.get? k=none ↔ ∀ a∈t,key a≠k := by
 simp [get?,mem_def]

lemma key_le_lastKey (ha:a∈t) : key a≤t.lastKey := t.ordered.key_le_getLast ha

lemma lastKey_nonneg (h:∀ a∈t,0<key a) : 0≤t.lastKey := by
 unfold lastKey
 cases hlast:t.rows.getLast? with
 | none=>exact le_rfl
 | some a=>exact (h a (mem_of_getLast? hlast)).le

lemma rows_put_of_lastKey (h:∀ b∈t,key b<key a) : (t.put a).rows=t.rows++[a] := by
 refine Ordered.ext (t.put a).ordered ?_ fun b=>?_
 · exact pairwise_append.mpr ⟨t.ordered,pairwise_singleton _ _,fun b hb c hc=>mem_singleton.mp hc ▸ h b hb⟩
 · rw [← mem_def,mem_put,mem_append,mem_singleton,mem_def,or_comm]
   exact or_congr_left (and_iff_left_of_imp fun hb=>(h b hb).ne)

lemma lastKey_put (h:∀ b∈t,key b<key a) : (t.put a).lastKey=key a := by
 unfold lastKey
 rw [rows_put_of_lastKey h,getLast?_concat]
 rfl

lemma mem_put_of_ne (hb:b∈t) (h:key b≠key a) : b∈t.put a := mem_put.mpr (.inr ⟨hb,h⟩)

lemma mem_put_self : a∈t.put a := mem_put.mpr (.inl rfl)

lemma get?_put_of_ne {k:ℤ} (h:k≠key a) : (t.put a).get? k=t.get? k := by
 ext b
 rw [get?_eq_some,get?_eq_some,mem_put]
 constructor
 · rintro ⟨rfl | ⟨hb,-⟩,hk⟩
   · exact absurd hk.symm h
   · exact ⟨hb,hk⟩
 · rintro ⟨hb,hk⟩
   exact ⟨.inr ⟨hb,by rwa [hk]⟩,hk⟩

end Table

end Archivum.KeyedTables
