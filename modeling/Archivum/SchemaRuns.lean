import Archivum.StoreModel
import Archivum.ActionRules

set_option autoImplicit false

/-!
# Foreign keys over any history of schema calls

What a schema call tests when it creates and what it tests before it drops are
different code. Together they keep every foreign key supported in its own table
and its target in place.
-/
namespace Archivum.SchemaRuns
open ByteStrings StatefulActions PageTxn BTreeModel RecordModel TableDefs StoreModel Writer Act

inductive SchemaCall
 | createTable (def_:TableDef)
 | dropTable (table:Bytes)
 | createIndex (table:Bytes) (def_:IndexDef)
 | dropIndex (table index:Bytes)

def SchemaCall.run : SchemaCall → WriterM Unit
 | .createTable def_=>Writer.createTable def_
 | .dropTable table=>Writer.dropTable table
 | .createIndex table def_=>Writer.createIndex table def_
 | .dropIndex table index=>Writer.dropIndex table index

/-- The catalogs that schema calls which returned ok lead to, in whatever transactions they ran. -/
inductive Reachable : Catalog → Prop
 | new (version:UInt64) : Reachable { schemaVersion:=version }
 | call {w w':Writer} (call:SchemaCall) (hw:Reachable w.catalog) (hrun:call.run w=(.ok (),w')) :
   Reachable w'.catalog

/-- The columns lead the primary key or an index of their own table. -/
def Supported (t:TableDef) (fk:ForeignKeyDef) : Prop :=
 fk.columns <+: t.primaryKey ∨ ∃ idx∈t.indexes,fk.columns <+: idx.columns

def Targets (parent:TableDef) (fk:ForeignKeyDef) : Prop :=
 fk.refColumns=parent.primaryKey ∨ ∃ idx∈parent.indexes,idx.unique=true ∧ idx.columns=fk.refColumns

def Sound (cat:Catalog) : Prop := ∀ name t,cat.table name=some t → ∀ fk∈t.foreignKeys,
 Supported t fk ∧ ∃ parent,cat.table fk.refTable=some parent ∧ Targets parent fk

/-! ### The catalog as a map -/

lemma lookup_insertTable (n name:Bytes) (t:TableDef) (l:List (Bytes × TableDef)) :
 (Catalog.insertTable name t l).lookup n=if n=name then some t else l.lookup n := by
 have hhead:∀ (a:Bytes) (u:TableDef) (rest:List (Bytes × TableDef)),
   ((a,u)::rest).lookup n=if n=a then some u else rest.lookup n:=fun a u rest=>by
  rw [List.lookup_cons]
  by_cases h:n=a
  · rw [if_pos h,beq_iff_eq.mpr h]
  · rw [if_neg h,beq_false_of_ne h]
 induction l with
 | nil=>exact hhead name t []
 | cons e rest ih=>
  obtain ⟨a,u⟩:=e
  rw [Catalog.insertTable]
  cases hcmp:compareBytes name a with
  | lt=>exact hhead name t _
  | eq=>
   obtain rfl:=(compareBytes_eq_iff name a).mp hcmp
   change ((name,t)::rest).lookup n=_
   rw [hhead,hhead]
   split_ifs <;> rfl
  | gt=>
   change ((a,u)::Catalog.insertTable name t rest).lookup n=_
   have hne:name≠a:=fun h=>by
    rw [(compareBytes_eq_iff name a).mpr h] at hcmp
    cases hcmp
   rw [hhead,hhead,ih]
   by_cases h:n=a
   · rw [if_pos h,if_neg fun h'=>hne (h'.symm.trans h),if_pos h]
   · rw [if_neg h,if_neg h]

lemma table_set (cat:Catalog) (name:Bytes) (t:TableDef) (n:Bytes) :
 (cat.set name t).table n=if n=name then some t else cat.table n := lookup_insertTable n name t cat.tables

lemma table_erase (cat:Catalog) (name n:Bytes) :
 (cat.erase name).table n=if n=name then none else cat.table n := by
 unfold Catalog.table Catalog.erase
 induction cat.tables with
 | nil=>exact (ite_self _).symm
 | cons e rest ih=>
  obtain ⟨a,u⟩:=e
  rw [List.filter_cons,List.lookup_cons]
  by_cases ha:a=name
  · rw [if_neg (by simpa using ha),ih]
    by_cases hn:n=name
    · rw [if_pos hn,if_pos hn]
    · rw [if_neg hn,if_neg hn,beq_false_of_ne fun h=>hn (h.trans ha)]
  · rw [if_pos (by simpa using ha),List.lookup_cons,ih]
    by_cases hn:n=a
    · rw [beq_iff_eq.mpr hn]
      exact (if_neg fun h=>ha (hn.symm.trans h)).symm
    · rw [beq_false_of_ne hn]

lemma mem_allForeignKeys {cat:Catalog} {name:Bytes} {t:TableDef} {fk:ForeignKeyDef}
 (ht:cat.table name=some t) (hfk:fk∈t.foreignKeys) : ((name,t),fk)∈allForeignKeys cat := by
 obtain ⟨l₁,l₂,hl,-⟩:=List.lookup_eq_some_iff.mp ht
 refine List.mem_flatMap.mpr ⟨(name,t),?_,List.mem_map.mpr ⟨fk,hfk,rfl⟩⟩
 rw [hl]
 exact List.mem_append_right _ List.mem_cons_self

/-! ### What keeps a sound catalog sound -/

/-- Each index of the first list has one in the second over the same columns, unique if it is. -/
def Covers (A B:List IndexDef) : Prop := ∀ a∈A,∃ b∈B,b.columns=a.columns ∧ b.unique=a.unique

lemma Supported.covers {t:TableDef} {fk:ForeignKeyDef} (h:Supported t fk) (root:ℕ) {B:List IndexDef}
  (hB:Covers t.indexes B) : Supported { t with root,indexes:=B } fk := by
 rcases h with hkey | ⟨idx,hidx,hlead⟩
 · exact .inl hkey
 · obtain ⟨b,hb,hcolumns,-⟩:=hB idx hidx
   exact .inr ⟨b,hb,hcolumns ▸ hlead⟩

lemma Targets.covers {t:TableDef} {fk:ForeignKeyDef} (h:Targets t fk) (root:ℕ) {B:List IndexDef}
  (hB:Covers t.indexes B) : Targets { t with root,indexes:=B } fk := by
 rcases h with hkey | ⟨idx,hidx,hunique,hcolumns⟩
 · exact .inl hkey
 · obtain ⟨b,hb,hbc,hbu⟩:=hB idx hidx
   exact .inr ⟨b,hb,hbu.trans hunique,hbc.trans hcolumns⟩

lemma Sound.replace {cat:Catalog} (h:Sound cat) {name:Bytes} {t t':TableDef}
 (ht:cat.table name=some t) (hfks:t'.foreignKeys=t.foreignKeys) (hown:∀ fk∈t.foreignKeys,Supported t' fk)
 (htarget:∀ n u,cat.table n=some u → ∀ fk∈u.foreignKeys,fk.refTable=name → Targets t' fk) : Sound (cat.set name t') := by
 intro n u hu fk hfk
 rw [table_set] at hu
 have hold:∃ v,cat.table n=some v ∧ fk∈v.foreignKeys ∧ Supported u fk:=by
  by_cases hn:n=name
  · rw [if_pos hn] at hu
    obtain rfl:=Option.some.inj hu
    rw [hfks] at hfk
    exact ⟨t,hn ▸ ht,hfk,hown fk hfk⟩
  · rw [if_neg hn] at hu
    exact ⟨u,hu,hfk,(h n u hu fk hfk).1⟩
 obtain ⟨v,hv,hfkv,hsupported⟩:=hold
 refine ⟨hsupported,?_⟩
 rw [table_set]
 by_cases href:fk.refTable=name
 · rw [if_pos href]
   exact ⟨t',rfl,htarget n v hv fk hfkv href⟩
 · rw [if_neg href]
   exact (h n v hv fk hfkv).2

lemma Sound.add {cat:Catalog} (h:Sound cat) {name:Bytes} {t:TableDef} (hnew:cat.table name=none)
 (hfks:∀ fk∈t.foreignKeys,Supported t fk ∧
  ∃ parent,(if fk.refTable=name then some t else cat.table fk.refTable)=some parent ∧ Targets parent fk) :
 Sound (cat.set name t) := by
 intro n u hu fk hfk
 rw [table_set] at hu ⊢
 by_cases hn:n=name
 · rw [if_pos hn] at hu
   obtain rfl:=Option.some.inj hu
   exact hfks fk hfk
 · rw [if_neg hn] at hu
   obtain ⟨hsupported,parent,hparent,htargets⟩:=h n u hu fk hfk
   refine ⟨hsupported,parent,?_,htargets⟩
   rw [if_neg fun href=>?_,hparent]
   rw [href,hnew] at hparent
   cases hparent

lemma Sound.remove {cat:Catalog} (h:Sound cat) {name:Bytes}
 (hfree:∀ n u,cat.table n=some u → ∀ fk∈u.foreignKeys,n≠name → fk.refTable≠name) : Sound (cat.erase name) := by
 intro n u hu fk hfk
 rw [table_erase] at hu ⊢
 by_cases hn:n=name
 · rw [if_pos hn] at hu
   cases hu
 · rw [if_neg hn] at hu
   rw [if_neg (hfree n u hu fk hfk hn)]
   exact h n u hu fk hfk

/-! ### The definitions that are accepted -/

lemma supported_of_test {t:TableDef} {fk:ForeignKeyDef}
 (h:¬(!pkSupports t fk.columns && (supportingIndex t fk.columns).isNone)=true) : Supported t fk := by
 by_cases hkey:pkSupports t fk.columns
 · exact .inl (List.isPrefixOf_iff_prefix.mp hkey)
 · cases hidx:supportingIndex t fk.columns with
   | none=>
    rw [hidx,Bool.eq_false_iff.mpr hkey] at h
    exact absurd rfl h
   | some idx=>
    have hlead:fk.columns.isPrefixOf idx.columns=true:=List.find?_some (p:=fun i:IndexDef=>fk.columns.isPrefixOf i.columns) hidx
    exact .inr ⟨idx,List.mem_of_find?_eq_some hidx,List.isPrefixOf_iff_prefix.mp hlead⟩

lemma refused_ok {c:Prop} [Decidable c] {e:Status} {m m':Except Status Unit}
 (h:(if c then (throw e:Except Status Unit) >>= fun _=>m else m')=.ok ()) : ¬c ∧ m'=.ok () := by
 by_cases hc:c
 · rw [if_pos hc] at h
   cases h
 · rw [if_neg hc] at h
   exact ⟨hc,h⟩

lemma validateForeignKey_ok {cat:Catalog} {t:TableDef} {fk:ForeignKeyDef}
 (h:validateForeignKey cat t fk=.ok ()) : Supported t fk ∧
  ∃ parent,(if fk.refTable=t.name then some t else cat.table fk.refTable)=some parent ∧ Targets parent fk := by
 obtain ⟨-,h⟩:=refused_ok h
 obtain ⟨-,h⟩:=refused_ok h
 cases hparent:(if fk.refTable=t.name then some t else cat.table fk.refTable) with
 | none=>
  rw [hparent] at h
  cases h
 | some parent=>
  rw [hparent] at h
  obtain ⟨htarget,h⟩:=refused_ok h
  obtain ⟨-,h⟩:=seq_ok.mp h
  refine ⟨supported_of_test fun hnone=>?_,parent,rfl,?_⟩
  · rw [if_pos hnone] at h
    cases h
  · rcases not_not.mp htarget with hkey | hindex
    · exact .inl hkey
    · obtain ⟨idx,hidx,hboth⟩:=List.any_eq_true.mp hindex
      obtain ⟨hunique,hcolumns⟩:=Bool.and_eq_true_iff.mp hboth
      exact .inr ⟨idx,hidx,hunique,beq_iff_eq.mp hcolumns⟩

lemma validateTableDef_ok {cat:Catalog} {t:TableDef} (h:validateTableDef cat t=.ok ()) :
 ∀ fk∈t.foreignKeys,validateForeignKey cat t fk=.ok () := by
 obtain ⟨-,h⟩:=refused_ok h
 obtain ⟨-,h⟩:=refused_ok h
 obtain ⟨-,h⟩:=refused_ok h
 obtain ⟨-,h⟩:=seq_ok.mp h
 obtain ⟨-,h⟩:=refused_ok h
 obtain ⟨-,h⟩:=seq_ok.mp h
 obtain ⟨-,h⟩:=seq_ok.mp h
 exact allNew_ok (seq_ok.mp h).1

/-! ### What each call leaves of the catalog -/

abbrev Keeps {α:Type} (m:WriterM α) : Prop := Always (Same Writer.catalog) m

lemma use_keeps {α:Type} (root:ℕ) (m:BTree → TxnM α) : Keeps (use root m) := fun _=>rfl

lemma call_keeps (root:ℕ) (op:TreeShape.Runs.Op) : Keeps (call root op) := fun _=>rfl

lemma put_keeps (root:ℕ) (key value:Bytes) : Keeps (put root key value) :=
 Always.bind (call_keeps _ _) fun _=>Always.pure ()

lemma create_keeps : Keeps create := fun _=>rfl

lemma createRoots_keeps (l:List IndexDef) : Keeps (createRoots l) := by
 induction l with
 | nil=>exact Always.pure []
 | cons idx rest ih=>exact Always.bind create_keeps fun root=>Always.bind ih fun rest=>Always.pure _

lemma createRoots_covers (l:List IndexDef) : Returns (Covers l) (createRoots l) := by
 induction l with
 | nil=>exact Returns.pure (List.forall_mem_nil _)
 | cons idx rest ih=>
  refine Returns.bind fun root=>Returns.bind_of ih fun out hout=>Returns.pure ?_
  intro a ha
  rcases List.mem_cons.mp ha with rfl | ha
  · exact ⟨_,List.mem_cons_self,rfl,rfl⟩
  · obtain ⟨b,hb,hsame⟩:=hout a ha
    exact ⟨b,List.mem_cons_of_mem _ hb,hsame⟩

lemma ofExcept_keeps {α:Type} (r:Except Status α) : Keeps (ofExcept r) := by
 cases r with
 | ok a=>exact Always.pure a
 | error e=>exact Always.fail e

lemma ofExcept_inv {α:Type} {r:Except Status α} {w w':Writer} {a:α} (h:ofExcept r w=(.ok a,w')) : r=.ok a ∧ w'=w := by
 cases r with
 | ok b=>
  cases h
  exact ⟨rfl,rfl⟩
 | error e=>cases h

lemma forAll_keeps {α:Type} {f:α → WriterM Unit} (hf:∀ a,Keeps (f a)) (l:List α) : Keeps (forAll f l) := by
 induction l with
 | nil=>exact Always.pure ()
 | cons a l ih=>exact Always.bind (hf a) fun _=>ih

lemma getByKey_keeps (t:TableDef) (pkKey:Bytes) : Keeps (getByKey t pkKey) :=
 Always.bind (use_keeps _ _) fun found=>by
  cases found with
  | none=>exact Always.pure none
  | some value=>exact Always.bind (ofExcept_keeps _) fun row=>Always.pure _

lemma prefixExists_keeps (root:ℕ) (values:Row) : Keeps (prefixExists root values) :=
 Always.bind (use_keeps _ _) fun _=>Always.pure _

lemma scanLoop_keeps {root fuel:ℕ} {fn:Bytes → WriterM Bool} (hfn:∀ k,Keeps (fn k)) (n:ℕ) (c:Cursor) :
 Keeps (scanLoop root fuel fn n c) := by
 induction n generalizing c with
 | zero=>exact Always.fail _
 | succ n ih=>
  refine Always.ite (Always.bind (hfn _) fun go=>?_) (Always.pure ())
  exact Always.ite (Always.bind (use_keeps _ _) fun c=>ih c) (Always.pure ())

lemma scanRaw_keeps (t:TableDef) {fn:Bytes → WriterM Bool} (hfn:∀ k,Keeps (fn k)) : Keeps (scanRaw t fn) :=
 Always.bind (Always.reads _) fun fuel=>Always.bind (use_keeps _ _) fun c=>scanLoop_keeps hfn fuel c

lemma indexRow_keeps (t:TableDef) (idx:IndexDef) (pkKey:Bytes) : Keeps (Writer.indexRow t idx pkKey) :=
 Always.bind (getByKey_keeps t pkKey) fun found=>by
  cases found with
  | none=>exact Always.fail _
  | some row=>
   refine Always.bind (Always.reads _) fun max=>Always.ite (Always.fail _) (Always.bind (Always.onlyIf ?_) fun _=>?_)
   · exact Always.bind (prefixExists_keeps _ _) fun dup=>Always.ite (Always.fail _) (Always.pure ())
   · exact Always.bind (put_keeps _ _ _) fun _=>Always.pure true

lemma edit_save {f:Catalog → Catalog} {m:WriterM Unit} (hm:Keeps m) {w w':Writer}
 (h:(editCatalog f >>= fun _=>m) w=(.ok (),w')) : w'.catalog=f w.catalog := by
 obtain ⟨u,w₁,hedit,hrest⟩:=bind_ok_inv h
 cases hedit
 exact hm.ok hrest

lemma unfinished_inv {α:Type} {m:WriterM α} {w w':Writer} {a:α} (h:unfinished m w=(.ok a,w')) : m w=(.ok a,w') := by
 cases hfinished:w.finished with
 | true=>
  rw [unfinished,bind_reads,hfinished] at h
  cases h
 | false=>rwa [unfinished,bind_reads,hfinished] at h

lemma withTable_inv {α:Type} {table:Bytes} {m:TableDef → WriterM α} {w w':Writer} {a:α}
 (h:withTable table m w=(.ok a,w')) : ∃ t,w.catalog.table table=some t ∧ m t w=(.ok a,w') := by
 have h:=unfinished_inv h
 rw [bind_reads] at h
 cases ht:w.catalog.table table with
 | none=>
  rw [ht] at h
  cases h
 | some t=>
  rw [ht] at h
  exact ⟨t,rfl,h⟩

lemma createTable_sound {def_:TableDef} {w w':Writer} (hw:Sound w.catalog)
 (h:Writer.createTable def_ w=(.ok (),w')) : Sound w'.catalog := by
 have h₁:=unfinished_inv h
 rw [bind_reads] at h₁
 by_cases hnew:(w.catalog.table def_.name).isSome
 · rw [if_pos hnew] at h₁
   cases h₁
 · rw [if_neg hnew] at h₁
   obtain ⟨u,w₁,hchecked,h₂⟩:=bind_ok_inv h₁
   obtain ⟨hvalid,hw₁⟩:=ofExcept_inv hchecked
   obtain ⟨root,w₂,hroot,h₃⟩:=bind_ok_inv h₂
   obtain ⟨indexes,w₃,hindexes,h₄⟩:=bind_ok_inv h₃
   have hcovers:=createRoots_covers _ _ _ _ hindexes
   rw [edit_save (put_keeps _ _ _) h₄,(createRoots_keeps _).ok hindexes,create_keeps.ok hroot,hw₁]
   refine hw.add (Option.not_isSome_iff_eq_none.mp hnew) fun fk hfk=>?_
   obtain ⟨hsupported,parent,hparent,htargets⟩:=validateForeignKey_ok (validateTableDef_ok hvalid fk hfk)
   refine ⟨hsupported.covers root hcovers,?_⟩
   by_cases hself:fk.refTable=(keyNotNull def_).name
   · rw [if_pos hself] at hparent
     obtain rfl:=Option.some.inj hparent
     exact ⟨_,if_pos hself,htargets.covers root hcovers⟩
   · rw [if_neg hself] at hparent
     exact ⟨parent,(if_neg hself).trans hparent,htargets⟩

lemma dropTable_sound {table:Bytes} {w w':Writer} (hw:Sound w.catalog)
 (h:Writer.dropTable table w=(.ok (),w')) : Sound w'.catalog := by
 obtain ⟨t,-,h₁⟩:=withTable_inv h
 rw [bind_reads] at h₁
 obtain ⟨u,w₁,hchecked,h₂⟩:=bind_ok_inv h₁
 obtain ⟨hrefused,hw₁⟩:=ofExcept_inv hchecked
 obtain ⟨u',w₂,hroot,h₃⟩:=bind_ok_inv h₂
 obtain ⟨u'',w₃,hindexes,h₄⟩:=bind_ok_inv h₃
 rw [edit_save (Always.bind (call_keeps _ _) fun _=>Always.pure ()) h₄,
  (forAll_keeps (fun idx:IndexDef=>use_keeps idx.root _) _).ok hindexes,(use_keeps _ _).ok hroot,hw₁]
 refine hw.remove fun n u hu fk hfk hn href=>?_
 have hok:=allOk_iff.mp hrefused _ (mem_allForeignKeys hu hfk)
 rw [refuseReferenced,if_pos ⟨hn,href⟩] at hok
 cases hok

lemma createIndex_sound {table:Bytes} {def_:IndexDef} {w w':Writer} (hw:Sound w.catalog)
 (h:Writer.createIndex table def_ w=(.ok (),w')) : Sound w'.catalog := by
 obtain ⟨t,ht,h₁⟩:=withTable_inv h
 obtain ⟨u,w₁,hchecked,h₂⟩:=bind_ok_inv h₁
 obtain ⟨-,hw₁⟩:=ofExcept_inv hchecked
 obtain ⟨root,w₂,hroot,h₃⟩:=bind_ok_inv h₂
 obtain ⟨built,w₃,hbuilt,h₄⟩:=bind_ok_inv h₃
 have hscan:Keeps (attempt (scanRaw t (Writer.indexRow t { def_ with root }))):=fun s=>
  (scanRaw_keeps t (indexRow_keeps t _) s).attempt
 cases built with
 | error e=>
  obtain ⟨u',w₄,-,hfail⟩:=bind_ok_inv h₄
  cases hfail
 | ok built=>
  have hcovers:Covers t.indexes (t.indexes++[{ def_ with root }]):=fun a ha=>
   ⟨a,List.mem_append_left _ ha,rfl,rfl⟩
  rw [edit_save (put_keeps _ _ _) h₄,hscan.ok hbuilt,create_keeps.ok hroot,hw₁]
  refine hw.replace ht rfl (fun fk hfk=>((hw _ _ ht fk hfk).1.covers t.root hcovers)) ?_
  intro n u hu fk hfk href
  obtain ⟨-,parent,hparent,htargets⟩:=hw n u hu fk hfk
  rw [href,ht] at hparent
  obtain rfl:=Option.some.inj hparent
  exact htargets.covers t.root hcovers

/-- What is left of an index list without one index: that index or one that stays. -/
theorem mem_or_dropped {l:List IndexDef} {pos:ℕ} (hpos:pos<l.length) {idx:IndexDef} (h:idx∈l)
 (d:IndexDef) : idx∈l.eraseIdx pos ∨ idx=l.getD pos d := by
 obtain ⟨i,hi,rfl⟩:=List.mem_iff_getElem.mp h
 by_cases hsame:i=pos
 · subst hsame
   exact .inr (List.getD_eq_getElem _ _ hi).symm
 · exact .inl (List.mem_eraseIdx_iff_getElem.mpr ⟨i,hi,hsame,rfl⟩)

lemma dropIndex_sound {table index:Bytes} {w w':Writer} (hw:Sound w.catalog)
 (h:Writer.dropIndex table index w=(.ok (),w')) : Sound w'.catalog := by
 obtain ⟨t,ht,h₁⟩:=withTable_inv h
 cases hfind:t.indexes.findIdx? fun i=>i.name == index with
 | none=>
  rw [hfind] at h₁
  cases h₁
 | some pos=>
  rw [hfind] at h₁
  have hpos:=(List.findIdx?_eq_some_iff_getElem.mp hfind).1
  obtain ⟨u,w₁,hchecked,h₂⟩:=bind_ok_inv h₁
  obtain ⟨hsupport,hw₁⟩:=ofExcept_inv hchecked
  rw [bind_reads,hw₁] at h₂
  obtain ⟨u',w₂,htarget,h₃⟩:=bind_ok_inv h₂
  obtain ⟨u'',w₃,hdestroyed,h₄⟩:=bind_ok_inv h₃
  rw [edit_save (put_keeps _ _ _) h₄,(use_keeps _ _).ok hdestroyed,(Always.onlyIf (ofExcept_keeps _)).ok htarget]
  refine hw.replace ht rfl (fun fk hfk=>supported_of_test fun hnone=>?_) ?_
  · have hok:=allOk_iff.mp hsupport fk hfk
    rw [refuseSupport,if_pos hnone] at hok
    cases hok
  · intro n u hu fk hfk href
    obtain ⟨-,parent,hparent,htargets⟩:=hw n u hu fk hfk
    rw [href,ht] at hparent
    obtain rfl:=Option.some.inj hparent
    rcases htargets with hkey | ⟨idx,hidx,hunique,hcolumns⟩
    · exact .inl hkey
    · rcases mem_or_dropped hpos hidx { name:=[],columns:=[] } with hstays | hdropped
      · exact .inr ⟨idx,hstays,hunique,hcolumns⟩
      · subst hdropped
        -- another index or the key has the same columns, or the foreign key refuses the drop
        by_cases hother:(t.indexes.getD pos { name:=[],columns:=[] }).columns=t.primaryKey ∨
          (t.indexes.eraseIdx pos).any fun other=>other.unique &&
           other.columns == (t.indexes.getD pos { name:=[],columns:=[] }).columns
        · rcases hother with hkey | hindex
          · exact .inl (hcolumns.symm.trans hkey)
          · obtain ⟨other,hin,hboth⟩:=List.any_eq_true.mp hindex
            obtain ⟨hunique',hcolumns'⟩:=Bool.and_eq_true_iff.mp hboth
            exact .inr ⟨other,hin,hunique',(beq_iff_eq.mp hcolumns').trans hcolumns⟩
        · rw [onlyIf,if_pos ⟨hunique,hother⟩] at htarget
          have hok:=allOk_iff.mp (ofExcept_inv htarget).1 _ (mem_allForeignKeys hu hfk)
          rw [refuseTarget,if_pos ⟨href,hcolumns.symm⟩] at hok
          cases hok

theorem reachable_sound {cat:Catalog} (h:Reachable cat) : Sound cat := by
 induction h with
 | new version=>exact fun name t ht=>by cases ht
 | call call hw hrun ih=>
  cases call with
  | createTable def_=>exact createTable_sound ih hrun
  | dropTable table=>exact dropTable_sound ih hrun
  | createIndex table def_=>exact createIndex_sound ih hrun
  | dropIndex table index=>exact dropIndex_sound ih hrun

/-- A fresh store: page 1 is the empty tree of the catalog. -/
def emptyStore : Writer where
 txn := ⟨512,fun _=>BTree.leafImage 512 [] 0 0,{ pageCount:=2 },{ pageCount:=2 },fun _=>none,[],false⟩
 catalog:={}

def plants : TableDef where
 name := [80]
 columns:=[{ name:=[1],type:=.text },{ name:=[2],type:=.text }]
 primaryKey:=[[1]]
 indexes:=[{ name:=[7],columns:=[[2]],unique:=true }]

/-- Beds refer to plants by the unique second column and support it with an index of their own. -/
def beds : TableDef where
 name := [66]
 columns:=[{ name:=[1],type:=.text },{ name:=[2],type:=.text }]
 primaryKey:=[[1]]
 indexes:=[{ name:=[8],columns:=[[2],[1]] }]
 foreignKeys:=[{ name:=[9],columns:=[[2]],refTable:=[80],refColumns:=[[2]] }]

lemma Reachable.next {w:Writer} (hw:Reachable w.catalog) (call:SchemaCall) (h:(call.run w).1=.ok ()) :
 Reachable (call.run w).2.catalog := hw.call call (Prod.ext h rfl)

def bedsStore : Writer := ((SchemaCall.createTable beds).run ((SchemaCall.createTable plants).run emptyStore).2).2

theorem reachable_sound_beds : Reachable bedsStore.catalog ∧
  (bedsStore.catalog.tables.map fun e=>(e.1,e.2.foreignKeys.length))=[([66],1),([80],0)] ∧
  Sound bedsStore.catalog := by
 have hplants:Reachable emptyStore.catalog:=.new 0
 have hbeds:Reachable bedsStore.catalog:=by
  rw [bedsStore]
  exact (hplants.next (.createTable plants) (by decide +kernel)).next (.createTable beds) (by decide +kernel)
 exact ⟨hbeds,by decide +kernel,reachable_sound hbeds⟩

end Archivum.SchemaRuns
