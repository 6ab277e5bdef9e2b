import Archivum.RecordFormat
import Archivum.SchemaRuns

set_option autoImplicit false

/-!
# The catalog row of a table is read back

The decoder limits what the validator does not: the numbers of indexes, foreign
keys, checks and operands, and with the row format the number of values and the
length of a string. Within these limits, and only there, a definition is read
back as it was written.
-/
namespace Archivum.TableDefFormat
open ByteStrings StatefulActions PageTxn Decoders RecordModel RecordFormat TableDefs Act

/-- What the decoder asks of a definition and the validator ensures. -/
structure Storable (t:TableDef) : Prop where
 columns : t.columns≠[] ∧ t.columns.length ≤ 4096
 scales : ∀ c∈t.columns,c.scale.toNat ≤ 18
 primaryKey : t.primaryKey.length ≤ 4096
 indexes : ∀ idx∈t.indexes,idx.columns.length ≤ 4096 ∧ idx.root<2^64
 foreignKeys : ∀ fk∈t.foreignKeys,fk.columns.length ≤ 4096 ∧ fk.refColumns.length ≤ 4096
 checks : ∀ c∈t.checks,if c.otherColumn=[] then c.operands≠[] else c.operands=[]
 root : t.root<2^64

/-- What the decoder and the row format ask and the validator does not. -/
structure Limits (t:TableDef) : Prop where
 indexes : t.indexes.length ≤ 4096
 foreignKeys : t.foreignKeys.length ≤ 4096
 checks : t.checks.length ≤ 4096
 operands : ∀ c∈t.checks,c.operands.length ≤ 4096
 row : RowFits (encodeTableDef t)

/-- `decode_table_def(decode_row(encode_row(encode_table_def(t))))` -/
def readBack (t:TableDef) : Except Status TableDef := do
 let row ← decodeRow (encodeRow (encodeTableDef t))
 decodeTableDef row

lemma count_toInt {n:ℕ} (h:n<2^63) : (Int64.ofNat n).toInt=n := Int64.toInt_ofNat_of_lt h

lemma count_toNat {n:ℕ} (h:n<2^64) : (Int64.ofNat n).toUInt64.toNat=n := by
 have hto:(Int64.ofNat n).toUInt64=UInt64.ofNat n:=rfl
 rw [hto,UInt64.toNat_ofNat',Nat.mod_eq_of_lt h]

lemma takeText_reads (s:Bytes) : Reads takeText [.text s] s := fun _=>rfl

lemma takeInteger_reads (i:Int64) : Reads takeInteger [.integer i] i := fun _=>rfl

lemma takeBoolean_reads (b:Bool) : Reads takeBoolean [.boolean b] b := fun _=>rfl

lemma takeValue_reads (v:Value) : Reads takeValue [v] v := fun _=>rfl

lemma takeList_reads {α:Type} {item:Act Status Row α} {write:α → Row} (lo:ℕ) (e:String)
 {as:List α} (h:∀ a∈as,Reads item (write a) a) (hlo:lo≤as.length) (hle:as.length≤4096) :
 Reads (takeList lo e item) (count as.length::as.flatMap write) as := by
 refine Reads.bind (takeInteger_reads _) ?_
 rw [count_toInt (by omega),Int.toNat_natCast]
 exact Reads.ite_neg (by omega) (Reads.times h)

lemma takeTexts_reads {v:List Bytes} (h:v.length≤4096) : Reads takeTexts (textsRow v) v := by
 have hread:=takeList_reads 0 "catalog: bad list length" (fun s (_:s∈v)=>takeText_reads s) (Nat.zero_le _) h
 rwa [← List.map_eq_flatMap] at hread

lemma code_ofCode_type (t:ColumnType) : ColumnType.ofCode t.code=t := by cases t <;> rfl

lemma code_range_type (t:ColumnType) : 1≤t.code ∧ t.code≤7 := by cases t <;> decide

lemma code_ofCode_op (o:CheckOp) : CheckOp.ofCode o.code=o := by cases o <;> rfl

lemma code_range_op (o:CheckOp) : 1≤o.code ∧ o.code≤7 := by cases o <;> decide

lemma takeColumn_reads {c:ColumnDef} (h:c.scale.toNat≤18) : Reads takeColumn (columnRow c) c := by
 have hcode:=code_range_type c.type
 refine (takeText_reads c.name).bind ((takeInteger_reads _).bind
  ((takeBoolean_reads c.nullable).bind ((takeInteger_reads _).last ?_)))
 rw [count_toInt (by omega),count_toInt (by omega),Int.toNat_natCast,Int.toNat_natCast,code_ofCode_type,UInt8.ofNat_toNat]
 exact Reads.ite_neg (by omega) (Reads.pure _)

lemma takeIndex_reads {idx:IndexDef} (h:idx.columns.length≤4096 ∧ idx.root<2^64) : Reads takeIndex (indexRow idx) idx := by
 refine (takeText_reads idx.name).bind ((takeInteger_reads _).bind ((takeBoolean_reads idx.unique).bind ?_))
 have hrest:=(takeTexts_reads h.1).map fun columns=>
  { idx with root:=(Int64.ofNat idx.root).toUInt64.toNat,columns:=columns }
 rw [count_toNat h.2] at hrest
 rw [count_toNat h.2]
 exact hrest

lemma takeForeignKey_reads {fk:ForeignKeyDef} (h:fk.columns.length≤4096 ∧ fk.refColumns.length≤4096) :
 Reads takeForeignKey (foreignKeyRow fk) fk := by
 rw [foreignKeyRow,List.append_assoc]
 refine (takeText_reads fk.name).bind ((takeText_reads fk.refTable).bind ((takeTexts_reads h.1).bind ?_))
 exact (takeTexts_reads h.2).map fun refColumns=>{ fk with refColumns:=refColumns }

lemma takeCheck_reads {c:CheckDef} (hle:c.operands.length≤4096)
 (h:if c.otherColumn=[] then c.operands≠[] else c.operands=[]) : Reads takeCheck (checkRow c) c := by
 have hcode:=code_range_op c.op
 refine (takeText_reads c.name).bind ((takeText_reads c.column).bind ((takeText_reads c.otherColumn).bind
  ((takeInteger_reads _).bind ((takeInteger_reads _).bind ?_))))
 rw [count_toInt (by omega),count_toInt (by omega),Int.toNat_natCast,Int.toNat_natCast,code_ofCode_op]
 refine Reads.ite_neg (by omega) (Reads.ite_neg ?_ ?_)
 · split_ifs at h ⊢ with hother
   · have:=List.length_pos_of_ne_nil h
     omega
   · simp [h]
 · have hall:=Reads.times fun v (_:v∈c.operands)=>takeValue_reads v
   rw [List.flatMap_singleton'] at hall
   exact hall.map fun operands=>{ c with operands:=operands }

lemma takeTableDef_reads {t:TableDef} (hs:Storable t) (hl:Limits t) : Reads takeTableDef (encodeTableDef t) t := by
 rw [encodeTableDef]
 simp only [List.append_assoc]
 refine (takeText_reads t.name).bind ((takeInteger_reads _).bind
  ((takeList_reads 1 _ (fun c hc=>takeColumn_reads (hs.scales c hc)) ?_ hs.columns.2).bind
  ((takeTexts_reads hs.primaryKey).bind
  ((takeList_reads 0 _ (fun idx hidx=>takeIndex_reads (hs.indexes idx hidx)) (Nat.zero_le _) hl.indexes).bind
  ((takeList_reads 0 _ (fun fk hfk=>takeForeignKey_reads (hs.foreignKeys fk hfk)) (Nat.zero_le _)
   hl.foreignKeys).bind ?_)))))
 · exact List.length_pos_of_ne_nil hs.columns.1
 · have hrest:=(takeList_reads 0 "catalog: bad check count" (fun c hc=>
    takeCheck_reads (hl.operands c hc) (hs.checks c hc)) (Nat.zero_le _) hl.checks).map fun checks=>
     { t with root:=(Int64.ofNat t.root).toUInt64.toNat,checks:=checks }
   rw [count_toNat hs.root] at hrest
   rw [count_toNat hs.root]
   exact hrest

lemma takeText_exact : Exact takeText fun s=>[.text s] := by
 intro xs s rest h
 unfold takeText at h
 split at h <;> cases h
 rfl

lemma takeInteger_exact : Exact takeInteger fun i=>[.integer i] := by
 intro xs i rest h
 unfold takeInteger at h
 split at h <;> cases h
 rfl

lemma takeBoolean_exact : Exact takeBoolean fun b=>[.boolean b] := by
 intro xs b rest h
 unfold takeBoolean at h
 split at h <;> cases h
 rfl

lemma takeValue_exact : Exact takeValue fun v=>[v] := by
 intro xs v rest h
 unfold takeValue at h
 split at h <;> cases h
 rfl

lemma count_of_toInt {i:Int64} (h:0 ≤ i.toInt) : count i.toInt.toNat=.integer i := by
 have hlt:i.toInt.toNat<2^63:=by
  have:=i.toInt_lt
  omega
 refine congrArg Value.integer (Int64.toInt_inj.mp ?_)
 rw [count_toInt hlt,Int.toNat_of_nonneg h]

lemma count_of_toNat (i:Int64) : count i.toUInt64.toNat=.integer i := by
 refine congrArg Value.integer ?_
 have hto:Int64.ofNat i.toUInt64.toNat=⟨UInt64.ofNat i.toUInt64.toNat⟩:=rfl
 rw [hto,UInt64.ofNat_toNat]

lemma takeList_inv {α:Type} {item:Act Status Row α} {write:α → Row} (lo:ℕ) {e:String} {xs rest:Row}
 {as:List α} (hitem:Exact item write) (h:takeList lo e item xs=(.ok as,rest)) :
 as.length≤4096 ∧ xs=count as.length::as.flatMap write++rest := by
 obtain ⟨n,ys,hn,h⟩:=bind_ok_inv h
 split_ifs at h with hbad
 · cases h
 · rw [not_or,not_lt,not_lt] at hbad
   have hlen:=times_length _ h
   refine ⟨by omega,?_⟩
   rw [takeInteger_exact _ _ _ hn,times_exact hitem _ h,hlen,count_of_toInt (by omega)]
   rfl

lemma takeTexts_exact : Exact takeTexts textsRow := by
 intro xs v rest h
 have hrow:=(takeList_inv 0 takeText_exact h).2
 rwa [← List.map_eq_flatMap] at hrow

lemma ofCode_code_type {n:ℕ} (h:1≤n ∧ n≤7) : (ColumnType.ofCode n).code=n := by
 obtain ⟨h1,h7⟩:=h
 interval_cases n <;> rfl

lemma ofCode_code_op {n:ℕ} (h:1≤n ∧ n≤7) : (CheckOp.ofCode n).code=n := by
 obtain ⟨h1,h7⟩:=h
 interval_cases n <;> rfl

lemma takeColumn_exact : Exact takeColumn columnRow := by
 intro xs c rest h
 obtain ⟨name,xs1,hname,h⟩:=bind_ok_inv h
 obtain ⟨type,xs2,htype,h⟩:=bind_ok_inv h
 obtain ⟨nullable,xs3,hnull,h⟩:=bind_ok_inv h
 obtain ⟨scale,xs4,hscale,h⟩:=bind_ok_inv h
 split_ifs at h with hbad
 · cases h
 · cases h
   have hscale8:(UInt8.ofNat scale.toInt.toNat).toNat=scale.toInt.toNat:=by
    rw [UInt8.toNat_ofNat']
    omega
   rw [takeText_exact _ _ _ hname,takeInteger_exact _ _ _ htype,takeBoolean_exact _ _ _ hnull,
    takeInteger_exact _ _ _ hscale,columnRow,ofCode_code_type (by omega),hscale8,count_of_toInt (by omega),
    count_of_toInt (by omega)]
   rfl

lemma takeIndex_exact : Exact takeIndex indexRow := by
 intro xs idx rest h
 obtain ⟨name,xs1,hname,h⟩:=bind_ok_inv h
 obtain ⟨root,xs2,hroot,h⟩:=bind_ok_inv h
 obtain ⟨unique,xs3,hunique,h⟩:=bind_ok_inv h
 obtain ⟨columns,xs4,hcols,h⟩:=bind_ok_inv h
 cases h
 rw [takeText_exact _ _ _ hname,takeInteger_exact _ _ _ hroot,takeBoolean_exact _ _ _ hunique,
  takeTexts_exact _ _ _ hcols,indexRow,count_of_toNat]
 rfl

lemma takeForeignKey_exact : Exact takeForeignKey foreignKeyRow := by
 intro xs fk rest h
 obtain ⟨name,xs1,hname,h⟩:=bind_ok_inv h
 obtain ⟨refTable,xs2,href,h⟩:=bind_ok_inv h
 obtain ⟨columns,xs3,hcols,h⟩:=bind_ok_inv h
 obtain ⟨refColumns,xs4,hrefcols,h⟩:=bind_ok_inv h
 cases h
 rw [takeText_exact _ _ _ hname,takeText_exact _ _ _ href,takeTexts_exact _ _ _ hcols,
  takeTexts_exact _ _ _ hrefcols,foreignKeyRow]
 simp

lemma takeCheck_inv {xs rest:Row} {c:CheckDef} (h:takeCheck xs=(.ok c,rest)) :
 c.operands.length≤4096 ∧ xs=checkRow c++rest := by
 obtain ⟨name,xs1,hname,h⟩:=bind_ok_inv h
 obtain ⟨column,xs2,hcol,h⟩:=bind_ok_inv h
 obtain ⟨otherColumn,xs3,hother,h⟩:=bind_ok_inv h
 obtain ⟨op,xs4,hop,h⟩:=bind_ok_inv h
 obtain ⟨nops,xs5,hnops,h⟩:=bind_ok_inv h
 by_cases hbad:op.toInt<1 ∨ 7<op.toInt ∨ nops.toInt<0 ∨ 4096<nops.toInt
 · rw [if_pos hbad] at h
   cases h
 rw [if_neg hbad] at h
 by_cases hshape:if otherColumn=[] then nops.toInt<1 else nops.toInt≠0
 · rw [if_pos hshape] at h
   cases h
 rw [if_neg hshape] at h
 obtain ⟨operands,xs6,hops,h⟩:=bind_ok_inv h
 cases h
 have hlen:=times_length _ hops
 have hvalues:=times_exact takeValue_exact _ hops
 rw [List.flatMap_singleton'] at hvalues
 refine ⟨by change operands.length≤4096; omega,?_⟩
 rw [takeText_exact _ _ _ hname,takeText_exact _ _ _ hcol,takeText_exact _ _ _ hother,
  takeInteger_exact _ _ _ hop,takeInteger_exact _ _ _ hnops,hvalues,checkRow,hlen,
  ofCode_code_op (by omega),count_of_toInt (by omega),count_of_toInt (by omega)]
 simp

lemma takeTableDef_inv {xs:Row} {t:TableDef} (h:takeTableDef xs=(.ok t,[])) :
 xs=encodeTableDef t ∧ t.indexes.length≤4096 ∧ t.foreignKeys.length≤4096 ∧ t.checks.length≤4096 ∧
  ∀ c∈t.checks,c.operands.length≤4096 := by
 obtain ⟨name,xs1,hname,h⟩:=bind_ok_inv h
 obtain ⟨root,xs2,hroot,h⟩:=bind_ok_inv h
 obtain ⟨columns,xs3,hcols,h⟩:=bind_ok_inv h
 obtain ⟨primaryKey,xs4,hkey,h⟩:=bind_ok_inv h
 obtain ⟨indexes,xs5,hidx,h⟩:=bind_ok_inv h
 obtain ⟨foreignKeys,xs6,hfks,h⟩:=bind_ok_inv h
 obtain ⟨checks,xs7,hchecks,h⟩:=bind_ok_inv h
 cases h
 have hops:∀ c∈checks,c.operands.length≤4096:=by
  obtain ⟨n,ys,-,hrun⟩:=bind_ok_inv hchecks
  split_ifs at hrun
  · cases hrun
  · exact times_all (fun _ _ _ hc=>(takeCheck_inv hc).1) _ hrun
 obtain ⟨-,hcols'⟩:=takeList_inv 1 takeColumn_exact hcols
 obtain ⟨hidxle,hidx'⟩:=takeList_inv 0 takeIndex_exact hidx
 obtain ⟨hfkle,hfks'⟩:=takeList_inv 0 takeForeignKey_exact hfks
 obtain ⟨hchkle,hchecks'⟩:=takeList_inv 0 (fun _ _ _ hc=>(takeCheck_inv hc).2) hchecks
 refine ⟨?_,hidxle,hfkle,hchkle,hops⟩
 rw [takeText_exact _ _ _ hname,takeInteger_exact _ _ _ hroot,hcols',takeTexts_exact _ _ _ hkey,hidx',hfks',
  hchecks',encodeTableDef,count_of_toNat]
 simp

theorem readBack_iff {t:TableDef} (hs:Storable t) : readBack t=.ok t ↔ Limits t := by
 constructor
 · intro h
   rw [readBack] at h
   cases hrow:decodeRow (encodeRow (encodeTableDef t)) with
   | error e=>
    rw [hrow] at h
    cases h
   | ok row=>
    rw [hrow] at h
    obtain ⟨rfl,hidx,hfks,hchecks,hops⟩:=takeTableDef_inv (whole_inv h)
    exact ⟨hidx,hfks,hchecks,hops,decodeRow_fits hrow⟩
 · intro hl
   rw [readBack,decodeRow_encodeRow hl.row]
   exact whole_reads (takeTableDef_reads hs hl) _

open SchemaRuns List

/-- A loop that takes each column name once takes no more names than there are columns. -/
lemma names_length {t:TableDef} {loop:List Bytes → List Bytes → Except Status Unit}
 (hstep:∀ {seen c cs},loop seen (c::cs)=.ok () → t.columnIndex c≠none ∧ c∉seen ∧ loop (c::seen) cs=.ok ())
 {cs seen:List Bytes} (hnodup:seen.Nodup) (hsub:seen ⊆ t.columns.map ColumnDef.name) (h:loop seen cs=.ok ()) :
 cs.length+seen.length≤t.columns.length := by
 induction cs generalizing seen with
 | nil=>simpa using (hnodup.subperm hsub).length_le
 | cons c cs ih=>
  obtain ⟨hc,hseen,hrest⟩:=hstep h
  have hin:c∈t.columns.map ColumnDef.name:=by
   by_contra hno
   exact hc (findIdx?_eq_none_iff.mpr fun d hd=>beq_false_of_ne fun he=>hno (he ▸ mem_map_of_mem hd))
  have:=ih (nodup_cons.mpr ⟨hseen,hnodup⟩) (cons_subset.mpr ⟨hin,hsub⟩) hrest
  rw [length_cons] at this ⊢
  omega

lemma columns_scale {t:TableDef} {seen:List Bytes} {cs:List ColumnDef} (h:validateTableDef.columns t seen cs=.ok ()) :
 ∀ c∈cs,c.scale.toNat≤18 := by
 induction cs generalizing seen with
 | nil=>exact forall_mem_nil _
 | cons c cs ih=>
  obtain ⟨hc,h⟩:=seq_ok.mp (refused_ok (refused_ok h).2).2
  refine forall_mem_cons.mpr ⟨?_,ih h⟩
  by_contra hbig
  rw [validateColumn,if_pos] at hc
  · cases hc
  · split_ifs
    · exact UInt8.lt_iff_toNat_lt.mpr (not_le.mp hbig)
    · exact fun h0=>hbig (by simp [h0])

lemma validateCheck_operands {t:TableDef} {c:CheckDef} (h:validateCheck t c=.ok ()) :
 if c.otherColumn=[] then c.operands≠[] else c.operands=[] := by
 replace h:=(refused_ok h).2
 cases ha:t.column c.column with
 | none=>
  rw [ha] at h
  cases h
 | some a=>
  simp only [ha] at h
  by_cases ho:c.otherColumn=[]
  · rw [if_neg (not_not.mpr ho)] at h
    rw [if_pos ho]
    exact (refused_ok h).1
  · rw [if_pos ho] at h
    rw [if_neg ho]
    cases hb:t.column c.otherColumn with
    | none=>
     rw [hb] at h
     cases h
    | some b=>
     simp only [hb] at h
     exact not_not.mp (refused_ok (refused_ok (refused_ok h).2).2).1

lemma accepted_storable {cat:Catalog} {t:TableDef} (h:validateTableDef cat t=.ok ())
 (hroots:t.root<2^64 ∧ ∀ idx∈t.indexes,idx.root<2^64) : Storable t := by
 have hfks:=validateTableDef_ok h
 obtain ⟨hcolumns,h⟩:=refused_ok (refused_ok h).2
 obtain ⟨hmany,h⟩:=refused_ok h
 obtain ⟨hscales,h⟩:=seq_ok.mp h
 obtain ⟨hkey,h⟩:=seq_ok.mp (refused_ok h).2
 obtain ⟨hindexes,h⟩:=seq_ok.mp h
 have hmax:=not_lt.mp hmany
 have hlen:t.primaryKey.length≤4096:=(names_length (fun h=>⟨(refused_ok h).1,refused_ok (refused_ok h).2⟩)
  nodup_nil (nil_subset _) hkey).trans hmax
 have hidx:∀ idx∈t.indexes,idx.columns.length≤4096:=fun idx hidx=>by
  obtain ⟨i,hi,rfl⟩:=mem_iff_getElem.mp hidx
  have h:=allOk_iff.mp hindexes (t.indexes[i],i) (mem_zipIdx_iff_getElem?.mpr (getElem?_eq_getElem hi))
  exact (names_length (fun h=>⟨(refused_ok h).1,refused_ok (refused_ok h).2⟩) nodup_nil (nil_subset _)
   (refused_ok (refused_ok (refused_ok h).2).2).2).trans hmax
 refine ⟨⟨hcolumns,hmax⟩,columns_scale hscales,hlen,fun idx h=>⟨hidx idx h,hroots.2 idx h⟩,fun fk hfk=>?_,
  fun c hc=>validateCheck_operands (allNew_ok (seq_ok.mp h).2 c hc),hroots.1⟩
 have hle:fk.columns.length≤4096:=by
  rcases (validateForeignKey_ok (hfks fk hfk)).1 with hlead | ⟨idx,hin,hlead⟩
  · exact hlead.length_le.trans hlen
  · exact hlead.length_le.trans (hidx idx hin)
 have hsame:=not_not.mp (not_or.mp (refused_ok (refused_ok (hfks fk hfk)).2).1).2
 exact ⟨hle,hsame ▸ hle⟩

/-- Of the definitions that `createTable` accepts, those within the limits are read back as they were
written, and no other. -/
theorem accepted_readBack_iff {cat:Catalog} {t:TableDef} (h:validateTableDef cat t=.ok ())
  (hroots:t.root<2^64 ∧ ∀ idx∈t.indexes,idx.root<2^64) : readBack t=.ok t ↔ Limits t :=
 readBack_iff (accepted_storable h hroots)

theorem accepted_readBack_iff_plants : validateTableDef {} plants=.ok () ∧ readBack plants=.ok plants := by
 have h:validateTableDef {} plants=.ok ():=by decide
 exact ⟨h,(accepted_readBack_iff h (by decide)).mpr ⟨by decide,by decide,by decide,by decide,by decide,by decide⟩⟩

end Archivum.TableDefFormat
