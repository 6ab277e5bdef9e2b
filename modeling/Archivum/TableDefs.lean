import Archivum.RecordModel

set_option autoImplicit false

/-!
# Table definitions

What a table is, what the validator accepts, and the catalog row a definition is
stored as.
-/
namespace Archivum.TableDefs
open ByteStrings StatefulActions PageTxn Decoders RecordModel

structure ColumnDef where
 name : Bytes
 type : ColumnType := .integer
 nullable : Bool := true
 /-- Decimal only: digits after the point. -/
 scale : UInt8 := 0
 deriving DecidableEq

structure IndexDef where
 name : Bytes
 columns : List Bytes
 unique : Bool := false
 root : ℕ := 0
 deriving DecidableEq

inductive CheckOp
 | eq | ne | lt | le | gt | ge | «in»
 deriving DecidableEq,Repr

namespace CheckOp

def code : CheckOp → ℕ
 | eq=>1
 | ne=>2
 | lt=>3
 | le=>4
 | gt=>5
 | ge=>6
 | «in»=>7

/-- `static_cast<CheckOp>` of a number from 1 to 7. -/
def ofCode : ℕ → CheckOp
 | 1=>eq
 | 2=>ne
 | 3=>lt
 | 4=>le
 | 5=>gt
 | 6=>ge
 | _=>«in»

end CheckOp

/-- `column op constant`, `column IN (constants)`, or `column op other_column`. -/
structure CheckDef where
 name : Bytes
 column : Bytes
 op : CheckOp := .eq
 operands : List Value := []
 otherColumn : Bytes := []
 deriving DecidableEq

structure ForeignKeyDef where
 name : Bytes
 columns : List Bytes
 refTable : Bytes
 refColumns : List Bytes
 deriving DecidableEq

structure TableDef where
 name : Bytes
 columns : List ColumnDef
 primaryKey : List Bytes
 indexes : List IndexDef := []
 foreignKeys : List ForeignKeyDef := []
 checks : List CheckDef := []
 root : ℕ := 0
 deriving DecidableEq

def TableDef.columnIndex (t:TableDef) (name:Bytes) : Option ℕ :=
 t.columns.findIdx? fun c=>c.name == name

def TableDef.column (t:TableDef) (name:Bytes) : Option ColumnDef :=
 (t.columnIndex name).bind fun i=>t.columns[i]?

/-- `tables` as the map iterates it, by name. -/
structure Catalog where
 schemaVersion : UInt64 := 0
 tables : List (Bytes × TableDef) := []
 deriving DecidableEq

namespace Catalog

def table (c:Catalog) (name:Bytes) : Option TableDef := c.tables.lookup name

/-- The map's `tables[name] = t` on its entries. -/
def insertTable (name:Bytes) (t:TableDef) : List (Bytes × TableDef) → List (Bytes × TableDef)
 | []=>[(name,t)]
 | e::rest=>
  match compareBytes name e.1 with
  | .lt=>(name,t)::e::rest
  | .eq=>(name,t)::rest
  | .gt=>e::insertTable name t rest

def set (c:Catalog) (name:Bytes) (t:TableDef) : Catalog :=
 { c with tables:=insertTable name t c.tables }

def erase (c:Catalog) (name:Bytes) : Catalog :=
 { c with tables:=c.tables.filter fun e=>e.1≠name }

end Catalog

def allOk {α:Type} (f:α → Except Status Unit) : List α → Except Status Unit
 | []=>.ok ()
 | a::as=>do
  f a
  allOk f as

lemma seq_ok {m m':Except Status Unit} : (m >>= fun _=>m')=.ok () ↔ m=.ok () ∧ m'=.ok () := by
 cases m with
 | error e=>exact ⟨nofun,fun h=>nomatch h.1⟩
 | ok u=>exact ⟨fun h=>⟨rfl,h⟩,fun h=>h.2⟩

lemma allOk_iff {α:Type} {f:α → Except Status Unit} {l:List α} : allOk f l=.ok () ↔ ∀ a∈l,f a=.ok () := by
 induction l with
 | nil=>exact ⟨fun _ a ha=>(nomatch ha),fun _=>rfl⟩
 | cons a l ih=>
  rw [List.forall_mem_cons,← ih]
  exact seq_ok

/-- `seen.insert(key)` for each in turn: `e` where one is there already, `f` otherwise. -/
def allNew {α:Type} (key:α → Bytes) (e:α → Status) (f:α → Except Status Unit) :
  List Bytes → List α → Except Status Unit
 | _,[]=>.ok ()
 | seen,a::as=>do
  if key a∈seen then throw (e a)
  f a
  allNew key e f (key a::seen) as

lemma allNew_ok {α:Type} {key:α → Bytes} {e:α → Status} {f:α → Except Status Unit} {seen:List Bytes}
 {l:List α} (h:allNew key e f seen l=.ok ()) : ∀ a∈l,f a=.ok () := by
 induction l generalizing seen with
 | nil=>exact List.forall_mem_nil _
 | cons a l ih=>
  rw [allNew] at h
  by_cases hseen:key a∈seen
  · rw [if_pos hseen] at h
    cases h
  · rw [if_neg hseen] at h
    obtain ⟨ha,hl⟩:=seq_ok.mp h
    exact List.forall_mem_cons.mpr ⟨ha,ih hl⟩

/-- `self` is the position of the index among those of the table, none if it is new. -/
def validateIndexDef (t:TableDef) (idx:IndexDef) (self:Option ℕ) : Except Status Unit := do
 if idx.name=[] then throw (invalidArgument "index needs a name")
 if idx.columns=[] then throw (invalidArgument ("index " ++ text idx.name ++ " needs columns"))
 if t.indexes.zipIdx.any (fun other=>some other.2≠self && other.1.name == idx.name) then
  throw (alreadyExists ("index " ++ text idx.name ++ " on " ++ text t.name))
 -- the two checks of a column, in the order of the loop
 let rec columns:List Bytes → List Bytes → Except Status Unit
  | _,[]=>.ok ()
  | seen,c::cs=>do
   if t.columnIndex c=none then
    throw (invalidArgument ("index " ++ text idx.name ++ ": no column " ++ text c))
   if c∈seen then
    throw (invalidArgument ("index " ++ text idx.name ++ ": column " ++ text c ++ " repeated"))
   columns (c::seen) cs
 columns [] idx.columns

def pkSupports (t:TableDef) (columns:List Bytes) : Bool := columns.isPrefixOf t.primaryKey

/-- The index whose leading columns are exactly `columns`. -/
def supportingIndex (t:TableDef) (columns:List Bytes) : Option IndexDef :=
 t.indexes.find? fun idx=>columns.isPrefixOf idx.columns

def validateForeignKeyColumn (t parent:TableDef) (fk:ForeignKeyDef) (pair:Bytes × Bytes) :
  Except Status Unit := do
 match t.column pair.1,parent.column pair.2 with
 | none,_=>throw (invalidArgument ("foreign key " ++ text fk.name ++ ": no column " ++ text pair.1))
 | some _,none=>throw (invalidArgument ("foreign key " ++ text fk.name ++ ": no column " ++ text pair.2))
 | some a,some b=>
  if a.type≠b.type ∨ a.scale≠b.scale then
   throw (invalidArgument ("foreign key " ++ text fk.name ++ ": " ++ text a.name ++ " and " ++ text b.name ++
    " differ in type"))

def validateForeignKey (cat:Catalog) (t:TableDef) (fk:ForeignKeyDef) : Except Status Unit := do
 if fk.name=[] then throw (invalidArgument "foreign key needs a name")
 if fk.columns=[] ∨ fk.columns.length≠fk.refColumns.length then
  throw (invalidArgument ("foreign key " ++ text fk.name ++ ": column lists differ"))
 match (if fk.refTable=t.name then some t else cat.table fk.refTable) with
 | none=>throw (invalidArgument ("foreign key " ++ text fk.name ++ ": no table " ++ text fk.refTable))
 | some parent=>
  if ¬(fk.refColumns=parent.primaryKey ∨
    parent.indexes.any fun idx=>idx.unique && idx.columns == fk.refColumns) then
   throw (invalidArgument ("foreign key " ++ text fk.name ++
    ": referenced columns are not the primary key or a unique index of " ++ text parent.name))
  allOk (validateForeignKeyColumn t parent fk) (fk.columns.zip fk.refColumns)
  if !pkSupports t fk.columns && (supportingIndex t fk.columns).isNone then
   throw (invalidArgument ("foreign key " ++ text fk.name ++ ": needs an index on " ++ text t.name ++
    " whose leading columns are the foreign key columns"))

def validateCheck (t:TableDef) (c:CheckDef) : Except Status Unit := do
 if c.name=[] then throw (invalidArgument "check needs a name")
 match t.column c.column with
 | none=>throw (invalidArgument ("check " ++ text c.name ++ ": no column " ++ text c.column))
 | some a=>
  if c.otherColumn≠[] then
   match t.column c.otherColumn with
   | none=>throw (invalidArgument ("check " ++ text c.name ++ ": no column " ++ text c.otherColumn))
   | some b=>
    if t.columnIndex c.otherColumn=t.columnIndex c.column then
     throw (invalidArgument ("check " ++ text c.name ++ ": compares " ++ text c.column ++ " with itself"))
    if c.op=.in then
     throw (invalidArgument ("check " ++ text c.name ++ ": IN takes constants, not a column"))
    if c.operands≠[] then
     throw (invalidArgument ("check " ++ text c.name ++ ": a column comparison takes no constant"))
    if a.type≠b.type ∨ a.scale≠b.scale then
     throw (invalidArgument ("check " ++ text c.name ++ ": " ++ text c.column ++ " and " ++
      text c.otherColumn ++ " differ in type"))
  else
   if c.operands=[] then throw (invalidArgument ("check " ++ text c.name ++ ": needs an operand"))
   if c.op≠.in ∧ c.operands.length≠1 then
    throw (invalidArgument ("check " ++ text c.name ++ ": needs exactly one operand"))
   allOk (fun v=>do
    if v.isNull || !v.matches a.type then
     throw (invalidArgument ("check " ++ text c.name ++ ": operand " ++ v.toString ++ " does not match " ++
      text c.column))) c.operands

def validateColumn (t:TableDef) (c:ColumnDef) : Except Status Unit := do
 if (if c.type=.decimal then 18<c.scale else c.scale≠0) then
  throw (invalidArgument ("column " ++ text t.name ++ "." ++ text c.name ++ ": bad scale"))

def validateTableDef (cat:Catalog) (t:TableDef) : Except Status Unit := do
 if t.name=[] then throw (invalidArgument "table needs a name")
 if t.columns=[] then throw (invalidArgument ("table " ++ text t.name ++ " needs columns"))
 if 4096<t.columns.length then throw (invalidArgument ("table " ++ text t.name ++ ": too many columns"))
 let rec columns:List Bytes → List ColumnDef → Except Status Unit
  | _,[]=>.ok ()
  | seen,c::cs=>do
   if c.name=[] then throw (invalidArgument ("table " ++ text t.name ++ ": column needs a name"))
   if c.name∈seen then
    throw (invalidArgument ("table " ++ text t.name ++ ": column " ++ text c.name ++ " repeated"))
   validateColumn t c
   columns (c.name::seen) cs
 columns [] t.columns
 if t.primaryKey=[] then throw (invalidArgument ("table " ++ text t.name ++ " needs a primary key"))
 let rec keyColumns:List Bytes → List Bytes → Except Status Unit
  | _,[]=>.ok ()
  | seen,c::cs=>do
   if t.columnIndex c=none then
    throw (invalidArgument ("primary key of " ++ text t.name ++ ": no column " ++ text c))
   if c∈seen then
    throw (invalidArgument ("primary key of " ++ text t.name ++ ": column " ++ text c ++ " repeated"))
   keyColumns (c::seen) cs
 keyColumns [] t.primaryKey
 allOk (fun idx=>validateIndexDef t idx.1 (some idx.2)) t.indexes.zipIdx
 allNew ForeignKeyDef.name (fun fk=>invalidArgument ("foreign key " ++ text fk.name ++ " repeated"))
  (validateForeignKey cat t) [] t.foreignKeys
 allNew CheckDef.name (fun c=>invalidArgument ("check " ++ text c.name ++ " repeated"))
  (validateCheck t) [] t.checks

def count (n:ℕ) : Value := .integer (Int64.ofNat n)

def textsRow (v:List Bytes) : Row := count v.length::v.map Value.text

def columnRow (c:ColumnDef) : Row :=
 [.text c.name,count c.type.code,.boolean c.nullable,count c.scale.toNat]

def indexRow (idx:IndexDef) : Row :=
 [.text idx.name,count idx.root,.boolean idx.unique]++textsRow idx.columns

def foreignKeyRow (fk:ForeignKeyDef) : Row :=
 [.text fk.name,.text fk.refTable]++textsRow fk.columns++textsRow fk.refColumns

def checkRow (c:CheckDef) : Row :=
 [.text c.name,.text c.column,.text c.otherColumn,count c.op.code,count c.operands.length]++c.operands

def encodeTableDef (t:TableDef) : Row :=
 [.text t.name,count t.root] ++
 (count t.columns.length::t.columns.flatMap columnRow) ++
 textsRow t.primaryKey ++
 (count t.indexes.length::t.indexes.flatMap indexRow) ++
 (count t.foreignKeys.length::t.foreignKeys.flatMap foreignKeyRow) ++
 (count t.checks.length::t.checks.flatMap checkRow)

/-! `RowCursor`: reads the values of a catalog row in turn. -/

def takeText : Act Status Row Bytes
 | .text s::rest=>(.ok s,rest)
 | row=>(.error (corrupt "catalog: expected text"),row)

def takeInteger : Act Status Row Int64
 | .integer i::rest=>(.ok i,rest)
 | row=>(.error (corrupt "catalog: expected integer"),row)

def takeBoolean : Act Status Row Bool
 | .boolean b::rest=>(.ok b,rest)
 | row=>(.error (corrupt "catalog: expected boolean"),row)

def takeValue : Act Status Row Value
 | v::rest=>(.ok v,rest)
 | []=>(.error (corrupt "catalog: expected value"),[])

/-- A count between `lo` and 4096, `e` otherwise, and then so many items. -/
def takeList {α:Type} (lo:Int) (e:String) (item:Act Status Row α) : Act Status Row (List α) := do
 let n ← takeInteger
 if n.toInt<lo ∨ 4096<n.toInt then Act.fail (corrupt e)
 else times item n.toInt.toNat

def takeTexts : Act Status Row (List Bytes) := takeList 0 "catalog: bad list length" takeText

def takeColumn : Act Status Row ColumnDef := do
 let name ← takeText
 let type ← takeInteger
 let nullable ← takeBoolean
 let scale ← takeInteger
 if type.toInt<1 ∨ 7<type.toInt ∨ scale.toInt<0 ∨ 18<scale.toInt then
  Act.fail (corrupt "catalog: bad column")
 else return { name,type:=.ofCode type.toInt.toNat,nullable,scale:=UInt8.ofNat scale.toInt.toNat }

def takeIndex : Act Status Row IndexDef := do
 let name ← takeText
 let root ← takeInteger
 let unique ← takeBoolean
 let columns ← takeTexts
 return { name,root:=root.toUInt64.toNat,unique,columns }

def takeForeignKey : Act Status Row ForeignKeyDef := do
 let name ← takeText
 let refTable ← takeText
 let columns ← takeTexts
 let refColumns ← takeTexts
 return { name,refTable,columns,refColumns }

def takeCheck : Act Status Row CheckDef := do
 let name ← takeText
 let column ← takeText
 let otherColumn ← takeText
 let op ← takeInteger
 let nops ← takeInteger
 if op.toInt<1 ∨ 7<op.toInt ∨ nops.toInt<0 ∨ 4096<nops.toInt then
  Act.fail (corrupt "catalog: bad check")
 else if (if otherColumn=[] then nops.toInt<1 else nops.toInt≠0) then
  Act.fail (corrupt "catalog: bad check operands")
 else do
  let operands ← times takeValue nops.toInt.toNat
  return { name,column,otherColumn,op:=.ofCode op.toInt.toNat,operands }

def takeTableDef : Act Status Row TableDef := do
 let name ← takeText
 let root ← takeInteger
 let columns ← takeList 1 "catalog: bad column count" takeColumn
 let primaryKey ← takeTexts
 let indexes ← takeList 0 "catalog: bad index count" takeIndex
 let foreignKeys ← takeList 0 "catalog: bad foreign key count" takeForeignKey
 let checks ← takeList 0 "catalog: bad check count" takeCheck
 return { name,root:=root.toUInt64.toNat,columns,primaryKey,indexes,foreignKeys,checks }

def decodeTableDef (row:Row) : Except Status TableDef :=
 whole takeTableDef (corrupt "catalog: trailing values") row

end Archivum.TableDefs
