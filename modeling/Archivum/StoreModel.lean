import Archivum.TableDefs
import Archivum.TreeCheckModel
import Archivum.TreeRuns

set_option autoImplicit false

/-!
# The typed store

Tables, secondary indexes, constraints and the catalog, all stored as trees of
one database. A `Writer` works on a write transaction and on a private copy of
the catalog.
-/
namespace Archivum.StoreModel
open ByteStrings StatefulActions PageTxn SlottedPage BTreeModel TreeCheckModel RecordModel TableDefs Act
open TreeShape.Runs

def kCatalogRoot : ℕ := 1

def kVersionKey : UInt8 := 0
def kTableKeyTag : UInt8 := 1

def tableKey (name:Bytes) : Bytes := kTableKeyTag::name

def project (t:TableDef) (row:Row) (columns:List Bytes) : Row :=
 columns.map fun c=>((t.columnIndex c).bind fun i=>row[i]?).getD .null

def anyNull (r:Row) : Bool := r.any Value.isNull

def rowsEqual (a b:Row) : Bool := a.length == b.length && (a.zip b).all fun p=>p.1.equal p.2

def pkKeyOf (t:TableDef) (row:Row) : Bytes := encodeKey (project t row t.primaryKey)

def indexKeyOf (t:TableDef) (idx:IndexDef) (row:Row) (pkKey:Bytes) : Bytes :=
 encodeKey (project t row idx.columns)++pkKey

def compareHolds (op:CheckOp) (v o:Value) : Bool :=
 match op with
 | .eq=>v.compare o == .eq
 | .ne=>v.compare o != .eq
 | .lt=>v.compare o == .lt
 | .le=>v.compare o != .gt
 | .gt=>v.compare o == .gt
 | .ge=>v.compare o != .lt
 | .in=>false

def valueOf (t:TableDef) (row:Row) (column:Bytes) : Value := (project t row [column]).headD .null

def checkHolds (t:TableDef) (c:CheckDef) (row:Row) : Bool :=
 let v:=valueOf t row c.column
 if v.isNull then true
 else if c.otherColumn≠[] then
  let o:=valueOf t row c.otherColumn
  if o.isNull then true else compareHolds c.op v o
 else if c.op=.in then c.operands.any fun o=>v.compare o == .eq
 else compareHolds c.op v (c.operands.headD .null)

def validateValue (t:TableDef) (c:ColumnDef) (v:Value) : Except Status Unit :=
 if v.isNull then
  if !c.nullable then .error (constraint ("not null: " ++ text t.name ++ "." ++ text c.name)) else .ok ()
 else if !v.matches c.type then
  .error (invalidArgument ("column " ++ text t.name ++ "." ++ text c.name ++ " is " ++ c.type.toString ++
   ", value " ++ v.toString ++ " is not"))
 else match c.type,v with
  | .text,.text s=>
   if validUtf8 s then .ok ()
   else .error (invalidArgument ("column " ++ text t.name ++ "." ++ text c.name ++ ": text is not valid UTF-8"))
  | _,_=>.ok ()

def validateRow (t:TableDef) (row:Row) : Except Status Unit := do
 if row.length≠t.columns.length then
  throw (invalidArgument ("table " ++ text t.name ++ " has " ++ toString t.columns.length ++ " columns, row has " ++
   toString row.length))
 allOk (fun p=>validateValue t p.1 p.2) (t.columns.zip row)
 allOk (fun c=>if checkHolds t c row then .ok ()
  else .error (constraint ("check " ++ text c.name ++ " on " ++ text t.name))) t.checks

structure Writer where
 txn : WriteTxn
 /-- `edited_` -/
 catalog : Catalog
 finished : Bool := false
 /-- Not in the code: every node image that a split built so far fits its page, and the file stays
 within what a 64-bit offset reaches. -/
 fits : Bool := true
 /-- Not in the code: every tree used so far had at most 64 levels, and every value stored is
 shorter than 2^32 bytes and than 2^20 overflow pages. -/
 regular : Bool := true

abbrev WriterM := Act Status Writer

namespace Writer

def tree (w:Writer) (root:ℕ) : BTree := ⟨root,w.txn.pageSize⟩

/-- More rounds than a walk through the leaves and entries of a tree takes. -/
def rounds (σ:WriteTxn) : ℕ := (σ.header.pageCount+1)*(σ.pageSize+1)

def use {α:Type} (root:ℕ) (m:BTree → TxnM α) : WriterM α := fun w=>
 ((m (w.tree root) w.txn).1,{ w with
  txn:=(m (w.tree root) w.txn).2
  regular:=w.regular && decide (Shallow (w.tree root) w.txn) })

def smallValue (b:BTree) (value:Bytes) : Bool :=
 value.length<2^32 && value.length ≤ (2^20-1)*b.overflowCap

def call (root:ℕ) (op:Op) : WriterM Bool := fun w=>
 ((op.run (w.tree root) w.txn).1,{ w with
  txn:=(op.run (w.tree root) w.txn).2
  fits:=w.fits && decide (∀ cells∈op.splits (w.tree root) w.txn,CellsFit w.txn.pageSize cells) &&
   decide (w.txn.header.pageCount*w.txn.pageSize ≤ 2^63)
  regular:=w.regular && decide (Shallow (w.tree root) w.txn) && smallValue (w.tree root) op.value })

def put (root:ℕ) (key value:Bytes) : WriterM Unit := do
 let _ ← call root (.put key value)
 return ()

def erase (root:ℕ) (key:Bytes) : WriterM Bool := call root (.erase key)

/-- `BTree::create` -/
def create : WriterM ℕ := fun w=>
 ((BTree.create w.txn.pageSize w.txn).1,{ w with
  txn:=(BTree.create w.txn.pageSize w.txn).2
  fits:=w.fits && decide (w.txn.header.pageCount*w.txn.pageSize ≤ 2^63) })

def ofExcept {α:Type} : Except Status α → WriterM α
 | .ok a=>return a
 | .error e=>fail e

/-! ### Reading -/

def getByKey (t:TableDef) (pkKey:Bytes) : WriterM (Option Row) := do
 match ← use t.root fun b=>b.get pkKey with
 | none=>return none
 | some value=>do
  let row ← ofExcept (decodeRow value)
  return some row

def validateKeyValue (t:TableDef) (p:Bytes × Value) : Except Status Unit :=
 if p.2.isNull || !(t.column p.1).any (fun c=>p.2.matches c.type) then
  .error (invalidArgument ("primary key value " ++ p.2.toString ++ " does not match " ++ text p.1))
 else .ok ()

def get (table:Bytes) (primaryKey:Row) : WriterM (Option Row) := do
 let cat ← reads Writer.catalog
 match cat.table table with
 | none=>fail (notFound ("no table " ++ text table))
 | some t=>
  if primaryKey.length≠t.primaryKey.length then
   fail (invalidArgument ("primary key of " ++ text table ++ " has " ++ toString t.primaryKey.length ++
    " columns"))
  else do
   ofExcept (allOk (validateKeyValue t) (t.primaryKey.zip primaryKey))
   getByKey t (encodeKey primaryKey)

def prefixExists (root:ℕ) (values:Row) : WriterM Bool := do
 let c ← use root fun b σ=>Cursor.seek b (rounds σ) (encodeKey values) {} σ
 return c.valid && (encodeKey values).isPrefixOf c.key

def scanLoop (root fuel:ℕ) (fn:Bytes → WriterM Bool) : ℕ → Cursor → WriterM Unit
 | 0,_=>fail stillRunning
 | n+1,c=>
  if c.valid then do
   let go ← fn c.key
   if go then do
    let c ← use root fun _=>c.next fuel
    scanLoop root fuel fn n c
   else return ()
  else return ()

def scanRaw (t:TableDef) (fn:Bytes → WriterM Bool) : WriterM Unit := do
 let fuel ← reads fun w=>rounds w.txn
 let c ← use t.root fun b=>Cursor.seekFirst b fuel {}
 scanLoop t.root fuel fn fuel c

def uniqueIndex (t:TableDef) (columns:List Bytes) : Option IndexDef :=
 (t.indexes.filter fun idx=>idx.unique && idx.columns == columns).getLast?

def parentExists (parent:TableDef) (fk:ForeignKeyDef) (values:Row) : WriterM Bool :=
 if fk.refColumns=parent.primaryKey then do
  let r ← getByKey parent (encodeKey values)
  return r.isSome
 else match uniqueIndex parent fk.refColumns with
  | none=>fail (corrupt ("foreign key " ++ text fk.name ++ " lost its unique index"))
  | some uidx=>prefixExists uidx.root values

def forAll {α:Type} (f:α → WriterM Unit) : List α → WriterM Unit
 | []=>return ()
 | a::as=>do
  f a
  forAll f as

def checkParent (t:TableDef) (row:Row) (oldRow:Option Row) (fk:ForeignKeyDef) : WriterM Unit := do
 let values:=project t row fk.columns
 if anyNull values then return ()
 else if oldRow.any (fun old=>rowsEqual values (project t old fk.columns)) then return ()
 else do
  let cat ← reads Writer.catalog
  match (if fk.refTable=t.name then some t else cat.table fk.refTable) with
  | none=>fail (corrupt ("foreign key " ++ text fk.name ++ " references missing table"))
  | some parent=>do
   let found ← parentExists parent fk values
   if found then return ()
   else fail (constraint ("foreign key " ++ text fk.name ++ " on " ++ text t.name ++ ": no parent row in " ++
    text parent.name))

def checkParents (t:TableDef) (row:Row) (oldRow:Option Row) : WriterM Unit :=
 forAll (checkParent t row oldRow) t.foreignKeys

def childExists (child:TableDef) (fk:ForeignKeyDef) (values:Row) : WriterM Bool :=
 if pkSupports child fk.columns then prefixExists child.root values
 else match supportingIndex child fk.columns with
  | none=>fail (corrupt ("foreign key " ++ text fk.name ++ " lost its index"))
  | some idx=>prefixExists idx.root values

def checkNoChild (t:TableDef) (row:Row) (newRow:Option Row) (p:(Bytes × TableDef) × ForeignKeyDef) :
  WriterM Unit := do
 let values:=project t row p.2.refColumns
 if p.2.refTable≠t.name then return ()
 else if anyNull values then return ()
 else if newRow.any (fun new=>rowsEqual values (project t new p.2.refColumns)) then return ()
 else do
  let found ← childExists p.1.2 p.2 values
  if found then fail (constraint ("foreign key " ++ text p.2.name ++ " on " ++ text p.1.2.name ++ ": row of " ++
   text t.name ++ " is referenced"))
  else return ()

def allForeignKeys (cat:Catalog) : List ((Bytes × TableDef) × ForeignKeyDef) :=
 cat.tables.flatMap fun e=>e.2.foreignKeys.map fun fk=>(e,fk)

def checkNoChildren (t:TableDef) (row:Row) (newRow:Option Row) : WriterM Unit := do
 let cat ← reads Writer.catalog
 forAll (checkNoChild t row newRow) (allForeignKeys cat)

/-! ### Rows -/

def putIndexEntries (t:TableDef) (row:Row) (pkKey:Bytes) (oldRow:Option Row) : WriterM Unit :=
 forAll (fun idx=>
  if oldRow.any (fun old=>rowsEqual (project t row idx.columns) (project t old idx.columns)) then return ()
  else put idx.root (indexKeyOf t idx row pkKey) []) t.indexes

def eraseIndexEntry (t:TableDef) (row:Row) (pkKey:Bytes) (idx:IndexDef) : WriterM Unit := do
 let existed ← erase idx.root (indexKeyOf t idx row pkKey)
 if existed then return ()
 else fail (corrupt ("index " ++ text idx.name ++ " lacks the entry for a row"))

def maxKeyBytes (w:Writer) : ℕ := maxKeyBytesFor w.txn.pageSize

/-- The checks of one index before a row is stored: the length of its key, and uniqueness. -/
def checkIndex (t:TableDef) (row:Row) (pkKey:Bytes) (idx:IndexDef) : WriterM Unit := do
 let values:=project t row idx.columns
 let max ← reads maxKeyBytes
 if max<(encodeKey values).length+pkKey.length then
  fail (invalidArgument ("index key " ++ text idx.name ++ " too long"))
 else if !idx.unique || anyNull values then return ()
 else do
  let dup ← prefixExists idx.root values
  if dup then fail (constraint ("unique index " ++ text idx.name ++ " on " ++ text t.name)) else return ()

def insertUnchecked (t:TableDef) (row:Row) (checkFks:Bool) : WriterM Unit := do
 ofExcept (validateRow t row)
 let pkKey:=pkKeyOf t row
 let max ← reads maxKeyBytes
 if max<pkKey.length then fail (invalidArgument ("primary key of " ++ text t.name ++ " too long"))
 else do
  let existing ← use t.root fun b=>b.get pkKey
  if existing.isSome then fail (constraint ("primary key of " ++ text t.name))
  else do
   forAll (checkIndex t row pkKey) t.indexes
   onlyIf (checkFks=true) (checkParents t row none)
   put t.root pkKey (encodeRow row)
   putIndexEntries t row pkKey none

def unfinished {α:Type} (m:WriterM α) : WriterM α := do
 let finished ← reads Writer.finished
 if finished then fail (invalidArgument "transaction finished") else m

def withTable {α:Type} (table:Bytes) (m:TableDef → WriterM α) : WriterM α := unfinished do
 let cat ← reads Writer.catalog
 match cat.table table with
 | none=>fail (notFound ("no table " ++ text table))
 | some t=>m t

def insert (table:Bytes) (row:Row) : WriterM Unit := withTable table fun t=>insertUnchecked t row true

def sameIndexed (t:TableDef) (row oldRow:Row) (idx:IndexDef) : Bool :=
 rowsEqual (project t row idx.columns) (project t oldRow idx.columns)

def update (table:Bytes) (row:Row) : WriterM Unit := withTable table fun t=>do
 ofExcept (validateRow t row)
 let pkKey:=pkKeyOf t row
 match ← getByKey t pkKey with
 | none=>fail (notFound ("no row with that primary key in " ++ text table))
 | some oldRow=>
  if rowsEqual oldRow row then return ()
  else do
   forAll (fun idx=>if sameIndexed t row oldRow idx then return () else checkIndex t row pkKey idx) t.indexes
   checkParents t row (some oldRow)
   checkNoChildren t oldRow (some row)
   forAll (fun idx=>if sameIndexed t row oldRow idx then return () else eraseIndexEntry t oldRow pkKey idx)
    t.indexes
   put t.root pkKey (encodeRow row)
   putIndexEntries t row pkKey (some oldRow)

def remove (table:Bytes) (primaryKey:Row) : WriterM Unit := unfinished do
 match ← get table primaryKey with
 | none=>fail (notFound ("no row with that primary key in " ++ text table))
 | some oldRow=>withTable table fun t=>do
  checkNoChildren t oldRow none
  let pkKey:=encodeKey primaryKey
  forAll (eraseIndexEntry t oldRow pkKey) t.indexes
  let existed ← erase t.root pkKey
  if existed then return () else fail (corrupt "row vanished during remove")

/-! ### Schema -/

def editCatalog (f:Catalog → Catalog) : WriterM Unit := modify fun w=>{ w with catalog:=f w.catalog }

def saveTable (t:TableDef) : WriterM Unit := put kCatalogRoot (tableKey t.name) (encodeRow (encodeTableDef t))

def setSchemaVersion (version:UInt64) : WriterM Unit := unfinished do
 editCatalog fun c=>{ c with schemaVersion:=version }
 put kCatalogRoot [kVersionKey] (encodeRow [.integer ⟨version⟩])

/-- The columns of the primary key are not nullable, whatever the definition says. -/
def keyNotNull (def_:TableDef) : TableDef :=
 { def_ with columns:=def_.primaryKey.foldl (fun columns c=>
   match columns.findIdx? fun col=>col.name == c with
   | some ci=>columns.modify ci fun col=>{ col with nullable:=false }
   | none=>columns) def_.columns }

def createRoots : List IndexDef → WriterM (List IndexDef)
 | []=>return []
 | idx::rest=>do
  let root ← create
  let rest ← createRoots rest
  return { idx with root } :: rest

def createTable (def_:TableDef) : WriterM Unit := unfinished do
 let cat ← reads Writer.catalog
 if (cat.table def_.name).isSome then fail (alreadyExists ("table " ++ text def_.name))
 else do
  let def_:=keyNotNull def_
  ofExcept (validateTableDef cat def_)
  let root ← create
  let indexes ← createRoots def_.indexes
  let def_:={ def_ with root,indexes }
  editCatalog fun c=>c.set def_.name def_
  saveTable def_

def destroyTree (root:ℕ) : WriterM Unit := use root destroy

def refuseReferenced (table:Bytes) (p:(Bytes × TableDef) × ForeignKeyDef) : Except Status Unit :=
 if p.1.1≠table ∧ p.2.refTable=table then
  .error (invalidArgument ("table " ++ text table ++ " is referenced by foreign key " ++ text p.2.name ++ " on " ++
   text p.1.1))
 else .ok ()

def dropTable (table:Bytes) : WriterM Unit := withTable table fun t=>do
 let cat ← reads Writer.catalog
 ofExcept (allOk (refuseReferenced table) (allForeignKeys cat))
 destroyTree t.root
 forAll (fun idx=>destroyTree idx.root) t.indexes
 editCatalog fun c=>c.erase table
 let _ ← erase kCatalogRoot (tableKey table)
 return ()

def indexRow (t:TableDef) (idx:IndexDef) (pkKey:Bytes) : WriterM Bool := do
 match ← getByKey t pkKey with
 | none=>fail (corrupt "row vanished during index build")
 | some row=>do
  let values:=project t row idx.columns
  let max ← reads maxKeyBytes
  if max<(encodeKey values).length+pkKey.length then
   fail (invalidArgument ("index key " ++ text idx.name ++ " too long"))
  else do
   onlyIf (idx.unique=true ∧ anyNull values=false) (do
    let dup ← prefixExists idx.root values
    if dup then fail (constraint ("unique index " ++ text idx.name ++ " on " ++ text t.name ++
     ": existing rows are not unique")) else return ())
   put idx.root (encodeKey values++pkKey) []
   return true

def createIndex (table:Bytes) (def_:IndexDef) : WriterM Unit := withTable table fun t=>do
 ofExcept (validateIndexDef t def_ none)
 let root ← create
 let def_:={ def_ with root }
 let built ← attempt (scanRaw t (indexRow t def_))
 match built with
 | .error s=>do
  -- leave the transaction consistent for a constraint failure
  onlyIf (s.code=.constraint ∨ s.code=.invalidArgument) (destroyTree root)
  fail s
 | .ok _=>do
  let t:={ t with indexes:=t.indexes++[def_] }
  editCatalog fun c=>c.set table t
  saveTable t

def refuseSupport (without:TableDef) (index:Bytes) (fk:ForeignKeyDef) : Except Status Unit :=
 if !pkSupports without fk.columns && (supportingIndex without fk.columns).isNone then
  .error (invalidArgument ("index " ++ text index ++ " supports foreign key " ++ text fk.name))
 else .ok ()

def refuseTarget (table index:Bytes) (columns:List Bytes) (p:(Bytes × TableDef) × ForeignKeyDef) :
  Except Status Unit :=
 if p.2.refTable=table ∧ p.2.refColumns=columns then
  .error (invalidArgument ("index " ++ text index ++ " is the target of foreign key " ++ text p.2.name ++ " on " ++
   text p.1.1))
 else .ok ()

def dropIndex (table index:Bytes) : WriterM Unit := withTable table fun t=>
 match t.indexes.findIdx? fun i=>i.name == index with
 | none=>fail (notFound ("no index " ++ text index ++ " on " ++ text table))
 | some pos=>do
  let idx:=t.indexes.getD pos { name:=[],columns:=[] }
  let without:={ t with indexes:=t.indexes.eraseIdx pos }
  ofExcept (allOk (refuseSupport without index) without.foreignKeys)
  let cat ← reads Writer.catalog
  let otherUnique:=idx.columns=t.primaryKey ∨
   without.indexes.any fun other=>other.unique && other.columns == idx.columns
  onlyIf (idx.unique=true ∧ ¬otherUnique)
   (ofExcept (allOk (refuseTarget table index idx.columns) (allForeignKeys cat)))
  destroyTree idx.root
  editCatalog fun c=>c.set table without
  saveTable without

end Writer

def loadEntry (key value:Bytes) (out:Catalog) : Except Status Catalog :=
 match key with
 | []=>.error (corrupt "catalog: empty key")
 | tag::name=>do
  let row ← decodeRow value
  if tag=kVersionKey then
   match row with
   | [.integer v]=>return { out with schemaVersion:=v.toUInt64 }
   | _=>throw (corrupt "catalog: bad version entry")
  else if tag≠kTableKeyTag then throw (corrupt "catalog: unknown entry")
  else do
   let t ← decodeTableDef row
   if t.name≠name then throw (corrupt "catalog: table entry name mismatch")
   return out.set name t

/-- `load_catalog` on the pages of a transaction. -/
def loadCatalog : TxnM Catalog := fun σ=>
 BTree.forEach ⟨kCatalogRoot,σ.pageSize⟩ (Writer.rounds σ)
  (fun key value out σ=>(loadEntry key value out,σ)) {} σ

end Archivum.StoreModel
