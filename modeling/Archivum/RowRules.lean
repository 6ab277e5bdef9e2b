import Archivum.StoreModel

set_option autoImplicit false

/-!
# The constraints of a store, on its rows

What a writer checks before it stores, changes or removes a row, read off the
rows of the tables instead of their trees.
-/
namespace Archivum.RowRules
open ByteStrings StatefulActions PageTxn SlottedPage BTreeModel RecordModel TableDefs StoreModel

/-- A store as the rows of its tables, each in primary key order. -/
structure Tables where
 pageSize : ℕ
 catalog : Catalog
 rows : Bytes → List Row

def prefixExists (rows:List Row) (t:TableDef) (idx:IndexDef) (values:Row) : Bool :=
 rows.any fun r=>(encodeKey values).isPrefixOf (indexKeyOf t idx r (pkKeyOf t r))

/-- Whether a row is found in the table under these first values of its key. -/
def pkPrefixExists (rows:List Row) (t:TableDef) (values:Row) : Bool :=
 rows.any fun r=>(encodeKey values).isPrefixOf (pkKeyOf t r)

namespace Tables

variable (s:Tables) (t:TableDef)

def find (pkKey:Bytes) : Option Row := (s.rows t.name).find? fun r=>pkKeyOf t r == pkKey

def checkKeyLength (row:Row) : Except Status Unit :=
 if maxKeyBytesFor s.pageSize<(pkKeyOf t row).length then
  .error (invalidArgument ("primary key of " ++ text t.name ++ " too long"))
 else .ok ()

def checkIndex (row:Row) (idx:IndexDef) : Except Status Unit :=
 let values:=project t row idx.columns
 if maxKeyBytesFor s.pageSize<(encodeKey values).length+(pkKeyOf t row).length then
  .error (invalidArgument ("index key " ++ text idx.name ++ " too long"))
 else if !idx.unique || anyNull values then .ok ()
 else if prefixExists (s.rows t.name) t idx values then
  .error (constraint ("unique index " ++ text idx.name ++ " on " ++ text t.name))
 else .ok ()

def parentExists (parent:TableDef) (fk:ForeignKeyDef) (values:Row) : Except Status Bool :=
 if fk.refColumns=parent.primaryKey then .ok (s.find parent (encodeKey values)).isSome
 else match Writer.uniqueIndex parent fk.refColumns with
  | none=>.error (corrupt ("foreign key " ++ text fk.name ++ " lost its unique index"))
  | some uidx=>.ok (prefixExists (s.rows parent.name) parent uidx values)

def checkParent (row:Row) (oldRow:Option Row) (fk:ForeignKeyDef) : Except Status Unit := do
 let values:=project t row fk.columns
 if anyNull values then return ()
 else if oldRow.any (fun old=>rowsEqual values (project t old fk.columns)) then return ()
 else match (if fk.refTable=t.name then some t else s.catalog.table fk.refTable) with
  | none=>throw (corrupt ("foreign key " ++ text fk.name ++ " references missing table"))
  | some parent=>
   let found ← s.parentExists parent fk values
   if found then return ()
   else throw (constraint ("foreign key " ++ text fk.name ++ " on " ++ text t.name ++ ": no parent row in " ++
    text parent.name))

def checkParents (row:Row) (oldRow:Option Row) : Except Status Unit :=
 allOk (s.checkParent t row oldRow) t.foreignKeys

def childExists (child:TableDef) (fk:ForeignKeyDef) (values:Row) : Except Status Bool :=
 if pkSupports child fk.columns then .ok (pkPrefixExists (s.rows child.name) child values)
 else match supportingIndex child fk.columns with
  | none=>.error (corrupt ("foreign key " ++ text fk.name ++ " lost its index"))
  | some idx=>.ok (prefixExists (s.rows child.name) child idx values)

def checkNoChild (row:Row) (newRow:Option Row) (p:(Bytes × TableDef) × ForeignKeyDef) :
  Except Status Unit := do
 let values:=project t row p.2.refColumns
 if p.2.refTable≠t.name then return ()
 else if anyNull values then return ()
 else if newRow.any (fun new=>rowsEqual values (project t new p.2.refColumns)) then return ()
 else
  let found ← s.childExists p.1.2 p.2 values
  if found then throw (constraint ("foreign key " ++ text p.2.name ++ " on " ++ text p.1.2.name ++ ": row of " ++
   text t.name ++ " is referenced"))
  else return ()

def checkNoChildren (row:Row) (newRow:Option Row) : Except Status Unit :=
 allOk (s.checkNoChild t row newRow) (Writer.allForeignKeys s.catalog)

/-- What is checked before a row is stored, apart from the primary key. -/
def checkNewRow (row:Row) : Except Status Unit := do
 allOk (s.checkIndex t row) t.indexes
 s.checkParents t row none

def checkChange (oldRow row:Row) : Except Status Unit := do
 allOk (fun idx=>if Writer.sameIndexed t row oldRow idx then .ok () else s.checkIndex t row idx) t.indexes
 s.checkParents t row (some oldRow)
 s.checkNoChildren t oldRow (some row)

end Tables

end Archivum.RowRules
