import Archivum.SlottedPage

set_option autoImplicit false

/-!
# The B+tree over the pager

The functions of the tree as the source has them, over `WriteTxn`. A path is the
list of pages from the root down with the slot taken in each; an interior split
or a removal walks it back up by its depth index.
-/
namespace Archivum.BTreeModel
open ByteStrings StatefulActions PageTxn SlottedPage Node Act

def kOverflowHdr : ℕ := 8

def buildLeafCell (key inlineValue:Bytes) (overflowed:Bool) (totalLen overflowFirst:ℕ) :
  Bytes :=
 toLE 2 key.length++toLE 1 (if overflowed then 1 else 0)++toLE 4 totalLen++key ++
  (if overflowed then toLE 8 overflowFirst else inlineValue)

def buildInteriorCell (key:Bytes) (child:ℕ) : Bytes :=
 toLE 2 key.length++toLE 8 child++key

def maxCellBytes (pageSize:ℕ) : ℕ := (pageSize-kPageTrailerBytes-kHdr)/4-2

def maxKeyBytesFor (pageSize:ℕ) : ℕ := maxCellBytes pageSize-kLeafCellHdr-8

/-- The binary search loop `while (lo < hi)`; `fuel` bounds its rounds by `hi - lo`. -/
def bisect (before:ℕ → Bool) : ℕ → ℕ → ℕ → ℕ
 | 0,lo,_=>lo
 | fuel+1,lo,hi=>
  if lo<hi then
   let mid := (lo+hi)/2
   if before mid then bisect before fuel (mid+1) hi else bisect before fuel lo mid
  else lo

/-- The slot of the first key not below `k`. -/
def lowerBound (p k:Bytes) : ℕ :=
 bisect (fun i=>compareBytes (key p i) k == .lt) (count p) 0 (count p)

/-- The first separator strictly greater than the key: descend into its left child. -/
def childIndex (p k:Bytes) : ℕ :=
 bisect (fun i=>compareBytes (key p i) k != .gt) (count p) 0 (count p)

/-- `insert_cell(i, cells[i])` for each cell in turn. -/
def fillCells (p:Bytes) : ℕ → List Bytes → Bytes
 | _,[]=>p
 | i,c::cells=>fillCells (insertCell p i c) (i+1) cells

structure PathEntry where
 page : ℕ
 slot : ℕ
 deriving DecidableEq,Repr,Inhabited

structure BTree where
 root : ℕ
 pageSize : ℕ
 deriving DecidableEq,Repr

namespace BTree

def maxKeyBytes (b:BTree) : ℕ := maxKeyBytesFor b.pageSize

def create (pageSize:ℕ) : TxnM ℕ := do
 let page ← allocatePage
 writePage page (init pageSize kLeaf)
 return page

def overflowCap (b:BTree) : ℕ := b.pageSize-kPageTrailerBytes-kOverflowHdr

def allocatePages : ℕ → TxnM (List ℕ)
 | 0=>return []
 | n+1=>do
  let p ← allocatePage
  let ps ← allocatePages n
  return p::ps

def overflowImage (b:BTree) (next:ℕ) (chunk:Bytes) : Bytes :=
 patch (putU64 (List.replicate b.pageSize 0) 0 next) kOverflowHdr chunk

/-- Writes the chunks of `value` to `pages`, each linked to the next. -/
def writeChunks (b:BTree) : List ℕ → Bytes → TxnM Unit
 | [],_=>return ()
 | p::pages,value=>do
  writePage p (b.overflowImage (pages.headD 0) (value.take b.overflowCap))
  b.writeChunks pages (value.drop b.overflowCap)

def writeOverflow (b:BTree) (value:Bytes) : TxnM ℕ := do
 let pages ← allocatePages ((value.length+b.overflowCap-1)/b.overflowCap)
 b.writeChunks pages value
 return pages.headD 0

/-- `hops` is the number of pages the loop may still read. -/
def readOverflowLoop (b:BTree) : ℕ → ℕ → ℕ → Bytes → TxnM Bytes
 | 0,page,remaining,out=>
  if remaining=0 then return out
  else if page=0 then fail (corrupt "overflow chain ends early")
  else fail (corrupt "overflow chain too long")
 | hops+1,page,remaining,out=>
  if remaining=0 then return out
  else if page=0 then fail (corrupt "overflow chain ends early")
  else do
   let buf ← readPage page
   let len := min b.overflowCap remaining
   b.readOverflowLoop hops (getU64 buf 0) (remaining-len) (out++slice buf kOverflowHdr len)

def readOverflow (b:BTree) (first total:ℕ) : TxnM Bytes :=
 b.readOverflowLoop (total/b.overflowCap+2) first total []

def freeOverflowLoop : ℕ → ℕ → TxnM Unit
 | 0,page=>
  if page=0 then return () else fail (corrupt "overflow chain cycle")
 | hops+1,page=>
  if page=0 then return ()
  else do
   let buf ← readPage page
   freePage page
   freeOverflowLoop hops (getU64 buf 0)

def freeOverflow (first:ℕ) : TxnM Unit := freeOverflowLoop (2^24) first

def freeCellOverflow (leaf:Bytes) (slot:ℕ) : TxnM Unit :=
 if overflowed leaf slot then freeOverflow (overflowPage leaf slot) else return ()

def findLeafLoop (key:Bytes) : ℕ → ℕ → List PathEntry → TxnM (List PathEntry × Bytes)
 | 0,_,_=>fail (corrupt "b-tree too deep")
 | depth+1,page,path=>do
  let leaf ← readPage page
  if isLeaf leaf then
   return (path++[⟨page,lowerBound leaf key⟩],leaf)
  else if type leaf≠kInterior then
   fail (corrupt ("b-tree page " ++ toString page ++ " has bad type"))
  else
   let lo := childIndex leaf key
   let next:=if lo<count leaf then child leaf lo else right leaf
   if next=0 then fail (corrupt "b-tree interior page has null child")
   else findLeafLoop key depth next (path++[⟨page,lo⟩])

def findLeaf (b:BTree) (key:Bytes) : TxnM (List PathEntry × Bytes) :=
 findLeafLoop key 64 b.root []

/-- `path.back()` -/
def back (path:List PathEntry) : PathEntry := path.getLastD default

def leafValue (b:BTree) (leaf:Bytes) (slot:ℕ) : TxnM Bytes :=
 if overflowed leaf slot then
  b.readOverflow (overflowPage leaf slot) (valueLen leaf slot)
 else return inlineValue leaf slot

def get (b:BTree) (key:Bytes) : TxnM (Option Bytes) := do
 let (path,leaf) ← b.findLeaf key
 let slot:=(back path).slot
 if Node.count leaf ≤ slot ∨ compareBytes (Node.key leaf slot) key≠.eq then return none
 else do
  let value ← b.leafValue leaf slot
  return some value

def gatherInterior (p:Bytes) (slot:ℕ) (sep:Bytes) (child:ℕ) : List (Bytes × ℕ) :=
 ((List.range (count p)).flatMap fun i=>
  (if i=slot then [(sep,child)] else [])++[(Node.key p i,Node.child p i)]) ++
 (if slot=Node.count p then [(sep,child)] else [])

def interiorImage (pageSize:ℕ) (cells:List (Bytes × ℕ)) (right:ℕ) : Bytes :=
 setRight (fillCells (init pageSize kInterior) 0
  (cells.map fun c=>buildInteriorCell c.1 c.2)) right

/-- The parent's image after the child at `slot` split: `right_page` takes the child's old
position, and the pair `(sep, child)` is still to be inserted. -/
def redirect (p:Bytes) (slot rightPage:ℕ) : Bytes :=
 if slot<count p then setChild p slot rightPage else setRight p rightPage

def childAt (p:Bytes) (slot:ℕ) : ℕ :=
 if slot<count p then child p slot else right p

/-- One level of `insert_separator`; `up` is the call for the level above, none at the root. -/
def insertSeparatorAt (b:BTree) (at_:PathEntry) (up:Option (Bytes → ℕ → TxnM Unit))
  (sep:Bytes) (rightPage:ℕ) : TxnM Unit := do
 let buf ← readPage at_.page
 let child:=childAt buf at_.slot
 let buf:=redirect buf at_.slot rightPage
 let cell:=buildInteriorCell sep child
 if fits buf cell.length then
  writePage at_.page (insertCell buf at_.slot cell)
 else if fitsAfterDefrag buf cell.length then
  writePage at_.page (insertCell (defragment b.pageSize buf) at_.slot cell)
 else
  -- left keeps c0..c(m-1) with right child c(m).child; c(m).key is promoted
  let cells:=gatherInterior buf at_.slot sep child
  let m:=cells.length/2
  let mid:=cells.getD m default
  let newRight ← allocatePage
  let left:=interiorImage b.pageSize (cells.take m) mid.2
  let right:=interiorImage b.pageSize (cells.drop (m+1)) (right buf)
  match up with
  | none=>do
   let leftPage ← allocatePage
   writePage leftPage left
   writePage newRight right
   writePage b.root (interiorImage b.pageSize [(mid.1,leftPage)] newRight)
  | some up=>do
   writePage at_.page left
   writePage newRight right
   up mid.1 newRight

def insertSeparator (b:BTree) (path:List PathEntry) : ℕ → Bytes → ℕ → TxnM Unit
 | 0=>b.insertSeparatorAt (path.getD 0 default) none
 | depth+1=>
  b.insertSeparatorAt (path.getD (depth+1) default) (some (b.insertSeparator path depth))

def gatherLeaf (p:Bytes) (slot:ℕ) (cell:Bytes) : List Bytes :=
 ((List.range (count p)).flatMap fun i=>
  (if i=slot then [cell] else [])++[slice p (Node.slot p i) (Node.cellSize p i)]) ++
 (if slot=Node.count p then [cell] else [])

/-- `while (split < cells.size() - 1 && acc + cells[split].size() + 2 < total / 2)` -/
def splitLoop (half:ℕ) : List Bytes → ℕ → ℕ
 | c::d::cells,acc=>
  if acc+c.length+2<half then splitLoop half (d::cells) (acc+c.length+2)+1 else 0
 | _,_=>0

/-- Where a leaf is divided: by cumulative size, at least one cell on the left. -/
def splitPoint (cells:List Bytes) : ℕ :=
 let split:=splitLoop ((cells.map fun c=>c.length+2).sum/2) cells 0
 if split=0 then 1 else split

def leafImage (pageSize:ℕ) (cells:List Bytes) (prev right:ℕ) : Bytes :=
 setRight (setPrev (fillCells (init pageSize kLeaf) 0 cells) prev) right

/-- The cell for an entry; a value too large for a cell goes to an overflow chain. -/
def makeLeafCell (b:BTree) (key value:Bytes) : TxnM Bytes :=
 if maxCellBytes b.pageSize<kLeafCellHdr+key.length+value.length then do
  let first ← b.writeOverflow value
  return buildLeafCell key [] true (value.length%2^32) first
 else return buildLeafCell key value false (value.length%2^32) 0

/-- Changes a link field of the leaf `page`, if there is one. -/
def relink (page:ℕ) (link:Bytes → Bytes) : TxnM Unit :=
 if page≠0 then do
  let nb ← readPage page
  writePage page (link nb)
 else pure ()

def splitLeaf (b:BTree) (path:List PathEntry) (leaf:Bytes) (slot:ℕ) (cell:Bytes) :
  TxnM Unit := do
 let cells:=gatherLeaf leaf slot cell
 let split:=splitPoint cells
 let oldNext:=right leaf
 let oldPrev:=prev leaf
 let rightPage ← allocatePage
 -- the root must keep its page number: its left half moves to a new page
 let leftPage ← (if path.length=1 then allocatePage else pure (back path).page:TxnM ℕ)
 let right:=leafImage b.pageSize (cells.drop split) leftPage oldNext
 writePage leftPage (leafImage b.pageSize (cells.take split) oldPrev rightPage)
 writePage rightPage right
 relink oldNext fun nb=>setPrev nb rightPage
 let sep:=key right 0
 if path.length=1 then
  writePage b.root (interiorImage b.pageSize [(sep,leftPage)] rightPage)
 else b.insertSeparator path (path.length-2) sep rightPage

def insertIntoLeaf (b:BTree) (path:List PathEntry) (leaf key value:Bytes) (slot:ℕ)
  (replace:Bool) : TxnM Unit := do
 if replace then freeCellOverflow leaf slot
 let leaf:=if replace then removeCell leaf slot else leaf
 let cell ← b.makeLeafCell key value
 if fits leaf cell.length then
  writePage (back path).page (insertCell leaf slot cell)
 else if fitsAfterDefrag leaf cell.length then
  writePage (back path).page (insertCell (defragment b.pageSize leaf) slot cell)
 else b.splitLeaf path leaf slot cell

def keyLengthError (key:Bytes) : Status :=
 invalidArgument ("b-tree key length " ++ toString key.length ++ " out of range")

def put (b:BTree) (key value:Bytes) : TxnM Unit :=
 if key=[] ∨ b.maxKeyBytes<key.length then fail (keyLengthError key)
 else do
  let (path,leaf) ← b.findLeaf key
  let slot:=(back path).slot
  b.insertIntoLeaf path leaf key value slot
   (slot<Node.count leaf && compareBytes (Node.key leaf slot) key == .eq)

def insertIfAbsent (b:BTree) (key value:Bytes) : TxnM Bool :=
 if key=[] ∨ b.maxKeyBytes<key.length then fail (keyLengthError key)
 else do
  let (path,leaf) ← b.findLeaf key
  let slot:=(back path).slot
  if slot<Node.count leaf ∧ compareBytes (Node.key leaf slot) key=.eq then return false
  else do
   b.insertIntoLeaf path leaf key value slot false
   return true

/-- The node without the child at `slot`: its cell goes, or the last cell's child becomes
rightmost. -/
def dropChild (buf:Bytes) (slot:ℕ) : Bytes :=
 if slot<count buf then removeCell buf slot
 else removeCell (setRight buf (child buf (count buf-1)))
  (count buf-1)

/-- One level of `remove_child`; `parent` is the entry above and the call for that level. -/
def removeChildAt (b:BTree) (at_:PathEntry) (parent:Option (PathEntry × TxnM Unit)) :
  TxnM Unit := do
 let buf ← readPage at_.page
 if count buf ≤ at_.slot ∧ count buf=0 then
  -- the only child is gone: this node goes too
  match parent with
  | none=>writePage b.root (init b.pageSize kLeaf)
  | some (_,up)=>do
   freePage at_.page
   up
 else
  let buf:=dropChild buf at_.slot
  if 0<count buf then writePage at_.page buf
  else
   -- only the rightmost child remains: collapse this node into it
   let only:=right buf
   match parent with
   | none=>do
    let child ← readPage only
    writePage b.root child
    freePage only
   | some (g,_)=>do
    let gb ← readPage g.page
    writePage g.page (redirect gb g.slot only)
    freePage at_.page

def removeChild (b:BTree) (path:List PathEntry) : ℕ → TxnM Unit
 | 0=>b.removeChildAt (path.getD 0 default) none
 | depth+1=>
  b.removeChildAt (path.getD (depth+1) default)
   (some (path.getD depth default,b.removeChild path depth))

def unlinkLeaf (prev next:ℕ) : TxnM Unit := do
 relink prev fun nb=>setRight nb next
 relink next fun nb=>setPrev nb prev

def erase (b:BTree) (key:Bytes) : TxnM Bool := do
 let (path,leaf) ← b.findLeaf key
 let slot:=(back path).slot
 if Node.count leaf ≤ slot ∨ compareBytes (Node.key leaf slot) key≠.eq then return false
 else do
  freeCellOverflow leaf slot
  let leaf:=removeCell leaf slot
  let leafPage:=(back path).page
  if 0<count leaf ∨ path.length=1 then
   writePage leafPage leaf
  else do
   unlinkLeaf (prev leaf) (right leaf)
   freePage leafPage
   b.removeChild path (path.length-2)
  return true

end BTree

/-- A loop of the source without a bound of its own that is still running after `fuel` rounds. -/
def stillRunning : Status := ⟨.busy,"loop still running"⟩

structure Cursor where
 leaf : ℕ := 0
 slot : ℕ := 0
 page : Bytes := []
 key : Bytes := []
 valid : Bool := false
 deriving DecidableEq,Repr

namespace Cursor

/-- `load_slot`: moves on through `fuel` leaves at most to the next entry. -/
def loadSlot : ℕ → Cursor → TxnM Cursor
 | 0,_=>fail stillRunning
 | fuel+1,c=>
  if c.slot<count c.page then
   return { c with key:=Node.key c.page c.slot,valid:=true }
  else
   let next := right c.page
   if next=0 then return { c with valid:=false }
   else do
    let page ← readPage next
    loadSlot fuel { c with leaf:=next,slot:=0,page:=page }

def seek (b:BTree) (fuel:ℕ) (key:Bytes) (c:Cursor) : TxnM Cursor := do
 let (path,leaf) ← b.findLeaf key
 loadSlot fuel { c with page:=leaf,leaf:=(BTree.back path).page,
                        slot:=(BTree.back path).slot }

def seekFirstLoop (fuel:ℕ) (c:Cursor) : ℕ → ℕ → TxnM Cursor
 | 0,_=>fail (corrupt "b-tree too deep")
 | depth+1,page=>do
  let buf ← readPage page
  if isLeaf buf then loadSlot fuel { c with page:=buf,leaf:=page,slot:=0 }
  else seekFirstLoop fuel c depth (if 0<count buf then child buf 0 else right buf)

def seekFirst (b:BTree) (fuel:ℕ) (c:Cursor) : TxnM Cursor := seekFirstLoop fuel c 64 b.root

def seekLastLoop (c:Cursor) : ℕ → ℕ → TxnM Cursor
 | 0,_=>fail (corrupt "b-tree too deep")
 | depth+1,page=>do
  let buf ← readPage page
  if isLeaf buf then
   if count buf=0 then
    return { c with page:=buf,leaf:=page,valid:=false }
   else
    return { c with page:=buf,leaf:=page,slot:=count buf-1
                    key:=Node.key buf (Node.count buf-1),valid:=true }
  else seekLastLoop c depth (Node.right buf)

def seekLast (b:BTree) (c:Cursor) : TxnM Cursor := seekLastLoop c 64 b.root

def next (fuel:ℕ) (c:Cursor) : TxnM Cursor :=
 if c.valid then loadSlot fuel { c with slot:=c.slot+1 } else return c

/-- `while (slot_ == 0)` of `prev`, through `fuel` leaves at most. -/
def prevLoop : ℕ → Cursor → TxnM Cursor
 | 0,_=>fail stillRunning
 | fuel+1,c=>
  if c.slot=0 then
   let prev := prev c.page
   if prev=0 then return { c with valid:=false }
   else do
    let page ← readPage prev
    prevLoop fuel { c with leaf:=prev,page:=page,slot:=count page }
  else
   return { c with slot:=c.slot-1,key:=Node.key c.page (c.slot-1) }

def prev (fuel:ℕ) (c:Cursor) : TxnM Cursor :=
 if c.valid then prevLoop fuel c else return c

def value (b:BTree) (c:Cursor) : TxnM Bytes :=
 if c.valid then b.leafValue c.page c.slot
 else fail (invalidArgument "cursor not positioned")

end Cursor

/-- The loop of `for_each` from a cursor, for at most `n` entries. -/
def forEachLoop {α:Type} (b:BTree) (fuel:ℕ) (fn:Bytes → Bytes → α → TxnM α) :
  ℕ → Cursor → α → TxnM α
 | 0,_,_=>fail stillRunning
 | n+1,c,acc=>
  if c.valid then do
   let v ← c.value b
   let acc ← fn c.key v acc
   let c ← c.next fuel
   forEachLoop b fuel fn n c acc
  else return acc

/-- `for_each`; `fuel` bounds the leaves one step passes and the entries visited. -/
def BTree.forEach {α:Type} (b:BTree) (fuel:ℕ) (fn:Bytes → Bytes → α → TxnM α) (acc:α) :
  TxnM α := do
 let c ← Cursor.seekFirst b fuel {}
 forEachLoop b fuel fn fuel c acc

end Archivum.BTreeModel
