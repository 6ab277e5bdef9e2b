import Archivum.PageTxn

set_option autoImplicit false

/-!
# Slotted pages

The `Node` view of a B+tree page body: a 24-byte header, a slot array that
grows up from it, and cells that grow down from the end of the body. The
definitions read and write the page bytes as the source does. `Slotted` is the
page invariant: every slot points at a cell inside the body, cells are disjoint,
and `content_start` plus the fragment count accounts for every unused byte.
-/
namespace Archivum.SlottedPage
open ByteStrings PageTxn

def kLeaf : ℕ := 1
def kInterior : ℕ := 2
def kHdr : ℕ := 24
def kLeafCellHdr : ℕ := 7
def kInteriorCellHdr : ℕ := 10

namespace Node

def usable (pageSize:ℕ) : ℕ := pageSize-kPageTrailerBytes

def type (p:Bytes) : ℕ := getLE 1 p 0
def isLeaf (p:Bytes) : Bool := type p == kLeaf
def count (p:Bytes) : ℕ := getU16 p 2
def setCount (p:Bytes) (v:ℕ) : Bytes := putU16 p 2 v
def contentStart (p:Bytes) : ℕ := getU16 p 4
def setContentStart (p:Bytes) (v:ℕ) : Bytes := putU16 p 4 v
def frag (p:Bytes) : ℕ := getU16 p 6
def setFrag (p:Bytes) (v:ℕ) : Bytes := putU16 p 6 v
def right (p:Bytes) : ℕ := getU64 p 8
def setRight (p:Bytes) (v:ℕ) : Bytes := putU64 p 8 v
def prev (p:Bytes) : ℕ := getU64 p 16
def setPrev (p:Bytes) (v:ℕ) : Bytes := putU64 p 16 v

def slot (p:Bytes) (i:ℕ) : ℕ := getU16 p (kHdr+2*i)
def setSlot (p:Bytes) (i off:ℕ) : Bytes := putU16 p (kHdr+2*i) off

def keyLen (p:Bytes) (i:ℕ) : ℕ := getU16 p (slot p i)
def key (p:Bytes) (i:ℕ) : Bytes :=
 slice p (slot p i+if isLeaf p then kLeafCellHdr else kInteriorCellHdr) (keyLen p i)

def flags (p:Bytes) (i:ℕ) : ℕ := getLE 1 p (slot p i+2)
def overflowed (p:Bytes) (i:ℕ) : Bool := flags p i%2 == 1
def valueLen (p:Bytes) (i:ℕ) : ℕ := getU32 p (slot p i+3)
def inlineValue (p:Bytes) (i:ℕ) : Bytes :=
 slice p (slot p i+(kLeafCellHdr+keyLen p i)) (valueLen p i)
def overflowPage (p:Bytes) (i:ℕ) : ℕ := getU64 p (slot p i+(kLeafCellHdr+keyLen p i))

def child (p:Bytes) (i:ℕ) : ℕ := getU64 p (slot p i+2)
def setChild (p:Bytes) (i c:ℕ) : Bytes := putU64 p (slot p i+2) c

def cellSize (p:Bytes) (i:ℕ) : ℕ :=
 if isLeaf p then kLeafCellHdr+keyLen p i+(if overflowed p i then 8 else valueLen p i)
 else kInteriorCellHdr+keyLen p i

def freeSpace (p:Bytes) : ℕ := contentStart p-(kHdr+2*count p)
def fits (p:Bytes) (cellBytes:ℕ) : Bool := cellBytes+2 ≤ freeSpace p
def fitsAfterDefrag (p:Bytes) (cellBytes:ℕ) : Bool := cellBytes+2 ≤ freeSpace p+frag p

/-- `Node::init`: an empty node of the given type. -/
def init (pageSize ty:ℕ) : Bytes :=
 let p:=List.replicate pageSize (0:UInt8)
 let p:=putLE 1 p 0 ty
 let p:=setCount p 0
 let p:=setContentStart p (usable pageSize)
 let p:=setFrag p 0
 let p:=setRight p 0
 setPrev p 0

/-- The subtraction is in `size_t`, the result is cut to 16 bits. -/
def insertCell (p:Bytes) (at_:ℕ) (cell:Bytes) : Bytes :=
 let n:=count p
 let off:=(contentStart p+2^64-cell.length)%2^16
 let p:=patch p off cell
 let p:=patch p (kHdr+2*(at_+1)) (slice p (kHdr+2*at_) (2*(n-at_)))
 let p:=setSlot p at_ off
 let p:=setCount p (n+1)
 setContentStart p off

def removeCell (p:Bytes) (at_:ℕ) : Bytes :=
 let n:=count p
 let size:=cellSize p at_
 let p:=setFrag p (frag p+size)
 let p:=patch p (kHdr+2*at_) (slice p (kHdr+2*(at_+1)) (2*(n-at_-1)))
 setCount p (n-1)

/-- The copy loop of `defragment` after `i` cells: next offset, scratch, new offsets. -/
def packCells (pageSize:ℕ) (p:Bytes) : ℕ → ℕ × Bytes × List ℕ
 | 0=>(usable pageSize,List.replicate (usable pageSize) 0,[])
 | i+1=>
  let (off,scratch,offs) := packCells pageSize p i
  let off':=off-cellSize p i
  (off',patch scratch off' (slice p (slot p i) (cellSize p i)),offs++[off'])

def setSlots (p:Bytes) : ℕ → List ℕ → Bytes
 | _,[]=>p
 | i,off::offs=>setSlots (setSlot p i off) (i+1) offs

def defragment (pageSize:ℕ) (p:Bytes) : Bytes :=
 let (off,scratch,offs):=packCells pageSize p (count p)
 let p:=patch p off (slice scratch off (usable pageSize-off))
 let p:=setSlots p 0 offs
 let p:=setContentStart p off
 setFrag p 0

end Node

def cellBytes (ty:ℕ) (c:Bytes) : ℕ :=
 if ty=kLeaf then
  kLeafCellHdr+getU16 c 0+(if getLE 1 c 2%2=1 then 8 else getU32 c 3)
 else kInteriorCellHdr+getU16 c 0

/-- `p` is a well-formed page of type `ty` whose cells, in slot order, are `cells`. -/
structure Slotted (ps:ℕ) (p:Bytes) (ty:ℕ) (cells:List Bytes) : Prop where
 size_min : kMinPageSize ≤ ps
 size_max : ps ≤ kMaxPageSize
 length : p.length=ps
 type : Node.type p=ty
 count : Node.count p=cells.length
 slots_le : kHdr+2*cells.length ≤ Node.contentStart p
 lo : ∀ (i:ℕ) (c:Bytes),cells[i]? = some c → Node.contentStart p ≤ Node.slot p i
 hi : ∀ (i:ℕ) (c:Bytes),cells[i]? = some c → Node.slot p i+c.length ≤ ps-4
 bytes : ∀ (i:ℕ) (c:Bytes),cells[i]? = some c → slice p (Node.slot p i) c.length=c
 sized : ∀ c∈cells,cellBytes ty c=c.length
 apart : ∀ (i j:ℕ) (c d:Bytes),i≠j → cells[i]? = some c → cells[j]? = some d →
  Node.slot p i+c.length ≤ Node.slot p j ∨ Node.slot p j+d.length ≤ Node.slot p i
 account : Node.contentStart p+Node.frag p+(cells.map List.length).sum=ps-4

namespace Node

section InsertCell
variable {p c:Bytes} {n at_ off:ℕ}

lemma insertCell_eq (hn:count p=n) (hoff:off+c.length=contentStart p) : insertCell p at_ c =
  putU16 (putU16 (putU16 (patch (patch p off c) (kHdr+2*(at_+1))
   (slice (patch p off c) (kHdr+2*at_) (2*(n-at_)))) (kHdr+2*at_) off) 2 (n+1)) 4 off := by
 have hlt:contentStart p<2^16:=getLE_lt 2 p 4
 have ho:(contentStart p+2^64-c.length)%2^16=off:=by omega
 simp only [insertCell,ho,hn,setSlot,setCount,setContentStart]

@[simp] lemma insertCell_length : (insertCell p at_ c).length=p.length := by
 simp only [insertCell,setSlot,setCount,setContentStart,putLE_length,patch_length]

variable (hn:count p=n) (hat:at_ ≤ n) (hoff:off+c.length=contentStart p)
 (hfit:kHdr+2*(n+1) ≤ off) (hlen:off+c.length ≤ p.length)
include hn hoff

lemma insertCell_slice (o l:ℕ) (h1:o+l≤2 ∨ 6≤o) (h2:o+l≤kHdr+2*at_ ∨ kHdr+2*(n+1)≤o) (hat:at_≤n)
 (h3:o+l≤off ∨ off+c.length≤o) : slice (insertCell p at_ c) o l=slice p o l := by
 have hm:=slice_length_le (patch p off c) (kHdr+2*at_) (2*(n-at_))
 rw [insertCell_eq hn hoff,slice_putLE_disjoint _ _ _ _ _ _ (by omega),
  slice_putLE_disjoint _ _ _ _ _ _ (by omega),slice_putLE_disjoint _ _ _ _ _ _ (by omega),
  slice_patch_disjoint _ _ _ _ _ (by omega),slice_patch_disjoint _ _ _ _ _ (by omega)]

include hat hfit hlen

omit hat in
lemma insertCell_count (hb:n+1<2^16) : count (insertCell p at_ c)=n+1 := by
 rw [insertCell_eq hn hoff,count,getU16,getLE_putLE_disjoint _ _ _ _ _ _ (by omega)]
 simp only [kHdr] at hfit
 exact getLE_putLE_self 2 _ 2 _ (by simp only [putLE_length,patch_length]; omega) (by omega)

omit hat in
lemma insertCell_contentStart : contentStart (insertCell p at_ c)=off := by
 have hlt:contentStart p<2^16:=getLE_lt 2 p 4
 simp only [kHdr] at hfit
 rw [insertCell_eq hn hoff]
 exact getLE_putLE_self 2 _ 4 _ (by simp only [putLE_length,patch_length]; omega) (by omega)

lemma insertCell_cell : slice (insertCell p at_ c) off c.length=c := by
 have hm:=slice_length_le (patch p off c) (kHdr+2*at_) (2*(n-at_))
 simp only [kHdr] at hfit hm
 rw [insertCell_eq hn hoff,slice_putLE_disjoint _ _ _ _ _ _ (by omega),slice_putLE_disjoint _ _ _ _ _ _ (by omega),
  slice_putLE_disjoint _ _ _ _ _ _ (by simp only [kHdr]; omega),
  slice_patch_disjoint _ _ _ _ _ (by simp only [kHdr]; omega),slice_patch_self _ _ _ hlen]

omit hlen in
lemma insertCell_slot_before (i:ℕ) (hi:i<at_) : slot (insertCell p at_ c) i=slot p i := by
 simp only [kHdr] at hfit
 rw [slot,getU16,getLE,insertCell_slice hn hoff _ _ (by simp only [kHdr]; omega)
  (by simp only [kHdr]; omega) hat (by simp only [kHdr]; omega)]
 rfl

lemma insertCell_slot_at : slot (insertCell p at_ c) at_=off := by
 have hlt:contentStart p<2^16:=getLE_lt 2 p 4
 simp only [kHdr] at hfit
 rw [insertCell_eq hn hoff,slot,getU16,getLE_putLE_disjoint _ _ _ _ _ _ (by simp only [kHdr]; omega),
  getLE_putLE_disjoint _ _ _ _ _ _ (by simp only [kHdr]; omega)]
 exact getLE_putLE_self 2 _ _ _ (by simp only [kHdr,patch_length]; omega) (by omega)

lemma insertCell_slot_after (i:ℕ) (hi:at_ ≤ i) (hin:i<n) : slot (insertCell p at_ c) (i+1)=slot p i := by
 have hm:(slice (patch p off c) (kHdr+2*at_) (2*(n-at_))).length=2*(n-at_):=
  slice_length _ _ _ (by simp only [kHdr,patch_length] at hfit ⊢; omega)
 simp only [kHdr] at hfit hm
 rw [insertCell_eq hn hoff,slot,getU16,getLE_putLE_disjoint _ _ _ _ _ _ (by simp only [kHdr]; omega),
  getLE_putLE_disjoint _ _ _ _ _ _ (by simp only [kHdr]; omega),
  getLE_putLE_disjoint _ _ _ _ _ _ (by simp only [kHdr]; omega),getLE,
  slice_patch_inside _ _ _ _ _ (by simp only [kHdr,patch_length]; omega)
   (by simp only [kHdr]; omega) (by simp only [kHdr]; omega),slice_slice _ _ _ _ _ (by simp only [kHdr]; omega),
  slice_patch_disjoint _ _ _ _ _ (by simp only [kHdr]; omega),slot,getU16,getLE]
 congr 2
 simp only [kHdr]
 omega

end InsertCell

section RemoveCell
variable {p:Bytes} {n at_:ℕ}

@[simp] lemma removeCell_length : (removeCell p at_).length=p.length := by
 simp only [removeCell,setFrag,setCount,putLE_length,patch_length]

variable (hn:count p=n) (hat:at_<n)
include hn hat

lemma removeCell_slice (o l:ℕ) (h1:o+l≤2 ∨ 4≤o) (h2:o+l≤6 ∨ 8≤o) (h3:o+l≤kHdr+2*at_ ∨ kHdr+2*n≤o) :
 slice (removeCell p at_) o l=slice p o l := by
 have hm:=slice_length_le (setFrag p (frag p+cellSize p at_)) (kHdr+2*(at_+1)) (2*(n-at_-1))
 rw [removeCell,hn]
 simp only [setCount]
 rw [slice_putLE_disjoint _ _ _ _ _ _ (by omega),slice_patch_disjoint _ _ _ _ _ (by omega),
  setFrag,slice_putLE_disjoint _ _ _ _ _ _ (by omega)]

variable (hlen:kHdr+2*n ≤ p.length)
include hlen

lemma removeCell_count (hb:n<2^16) : count (removeCell p at_)=n-1 := by
 simp only [kHdr] at hlen
 rw [removeCell,hn]
 exact getLE_putLE_self 2 _ 2 _ (by simp only [setFrag,patch_length,putLE_length]; omega)
  (by omega)

omit hat in
lemma removeCell_frag (hb:frag p+cellSize p at_<2^16) : frag (removeCell p at_)=frag p+cellSize p at_ := by
 simp only [kHdr] at hlen
 rw [removeCell,frag,getU16]
 simp only [setCount]
 rw [getLE_putLE_disjoint _ _ _ _ _ _ (by omega),getLE_patch_disjoint _ _ _ _ _ (by simp only [kHdr]; omega)]
 exact getLE_putLE_self 2 _ 6 _ (by omega) (by omega)

omit hlen in
lemma removeCell_slot_before (i:ℕ) (hi:i<at_) : slot (removeCell p at_) i=slot p i := by
 rw [slot,getU16,getLE,removeCell_slice hn hat _ _ (by simp only [kHdr]; omega)
  (by simp only [kHdr]; omega) (by omega)]
 rfl

lemma removeCell_slot_after (i:ℕ) (hi:at_ ≤ i) (hin:i+1<n) : slot (removeCell p at_) i=slot p (i+1) := by
 have hm:(slice (setFrag p (frag p+cellSize p at_)) (kHdr+2*(at_+1)) (2*(n-at_-1))).length=2*(n-at_-1):=
  slice_length _ _ _ (by simp only [setFrag,putLE_length]; omega)
 rw [removeCell,hn,slot,getU16]
 simp only [setCount]
 rw [getLE_putLE_disjoint _ _ _ _ _ _ (by simp only [kHdr]; omega),getLE,
  slice_patch_inside _ _ _ _ _ (by simp only [setFrag,putLE_length] at hm ⊢; omega) (by omega)
   (by omega),slice_slice _ _ _ _ _ (by omega),setFrag,
  slice_putLE_disjoint _ _ _ _ _ _ (by simp only [kHdr]; omega),slot,getU16,getLE]
 congr 2
 omega

end RemoveCell

end Node

end Archivum.SlottedPage
