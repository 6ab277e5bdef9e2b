import Archivum.PageFormat
import Archivum.TreeCheckModel

set_option autoImplicit false

/-!
# The reads of a check stay in the page buffers

`check` once more, with every read of a page buffer guarded by the bytes it
touches: the guarded check gives no report where the code would read outside a
buffer, and the report of `TreeCheckModel.check` everywhere else.
-/
namespace Archivum.TreeCheckBounds
open ByteStrings PageTxn SlottedPage BTreeModel TreeCheckModel

/-- What is read from `len` bytes at `off`; none where they are not all in the buffer. -/
def within {α:Type} (buf:Bytes) (off len:ℕ) (a:α) : Option α :=
 if off+len ≤ buf.length then some a else none

def type (buf:Bytes) : Option ℕ := within buf 0 1 (Node.type buf)
def count (buf:Bytes) : Option ℕ := within buf 2 2 (Node.count buf)
def contentStart (buf:Bytes) : Option ℕ := within buf 4 2 (Node.contentStart buf)
def right (buf:Bytes) : Option ℕ := within buf 8 8 (Node.right buf)
def prev (buf:Bytes) : Option ℕ := within buf 16 8 (Node.prev buf)
def slot (buf:Bytes) (i:ℕ) : Option ℕ := within buf (kHdr+2*i) 2 (Node.slot buf i)

/-- A read at `cell(i) + off`. -/
def atCell {α:Type} (buf:Bytes) (i off len:ℕ) (a:α) : Option α := do
 let cell ← slot buf i
 within buf (cell+off) len a

def keyLen (buf:Bytes) (i:ℕ) : Option ℕ := atCell buf i 0 2 (Node.keyLen buf i)
def overflowed (buf:Bytes) (i:ℕ) : Option Bool := atCell buf i 2 1 (Node.overflowed buf i)
def valueLen (buf:Bytes) (i:ℕ) : Option ℕ := atCell buf i 3 4 (Node.valueLen buf i)
def child (buf:Bytes) (i:ℕ) : Option ℕ := atCell buf i 2 8 (Node.child buf i)

def overflowPage (buf:Bytes) (i:ℕ) : Option ℕ := do
 let len ← keyLen buf i
 atCell buf i (kLeafCellHdr+len) 8 (Node.overflowPage buf i)

def key (buf:Bytes) (i:ℕ) : Option Bytes := do
 let ty ← type buf
 let len ← keyLen buf i
 atCell buf i (if ty=kLeaf then kLeafCellHdr else kInteriorCellHdr) len (Node.key buf i)

def cellSize (buf:Bytes) (i:ℕ) : Option ℕ := do
 let ty ← type buf
 let len ← keyLen buf i
 if ty=kLeaf then
  let spills ← overflowed buf i
  let rest ← if spills then some 8 else valueLen buf i
  return kLeafCellHdr+len+rest
 else return kInteriorCellHdr+len

/-- `off < content_start() || off + cell_size(i) > usable`: the second test is made only where the
first fails. -/
def cellOut (pageSize:ℕ) (buf:Bytes) (i off start:ℕ) : Option Bool :=
 if off<start then some true
 else (cellSize buf i).map fun size=>decide (Node.usable pageSize<off+size)

def cells (pageSize page:ℕ) (buf:Bytes) (lower upper:Option Bytes) :
  ℕ → ℕ → Bytes → Checking → Option (Checking × Bool)
 | 0,_,_,c=>some (c,true)
 | n+1,i,prevKey,c=>do
  let off ← slot buf i
  let start ← contentStart buf
  let out ← cellOut pageSize buf i off start
  if out then return (c.problem page ("cell " ++ toString i ++ " out of bounds"),false)
  else
   let k ← key buf i
   let c := c.problemIf (0 < i ∧ compareBytes prevKey k≠.lt) page
    ("keys not strictly increasing at " ++ toString i)
   let c:=c.problemIf (lower.any fun l=>compareBytes k l == .lt) page
    ("key below lower bound at " ++ toString i)
   let c:=c.problemIf (upper.any fun u=>compareBytes k u != .lt) page
    ("key at or above upper bound at " ++ toString i)
   cells pageSize page buf lower upper n (i+1) k c

def chain (b:BTree) (σ:WriteTxn) (page:ℕ) : ℕ → ℕ → ℕ → Checking → Option (Checking × ℕ × ℕ)
 | 0,remaining,p,c=>some (c,remaining,p)
 | hops+1,remaining,p,c=>
  if remaining=0 ∨ p=0 then some (c,remaining,p)
  else if p∈c.pages then
   some (c.problem page ("overflow page " ++ toString p ++ " reached twice"),remaining,p)
  else
   let c := { c with pages:=c.pages++[p],overflowPages:=c.overflowPages+1 }
   match (readPage p σ).1 with
   | .error s=>
    some (c.problem page ("overflow page " ++ toString p ++ ": " ++ Status.toString s),remaining,p)
   | .ok ob=>do
    let next ← within ob 0 8 (getU64 ob 0)
    chain b σ page hops (remaining-min b.overflowCap remaining) next c

def cellOverflow (b:BTree) (σ:WriteTxn) (page:ℕ) (buf:Bytes) (c:Checking) (i:ℕ) : Option Checking := do
 let spills ← overflowed buf i
 if spills then
  let len ← valueLen buf i
  let first ← overflowPage buf i
  let walked ← chain b σ page (2^20) len first c
  let c:=walked.1.problemIf (0<walked.2.1) page
   ("overflow chain for cell " ++ toString i ++ " ends early")
  return c.problemIf (walked.2.1=0 ∧ walked.2.2≠0) page
   ("overflow chain for cell " ++ toString i ++ " has extra pages")
 else return c

def linkBefore (σ:WriteTxn) (page:ℕ) (c:Checking) : Option Checking :=
 if c.expectedPrev≠0 then
  match (readPage c.expectedPrev σ).1 with
  | .ok pb=>(right pb).map fun next=>
   c.problemIf (next≠page) page "previous leaf's next link does not point here"
  | .error _=>some c
 else some c

def leaf (b:BTree) (σ:WriteTxn) (page depth:ℕ) (buf:Bytes) (c:Checking) : Option Checking := do
 let n ← count buf
 let before ← prev buf
 let c:={ c with leafPages:=c.leafPages+1,entries:=c.entries+n }
 let c:=if c.leafDepth=0 then { c with leafDepth:=depth }
  else c.problemIf (c.leafDepth≠depth) page
   ("leaf at depth " ++ toString depth ++ " differs from " ++ toString c.leafDepth)
 let c:=c.problemIf (before≠c.expectedPrev) page
  ("prev link " ++ toString before ++ " expected " ++ toString c.expectedPrev)
 let c ← linkBefore σ page c
 let c:={ c with expectedPrev:=page }
 let c:=c.problemIf (n=0 ∧ page≠b.root) page "empty non-root leaf"
 (List.range n).foldlM (cellOverflow b σ page buf) c

/-- The lower bound of the child at `i`. -/
def lowerBefore (lower:Option Bytes) (buf:Bytes) (i:ℕ) : Option (Option Bytes) :=
 if i=0 then some lower else (key buf (i-1)).map some

def checkNode (b:BTree) (σ:WriteTxn) :
  ℕ → ℕ → Option Bytes → Option Bytes → Checking → Option Checking
 | n,page,lower,upper,c=>
  if page∈c.pages then some (c.problem page "reached twice")
  else
   let c := { c with pages:=c.pages++[page] }
   match n with
   | 0=>some (c.problem page "too deep")
   | n+1=>
    match (readPage page σ).1 with
    | .error s=>some (c.problem page (Status.toString s))
    | .ok buf=>do
     let ty ← type buf
     let m ← count buf
     let start ← contentStart buf
     if ty≠kLeaf ∧ ty≠kInterior then return c.problem page "bad node type"
     else if start<kHdr+2*m ∨ Node.usable b.pageSize<start then
      return c.problem page "slot array and content overlap"
     else
      match ← cells b.pageSize page buf lower upper m 0 [] c with
      | (c,false)=>return c
      | (c,true)=>
       if ty=kLeaf then leaf b σ page (64-n) buf c
       else do
        let last ← right buf
        let c:={ c with interiorPages:=c.interiorPages+1 }
        let c:=c.problemIf (last=0) page "interior node without rightmost child"
        let c:=c.problemIf (m=0 ∧ page≠b.root) page "interior node with no separators"
        let c ← (List.range m).foldlM (fun c i=>do
         let k ← key buf i
         let lo ← lowerBefore lower buf i
         let below ← child buf i
         checkNode b σ n below lo (some k) c) c
        if last=0 then return c
        else do
         let lo ← lowerBefore lower buf m
         checkNode b σ n last lo upper c

def lastLeaf (σ:WriteTxn) (c:Checking) : Option Checking :=
 if c.expectedPrev≠0 then
  match (readPage c.expectedPrev σ).1 with
  | .ok lb=>do
   let next ← right lb
   if next≠0 then return { c with problems:=c.problems++["last leaf has a dangling next link"] }
   else return c
  | .error _=>some c
 else some c

/-- `BTree::check`; none where it reads a byte outside the page buffers. -/
def check (b:BTree) (σ:WriteTxn) : Option BTreeCheckReport := do
 let c ← checkNode b σ 64 b.root none none {}
 let c ← lastLeaf σ c
 return { ok:=c.problems.isEmpty,problems:=c.problems,entries:=c.entries,leafPages:=c.leafPages
          interiorPages:=c.interiorPages,overflowPages:=c.overflowPages,depth:=c.leafDepth
          pages:=c.pages }

lemma within_eq {α:Type} {buf:Bytes} {off len:ℕ} (h:off+len≤buf.length) (a:α) : within buf off len a=some a := if_pos h

/-- The slot array lies before the cells, and those within the page. -/
structure Framed (ps:ℕ) (buf:Bytes) : Prop where
 length : buf.length=ps
 slots : kHdr+2*Node.count buf ≤ Node.contentStart buf
 content : Node.contentStart buf ≤ Node.usable ps

/-- The fixed part of every cell behind the content start is within the buffer. -/
def HeadersInside (buf:Bytes) : Prop :=
 ∀ i<Node.count buf,Node.contentStart buf ≤ Node.slot buf i →
  Node.slot buf i+(if Node.isLeaf buf then kLeafCellHdr else 2) ≤ buf.length

def CellInside (ps:ℕ) (buf:Bytes) (i:ℕ) : Prop := Node.slot buf i+Node.cellSize buf i ≤ Node.usable ps

section Accessors
variable {ps i:ℕ} {buf:Bytes}

lemma type_eq (hpos:0<buf.length) : type buf=some (Node.type buf) := within_eq (by omega) _

lemma slot_eq (h:Framed ps buf) (hi:i<Node.count buf) : slot buf i=some (Node.slot buf i) := by
 have h₁:=h.slots
 have h₂:=h.content
 rw [Node.usable,← h.length] at h₂
 exact within_eq (by omega) _

lemma atCell_eq {α:Type} (h:Framed ps buf) (hi:i<Node.count buf) {off len:ℕ}
 (hin:Node.slot buf i+off+len≤buf.length) (a:α) : atCell buf i off len a=some a := by
 rw [atCell,slot_eq h hi]
 exact within_eq hin a

lemma isLeaf_iff : Node.isLeaf buf=true ↔ Node.type buf=kLeaf := beq_iff_eq

lemma Framed.length_pos (h:Framed ps buf) : 24≤buf.length := by
 have h₁:=h.slots
 have h₂:=h.content
 rw [Node.usable,← h.length] at h₂
 rw [kHdr] at h₁
 omega

lemma cellSize_eq (h:Framed ps buf) (hi:i<Node.count buf)
 (hroom:Node.slot buf i+(if Node.isLeaf buf then kLeafCellHdr else 2)≤buf.length) :
 cellSize buf i=some (Node.cellSize buf i) := by
 have hpos:=h.length_pos
 rw [kLeafCellHdr] at hroom
 have hlen:keyLen buf i=some (Node.keyLen buf i):=atCell_eq h hi (by split at hroom <;> omega) _
 rw [cellSize,type_eq (by omega),hlen,Node.cellSize]
 by_cases hleaf:Node.isLeaf buf=true
 · rw [if_pos hleaf] at hroom ⊢
   have hover:overflowed buf i=some (Node.overflowed buf i):=atCell_eq h hi (by omega) _
   have hvalue:valueLen buf i=some (Node.valueLen buf i):=atCell_eq h hi (by omega) _
   simp only [Option.bind_eq_bind,Option.bind_some,if_pos (isLeaf_iff.mp hleaf),hover,hvalue]
   split <;> rfl
 · rw [if_neg hleaf]
   simp only [Option.bind_eq_bind,Option.bind_some,if_neg (mt isLeaf_iff.mpr hleaf)]
   rfl

variable (h:Framed ps buf) (hi:i<Node.count buf) (hin:CellInside ps buf i)

include hin in
lemma CellInside.le (hps:buf.length=ps) : Node.slot buf i+Node.cellSize buf i≤buf.length := by
 rw [CellInside,Node.usable,← hps] at hin
 omega

include h hi hin

lemma keyLen_eq : keyLen buf i=some (Node.keyLen buf i) := by
 have hle:=hin.le h.length
 rw [Node.cellSize,kLeafCellHdr,kInteriorCellHdr] at hle
 exact atCell_eq h hi (by split at hle <;> omega) _

lemma key_eq : key buf i=some (Node.key buf i) := by
 have hle:=hin.le h.length
 have hpos:=h.length_pos
 rw [key,type_eq (by omega),keyLen_eq h hi hin]
 refine atCell_eq h hi ?_ _
 rw [Node.cellSize] at hle
 by_cases hleaf:Node.isLeaf buf=true
 · rw [if_pos hleaf] at hle
   rw [if_pos (isLeaf_iff.mp hleaf)]
   omega
 · rw [if_neg hleaf] at hle
   rw [if_neg (mt isLeaf_iff.mpr hleaf)]
   omega

lemma child_eq (hnot:¬Node.isLeaf buf=true) : child buf i=some (Node.child buf i) := by
 have hle:=hin.le h.length
 rw [Node.cellSize,if_neg hnot,kInteriorCellHdr] at hle
 exact atCell_eq h hi (by omega) _

lemma overflowed_eq (hleaf:Node.isLeaf buf=true) : overflowed buf i=some (Node.overflowed buf i) := by
 have hle:=hin.le h.length
 rw [Node.cellSize,if_pos hleaf,kLeafCellHdr] at hle
 exact atCell_eq h hi (by omega) _

lemma valueLen_eq (hleaf:Node.isLeaf buf=true) : valueLen buf i=some (Node.valueLen buf i) := by
 have hle:=hin.le h.length
 rw [Node.cellSize,if_pos hleaf,kLeafCellHdr] at hle
 exact atCell_eq h hi (by omega) _

lemma overflowPage_eq (hleaf:Node.isLeaf buf=true) (hover:Node.overflowed buf i=true) :
 overflowPage buf i=some (Node.overflowPage buf i) := by
 have hle:=hin.le h.length
 rw [Node.cellSize,if_pos hleaf,if_pos hover] at hle
 rw [overflowPage,keyLen_eq h hi hin]
 exact atCell_eq h hi (by omega) _

end Accessors

lemma foldlM_eq {α β:Type} {f:β → α → Option β} {g:β → α → β} {l:List α}
 (h:∀ c,∀ a∈l,f c a=some (g c a)) (c:β) : l.foldlM f c=some (l.foldl g c) := by
 induction l generalizing c with
 | nil=>rfl
 | cons a l ih=>
  rw [List.foldlM_cons,h c a List.mem_cons_self,List.foldl_cons]
  exact ih (fun c b hb=>h c b (List.mem_cons_of_mem a hb)) _

section Cells
variable {ps page:ℕ} {buf:Bytes} {lower upper:Option Bytes}

lemma cellOut_eq (h:Framed ps buf) (hroom:HeadersInside buf) {i:ℕ} (hi:i<Node.count buf) :
 cellOut ps buf i (Node.slot buf i) (Node.contentStart buf)=some (decide
  (Node.slot buf i<Node.contentStart buf ∨ Node.usable ps<Node.slot buf i+Node.cellSize buf i)) := by
 rw [cellOut]
 by_cases hlow:Node.slot buf i<Node.contentStart buf
 · rw [if_pos hlow,decide_eq_true (.inl hlow)]
 · rw [if_neg hlow,cellSize_eq h hi (hroom i hi (not_lt.mp hlow))]
   simp [hlow]

lemma cells_eq (h:Framed ps buf) (hroom:HeadersInside buf) (n:ℕ) : ∀ (i:ℕ) (prev:Bytes) (c:Checking),
 i+n=Node.count buf → cells ps page buf lower upper n i prev c=some (c.cells ps page buf lower upper n i prev) := by
 induction n with
 | zero=>exact fun _ _ _ _=>rfl
 | succ n ih=>
  intro i prev c hi
  have hpos:=h.length_pos
  have hlt:i<Node.count buf:=by omega
  have hstart:contentStart buf=some (Node.contentStart buf):=within_eq (by omega) _
  rw [cells,Checking.cells,slot_eq h hlt,hstart]
  simp only [Option.bind_eq_bind,Option.bind_some,cellOut_eq h hroom hlt,decide_eq_true_eq]
  by_cases hout:Node.slot buf i<Node.contentStart buf ∨ Node.usable ps<Node.slot buf i+Node.cellSize buf i
  · rw [if_pos hout,if_pos hout]
    rfl
  · rw [if_neg hout,if_neg hout,key_eq h hlt (not_lt.mp (not_or.mp hout).2)]
    exact ih (i+1) _ _ (by omega)

lemma cells_inside (n:ℕ) : ∀ (i:ℕ) (prev:Bytes) (c:Checking),
 (c.cells ps page buf lower upper n i prev).2=true → ∀ j,i≤j → j < i+n → CellInside ps buf j := by
 induction n with
 | zero=>exact fun i _ _ _ j h h'=>by omega
 | succ n ih=>
  intro i prev c hend j hj hj'
  rw [Checking.cells] at hend
  by_cases hout:Node.slot buf i<Node.contentStart buf ∨ Node.usable ps<Node.slot buf i+Node.cellSize buf i
  · rw [if_pos hout] at hend
    cases hend
  · rw [if_neg hout] at hend
    rcases hj.eq_or_lt with rfl | hlt
    · exact not_lt.mp fun hlt=>hout (.inr hlt)
    · exact ih (i+1) _ _ hend j hlt (by omega)

end Cells

section Walk
variable {b:BTree} {σ:WriteTxn}

def Sized (b:BTree) (σ:WriteTxn) : Prop := ∀ p buf,(readPage p σ).1=.ok buf → buf.length=b.pageSize

variable (hsized:Sized b σ) (hps:kMinPageSize ≤ b.pageSize)

include hsized hps

lemma buffer_length {p:ℕ} {buf:Bytes} (h:(readPage p σ).1=.ok buf) : 512≤buf.length := by
 rw [hsized p buf h]
 exact hps

lemma chain_eq (page hops:ℕ) : ∀ (remaining p:ℕ) (c:Checking),
 chain b σ page hops remaining p c=some (Checking.chain b σ page hops remaining p c) := by
 induction hops with
 | zero=>exact fun _ _ _=>rfl
 | succ hops ih=>
  intro remaining p c
  rw [chain,Checking.chain]
  split_ifs
  · rfl
  · rfl
  · cases hread:(readPage p σ).1 with
    | error s=>rfl
    | ok ob=>
     have hlen:=buffer_length hsized hps hread
     simp only [within_eq (show 0+8≤ob.length by omega),Option.bind_eq_bind,Option.bind_some]
     exact ih _ _ _

variable {page:ℕ} {buf:Bytes}

lemma cellOverflow_eq (h:Framed b.pageSize buf) (hleaf:Node.isLeaf buf=true) {i:ℕ} (hi:i<Node.count buf)
 (hin:CellInside b.pageSize buf i) (c:Checking) :
 cellOverflow b σ page buf c i=some (Checking.cellOverflow b σ page buf c i) := by
 rw [cellOverflow,Checking.cellOverflow,overflowed_eq h hi hin hleaf]
 simp only [Option.bind_eq_bind,Option.bind_some]
 by_cases hover:Node.overflowed buf i=true
 · rw [if_pos hover,if_pos hover,valueLen_eq h hi hin hleaf,overflowPage_eq h hi hin hleaf hover]
   simp only [Option.bind_some,chain_eq hsized hps]
   rfl
 · rw [if_neg hover,if_neg hover]
   rfl

lemma linkBefore_eq (c:Checking) : linkBefore σ page c=some (if c.expectedPrev≠0 then
  match (readPage c.expectedPrev σ).1 with
   | .ok pb=>c.problemIf (Node.right pb≠page) page "previous leaf's next link does not point here"
   | .error _=>c
  else c) := by
 rw [linkBefore]
 split
 · cases hread:(readPage c.expectedPrev σ).1 with
   | error s=>rfl
   | ok pb=>
    have hlen:=buffer_length hsized hps hread
    dsimp only
    rw [show right pb=some (Node.right pb) from within_eq (by omega) _]
    rfl
 · rfl

lemma leaf_eq (h:Framed b.pageSize buf) (hleaf:Node.isLeaf buf=true)
 (hin:∀ i<Node.count buf,CellInside b.pageSize buf i) (depth:ℕ) (c:Checking) :
 leaf b σ page depth buf c=some (c.leaf b σ page depth buf) := by
 have hpos:=h.length_pos
 rw [leaf,show count buf=some (Node.count buf) from within_eq (by omega) _,
  show prev buf=some (Node.prev buf) from within_eq (by omega) _,Checking.leaf]
 simp only [Option.bind_eq_bind,Option.bind_some]
 rw [linkBefore_eq hsized hps]
 exact foldlM_eq (fun c i hi=>cellOverflow_eq hsized hps h hleaf (List.mem_range.mp hi) (hin i (List.mem_range.mp hi)) c) _

lemma lastLeaf_eq (c:Checking) : lastLeaf σ c=some (TreeCheckModel.lastLeaf σ c) := by
 unfold lastLeaf TreeCheckModel.lastLeaf
 split
 · cases hread:(readPage c.expectedPrev σ).1 with
   | error s=>rfl
   | ok lb=>
    have hlen:=buffer_length hsized hps hread
    simp only [show right lb=some (Node.right lb) from within_eq (by omega) _,Option.bind_eq_bind,Option.bind_some]
    split <;> rfl
 · rfl

omit hsized hps in
lemma lowerBefore_eq (h:Framed b.pageSize buf) (hin:∀ i<Node.count buf,CellInside b.pageSize buf i)
 (lower:Option Bytes) {i:ℕ} (hi:i≤Node.count buf) :
 lowerBefore lower buf i=some (if i=0 then lower else some (Node.key buf (i-1))) := by
 rw [lowerBefore]
 split
 · rfl
 · have hlt:i-1<Node.count buf:=by omega
   rw [key_eq h hlt (hin _ hlt)]
   rfl

/-- On every page that passes for a node, the fixed parts of the cells are within the buffer. -/
def RoomForHeaders (b:BTree) (σ:WriteTxn) : Prop :=
 ∀ p buf,(readPage p σ).1=.ok buf → Node.type buf=kLeaf ∨ Node.type buf=kInterior →
  Framed b.pageSize buf → HeadersInside buf

omit hsized hps in
lemma child_checked {n:ℕ} (ih:∀ page lower upper c,checkNode b σ n page lower upper c =
  some (TreeCheckModel.checkNode b σ n page lower upper c)) (h:Framed b.pageSize buf)
 (hin:∀ i<Node.count buf,CellInside b.pageSize buf i) (hnot:¬Node.isLeaf buf=true) {i:ℕ}
 (hi:i<Node.count buf) (lower:Option Bytes) (c:Checking) :
 (key buf i).bind (fun k=>(lowerBefore lower buf i).bind fun lo=>(child buf i).bind fun below=>
  checkNode b σ n below lo (some k) c)=some (TreeCheckModel.checkNode b σ n (Node.child buf i)
   (if i=0 then lower else some (Node.key buf (i-1))) (some (Node.key buf i)) c) := by
 rw [key_eq h hi (hin i hi),lowerBefore_eq h hin lower hi.le,child_eq h hi (hin i hi) hnot]
 exact ih _ _ _ _

variable (hroom:RoomForHeaders b σ)

include hroom

lemma checkNode_eq (n:ℕ) : ∀ (page:ℕ) (lower upper:Option Bytes) (c:Checking),
 checkNode b σ n page lower upper c=some (TreeCheckModel.checkNode b σ n page lower upper c) := by
 induction n with
 | zero=>
  intro page lower upper c
  rw [checkNode,TreeCheckModel.checkNode]
  split <;> rfl
 | succ n ih=>
  intro page lower upper c
  rw [checkNode,TreeCheckModel.checkNode]
  by_cases hseen:page∈c.pages
  · rw [if_pos hseen,if_pos hseen]
  rw [if_neg hseen,if_neg hseen]
  dsimp only
  cases hread:(readPage page σ).1 with
  | error s=>rfl
  | ok buf=>
   have hlen:=buffer_length hsized hps hread
   dsimp only
   rw [type_eq (by omega),show count buf=some (Node.count buf) from within_eq (by omega) _,
    show contentStart buf=some (Node.contentStart buf) from within_eq (by omega) _]
   simp only [Option.bind_eq_bind,Option.bind_some]
   by_cases htype:Node.type buf≠kLeaf ∧ Node.type buf≠kInterior
   · rw [if_pos htype,if_pos htype]
     rfl
   rw [if_neg htype,if_neg htype]
   by_cases hover:Node.contentStart buf<kHdr+2*Node.count buf ∨ Node.usable b.pageSize<Node.contentStart buf
   · rw [if_pos hover,if_pos hover]
     rfl
   rw [if_neg hover,if_neg hover]
   have hframed:Framed b.pageSize buf:=⟨hsized page buf hread,by omega,by omega⟩
   have hheaders:=hroom page buf hread (by tauto) hframed
   rw [cells_eq hframed hheaders _ 0 [] _ (by omega)]
   generalize hcells:Checking.cells b.pageSize page buf lower upper (Node.count buf) 0 [] _=res
   obtain ⟨c₁,inside⟩:=res
   cases inside with
   | false=>rfl
   | true=>
    have hin:∀ i<Node.count buf,CellInside b.pageSize buf i:=fun i hi=>
     cells_inside _ 0 [] _ (congrArg Prod.snd hcells) i (Nat.zero_le i) (by omega)
    simp only [Option.bind_some]
    by_cases hleaf:Node.isLeaf buf=true
    · rw [if_pos (isLeaf_iff.mp hleaf),if_pos hleaf]
      exact leaf_eq hsized hps hframed hleaf hin _ c₁
    · rw [if_neg (mt isLeaf_iff.mpr hleaf),if_neg hleaf,show right buf=some (Node.right buf) from within_eq (by omega) _]
      simp only [Option.bind_some]
      have hkids:=foldlM_eq (fun c i hi=>child_checked ih hframed hin hleaf (List.mem_range.mp hi) lower c)
      rw [hkids]
      simp only [Option.bind_some]
      split
      · rfl
      · rw [lowerBefore_eq hframed hin lower le_rfl]
        exact ih _ _ _ _

end Walk

def onePage (page:Bytes) : WriteTxn where
 pageSize := 512
 committed _:=page
 snapshotHeader:={ pageCount:=2 }
 header:={ pageCount:=2 }
 dirty _:=none
 freed:=[]
 finished:=false

lemma onePage_read {page buf:Bytes} {p:ℕ} (h:(readPage p (onePage page)).1=.ok buf) : buf=page := by
 rw [readPage,if_neg (by simp [onePage])] at h
 split at h
 · cases h
 · rename_i hlt
   rw [show (onePage page).dirty p=none from rfl] at h
   dsimp only at h
   rw [if_neg (show ¬(onePage page).snapshotHeader.pageCount≤p from hlt)] at h
   exact (Except.ok.inj h).symm

def smallLeaf : Bytes := Node.insertCell (Node.init 512 kLeaf) 0 (buildLeafCell [1] [1] false 1 0)

def wildLeaf : Bytes := PageFormat.sealPage (Node.setSlot (Node.setCount (Node.init 512 kLeaf) 1) 0 65535)

end Archivum.TreeCheckBounds
