import Archivum.BTreeModel

set_option autoImplicit false

/-!
# Checking and destroying a tree

`BTree::check` walks the tree from the root and records every page it reaches
and every problem it finds; `BTree::destroy` frees the pages that a check
reports, whatever problems it found.
-/
namespace Archivum.TreeCheckModel
open ByteStrings StatefulActions PageTxn SlottedPage BTreeModel Node

def ErrorCode.toString : ErrorCode → String
 | .ioError => "io_error"
 | .notFound => "not_found"
 | .alreadyExists => "already_exists"
 | .corrupt => "corrupt"
 | .invalidArgument => "invalid_argument"
 | .unsupported => "unsupported"
 | .crashed => "crashed"
 | .busy => "busy"
 | .constraint => "constraint"

def Status.toString (s:Status) : String :=
 ErrorCode.toString s.code++if s.message = "" then "" else ": " ++ s.message

/-- The report so far, with the depth of the leaves and the last leaf seen. -/
structure Checking where
 problems : List String := []
 entries : ℕ := 0
 leafPages : ℕ := 0
 interiorPages : ℕ := 0
 overflowPages : ℕ := 0
 pages : List ℕ := []
 leafDepth : ℕ := 0
 expectedPrev : ℕ := 0
 deriving DecidableEq,Repr

namespace Checking

def problem (page:ℕ) (p:String) (c:Checking) : Checking :=
 { c with problems:=c.problems++["page " ++ toString page ++ ": " ++ p] }

def problemIf (cond:Prop) [Decidable cond] (page:ℕ) (p:String) (c:Checking) : Checking :=
 if cond then c.problem page p else c

/-- The loop over the cells from `i` on: bounds, order, and the separators around the node. None when
a cell is out of bounds, which ends the check of the node. -/
def cells (pageSize page:ℕ) (buf:Bytes) (lower upper:Option Bytes) :
  ℕ → ℕ → Bytes → Checking → Checking × Bool
 | 0,_,_,c=>(c,true)
 | n+1,i,prevKey,c=>
  let off := slot buf i
  if off<contentStart buf ∨ usable pageSize<off+cellSize buf i then
   (c.problem page ("cell " ++ toString i ++ " out of bounds"),false)
  else
   let k:=key buf i
   let c:=c.problemIf (0 < i ∧ compareBytes prevKey k≠.lt) page
    ("keys not strictly increasing at " ++ toString i)
   let c:=c.problemIf (lower.any fun l=>compareBytes k l == .lt) page
    ("key below lower bound at " ++ toString i)
   let c:=c.problemIf (upper.any fun u=>compareBytes k u != .lt) page
    ("key at or above upper bound at " ++ toString i)
   cells pageSize page buf lower upper n (i+1) k c

/-- Walks an overflow chain and accounts its pages; returns what is left of the value and the next
page. -/
def chain (b:BTree) (σ:WriteTxn) (page:ℕ) : ℕ → ℕ → ℕ → Checking → Checking × ℕ × ℕ
 | 0,remaining,p,c=>(c,remaining,p)
 | hops+1,remaining,p,c=>
  if remaining=0 ∨ p=0 then (c,remaining,p)
  else if p∈c.pages then
   (c.problem page ("overflow page " ++ toString p ++ " reached twice"),remaining,p)
  else
   let c := { c with pages:=c.pages++[p],overflowPages:=c.overflowPages+1 }
   match (readPage p σ).1 with
   | .error s=>
    (c.problem page ("overflow page " ++ toString p ++ ": " ++ Status.toString s),remaining,p)
   | .ok ob=>chain b σ page hops (remaining-min b.overflowCap remaining) (getU64 ob 0) c

def cellOverflow (b:BTree) (σ:WriteTxn) (page:ℕ) (buf:Bytes) (c:Checking) (i:ℕ) : Checking :=
 if overflowed buf i then
  let walked:=chain b σ page (2^20) (valueLen buf i) (overflowPage buf i) c
  let c:=walked.1.problemIf (0<walked.2.1) page
   ("overflow chain for cell " ++ toString i ++ " ends early")
  c.problemIf (walked.2.1=0 ∧ walked.2.2≠0) page
   ("overflow chain for cell " ++ toString i ++ " has extra pages")
 else c

def leaf (b:BTree) (σ:WriteTxn) (page depth:ℕ) (buf:Bytes) (c:Checking) : Checking :=
 let c:={ c with leafPages:=c.leafPages+1,entries:=c.entries+count buf }
 let c:=if c.leafDepth=0 then { c with leafDepth:=depth }
  else c.problemIf (c.leafDepth≠depth) page
   ("leaf at depth " ++ toString depth ++ " differs from " ++ toString c.leafDepth)
 let c:=c.problemIf (prev buf≠c.expectedPrev) page
  ("prev link " ++ toString (prev buf) ++ " expected " ++ toString c.expectedPrev)
 let c:=if c.expectedPrev≠0 then
   match (readPage c.expectedPrev σ).1 with
   | .ok pb=>c.problemIf (right pb≠page) page "previous leaf's next link does not point here"
   | .error _=>c
  else c
 let c:={ c with expectedPrev:=page }
 let c:=c.problemIf (count buf=0 ∧ page≠b.root) page "empty non-root leaf"
 (List.range (count buf)).foldl (cellOverflow b σ page buf) c

end Checking

/-- `check_node` with `n` levels left of the 64. -/
def checkNode (b:BTree) (σ:WriteTxn) : ℕ → ℕ → Option Bytes → Option Bytes → Checking → Checking
 | n,page,lower,upper,c=>
  if page∈c.pages then c.problem page "reached twice"
  else
   let c := { c with pages:=c.pages++[page] }
   match n with
   | 0=>c.problem page "too deep"
   | n+1=>
    match (readPage page σ).1 with
    | .error s=>c.problem page (Status.toString s)
    | .ok buf=>
     if type buf≠kLeaf ∧ type buf≠kInterior then c.problem page "bad node type"
     else if contentStart buf<kHdr+2*count buf ∨
       usable b.pageSize<contentStart buf then
      c.problem page "slot array and content overlap"
     else
      match c.cells b.pageSize page buf lower upper (count buf) 0 [] with
      | (c,false)=>c
      | (c,true)=>
       if isLeaf buf then c.leaf b σ page (64-n) buf
       else
        let c:={ c with interiorPages:=c.interiorPages+1 }
        let c:=c.problemIf (right buf=0) page "interior node without rightmost child"
        let c:=c.problemIf (count buf=0 ∧ page≠b.root) page
         "interior node with no separators"
        let c:=(List.range (count buf)).foldl (fun c i=>
         checkNode b σ n (child buf i) (if i=0 then lower else some (key buf (i-1)))
          (some (key buf i)) c) c
        if right buf=0 then c
        else checkNode b σ n (right buf)
         (if count buf=0 then lower else some (key buf (count buf-1))) upper c

structure BTreeCheckReport where
 ok : Bool
 problems : List String
 entries : ℕ
 leafPages : ℕ
 interiorPages : ℕ
 overflowPages : ℕ
 depth : ℕ
 pages : List ℕ
 deriving DecidableEq,Repr

def lastLeaf (σ:WriteTxn) (c:Checking) : Checking :=
 if c.expectedPrev≠0 then
  match (readPage c.expectedPrev σ).1 with
  | .ok lb=>
   if right lb≠0 then { c with problems:=c.problems++["last leaf has a dangling next link"] }
   else c
  | .error _=>c
 else c

def check (b:BTree) (σ:WriteTxn) : BTreeCheckReport :=
 let c:=lastLeaf σ (checkNode b σ 64 b.root none none {})
 { ok:=c.problems.isEmpty,problems:=c.problems,entries:=c.entries,leafPages:=c.leafPages
   interiorPages:=c.interiorPages,overflowPages:=c.overflowPages,depth:=c.leafDepth
   pages:=c.pages }

def freePages : List ℕ → TxnM Unit
 | []=>return ()
 | p::ps=>do
  freePage p
  freePages ps

/-- `BTree::destroy` -/
def destroy (b:BTree) : TxnM Unit := do
 let report ← Act.reads (check b)
 freePages report.pages

end Archivum.TreeCheckModel
