import Archivum.CursorOnPages

set_option autoImplicit false

/-!
# Runs of updates

A run of `put`, `insert_if_absent` and `erase` calls replays a finite map. What
the calls rely on is stated on the pages before each call: the images that its
splits build fit, and no leaf is deeper than `find_leaf` looks.
-/
namespace Archivum.TreeShape.Runs
open ByteStrings StatefulActions PageTxn SlottedPage BTreeModel InteriorSplit List Node

def CellsFit (ps:ℕ) (cells:List Bytes) : Prop := kHdr+weight cells ≤ usable ps

instance (ps:ℕ) (cells:List Bytes) : Decidable (CellsFit ps cells) :=
 inferInstanceAs (Decidable (_ ≤ _))

def interiorCells (cells:List (Bytes × ℕ)) : List Bytes :=
 cells.map fun c=>buildInteriorCell c.1 c.2

/-- The cells of the images `insert_separator` builds from `depth` upwards; the size of a cell
does not depend on the page number in it. -/
def separatorSplits (σ:WriteTxn) (path:List PathEntry) : ℕ → Bytes → List (List Bytes)
 | depth,sep=>
  let at_ := path.getD depth default
  let p:=σ.page at_.page
  if fits p (kInteriorCellHdr+sep.length) ||
    fitsAfterDefrag p (kInteriorCellHdr+sep.length) then []
  else
   let cells:=splitCells p at_.slot sep 0
   let mid:=cells.getD (cells.length/2) default
   interiorCells (leftCells p at_.slot sep 0)::interiorCells (rightCells p at_.slot sep 0) ::
    match depth with
    | 0=>[interiorCells [(mid.1,0)]]
    | depth+1=>separatorSplits σ path depth mid.1

/-- The cells of the images `insert_into_leaf` builds. -/
def insertSplits (b:BTree) (σ:WriteTxn) (path:List PathEntry) (leaf key value:Bytes)
  (slot:ℕ) (replace:Bool) : List (List Bytes) :=
 let leaf:=if replace then removeCell leaf slot else leaf
 let cell:=Entry.cell b.pageSize ⟨key,value,[]⟩
 if fits leaf cell.length || fitsAfterDefrag leaf cell.length then []
 else
  let cells:=BTree.gatherLeaf leaf slot cell
  let split:=BTree.splitPoint cells
  let sep:=Node.key (BTree.leafImage b.pageSize (cells.drop split) 0 0) 0
  cells.take split::cells.drop split ::
   if path.length=1 then [interiorCells [(sep,0)]]
   else separatorSplits σ path (path.length-2) sep

inductive Op
 | put (key value:Bytes)
 | insertIfAbsent (key value:Bytes)
 | erase (key:Bytes)
 deriving DecidableEq,Repr

namespace Op

def key : Op → Bytes
 | put k _=>k
 | insertIfAbsent k _=>k
 | erase k=>k

def value : Op → Bytes
 | put _ v=>v
 | insertIfAbsent _ v=>v
 | erase _=>[]

/-- The call on the pages; `put` always stores. -/
def run (b:BTree) : Op → TxnM Bool
 | put k v=>do
  b.put k v
  return true
 | insertIfAbsent k v=>b.insertIfAbsent k v
 | erase k=>b.erase k

def apply (m:Bytes → Option Bytes) : Op → Bytes → Option Bytes
 | put k v=>Function.update m k (some v)
 | insertIfAbsent k v=>if (m k).isSome then m else Function.update m k (some v)
 | erase k=>Function.update m k none

def result (m:Bytes → Option Bytes) : Op → Bool
 | put _ _=>true
 | insertIfAbsent k _=>(m k).isNone
 | erase k=>(m k).isSome

/-- The images the call's splits build in the state `σ`. -/
def splits (b:BTree) (σ:WriteTxn) (op:Op) : List (List Bytes) :=
 match (b.findLeaf op.key σ).1 with
 | .error _=>[]
 | .ok (path,leaf)=>
  let slot:=(BTree.back path).slot
  let found:=decide (slot<Node.count leaf) && compareBytes (Node.key leaf slot) op.key == .eq
  match op with
  | put k v=>insertSplits b σ path leaf k v slot found
  | insertIfAbsent k v=>if found then [] else insertSplits b σ path leaf k v slot false
  | erase _=>[]

end Op

/-- Every leaf below the page is reached through at most `n` pages. -/
def leavesWithin (σ:WriteTxn) : ℕ → ℕ → Bool
 | 0,_=>false
 | n+1,page=>
  let p := σ.page page
  isLeaf p ||
   ((range (count p)).all fun i=>leavesWithin σ n (child p i)) &&
    leavesWithin σ n (right p)

/-- What the callers of a tree promise, and that page I/O can reach every page of the file. -/
structure Op.Sound (b:BTree) (σ:WriteTxn) (op:Op) : Prop where
 key_pos : op.key≠[]
 key_le : op.key.length ≤ b.maxKeyBytes
 value_lt : op.value.length<2^32
 splits_fit : ∀ cells∈op.splits b σ,CellsFit b.pageSize cells
 file_size : σ.header.pageCount*b.pageSize ≤ 2^63

def runOps (b:BTree) : List Op → TxnM (List Bool)
 | []=>return []
 | op::ops=>do
  let r ← op.run b
  let rs ← runOps b ops
  return r::rs

/-- `P` holds of each call and the state it finds. -/
def EachStep (b:BTree) (P:WriteTxn → Op → Prop) : List Op → WriteTxn → Prop
 | [],_=>True
 | op::ops,σ=>P σ op ∧ EachStep b P ops (op.run b σ).2

def replay : List Op → (Bytes → Option Bytes) → Bytes → Option Bytes
 | [],m=>m
 | op::ops,m=>replay ops (op.apply m)

def results : List Op → (Bytes → Option Bytes) → List Bool
 | [],_=>[]
 | op::ops,m=>op.result m::results ops (op.apply m)

section Depth
variable {ps:ℕ} {σ:WriteTxn}

lemma kidsLevels_le_iff (kids:List (Bytes × Tree)) (n:ℕ) :
 Tree.levels.kidsLevels kids≤n ↔ ∀ k u,(k,u)∈kids → u.levels≤n := by
 induction kids with
 | nil=>simp [Tree.levels.kidsLevels]
 | cons kt kids ih=>
  obtain ⟨k,u⟩:=kt
  rw [Tree.levels.kidsLevels,max_le_iff,ih]
  constructor
  · rintro ⟨h1,h2⟩ k' u' hm
    rcases mem_cons.mp hm with hm | hm
    · rw [(Prod.mk.inj hm).2]
      exact h1
    · exact h2 k' u' hm
  · intro h
    exact ⟨h k u mem_cons_self,fun k' u' hm=>h k' u' (mem_cons_of_mem _ hm)⟩

lemma leavesWithin_iff (n:ℕ) : ∀ u : Tree,(∀ x∈u.facts,x.Holds ps σ) →
 (∀ q∈u.pages,q<2^64) → (leavesWithin σ n u.page=true ↔ u.levels≤n) := by
 induction n with
 | zero=>
  intro u _ _
  cases u <;> simp [leavesWithin,Tree.levels]
 | succ n ih=>
  intro u hfacts hlt
  cases u with
  | leaf p es=>
   obtain ⟨hs,-⟩:=hfacts (.leaf p es) mem_cons_self
   have hleaf:isLeaf (σ.page p)=true:=by
    rw [hs.isLeaf_eq]
    rfl
   simp [leavesWithin,Tree.page,hleaf,Tree.levels]
  | node p kids z=>
   obtain ⟨hs,hright,-⟩:=hfacts (.node p _ _) mem_cons_self
   have hleaf:isLeaf (σ.page p)=false:=by
    rw [hs.isLeaf_eq]
    rfl
   have hcount:=node_count hs
   rw [length_map] at hcount
   have hkid:∀ k u,(k,u)∈kids → (leavesWithin σ n u.page=true ↔ u.levels≤n):=by
    intro k u hk
    obtain ⟨h1,h2,-⟩:=node_kid (Or.inr ⟨k,hk⟩) hfacts (fun q (hq:q∈(Tree.node p kids z).pages)=>hq)
    exact ih u h1 fun q hq=>hlt q (h2 q hq)
   have hkidlt:∀ k u,(k,u)∈kids → u.page<2^64:=by
    intro k u hk
    obtain ⟨-,h2,-⟩:=node_kid (Or.inr ⟨k,hk⟩) hfacts (fun q (hq:q∈(Tree.node p kids z).pages)=>hq)
    exact hlt _ (h2 _ (page_mem_pages u))
   have hlast:leavesWithin σ n z.page=true ↔ z.levels≤n:=by
    obtain ⟨h1,h2,-⟩:=node_kid (Or.inl rfl) hfacts (fun q (hq:q∈(Tree.node p kids z).pages)=>hq)
    exact ih z h1 fun q hq=>hlt q (h2 q hq)
   have hkids:((range (count (σ.page p))).all fun i=>
     leavesWithin σ n (child (σ.page p) i))=true ↔
     Tree.levels.kidsLevels kids≤n:=by
    have hiff:=kidsLevels_le_iff kids n
    rw [all_eq_true,hcount,hiff]
    constructor
    · intro hall k u hk
      obtain ⟨i,hi,hget⟩:=getElem_of_mem hk
      have hcell:(kids.map fun kt=>(kt.1,kt.2.page))[i]? = some (k,u.page):=by
       rw [getElem?_map,getElem?_eq_getElem hi,hget]
       rfl
      have hchild:=hall i (mem_range.mpr hi)
      rw [node_child hs hcell (hkidlt k u hk)] at hchild
      exact (hkid k u hk).mp hchild
    · intro hall i hi
      rw [mem_range] at hi
      have hmem:=getElem_mem hi
      have hcell:(kids.map fun kt=>(kt.1,kt.2.page))[i]? =
        some (kids[i].1,kids[i].2.page):=by
       rw [getElem?_map,getElem?_eq_getElem hi]
       rfl
      rw [node_child hs hcell (hkidlt _ _ hmem)]
      exact (hkid _ _ hmem).mpr (hall _ _ hmem)
   rw [leavesWithin,Tree.page,hleaf,hright,Bool.false_or,Bool.and_eq_true,hkids,hlast,Tree.levels]
   omega

end Depth

section Separators
variable {ps:ℕ} {σ:WriteTxn}

lemma interiorCells_fit (cells:List (Bytes × ℕ)) : CellsFit ps (interiorCells cells) ↔ KeysFit ps (cells.map Prod.fst) := by
 rw [CellsFit,interiorCells,weight_interior,KeysFit,keysWeight,map_map]
 rfl

lemma range_keys {img:Bytes} {cells:List (Bytes × ℕ)} (hmax:ps≤kMaxPageSize)
 (hs:Slotted ps img kInterior (cells.map fun c=>buildInteriorCell c.1 c.2))
 (hk:∀ c∈cells,c.1.length ≤ maxKeyBytesFor ps) : (range (count img)).map (key img)=cells.map Prod.fst := by
 apply ext_getElem?
 intro i
 rw [getElem?_map,getElem?_map,node_count hs]
 by_cases hi:i<cells.length
 · have hget:=getElem?_eq_getElem hi
   rw [getElem?_range hi,hget,Option.map_some,Option.map_some,node_cell hmax hs hk hget]
 · rw [getElem?_eq_none (by simpa using hi),getElem?_eq_none (by omega)]
   rfl

lemma splitCells_keys (hmax:ps≤kMaxPageSize) (f:Frame) (hole:ℕ) (s:Bytes) (hf:(f.nodeFact hole).Holds ps σ) :
 (splitCells (σ.page f.page) f.left.length s 0).map Prod.fst=f.insertKeys s := by
 obtain ⟨hs,hr,hk⟩:=hf
 obtain ⟨hs',-⟩:=redirect_frame f hole 0 hs hr (Nat.two_pow_pos 64)
 have hk':∀ c∈f.cells 0,c.1.length ≤ maxKeyBytesFor ps:=by
  intro c hc
  have hmem:=mem_map_of_mem (f:=Prod.fst) hc
  rw [f.cells_keys 0 hole] at hmem
  obtain ⟨d,hd,hcd⟩:=mem_map.mp hmem
  rw [← hcd]
  exact hk d hd
 have hcount:f.left.length≤Node.count (BTree.redirect (σ.page f.page) f.left.length 0):=by
  rw [node_count hs',f.cells_eq,length_append,f.cellsLeft_length]
  omega
 have hkeys:=range_keys hmax hs' hk'
 rw [splitCells,BTree.gatherInterior_eq _ _ _ _ hcount,map_append,map_cons,map_take,map_drop,map_map]
 have hcomp:(Prod.fst ∘ fun i=>(key (BTree.redirect (σ.page f.page) f.left.length 0) i,
   child (BTree.redirect (σ.page f.page) f.left.length 0) i)) =
   key (BTree.redirect (σ.page f.page) f.left.length 0):=rfl
 have hlen:f.left.length=(f.cellsLeft.map Prod.fst).length:=by
  rw [length_map,f.cellsLeft_length]
 rw [hcomp,hkeys,f.cells_eq,map_append,f.insertKeys_eq s 0]
 nth_rewrite 1 [hlen]
 rw [take_left,hlen,drop_left]

lemma fits_or_defrag {ty:ℕ} {img:Bytes} {cells:List Bytes} (hs:Slotted ps img ty cells)
 (n:ℕ) : (fits img n || fitsAfterDefrag img n)=fitsAfterDefrag img n := by
 rw [Bool.eq_iff_iff,Bool.or_eq_true]
 exact ⟨fun h=>h.elim (fun hf=>(hs.fitsAfterDefrag_iff n).mpr (hs.fits_imp hf)) id,Or.inr⟩

lemma level_fit (hmax:ps≤kMaxPageSize) (f:Frame) (hole:ℕ) (s:Bytes)
 (hf:(f.nodeFact hole).Holds ps σ) (R:List (List Bytes)) :
 (∀ cells∈(if fits (σ.page f.page) (kInteriorCellHdr+s.length) ||
    fitsAfterDefrag (σ.page f.page) (kInteriorCellHdr+s.length) then []
   else interiorCells (leftCells (σ.page f.page) f.left.length s 0) ::
    interiorCells (rightCells (σ.page f.page) f.left.length s 0)::R),
   CellsFit ps cells) ↔
  KeysFit ps (f.insertKeys s) ∨
   (KeysFit ps ((f.insertKeys s).take ((f.insertKeys s).length/2)) ∧
    KeysFit ps ((f.insertKeys s).drop ((f.insertKeys s).length/2+1)) ∧
    ∀ cells∈R,CellsFit ps cells) := by
 have hkeys:=splitCells_keys hmax f hole s hf
 have hlen:(splitCells (σ.page f.page) f.left.length s 0).length=(f.insertKeys s).length:=by
  rw [← hkeys,length_map]
 rw [fits_or_defrag hf.1]
 by_cases hfit:KeysFit ps (f.insertKeys s)
 · rw [if_pos ((keysFit_iff f hole s hf.1).mpr hfit)]
   simp [hfit]
 · rw [if_neg (mt (keysFit_iff f hole s hf.1).mp hfit),forall_mem_cons,forall_mem_cons,
    interiorCells_fit,interiorCells_fit,leftCells,rightCells,map_take,map_drop,hkeys,hlen]
   simp [hfit]

lemma separatorSplits_fit (hmin:kMinPageSize≤ps) (hmax:ps≤kMaxPageSize) (path:List PathEntry) (fs:List Frame) :
 ∀ (f:Frame) (hole:ℕ) (s:Bytes),pathEntries (f::fs) <+: path →
  (∀ x∈pathFacts (f::fs) hole,x.Holds ps σ) → s.length ≤ maxKeyBytesFor ps →
  ((∀ cells∈separatorSplits σ path fs.length s,CellsFit ps cells) ↔ FramesFit ps (f::fs) s) := by
 -- the key that goes up
 have hmid:∀ (f:Frame) (hole:ℕ) (s:Bytes),(f.nodeFact hole).Holds ps σ → ((splitCells (σ.page f.page) f.left.length s 0).getD
    ((splitCells (σ.page f.page) f.left.length s 0).length/2) default).1 =
   (f.insertKeys s).getD ((f.insertKeys s).length/2) []:=by
  intro f hole s hf
  rw [← splitCells_keys hmax f hole s hf,length_map,getD_eq_getElem?_getD,getD_eq_getElem?_getD,getElem?_map]
  cases (splitCells (σ.page f.page) f.left.length s 0)[(splitCells (σ.page f.page) f.left.length s 0).length/2]? <;> rfl
 have hmidlen:∀ (f:Frame) (hole:ℕ) (s:Bytes),(f.nodeFact hole).Holds ps σ → s.length ≤ maxKeyBytesFor ps →
   ((f.insertKeys s).getD ((f.insertKeys s).length/2) []).length ≤ maxKeyBytesFor ps:=by
  intro f hole s hf hs
  rw [getD_eq_getElem?_getD]
  cases hget:(f.insertKeys s)[(f.insertKeys s).length/2]? with
  | none=>simp
  | some k=>exact insertKeys_le hf.2.2 hs k (mem_of_getElem? hget)
 induction fs with
 | nil=>
  intro f hole s hpath hfacts hlen
  have hf:=hfacts (f.nodeFact hole) mem_cons_self
  have hentry:=path_entry hpath
  rw [length_nil] at hentry ⊢
  have hroot:KeysFit ps [(f.insertKeys s).getD ((f.insertKeys s).length/2) []]:=by
   have hroom:=key_room hmin (hmidlen f hole s hf hlen)
   rw [KeysFit,keysWeight_cons,cellWeight,usable,kPageTrailerBytes]
   simp only [keysWeight,map_nil,sum_nil]
   omega
  rw [separatorSplits,hentry,Frame.entry,level_fit hmax f hole s hf,forall_mem_singleton,
   interiorCells_fit,map_singleton,hmid f hole s hf,FramesFit,FramesFit]
  simp only [hroot,and_true]
 | cons g fs ih=>
  intro f hole s hpath hfacts hlen
  have hf:=hfacts (f.nodeFact hole) mem_cons_self
  have hentry:=path_entry hpath
  have hup:pathEntries (g::fs) <+: path:=by
   refine List.IsPrefix.trans ?_ hpath
   rw [pathEntries_cons f]
   exact prefix_append _ _
  rw [length_cons] at hentry ⊢
  rw [separatorSplits,hentry,Frame.entry,level_fit hmax f hole s hf,hmid f hole s hf,
   ih g f.page _ hup (fun x hx=>hfacts x (by rw [pathFacts]; simp [hx]))
    (hmidlen f hole s hf hlen)]
  exact Iff.rfl

end Separators

section Leaves
variable {ps:ℕ} {σ:WriteTxn} {fs:List Frame} {p:ℕ} {A B:List Entry} {key value:Bytes}

lemma splitPoint_congr {cells cells':List Bytes} (h:cells.map length=cells'.map length) :
 BTree.splitPoint cells=BTree.splitPoint cells' := by
 have hloop:∀ (half:ℕ) (cells cells':List Bytes) (acc:ℕ),cells.map length=cells'.map length →
   BTree.splitLoop half cells acc=BTree.splitLoop half cells' acc:=by
  intro half cells
  induction cells with
  | nil=>
   intro cells' acc h
   rw [map_nil,eq_comm,map_eq_nil_iff] at h
   rw [h]
  | cons c cells ih=>
   intro cells' acc h
   cases cells' with
   | nil=>simp at h
   | cons c' cells'=>
    rw [map_cons,map_cons,cons.injEq] at h
    cases cells with
    | nil=>
     cases cells' with
     | nil=>rfl
     | cons d' cells'=>simp at h
    | cons d cells=>
     cases cells' with
     | nil=>simp at h
     | cons d' cells'=>
      rw [BTree.splitLoop,BTree.splitLoop,h.1,ih (d'::cells') _ h.2]
 have hsum:(cells.map fun c=>c.length+2)=cells'.map fun c=>c.length+2:=by
  have:=congrArg (map (· + 2)) h
  simpa [Function.comp_def] using this
 rw [BTree.splitPoint,BTree.splitPoint,hsum,hloop _ cells cells' 0 h]

lemma putFits_chain (chain:List ℕ) : PutFits ps fs (A++⟨key,value,chain⟩::B) ↔ PutFits ps fs (A++⟨key,value,[]⟩::B) := by
 have hlen:((A++⟨key,value,chain⟩::B).map (Entry.cell ps)).map length =
   ((A++⟨key,value,[]⟩::B).map (Entry.cell ps)).map length:=by
  have hcell:(Entry.cell ps ⟨key,value,chain⟩).length =
    (Entry.cell ps ⟨key,value,[]⟩).length:=by
   have hin:Entry.inline ps ⟨key,value,chain⟩=Entry.inline ps ⟨key,value,[]⟩:=rfl
   rw [Entry.cell,Entry.cell,hin]
   cases Entry.inline ps ⟨key,value,[]⟩ <;> simp [buildLeafCell_length]
  simp [hcell]
 have hweight:weight ((A++⟨key,value,chain⟩::B).map (Entry.cell ps)) =
   weight ((A++⟨key,value,[]⟩::B).map (Entry.cell ps)):=by
  have:=congrArg (fun l=>(l.map (· + 2)).sum) hlen
  simpa [weight,Function.comp_def] using this
 have hkeys:∀ n,headKey ((A++⟨key,value,chain⟩::B).drop n) =
   headKey ((A++⟨key,value,[]⟩::B).drop n):=by
  intro n
  have hmap:(A++(⟨key,value,chain⟩:Entry)::B).map Entry.key = (A++(⟨key,value,[]⟩:Entry)::B).map Entry.key:=by simp
  rw [headKey,headKey,← head?_map,← head?_map,map_drop,map_drop,hmap]
 rw [PutFits,PutFits,LeafFit,LeafFit,hweight,splitPoint_congr hlen,hkeys]

lemma insertSplits_fit {b:BTree} {img:Bytes} (hb:b.pageSize=ps) (hmin:kMinPageSize≤ps) (hmax:ps≤kMaxPageSize)
 (hs:Slotted ps img kLeaf ((A++B).map (Entry.cell ps))) (hok:∀ e∈A++(⟨key,value,[]⟩:Entry)::B,e.Ok ps)
 (hfacts:∀ x∈pathFacts fs p,x.Holds ps σ) :
 (∀ cells∈insertSplits b σ (pathEntries fs++[⟨p,A.length⟩]) img key value A.length false,
   CellsFit ps cells) ↔ PutFits ps fs (A++⟨key,value,[]⟩::B) := by
 have hcells:(A++(⟨key,value,[]⟩:Entry)::B).map (Entry.cell ps) =
   A.map (Entry.cell ps)++Entry.cell ps ⟨key,value,[]⟩::B.map (Entry.cell ps):=by
  rw [map_append,map_cons]
 have hs':=hs
 rw [map_append] at hs'
 have hgather:=gather_leaf (c:=Entry.cell ps ⟨key,value,[]⟩) hs'
 rw [length_map,← hcells] at hgather
 have hroom:fitsAfterDefrag img (Entry.cell ps ⟨key,value,[]⟩).length=true ↔
   LeafFit ps (A++⟨key,value,[]⟩::B):=by
  rw [hs'.fitsAfterDefrag_iff,LeafFit,hcells,weight_append,weight_append,weight_cons,usable,kPageTrailerBytes]
  omega
 have hdef:insertSplits b σ (pathEntries fs++[⟨p,A.length⟩]) img key value A.length false =
   if fitsAfterDefrag img (Entry.cell ps ⟨key,value,[]⟩).length then []
   else
    let cells:=(A++(⟨key,value,[]⟩:Entry)::B).map (Entry.cell ps)
    let split:=BTree.splitPoint cells
    let sep:=Node.key (BTree.leafImage ps (cells.drop split) 0 0) 0
    cells.take split::cells.drop split ::
     if fs.length=0 then [interiorCells [(sep,0)]]
     else separatorSplits σ (pathEntries fs++[⟨p,A.length⟩]) (fs.length-1) sep:=by
  rw [insertSplits,hb,← hgather,← fits_or_defrag hs']
  simp [pathEntries]
 rw [hdef]
 by_cases hfit:LeafFit ps (A++⟨key,value,[]⟩::B)
 · rw [if_pos (hroom.mpr hfit)]
   simp [PutFits,hfit]
 · obtain ⟨L,R,hcut,hlen,hL,hR,hfL,hfR,hdrop⟩:=leaf_parts hmin hs hok hfit
   have htake:(A++(⟨key,value,[]⟩:Entry)::B).take
     (BTree.splitPoint ((A++(⟨key,value,[]⟩:Entry)::B).map (Entry.cell ps)))=L:=by
    rw [← hlen,hcut,take_left]
   have hokR:∀ d∈R,d.Ok ps:=fun d hd=>hok d (by rw [hcut]; exact mem_append_right _ hd)
   have hsep:=right_key (l:=0) (n:=0) hmin hmax hR hokR hfR (Nat.two_pow_pos 64) (Nat.two_pow_pos 64)
   have hseplen:(headKey R).length ≤ maxKeyBytesFor ps:=by
    obtain ⟨r,R,rfl⟩:=exists_cons_of_ne_nil hR
    exact (hokR r mem_cons_self).key_le
   rw [if_neg (mt hroom.mp hfit)]
   simp only [← map_take,← map_drop,htake,← hdrop,hsep]
   rw [forall_mem_cons,forall_mem_cons,PutFits,← hdrop]
   have hL':CellsFit ps (L.map (Entry.cell ps)):=hfL
   have hR':CellsFit ps (R.map (Entry.cell ps)):=hfR
   simp only [hL',hR',hfit,true_and,false_or]
   cases fs with
   | nil=>
    have hroot:KeysFit ps [headKey R]:=by
     have:=key_room hmin hseplen
     rw [KeysFit,keysWeight_cons,cellWeight,usable,kPageTrailerBytes]
     simp only [keysWeight,map_nil,sum_nil]
     omega
    rw [if_pos length_nil,forall_mem_singleton,interiorCells_fit,FramesFit]
    simp [hroot]
   | cons f gs=>
    rw [if_neg (by simp),length_cons,Nat.add_sub_cancel]
    exact separatorSplits_fit hmin hmax _ gs f p (headKey R) (prefix_append _ _) hfacts hseplen

end Leaves

section Call
variable {ps:ℕ} {σ:WriteTxn} {t:Tree} {O free:List ℕ} {b:BTree} {fs:List Frame}
 {A C B:List Entry} {key:Bytes}

lemma lookup_other {X Y:List Entry} {k:Bytes} (hC:∀ e∈C,e.key≠k) : lookupEntries (X++(C++Y)) k=lookupEntries (X++Y) k := by
 induction X with
 | nil=>exact lookupEntries_append_of_ne hC
 | cons x X ih=>rw [cons_append,cons_append,lookupEntries_cons,lookupEntries_cons,ih]

lemma lookup_around (hf:Focus fs key) (hslot:AtSlot A C B key) (C':List Entry) (hC':∀ e∈C',e.key=key) :
 lookupEntries (entriesBefore fs++(A++(C'++B))++entriesAfter fs) =
  Function.update (lookupEntries (entriesBefore fs++(A++(C++B))++entriesAfter fs)) key (lookupEntries C' key) := by
 have hshape:∀ D:List Entry,entriesBefore fs++(A++(D++B))++entriesAfter fs =
   (entriesBefore fs++A)++(D++(B++entriesAfter fs)):=by
  intro D
  simp only [append_assoc]
 funext k
 rw [hshape,hshape]
 by_cases hk:k=key
 · subst hk
   rw [Function.update_self,lookupEntries_append_of_ne,lookupEntries_append_right_of_ne]
   · intro e he
     rcases mem_append.mp he with he | he
     · exact (hslot.above e he).ne'
     · exact (hf.keys_after e he).ne'
   · intro e he
     rcases mem_append.mp he with he | he
     · exact (hf.keys_before e he).ne
     · exact (hslot.below e he).ne
 · have hne:∀ D:List Entry,(∀ e∈D,e.key=key) → ∀ e∈D,e.key≠k:=
    fun D hD e he heq=>hk (heq.symm.trans (hD e he))
   rw [Function.update_of_ne hk,lookup_other (hne C' hC'),lookup_other (hne C hslot.same)]

lemma lookup_found (hf:Focus fs key) (hslot:AtSlot A C B key) :
 (lookupEntries (entriesBefore fs++(A++(C++B))++entriesAfter fs) key).isSome = !C.isEmpty := by
 have h:=congrFun (lookup_around hf hslot C hslot.same) key
 rw [Function.update_self] at h
 rw [h]
 cases C with
 | nil=>rfl
 | cons c C=>rw [lookupEntries_cons,if_pos (hslot.same c mem_cons_self)]; rfl

lemma place_exists (h:TreeAt ps σ t O free) (hlev:t.levels≤64) (key:Bytes) :
 ∃ fs p A C B,t=plugAll fs (.leaf p (A++(C++B))) ∧ Focus fs key ∧ AtSlot A C B key ∧ fs.length<64 := by
 obtain ⟨fs,p,es,rfl,hf⟩:=focus_exists key t.levels t le_rfl h.sorted
 obtain ⟨A,C,B,rfl,hslot⟩:=atSlot_exists (leaf_sorted h.sorted) key
 exact ⟨fs,p,A,C,B,rfl,hf,hslot,lt_of_lt_of_le (path_lt_levels fs p _) hlev⟩

/-- The tree holds the map `m` now; nothing else changed. -/
structure Stepped (ps:ℕ) (σ:WriteTxn) (t:Tree) (O:List ℕ) (m:Bytes → Option Bytes)
  (t':Tree) (σ':WriteTxn) (free':List ℕ) : Prop where
 at_ : TreeAt ps σ' t' O free'
 page : t'.page=t.page
 lookup : t'.lookup=m
 same : ∀ r∈O,σ'.page r=σ.page r
 count : σ'.header.pageCount ≤ σ.header.pageCount+2^24+66

lemma file_room {n:ℕ} (hmin:kMinPageSize≤ps) (h:n*ps≤2^63) : n+2^24+66<2^64 := by
 have hmin':512≤ps:=hmin
 have:=Nat.mul_le_mul_left n hmin'
 omega

section Placed
variable {p:ℕ} {value:Bytes} (h:TreeAt ps σ (plugAll fs (.leaf p (A++(C++B)))) O free)
 (hb:b.pageSize=ps) (hroot:b.root=(plugAll fs (.leaf p (A++(C++B)))).page)
 (hf:Focus fs key) (hslot:AtSlot A C B key) (hlen:fs.length<64)
include h hroot hf hslot hlen

include hb in
lemma splits_put (hne:key≠[]) (hle:key.length ≤ maxKeyBytesFor ps) (hv:value.length<2^32) :
 (∀ cells∈(Op.put key value).splits b σ,CellsFit ps cells) ↔ PutFits ps fs (A++⟨key,value,[]⟩::B) := by
 obtain ⟨hs,he⟩:=h.leaf_entries
 have hfacts:=h.leafHeld.facts
 have hok:∀ e∈A++(⟨key,value,[]⟩:Entry)::B,e.Ok ps:=by
  intro e hm
  rcases mem_append.mp hm with hm | hm
  · exact (he e (by simp [hm])).1
  · rcases mem_cons.mp hm with rfl | hm
    · exact ⟨hne,hle,hv,fun _=>rfl⟩
    · exact (he e (by simp [hm])).1
 have hdef:(Op.put key value).splits b σ=insertSplits b σ
   (pathEntries fs++[⟨p,A.length⟩]) (σ.page p) key value A.length (!C.isEmpty):=by
  rw [Op.splits,Op.key,findLeaf_at h hroot hf hlen]
  simp only [hslot.slotOf,back_append,h.found_eq hslot]
 rw [hdef]
 cases C with
 | nil=>
  exact insertSplits_fit hb h.pages.size_min h.pages.size_max hs hok fun x hx=>hfacts x (mem_cons_of_mem _ hx)
 | cons old C=>
  obtain rfl:C=[]:=by
   have:=hslot.one
   rw [length_cons] at this
   exact length_eq_zero_iff.mp (by omega)
  rw [map_append,singleton_append,map_cons] at hs
  have hrem:=hs.removeCell
  rw [length_map,← map_append] at hrem
  exact insertSplits_fit hb h.pages.size_min h.pages.size_max hrem hok fun x hx=>hfacts x (mem_cons_of_mem _ hx)

lemma splits_insertIfAbsent (hC:C=[]) : (Op.insertIfAbsent key value).splits b σ=(Op.put key value).splits b σ := by
 rw [Op.splits,Op.key,Op.splits,Op.key,findLeaf_at h hroot hf hlen]
 simp only [hslot.slotOf,back_append,h.found_eq hslot]
 rw [hC]
 rfl

end Placed

lemma PutLeaf.lookup {p:ℕ} {value:Bytes} {chain:List ℕ} {t':Tree} (hf:Focus fs key)
 (hslot:AtSlot A C B key) (htree:PutLeaf ps fs p (A++⟨key,value,chain⟩::B) t') :
 t'.lookup=Function.update (plugAll fs (.leaf p (A++(C++B)))).lookup key (some value) := by
 funext k
 have hk:=congrFun (lookup_around hf hslot [⟨key,value,chain⟩] (by simp)) k
 rw [lookupEntries_cons,if_pos rfl] at hk
 rw [Tree.lookup,htree.entries]
 refine hk.trans ?_
 rw [← plugAll_entries_eq fs p]
 rfl

lemma found_iff {p:ℕ} (hf:Focus fs key) (hslot:AtSlot A C B key) :
 ((plugAll fs (.leaf p (A++(C++B)))).lookup key).isSome = !C.isEmpty := by
 rw [Tree.lookup,plugAll_entries_eq]
 exact lookup_found hf hslot

variable {value:Bytes}

lemma put_step (h:TreeAt ps σ t O free) (hb:b.pageSize=ps) (hroot:b.root=t.page)
 (hlev:t.levels≤64) (hs:(Op.put key value).Sound b σ) : ∃ t' σ' free',b.put key value σ=(.ok (),σ') ∧
  Stepped ps σ t O (Function.update t.lookup key (some value)) t' σ' free' := by
 obtain ⟨fs,p,A,C,B,rfl,hf,hslot,hlen⟩:=place_exists h hlev key
 obtain ⟨hne,hle,hv,hfits,hfile⟩:=hs
 rw [BTree.maxKeyBytes,hb] at hle
 rw [hb] at hfits hfile
 have hput:=(splits_put h hb hroot hf hslot hlen hne hle hv).mp hfits
 obtain ⟨chain,t',σ',free',hrun,htree,hat,hsame,hcnt⟩:=put_at h hb hroot hf hslot hlen
  hne hle hv (fun chain=>(putFits_chain chain).mpr hput) (file_room h.pages.size_min hfile)
 exact ⟨t',σ',free',hrun,hat,htree.page.trans (plugAll_leaf_page fs p _ _),PutLeaf.lookup hf hslot htree,hsame,hcnt⟩

lemma insertIfAbsent_step (h:TreeAt ps σ t O free) (hb:b.pageSize=ps)
 (hroot:b.root=t.page) (hlev:t.levels≤64) (hs:(Op.insertIfAbsent key value).Sound b σ) :
 ∃ t' σ' free',b.insertIfAbsent key value σ=(.ok (t.lookup key).isNone,σ') ∧
  Stepped ps σ t O ((Op.insertIfAbsent key value).apply t.lookup) t' σ' free' := by
 obtain ⟨fs,p,A,C,B,rfl,hf,hslot,hlen⟩:=place_exists h hlev key
 obtain ⟨hne,hle,hv,hfits,hfile⟩:=hs
 rw [BTree.maxKeyBytes,hb] at hle
 rw [hb] at hfits hfile
 rw [Op.value] at hv
 have hfound:=found_iff (p:=p) hf hslot
 rcases insertIfAbsent_at h hb hroot hf hslot hlen hne hle hv (fun hC chain=>by
   rw [splits_insertIfAbsent h hroot hf hslot hlen hC] at hfits
   exact (putFits_chain chain).mpr ((splits_put h hb hroot hf hslot hlen hne hle hv).mp hfits))
   (file_room h.pages.size_min hfile) with ⟨hC,hrun⟩ | ⟨hC,chain,t',σ',free',hrun,htree,hat,hsame,hcnt⟩
 · have hsome:((plugAll fs (.leaf p (A++(C++B)))).lookup key).isSome=true:=by
    rw [hfound]
    simpa using hC
   refine ⟨_,σ,free,?_,h,rfl,?_,fun _ _=>rfl,by omega⟩
   · rw [hrun,← Option.not_isSome,hsome]
     rfl
   · rw [Op.apply,if_pos hsome]
 · have hnone:((plugAll fs (.leaf p (A++(C++B)))).lookup key).isSome=false:=by
    rw [hfound,hC]
    rfl
   refine ⟨t',σ',free',?_,hat,htree.page.trans (plugAll_leaf_page fs p _ _),?_,hsame,hcnt⟩
   · rw [hrun,← Option.not_isSome,hnone]
     rfl
   · rw [Op.apply,if_neg (by rw [hnone]; simp)]
     exact PutLeaf.lookup hf hslot htree

lemma erase_step (h:TreeAt ps σ t O free) (hroot:b.root=t.page) (hlev:t.levels≤64) (key:Bytes) :
 ∃ t' σ' free',b.erase key σ=(.ok (t.lookup key).isSome,σ') ∧
  Stepped ps σ t O (Function.update t.lookup key none) t' σ' free' := by
 obtain ⟨fs,p,A,C,B,rfl,hf,hslot,hlen⟩:=place_exists h hlev key
 have hfound:=found_iff (p:=p) hf hslot
 have hupd:=lookup_around hf hslot [] (by simp)
 rw [← plugAll_entries_eq fs p (A++(C++B)),nil_append] at hupd
 cases C with
 | nil=>
  refine ⟨_,σ,free,?_,h,rfl,?_,fun _ _=>rfl,by omega⟩
  · rw [erase_absent h hroot hf hslot hlen,hfound]
    rfl
  · have hnone:=Option.not_isSome_iff_eq_none.mp (by rw [hfound]; simp)
    rw [← hnone,Function.update_eq_self]
 | cons old C=>
  obtain rfl:C=[]:=by
   have:=hslot.one
   rw [length_cons] at this
   exact length_eq_zero_iff.mp (by omega)
  obtain ⟨t',σ',free',hrun,htree,hat,hsame,hcnt⟩:=erase_present h hroot hf hslot hlen
  refine ⟨t',σ',free',?_,hat,htree.page _,?_,hsame,by omega⟩
  · rw [hrun,hfound]
    rfl
  · funext k
    rw [Tree.lookup,htree.entries]
    exact congrFun hupd k

lemma Op.run_at {op:Op} (h:TreeAt ps σ t O free) (hb:b.pageSize=ps)
 (hroot:b.root=t.page) (hlev:t.levels≤64) (hs:op.Sound b σ) :
 ∃ t' σ' free',op.run b σ=(.ok (op.result t.lookup),σ') ∧ Stepped ps σ t O (op.apply t.lookup) t' σ' free' := by
 cases op with
 | put key value=>
  obtain ⟨t',σ',free',hrun,hstep⟩:=put_step h hb hroot hlev hs
  refine ⟨t',σ',free',?_,hstep⟩
  rw [Op.run,Act.bind_of_ok _ hrun]
  rfl
 | insertIfAbsent key value=>exact insertIfAbsent_step h hb hroot hlev hs
 | erase key=>exact erase_step h hroot hlev key

end Call

section Run
variable {ps:ℕ} {b:BTree}

/-- `find_leaf` and the cursors reach every leaf. -/
def Shallow (b:BTree) (σ:WriteTxn) : Prop := leavesWithin σ 64 b.root=true

instance (b:BTree) (σ:WriteTxn) : Decidable (Shallow b σ) :=
 inferInstanceAs (Decidable (_=true))

lemma shallow_iff {σ:WriteTxn} {t:Tree} {O free:List ℕ} (h:TreeAt ps σ t O free)
 (hroot:b.root=t.page) : Shallow b σ ↔ t.levels≤64 := by
 rw [Shallow,hroot]
 exact leavesWithin_iff 64 t h.facts fun q hq=>h.pages.own_lt_u64 (mem_append_left _ hq)

lemma runOps_run (hb:b.pageSize=ps) (O:List ℕ) (ops:List Op) :
 ∀ (σ:WriteTxn) (t:Tree) (free:List ℕ),TreeAt ps σ t O free → b.root=t.page →
  EachStep b (fun σ op=>op.Sound b σ ∧ Shallow b σ) ops σ → ∃ t' σ' free',runOps b ops σ=(.ok (results ops t.lookup),σ') ∧
   TreeAt ps σ' t' O free' ∧ b.root=t'.page ∧ t'.lookup=replay ops t.lookup ∧ ∀ r∈O,σ'.page r=σ.page r := by
 induction ops with
 | nil=>
  intro σ t free h hroot _
  exact ⟨t,σ,free,rfl,h,hroot,rfl,fun _ _=>rfl⟩
 | cons op ops ih=>
  intro σ t free h hroot heach
  obtain ⟨⟨hsound,hshallow⟩,hrest⟩:=heach
  obtain ⟨t1,σ1,free1,hrun,hstep⟩:=op.run_at h hb hroot ((shallow_iff h hroot).mp hshallow) hsound
  rw [hrun] at hrest
  obtain ⟨t',σ',free',hruns,hat,hroot',hlook,hsame⟩:=ih σ1 t1 free1 hstep.at_ (hroot.trans hstep.page.symm) hrest
  rw [hstep.lookup] at hruns hlook
  refine ⟨t',σ',free',?_,hat,hroot',hlook,fun r hr=>(hsame r hr).trans (hstep.same r hr)⟩
  rw [runOps,Act.bind_of_ok _ hrun,Act.bind_of_ok _ hruns]
  rfl

lemma create_run {σ:WriteTxn} {O free:List ℕ} (h:Pages ps σ O free) (hfile:σ.header.pageCount*ps≤2^63) :
 ∃ root σ' free',BTree.create ps σ=(.ok root,σ') ∧ TreeAt ps σ' (.leaf root []) O free' ∧
  (∀ r∈O,σ'.page r=σ.page r) ∧ σ'.header.pageCount≤σ.header.pageCount+1 := by
 have hroom:=file_room h.size_min hfile
 have hheld:Holding ps σ [] O free:=⟨h,by simp⟩
 obtain ⟨root,σ1,free',halloc,h1,hnot,hsame,hcnt⟩:=hheld.allocate (by omega)
 have hinit:Slotted ps (init ps kLeaf) kLeaf []:=
  Slotted.init h.size_min h.size_max (by decide)
 have hopen:LeafOpen ps σ1 root (init ps kLeaf) [] [] O free':=
  ⟨h1,hinit,by simp⟩
 obtain ⟨hw,h2⟩:=hopen.close
 refine ⟨root,σ1.setDirty root (init ps kLeaf),free',?_,⟨?_,?_,?_,?_,?_⟩,?_,hcnt⟩
 · rw [BTree.create,Act.bind_of_ok _ halloc,Act.bind_of_ok _ hw]
   rfl
 · exact h2.pages
 · exact h2.facts
 · exact List.Pairwise.nil
 · show Linked _ 0 [root] 0
   rw [Linked,σ1.setDirty_page_self]
   exact ⟨init_prev ps kLeaf h.size_min,init_right ps kLeaf h.size_min,trivial⟩
 · exact Or.inl ⟨root,[],rfl⟩
 · intro r hr
   have hne:r≠root:=fun he=>hnot (by rw [← he]; exact mem_append_right _ hr)
   rw [σ1.setDirty_page_of_ne _ hne,hsame r hne]

def freshTxn (ps:ℕ) : WriteTxn where
 pageSize := ps
 committed:=fun _=>replicate ps 0
 snapshotHeader:={ pageCount:=1,freelistHead:=0,freelistCount:=0 }
 header:={ pageCount:=1,freelistHead:=0,freelistCount:=0 }
 dirty:=fun _=>none
 freed:=[]
 finished:=false

lemma freshTxn_pages {ps:ℕ} (hmin:kMinPageSize≤ps) (hmax:ps≤kMaxPageSize) : Pages ps (freshTxn ps) [] [] where
 open_ := rfl
 size_eq:=rfl
 size_min:=hmin
 size_max:=hmax
 written p h1 h2:=absurd (lt_of_lt_of_le h1 h2) (lt_irrefl _)
 images p _:=length_replicate
 count_pos:=Nat.one_pos
 count_lt:=Nat.one_lt_two_pow (by decide)
 perm:=List.Perm.refl _
 chain:=rfl
 free_count:=rfl
 freed_free p hp:=by cases hp

lemma reads_map {σ:WriteTxn} {t:Tree} {O free:List ℕ} (h:TreeAt ps σ t O free)
 (hb:b.pageSize=ps) (hroot:b.root=t.page) (hlev:t.levels≤64) : (pairs t.entries).Pairwise (fun x y=>x.1<y.1) ∧
  (∀ k v,(k,v)∈pairs t.entries ↔ t.lookup k=some v) ∧ (∀ k,b.get k σ=(.ok (t.lookup k),σ)) ∧
  ∀ fuel,t.leaves.length+t.entries.length<fuel → b.forEach fuel collect [] σ=(.ok (pairs t.entries),σ) ∧
   (∀ k c,(Cursor.seek b fuel k c >>= walk b (Cursor.next fuel) fuel) σ =
    (.ok ((pairs t.entries).filter fun x=>decide (k≤x.1)),σ)) ∧
   ∀ c,(Cursor.seekLast b c >>= walk b (Cursor.prev fuel) fuel) σ = (.ok (pairs t.entries).reverse,σ) := by
 have hview:=h.treeView hb hroot hlev
 have hentries:=entriesOf_view σ t
 have hlen:(t.view σ).length=t.leaves.length:=length_map _
 have hsort:=entries_sorted h.sorted
 refine ⟨?_,fun k v=>(lookupEntries_iff hsort k v).symm,fun k=>?_,?_⟩
 · rw [pairs,pairwise_map]
   exact hsort
 · rw [hview.get_run k,hentries]
   rfl
 · intro fuel hfuel
   rw [← hlen,← hentries] at hfuel
   refine ⟨?_,fun k c=>?_,fun c=>?_⟩
   · rw [hview.collected (by omega),hentries]
   · rw [hview.seek_next_walk k c (by omega) (by omega),hentries,pairs,pairs,filter_map]
     rfl
   · rw [hview.seekLast_prev_walk c (by omega) (by omega),hentries,pairs,pairs,map_reverse]

/-- After any run from an empty tree whose calls find every leaf within 64 levels, and with the
reads finding the same, all reads agree with the map the run replays. -/
theorem run_replays_map {σ₀ σ₁:WriteTxn} {O free:List ℕ} {root:ℕ} (hP:Pages ps σ₀ O free)
  (hfile:σ₀.header.pageCount*ps ≤ 2^63) (hcreate:BTree.create ps σ₀=(.ok root,σ₁))
  (ops:List Op)
  (heach:EachStep ⟨root,ps⟩ (fun σ op=>op.Sound ⟨root,ps⟩ σ ∧ Shallow ⟨root,ps⟩ σ) ops σ₁)
  (hend:Shallow ⟨root,ps⟩ (runOps ⟨root,ps⟩ ops σ₁).2) :
  ∃ σ L,runOps ⟨root,ps⟩ ops σ₁=(.ok (results ops fun _=>none),σ) ∧
   L.Pairwise (fun x y=>x.1<y.1) ∧
   (∀ k v,(k,v)∈L ↔ replay ops (fun _=>none) k=some v) ∧
   (∀ k,BTree.get ⟨root,ps⟩ k σ=(.ok (replay ops (fun _=>none) k),σ)) ∧
   ∃ n,∀ fuel,n<fuel →
    BTree.forEach ⟨root,ps⟩ fuel collect [] σ=(.ok L,σ) ∧
    (∀ k c,(Cursor.seek ⟨root,ps⟩ fuel k c >>=
      walk ⟨root,ps⟩ (Cursor.next fuel) fuel) σ =
     (.ok (L.filter fun x=>decide (k ≤ x.1)),σ)) ∧
    ∀ c,(Cursor.seekLast ⟨root,ps⟩ c >>= walk ⟨root,ps⟩ (Cursor.prev fuel) fuel) σ =
     (.ok L.reverse,σ) := by
 obtain ⟨root',σ',free',hrun,hat,-,-⟩:=create_run hP hfile
 obtain ⟨hroot,rfl⟩:root'=root ∧ σ'=σ₁:=by
  rw [hrun,Prod.mk.injEq,Except.ok.injEq] at hcreate
  exact hcreate
 subst hroot
 obtain ⟨t,σ,free,hruns,htree,hpage,hlook,-⟩:=runOps_run (b:=⟨root',ps⟩) rfl O ops σ'
  (.leaf root' []) free' hat rfl heach
 rw [hruns] at hend
 have hreads:=reads_map htree rfl hpage ((shallow_iff htree hpage).mp hend)
 rw [hlook] at hreads
 obtain ⟨h1,h2,h3,h4⟩:=hreads
 exact ⟨σ,pairs t.entries,hruns,h1,h2,h3,_,h4⟩

/-- The run of three calls on a fresh database. -/
theorem run_replays_map_fresh :
  ∃ σ L,runOps ⟨1,512⟩ [.put [1] [2],.insertIfAbsent [1] [3],.erase [1]]
    (BTree.create 512 (freshTxn 512)).2=(.ok [true,false,true],σ) ∧ L=[] ∧
   BTree.get ⟨1,512⟩ [1] σ=(.ok none,σ) ∧
   ∃ n,∀ fuel,n<fuel → BTree.forEach ⟨1,512⟩ fuel collect [] σ=(.ok L,σ) := by
 have hroot:(BTree.create 512 (freshTxn 512)).1=.ok 1:=by decide +kernel
 have heta:∀ x:Except Status ℕ × WriteTxn,x.1=.ok 1 → x=(.ok 1,x.2):=by
  rintro ⟨r,σ⟩ rfl
  rfl
 have hcreate:=heta _ hroot
 obtain ⟨σ,L,h1,-,h3,h4,n,h5⟩:=run_replays_map (freshTxn_pages (by decide) (by decide))
  (by decide) hcreate [.put [1] [2],.insertIfAbsent [1] [3],.erase [1]]
  ⟨⟨⟨by decide,by decide,by decide,by decide +kernel,by decide +kernel⟩,by decide +kernel⟩,
   ⟨⟨by decide,by decide,by decide,by decide +kernel,by decide +kernel⟩,by decide +kernel⟩,
   ⟨⟨by decide,by decide,by decide,by decide +kernel,by decide +kernel⟩,by decide +kernel⟩,
   trivial⟩ (by decide +kernel)
 have hnone:∀ k,replay [.put [1] [2],.insertIfAbsent [1] [3],.erase [1]] (fun _=>none) k =
   none:=by
  intro k
  by_cases hk:k=[1] <;> simp [replay,Op.apply,hk,Function.update]
 have hres:results [.put [1] [2],.insertIfAbsent [1] [3],.erase [1]] (fun _=>none) =
   [true,false,true]:=by decide
 rw [hres] at h1
 refine ⟨σ,L,h1,eq_nil_iff_forall_not_mem.mpr ?_,?_,n,fun fuel hf=>(h5 fuel hf).1⟩
 · rintro ⟨k,v⟩ hm
   have:=(h3 k v).mp hm
   rw [hnone] at this
   cases this
 · rw [h4,hnone]

end Run

end Archivum.TreeShape.Runs
