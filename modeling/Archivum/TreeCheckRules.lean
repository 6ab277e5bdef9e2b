import Archivum.TreeCheckModel
import Archivum.LeafWalks

set_option autoImplicit false

/-!
# What a check without problems means

The pages may hold anything. If `check` finds no problem, then the leaves it met
are linked in the order it met them, their keys ascend, and every descent ends in
the leaf whose bounds hold the key.
-/
namespace Archivum.TreeShape.Checks
open ByteStrings StatefulActions PageTxn SlottedPage BTreeModel TreeCheckModel List Node

lemma problem_ne (c:Checking) (page:ℕ) (p:String) : (c.problem page p).problems≠[] := by
 simp [Checking.problem]

lemma problemIf_clean {cond:Prop} [Decidable cond] {page:ℕ} {p:String} {c:Checking}
 (h:(c.problemIf cond page p).problems=[]) : ¬cond ∧ c.problemIf cond page p=c := by
 rw [Checking.problemIf] at h ⊢
 split at h
 · exact absurd h (problem_ne c page p)
 · rename_i hcond
   exact ⟨hcond,if_neg hcond⟩

/-- The entries counted and the last leaf stay, and problems are not taken back. -/
structure Keeps (c c':Checking) : Prop where
 entries : c'.entries=c.entries
 expectedPrev : c'.expectedPrev=c.expectedPrev
 problems : c'.problems=[] → c.problems=[]

lemma Keeps.refl (c:Checking) : Keeps c c := ⟨rfl,rfl,id⟩

lemma Keeps.trans {c c' c'':Checking} (h:Keeps c c') (h':Keeps c' c'') : Keeps c c'' :=
 ⟨h'.entries.trans h.entries,h'.expectedPrev.trans h.expectedPrev,fun hp=>h.problems (h'.problems hp)⟩

lemma keeps_problem (c:Checking) (page:ℕ) (p:String) : Keeps c (c.problem page p) :=
 ⟨rfl,rfl,fun h=>absurd h (problem_ne c page p)⟩

lemma keeps_problemIf (cond:Prop) [Decidable cond] (page:ℕ) (p:String) (c:Checking) : Keeps c (c.problemIf cond page p) := by
 rw [Checking.problemIf]
 split
 · exact keeps_problem c page p
 · exact Keeps.refl c

def Between (lower upper:Option Bytes) (k:Bytes) : Prop := (∀ l∈lower,l ≤ k) ∧ ∀ u∈upper,k<u

section Cells
variable {ps page:ℕ} {buf:Bytes} {lower upper:Option Bytes}

lemma below_clean {k:Bytes} (h:¬(lower.any fun l=>compareBytes k l == .lt)=true) : ∀ l∈lower,l≤k := by
 rintro l rfl
 rwa [Option.any_some,beq_iff_eq,compareBytes_lt_iff,not_lt] at h

lemma above_clean {k:Bytes} (h:¬(upper.any fun u=>compareBytes k u != .lt)=true) : ∀ u∈upper,k<u := by
 rintro u rfl
 rwa [Option.any_some,bne_iff_ne,not_not,compareBytes_lt_iff] at h

lemma cells_clean (n:ℕ) : ∀ (i:ℕ) (prev:Bytes) (c:Checking),(c.cells ps page buf lower upper n i prev).1.problems=[] →
  c.cells ps page buf lower upper n i prev=(c,true) ∧ (0 < i → 0<n → prev<key buf i) ∧
  (∀ j,i≤j → j < i+n → Between lower upper (key buf j)) ∧ ∀ j,i≤j → j+1 < i+n → key buf j<key buf (j+1) := by
 induction n with
 | zero=>exact fun i prev c _=>⟨rfl,fun _ h=>absurd h (lt_irrefl 0),fun j h h'=>by omega,fun j h h'=>by omega⟩
 | succ n ih=>
  intro i prev c h
  rw [Checking.cells] at h ⊢
  by_cases hout:slot buf i<contentStart buf ∨ usable ps<slot buf i+cellSize buf i
  · rw [if_pos hout] at h
    exact absurd h (problem_ne _ _ _)
  · rw [if_neg hout] at h ⊢
    obtain ⟨hrun,hnext,hbetween,hsort⟩:=ih (i+1) (key buf i) _ h
    dsimp only at h ⊢
    rw [hrun] at h ⊢
    obtain ⟨hup,hc₃⟩:=problemIf_clean h
    rw [hc₃] at h ⊢
    obtain ⟨hlow,hc₂⟩:=problemIf_clean h
    rw [hc₂] at h ⊢
    obtain ⟨hord,hc₁⟩:=problemIf_clean h
    rw [hc₁]
    refine ⟨rfl,fun hi _=>?_,fun j hj hj'=>?_,fun j hj hj'=>?_⟩
    · exact (compareBytes_lt_iff _ _).mp (not_not.mp fun hne=>hord ⟨hi,hne⟩)
    · rcases hj.eq_or_lt with rfl | hlt
      · exact ⟨below_clean hlow,above_clean hup⟩
      · exact hbetween j hlt (by omega)
    · rcases hj.eq_or_lt with rfl | hlt
      · exact hnext (by omega) (by omega)
      · exact hsort j hlt (by omega)

end Cells

/-- What the loop over the cells establishes of a page. -/
structure Ordered (lower upper:Option Bytes) (buf:Bytes) : Prop where
 between : ∀ i<Node.count buf,Between lower upper (Node.key buf i)
 sorted : ∀ i j,i<j → j<Node.count buf → Node.key buf i<Node.key buf j

lemma ordered_of_clean {ps page:ℕ} {buf:Bytes} {lower upper:Option Bytes} {c:Checking}
 (h:(c.cells ps page buf lower upper (count buf) 0 []).1.problems=[]) :
 c.cells ps page buf lower upper (count buf) 0 []=(c,true) ∧ Ordered lower upper buf := by
 obtain ⟨hrun,-,hbetween,hsort⟩:=cells_clean (count buf) 0 [] c h
 refine ⟨hrun,fun i hi=>hbetween i (Nat.zero_le i) (by omega),fun i j hij=>?_⟩
 induction hij with
 | refl=>exact fun hj=>hsort i (Nat.zero_le i) (by omega)
 | @step m hm ih=>exact fun hj=>(ih (by omega)).trans (hsort m (Nat.zero_le m) (by omega))

section Chain
variable {b:BTree} {σ:WriteTxn}

lemma readPage_eq (p:ℕ) (σ:WriteTxn) : readPage p σ=((readPage p σ).1,σ) := by
 unfold readPage
 split_ifs <;> first | rfl | (split <;> rfl)

lemma read_ok {p:ℕ} {buf:Bytes} (h:(readPage p σ).1=.ok buf) : readPage p σ=(.ok buf,σ) := by
 rw [readPage_eq,h]

lemma chain_keeps (page hops:ℕ) : ∀ (remaining p:ℕ) (c:Checking),Keeps c (Checking.chain b σ page hops remaining p c).1 := by
 induction hops with
 | zero=>exact fun _ _ c=>Keeps.refl c
 | succ hops ih=>
  intro remaining p c
  rw [Checking.chain]
  split_ifs
  · exact Keeps.refl c
  · exact keeps_problem c page _
  · split
    · exact ⟨rfl,rfl,fun h=>absurd h (problem_ne _ _ _)⟩
    · exact ⟨(ih _ _ _).entries,(ih _ _ _).expectedPrev,(ih _ _ _).problems⟩

lemma chain_stuck (hcap:b.overflowCap=0) (page hops:ℕ) : ∀ (remaining p:ℕ) (c:Checking),
 (Checking.chain b σ page hops remaining p c).2.1=remaining := by
 induction hops with
 | zero=>exact fun _ _ _=>rfl
 | succ hops ih=>
  intro remaining p c
  rw [Checking.chain]
  split_ifs
  · rfl
  · rfl
  · split
    · rfl
    · rw [ih,hcap,Nat.zero_min,Nat.sub_zero]

lemma chain_read (page hops:ℕ) : ∀ (remaining p k:ℕ) (c:Checking) (out:Bytes),
 (Checking.chain b σ page hops remaining p c).1.problems=[] →
  (Checking.chain b σ page hops remaining p c).2.1=0 → remaining≤k*b.overflowCap →
  ∃ v,b.readOverflowLoop k p remaining out σ=(.ok v,σ) := by
 have hdone:∀ p k out,b.readOverflowLoop k p 0 out σ=(.ok out,σ):=by
  intro p k out
  cases k <;> rfl
 induction hops with
 | zero=>
  rintro remaining p k c out-rfl -
  exact ⟨out,hdone p k out⟩
 | succ hops ih=>
  intro remaining p k c out hclean hend hk
  rw [Checking.chain] at hclean hend
  by_cases hrem:remaining=0
  · rw [hrem]
    exact ⟨out,hdone p k out⟩
  by_cases hp:p=0
  · rw [if_pos (.inr hp)] at hend
    exact absurd hend hrem
  rw [if_neg (by simp [hrem,hp])] at hclean hend
  by_cases hseen:p∈c.pages
  · rw [if_pos hseen] at hclean
    exact absurd hclean (problem_ne _ _ _)
  rw [if_neg hseen] at hclean hend
  cases hread:(readPage p σ).1 with
  | error s=>
   rw [hread] at hclean
   exact absurd hclean (problem_ne _ _ _)
  | ok ob=>
   rw [hread] at hclean hend
   cases k with
   | zero=>omega
   | succ k=>
    rw [Nat.succ_mul] at hk
    obtain ⟨v,hv⟩:=ih _ _ k _ (out++slice ob kOverflowHdr (min b.overflowCap remaining)) hclean hend (by omega)
    refine ⟨v,?_⟩
    rw [BTree.readOverflowLoop,if_neg hrem,if_neg hp,Act.bind_of_ok _ (read_ok hread)]
    exact hv

variable {page i:ℕ} {buf:Bytes}

lemma cellOverflow_keeps (c:Checking) : Keeps c (Checking.cellOverflow b σ page buf c i) := by
 rw [Checking.cellOverflow]
 split
 · exact ((chain_keeps page _ _ _ c).trans (keeps_problemIf _ _ _ _)).trans (keeps_problemIf _ _ _ _)
 · exact Keeps.refl c

lemma cellOverflow_clean {c:Checking} (h:(Checking.cellOverflow b σ page buf c i).problems=[]) :
 ∃ v,b.leafValue buf i σ=(.ok v,σ) := by
 rw [Checking.cellOverflow] at h
 rw [BTree.leafValue]
 by_cases hover:overflowed buf i
 · rw [if_pos hover] at h ⊢
   obtain ⟨-,hc₂⟩:=problemIf_clean h
   rw [hc₂] at h
   obtain ⟨hleft,hc₁⟩:=problemIf_clean h
   rw [hc₁] at h
   have hend:=Nat.eq_zero_of_not_pos hleft
   refine chain_read page _ _ _ _ c [] h hend ?_
   rcases Nat.eq_zero_or_pos b.overflowCap with hcap | hcap
   · rw [chain_stuck hcap] at hend
     omega
   · have hdiv:=Nat.div_add_mod (valueLen buf i) b.overflowCap
     have hmod:=Nat.mod_lt (valueLen buf i) hcap
     rw [Nat.add_mul,Nat.mul_comm]
     omega
 · rw [if_neg hover]
   exact ⟨_,rfl⟩

lemma overflows_clean (n:ℕ) : ∀ {c:Checking},((range n).foldl (Checking.cellOverflow b σ page buf) c).problems=[] →
  Keeps c ((range n).foldl (Checking.cellOverflow b σ page buf) c) ∧ ∀ i<n,∃ v,b.leafValue buf i σ=(.ok v,σ) := by
 induction n with
 | zero=>exact fun _=>⟨Keeps.refl _,fun i hi=>absurd hi (Nat.not_lt_zero i)⟩
 | succ n ih=>
  intro c h
  rw [range_succ,foldl_append,foldl_cons,foldl_nil] at h ⊢
  have hkeeps:Keeps _ (Checking.cellOverflow b σ page buf _ n):=
   cellOverflow_keeps ((range n).foldl (Checking.cellOverflow b σ page buf) c)
  obtain ⟨hfirst,hvalues⟩:=ih (hkeeps.problems h)
  refine ⟨hfirst.trans hkeeps,fun i hi=>?_⟩
  rcases Nat.lt_succ_iff_lt_or_eq.mp hi with hlt | rfl
  · exact hvalues i hlt
  · exact cellOverflow_clean h

end Chain

def entriesIn (b:BTree) (σ:WriteTxn) (buf:Bytes) : List Entry :=
 (range (count buf)).map fun i=>
  ⟨key buf i,((b.leafValue buf i σ).1.toOption).getD [],[]⟩

/-- The leaves below a page, as `check_node` meets them. -/
def leavesBelow (b:BTree) (σ:WriteTxn) : ℕ → ℕ → List LeafView
 | 0,_=>[]
 | n+1,page=>
  match (readPage page σ).1 with
  | .error _=>[]
  | .ok buf=>
   if isLeaf buf then [⟨page,buf,entriesIn b σ buf⟩]
   else (range (Node.count buf+1)).flatMap fun i=>leavesBelow b σ n (BTree.childAt buf i)

lemma entriesOf_flatMap {α:Type} (is:List α) (f:α → List LeafView) :
 entriesOf (is.flatMap f)=is.flatMap fun i=>entriesOf (f i) := flatMap_assoc

lemma mem_entriesOf_flatMap {α:Type} {is:List α} {f:α → List LeafView} {e:Entry} :
 e∈entriesOf (is.flatMap f) ↔ ∃ i∈is,e∈entriesOf (f i) := by
 rw [entriesOf_flatMap,mem_flatMap]

/-- Each leaf names the one before it, and the one before it names the leaf. -/
def Joined (σ:WriteTxn) : ℕ → List LeafView → Prop
 | _,[]=>True
 | a,x::R=>Node.prev x.image=a ∧
   (a≠0 → ∀ buf,(readPage a σ).1=.ok buf → Node.right buf=x.page) ∧ Joined σ x.page R

def lastPage (a:ℕ) (ls:List LeafView) : ℕ := (ls.map LeafView.page).getLastD a

lemma joined_append (σ:WriteTxn) (L R:List LeafView) : ∀ a,Joined σ a (L++R) ↔ Joined σ a L ∧ Joined σ (lastPage a L) R := by
 induction L with
 | nil=>exact fun a=>⟨fun h=>⟨trivial,h⟩,fun h=>h.2⟩
 | cons x L ih=>
  intro a
  have hlast:lastPage a (x::L)=lastPage x.page L:=getLastD_cons
  rw [cons_append,Joined,Joined,ih,hlast]
  tauto

lemma lastPage_append (a:ℕ) (L R:List LeafView) : lastPage a (L++R)=lastPage (lastPage a L) R := by
 simp [lastPage,getLastD_eq_getLast?,getLast?_append]

/-- The report after the leaves `ls`, from the report `c` before them. -/
structure Hooked (σ:WriteTxn) (c c':Checking) (ls:List LeafView) : Prop where
 before : c.problems=[]
 entries : c'.entries=c.entries+(entriesOf ls).length
 last : c'.expectedPrev=lastPage c.expectedPrev ls
 joined : Joined σ c.expectedPrev ls

lemma Hooked.trans {σ:WriteTxn} {c c' c'':Checking} {L R:List LeafView} (h:Hooked σ c c' L)
 (h':Hooked σ c' c'' R) : Hooked σ c c'' (L++R) where
 before := h.before
 entries:=by
  rw [h'.entries,h.entries,entriesOf_append,length_append,Nat.add_assoc]
 last:=by rw [h'.last,h.last,lastPage_append]
 joined:=(joined_append σ L R _).mpr ⟨h.joined,h.last ▸ h'.joined⟩

/-- What the check of the page `page` with `n` levels below establishes of its leaves. -/
structure Sound (b:BTree) (σ:WriteTxn) (n page:ℕ) (lower upper:Option Bytes) (ls:List LeafView) :
  Prop where
 pos : page≠0
 leaves : ∀ x∈ls,x.At b σ ∧ isLeaf x.image=true ∧ (x.entries=[] → x.page=b.root)
 between : ∀ e∈entriesOf ls,Between lower upper e.key
 sorted : (entriesOf ls).Pairwise fun a b=>a.key<b.key
 find : ∀ key path,Between lower upper key → ∃ L x R path',ls=L++x::R ∧
  BTree.findLeafLoop key n page path σ=(.ok (path'++[⟨x.page,slotOf x.entries key⟩],x.image),σ) ∧
  (∀ e∈entriesOf L,e.key<key) ∧ ∀ e∈entriesOf R,key<e.key
 first : ∃ x R,ls=x::R ∧ ∀ fuel c,Cursor.seekFirstLoop fuel c n page σ =
  Cursor.loadSlot fuel { c with page:=x.image,leaf:=x.page,slot:=0 } σ
 last : ∃ L x,ls=L++[x] ∧ ∀ c,Cursor.seekLastLoop c n page σ=(.ok (x.atLast c),σ)

section Leaf
variable {b:BTree} {σ:WriteTxn} {page n:ℕ} {buf:Bytes} {lower upper:Option Bytes} {c:Checking}

lemma entriesIn_get {i:ℕ} {e:Entry} (h:(entriesIn b σ buf)[i]? = some e) : i<Node.count buf ∧
 Node.key buf i=e.key ∧ ((b.leafValue buf i σ).1.toOption).getD []=e.value := by
 rw [entriesIn,getElem?_map] at h
 obtain ⟨j,hj,rfl⟩:=Option.map_eq_some_iff.mp h
 obtain ⟨hlt,hij⟩:=List.getElem?_eq_some_iff.mp hj
 rw [List.length_range] at hlt
 rw [getElem_range] at hij
 rw [← hij]
 exact ⟨hlt,rfl,rfl⟩

lemma entriesIn_mem {e:Entry} (h:e∈entriesIn b σ buf) : ∃ i<Node.count buf,Node.key buf i=e.key := by
 obtain ⟨i,hi⟩:=mem_iff_getElem?.mp h
 exact ⟨i,(entriesIn_get hi).1,(entriesIn_get hi).2.1⟩

lemma length_entriesIn : (entriesIn b σ buf).length=Node.count buf := by
 rw [entriesIn,length_map,length_range]

lemma entriesIn_sorted (h:Ordered lower upper buf) : (entriesIn b σ buf).Pairwise fun a b=>a.key<b.key := by
 rw [entriesIn,pairwise_map]
 refine List.Pairwise.imp_of_mem ?_ pairwise_lt_range
 intro i j _ hj hij
 exact h.sorted i j hij (mem_range.mp hj)

lemma lowerBound_entriesIn (h:Ordered lower upper buf) (key:Bytes) : lowerBound buf key=slotOf (entriesIn b σ buf) key := by
 rw [lowerBound,← length_entriesIn (b:=b) (σ:=σ)]
 apply bisect_takeWhile
 · intro i e hi
   rw [(entriesIn_get hi).2.1,Bool.eq_iff_iff,beq_iff_eq,compareBytes_lt_iff,decide_eq_true_eq]
 · refine (entriesIn_sorted h).imp ?_
   intro a b hab hb
   rw [decide_eq_true_eq] at hb ⊢
   exact hab.trans hb

lemma sound_leaf (hpos:page≠0) (hread:(readPage page σ).1=.ok buf) (hleaf:Node.isLeaf buf=true)
 (hord:Ordered lower upper buf) (hvalues:∀ i<Node.count buf,∃ v,b.leafValue buf i σ=(.ok v,σ))
 (hfilled:Node.count buf=0 → page=b.root) : Sound b σ (n+1) page lower upper [⟨page,buf,entriesIn b σ buf⟩] where
 pos := hpos
 leaves:=by
  intro x hx
  rw [mem_singleton.mp hx]
  refine ⟨⟨hpos,read_ok hread,length_entriesIn.symm,fun hi=>(entriesIn_get hi).2.1,fun hi=>?_⟩,hleaf,fun hnil=>hfilled ?_⟩
  · obtain ⟨hlt,-,hvalue⟩:=entriesIn_get hi
    obtain ⟨v,hv⟩:=hvalues _ hlt
    rw [hv] at hvalue
    rw [hv,← hvalue]
    rfl
  · rw [← length_entriesIn (b:=b) (σ:=σ)]
    exact congrArg length hnil
 between:=by
  intro e he
  rw [entriesOf_cons,entriesOf_nil,append_nil] at he
  obtain ⟨i,hi,hkey⟩:=entriesIn_mem he
  rw [← hkey]
  exact hord.between i hi
 sorted:=by
  rw [entriesOf_cons,entriesOf_nil,append_nil]
  exact entriesIn_sorted hord
 find:=by
  intro key path _
  refine ⟨[],_,[],path,rfl,?_,by simp,by simp⟩
  rw [BTree.findLeafLoop,Act.bind_of_ok _ (read_ok hread),if_pos hleaf,lowerBound_entriesIn hord key]
  rfl
 first:=by
  refine ⟨_,[],rfl,fun fuel c=>?_⟩
  rw [Cursor.seekFirstLoop,Act.bind_of_ok _ (read_ok hread),if_pos hleaf]
 last:=by
  refine ⟨[],_,rfl,fun c=>?_⟩
  rw [Cursor.seekLastLoop,Act.bind_of_ok _ (read_ok hread),if_pos hleaf,LeafView.atLast,length_entriesIn (b:=b) (σ:=σ)]
  split <;> rfl

lemma depth_keeps (c:Checking) (page depth:ℕ) (p:String) :
  Keeps c (if c.leafDepth=0 then { c with leafDepth:=depth } else c.problemIf (c.leafDepth≠depth) page p) := by
 split
 · exact ⟨rfl,rfl,id⟩
 · exact keeps_problemIf _ _ _ _

lemma link_clean {c:Checking} {p:String} (h:(if c.expectedPrev≠0 then
  match (readPage c.expectedPrev σ).1 with
   | .ok pb=>c.problemIf (right pb≠page) page p
   | .error _=>c
  else c).problems=[]) :
  (if c.expectedPrev≠0 then
   match (readPage c.expectedPrev σ).1 with
   | .ok pb=>c.problemIf (right pb≠page) page p
   | .error _=>c
  else c)=c ∧
  (c.expectedPrev≠0 → ∀ pb,(readPage c.expectedPrev σ).1=.ok pb → right pb=page) := by
 by_cases hprev:c.expectedPrev≠0
 · rw [if_pos hprev] at h ⊢
   cases hread:(readPage c.expectedPrev σ).1 with
   | error s=>exact ⟨rfl,fun _ pb hpb=>by cases hpb⟩
   | ok pb=>
    rw [hread] at h
    obtain ⟨hright,hc⟩:=problemIf_clean h
    refine ⟨hc,fun _ pb' hpb=>?_⟩
    cases hpb
    exact not_not.mp hright
 · rw [if_neg hprev]
   exact ⟨rfl,fun h0=>absurd h0 hprev⟩

lemma leaf_clean {depth:ℕ} (h:(c.leaf b σ page depth buf).problems=[]) :
 Hooked σ c (c.leaf b σ page depth buf) [⟨page,buf,entriesIn b σ buf⟩] ∧
  (∀ i<Node.count buf,∃ v,b.leafValue buf i σ=(.ok v,σ)) ∧ (Node.count buf=0 → page=b.root) := by
 unfold Checking.leaf at h ⊢
 extract_lets c₀ c₁ c₂ c₃ c₄ c₅ at h ⊢
 obtain ⟨hkeeps,hvalues⟩:=overflows_clean _ h
 obtain ⟨hempty,hc₅⟩:_ ∧ c₅=c₄:=problemIf_clean (hkeeps.problems h)
 have h₃:c₃.problems=[]:=by
  have h₅:=hkeeps.problems h
  rwa [hc₅] at h₅
 obtain ⟨hc₃,hlink⟩:c₃=c₂ ∧ _:=link_clean h₃
 have h₂:c₂.problems=[]:=hc₃ ▸ h₃
 obtain ⟨hprev,hc₂⟩:_ ∧ c₂=c₁:=problemIf_clean h₂
 have hdepth:Keeps c₀ c₁:=depth_keeps c₀ page depth _
 have hexpected:c₂.expectedPrev=c.expectedPrev:=by rw [hc₂,hdepth.expectedPrev]
 refine ⟨⟨hdepth.problems (hc₂ ▸ h₂),?_,?_,?_,?_,trivial⟩,hvalues,fun h0=>?_⟩
 · rw [hkeeps.entries,hc₅]
   show c₃.entries=_
   rw [hc₃,hc₂,hdepth.entries,entriesOf_cons,entriesOf_nil,append_nil,length_entriesIn]
 · rw [hkeeps.expectedPrev,hc₅]
   rfl
 · rw [← hdepth.expectedPrev]
   exact not_not.mp hprev
 · rw [← hexpected]
   exact hlink
 · exact not_not.mp fun hne=>hempty ⟨h0,hne⟩

end Leaf

/-- The bounds of the child at `i`. -/
def lowerOf (lower:Option Bytes) (buf:Bytes) (i:ℕ) : Option Bytes :=
 if i=0 then lower else some (key buf (i-1))

def upperOf (upper:Option Bytes) (buf:Bytes) (i:ℕ) : Option Bytes :=
 if i<Node.count buf then some (Node.key buf i) else upper

section Node
variable {b:BTree} {σ:WriteTxn} {page n:ℕ} {buf:Bytes} {lower upper:Option Bytes}

lemma Ordered.le (h:Ordered lower upper buf) {i j:ℕ} (hij:i≤j) (hj:j<Node.count buf) :
 Node.key buf i≤Node.key buf j := by
 rcases hij.eq_or_lt with rfl | hlt
 · exact le_rfl
 · exact (h.sorted i j hlt hj).le

lemma childIndex_split (h:Ordered lower upper buf) (key:Bytes) : childIndex buf key≤Node.count buf ∧
 (∀ i<childIndex buf key,Node.key buf i≤key) ∧ ∀ i,childIndex buf key ≤ i → i<Node.count buf → key<Node.key buf i := by
 have hex:∃ i,i=Node.count buf ∨ key<Node.key buf i:=⟨_,.inl rfl⟩
 have hle:Nat.find hex≤Node.count buf:=Nat.find_min' hex (.inl rfl)
 have hbelow:∀ i<Nat.find hex,Node.key buf i≤key:=fun i hi=>
  not_lt.mp fun hlt=>Nat.find_min hex hi (.inr hlt)
 have habove:∀ i,Nat.find hex ≤ i → i<Node.count buf → key<Node.key buf i:=by
  intro i hi hlt
  rcases Nat.find_spec hex with heq | hkey
  · omega
  · exact hkey.trans_le (h.le hi hlt)
 have heq:childIndex buf key=Nat.find hex:=by
  refine bisect_spec _ _ _ _ _ (by omega) (Nat.zero_le _) hle (fun i _ hi=>?_) fun i hi hlt=>?_
  · rw [bne_iff_ne,ne_eq,compareBytes_gt_iff,not_lt]
    exact hbelow i hi
  · rw [bne_eq_false_iff_eq,compareBytes_gt_iff]
    exact habove i hi hlt
 rw [heq]
 exact ⟨hle,hbelow,habove⟩

lemma between_child (h:Ordered lower upper buf) {i:ℕ} (hi:i≤Node.count buf) {k:Bytes}
 (hk:Between (lowerOf lower buf i) (upperOf upper buf i) k) : Between lower upper k := by
 constructor
 · intro l hl
   rcases Nat.eq_zero_or_pos i with rfl | hpos
   · exact hk.1 l hl
   · refine ((h.between (i-1) (by omega)).1 l hl).trans (hk.1 _ ?_)
     rw [lowerOf,if_neg (by omega)]
     rfl
 · intro u hu
   by_cases hlt:i<Node.count buf
   · refine (hk.2 _ ?_).trans ((h.between i hlt).2 u hu)
     rw [upperOf,if_pos hlt]
     rfl
   · refine hk.2 u ?_
     rw [upperOf,if_neg hlt]
     exact hu

lemma childIndex_between (h:Ordered lower upper buf) {key:Bytes} (hkey:Between lower upper key) :
 Between (lowerOf lower buf (childIndex buf key)) (upperOf upper buf (childIndex buf key)) key := by
 obtain ⟨-,hbelow,habove⟩:=childIndex_split h key
 constructor
 · intro l hl
   rw [lowerOf] at hl
   split at hl
   · exact hkey.1 l hl
   · cases hl
     exact hbelow _ (by omega)
 · intro u hu
   rw [upperOf] at hu
   split at hu
   · rename_i hlt
     cases hu
     exact habove _ le_rfl hlt
   · exact hkey.2 u hu

variable {lss:ℕ → List LeafView} (hord:Ordered lower upper buf)
 (hkids:∀ i ≤ Node.count buf,Sound b σ n (BTree.childAt buf i) (lowerOf lower buf i) (upperOf upper buf i) (lss i))

include hkids

lemma child_lt {i:ℕ} (hi:i<Node.count buf) {e:Entry} (he:e∈entriesOf (lss i)) : e.key<Node.key buf i := by
 refine ((hkids i hi.le).between e he).2 _ ?_
 rw [upperOf,if_pos hi]
 rfl

lemma child_ge {i:ℕ} (hi:i<Node.count buf) {e:Entry} (he:e∈entriesOf (lss (i+1))) : Node.key buf i≤e.key := by
 refine ((hkids (i+1) hi).between e he).1 _ ?_
 rw [lowerOf,if_neg (Nat.succ_ne_zero i)]
 rfl

include hord

lemma sound_node (hpos:page≠0) (hread:(readPage page σ).1=.ok buf) (hnot:¬Node.isLeaf buf=true)
 (htype:Node.type buf=kInterior) : Sound b σ (n+1) page lower upper ((range (Node.count buf+1)).flatMap lss) where
 pos := hpos
 leaves:=by
  intro x hx
  obtain ⟨i,hi,hx⟩:=mem_flatMap.mp hx
  exact (hkids i (Nat.lt_succ_iff.mp (mem_range.mp hi))).leaves x hx
 between:=by
  intro e he
  obtain ⟨i,hi,he⟩:=mem_entriesOf_flatMap.mp he
  have hle:=Nat.lt_succ_iff.mp (mem_range.mp hi)
  exact between_child hord hle ((hkids i hle).between e he)
 sorted:=by
  rw [entriesOf_flatMap,pairwise_flatMap]
  refine ⟨fun i hi=>(hkids i (Nat.lt_succ_iff.mp (mem_range.mp hi))).sorted,?_⟩
  refine List.Pairwise.imp_of_mem ?_ pairwise_lt_range
  intro i j _ hj hij x hx y hy
  obtain ⟨j,rfl⟩:∃ k,j=k+1:=⟨j-1,by omega⟩
  have hlt:=mem_range.mp hj
  calc x.key<Node.key buf i:=child_lt hkids (by omega) hx
   _≤Node.key buf j:=hord.le (by omega) (by omega)
   _≤y.key:=child_ge hkids (by omega) hy
 find:=by
  intro key path hkey
  obtain ⟨hle,hbelow,habove⟩:=childIndex_split hord key
  have hkid:=hkids _ hle
  obtain ⟨L,x,R,path',hl,hfind,hL,hR⟩:=
   hkid.find key (path++[⟨page,childIndex buf key⟩]) (childIndex_between hord hkey)
  obtain ⟨is,js,hsplit⟩:=append_of_mem (mem_range.mpr (Nat.lt_succ_of_le hle))
  have horder:(is++childIndex buf key::js).Pairwise (· < ·):=hsplit ▸ pairwise_lt_range
  obtain ⟨-,hjs,his⟩:=pairwise_append.mp horder
  refine ⟨is.flatMap lss++L,x,R++js.flatMap lss,path',?_,?_,?_,?_⟩
  · rw [hsplit,flatMap_append,flatMap_cons,hl]
    simp
  · have hchild:¬(if childIndex buf key<Node.count buf then Node.child buf (childIndex buf key)
      else Node.right buf)=0:=hkid.pos
    rw [BTree.findLeafLoop,Act.bind_of_ok _ (read_ok hread),if_neg hnot,if_neg (not_not.mpr htype),if_neg hchild]
    exact hfind
  · intro e he
    rw [entriesOf_append,mem_append] at he
    rcases he with he | he
    · obtain ⟨i,hi,he⟩:=mem_entriesOf_flatMap.mp he
      have hlt:=his i hi _ mem_cons_self
      exact (child_lt hkids (by omega) he).trans_le (hbelow i hlt)
    · exact hL e he
  · intro e he
    rw [entriesOf_append,mem_append] at he
    rcases he with he | he
    · exact hR e he
    · obtain ⟨j,hj,he⟩:=mem_entriesOf_flatMap.mp he
      have hlt:=(pairwise_cons.mp hjs).1 j hj
      have hmem:j<Node.count buf+1:=mem_range.mp (hsplit ▸ by simp [hj])
      obtain ⟨j,rfl⟩:∃ k,j=k+1:=⟨j-1,by omega⟩
      exact (habove j (by omega) (by omega)).trans_le (child_ge hkids (by omega) he)
 first:=by
  obtain ⟨x,R,hl,hseek⟩:=(hkids 0 (Nat.zero_le _)).first
  refine ⟨x,R++((range (Node.count buf)).map Nat.succ).flatMap lss,?_,fun fuel c=>?_⟩
  · rw [range_succ_eq_map,flatMap_cons,hl,cons_append]
  · rw [Cursor.seekFirstLoop,Act.bind_of_ok _ (read_ok hread),if_neg hnot]
    exact hseek fuel c
 last:=by
  obtain ⟨L,x,hl,hseek⟩:=(hkids _ le_rfl).last
  have hright:BTree.childAt buf (Node.count buf)=Node.right buf:=if_neg (lt_irrefl _)
  refine ⟨(range (Node.count buf)).flatMap lss++L,x,?_,fun c=>?_⟩
  · rw [range_succ,flatMap_append,flatMap_singleton,hl,append_assoc]
  · rw [Cursor.seekLastLoop,Act.bind_of_ok _ (read_ok hread),if_neg hnot,← hright]
    exact hseek c

end Node

def HeaderApart (σ:WriteTxn) : Prop :=
 ∀ buf,(readPage 0 σ).1=.ok buf → type buf≠kLeaf ∧ type buf≠kInterior

section Walk
variable {b:BTree} {σ:WriteTxn} (hzero:HeaderApart σ)

lemma children_eq {n:ℕ} {buf:Bytes} {lower upper:Option Bytes} (hright:Node.right buf≠0) (c:Checking) :
 (if Node.right buf=0 then
  (range (Node.count buf)).foldl (fun c i=>checkNode b σ n (Node.child buf i)
   (if i=0 then lower else some (Node.key buf (i-1))) (some (Node.key buf i)) c) c
 else checkNode b σ n (Node.right buf)
  (if Node.count buf=0 then lower else some (Node.key buf (Node.count buf-1))) upper
  ((range (Node.count buf)).foldl (fun c i=>checkNode b σ n (Node.child buf i)
   (if i=0 then lower else some (Node.key buf (i-1))) (some (Node.key buf i)) c) c)) =
 (range (Node.count buf+1)).foldl (fun c i=>checkNode b σ n (BTree.childAt buf i) (lowerOf lower buf i)
  (upperOf upper buf i) c) c := by
 rw [if_neg hright,range_succ,foldl_append,foldl_cons,foldl_nil,BTree.childAt,
  if_neg (lt_irrefl _),lowerOf,upperOf,if_neg (lt_irrefl _)]
 congr 1
 refine foldl_ext _ _ _ fun c i hi=>?_
 have hlt:=mem_range.mp hi
 rw [BTree.childAt,if_pos hlt,lowerOf,upperOf,if_pos hlt]

lemma children_clean {n:ℕ} {page:ℕ → ℕ} {lower upper:ℕ → Option Bytes}
 (hnode:∀ page lower upper c,(checkNode b σ n page lower upper c).problems=[] →
  Hooked σ c (checkNode b σ n page lower upper c) (leavesBelow b σ n page) ∧
   Sound b σ n page lower upper (leavesBelow b σ n page)) (c:Checking) (m:ℕ)
 (h:((range m).foldl (fun c i=>checkNode b σ n (page i) (lower i) (upper i) c) c).problems=[]) :
 Hooked σ c ((range m).foldl (fun c i=>checkNode b σ n (page i) (lower i) (upper i) c) c)
   ((range m).flatMap fun i=>leavesBelow b σ n (page i)) ∧
  ∀ i < m,Sound b σ n (page i) (lower i) (upper i) (leavesBelow b σ n (page i)) := by
 induction m with
 | zero=>exact ⟨⟨h,rfl,rfl,trivial⟩,fun i hi=>absurd hi (Nat.not_lt_zero i)⟩
 | succ m ih=>
  rw [range_succ,foldl_append,foldl_cons,foldl_nil] at h ⊢
  obtain ⟨hhook,hsound⟩:=hnode _ _ _ _ h
  obtain ⟨hfirst,hall⟩:=ih hhook.before
  refine ⟨?_,fun i hi=>?_⟩
  · rw [flatMap_append,flatMap_singleton]
    exact hfirst.trans hhook
  · rcases Nat.lt_succ_iff_lt_or_eq.mp hi with hlt | rfl
    · exact hall i hlt
    · exact hsound

include hzero

lemma checkNode_clean (n:ℕ) : ∀ (page:ℕ) (lower upper:Option Bytes) (c:Checking),
 (checkNode b σ n page lower upper c).problems=[] →
  Hooked σ c (checkNode b σ n page lower upper c) (leavesBelow b σ n page) ∧
   Sound b σ n page lower upper (leavesBelow b σ n page) := by
 induction n with
 | zero=>
  intro page lower upper c h
  rw [checkNode] at h
  split at h
  · exact absurd h (problem_ne _ _ _)
  · exact absurd h (problem_ne _ _ _)
 | succ n ih=>
  intro page lower upper c h
  rw [checkNode] at h ⊢
  by_cases hseen:page∈c.pages
  · rw [if_pos hseen] at h
    exact absurd h (problem_ne _ _ _)
  rw [if_neg hseen] at h ⊢
  dsimp only at h ⊢
  rw [leavesBelow]
  cases hread:(readPage page σ).1 with
  | error s=>
   rw [hread] at h
   exact absurd h (problem_ne _ _ _)
  | ok buf=>
   rw [hread] at h
   dsimp only at h ⊢
   by_cases htype:Node.type buf≠kLeaf ∧ Node.type buf≠kInterior
   · rw [if_pos htype] at h
     exact absurd h (problem_ne _ _ _)
   have hpos:page≠0:=by
    rintro rfl
    exact htype (hzero buf hread)
   rw [if_neg htype] at h ⊢
   by_cases hover:Node.contentStart buf<kHdr+2*Node.count buf ∨ Node.usable b.pageSize<Node.contentStart buf
   · rw [if_pos hover] at h
     exact absurd h (problem_ne _ _ _)
   rw [if_neg hover] at h ⊢
   generalize hcells:Checking.cells b.pageSize page buf lower upper (Node.count buf) 0 [] _=res at h ⊢
   obtain ⟨c₁,inside⟩:=res
   have hclean:c₁.problems=[] → inside=true ∧ c₁={ c with pages:=c.pages++[page] } ∧
     Ordered lower upper buf:=by
    intro hc₁
    obtain ⟨hrun,hord⟩:=ordered_of_clean (by rw [hcells]; exact hc₁)
    rw [hcells] at hrun
    cases hrun
    exact ⟨rfl,rfl,hord⟩
   cases inside with
   | false=>cases (hclean h).1
   | true=>
    dsimp only at h ⊢
    by_cases hleaf:Node.isLeaf buf=true
    · rw [if_pos hleaf] at h
      rw [if_pos hleaf,if_pos hleaf]
      obtain ⟨hhook,hvalues,hfilled⟩:=leaf_clean h
      obtain ⟨-,rfl,hord⟩:=hclean hhook.before
      exact ⟨⟨hhook.before,hhook.entries,hhook.last,hhook.joined⟩,sound_leaf hpos hread hleaf hord hvalues hfilled⟩
    · rw [if_neg hleaf] at h
      rw [if_neg hleaf,if_neg hleaf]
      have hright:Node.right buf≠0:=by
       intro hright
       rw [if_pos hright] at h
       obtain ⟨hhook,-⟩:=children_clean ih _ _ h
       obtain ⟨-,hc₂⟩:=problemIf_clean hhook.before
       exact (problemIf_clean (hc₂ ▸ hhook.before)).1 hright
      rw [children_eq hright] at h ⊢
      obtain ⟨hhook,hsound⟩:=children_clean ih _ _ h
      obtain ⟨-,hc₃⟩:=problemIf_clean hhook.before
      rw [hc₃] at hhook ⊢
      obtain ⟨-,hc₂⟩:=problemIf_clean hhook.before
      rw [hc₂] at hhook ⊢
      obtain ⟨-,rfl,hord⟩:=hclean hhook.before
      refine ⟨⟨hhook.before,hhook.entries,hhook.last,hhook.joined⟩,?_⟩
      refine sound_node hord (fun i hi=>hsound i (Nat.lt_succ_of_le hi)) hpos hread hleaf ?_
      by_contra hint
      exact htype ⟨fun hl=>hleaf (by rw [Node.isLeaf,hl]; rfl),hint⟩

omit hzero in
lemma lastLeaf_clean {c:Checking} (h:(lastLeaf σ c).problems=[]) : lastLeaf σ c=c ∧
 (c.expectedPrev≠0 → ∀ lb,(readPage c.expectedPrev σ).1=.ok lb → right lb=0) := by
 unfold lastLeaf at h ⊢
 by_cases hprev:c.expectedPrev≠0
 · rw [if_pos hprev] at h ⊢
   cases hread:(readPage c.expectedPrev σ).1 with
   | error s=>exact ⟨rfl,fun _ lb hlb=>by cases hlb⟩
   | ok lb=>
    rw [hread] at h
    dsimp only at h ⊢
    split_ifs at h ⊢ with hright
    · simp at h
    · refine ⟨rfl,fun _ lb' hlb=>?_⟩
      cases hlb
      exact not_not.mp hright
 · rw [if_neg hprev]
   exact ⟨rfl,fun h0=>absurd h0 hprev⟩

lemma check_view (hok:(check b σ).ok=true) : TreeView b σ (leavesBelow b σ 64 b.root) ∧
 (check b σ).entries=(entriesOf (leavesBelow b σ 64 b.root)).length := by
 obtain ⟨hlast,hend⟩:=lastLeaf_clean (isEmpty_iff.mp hok)
 have hclean:(checkNode b σ 64 b.root none none {}).problems=[]:=hlast ▸ isEmpty_iff.mp hok
 obtain ⟨hhook,hsound⟩:=checkNode_clean hzero 64 b.root none none {} hclean
 refine ⟨⟨⟨fun x hx=>(hsound.leaves x hx).1,fun L x R hl=>?_⟩,hsound.sorted,fun key=>?_,hsound.first,hsound.last,?_⟩,?_⟩
 · have hx:=(hsound.leaves x (by rw [hl]; simp)).1
   have hjoined:=hhook.joined
   rw [hl,joined_append] at hjoined
   refine ⟨?_,hjoined.2.1⟩
   cases R with
   | nil=>
    have hpage:(checkNode b σ 64 b.root none none {}).expectedPrev=x.page:=by
     rw [hhook.last,hl,lastPage_append]
     rfl
    rw [hpage] at hend
    exact hend hx.pos _ (congrArg Prod.fst hx.read)
   | cons y R=>exact hjoined.2.2.2.2.1 hx.pos _ (congrArg Prod.fst hx.read)
 · exact hsound.find key [] ⟨nofun,nofun⟩
 · by_cases hempty:∃ x∈leavesBelow b σ 64 b.root,x.entries=[]
   · obtain ⟨x,hx,hnil⟩:=hempty
     obtain ⟨hat,hleaf,hroot⟩:=hsound.leaves x hx
     refine .inl ⟨⟨b.root,x.image,entriesIn b σ x.image⟩,?_⟩
     rw [leavesBelow,← hroot hnil,congrArg Prod.fst hat.read]
     exact if_pos hleaf
   · exact .inr fun x hx hnil=>hempty ⟨x,hx,hnil⟩
 · show (lastLeaf σ _).entries=_
   rw [hlast,hhook.entries,Nat.zero_add]

end Walk

def loneLeaf (key:UInt8) : Bytes := insertCell (init 512 kLeaf) 0 (buildLeafCell [key] [key] false 1 0)

/-- Two leaves below a root on page 1, the first of them on page `p`. -/
def twoLeaves (p:ℕ) : WriteTxn where
 pageSize := 512
 committed q:=
  if q=1 then BTree.interiorImage 512 [([2],p)] 2
  else if q=2 then setPrev (loneLeaf 2) p
  else if q=p then setRight (loneLeaf 1) (if p=0 then 0 else 2)
  else replicate 512 0
 snapshotHeader:={ pageCount:=4 }
 header:={ pageCount:=4 }
 dirty _:=none
 freed:=[]
 finished:=false

end Archivum.TreeShape.Checks
