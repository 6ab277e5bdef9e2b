import Archivum.TreeContents

set_option autoImplicit false

/-!
# Cursors over linked leaves

A cursor stands between the entries it has passed and those ahead of it. Its
moves are correct on any pages where the leaves are linked in order and the
descents end in the right leaf, whatever else the pages hold.
-/
namespace Archivum.TreeShape
open ByteStrings StatefulActions PageTxn SlottedPage BTreeModel List Node Act

/-- A leaf as it is read: its image and the entries in its slots. -/
structure LeafView where
 page : ℕ
 image : Bytes
 entries : List Entry

structure LeafView.At (b:BTree) (σ:WriteTxn) (x:LeafView) : Prop where
 pos : x.page≠0
 read : readPage x.page σ=(.ok x.image,σ)
 count : Node.count x.image=x.entries.length
 key : ∀ {i:ℕ} {e:Entry},x.entries[i]? = some e → Node.key x.image i=e.key
 value : ∀ {i:ℕ} {e:Entry},x.entries[i]? = some e → b.leafValue x.image i σ=(.ok e.value,σ)

def entriesOf (ls:List LeafView) : List Entry := ls.flatMap LeafView.entries

@[simp] lemma entriesOf_nil : entriesOf []=[] := rfl

@[simp] lemma entriesOf_cons (x:LeafView) (ls:List LeafView) : entriesOf (x::ls)=x.entries++entriesOf ls := rfl

@[simp] lemma entriesOf_append (ls ms:List LeafView) : entriesOf (ls++ms)=entriesOf ls++entriesOf ms := flatMap_append

/-- The leaves can be read and are linked in order. -/
structure LinkedLeaves (b:BTree) (σ:WriteTxn) (ls:List LeafView) : Prop where
 leaves : ∀ x∈ls,x.At b σ
 links : ∀ L x R,ls=L++x::R → right x.image=(R.map LeafView.page).headD 0 ∧
  Node.prev x.image=(L.map LeafView.page).getLastD 0

/-- The leaf where `seek_last` ends, and the cursor on its last entry. -/
def LeafView.atLast (x:LeafView) (c:Cursor) : Cursor :=
 if x.entries.length=0 then { c with page:=x.image,leaf:=x.page,valid:=false }
 else { c with
  page:=x.image,leaf:=x.page,slot:=x.entries.length-1
  key:=key x.image (x.entries.length-1),valid:=true }

/-- The tree at `b.root` is seen as these leaves. -/
structure TreeView (b:BTree) (σ:WriteTxn) (ls:List LeafView) : Prop extends LinkedLeaves b σ ls where
 sorted : (entriesOf ls).Pairwise fun a b=>a.key<b.key
 find : ∀ key,∃ L x R path,ls=L++x::R ∧
  b.findLeaf key σ=(.ok (path++[⟨x.page,slotOf x.entries key⟩],x.image),σ) ∧
  (∀ e∈entriesOf L,e.key<key) ∧ ∀ e∈entriesOf R,key<e.key
 first : ∃ x R,ls=x::R ∧ ∀ fuel c,
  Cursor.seekFirst b fuel c σ=Cursor.loadSlot fuel { c with page:=x.image,leaf:=x.page,slot:=0 } σ
 last : ∃ L x,ls=L++[x] ∧ ∀ c,Cursor.seekLast b c σ=(.ok (x.atLast c),σ)
 filled : (∃ x,ls=[x]) ∨ ∀ x∈ls,x.entries≠[]

/-- The entries before the cursor are `A`, those from the cursor on are `B`; at the end it is
not valid. -/
def CursorAt (ls:List LeafView) (c:Cursor) (A:List Entry) : List Entry → Prop
 | []=>c.valid=false
 | e::B=>c.valid=true ∧ c.key=e.key ∧ ∃ L E F R,
   ls=L++⟨c.leaf,c.page,E++e::F⟩::R ∧ c.slot=E.length ∧
    A=entriesOf L++E ∧ B=F++entriesOf R

section Moves
variable {b:BTree} {σ:WriteTxn} {ls:List LeafView} {c:Cursor} {A B:List Entry} {e:Entry}

lemma loadSlot_here (h:LinkedLeaves b σ ls) {L R:List LeafView} {E F:List Entry}
 (hl:ls=L++⟨c.leaf,c.page,E++e::F⟩::R) (hslot:c.slot=E.length) (fuel:ℕ) :
 ∃ c',Cursor.loadSlot (fuel+1) c σ=(.ok c',σ) ∧ CursorAt ls c' (entriesOf L++E) (e::F++entriesOf R) := by
 have hx:=h.leaves ⟨c.leaf,c.page,E++e::F⟩ (by rw [hl]; simp)
 have hlt:c.slot<Node.count c.page:=by
  rw [hslot,hx.count]
  simp
 have hkey:key c.page c.slot=e.key:=hx.key (by rw [hslot]; simp)
 refine ⟨{ c with key:=key c.page c.slot,valid:=true },?_,rfl,hkey,L,E,F,R,hl,hslot,rfl,rfl⟩
 rw [Cursor.loadSlot,if_pos hlt]
 rfl

lemma loadSlot_run (h:LinkedLeaves b σ ls) (R:List LeafView) : ∀ (L:List LeafView) (E F:List Entry) (c:Cursor) (fuel:ℕ),
  ls=L++⟨c.leaf,c.page,E++F⟩::R → c.slot=E.length → R.length<fuel → ∃ c',Cursor.loadSlot fuel c σ=(.ok c',σ) ∧
   CursorAt ls c' (entriesOf L++E) (F++entriesOf R) := by
 induction R with
 | nil=>
  intro L E F c fuel hl hslot hfuel
  obtain ⟨fuel,rfl⟩:∃ k,fuel=k+1:=⟨fuel-1,by omega⟩
  cases F with
  | cons f F=>exact loadSlot_here h hl hslot fuel
  | nil=>
   have hx:=h.leaves ⟨c.leaf,c.page,E++[]⟩ (by rw [hl]; simp)
   have hfull:¬c.slot<Node.count c.page:=by
    rw [hslot,hx.count]
    simp
   refine ⟨{ c with valid:=false },?_,rfl⟩
   rw [Cursor.loadSlot,if_neg hfull,if_pos (show right c.page=0 from (h.links _ _ _ hl).1)]
   rfl
 | cons r R ih=>
  intro L E F c fuel hl hslot hfuel
  obtain ⟨fuel,rfl⟩:∃ k,fuel=k+1:=⟨fuel-1,by omega⟩
  cases F with
  | cons f F=>exact loadSlot_here h hl hslot fuel
  | nil=>
   have hx:=h.leaves ⟨c.leaf,c.page,E++[]⟩ (by rw [hl]; simp)
   have hfull:¬c.slot<Node.count c.page:=by
    rw [hslot,hx.count]
    simp
   have hr:=h.leaves r (by rw [hl]; simp)
   rw [length_cons] at hfuel
   obtain ⟨c',hrun,hat⟩:=ih (L++[⟨c.leaf,c.page,E⟩]) [] r.entries
    { c with leaf:=r.page,slot:=0,page:=r.image } fuel (by rw [hl]; simp) rfl (by omega)
   refine ⟨c',?_,?_⟩
   · rw [Cursor.loadSlot,if_neg hfull,show right c.page=r.page from (h.links _ _ _ hl).1,if_neg hr.pos,bind_of_ok _ hr.read]
     exact hrun
   · simpa using hat

lemma next_run (h:LinkedLeaves b σ ls) (hc:CursorAt ls c A (e::B)) {fuel:ℕ}
 (hfuel:ls.length<fuel) : ∃ c',c.next fuel σ=(.ok c',σ) ∧ CursorAt ls c' (A++[e]) B := by
 obtain ⟨hv,-,L,E,F,R,hl,hslot,rfl,rfl⟩:=hc
 have hlen:=congrArg length hl
 rw [length_append,length_cons] at hlen
 obtain ⟨c',hrun,hat⟩:=loadSlot_run h R L (E++[e]) F { c with slot:=c.slot+1 } fuel
  (by rw [hl]; simp) (by simp [hslot]) (by omega)
 refine ⟨c',?_,?_⟩
 · rw [Cursor.next,if_pos hv]
   exact hrun
 · simpa using hat

lemma value_run (h:LinkedLeaves b σ ls) (hc:CursorAt ls c A (e::B)) : c.value b σ=(.ok e.value,σ) := by
 obtain ⟨hv,-,L,E,F,R,hl,hslot,rfl,rfl⟩:=hc
 rw [Cursor.value,if_pos hv,hslot]
 exact (h.leaves ⟨c.leaf,c.page,E++e::F⟩ (by rw [hl]; simp)).value (by simp)

/-- What a move back from between `A` and `B` leads to. -/
def SteppedBack (ls:List LeafView) (c:Cursor) (A B:List Entry) : Prop :=
 (A=[] ∧ c.valid=false) ∨ ∃ A' a,A=A'++[a] ∧ CursorAt ls c A' (a::B)

lemma prevLoop_here (h:LinkedLeaves b σ ls) {L R:List LeafView} {E F:List Entry}
 (hv:c.valid=true) (hl:ls=L++⟨c.leaf,c.page,(E++[e])++F⟩::R) (hslot:c.slot=(E++[e]).length) (fuel:ℕ) :
 ∃ c',Cursor.prevLoop (fuel+1) c σ=(.ok c',σ) ∧ SteppedBack ls c' (entriesOf L++(E++[e])) (F++entriesOf R) := by
 have hx:=h.leaves ⟨c.leaf,c.page,(E++[e])++F⟩ (by rw [hl]; simp)
 rw [length_append,length_singleton] at hslot
 have hprev:c.slot-1=E.length:=by omega
 refine ⟨{ c with slot:=c.slot-1,key:=key c.page (c.slot-1) },?_,
  Or.inr ⟨_,e,(append_assoc _ _ _).symm,hv,?_,L,E,F,R,?_,hprev,rfl,rfl⟩⟩
 · rw [Cursor.prevLoop,if_neg (by omega)]
   rfl
 · exact hx.key (by rw [hprev]; simp)
 · rw [hl,append_assoc]
   rfl

lemma prevLoop_run (h:LinkedLeaves b σ ls) (L:List LeafView) :
 ∀ (E F:List Entry) (R:List LeafView) (c:Cursor) (fuel:ℕ),c.valid=true →
  ls=L++⟨c.leaf,c.page,E++F⟩::R → c.slot=E.length → L.length<fuel → ∃ c',Cursor.prevLoop fuel c σ=(.ok c',σ) ∧
   SteppedBack ls c' (entriesOf L++E) (F++entriesOf R) := by
 induction L using reverseRecOn with
 | nil=>
  intro E F R c fuel hv hl hslot hfuel
  obtain ⟨fuel,rfl⟩:∃ k,fuel=k+1:=⟨fuel-1,by omega⟩
  rcases E.eq_nil_or_concat with rfl | ⟨E,a,rfl⟩
  · refine ⟨{ c with valid:=false },?_,Or.inl ⟨rfl,rfl⟩⟩
    rw [Cursor.prevLoop,if_pos (show c.slot=0 from hslot),if_pos (show Node.prev c.page=0 from (h.links _ _ _ hl).2)]
    rfl
  · rw [concat_eq_append] at *
    exact prevLoop_here h hv hl hslot fuel
 | append_singleton L r ih=>
  intro E F R c fuel hv hl hslot hfuel
  obtain ⟨fuel,rfl⟩:∃ k,fuel=k+1:=⟨fuel-1,by omega⟩
  rcases E.eq_nil_or_concat with rfl | ⟨E,a,rfl⟩
  · have hprev:Node.prev c.page=r.page:=by
     rw [(h.links _ _ _ hl).2]
     simp
    have hr:=h.leaves r (by rw [hl]; simp)
    rw [length_append,length_singleton] at hfuel
    obtain ⟨c',hrun,hat⟩:=ih r.entries [] (⟨c.leaf,c.page,F⟩::R)
     { c with leaf:=r.page,page:=r.image,slot:=count r.image } fuel hv
     (by rw [hl]; simp) hr.count (by omega)
    refine ⟨c',?_,?_⟩
    · rw [Cursor.prevLoop,if_pos (show c.slot=0 from hslot),hprev,if_neg hr.pos,bind_of_ok _ hr.read]
      exact hrun
    · simpa using hat
  · rw [concat_eq_append] at *
    exact prevLoop_here h hv hl hslot fuel

lemma prev_run (h:LinkedLeaves b σ ls) (hc:CursorAt ls c A (e::B)) {fuel:ℕ}
 (hfuel:ls.length<fuel) : ∃ c',c.prev fuel σ=(.ok c',σ) ∧ SteppedBack ls c' A (e::B) := by
 obtain ⟨hv,-,L,E,F,R,hl,hslot,rfl,rfl⟩:=hc
 have hlen:=congrArg length hl
 rw [length_append,length_cons] at hlen
 obtain ⟨c',hrun,hat⟩:=prevLoop_run h L E (e::F) R c fuel hv hl hslot (by omega)
 refine ⟨c',?_,hat⟩
 rw [Cursor.prev,if_pos hv]
 exact hrun

end Moves

section Positions
variable {b:BTree} {σ:WriteTxn} {ls:List LeafView}

lemma TreeView.leaf_sorted (h:TreeView b σ ls) {L R:List LeafView} {x:LeafView} (hl:ls=L++x::R) :
 x.entries.Pairwise fun a b=>a.key<b.key := by
 have hs:=h.sorted
 rw [hl,entriesOf_append,entriesOf_cons] at hs
 exact (pairwise_append.mp (pairwise_append.mp hs).2.1).1

lemma TreeView.get_run (h:TreeView b σ ls) (key:Bytes) : b.get key σ=(.ok (lookupEntries (entriesOf ls) key),σ) := by
 obtain ⟨L,x,R,path,hl,hrun,hbelow,habove⟩:=h.find key
 have hx:=h.leaves x (by rw [hl]; simp)
 have hlook:lookupEntries (entriesOf ls) key=lookupEntries x.entries key:=by
  rw [hl,entriesOf_append,entriesOf_cons,lookupEntries_append_of_ne (fun e hm=>(hbelow e hm).ne),
   lookupEntries_append_right_of_ne (fun e hm=>(habove e hm).ne')]
 have hsplit:=List.take_append_drop (slotOf x.entries key) x.entries
 have htake:∀ e∈x.entries.take (slotOf x.entries key),e.key≠key:=
  fun e hm=>(take_slotOf_lt key e hm).ne
 rw [BTree.get,bind_of_ok _ hrun]
 simp only [back_append]
 rcases slot_cases (h.leaf_sorted hl) key with ⟨e,hget,hk,-⟩ | ⟨hne,hgt⟩
 · have hlt:=(List.getElem?_eq_some_iff.mp hget).1
   have hmatch:¬(Node.count x.image ≤ slotOf x.entries key ∨
     compareBytes (Node.key x.image (slotOf x.entries key)) key≠.eq):=by
    rw [hx.count,hx.key hget,ne_eq,compareBytes_eq_iff]
    exact fun hor=>hor.elim (fun hle=>absurd hle (not_le.mpr hlt)) fun hne=>hne hk
   have hv:lookupEntries x.entries key=some e.value:=by
    rw [← hsplit,lookupEntries_append_of_ne htake,List.drop_eq_getElem_cons hlt,
     (List.getElem?_eq_some_iff.mp hget).2,lookupEntries_cons,if_pos hk]
   rw [if_neg hmatch,bind_of_ok _ (hx.value hget),hlook,hv]
   rfl
 · have hmiss:Node.count x.image ≤ slotOf x.entries key ∨
     compareBytes (Node.key x.image (slotOf x.entries key)) key≠.eq:=by
    rw [hx.count]
    by_cases hlt:slotOf x.entries key<x.entries.length
    · have hget:=List.getElem?_eq_getElem hlt
      rw [hx.key hget,ne_eq,compareBytes_eq_iff]
      exact .inr (hne _ hget)
    · exact .inl (not_lt.mp hlt)
   have hv:lookupEntries x.entries key=none:=by
    rw [← hsplit,lookupEntries_append_of_ne htake]
    exact lookupEntries_eq_none fun e hm=>(hgt e hm).ne'
   rw [if_pos hmiss,hlook,hv]
   rfl

lemma TreeView.seek_run (h:TreeView b σ ls) (key:Bytes) (c:Cursor) {fuel:ℕ} (hfuel:ls.length<fuel) :
 ∃ c' A B,Cursor.seek b fuel key c σ=(.ok c',σ) ∧ entriesOf ls=A++B ∧
  (∀ e∈A,e.key<key) ∧ (∀ e∈B,key≤e.key) ∧ CursorAt ls c' A B := by
 obtain ⟨L,x,R,path,hl,hfind,hbelow,habove⟩:=h.find key
 have hlen:=congrArg length hl
 rw [length_append,length_cons] at hlen
 have hsplit:=take_append_drop (slotOf x.entries key) x.entries
 obtain ⟨c',hrun,hat⟩:=loadSlot_run h.toLinkedLeaves R L (x.entries.take (slotOf x.entries key))
  (x.entries.drop (slotOf x.entries key)) { c with page:=x.image,leaf:=x.page,slot:=slotOf x.entries key }
  fuel (by rw [hl,hsplit]) (by rw [length_take,min_eq_left (slotOf_le x.entries key)]) (by omega)
 refine ⟨c',_,_,?_,?_,?_,?_,hat⟩
 · rw [Cursor.seek,bind_of_ok _ hfind]
   simp only [back_append]
   exact hrun
 · rw [hl,entriesOf_append,entriesOf_cons,append_assoc,← append_assoc (x.entries.take _),hsplit]
 · intro e he
   rcases mem_append.mp he with he | he
   · exact hbelow e he
   · exact take_slotOf_lt key e he
 · intro e he
   rcases mem_append.mp he with he | he
   · exact drop_slotOf_ge (h.leaf_sorted hl) key e he
   · exact (habove e he).le

lemma TreeView.seekFirst_run (h:TreeView b σ ls) (c:Cursor) {fuel:ℕ} (hfuel:ls.length<fuel) :
 ∃ c',Cursor.seekFirst b fuel c σ=(.ok c',σ) ∧ CursorAt ls c' [] (entriesOf ls) := by
 obtain ⟨x,R,hl,hseek⟩:=h.first
 have hlen:=congrArg length hl
 rw [length_cons] at hlen
 obtain ⟨c',hload,hat⟩:=loadSlot_run h.toLinkedLeaves R [] [] x.entries
  { c with page:=x.image,leaf:=x.page,slot:=0 } fuel hl rfl (by omega)
 refine ⟨c',(hseek fuel c).trans hload,?_⟩
 conv=>rhs; rw [hl]
 exact hat

lemma TreeView.seekLast_run (h:TreeView b σ ls) (c:Cursor) :
 ∃ c',Cursor.seekLast b c σ=(.ok c',σ) ∧ SteppedBack ls c' (entriesOf ls) [] := by
 obtain ⟨L,x,hl,hseek⟩:=h.last
 refine ⟨_,hseek c,?_⟩
 have hentries:entriesOf ls=entriesOf L++x.entries:=by
  rw [hl]
  simp
 rcases x.entries.eq_nil_or_concat with hnil | ⟨E,a,hE⟩
 · -- only a root leaf may be empty
   rw [LeafView.atLast,if_pos (by rw [hnil]; rfl)]
   rcases h.filled with ⟨y,hy⟩ | hall
   · have hL:[]++[y]=L++[x]:=hy.symm.trans hl
     obtain ⟨rfl,-⟩:=append_inj' hL rfl
     exact .inl ⟨by rw [hentries,hnil]; rfl,rfl⟩
   · exact absurd hnil (hall x (by rw [hl]; simp))
 · rw [concat_eq_append] at hE
   have hx:=h.leaves x (by rw [hl]; simp)
   have hlast:x.entries.length-1=E.length:=by simp [hE]
   rw [LeafView.atLast,if_neg (by simp [hE])]
   refine .inr ⟨entriesOf L++E,a,by rw [hentries,hE,append_assoc],rfl,?_,L,E,[],[],?_,hlast,rfl,rfl⟩
   · exact hx.key (by rw [hlast,hE]; simp)
   · rw [hl,← hE]

end Positions

/-- A client's loop: take the entry under the cursor and move on, while the cursor is valid. -/
def walk (b:BTree) (move:Cursor → TxnM Cursor) : ℕ → Cursor → TxnM (List (Bytes × Bytes))
 | 0,_=>fail stillRunning
 | n+1,c=>
  if c.valid then do
   let v ← c.value b
   let c' ← move c
   let rest ← walk b move n c'
   return (c.key,v)::rest
  else return []

def pairs (es:List Entry) : List (Bytes × Bytes) := es.map fun e=>(e.key,e.value)

section Walks
variable {b:BTree} {σ:WriteTxn} {ls:List LeafView}

lemma walk_next (h:LinkedLeaves b σ ls) {fuel:ℕ} (hfuel:ls.length<fuel) (B:List Entry) :
 ∀ (A:List Entry) (c:Cursor) (n:ℕ),CursorAt ls c A B → B.length<n → walk b (Cursor.next fuel) n c σ=(.ok (pairs B),σ) := by
 induction B with
 | nil=>
  intro A c n hc hn
  obtain ⟨n,rfl⟩:∃ k,n=k+1:=⟨n-1,by omega⟩
  rw [walk,if_neg (by rw [show c.valid=false from hc]; simp)]
  rfl
 | cons e B ih=>
  intro A c n hc hn
  obtain ⟨n,rfl⟩:∃ k,n=k+1:=⟨n-1,by omega⟩
  rw [length_cons] at hn
  obtain ⟨c',hnext,hc'⟩:=next_run h hc hfuel
  rw [walk,if_pos hc.1,bind_of_ok _ (value_run h hc),bind_of_ok _ hnext,bind_of_ok _ (ih _ c' n hc' (by omega)),hc.2.1]
  rfl

lemma walk_prev (h:LinkedLeaves b σ ls) {fuel:ℕ} (hfuel:ls.length<fuel) (A:List Entry) :
 ∀ (B:List Entry) (c:Cursor) (n:ℕ),SteppedBack ls c A B → A.length<n →
  walk b (Cursor.prev fuel) n c σ=(.ok (pairs A.reverse),σ) := by
 induction A using reverseRecOn with
 | nil=>
  intro B c n hc hn
  obtain ⟨n,rfl⟩:∃ k,n=k+1:=⟨n-1,by omega⟩
  rcases hc with ⟨-,hinv⟩ | ⟨A',a,hA,-⟩
  · rw [walk,if_neg (by rw [hinv]; simp)]
    rfl
  · simp at hA
 | append_singleton A a ih=>
  intro B c n hc hn
  obtain ⟨n,rfl⟩:∃ k,n=k+1:=⟨n-1,by omega⟩
  rw [length_append,length_singleton] at hn
  rcases hc with ⟨hnil,-⟩ | ⟨A',a',hA,hat⟩
  · simp at hnil
  · obtain ⟨rfl,rfl⟩:A=A' ∧ a=a':=by
     have:=append_inj' hA rfl
     exact ⟨this.1,by simpa using this.2⟩
    obtain ⟨c',hprev,hc'⟩:=prev_run h hat hfuel
    rw [walk,if_pos hat.1,bind_of_ok _ (value_run h hat),bind_of_ok _ hprev,bind_of_ok _ (ih _ c' n hc' (by omega)),hat.2.1]
    simp [pairs]

lemma TreeView.seek_next_walk (h:TreeView b σ ls) (key:Bytes) (c:Cursor) {fuel n:ℕ}
 (hfuel:ls.length<fuel) (hn:(entriesOf ls).length<n) : (Cursor.seek b fuel key c >>= walk b (Cursor.next fuel) n) σ =
  (.ok (pairs ((entriesOf ls).filter fun e=>decide (key≤e.key))),σ) := by
 obtain ⟨c',A,B,hseek,hent,hA,hB,hat⟩:=h.seek_run key c hfuel
 have hlen:=congrArg length hent
 rw [length_append] at hlen
 rw [bind_of_ok _ hseek,walk_next h.toLinkedLeaves hfuel B A c' n hat (by omega),hent,
  filter_append,filter_eq_nil_iff.mpr (by simpa using hA),filter_eq_self.mpr (by simpa using hB),nil_append]

lemma TreeView.seekLast_prev_walk (h:TreeView b σ ls) (c:Cursor) {fuel n:ℕ}
 (hfuel:ls.length<fuel) (hn:(entriesOf ls).length<n) :
 (Cursor.seekLast b c >>= walk b (Cursor.prev fuel) n) σ=(.ok (pairs (entriesOf ls).reverse),σ) := by
 obtain ⟨c',hseek,hat⟩:=h.seekLast_run c
 rw [bind_of_ok _ hseek]
 exact walk_prev h.toLinkedLeaves hfuel _ [] c' n hat hn

end Walks

section ForEach
variable {b:BTree} {ls:List LeafView} {α:Type} {I:WriteTxn → Prop}

lemma forEachLoop_run (hI:∀ σ,I σ → LinkedLeaves b σ ls) {fuel:ℕ} (hfuel:ls.length<fuel)
 (fn:Bytes → Bytes → α → TxnM α) (hfn:∀ k v a σ,I σ → I (fn k v a σ).2) (B:List Entry) :
 ∀ (A:List Entry) (c:Cursor) (n:ℕ) (acc:α) (σ:WriteTxn),I σ → CursorAt ls c A B → B.length<n →
  forEachLoop b fuel fn n c acc σ=B.foldlM (fun a e=>fn e.key e.value a) acc σ := by
 induction B with
 | nil=>
  intro A c n acc σ hσ hc hn
  obtain ⟨n,rfl⟩:∃ k,n=k+1:=⟨n-1,by omega⟩
  rw [forEachLoop,if_neg (by rw [show c.valid=false from hc]; simp)]
  rfl
 | cons e B ih=>
  intro A c n acc σ hσ hc hn
  obtain ⟨n,rfl⟩:∃ k,n=k+1:=⟨n-1,by omega⟩
  rw [length_cons] at hn
  rw [forEachLoop,if_pos hc.1,bind_of_ok _ (value_run (hI σ hσ) hc),hc.2.1,foldlM_cons]
  have hσ':=hfn e.key e.value acc σ hσ
  rw [bind_run,bind_run]
  cases hcall:fn e.key e.value acc σ with
  | mk r σ'=>
   rw [hcall] at hσ'
   cases r with
   | error err=>rfl
   | ok acc'=>
    obtain ⟨c',hnext,hat⟩:=next_run (hI σ' hσ') hc hfuel
    show (c.next fuel >>= fun c=>forEachLoop b fuel fn n c acc') σ'=_
    rw [bind_of_ok _ hnext]
    exact ih _ c' n acc' σ' hσ' hat (by omega)

lemma TreeView.forEach_run {σ:WriteTxn} (h:TreeView b σ ls) (hI:∀ σ',I σ' → LinkedLeaves b σ' ls)
 (hσ:I σ) {fuel:ℕ} (hfuel:ls.length<fuel) (hn:(entriesOf ls).length<fuel)
 (fn:Bytes → Bytes → α → TxnM α) (hfn:∀ k v a σ',I σ' → I (fn k v a σ').2) (acc:α) :
 b.forEach fuel fn acc σ=(entriesOf ls).foldlM (fun a e=>fn e.key e.value a) acc σ := by
 obtain ⟨c,hseek,hat⟩:=h.seekFirst_run {} hfuel
 rw [BTree.forEach,bind_of_ok _ hseek]
 exact forEachLoop_run hI hfuel fn hfn _ [] c fuel acc σ hσ hat hn

namespace Runs

/-- Collects the entries `for_each` visits. -/
def collect (k v:Bytes) (acc:List (Bytes × Bytes)) : TxnM (List (Bytes × Bytes)) :=
 return acc++[(k,v)]

lemma foldlM_collect (es:List Entry) (acc:List (Bytes × Bytes)) (σ:WriteTxn) :
 es.foldlM (fun a e=>collect e.key e.value a) acc σ=(.ok (acc++pairs es),σ) := by
 induction es generalizing acc with
 | nil=>
  rw [foldlM_nil,pairs,map_nil,append_nil]
  rfl
 | cons e es ih=>
  have hstep:collect e.key e.value acc σ=(.ok (acc++[(e.key,e.value)]),σ):=rfl
  rw [foldlM_cons,bind_of_ok _ hstep,ih,append_assoc]
  rfl

end Runs

lemma TreeView.collected {σ:WriteTxn} (h:TreeView b σ ls) {fuel:ℕ} (hfuel:ls.length+(entriesOf ls).length<fuel) :
 b.forEach fuel Runs.collect [] σ=(.ok (pairs (entriesOf ls)),σ) := by
 rw [h.forEach_run (I:=(· = σ)) (fun σ' hσ=>hσ ▸ h.toLinkedLeaves) rfl (by omega) (by omega) Runs.collect
  fun _ _ _ _ hσ=>hσ,Runs.foldlM_collect,nil_append]

end ForEach

end Archivum.TreeShape
