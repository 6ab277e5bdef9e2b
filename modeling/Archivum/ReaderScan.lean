import Archivum.KeyOrder
import Archivum.LeafWalks
import Archivum.StoreModel

set_option autoImplicit false

/-!
# Scans

`Reader::scan` positions a cursor by the bytes of one bound and stops by those of
the other. Since keys are ordered as their values, and one key begins another
exactly when its values are the leading ones, the rows it visits are those whose
leading key columns lie between the bounds.
-/
namespace Archivum.ReaderScan
open ByteStrings StatefulActions PageTxn SlottedPage BTreeModel RecordModel RecordFormat TableDefs StoreModel TreeShape List Act
open KeyOrder OrderedCodes TreeShape.Runs

structure Bound where
 values : Row
 inclusive : Bool := true
 deriving DecidableEq

def keyLess (a b:Bytes) : Bool := compareBytes a b == .lt

def startsWith (key p:Bytes) : Bool := p.isPrefixOf key

def typeOf (t:TableDef) (c:Bytes) : ColumnType := ((t.column c).map ColumnDef.type).getD .integer

def typesOf (t:TableDef) (columns:List Bytes) : List ColumnType := columns.map (typeOf t)

def keyColumns (t:TableDef) : Option IndexDef → List Bytes
 | none=>t.primaryKey
 | some idx=>idx.columns++t.primaryKey

def checkBound (t:TableDef) (columns:List Bytes) : Option Bound → Except Status Unit
 | none=>.ok ()
 | some b=>do
  if columns.length<b.values.length then throw (invalidArgument "scan bound has too many columns")
  allOk (fun p=>if !p.1.matches (typeOf t p.2) then
    .error (invalidArgument ("scan bound " ++ p.1.toString ++ " does not match " ++ text p.2))
   else .ok ()) (b.values.zip columns)

/-- `while (c.valid() && starts_with(c.key(), p)) c.next()` -/
def skipPrefix (fuel:ℕ) (p:Bytes) : ℕ → Cursor → TxnM Cursor
 | 0,_=>fail stillRunning
 | n+1,c=>
  if c.valid && startsWith c.key p then do
   let c ← c.next fuel
   skipPrefix fuel p n c
  else return c

def startForward (b:BTree) (fuel:ℕ) : Option Bound → TxnM Cursor
 | none=>Cursor.seekFirst b fuel {}
 | some lower=>do
  let c ← Cursor.seek b fuel (encodeKey lower.values) {}
  if lower.inclusive then return c else skipPrefix fuel (encodeKey lower.values) fuel c

def startReverse (b:BTree) (fuel:ℕ) : Option Bound → TxnM Cursor
 | none=>Cursor.seekLast b {}
 | some upper=>do
  let c ← Cursor.seek b fuel (encodeKey upper.values) {}
  let c ← (if upper.inclusive then skipPrefix fuel (encodeKey upper.values) fuel c else return c)
  if c.valid then c.prev fuel else Cursor.seekLast b c

def pastUpper (key:Bytes) : Option Bound → Bool
 | none=>false
 | some upper=>
  let hi := encodeKey upper.values
  if upper.inclusive then keyLess hi key && !startsWith key hi else !keyLess key hi

def pastLower (key:Bytes) : Option Bound → Bool
 | none=>false
 | some lower=>
  let lo := encodeKey lower.values
  if lower.inclusive then keyLess key lo else keyLess key lo || startsWith key lo

/-- The loop of a scan from a cursor; `fn` returns whether to go on. -/
def scanLoop {α:Type} (past:Bytes → Bool) (move:Cursor → TxnM Cursor) (fn:Bytes → α → TxnM (α × Bool)) :
  ℕ → Cursor → α → TxnM α
 | 0,_,_=>fail stillRunning
 | n+1,c,acc=>
  if c.valid && !past c.key then do
   let (acc,go) ← fn c.key acc
   if go then do
    let c ← move c
    scanLoop past move fn n c acc
   else return acc
  else return acc

/-- `fuel` bounds the rounds of each loop. -/
def scanRaw {α:Type} (pageSize fuel:ℕ) (t:TableDef) (idx:Option IndexDef) (lower upper:Option Bound)
  (reverse:Bool) (fn:Bytes → α → TxnM (α × Bool)) (acc:α) : TxnM α :=
 match checkBound t (keyColumns t idx) lower,checkBound t (keyColumns t idx) upper with
 | .error e,_=>fail e
 | .ok _,.error e=>fail e
 | .ok _,.ok _=>
  let b:BTree:=⟨(idx.map IndexDef.root).getD t.root,pageSize⟩
  if reverse then do
   let c ← startReverse b fuel upper
   scanLoop (pastLower · lower) (Cursor.prev fuel) fn fuel c acc
  else do
   let c ← startForward b fuel lower
   scanLoop (pastUpper · upper) (Cursor.next fuel) fn fuel c acc

def pkKeyIn (t:TableDef) (key:Bytes) : Option IndexDef → Except Status Bytes
 | none=>.ok key
 | some idx=>
  match decodeKey (typesOf t idx.columns) key with
  | (.ok _,rest)=>.ok rest
  | (.error e,_)=>.error e

def lostRow : Option IndexDef → Status
 | none=>corrupt "row vanished during scan"
 | some idx=>corrupt ("index " ++ text idx.name ++ " entry without a row")

def rowAt (pageSize:ℕ) (t:TableDef) (idx:Option IndexDef) (key:Bytes) : TxnM Row := do
 match pkKeyIn t key idx with
 | .error e=>fail e
 | .ok pkKey=>do
  match ← BTree.get ⟨t.root,pageSize⟩ pkKey with
  | none=>fail (lostRow idx)
  | some value=>
   match decodeRow value with
   | .error e=>fail e
   | .ok row=>return row

def scan {α:Type} (catalog:Catalog) (pageSize fuel:ℕ) (table index:Bytes) (lower upper:Option Bound)
  (reverse:Bool) (fn:Row → α → α × Bool) (acc:α) : TxnM α :=
 match catalog.table table with
 | none=>fail (notFound ("no table " ++ text table))
 | some t=>
  let visit (idx:Option IndexDef):TxnM α:=
   scanRaw pageSize fuel t idx lower upper reverse (fun key acc=>do
    let row ← rowAt pageSize t idx key
    return fn row acc) acc
  if index=[] then visit none
  else match t.indexes.find? fun idx=>idx.name == index with
   | none=>fail (notFound ("no index " ++ text index ++ " on " ++ text table))
   | some idx=>visit (some idx)

lemma keyLess_iff {a b:Bytes} : keyLess a b=true ↔ a<b := by
 rw [keyLess,beq_iff_eq,compareBytes_lt_iff]

lemma startsWith_iff {key p:Bytes} : startsWith key p=true ↔ p <+: key := isPrefixOf_iff_prefix

lemma prefix_between {p a b:Bytes} (hpa:p≤a) (hab:a≤b) (hb:p <+: b) : p <+: a := by
 induction p generalizing a b with
 | nil=>exact nil_prefix
 | cons x p ih=>
  obtain ⟨s,rfl⟩:=hb
  cases a with
  | nil=>exact absurd (nil_lt_cons x p) (not_lt.mpr hpa)
  | cons y a=>
   rw [← not_lt,cons_lt_cons_iff,not_or,not_lt] at hpa
   rw [cons_append,← not_lt,cons_lt_cons_iff,not_or,not_lt] at hab
   obtain rfl:=le_antisymm hpa.1 hab.1
   refine cons_prefix_cons.mpr ⟨rfl,ih ?_ ?_ (prefix_append p s)⟩
   · exact not_lt.mp fun hlt=>hpa.2 ⟨rfl,hlt⟩
   · exact not_lt.mp fun hlt=>hab.2 ⟨rfl,hlt⟩

lemma pastUpper_iff {key:Bytes} {u:Bound} : pastUpper key (some u)=true ↔
 encodeKey u.values≤key ∧ ¬(u.inclusive=true ∧ encodeKey u.values <+: key) := by
 simp only [pastUpper]
 split
 · rename_i hincl
   rw [Bool.and_eq_true,keyLess_iff,Bool.not_eq_true',← Bool.not_eq_true,startsWith_iff]
   refine ⟨fun h=>⟨h.1.le,fun h'=>h.2 h'.2⟩,fun h=>⟨lt_of_le_of_ne h.1 ?_,fun h'=>h.2 ⟨hincl,h'⟩⟩⟩
   exact fun heq=>h.2 ⟨hincl,heq ▸ prefix_rfl⟩
 · rename_i hexcl
   rw [Bool.not_eq_true',← Bool.not_eq_true,keyLess_iff,not_lt]
   exact ⟨fun h=>⟨h,fun h'=>hexcl h'.1⟩,fun h=>h.1⟩

lemma pastLower_iff {key:Bytes} {l:Bound} : pastLower key (some l)=true ↔
 key<encodeKey l.values ∨ l.inclusive=false ∧ encodeKey l.values <+: key := by
 simp only [pastLower]
 split
 · rename_i hincl
   rw [keyLess_iff,hincl]
   simp
 · rename_i hexcl
   rw [Bool.or_eq_true,keyLess_iff,startsWith_iff,Bool.eq_false_of_not_eq_true hexcl]
   simp

lemma pastUpper_mono {upper:Option Bound} {a b:Bytes} (hab:a<b) (h:pastUpper a upper=true) : pastUpper b upper=true := by
 cases upper with
 | none=>cases h
 | some u=>
  rw [pastUpper_iff] at h ⊢
  exact ⟨h.1.trans hab.le,fun hb=>h.2 ⟨hb.1,prefix_between h.1 hab.le hb.2⟩⟩

lemma pastLower_mono {lower:Option Bound} {a b:Bytes} (hab:a<b) (h:pastLower b lower=true) : pastLower a lower=true := by
 cases lower with
 | none=>cases h
 | some l=>
  rw [pastLower_iff] at h ⊢
  rcases h with h | ⟨hexcl,h⟩
  · exact .inl (hab.trans h)
  · rcases lt_or_ge a (encodeKey l.values) with hlt | hge
    · exact .inl hlt
    · exact .inr ⟨hexcl,prefix_between hge hab.le h⟩

lemma takeWhile_eq_filter {α:Type} {q:α → Bool} {l:List α}
 (h:l.Pairwise fun a b=>q b=true → q a=true) : l.takeWhile q=l.filter q := by
 induction l with
 | nil=>rfl
 | cons a l ih=>
  rw [pairwise_cons] at h
  by_cases ha:q a=true
  · rw [takeWhile_cons_of_pos ha,filter_cons_of_pos ha,ih h.2]
  · rw [takeWhile_cons_of_neg ha,filter_cons_of_neg ha,eq_comm,filter_eq_nil_iff]
    exact fun b hb hqb=>ha (h.1 b hb hqb)

lemma dropWhile_eq_filter {α:Type} {q:α → Bool} {l:List α}
 (h:l.Pairwise fun a b=>q b=true → q a=true) : l.dropWhile q=l.filter fun a=>!q a := by
 induction l with
 | nil=>rfl
 | cons a l ih=>
  rw [pairwise_cons] at h
  by_cases ha:q a=true
  · rw [dropWhile_cons_of_pos ha,filter_cons_of_neg (by simp [ha]),ih h.2]
  · rw [dropWhile_cons_of_neg ha,filter_cons_of_pos (by simp [ha]),filter_eq_self.mpr]
    exact fun b hb=>by simpa using mt (h.1 b hb) ha

section Walks
variable {b:BTree} {σ:WriteTxn} {ls:List LeafView} {fuel:ℕ}

lemma skipPrefix_run (h:LinkedLeaves b σ ls) (hfuel:ls.length<fuel) (p:Bytes) (B:List Entry) :
 ∀ (A:List Entry) (c:Cursor) (n:ℕ),CursorAt ls c A B → B.length<n → ∃ c',skipPrefix fuel p n c σ=(.ok c',σ) ∧
   CursorAt ls c' (A++B.takeWhile fun e=>startsWith e.key p) (B.dropWhile fun e=>startsWith e.key p) := by
 induction B with
 | nil=>
  intro A c n hc hn
  obtain ⟨n,rfl⟩:∃ k,n=k+1:=⟨n-1,by omega⟩
  refine ⟨c,?_,hc⟩
  rw [skipPrefix,if_neg (by simp [show c.valid=false from hc])]
  rfl
 | cons e B ih=>
  intro A c n hc hn
  obtain ⟨n,rfl⟩:∃ k,n=k+1:=⟨n-1,by omega⟩
  rw [length_cons] at hn
  by_cases hp:startsWith e.key p=true
  · obtain ⟨c₁,hnext,hc₁⟩:=next_run h hc hfuel
    obtain ⟨c',hrun,hat⟩:=ih (A++[e]) c₁ n hc₁ (by omega)
    refine ⟨c',?_,?_⟩
    · rw [skipPrefix,if_pos (by rw [hc.1,hc.2.1,hp]; rfl),bind_of_ok _ hnext]
      exact hrun
    · rw [takeWhile_cons_of_pos (p:=fun e:Entry=>startsWith e.key p) hp,
       dropWhile_cons_of_pos (p:=fun e:Entry=>startsWith e.key p) hp]
      rwa [append_assoc] at hat
  · refine ⟨c,?_,?_⟩
    · rw [skipPrefix,if_neg (by simp [hc.2.1,hp])]
      rfl
    · rw [takeWhile_cons_of_neg (p:=fun e:Entry=>startsWith e.key p) hp,
       dropWhile_cons_of_neg (p:=fun e:Entry=>startsWith e.key p) hp,append_nil]
      exact hc

variable {α:Type} {past:Bytes → Bool} {fn:Bytes → α → TxnM (α × Bool)} {visit:Bytes → α → α}

lemma scanLoop_next (h:LinkedLeaves b σ ls) (hfuel:ls.length<fuel) (B:List Entry) :
 ∀ (A:List Entry) (c:Cursor) (n:ℕ) (acc:α),CursorAt ls c A B → B.length<n →
  (∀ e∈B,∀ acc,fn e.key acc σ=(.ok (visit e.key acc,true),σ)) → scanLoop past (Cursor.next fuel) fn n c acc σ =
   (.ok ((B.takeWhile fun e=>!past e.key).foldl (fun acc e=>visit e.key acc) acc),σ) := by
 induction B with
 | nil=>
  intro A c n acc hc hn _
  obtain ⟨n,rfl⟩:∃ k,n=k+1:=⟨n-1,by omega⟩
  rw [scanLoop,if_neg (by simp [show c.valid=false from hc])]
  rfl
 | cons e B ih=>
  intro A c n acc hc hn hfn
  obtain ⟨n,rfl⟩:∃ k,n=k+1:=⟨n-1,by omega⟩
  rw [length_cons] at hn
  by_cases hp:past e.key=true
  · rw [scanLoop,if_neg (by simp [hc.2.1,hp]),takeWhile_cons_of_neg (by simp [hp])]
    rfl
  · obtain ⟨c₁,hnext,hc₁⟩:=next_run h hc hfuel
    rw [scanLoop,if_pos (by simp [hc.1,hc.2.1,hp]),hc.2.1,
     bind_of_ok _ (hfn e mem_cons_self acc),takeWhile_cons_of_pos (by simp [hp])]
    dsimp only
    rw [if_pos rfl,bind_of_ok _ hnext]
    exact ih _ c₁ n _ hc₁ (by omega) fun d hd=>hfn d (mem_cons_of_mem e hd)

lemma scanLoop_prev (h:LinkedLeaves b σ ls) (hfuel:ls.length<fuel) (A:List Entry) :
 ∀ (B:List Entry) (c:Cursor) (n:ℕ) (acc:α),SteppedBack ls c A B → A.length<n →
  (∀ e∈A,∀ acc,fn e.key acc σ=(.ok (visit e.key acc,true),σ)) → scanLoop past (Cursor.prev fuel) fn n c acc σ =
   (.ok ((A.reverse.takeWhile fun e=>!past e.key).foldl (fun acc e=>visit e.key acc) acc),σ) := by
 induction A using reverseRecOn with
 | nil=>
  intro B c n acc hc hn _
  obtain ⟨n,rfl⟩:∃ k,n=k+1:=⟨n-1,by omega⟩
  rcases hc with ⟨-,hinv⟩ | ⟨A',a,hA,-⟩
  · rw [scanLoop,if_neg (by simp [hinv])]
    rfl
  · simp at hA
 | append_singleton A a ih=>
  intro B c n acc hc hn hfn
  obtain ⟨n,rfl⟩:∃ k,n=k+1:=⟨n-1,by omega⟩
  rw [length_append,length_singleton] at hn
  rcases hc with ⟨hnil,-⟩ | ⟨A',a',hA,hc⟩
  · simp at hnil
  obtain ⟨rfl,ha⟩:=append_inj' hA rfl
  cases ha
  rw [reverse_append,reverse_singleton,singleton_append]
  by_cases hp:past a.key=true
  · rw [scanLoop,if_neg (by simp [hc.2.1,hp]),takeWhile_cons_of_neg (by simp [hp])]
    rfl
  · obtain ⟨c₁,hprev,hc₁⟩:=prev_run h hc hfuel
    rw [scanLoop,if_pos (by simp [hc.1,hc.2.1,hp]),hc.2.1,
     bind_of_ok _ (hfn a (by simp) acc),takeWhile_cons_of_pos (by simp [hp])]
    dsimp only
    rw [if_pos rfl,bind_of_ok _ hprev]
    exact ih _ c₁ n _ hc₁ (by omega) fun d hd=>hfn d (by simp [hd])

lemma seek_skip_run (h:TreeView b σ ls) (hfuel:ls.length+(entriesOf ls).length<fuel) (p:Bytes)
 (skip:Bool) :
 ∃ c₀ c A B,Cursor.seek b fuel p {} σ=(.ok c₀,σ) ∧
  (if skip then skipPrefix fuel p fuel c₀ else pure c₀) σ=(.ok c,σ) ∧ entriesOf ls=A++B ∧ CursorAt ls c A B ∧ (∀ e∈A,e.key<p ∨ skip=true ∧ p <+: e.key) ∧
  ∀ e∈B,p≤e.key ∧ ¬(skip=true ∧ p <+: e.key) := by
 have hls:ls.length<fuel:=by omega
 obtain ⟨c,A,B,hseek,hent,hA,hB,hat⟩:=h.seek_run p {} hls
 have hlen:=congrArg length hent
 rw [length_append] at hlen
 cases skip with
 | false=>exact ⟨c,c,A,B,hseek,rfl,hent,hat,fun e he=>.inl (hA e he),fun e he=>⟨hB e he,nofun⟩⟩
 | true=>
  obtain ⟨c',hrun,hat'⟩:=skipPrefix_run h.toLinkedLeaves (by omega) p B A c fuel hat (by omega)
  refine ⟨c,c',_,_,hseek,hrun,?_,hat',fun e he=>?_,fun e he=>?_⟩
  · rw [hent,append_assoc,takeWhile_append_dropWhile]
  · rcases mem_append.mp he with he | he
    · exact .inl (hA e he)
    · exact .inr ⟨rfl,startsWith_iff.mp (mem_takeWhile_imp (p:=fun e:Entry=>startsWith e.key p) he)⟩
  · have hsort:=h.sorted
    rw [hent] at hsort
    have hmem:=(dropWhile_sublist _).subset he
    refine ⟨hB e hmem,fun hp=>?_⟩
    rw [dropWhile_eq_filter,mem_filter] at he
    · rw [startsWith_iff.mpr hp.2] at he
      exact absurd he.2 (by decide)
    · refine (pairwise_append.mp hsort).2.1.imp_of_mem fun hx _ hxy hy=>?_
      rw [startsWith_iff] at hy ⊢
      exact prefix_between (hB _ hx) hxy.le hy

lemma startForward_run (h:TreeView b σ ls) (hfuel:ls.length+(entriesOf ls).length<fuel) (lower:Option Bound) :
 ∃ c A B,startForward b fuel lower σ=(.ok c,σ) ∧ entriesOf ls=A++B ∧ CursorAt ls c A B ∧
  (∀ e∈A,pastLower e.key lower=true) ∧ ∀ e∈B,pastLower e.key lower=false := by
 cases lower with
 | none=>
  have hls:ls.length<fuel:=by omega
  obtain ⟨c,hrun,hat⟩:=h.seekFirst_run {} hls
  exact ⟨c,[],_,hrun,rfl,hat,nofun,fun _ _=>rfl⟩
 | some l=>
  obtain ⟨c₀,c,A,B,hseek,hrun,hent,hat,hA,hB⟩:=
   seek_skip_run h hfuel (encodeKey l.values) !l.inclusive
  refine ⟨c,A,B,?_,hent,hat,fun e he=>?_,fun e he=>?_⟩
  · rw [startForward,bind_of_ok _ hseek,← hrun]
    cases l.inclusive <;> rfl
  · rw [pastLower_iff]
    simpa using hA e he
  · rw [← Bool.not_eq_true,pastLower_iff,not_or,not_lt]
    simpa using hB e he

lemma startReverse_run (h:TreeView b σ ls) (hfuel:ls.length+(entriesOf ls).length<fuel) (upper:Option Bound) :
 ∃ c A B,startReverse b fuel upper σ=(.ok c,σ) ∧ entriesOf ls=A++B ∧ SteppedBack ls c A B ∧
  (∀ e∈A,pastUpper e.key upper=false) ∧ ∀ e∈B,pastUpper e.key upper=true := by
 cases upper with
 | none=>
  obtain ⟨c,hrun,hat⟩:=h.seekLast_run {}
  exact ⟨c,_,[],hrun,(append_nil _).symm,hat,fun _ _=>rfl,nofun⟩
 | some u=>
  obtain ⟨c₀,c,A,B,hseek,hrun,hent,hat,hA,hB⟩:=
   seek_skip_run h hfuel (encodeKey u.values) u.inclusive
  have hpast:(∀ e∈A,pastUpper e.key (some u)=false) ∧ ∀ e∈B,pastUpper e.key (some u)=true:=by
   refine ⟨fun e he=>?_,fun e he=>pastUpper_iff.mpr (hB e he)⟩
   rw [← Bool.not_eq_true,pastUpper_iff,not_and_or,not_le,not_not]
   exact hA e he
  have hstart:startReverse b fuel (some u) σ =
    (if c.valid then c.prev fuel else Cursor.seekLast b c) σ:=by
   rw [startReverse,bind_of_ok _ hseek,bind_of_ok _ hrun]
  cases B with
  | nil=>
   obtain ⟨c',hlast,hback⟩:=h.seekLast_run c
   rw [hent,append_nil] at hback
   refine ⟨c',A,[],?_,hent,hback,hpast⟩
   rw [hstart,if_neg (by simp [show c.valid=false from hat])]
   exact hlast
  | cons e B=>
   obtain ⟨c',hprev,hback⟩:=prev_run h.toLinkedLeaves hat (show ls.length<fuel by omega)
   refine ⟨c',A,e::B,?_,hent,hback,hpast⟩
   rw [hstart,if_pos hat.1]
   exact hprev

def between (lower upper:Option Bound) (es:List Entry) : List Entry :=
 es.filter fun e=>!pastLower e.key lower && !pastUpper e.key upper

lemma between_past {lower upper:Option Bound} {A B:List Entry}
 (hA:∀ e∈A,pastLower e.key lower=true) (hB:∀ e∈B,pastLower e.key lower=false) (hsort:(A++B).Pairwise fun a b=>a.key<b.key) :
 between lower upper (A++B)=B.takeWhile fun e=>!pastUpper e.key upper := by
 rw [between,filter_append,filter_eq_nil_iff.mpr fun e he=>by simp [hA e he],nil_append,takeWhile_eq_filter]
 · exact filter_congr fun e he=>by simp [hB e he]
 · refine (pairwise_append.mp hsort).2.1.imp fun hab hb=>?_
   rw [Bool.not_eq_true',← Bool.not_eq_true] at hb ⊢
   exact mt (pastUpper_mono hab) hb

lemma between_before {lower upper:Option Bound} {A B:List Entry}
 (hA:∀ e∈A,pastUpper e.key upper=false) (hB:∀ e∈B,pastUpper e.key upper=true) (hsort:(A++B).Pairwise fun a b=>a.key<b.key) :
 (between lower upper (A++B)).reverse=A.reverse.takeWhile fun e=>!pastLower e.key lower := by
 have hnil:B.filter (fun e=>!pastLower e.key lower && !pastUpper e.key upper)=[]:=
  filter_eq_nil_iff.mpr fun e he=>by simp [hB e he]
 rw [between,filter_append,hnil,append_nil,takeWhile_eq_filter,filter_reverse]
 · exact congrArg reverse (filter_congr fun e he=>by simp [hA e he])
 · rw [pairwise_reverse]
   refine (pairwise_append.mp hsort).1.imp fun hab hb=>?_
   rw [Bool.not_eq_true',← Bool.not_eq_true] at hb ⊢
   exact mt (pastLower_mono hab) hb

lemma scanRaw_run {t:TableDef} {idx:Option IndexDef} {ps:ℕ} {lower upper:Option Bound}
 (h:TreeView ⟨(idx.map IndexDef.root).getD t.root,ps⟩ σ ls)
 (hfuel:ls.length+(entriesOf ls).length<fuel)
 (hl:checkBound t (keyColumns t idx) lower=.ok ()) (hu:checkBound t (keyColumns t idx) upper=.ok ())
 (visit:Bytes → α → α) (hfn:∀ e∈entriesOf ls,∀ acc,fn e.key acc σ=(.ok (visit e.key acc,true),σ))
 (reverse:Bool) (acc:α) :
 scanRaw ps fuel t idx lower upper reverse fn acc σ =
  (.ok ((if reverse then (between lower upper (entriesOf ls)).reverse else between lower upper (entriesOf ls)).foldl
   (fun acc e=>visit e.key acc) acc),σ) := by
 have hls:ls.length<fuel:=by omega
 have hsort:=h.sorted
 rw [scanRaw,hl,hu]
 cases reverse with
 | false=>
  obtain ⟨c,A,B,hstart,hent,hat,hA,hB⟩:=startForward_run h hfuel lower
  have hlen:=congrArg length hent
  rw [length_append] at hlen
  rw [hent] at hsort hfn
  rw [if_neg (by decide),if_neg (by decide),hent,between_past hA hB hsort]
  refine (bind_of_ok _ hstart).trans ?_
  exact scanLoop_next h.toLinkedLeaves hls B A c fuel acc hat (by omega) fun e he=>
   hfn e (mem_append_right A he)
 | true=>
  obtain ⟨c,A,B,hstart,hent,hat,hA,hB⟩:=startReverse_run h hfuel upper
  have hlen:=congrArg length hent
  rw [length_append] at hlen
  rw [hent] at hsort hfn
  rw [if_pos rfl,if_pos rfl,hent,between_before hA hB hsort]
  refine (bind_of_ok _ hstart).trans ?_
  exact scanLoop_prev h.toLinkedLeaves hls A B c fuel acc hat (by omega) fun e he=>
   hfn e (mem_append_left B he)

end Walks

/-- The key columns are not below the lower bound, by the columns it gives. -/
def aboveLower (key:Row) : Option Bound → Bool
 | none=>true
 | some lower=>match compareColumns key lower.values with
  | .lt=>false
  | .eq=>lower.inclusive
  | .gt=>true

def belowUpper (key:Row) : Option Bound → Bool
 | none=>true
 | some upper=>match compareColumns key upper.values with
  | .lt=>true
  | .eq=>upper.inclusive
  | .gt=>false

def Matching (types:List ColumnType) (bound:Option Bound) : Prop :=
 ∀ b∈bound,OfTypes (types.take b.values.length) b.values

lemma compareColumns_append {a b c:Row} (h:a.length=b.length) : compareColumns (a++c) b=compareColumns a b := by
 induction a generalizing b with
 | nil=>
  obtain rfl:=length_eq_zero_iff.mp h.symm
  cases c <;> rfl
 | cons v a ih=>
  cases b with
  | nil=>cases h
  | cons w b=>rw [cons_append,compareColumns,compareColumns,ih (Nat.succ.inj h)]

lemma leading_types {types:List ColumnType} {key values:Row} (hkey:OfTypes types key)
 (hvals:OfTypes (types.take values.length) values) : OfTypes (types.take values.length) (key.take values.length) ∧
  compareColumns (key.take values.length) values=compareColumns key values := by
 have hfirst:OfTypes (types.take values.length) (key.take values.length):=forall₂_take _ hkey
 have hlen:(key.take values.length).length=values.length:=hfirst.length_eq.symm.trans hvals.length_eq
 refine ⟨hfirst,?_⟩
 rw [← compareColumns_append hlen,take_append_drop]

lemma compare_leading {types:List ColumnType} {key values:Row} (hkey:OfTypes types key)
 (hvals:OfTypes (types.take values.length) values) (x:Bytes) : ∃ rest,compareBytes (encodeKey key) (encodeKey values++x) =
  (compareColumns key values).then (compareBytes rest x) := by
 obtain ⟨hfirst,hcompare⟩:=leading_types hkey hvals
 have hrank:=ranks_encodeKey hfirst hvals (encodeKey (key.drop values.length)) x
 rw [← encodeKey_append,take_append_drop,hcompare] at hrank
 exact ⟨_,hrank⟩

lemma encodeKey_lt_iff {types:List ColumnType} {key values:Row} (hkey:OfTypes types key)
 (hvals:OfTypes (types.take values.length) values) : encodeKey key<encodeKey values ↔ compareColumns key values=.lt := by
 obtain ⟨rest,h⟩:=compare_leading hkey hvals []
 rw [append_nil] at h
 rw [← compareBytes_lt_iff,h]
 have hrest:compareBytes rest []≠.lt:=by cases rest <;> simp [compareBytes]
 cases compareColumns key values <;> simp [Ordering.then,hrest]

lemma encodeKey_prefix_iff {types:List ColumnType} {key values:Row} (hkey:OfTypes types key)
 (hvals:OfTypes (types.take values.length) values) : encodeKey values <+: encodeKey key ↔ compareColumns key values=.eq := by
 constructor
 · rintro ⟨x,hx⟩
   obtain ⟨rest,h⟩:=compare_leading hkey hvals x
   rw [(compareBytes_eq_iff _ _).mpr hx.symm] at h
   cases hc:compareColumns key values <;> rw [hc] at h <;> cases h
 · intro heq
   obtain ⟨hfirst,hcompare⟩:=leading_types hkey hvals
   have hsame:=(ranks_encodeKey hfirst hvals).compare_eq
   rw [hcompare,heq,compareBytes_eq_iff] at hsame
   refine ⟨encodeKey (key.drop values.length),?_⟩
   rw [← hsame,← encodeKey_append,take_append_drop]

lemma pastLower_encodeKey {types:List ColumnType} {key:Row} {lower:Option Bound} (hkey:OfTypes types key)
 (hl:Matching types lower) : (!pastLower (encodeKey key) lower)=aboveLower key lower := by
 cases lower with
 | none=>rfl
 | some l=>
  have hvals:=hl l rfl
  rw [Bool.eq_iff_iff,Bool.not_eq_true',← Bool.not_eq_true,pastLower_iff,encodeKey_lt_iff hkey hvals,
   encodeKey_prefix_iff hkey hvals,aboveLower]
  cases compareColumns key l.values <;> simp

lemma pastUpper_encodeKey {types:List ColumnType} {key:Row} {upper:Option Bound} (hkey:OfTypes types key)
 (hu:Matching types upper) : (!pastUpper (encodeKey key) upper)=belowUpper key upper := by
 cases upper with
 | none=>rfl
 | some u=>
  have hvals:=hu u rfl
  rw [Bool.eq_iff_iff,Bool.not_eq_true',← Bool.not_eq_true,pastUpper_iff,← not_lt,encodeKey_lt_iff hkey hvals,
   encodeKey_prefix_iff hkey hvals,belowUpper]
  cases compareColumns key u.values <;> simp

lemma checkBound_ok {t:TableDef} {columns:List Bytes} {bound:Option Bound}
 (h:Matching (typesOf t columns) bound) : checkBound t columns bound=.ok () := by
 cases bound with
 | none=>rfl
 | some b=>
  have hb:=h b rfl
  have hlen:=hb.length_eq
  rw [length_take,typesOf,length_map] at hlen
  rw [checkBound,if_neg (by omega)]
  refine allOk_iff.mpr fun p hp=>if_neg ?_
  obtain ⟨i,hi,rfl⟩:=mem_iff_getElem.mp hp
  rw [length_zip] at hi
  have hmatch:=(forall₂_iff_get.mp hb).2 i (by rw [hb.length_eq]; omega) (by omega)
  simp only [typesOf,get_eq_getElem,getElem_take,getElem_map] at hmatch
  simp [hmatch]

def Stores (b:BTree) (σ:WriteTxn) (es:List Entry) : Prop :=
 ∃ tr O free,TreeAt b.pageSize σ tr O free ∧ b.root=tr.page ∧ tr.entries=es

/-- The table's tree has one entry for each of `rows`, and so has each of its indexes. -/
structure Agrees (ps:ℕ) (σ:WriteTxn) (t:TableDef) (rows:List Row) : Prop where
 table : ∃ es,Stores ⟨t.root,ps⟩ σ es ∧
  es.map (fun e=>(e.key,decodeRow e.value))=rows.map fun r=>(pkKeyOf t r,.ok r)
 indexes : ∀ idx∈t.indexes,∃ (es:List Entry) (rows':List Row),Stores ⟨idx.root,ps⟩ σ es ∧ rows'.Perm rows ∧
  es.map Entry.key=rows'.map fun r=>indexKeyOf t idx r (pkKeyOf t r)
 typed : ∀ r∈rows,OfTypes (t.columns.map ColumnDef.type) r

def keyOf (t:TableDef) (idx:Option IndexDef) (row:Row) : Row := project t row (keyColumns t idx)

lemma Stores.view {b:BTree} {σ:WriteTxn} {es:List Entry} (h:Stores b σ es) (hs:Shallow b σ) :
 ∃ ls,TreeView b σ ls ∧ entriesOf ls=es := by
 obtain ⟨tr,O,free,hat,hroot,rfl⟩:=h
 exact ⟨_,hat.treeView rfl hroot ((shallow_iff hat hroot).mp hs),entriesOf_view σ tr⟩

lemma project_types {t:TableDef} {r:Row} (h:OfTypes (t.columns.map ColumnDef.type) r) (columns:List Bytes) :
 OfTypes (typesOf t columns) (project t r columns) := by
 induction columns with
 | nil=>exact .nil
 | cons c columns ih=>
  refine .cons ?_ ih
  dsimp only
  rw [typeOf,TableDef.column]
  cases t.columnIndex c with
  | none=>rfl
  | some i=>
   rw [Option.bind_some,Option.bind_some,← getElem?_map]
   by_cases hi:i < r.length
   · have hi':i<(t.columns.map ColumnDef.type).length:=h.length_eq ▸ hi
     have hmatch:=(forall₂_iff_get.mp h).2 i hi' hi
     rw [getElem?_eq_getElem hi,getElem?_eq_getElem hi']
     exact hmatch
   · rw [getElem?_eq_none (not_lt.mp hi)]
     rfl

section Agreeing
variable {ps:ℕ} {σ:WriteTxn} {t:TableDef} {rows:List Row} {idx:Option IndexDef} {r:Row}

lemma encodeKey_keyOf (t:TableDef) (idx:Option IndexDef) (r:Row) :
 encodeKey (keyOf t idx r)=match idx with
   | none=>pkKeyOf t r
   | some idx=>indexKeyOf t idx r (pkKeyOf t r) := by
 cases idx with
 | none=>rfl
 | some idx=>rw [keyOf,keyColumns,project,map_append,encodeKey_append]; rfl

lemma Agrees.keyOf_types (h:Agrees ps σ t rows) (hr:r∈rows) : OfTypes (typesOf t (keyColumns t idx)) (keyOf t idx r) :=
 project_types (h.typed r hr) _

lemma Agrees.rowAt_run (h:Agrees ps σ t rows) (hs:Shallow ⟨t.root,ps⟩ σ) (hr:r∈rows) :
 rowAt ps t idx (encodeKey (keyOf t idx r)) σ=(.ok r,σ) := by
 have hpk:pkKeyIn t (encodeKey (keyOf t idx r)) idx=.ok (pkKeyOf t r):=by
  rw [encodeKey_keyOf]
  cases idx with
  | none=>rfl
  | some idx=>
   have hread:=decodeKey_reads (project_types (h.typed r hr) idx.columns) (pkKeyOf t r)
   simp only [pkKeyIn,indexKeyOf]
   rw [hread]
 obtain ⟨es,hstores,hrows⟩:=h.table
 obtain ⟨ls,hview,rfl⟩:=hstores.view hs
 have hmem:=mem_map_of_mem (f:=fun r=>(pkKeyOf t r,Except.ok (ε:=Status) r)) hr
 rw [← hrows] at hmem
 obtain ⟨e,he,heq⟩:=mem_map.mp hmem
 obtain ⟨hkey,hrow⟩:=Prod.mk.inj heq
 have hget:=hview.get_run (pkKeyOf t r)
 rw [(lookupEntries_iff hview.sorted _ e.value).mpr (mem_map.mpr ⟨e,he,by rw [hkey]⟩)] at hget
 rw [rowAt,hpk]
 refine (bind_of_ok _ hget).trans ?_
 simp only [hrow]
 rfl

lemma Agrees.ordered (h:Agrees ps σ t rows) (hidx:∀ i∈idx,i∈t.indexes)
 (hs:Shallow ⟨(idx.map IndexDef.root).getD t.root,ps⟩ σ) :
 ∃ (ls:List LeafView) (rows':List Row),TreeView ⟨(idx.map IndexDef.root).getD t.root,ps⟩ σ ls ∧
  rows'.Perm rows ∧ (entriesOf ls).map Entry.key=rows'.map fun r=>encodeKey (keyOf t idx r) := by
 cases idx with
 | none=>
  obtain ⟨es,hstores,hrows⟩:=h.table
  obtain ⟨ls,hview,rfl⟩:=hstores.view hs
  have hkeys:=congrArg (map Prod.fst) hrows
  rw [map_map,map_map] at hkeys
  exact ⟨ls,rows,hview,.refl _,hkeys⟩
 | some i=>
  obtain ⟨es,rows',hstores,hperm,hkeys⟩:=h.indexes i (hidx i rfl)
  obtain ⟨ls,hview,rfl⟩:=hstores.view hs
  simp only [encodeKey_keyOf]
  exact ⟨ls,rows',hview,hperm,hkeys⟩

lemma keyOf_increasing {ls:List LeafView} {b:BTree} {rows':List Row} (hview:TreeView b σ ls)
 (hkeys:(entriesOf ls).map Entry.key=rows'.map fun r=>encodeKey (keyOf t idx r))
 (htypes:∀ r∈rows',OfTypes (typesOf t (keyColumns t idx)) (keyOf t idx r)) :
 rows'.Pairwise fun r r'=>compareColumns (keyOf t idx r) (keyOf t idx r')=.lt := by
 have hsort:=pairwise_map.mpr hview.sorted
 rw [hkeys,pairwise_map] at hsort
 refine hsort.imp_of_mem fun hr hr' hlt=>?_
 rw [← (ranks_encodeKey (htypes _ hr) (htypes _ hr')).compare_eq,compareBytes_lt_iff]
 exact hlt

def within (t:TableDef) (idx:Option IndexDef) (lower upper:Option Bound) (row:Row) : Bool :=
 aboveLower (keyOf t idx row) lower && belowUpper (keyOf t idx row) upper

lemma between_keys {es:List Entry} {rows':List Row} {lower upper:Option Bound}
 (hkeys:es.map Entry.key=rows'.map fun r=>encodeKey (keyOf t idx r))
 (htypes:∀ r∈rows',OfTypes (typesOf t (keyColumns t idx)) (keyOf t idx r))
 (hl:Matching (typesOf t (keyColumns t idx)) lower) (hu:Matching (typesOf t (keyColumns t idx)) upper) :
 (between lower upper es).map Entry.key =
  (rows'.filter (within t idx lower upper)).map fun r=>encodeKey (keyOf t idx r) := by
 have hfilter:=congrArg (filter fun k=>!pastLower k lower && !pastUpper k upper) hkeys
 rw [filter_map,filter_map] at hfilter
 refine hfilter.trans (congrArg _ (filter_congr fun r hr=>?_))
 rw [Function.comp_apply,pastLower_encodeKey (htypes r hr) hl,pastUpper_encodeKey (htypes r hr) hu]
 rfl

lemma foldl_rows {α:Type} {es:List Entry} {l:List Row} {K:Row → Bytes} {rowFor:Bytes → Row}
 (hkeys:es.map Entry.key=l.map K) (hrow:∀ r∈l,rowFor (K r)=r) (visit:Row → α → α) (acc:α) :
 es.foldl (fun acc e=>visit (rowFor e.key) acc) acc=l.foldl (fun acc r=>visit r acc) acc := by
 calc es.foldl (fun acc e=>visit (rowFor e.key) acc) acc
   = (es.map Entry.key).foldl (fun acc k=>visit (rowFor k) acc) acc:=by rw [foldl_map]
  _=l.foldl (fun acc r=>visit (rowFor (K r)) acc) acc:=by rw [hkeys,foldl_map]
  _=l.foldl (fun acc r=>visit r acc) acc:=foldl_ext _ _ _ fun acc r hr=>by rw [hrow r hr]

def chosen (t:TableDef) (index:Bytes) : Option (Option IndexDef) :=
 if index=[] then some none else (t.indexes.find? fun i=>i.name == index).map some

lemma scan_chosen {α:Type} {catalog:Catalog} {fuel:ℕ} {table index:Bytes} {lower upper:Option Bound}
  {fn:Row → α → α × Bool} {acc:α} {reverse:Bool} (ht:catalog.table table=some t)
  (hidx:chosen t index=some idx) :
  scan catalog ps fuel table index lower upper reverse fn acc =
   scanRaw ps fuel t idx lower upper reverse (fun key acc=>do
    let row ← rowAt ps t idx key
    return fn row acc) acc := by
 simp only [scan,ht]
 unfold chosen at hidx
 split_ifs at hidx ⊢ with h
 · cases hidx
   rfl
 · obtain ⟨i,hfind,rfl⟩:=Option.map_eq_some_iff.mp hidx
   rw [hfind]

end Agreeing

/-! ## A table too tall to scan

One level of the tree for each row: the runs that make a tree uneven (`deep_tree_unreadable`) lead to
such shapes. -/

def countRow (j:ℕ) : Row := [.integer (Int64.ofNat j)]

def countEntry (j:ℕ) : Entry := ⟨encodeKey (countRow j),encodeRow (countRow j),[]⟩

def stairTable (root:ℕ) : TableDef where
 name := [116]
 columns:=[{ name:=[110],nullable:=false }]
 primaryKey:=[[110]]
 root:=root

def stair : ℕ → Tree
 | 0=>.leaf 1 [countEntry 0]
 | j+1=>.node (2*j+2) [(encodeKey (countRow (j+1)),stair j)] (.leaf (2*j+3) [countEntry (j+1)])

def stairTxn (k:ℕ) : WriteTxn where
 pageSize := 512
 committed p:=
  if p%2=1 then
   BTree.leafImage 512 [(countEntry (p/2)).cell 512] (p-2) (if p=2*k+1 then 0 else p+2)
  else BTree.interiorImage 512 [(encodeKey (countRow (p/2)),if p=2 then 1 else p-2)] (p+1)
 snapshotHeader:={ pageCount:=2*k+2 }
 header:={ pageCount:=2*k+2 }
 dirty _:=none
 freed:=[]
 finished:=false

lemma stairTxn_page (k p:ℕ) : (stairTxn k).page p=if p%2=1 then
  BTree.leafImage 512 [(countEntry (p/2)).cell 512] (p-2) (if p=2*k+1 then 0 else p+2)
 else BTree.interiorImage 512 [(encodeKey (countRow (p/2)),if p=2 then 1 else p-2)] (p+1) := rfl

lemma countKey_length (j:ℕ) : (encodeKey (countRow j)).length=9 := by
 simp [countRow,encodeKey,encodeKeyValue,be64Flipped,toLE_length]

lemma countKey_lt {i j:ℕ} (hij:i<j) (hj:j<2^63) : encodeKey (countRow i)<encodeKey (countRow j) := by
 have htypes:∀ i,OfTypes [.integer] (countRow i):=fun i=>.cons rfl .nil
 rw [← compareBytes_lt_iff,(ranks_encodeKey (htypes i) (htypes j)).compare_eq]
 have hto:∀ n<2^63,(Int64.ofNat n).toInt=n:=fun n hn=>Int64.toInt_ofNat_of_lt hn
 have hlt:Int64.ofNat i<Int64.ofNat j:=by
  rw [Int64.lt_iff_toInt_lt,hto i (by omega),hto j hj]
  exact_mod_cast hij
 simp [countRow,compareColumns,Value.compare,Value.compareInts,hlt]

lemma countRow_length (j:ℕ) : (encodeRow (countRow j)).length=11 := by
 simp [encodeRow,countRow,encodeValue,int64Bytes,toLE_length]

lemma countEntry_inline (j:ℕ) : (countEntry j).inline 512=true := by
 simp only [Entry.inline,countEntry,countKey_length,countRow_length]
 decide

lemma countEntry_cell_length (j:ℕ) : ((countEntry j).cell 512).length=27 := by
 rw [Entry.cell,countEntry_inline,if_pos rfl,buildLeafCell_length]
 simp [countEntry,countKey_length,countRow_length,kLeafCellHdr]

lemma countEntry_ok (j:ℕ) : (countEntry j).Ok 512 where
 key_ne := ne_nil_of_length_pos (by rw [countEntry,countKey_length]; decide)
 key_le:=by rw [countEntry,countKey_length]; decide
 value_lt:=by rw [countEntry,countRow_length]; decide
 chain_nil _:=rfl

section Stair
variable {k j:ℕ}

lemma stair_leaf (hk:k≤64) (hj:j≤k) : Fact.Holds 512 (stairTxn k) (.leaf (2*j+1) [countEntry j]) ∧
 Node.prev ((stairTxn k).page (2*j+1))=2*j-1 ∧
 Node.right ((stairTxn k).page (2*j+1))=if j=k then 0 else 2*j+3 := by
 have hpage:(stairTxn k).page (2*j+1) =
   BTree.leafImage 512 [(countEntry j).cell 512] (2*j-1) (if j=k then 0 else 2*j+3):=by
  rw [stairTxn_page,if_pos (by omega),show (2*j+1)/2=j by omega,show 2*j+1-2=2*j-1 by omega]
  simp
 have hcell:=Entry.cell_sized (countEntry_ok j) (by decide)
 obtain ⟨hs,hprev,hright⟩:=BTree.leafImage_slotted (by decide:kMinPageSize≤512) (by decide) [(countEntry j).cell 512]
  (2*j-1) (if j=k then 0 else 2*j+3) (by simpa using hcell) (by omega) (by split <;> omega)
  (by rw [weight_cons,weight_nil,countEntry_cell_length]; decide)
 rw [hpage]
 refine ⟨⟨hpage ▸ hs,?_⟩,hprev,hright⟩
 intro e he
 obtain rfl:=mem_singleton.mp he
 exact ⟨countEntry_ok j,fun h=>absurd (countEntry_inline j) (by rw [h]; decide)⟩

lemma stair_node (hk:k≤64) (hj:j<k) :
 Fact.Holds 512 (stairTxn k) (.node (2*j+2) [(encodeKey (countRow (j+1)),(stair j).page)] (2*j+3)) := by
 have hpage:(stairTxn k).page (2*j+2) =
   BTree.interiorImage 512 [(encodeKey (countRow (j+1)),(stair j).page)] (2*j+3):=by
  rw [stairTxn_page,if_neg (by omega),show (2*j+2)/2=j+1 by omega]
  cases j <;> rfl
 obtain ⟨hs,hright⟩:=BTree.interiorImage_slotted (by decide:kMinPageSize≤512) (by decide)
  [(encodeKey (countRow (j+1)),(stair j).page)] (2*j+3) (by simp [countKey_length]) (by omega)
  (by simp [countKey_length,kInteriorCellHdr,kHdr])
 rw [← hpage] at hs hright
 exact ⟨hs,hright,by simp [countKey_length]; decide⟩

lemma stair_facts (hk:k≤64) (hj:j≤k) : ∀ x∈(stair j).facts,x.Holds 512 (stairTxn k) ∧ x.Nonempty := by
 induction j with
 | zero=>
  intro x hx
  obtain rfl:=mem_singleton.mp hx
  exact ⟨(stair_leaf hk hj).1,cons_ne_nil _ _⟩
 | succ j ih=>
  intro x hx
  simp only [stair,Tree.facts,Tree.kidsFacts,append_nil,mem_cons,mem_append,not_mem_nil,or_false] at hx
  rcases hx with rfl | hx | rfl
  · exact ⟨stair_node hk hj,cons_ne_nil _ _⟩
  · exact ih (by omega) x hx
  · exact ⟨(stair_leaf hk hj).1,cons_ne_nil _ _⟩

lemma stair_marks (hj:j<2^63) : (stair j).marks.Pairwise (· < ·) ∧
 ∀ m∈(stair j).marks,m≤keyMark (encodeKey (countRow j)) := by
 induction j with
 | zero=>simp [stair,Tree.marks,countEntry]
 | succ j ih=>
  obtain ⟨hsort,hle⟩:=ih (by omega)
  have hnext:∀ m∈(stair j).marks,m<sepMark (encodeKey (countRow (j+1))):=fun m hm=>
   (hle m hm).trans_lt ((keyMark_lt_sepMark _ _).mpr (countKey_lt (Nat.lt_succ_self j) hj))
  have hlast:sepMark (encodeKey (countRow (j+1)))<keyMark (encodeKey (countRow (j+1))):=
   (sepMark_lt_keyMark _ _).mpr le_rfl
  have hmarks:(stair (j+1)).marks=(stair j).marks ++
    [sepMark (encodeKey (countRow (j+1))),keyMark (encodeKey (countRow (j+1)))]:=by
   simp [stair,Tree.marks,Tree.kidsMarks,countEntry]
  rw [hmarks]
  constructor
  · refine pairwise_append.mpr ⟨hsort,by simp [hlast],fun m hm m' hm'=>?_⟩
    rcases mem_pair.mp hm' with rfl | rfl
    · exact hnext m hm
    · exact (hnext m hm).trans hlast
  · intro m hm
    rcases mem_append.mp hm with hm | hm
    · exact ((hnext m hm).trans hlast).le
    · rcases mem_pair.mp hm with rfl | rfl
      · exact hlast.le
      · exact le_rfl

lemma stair_leaves (j:ℕ) : (stair j).leaves=(range' 0 (j+1)).map fun i=>(2*i+1,[countEntry i]) := by
 induction j with
 | zero=>rfl
 | succ j ih=>
  rw [range'_1_concat,map_append,← ih]
  rw [stair,node_leaves,kidsLeaves_cons,kidsLeaves_nil,leaf_leaves,append_nil,Nat.zero_add]
  rfl

lemma stair_linked (hk:k≤64) (n:ℕ) : ∀ i,i+n=k+1 → Linked (stairTxn k) (2*i-1) ((range' i n).map fun i=>2*i+1) 0 := by
 induction n with
 | zero=>exact fun _ _=>trivial
 | succ n ih=>
  intro i hi
  obtain ⟨-,hprev,hright⟩:=stair_leaf hk (show i≤k by omega)
  refine ⟨hprev,hright.trans ?_,?_⟩
  · cases n with
    | zero=>rw [if_pos (by omega)]; rfl
    | succ n=>rw [if_neg (by omega)]; rfl
  · exact ih (i+1) (by omega)

lemma stair_pages (j:ℕ) : (stair j).pages.Perm (range' 1 (2*j+1)) := by
 induction j with
 | zero=>rfl
 | succ j ih=>
  have hpages:(stair (j+1)).pages=(2*j+2)::((stair j).pages++[2*j+3]):=by
   simp [stair,Tree.pages,Tree.facts,Tree.kidsFacts,Fact.pages,countEntry]
  have hrange:range' 1 (2*(j+1)+1)=range' 1 (2*j+1)++[2*j+2,2*j+3]:=by
   rw [show 2*(j+1)+1=2*j+1+2 by omega,← range'_append_1]
   congr 1
   simp [range'_succ]
   omega
  rw [hpages,hrange]
  refine perm_middle.symm.trans ?_
  exact ih.append_right _

lemma stair_levels (j:ℕ) : (stair j).levels=j+1 := by
 induction j with
 | zero=>rfl
 | succ j ih=>
  simp only [stair,Tree.levels,Tree.levels.kidsLevels,ih]
  omega

lemma stair_page_le (j:ℕ) : (stair j).page≤2*j+1 := by
 cases j with
 | zero=>exact le_rfl
 | succ j=>exact (show 2*j+2≤2*(j+1)+1 by omega)

lemma stair_at (hk:k≤64) : TreeAt 512 (stairTxn k) (stair k) [] [] where
 pages :=
  { open_:=rfl
    size_eq:=rfl
    size_min:=by decide
    size_max:=by decide
    written:=fun p hp hp'=>absurd (show p<2*k+2 from hp) (not_lt.mpr hp')
    images:=by
      intro p hp
      replace hp:p<2*k+2:=hp
      obtain ⟨j,rfl | rfl⟩:∃ j,p=2*j ∨ p=2*j+1:=⟨p/2,by omega⟩
      · cases j with
        | zero=>
          rw [stairTxn_page,if_neg (by decide)]
          exact (BTree.interiorImage_slotted (by decide) (by decide) _ _ (by simp [countKey_length]) (by decide)
            (by simp [countKey_length,kInteriorCellHdr,kHdr])).1.length
        | succ j=>exact (stair_node hk (show j<k by omega)).1.length
      · exact (stair_leaf hk (show j≤k by omega)).1.1.length
    count_pos:=Nat.succ_pos _
    count_lt:=show 2*k+2<2^64 by omega
    perm:=by
      rw [append_nil,append_nil]
      exact stair_pages k
    chain:=rfl
    free_count:=rfl
    freed_free:=nofun }
 facts x hx:=(stair_facts hk le_rfl x hx).1
 sorted:=(stair_marks (by omega)).1
 linked:=by
  rw [Tree.leafPages,stair_leaves,map_map]
  exact stair_linked hk (k+1) 0 (by omega)
 filled:=.inr fun x hx=>(stair_facts hk le_rfl x hx).2

lemma stair_agrees (hk:k≤64) : Agrees 512 (stairTxn k) (stairTable (stair k).page) ((range' 0 (k+1)).map countRow) where
 table := by
  refine ⟨_,⟨stair k,[],[],stair_at hk,rfl,rfl⟩,?_⟩
  rw [Tree.entries,stair_leaves,flatMap_map,map_flatMap,map_map]
  simp only [map_cons,map_nil,← map_eq_flatMap]
  refine map_congr_left fun i _=>?_
  have hfits:RowFits (countRow i):=⟨by simp [countRow],by simp [countRow,payload]⟩
  exact Prod.ext rfl (decodeRow_encodeRow hfits)
 indexes:=nofun
 typed r hr:=by
  obtain ⟨i,-,rfl⟩:=mem_map.mp hr
  exact .cons rfl .nil

lemma stair_too_deep (hk:k≤64) (fuel:ℕ) (c:Cursor) (n:ℕ) : ∀ j,n≤j → j≤k →
 Cursor.seekFirstLoop fuel c n (stair j).page (stairTxn k) = (.error (corrupt "b-tree too deep"),stairTxn k) := by
 induction n with
 | zero=>exact fun _ _ _=>rfl
 | succ n ih=>
  intro j hn hj
  obtain ⟨j,rfl⟩:∃ i,j=i+1:=⟨j-1,by omega⟩
  obtain ⟨hs,-,-⟩:=stair_node hk (show j<k by omega)
  have hle:=stair_page_le j
  have hown:2*j+2∈(stair k).pages++[]:=by
   rw [append_nil,(stair_pages k).mem_iff,mem_range'_1]
   omega
  show Cursor.seekFirstLoop fuel c (n+1) (2*j+2) (stairTxn k)=_
  rw [Cursor.seekFirstLoop,bind_of_ok _ ((stair_at hk).pages.readPage_run (.inl hown)),
   if_neg (by rw [hs.isLeaf_eq]; decide),if_pos (by rw [node_count hs]; exact Nat.one_pos),
   node_child hs (c:=(encodeKey (countRow (j+1)),(stair j).page)) rfl (by dsimp only; omega)]
  exact ih j (by omega) (by omega)

end Stair

def stairCatalog (k:ℕ) : Catalog := { tables:=[([116],stairTable (stair k).page)] }

end Archivum.ReaderScan
