import Archivum.JournalRuns

set_option autoImplicit false

/-!
# A journal on syncs that lie

Every sync reports success and persists nothing, so all the operations of a
process are pending when the power goes, and any of them may reach the disk in
any order. Frames are written side by side and a hole is no record: as long as
the cut that an open made reaches the disk before the frames written after it,
what the next open finds is a prefix of what was there and what was appended.
-/
namespace Archivum.LyingSyncs
open ByteStrings StatefulActions PageTxn VfsModel JournalModel JournalFormat JournalRules CrashRules List Act
open JournalRuns

def bodyOf (f:Option Bytes) : Bytes := (f.getD []).drop kHeaderBytes

lemma getElem?_resize (b:Bytes) (n k:ℕ) :
 (resize b n)[k]? = if n≤k then none else if k<b.length then b[k]? else some 0 := by
 rw [resize]
 split_ifs with h1 h2
 · rw [getElem?_eq_none]
   simp only [length_append,length_take,length_replicate]
   omega
 · rw [getElem?_append_left (by rw [length_take]; omega),getElem?_take_of_lt (by omega)]
 · rw [getElem?_append_right (by rw [length_take]; omega),getElem?_replicate_of_lt]
   rw [length_take]
   omega

lemma getElem?_writeAt (b:Bytes) (off:ℕ) (data:Bytes) (k:ℕ) :
 (writeAt b off data)[k]? =
  if k<off then (if k<b.length then b[k]? else some 0)
  else if k<off+data.length then data[k-off]? else b[k]? := by
 rw [writeAt_eq]
 split_ifs with h1 h2 h3
 · rw [append_assoc,getElem?_append_left (by rw [resize_length]; exact h1),getElem?_resize,if_neg (by omega),if_pos h2]
 · rw [append_assoc,getElem?_append_left (by rw [resize_length]; exact h1),getElem?_resize,if_neg (by omega),if_neg h2]
 · rw [append_assoc,getElem?_append_right (by rw [resize_length]; omega),resize_length,getElem?_append_left (by omega)]
 · rw [getElem?_append_right (by rw [length_append,resize_length]; omega),length_append,resize_length,getElem?_drop]
   congr 1
   omega

lemma bodyOf_create (f:Option Bytes) : bodyOf (FileOp.create.apply f)=bodyOf f := by
 cases f <;> rfl

lemma bodyOf_header (f:Option Bytes) : bodyOf ((FileOp.write 0 makeHeader).apply f)=bodyOf f := by
 cases f with
 | none=>rfl
 | some b=>
  change (writeAt b 0 makeHeader).drop kHeaderBytes=b.drop kHeaderBytes
  rw [writeAt_zero,← makeHeader_length,drop_left]

lemma bodyOf_truncate (b:Bytes) (n:ℕ) :
 bodyOf ((FileOp.truncate (kHeaderBytes+n)).apply (some b))=resize (bodyOf (some b)) n := by
 change (resize b (kHeaderBytes+n)).drop kHeaderBytes=resize (b.drop kHeaderBytes) n
 apply ext_getElem?
 intro k
 rw [getElem?_drop,getElem?_resize,getElem?_resize,getElem?_drop,length_drop]
 split_ifs <;> first | rfl | omega

lemma bodyOf_write (b:Bytes) (n:ℕ) (data:Bytes) : bodyOf ((FileOp.write (kHeaderBytes+n) data).apply (some b)) =
  writeAt (bodyOf (some b)) n data := by
 change (writeAt b (kHeaderBytes+n) data).drop kHeaderBytes=writeAt (b.drop kHeaderBytes) n data
 apply ext_getElem?
 intro k
 rw [getElem?_drop,getElem?_writeAt,getElem?_writeAt,getElem?_drop,length_drop]
 split_ifs <;> first | rfl | omega | (congr 1; omega)

/-- Where the frame of `xs[i]` starts when `xs` follows `rs`. -/
def frameStart (rs xs:List Bytes) (i:ℕ) : ℕ := (framesOf (rs++xs.take i)).length

/-- The records `rs`, and behind them the frames of those `xs[i]` with `I i`; the other frames are
holes. -/
structure Filled (rs xs:List Bytes) (I:ℕ → Prop) (b:Bytes) : Prop where
 front : ∀ k<(framesOf rs).length,b[k]? = (framesOf rs)[k]?
 present : ∀ i x,xs[i]? = some x → I i → ∀ k<(frame x).length,
  b[frameStart rs xs i+k]? = (frame x)[k]?
 hole : ∀ i x,xs[i]? = some x → ¬I i → ∀ k<(frame x).length,
  b[frameStart rs xs i+k]? = none ∨ b[frameStart rs xs i+k]? = some 0
 past : ∀ k,(framesOf (rs++xs)).length ≤ k → b[k]? = none

section Filled
variable {rs xs:List Bytes} {I:ℕ → Prop} {b:Bytes}

lemma frameStart_zero (rs xs:List Bytes) : frameStart rs xs 0=(framesOf rs).length := by
 simp [frameStart]

lemma frameStart_succ (rs:List Bytes) {i:ℕ} {x:Bytes} (h:xs[i]? = some x) :
 frameStart rs xs (i+1)=frameStart rs xs i+(frame x).length := by
 rw [frameStart,frameStart,take_add_one,h,← append_assoc,framesOf_append,length_append]
 simp

lemma frameStart_mono (rs xs:List Bytes) {i j:ℕ} (h:i≤j) : frameStart rs xs i≤frameStart rs xs j := by
 induction h with
 | refl=>exact le_rfl
 | @step j _ ih=>
  refine ih.trans ?_
  cases hj:xs[j]? with
  | some x=>
   rw [frameStart_succ rs hj]
   omega
  | none=>
   rw [frameStart,frameStart,take_add_one,hj]
   simp

lemma frameStart_le (rs xs:List Bytes) (i:ℕ) : frameStart rs xs i≤(framesOf (rs++xs)).length := by
 have hle:=frameStart_mono rs xs (Nat.le_add_left i xs.length)
 have hall:frameStart rs xs (xs.length+i)=(framesOf (rs++xs)).length:=by
  rw [frameStart,take_of_length_le (by omega)]
 rwa [hall] at hle

lemma filled_frames (rs xs:List Bytes) : Filled rs xs (fun _=>False) (framesOf rs) where
 front _ _ := rfl
 present _ _ _ h:=h.elim
 hole i x _ _ k _:=by
  have hle:=frameStart_mono rs xs (Nat.zero_le i)
  rw [frameStart_zero] at hle
  exact Or.inl (getElem?_eq_none (by omega))
 past k hk:=by
  rw [framesOf_append,length_append] at hk
  exact getElem?_eq_none (by omega)

lemma Filled.long (h:Filled rs xs I b) : (framesOf rs).length≤b.length := by
 by_contra hshort
 have hnone:=h.front b.length (by omega)
 rw [getElem?_eq_none le_rfl,getElem?_eq_getElem (by omega)] at hnone
 cases hnone

lemma Filled.write (h:Filled rs xs I b) {i:ℕ} {x:Bytes} (hi:xs[i]? = some x) :
 Filled rs xs (fun j=>I j ∨ j=i) (writeAt b (frameStart rs xs i) (frame x)) := by
 have hfront:(framesOf rs).length≤frameStart rs xs i:=by
  rw [← frameStart_zero rs xs]
  exact frameStart_mono rs xs (Nat.zero_le i)
 have hend:=frameStart_succ rs hi
 have hlong:=h.long
 -- Frames of different records do not meet.
 have hapart:∀ j y,xs[j]? = some y → j≠i → ∀ k<(frame y).length,frameStart rs xs j+k<frameStart rs xs i ∨
    frameStart rs xs i+(frame x).length≤frameStart rs xs j+k:=by
  intro j y hj hne k hk
  have hj':=frameStart_succ rs hj
  rcases Nat.lt_or_gt_of_ne hne with hlt | hgt
  · have:=frameStart_mono rs xs (show j+1 ≤ i by omega)
    omega
  · have:=frameStart_mono rs xs (show i+1≤j by omega)
    omega
 refine ⟨fun k hk=>?_,fun j y hj hI k hk=>?_,fun j y hj hI k hk=>?_,fun k hk=>?_⟩
 · rw [getElem?_writeAt,if_pos (by omega),if_pos (by omega),h.front k hk]
 · by_cases hji:j=i
   · subst hji
     obtain rfl:=Option.some.inj (hi.symm.trans hj)
     rw [getElem?_writeAt,if_neg (by omega),if_pos (by omega),Nat.add_sub_cancel_left]
   · have hold:=h.present j y hj (hI.resolve_right hji) k hk
     have hsome:frameStart rs xs j+k<b.length:=by
      by_contra hshort
      rw [getElem?_eq_none (by omega),getElem?_eq_getElem hk] at hold
      cases hold
     rw [getElem?_writeAt]
     rcases hapart j y hj hji k hk with hlt | hge
     · rw [if_pos hlt,if_pos hsome,hold]
     · rw [if_neg (by omega),if_neg (by omega),hold]
 · have hji:j≠i:=fun hji=>hI (Or.inr hji)
   have hold:=h.hole j y hj (fun hI'=>hI (Or.inl hI')) k hk
   rw [getElem?_writeAt]
   rcases hapart j y hj hji k hk with hlt | hge
   · rw [if_pos hlt]
     split_ifs
     · exact hold
     · exact Or.inr rfl
   · rw [if_neg (by omega),if_neg (by omega)]
     exact hold
 · have hle:=frameStart_le rs xs (i+1)
   rw [getElem?_writeAt,if_neg (by omega),if_neg (by omega)]
   exact h.past k hk

lemma Filled.trim (h:Filled rs xs I b) : resize b (framesOf rs).length=framesOf rs := by
 apply ext_getElem?
 intro k
 rw [getElem?_resize]
 split_ifs with h1 h2
 · rw [getElem?_eq_none h1]
 · exact h.front k (by omega)
 · have:=h.front k (by omega)
   rw [getElem?_eq_none (by omega),getElem?_eq_getElem (by omega)] at this
   cases this

lemma Filled.bytes (h:Filled rs xs I b) : b=framesOf rs++b.drop (framesOf rs).length := by
 conv_lhs=>rw [← take_append_drop (framesOf rs).length b]
 rw [← resize_of_le b h.long,h.trim]

lemma Filled.scans {max:ℕ} (h:Filled rs xs I b) (hfits:∀ x∈rs++xs,Fits max x) :
 ∃ found tail,Scans max b found tail ∧ found <+: rs++xs := by
 induction xs generalizing rs I with
 | nil=>
  refine ⟨rs,[],⟨?_,by simpa using hfits,rejected_nil⟩,by simp⟩
  apply ext_getElem?
  intro k
  rw [append_nil]
  by_cases hk:k<(framesOf rs).length
  · exact h.front k hk
  · rw [getElem?_eq_none (l:=framesOf rs) (by omega)]
    exact h.past k (by rw [append_nil]; omega)
 | cons x xs ih=>
  have hx:(x::xs)[0]? = some x:=rfl
  have hstart:=frameStart_zero rs (x::xs)
  have hshift:∀ i,frameStart (rs++[x]) xs i=frameStart rs (x::xs) (i+1):=by
   intro i
   simp [frameStart]
  have hall:rs++x::xs=rs++[x]++xs:=by simp
  by_cases h0:I 0
  · -- The frame is there, and the scan goes on behind it.
    have hnext:Filled (rs++[x]) xs (fun i=>I (i+1)) b:=by
     refine ⟨fun k hk=>?_,fun i y hi hI k hk=>?_,fun i y hi hI k hk=>?_,fun k hk=>?_⟩
     · rw [framesOf_append,length_append,framesOf_cons,framesOf_nil,append_nil] at hk
       rw [framesOf_append,framesOf_cons,framesOf_nil,append_nil]
       by_cases hfront:k<(framesOf rs).length
       · rw [getElem?_append_left hfront]
         exact h.front k hfront
       · have hpresent:=h.present 0 x hx h0 (k-(framesOf rs).length) (by omega)
         rw [hstart,Nat.add_sub_cancel' (by omega)] at hpresent
         rw [getElem?_append_right (by omega)]
         exact hpresent
     · rw [hshift]
       exact h.present (i+1) y hi hI k hk
     · rw [hshift]
       exact h.hole (i+1) y hi hI k hk
     · exact h.past k (by rw [hall]; exact hk)
    rw [hall]
    exact ih hnext (by rw [← hall]; exact hfits)
  · refine ⟨rs,b.drop (framesOf rs).length,⟨?_,?_,?_⟩,prefix_append _ _⟩
    · exact h.bytes
    · exact fun y hy=>hfits y (mem_append_left _ hy)
    · -- Too short for a record, or its length reads as zero.
      by_cases hshort:(b.drop (framesOf rs).length).length<kRecordHeaderBytes
      · exact Or.inl hshort
      rw [kRecordHeaderBytes,length_drop] at hshort
      have hzero:(b.drop (framesOf rs).length).take 4=replicate 4 0:=by
       apply ext_getElem?
       intro k
       by_cases hk:k<4
       · have hbyte:=h.hole 0 x hx h0 k (by rw [frame_length,kRecordHeaderBytes]; omega)
         rw [hstart] at hbyte
         rw [getElem?_take_of_lt hk,getElem?_drop,getElem?_replicate_of_lt hk]
         refine hbyte.resolve_left ?_
         rw [getElem?_eq_getElem (by omega)]
         exact Option.some_ne_none _
       · rw [getElem?_eq_none (by rw [length_take]; omega),getElem?_eq_none (by rw [length_replicate]; omega)]
      rw [← take_append_drop 4 (b.drop (framesOf rs).length),hzero]
      exact rejected_zeros le_rfl _

end Filled

lemma scans_frames {max:ℕ} {rs:List Bytes} (h:∀ x∈rs,Fits max x) : Scans max (framesOf rs) rs [] :=
 ⟨by simp,h,rejected_nil⟩

lemma bodyOf_fileOf (rs:List Bytes) : bodyOf (some (fileOf rs))=framesOf rs := by
 change (makeHeader++framesOf rs).drop kHeaderBytes=framesOf rs
 rw [← makeHeader_length,drop_left]

def Whole (pending:List PendingOp) (survivors:List (ℕ × ℕ)) : Prop :=
 ∀ s∈survivors,∀ op∈pending[s.1]?,op.tear s.2=op

/-- A write at index `i` and a truncate of the same file at index `t`. -/
def writesOver (pending:List PendingOp) (i t:ℕ) : Bool :=
 match pending[i]?,pending[t]? with
 | some (.write p _ _),some (.truncate q _)=>p == q
 | _,_=>false

/-- A write reaches the disk after every truncate of its file that was issued before it; those in
`done` have already. -/
def CutsFirst (pending:List PendingOp) : List ℕ → List (ℕ × ℕ) → Prop
 | _,[]=>True
 | done,s::survivors=>
  (∀ t<s.1,writesOver pending s.1 t=true → t∈done) ∧ CutsFirst pending (s.1::done) survivors

instance decidableCutsFirst (pending:List PendingOp) (done:List ℕ) (survivors:List (ℕ × ℕ)) :
  Decidable (CutsFirst pending done survivors) :=
 match survivors with
 | []=>isTrue trivial
 | s::survivors=>
  have:=decidableCutsFirst pending (s.1::done) survivors
  inferInstanceAs (Decidable (_ ∧ _))

def InOrder (pending:List PendingOp) (survivors:List (ℕ × ℕ)) : Prop :=
 Whole pending survivors ∧ CutsFirst pending [] survivors

instance (pending:List PendingOp) (survivors:List (ℕ × ℕ)) : Decidable (InOrder pending survivors) :=
 have:Decidable (Whole pending survivors):=
  inferInstanceAs (Decidable (∀ s∈survivors,∀ op∈pending[s.1]?,op.tear s.2=op))
 inferInstanceAs (Decidable (_ ∧ _))

/-- What an open that found `rs` in front of `tail`, and appends of `xs`, leave pending. -/
structure Rewrites (rs xs:List Bytes) (tail:Bytes) (ops:List FileOp) : Prop where
 kind : ∀ op∈ops,op=.create ∨ op=.write 0 makeHeader ∨ op=.truncate (fileOf rs).length ∨
  ∃ i x,xs[i]? = some x ∧ op=.write (kHeaderBytes+frameStart rs xs i) (frame x)
 /-- A tail is cut off before anything is appended. -/
 cut : tail≠[] → ∃ t : ℕ,ops[t]? = some (FileOp.truncate (fileOf rs).length) ∧
  ∀ (i off:ℕ) (data:Bytes),ops[i]? = some (FileOp.write (kHeaderBytes+off) data) → t < i

section Survivors
variable {p:Path} {rs xs:List Bytes} {tail:Bytes} {ops cutOff:List FileOp}

lemma fileOf_length (rs:List Bytes) : (fileOf rs).length=kHeaderBytes+(framesOf rs).length := by
 rw [fileOf,length_append,makeHeader_length]

lemma header_ne_write {off:ℕ} {data:Bytes} : FileOp.write 0 makeHeader≠.write (kHeaderBytes+off) data := by
 intro h
 injection h with h
 rw [kHeaderBytes] at h
 omega

/-- The records, with those of the appended ones that reached the disk. -/
def Trimmed (rs xs:List Bytes) (y:Option Bytes) : Prop := ∃ I,Filled rs xs I (bodyOf y)

lemma Trimmed.frames {y:Option Bytes} (h:bodyOf y=framesOf rs) : Trimmed rs xs y := by
 refine ⟨fun _=>False,?_⟩
 rw [h]
 exact filled_frames rs xs

lemma Trimmed.of_body {y z:Option Bytes} (h:Trimmed rs xs y) (heq:bodyOf z=bodyOf y) : Trimmed rs xs z := by
 obtain ⟨I,hI⟩:=h
 exact ⟨I,by rw [heq]; exact hI⟩

lemma Trimmed.truncate {y:Option Bytes} {t:Bytes} (h:bodyOf y=framesOf rs++t) :
 Trimmed rs xs ((FileOp.truncate (fileOf rs).length).apply y) := by
 apply Trimmed.frames
 cases y with
 | none=>
  change []=framesOf rs++t at h
  exact (append_eq_nil_iff.mp h.symm).1.symm
 | some b=>rw [fileOf_length,bodyOf_truncate,h,resize_of_le _ (by simp),take_left]

lemma Trimmed.write {y:Option Bytes} (h:Trimmed rs xs y) {i:ℕ} {x:Bytes} (hi:xs[i]? = some x) :
 Trimmed rs xs ((FileOp.write (kHeaderBytes+frameStart rs xs i) (frame x)).apply y) := by
 obtain ⟨I,hI⟩:=h
 cases y with
 | none=>exact ⟨I,hI⟩
 | some b=>
  refine ⟨fun j=>I j ∨ j=i,?_⟩
  rw [bodyOf_write]
  exact hI.write hi

lemma writesOver_on {i t off size:ℕ} {data:Bytes} (hi:ops[i]? = some (FileOp.write off data))
 (ht:ops[t]? = some (FileOp.truncate size)) : writesOver (ops.map (FileOp.on p)) i t=true := by
 rw [writesOver,getElem?_map,getElem?_map,hi,ht]
 exact beq_self_eq_true p

/-- Before the tail is cut off nothing is written behind the header; afterwards only frames side by
side. -/
theorem survivors_trim {d:Option Bytes} (hd:bodyOf d=framesOf rs++tail)
 (hops:Rewrites rs xs tail ops) (hcutOff:cutOff <+: ops) (survivors:List (ℕ × ℕ)) (done:List ℕ)
 (hwhole:Whole (ops.map (FileOp.on p)) survivors) (hfirst:CutsFirst (ops.map (FileOp.on p)) done survivors) {y:Option Bytes}
 (hy:Trimmed rs xs y ∨ bodyOf y=bodyOf d ∧ tail≠[] ∧ ∀ t∈done,cutOff[t]?≠some (FileOp.truncate (fileOf rs).length)) :
 Trimmed rs xs ((surviving cutOff survivors).foldl FileOp.apply y) ∨
  bodyOf ((surviving cutOff survivors).foldl FileOp.apply y)=bodyOf d := by
 induction survivors generalizing done y with
 | nil=>exact hy.imp_right And.left
 | cons s survivors ih=>
  have hrest:Whole (ops.map (FileOp.on p)) survivors:=fun s' hs'=>hwhole s' (mem_cons_of_mem _ hs')
  obtain ⟨hnow,hlater⟩:=hfirst
  cases hop:cutOff[s.1]? with
  | none=>
   have hskip:surviving cutOff (s::survivors)=surviving cutOff survivors:=by
    rw [surviving,filterMap_cons,hop]
    rfl
   rw [hskip]
   refine ih (s.1::done) hrest hlater (hy.imp_right fun h=>⟨h.1,h.2.1,?_⟩)
   intro t ht
   rcases mem_cons.mp ht with rfl | ht
   · rw [hop]
     exact Option.some_ne_none _ ∘ Eq.symm
   · exact h.2.2 t ht
  | some op=>
   have hsame:∀ k ≤ s.1,ops[k]? = cutOff[k]?:=by
    intro k hk
    have hlt:=(List.getElem?_eq_some_iff.mp hop).1
    obtain ⟨more,rfl⟩:=hcutOff
    exact getElem?_append_left (by omega)
   have hall:ops[s.1]? = some op:=(hsame _ le_rfl).trans hop
   have htear:op.tear s.2=op:=by
    have hkept:=hwhole s mem_cons_self (op.on p) (by rw [getElem?_map,hall]; rfl)
    rw [FileOp.tear_on] at hkept
    exact FileOp.on_inj hkept
   have hnext:surviving cutOff (s::survivors)=op::surviving cutOff survivors:=by
    rw [surviving,filterMap_cons,hop,Option.map_some,htear]
    rfl
   rw [hnext,foldl_cons]
   refine ih (s.1::done) hrest hlater ?_
   have hkeep:bodyOf (op.apply y)=bodyOf y → op≠.truncate (fileOf rs).length →
     Trimmed rs xs (op.apply y) ∨ bodyOf (op.apply y)=bodyOf d ∧ tail≠[] ∧
      ∀ t∈s.1::done,cutOff[t]?≠some (FileOp.truncate (fileOf rs).length):=by
    intro hbody hne
    refine hy.imp (fun h=>h.of_body hbody) fun h=>
     ⟨hbody.trans h.1,h.2.1,fun t ht=>?_⟩
    rcases mem_cons.mp ht with rfl | ht
    · rw [hop]
      exact fun heq=>hne (Option.some.inj heq)
    · exact h.2.2 t ht
   rcases hops.kind op (mem_of_getElem? hall) with rfl | rfl | rfl | ⟨i,x,hi,rfl⟩
   · exact hkeep (bodyOf_create y) FileOp.noConfusion
   · exact hkeep (bodyOf_header y) FileOp.noConfusion
   · left
     rcases hy with ⟨I,hI⟩ | ⟨hbody,-⟩
     · exact Trimmed.truncate hI.bytes
     · exact Trimmed.truncate (hbody.trans hd)
   · left
     apply Trimmed.write _ hi
     rcases hy with h | ⟨-,htail,hdone⟩
     · exact h
     · -- The truncate that was issued before this write has reached the disk.
       obtain ⟨t,htrunc,hbefore⟩:=hops.cut htail
       have ht:=hbefore s.1 _ _ hall
       have hreached:=hnow t ht (writesOver_on hall htrunc)
       rw [hsame t ht.le] at htrunc
       exact absurd htrunc (hdone t hreached)

end Survivors

/-- The contents a power loss can leave while `ops` are being issued. -/
def Cut (A:List (ℕ × ℕ) → Prop) (d:Option Bytes) (ops:List FileOp) (x:Option Bytes) : Prop :=
 ∃ cutOff,cutOff <+: ops ∧ Outcome A d cutOff x

def headerOps : Option Bytes → List FileOp
 | none=>[.create,.write 0 makeHeader]
 | some b=>
  if slice b 0 kHeaderBytes=makeHeader then []
  else (if b.length<kHeaderBytes then [.truncate kHeaderBytes] else [])++[.write 0 makeHeader]

def cutOps (rs:List Bytes) (tail:Bytes) : List FileOp :=
 if tail=[] then [] else [.truncate (fileOf rs).length]

section Rules
variable {A:List (ℕ × ℕ) → Prop} {p:Path} {options:Options} {f d:Option Bytes} {ops:List FileOp}
 {rs:List Bytes} {tail:Bytes} {σ:Vfs}

lemma Lost.cut {cutOff:List FileOp} (h:Lost A p (Outcome A d cutOff) σ) (hcut:cutOff <+: ops) : Lost A p (Cut A d ops) σ :=
 h.mono fun _ hx=>⟨cutOff,hcut,hx⟩

lemma syncOr_false_rule : Act.Triple (On A p f d ops) (File.syncOr false p) (fun _=>On A p f d ops)
  fun _=>Lost A p (Outcome A d ops) :=
 plainOperation_rule fun σ h=>⟨(),σ,rfl,h⟩

lemma syncDirectoryOr_false_rule (dir:Path) :
 Act.Triple (On A p f d ops) (Vfs.syncDirectoryOr false dir) (fun _=>On A p f d ops) fun _=>Lost A p (Outcome A d ops) :=
 plainOperation_rule fun σ h=>⟨(),σ,rfl,h⟩

lemma recoverRecords_false_rule {body:Bytes} (rewritten:Bool) (h:Scans options.maxRecordBytes.toNat body rs tail) :
 Act.Triple (On A p (some (makeHeader++body)) d ops) (recoverRecords false p options (makeHeader++body).length rewritten)
  (fun j σ=>Holds p options rs j ∧ On A p (some (fileOf rs)) d (ops++cutOps rs tail) σ)
  fun _=>Lost A p (Cut A d (ops++cutOps rs tail)) := by
 rw [recoverRecords]
 refine Triple.bind ((scanFile_rule h).onError fun _ _ hl=>Lost.cut hl (prefix_append _ _))
  fun found=>Triple.fact fun hfound=>?_
 rw [hfound]
 refine Triple.bind (Q:=fun _=>On A p (some (fileOf rs)) d (ops++cutOps rs tail))
  (Triple.onlyIf (fun hcut=>?_) fun hnot σ hσ=>?_) fun _=>
   Triple.pure fun σ hσ=>⟨Scans.holds h _ _,hσ⟩
 · rw [cutOps,if_neg fun htail=>hcut ((Scans.tail_nil h).mp htail)]
   refine Triple.bind ((truncate_rule _).onError fun _ _ hl=>Lost.cut hl (prefix_append _ _)) fun _=>?_
   rw [Scans.resize_file h]
   exact syncOr_false_rule.onError fun _ _ hl=>Lost.cut hl (prefix_refl _)
 · have hnil:=(Scans.tail_nil h).mpr (not_not.mp hnot)
   rw [cutOps,if_pos hnil,append_nil]
   rw [Scans.file h,hnil,append_nil] at hσ
   exact hσ

lemma repairHeader_false_rule (b:Bytes) : Act.Triple (On A p (some b) d ops) (repairHeader false p b.length)
  (fun r σ=>r.1=(makeHeader++bodyOf (some b)).length ∧
   On A p (some (makeHeader++bodyOf (some b))) d (ops++headerOps (some b)) σ)
  fun _=>Lost A p (Cut A d (ops++headerOps (some b))) := by
 refine Triple.bind ((read_rule _ _).onError fun _ _ hl=>Lost.cut hl (prefix_append _ _))
  fun header=>Triple.fact fun hheader=>?_
 rw [hheader,headerOps]
 refine Triple.ite (fun hok=>?_) fun hbad=>?_
 · have hb:makeHeader++bodyOf (some b)=b:=by
    rw [← hok.2,slice,drop_zero]
    exact take_append_drop _ _
   rw [if_pos hok.2,append_nil,hb]
   exact Triple.pure fun σ hσ=>⟨rfl,hσ⟩
 · have hne:slice b 0 kHeaderBytes≠makeHeader:=fun heq=>
    hbad ⟨by rw [heq,makeHeader_length],heq⟩
   rw [if_neg hne]
   have hgrow:Act.Triple (On A p (some b) d ops) (onlyIf (b.length<kHeaderBytes) (File.truncate p kHeaderBytes))
     (fun _ σ=>∃ b',(b'.length=max b.length kHeaderBytes ∧ b'.drop kHeaderBytes=b.drop kHeaderBytes) ∧
      On A p (some b') d (ops++if b.length<kHeaderBytes then [.truncate kHeaderBytes] else []) σ)
     fun _=>Lost A p (Outcome A d ops):=by
    refine Triple.onlyIf (fun hshort=>?_) fun hlong σ hσ=>?_
    · refine (truncate_rule _).post fun _ σ hσ=>⟨_,⟨?_,?_⟩,by rw [if_pos hshort]; exact hσ⟩
      · rw [resize_length]
        omega
      · rw [drop_of_length_le (by rw [resize_length]),drop_of_length_le (by omega)]
    · rw [if_neg hlong,append_nil]
      exact ⟨b,⟨by omega,rfl⟩,hσ⟩
   rw [← append_assoc]
   refine Triple.bind (hgrow.onError fun _ _ hl=>Lost.cut hl ?_) fun _=>Triple.exists_fact fun b'=>
    Triple.fact fun hgrown=>?_
   · rw [append_assoc]
     exact prefix_append _ _
   obtain ⟨hlen,hdrop⟩:=hgrown
   refine Triple.bind ((write_rule _ _).onError fun _ _ hl=>Lost.cut hl (prefix_refl _)) fun _=>?_
   refine Triple.bind (syncOr_false_rule.onError fun _ _ hl=>Lost.cut hl (prefix_refl _)) fun _=>?_
   refine Triple.bind ((syncDirectoryOr_false_rule _).onError fun _ _ hl=>
    Lost.cut hl (prefix_refl _)) fun _=>?_
   rw [writeAt_zero,makeHeader_length,hdrop]
   refine Triple.pure fun σ hσ=>⟨?_,hσ⟩
   rw [length_append,makeHeader_length,bodyOf,Option.getD_some,length_drop]
   omega

lemma openJournal_false_rule (h:Scans options.maxRecordBytes.toNat (bodyOf f) rs tail) :
 Act.Triple (On A p f d ops) (openJournal false p options) (fun j σ=>Holds p options rs j ∧
   On A p (some (fileOf rs)) d (ops++headerOps f++cutOps rs tail) σ)
  fun _=>Lost A p (Cut A d (ops++headerOps f++cutOps rs tail)) := by
 have hstart:∀ σ,Lost A p (Outcome A d ops) σ →
   Lost A p (Cut A d (ops++headerOps f++cutOps rs tail)) σ:=by
  intro σ hl
  rw [append_assoc]
  exact Lost.cut hl (prefix_append _ _)
 refine Triple.bind (pathExists_rule.onError fun _ _ hl=>hstart _ hl) fun present=>
  Triple.fact fun hpresent=>?_
 cases f with
 | none=>
  have hnone:Scans options.maxRecordBytes.toNat (bodyOf none) [] []:=
   ⟨rfl,(fun _ hx=>nomatch hx),rejected_nil⟩
  obtain ⟨rfl,rfl⟩:=h.unique options.maxRecordBytes.toNat_lt hnone
  refine Triple.bind (createFile_rule.onError fun _ _ hl=>hstart _ hl) fun _=>?_
  have hlist:ops++headerOps none++cutOps [] []=ops++[.create]++[.write 0 makeHeader]:=by
   simp [headerOps,cutOps]
  rw [hpresent,Option.isSome_none,if_neg (by simp),createNew,hlist]
  refine Triple.bind ((write_rule _ _).onError fun _ _ hl=>Lost.cut hl (prefix_refl _)) fun _=>?_
  refine Triple.bind (syncOr_false_rule.onError fun _ _ hl=>Lost.cut hl (prefix_refl _)) fun _=>?_
  refine Triple.bind ((syncDirectoryOr_false_rule _).onError fun _ _ hl=>
   Lost.cut hl (prefix_refl _)) fun _=>?_
  have hwritten:writeAt [] 0 makeHeader=fileOf []:=by
   rw [writeAt_zero,drop_nil,fileOf,framesOf_nil]
  rw [hwritten]
  exact Triple.pure fun σ hσ=>⟨⟨rfl,rfl,rfl,rfl,⟨rfl,rfl⟩,by simp⟩,hσ⟩
 | some b=>
  refine Triple.bind (openFile_rule.onError fun _ _ hl=>hstart _ hl) fun _=>?_
  rw [hpresent,Option.isSome_some,if_pos rfl,recover]
  refine Triple.bind (size_rule.onError fun _ _ hl=>hstart _ hl) fun size=>
   Triple.fact fun hsize=>?_
  rw [hsize]
  refine Triple.bind ((repairHeader_false_rule b).onError fun _ _ hl=>hl.mono fun x hx=>?_) fun r=>
   Triple.fact fun hr=>?_
  · obtain ⟨cutOff,hcut,hx⟩:=hx
    exact ⟨cutOff,hcut.trans (prefix_append _ _),hx⟩
  · rw [hr]
    exact recoverRecords_false_rule r.2 h

lemma append_false_rule (x:Bytes) :
 Act.Triple (fun s : JournalIO=>Holds p options rs s.journal ∧ On A p (some (fileOf rs)) d ops s.vfs)
  (Journal.append false x) (fun _ s=>Holds p options (rs++[x]) s.journal ∧
   On A p (some (fileOf (rs++[x]))) d (ops++[.write (fileOf rs).length (frame x)]) s.vfs)
  fun _ s=>(Holds p options rs s.journal ∧ On A p (some (fileOf rs)) d ops s.vfs) ∧
    ¬Fits options.maxRecordBytes.toNat x ∨ Fits options.maxRecordBytes.toNat x ∧
    Lost A p (Cut A d (ops++[.write (fileOf rs).length (frame x)])) s.vfs := by
 refine append_of_write x fun _=>?_
 refine Triple.bind ((write_rule _ _).onError fun _ _ hl=>Lost.cut hl (prefix_refl _)) fun _=>?_
 rw [writeAt_fileOf]
 exact Triple.onlyIf (fun _=>syncOr_false_rule.onError fun _ _ hl=>Lost.cut hl (prefix_refl _)) fun _ σ hσ=>hσ

end Rules

section Pending
variable {max:ℕ} {p:Path} {rs xs:List Bytes} {tail:Bytes} {ops:List FileOp} {f d:Option Bytes}

lemma Cut.found (hd:Scans max (bodyOf d) rs tail) (hfits:∀ x∈rs++xs,Fits max x)
 (hops:Rewrites rs xs tail ops) {x:Option Bytes} (hx:Cut (InOrder (ops.map (FileOp.on p))) d ops x) :
 ∃ found tail',Scans max (bodyOf x) found tail' ∧ found <+: rs++xs := by
 obtain ⟨cutOff,hcut,survivors,⟨hwhole,hfirst⟩,rfl⟩:=hx
 have hstart:Trimmed rs xs d ∨ bodyOf d=bodyOf d ∧ tail≠[] ∧
   ∀ t∈([]:List ℕ),cutOff[t]?≠some (FileOp.truncate (fileOf rs).length):=by
  by_cases htail:tail=[]
  · left
    apply Trimmed.frames
    rw [hd.bytes,htail,append_nil]
  · exact Or.inr ⟨rfl,htail,fun _ ht=>absurd ht not_mem_nil⟩
 rcases survivors_trim hd.bytes hops hcut survivors [] hwhole hfirst hstart with ⟨I,hI⟩ | hsame
 · exact hI.scans hfits
 · rw [hsame]
   exact ⟨rs,tail,hd,prefix_append _ _⟩

lemma Rewrites.open (h:Scans max (bodyOf f) rs tail) (hmax:max<2^32) :
 Rewrites rs [] tail (headerOps f++cutOps rs tail) := by
 have hheader:∀ op∈headerOps f,op=.create ∨ op=.write 0 makeHeader ∨ op=.truncate (fileOf rs).length:=by
  intro op hop
  cases f with
  | none=>
   rcases mem_cons.mp hop with rfl | hop
   · exact Or.inl rfl
   · exact Or.inr (Or.inl (mem_singleton.mp hop))
  | some b=>
   rw [headerOps] at hop
   split_ifs at hop with h1 h2
   · cases hop
   · rcases mem_append.mp hop with hop | hop
     · -- A file shorter than the header has no records.
       have hnil:bodyOf (some b)=framesOf []:=drop_of_length_le h2.le
       rw [hnil] at h
       obtain ⟨rfl,-⟩:=h.unique hmax (scans_frames (by simp))
       rw [fileOf_length]
       exact Or.inr (Or.inr (mem_singleton.mp hop))
     · exact Or.inr (Or.inl (mem_singleton.mp hop))
   · exact Or.inr (Or.inl (mem_singleton.mp hop))
 have hcuts:∀ op∈cutOps rs tail,op=.truncate (fileOf rs).length:=by
  intro op hop
  rw [cutOps] at hop
  split_ifs at hop
  · cases hop
  · exact mem_singleton.mp hop
 refine ⟨fun op hop=>?_,fun htail=>⟨(headerOps f).length,?_,fun i off data hi=>?_⟩⟩
 · rcases mem_append.mp hop with hop | hop
   · rcases hheader op hop with h | h | h
     · exact Or.inl h
     · exact Or.inr (Or.inl h)
     · exact Or.inr (Or.inr (Or.inl h))
   · exact Or.inr (Or.inr (Or.inl (hcuts op hop)))
 · rw [cutOps,if_neg htail,getElem?_append_right le_rfl,Nat.sub_self]
   rfl
 · rcases mem_append.mp (mem_of_getElem? hi) with hop | hop
   · rcases hheader _ hop with h | h | h
     · cases h
     · exact absurd h.symm header_ne_write
     · cases h
   · cases hcuts _ hop

lemma frameStart_append (rs xs ys:List Bytes) {i:ℕ} (hi:i≤xs.length) : frameStart rs (xs++ys) i=frameStart rs xs i := by
 rw [frameStart,frameStart,take_append_of_le_length hi]

lemma Rewrites.append (h:Rewrites rs xs tail ops) (x:Bytes) :
 Rewrites rs (xs++[x]) tail (ops++[.write (fileOf (rs++xs)).length (frame x)]) := by
 refine ⟨fun op hop=>?_,fun htail=>?_⟩
 · rcases mem_append.mp hop with hop | hop
   · rcases h.kind op hop with h | h | h | ⟨i,y,hi,rfl⟩
     · exact Or.inl h
     · exact Or.inr (Or.inl h)
     · exact Or.inr (Or.inr (Or.inl h))
     · have hlt:=(List.getElem?_eq_some_iff.mp hi).1
       refine Or.inr (Or.inr (Or.inr ⟨i,y,?_,?_⟩))
       · rw [getElem?_append_left hlt,hi]
       · rw [frameStart_append rs xs [x] hlt.le]
   · refine Or.inr (Or.inr (Or.inr ⟨xs.length,x,by simp,?_⟩))
     rw [mem_singleton.mp hop,frameStart_append rs xs [x] le_rfl,fileOf_length,frameStart,take_length]
 · obtain ⟨t,ht,hbefore⟩:=h.cut htail
   have hlt:=(List.getElem?_eq_some_iff.mp ht).1
   refine ⟨t,by rw [List.getElem?_append_left hlt,ht],fun i off data hi=>?_⟩
   by_cases hi':i<ops.length
   · rw [getElem?_append_left hi'] at hi
     exact hbefore i off data hi
   · omega

end Pending

section Runs
variable (path:Path) (options:Options)

/-- At every power loss of the event, what survives of what is pending then is whole and reaches the
disk in order. -/
def Event.LosesInOrder : Event → World → Prop
 | .open cuts,w=>∀ survivors,some survivors∈cuts →
  InOrder (openJournal false path options (facing [] w.vfs)).2.pending survivors
 | .append payload cuts,w=>∀ j,w.journal=some j → ∀ survivors,some survivors∈cuts →
  InOrder (Journal.append false payload ⟨facing [] w.vfs,j⟩).2.vfs.pending survivors
 | .powerLoss survivors,w=>InOrder w.vfs.pending survivors

/-- Power is on, and everything since the last power loss is pending. -/
structure Live (d:Option Bytes) (rs xs:List Bytes) (tail:Bytes) (ops:List FileOp) (σ:Vfs) : Prop where
 alive : σ.crashed=false
 file : σ.files.find path=some (fileOf (rs++xs))
 durable : σ.durable.find path=d
 pending : σ.pending=ops.map (FileOp.on path)
 scans : Scans options.maxRecordBytes.toNat (bodyOf d) rs tail
 rewrites : Rewrites rs xs tail ops

structure LyingInv (w:World) : Prop where
 running : ∀ j,w.journal=some j → ∃ R d rs xs tail ops,w.found=some R ∧ w.inFlight=none ∧
  R++w.acked=rs++xs ∧ Holds path options (rs++xs) j ∧ Live path options d rs xs tail ops w.vfs
 stopped : w.journal=none → ∃ f,Rest path f w.vfs ∧ ∀ R,w.found=some R → ∃ rs tail,
  Scans options.maxRecordBytes.toNat (bodyOf f) rs tail ∧ rs <+: R++w.acked++w.inFlight.toList

end Runs

section Steps
variable {path:Path} {options:Options} {w:World} {d:Option Bytes} {rs xs:List Bytes} {tail:Bytes}
 {ops:List FileOp} {σ:Vfs} {A:List (ℕ × ℕ) → Prop}

lemma Live.on (h:Live path options d rs xs tail ops σ) (cuts:List (Option (List (ℕ × ℕ))))
 (hA:∀ s,some s∈cuts → A s) : On A path (some (fileOf (rs++xs))) d ops (facing cuts σ) :=
 ⟨h.alive,sound_facing hA σ,h.file,h.durable,h.pending⟩

lemma LyingInv.reboot {C:Option Bytes → Prop} (hlost:Lost A path C σ) (hC:∀ R,w.found=some R → ∀ f,C f → ∃ rs tail,
  Scans options.maxRecordBytes.toNat (bodyOf f) rs tail ∧ rs <+: R++w.acked++w.inFlight.toList) :
 LyingInv path options (w.reboot σ) := by
 obtain ⟨f,hf,hrest⟩:=hlost.recover
 exact ⟨(fun _ hj=>nomatch hj),fun _=>⟨f,hrest,fun R hR=>hC R hR f hf⟩⟩

lemma headerOps_fileOf (rs:List Bytes) : headerOps (some (fileOf rs))=[] := by
 have hslice:slice (fileOf rs) 0 kHeaderBytes=makeHeader:=by
  rw [fileOf,slice_append_left _ _ _ _ (by simp),← makeHeader_length,slice_all]
 rw [headerOps,if_pos hslice]

lemma LyingInv.opens (h:LyingInv path options w) : ∃ f d ops rs xs tail rest,
 (∀ (A:List (ℕ × ℕ) → Prop) cuts,(∀ s,some s∈cuts → A s) → On A path f d ops (facing cuts w.vfs)) ∧
 Scans options.maxRecordBytes.toNat (bodyOf f) (rs++xs) rest ∧ Scans options.maxRecordBytes.toNat (bodyOf d) rs tail ∧
 Rewrites rs xs tail (ops++headerOps f++cutOps (rs++xs) rest) ∧
 ∀ R,w.found=some R → rs++xs <+: R++w.acked++w.inFlight.toList := by
 cases hj:w.journal with
 | some j=>
  obtain ⟨R,d,rs,xs,tail,ops,hR,hin,hall,hholds,hlive⟩:=h.running j hj
  refine ⟨some (fileOf (rs++xs)),d,ops,rs,xs,tail,[],fun A cuts hA=>hlive.on cuts hA,?_,hlive.scans,?_,fun R' hR'=>?_⟩
  · rw [bodyOf_fileOf]
    exact scans_frames hholds.fits
  · rw [headerOps_fileOf,cutOps,if_pos rfl,append_nil,append_nil]
    exact hlive.rewrites
  · obtain rfl:=Option.some.inj (hR.symm.trans hR')
    rw [hall]
    exact prefix_append _ _
 | none=>
  obtain ⟨f,hrest,hfound⟩:=h.stopped hj
  obtain ⟨rs,tail,hscan⟩:=scans_exists options.maxRecordBytes.toNat (bodyOf f)
  refine ⟨f,f,[],rs,[],tail,tail,fun A cuts hA=>hrest.on cuts hA,?_,hscan,?_,fun R hR=>?_⟩
  · rw [append_nil]
    exact hscan
  · rw [append_nil,nil_append]
    exact Rewrites.open hscan options.maxRecordBytes.toNat_lt
  · obtain ⟨rs',tail',hscan',hle⟩:=hfound R hR
    obtain ⟨rfl,-⟩:=hscan.unique options.maxRecordBytes.toNat_lt hscan'
    rw [append_nil]
    exact hle

lemma LyingInv.open (h:LyingInv path options w) (cuts:List (Option (List (ℕ × ℕ))))
 (hcuts:Event.LosesInOrder path options (.open cuts) w) :
 LyingInv path options ((Event.open cuts).step false path options w) := by
 obtain ⟨f,d,ops,rs,xs,tail,rest,hon,hf,hd,hops,hfound⟩:=h.opens
 have hpending:(openJournal false path options (facing [] w.vfs)).2.pending =
   (ops++headerOps f++cutOps (rs++xs) rest).map (FileOp.on path):=by
  obtain ⟨j,σ',hrun,-,hon'⟩:=(openJournal_false_rule hf).run
   (hon (fun _=>False) [] fun _ hs=>absurd hs not_mem_nil) fun _ _ hlost=>hlost.allowed.elim fun _ h=>h
  rw [hrun]
  exact hon'.pending
 have hpost:=openJournal_false_rule hf _ (hon (InOrder ((ops++headerOps f ++
  cutOps (rs++xs) rest).map (FileOp.on path))) cuts fun s hs=>by rw [← hpending]; exact hcuts s hs)
 rw [Event.step]
 rcases hrun:openJournal false path options (facing cuts w.vfs) with ⟨r,σ⟩
 rw [hrun] at hpost
 cases r with
 | ok j=>
  obtain ⟨hholds,hon'⟩:=hpost
  refine ⟨fun j' hj'=>?_,fun hno=>by cases hno⟩
  cases hj'
  refine ⟨rs++xs,d,rs,xs,tail,_,congrArg some (Holds.contents hholds hon'.file),rfl,
   append_nil _,hholds,hon'.alive,hon'.file,hon'.durable,hon'.pending,hd,hops⟩
 | error e=>
  have hlost:Lost _ path _ σ:=hpost
  simp only [hlost.crashed,if_true]
  refine LyingInv.reboot hlost fun R hR x hx=>?_
  obtain ⟨found,tail',hscan,hle⟩:=Cut.found hd hf.fits hops hx
  exact ⟨found,tail',hscan,hle.trans (hfound R hR)⟩

lemma LyingInv.append (h:LyingInv path options w) (payload:Bytes) (cuts:List (Option (List (ℕ × ℕ))))
 (hcuts:Event.LosesInOrder path options (.append payload cuts) w) :
 LyingInv path options ((Event.append payload cuts).step false path options w) := by
 rw [Event.step]
 cases hj:w.journal with
 | none=>exact h
 | some j=>
  obtain ⟨R,d,rs,xs,tail,ops,hR,hin,hall,hholds,hlive⟩:=h.running j hj
  have hmore:rs++(xs++[payload])=rs++xs++[payload]:=(append_assoc _ _ _).symm
  have hops:=hlive.rewrites.append payload
  -- An append that is refused, or not.
  by_cases hfits:Fits options.maxRecordBytes.toNat payload
  · have hpending:(Journal.append false payload ⟨facing [] w.vfs,j⟩).2.vfs.pending =
      (ops++[FileOp.write (fileOf (rs++xs)).length (frame payload)]).map (FileOp.on path):=by
     obtain ⟨_,s,hrun,-,hon⟩:=(append_false_rule payload).run
      (s:=⟨facing [] w.vfs,j⟩) ⟨hholds,hlive.on (A:=fun _=>False) [] fun _ hs=>absurd hs not_mem_nil⟩
      fun _ _ hbad=>by
       rcases hbad with ⟨-,hno⟩ | ⟨-,hlost⟩
       · exact hno hfits
       · exact hlost.allowed.elim fun _ h=>h
     rw [hrun]
     exact hon.pending
    have hpost:=append_false_rule payload ⟨facing cuts w.vfs,j⟩ ⟨hholds,hlive.on (A:=InOrder
     ((ops++[FileOp.write (fileOf (rs++xs)).length (frame payload)]).map (FileOp.on path))) cuts
      fun s hs=>by rw [← hpending]; exact hcuts j hj s hs⟩
    simp only
    rcases hrun:Journal.append false payload ⟨facing cuts w.vfs,j⟩ with ⟨r,s⟩
    rw [hrun] at hpost
    cases r with
    | ok _=>
     obtain ⟨hholds',hon⟩:=hpost
     refine ⟨fun j' hj'=>?_,fun hno=>by cases hno⟩
     cases hj'
     refine ⟨R,d,rs,xs++[payload],tail,_,hR,hin,?_,?_,hon.alive,?_,hon.durable,hon.pending,hlive.scans,hops⟩
     · change R++(w.acked++[payload])=_
       rw [← append_assoc,hall,hmore]
     · rw [hmore]
       exact hholds'
     · rw [hmore]
       exact hon.file
    | error e=>
     rcases hpost with ⟨-,hno⟩ | ⟨-,hlost⟩
     · exact absurd hfits hno
     · simp only [hlost.crashed,if_true]
       refine LyingInv.reboot (w:={ w with inFlight:=some payload }) hlost fun R' hR' x hx=>?_
       obtain rfl:=Option.some.inj (hR.symm.trans hR')
       have hall':∀ y∈rs++(xs++[payload]),Fits options.maxRecordBytes.toNat y:=by
        intro y hy
        rw [hmore] at hy
        rcases mem_append.mp hy with hy | hy
        · exact hholds.fits y hy
        · rw [mem_singleton.mp hy]
          exact hfits
       obtain ⟨found,tail',hscan,hle⟩:=Cut.found hlive.scans hall' hops hx
       refine ⟨found,tail',hscan,?_⟩
       rw [hmore,← hall] at hle
       exact hle
  · have hpost:=append_false_rule payload ⟨facing cuts w.vfs,j⟩ ⟨hholds,hlive.on (A:=fun _=>True) cuts fun _ _=>trivial⟩
    simp only
    rcases hrun:Journal.append false payload ⟨facing cuts w.vfs,j⟩ with ⟨r,s⟩
    rw [hrun] at hpost
    cases r with
    | ok _=>exact absurd (hpost.1.fits payload (by simp)) hfits
    | error e=>
     rcases hpost with ⟨⟨hholds',hon⟩,-⟩ | ⟨hyes,-⟩
     · simp only [hon.alive,Bool.false_eq_true,if_false]
       refine ⟨fun j' hj'=>?_,fun hno=>by cases hno⟩
       cases hj'
       exact ⟨R,d,rs,xs,tail,ops,hR,hin,hall,hholds',hon.alive,hon.file,hon.durable,hon.pending,hlive.scans,hlive.rewrites⟩
     · exact absurd hyes hfits

lemma LyingInv.powerLoss (h:LyingInv path options w) (survivors:List (ℕ × ℕ))
 (hloss:Event.LosesInOrder path options (.powerLoss survivors) w) :
 LyingInv path options ((Event.powerLoss survivors).step false path options w) := by
 cases hj:w.journal with
 | none=>
  obtain ⟨f,hrest,hfound⟩:=h.stopped hj
  exact ⟨(fun _ hj=>nomatch hj),fun _=>⟨f,hrest.crash survivors,hfound⟩⟩
 | some j=>
  obtain ⟨R,d,rs,xs,tail,ops,hR,hin,hall,hholds,hlive⟩:=h.running j hj
  have hon:On (InOrder (ops.map (FileOp.on path))) path (some (fileOf (rs++xs))) d ops
    (facing [] w.vfs):=hlive.on [] fun _ hs=>absurd hs not_mem_nil
  have hS:InOrder (ops.map (FileOp.on path)) survivors:=by
   rw [← hlive.pending]
   exact hloss
  have hcrash:=hon.crash hS
  have hlost:Lost (InOrder (ops.map (FileOp.on path))) path (Cut _ d ops) (w.vfs.crash survivors):=
   Lost.cut ⟨hcrash.crashed,hcrash.allowed,hcrash.durable⟩ (prefix_refl _)
  refine LyingInv.reboot hlost fun R' hR' x hx=>?_
  obtain rfl:=Option.some.inj (hR.symm.trans hR')
  obtain ⟨found,tail',hscan,hle⟩:=Cut.found hlive.scans hholds.fits hlive.rewrites hx
  exact ⟨found,tail',hscan,by rw [hall]; exact hle.trans (prefix_append _ _)⟩

lemma LyingInv.step (h:LyingInv path options w) (e:Event)
 (he:Event.LosesInOrder path options e w) : LyingInv path options (e.step false path options w) := by
 cases e with
 | «open» cuts=>exact h.open cuts he
 | append payload cuts=>exact h.append payload cuts he
 | powerLoss survivors=>exact h.powerLoss survivors he

end Steps

/-- In every run in which what survives is whole and no write reaches the disk before a truncate that
was issued before it, an open finds a prefix of what the last one found and what was appended
since; and an open that is not cut off succeeds. -/
theorem open_finds_prefix (path:Path) (options:Options) {σ:Vfs} {f:Option Bytes} (hσ:Rest path f σ)
  (events:List Event)
  (hevents:Meets (Event.step false path options) (Event.LosesInOrder path options) events { vfs:=σ })
  {w:World} (hw:after (Event.step false path options) events { vfs:=σ }=w) :
  (∃ j σ',openJournal false path options (facing [] w.vfs)=(.ok j,σ')) ∧
   ∀ R,w.found=some R → ∀ cuts j σ',
    openJournal false path options (facing cuts w.vfs)=(.ok j,σ') →
    Journal.contents j σ' <+: R++w.acked++w.inFlight.toList := by
 have hinv:LyingInv path options w:=by
  rw [← hw]
  refine after_invariant (I:=LyingInv path options) (fun e w h he=>h.step e he) events ?_ hevents
  exact ⟨(fun _ hj=>nomatch hj),fun _=>⟨f,hσ,fun _ hR=>nomatch hR⟩⟩
 obtain ⟨g,d,ops,rs,xs,tail,rest,hon,hg,-,-,hfound⟩:=hinv.opens
 refine ⟨?_,fun R hR cuts j σ' hopen=>?_⟩
 · obtain ⟨j,σ',hrun,-⟩:=(openJournal_false_rule hg).run
    (hon (fun _=>False) [] fun _ hs=>absurd hs not_mem_nil) fun _ _ hlost=>hlost.allowed.elim fun _ h=>h
   exact ⟨j,σ',hrun⟩
 · obtain ⟨hholds,hon'⟩:=(openJournal_false_rule hg).ok
    (hon (fun _=>True) cuts fun _ _=>trivial) hopen
   rw [Holds.contents hholds hon'.file]
   exact hfound R hR

lemma open_found {honest:Bool} {path:Path} {options:Options} {cuts:List (Option (List (ℕ × ℕ)))}
 {w:World} {R:List Bytes} (h:((Event.open cuts).step honest path options w).found=some R)
 (hne:w.found≠some R) : ∃ j σ',openJournal honest path options (facing cuts w.vfs)=(.ok j,σ') ∧ Journal.contents j σ'=R := by
 rw [Event.step] at h
 rcases hrun:openJournal honest path options (facing cuts w.vfs) with ⟨r,σ'⟩
 rw [hrun] at h
 cases r with
 | ok j=>exact ⟨j,σ',rfl,Option.some.inj h⟩
 | error e=>
  simp only [apply_ite World.found,World.reboot,ite_self] at h
  exact absurd h hne

/-- Two appends of which only the second reaches the disk, and then a third one. -/
def staleEvents (last:List (ℕ × ℕ)) : List Event :=
 [.open [],.append [1] [],.append [2] [],.powerLoss [(0,99),(1,99),(3,99)],.open [],
  .append [3] [],.powerLoss last]

def staleRun (last:List (ℕ × ℕ)) : World :=
 after (Event.step false ['j'] {}) (staleEvents last) { vfs:=Vfs.quiet [] }

/-- The truncate reaches the disk before the frame written over what it cut off. -/
theorem staleRun_in_order : ∃ j σ',openJournal false ['j'] {} (facing [] (staleRun [(0,99),(1,99)]).vfs) =
   (.ok j,σ') ∧ Journal.contents j σ' <+: []++[[3]]++[] := by
 have hmeets:Meets (Event.step false ['j'] {}) (Event.LosesInOrder ['j'] {})
   (staleEvents [(0,99),(1,99)]) { vfs:=Vfs.quiet [] }:=by
  refine ⟨(fun _ h=>nomatch h),(fun _ _ _ h=>nomatch h),(fun _ _ _ h=>nomatch h),?_,
   (fun _ h=>nomatch h),(fun _ _ _ h=>nomatch h),?_,trivial⟩
  · unfold Event.LosesInOrder
    decide +kernel
  · unfold Event.LosesInOrder
    decide +kernel
 obtain ⟨⟨j,σ',hopen⟩, hprefix⟩ := open_finds_prefix ['j'] {} (f:=none) ⟨rfl,rfl,rfl,rfl⟩
  (staleEvents [(0,99),(1,99)]) hmeets (w:=staleRun [(0,99),(1,99)]) rfl
 have hacked:(staleRun [(0,99),(1,99)]).acked=[[3]]:=by decide +kernel
 have hin:(staleRun [(0,99),(1,99)]).inFlight=none:=by decide +kernel
 have hle := hprefix [] (by decide +kernel) [] j σ' hopen
 rw [hacked,hin] at hle
 exact ⟨j,σ',hopen,hle⟩

/-- The truncate of the last open is lost and the frame behind it is not: what an earlier process
appended stands behind what this one did. -/
theorem staleRun_brings_back : (staleRun [(1,99)]).found=some [] ∧ (staleRun [(1,99)]).acked=[[3]] ∧
  (staleRun [(1,99)]).inFlight=none ∧ ∃ j σ',
   openJournal false ['j'] {} (facing [] (staleRun [(1,99)]).vfs)=(.ok j,σ') ∧
    Journal.contents j σ'=[[3],[2]] ∧ ¬[[3],[2]] <+: []++[[3]]++([]:List Bytes) := by
 have hfound:((Event.open []).step false ['j'] {} (staleRun [(1,99)])).found=some [[3],[2]]:=by
  decide +kernel
 obtain ⟨j,σ',hopen,hcontents⟩:=open_found hfound (by decide +kernel)
 exact ⟨by decide +kernel,by decide +kernel,by decide +kernel,j,σ',hopen,hcontents,by decide⟩

end Archivum.LyingSyncs
