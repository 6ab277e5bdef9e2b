import Archivum.TzifModel

set_option autoImplicit false

/-!
# Reading a zone and asking it for instants

The reader of a compiled zone stays inside the file: every table it walks
through is part of the block whose size it compared with the file. The instants
of a local time are found by trying every offset that the zone can have.
-/
namespace Archivum.Tzif
open ByteStrings PageTxn RecordModel List

def Inside {α:Type} (x:Except Fault α) : Prop := x≠.error .outside

lemma inside_ok {α:Type} (a:α) : Inside (.ok a) := by
 intro h
 cases h

lemma inside_refuse {α:Type} (message:String) : Inside (refuse message:Except Fault α) := by
 intro h
 cases h

lemma Inside.bind {α β:Type} {x:Except Fault α} {f:α → Except Fault β} (hx:Inside x)
 (hf:∀ a,x=.ok a → Inside (f a)) : Inside (x >>= f) := by
 cases x with
 | error e=>
  intro h
  cases h
  exact hx rfl
 | ok a=>exact hf a rfl

lemma inside_certified {α:Type} {P:α → Prop} {x:Except Fault α} {h:∀ a,x=.ok a → P a} (hx:Inside x) :
 Inside (certified x h) := by
 cases x with
 | error e=>
  intro hc
  cases hc
  exact hx rfl
 | ok a=>exact inside_ok _

lemma certified_ok {α:Type} {P:α → Prop} {x:Except Fault α} {h:∀ a,x=.ok a → P a} {a:{ a // P a }}
  (hx:certified x h=.ok a) : x=.ok a.1 := by
 cases x with
 | error e=>cases hx
 | ok b=>
  cases hx
  rfl

section Readers
variable {d:Bytes}

lemma byteAt_inside {i:ℕ} (h:i<d.length) : Inside (byteAt d i) := by
 rw [byteAt,getElem?_eq_getElem h]
 exact inside_ok _

lemma be32_inside {p:ℕ} (h:p+4≤d.length) : Inside (be32 d p) :=
 (byteAt_inside (by omega)).bind fun _ _=>(byteAt_inside (by omega)).bind fun _ _=>
  (byteAt_inside (by omega)).bind fun _ _=>(byteAt_inside (by omega)).bind fun _ _=>inside_ok _

lemma be64_inside {p:ℕ} (h:p+8≤d.length) : Inside (be64 d p) :=
 (be32_inside (by omega)).bind fun _ _=>(be32_inside (by omega)).bind fun _ _=>inside_ok _

lemma readMagic_inside {p:ℕ} (h:p+4≤d.length) : Inside (readMagic d p) :=
 (byteAt_inside (by omega)).bind fun _ _=>(byteAt_inside (by omega)).bind fun _ _=>
  (byteAt_inside (by omega)).bind fun _ _=>(byteAt_inside (by omega)).bind fun _ _=>inside_ok _

lemma versionOf_inside (v:UInt8) : Inside (versionOf v) := by
 unfold versionOf
 split_ifs
 · exact inside_ok _
 · exact inside_ok _
 · exact inside_refuse _

lemma checkCounts_inside (h:Header) : Inside (checkCounts h) := by
 unfold checkCounts
 split_ifs
 · exact inside_refuse _
 · exact inside_refuse _
 · exact inside_refuse _
 · exact inside_ok _

lemma readHeader_inside (start:ℕ) : Inside (readHeader d start) := by
 unfold readHeader
 split_ifs with hshort
 · exact inside_refuse _
 · refine (readMagic_inside (by omega)).bind fun magic _=>?_
   split_ifs
   · exact inside_refuse _
   · exact (byteAt_inside (by omega)).bind fun v _=>(versionOf_inside v).bind fun _ _=>
      (be32_inside (by omega)).bind fun _ _=>(be32_inside (by omega)).bind fun _ _=>
      (be32_inside (by omega)).bind fun _ _=>(be32_inside (by omega)).bind fun _ _=>
      (be32_inside (by omega)).bind fun _ _=>(be32_inside (by omega)).bind fun _ _=>checkCounts_inside _

lemma readTime_inside {p timeSize i:ℕ} (hsize:timeSize=8 ∨ timeSize=4)
 (h:p+(i+1)*timeSize≤d.length) : Inside (readTime d p timeSize i) := by
 rcases hsize with rfl | rfl
 · exact be64_inside (by omega)
 · exact (be32_inside (by omega)).bind fun _ _=>inside_ok _

lemma readTimes_inside {p timeSize n i:ℕ} (times:List ℤ) (hsize:timeSize=8 ∨ timeSize=4)
 (h:p+(i+n)*timeSize≤d.length) : Inside (readTimes d p timeSize n i times) := by
 induction n generalizing i times with
 | zero=>exact inside_ok _
 | succ n ih=>
  have hone:p+(i+1)*timeSize≤d.length:=
   le_trans (Nat.add_le_add_left (Nat.mul_le_mul_right _ (by omega)) p) h
  refine (readTime_inside hsize hone).bind fun t _=>?_
  split_ifs
  · exact inside_refuse _
  · exact ih _ (by rwa [show i+1+n=i+(n+1) by omega])

lemma readIndices_inside {p typecnt n i:ℕ} (indices:List ℕ) (h:p+(i+n)≤d.length) :
 Inside (readIndices d p typecnt n i indices) := by
 induction n generalizing i indices with
 | zero=>exact inside_ok _
 | succ n ih=>
  refine (byteAt_inside (by omega)).bind fun idx _=>?_
  split_ifs
  · exact inside_refuse _
  · exact ih _ (by omega)

lemma readAbbreviation_inside {chars n k:ℕ} (text:Bytes) (h:chars+(k+n)≤d.length) :
 Inside (readAbbreviation d chars n k text) := by
 induction n generalizing k text with
 | zero=>exact inside_ok _
 | succ n ih=>
  refine (byteAt_inside (by omega)).bind fun c _=>?_
  split_ifs
  · exact inside_ok _
  · exact ih _ (by omega)

lemma readTypes_inside {p chars charcnt n i:ℕ} (types:List LocalTimeType) (h:p+(i+n)*6≤d.length)
 (hchars:chars+charcnt≤d.length) : Inside (readTypes d p chars charcnt n i types) := by
 induction n generalizing i types with
 | zero=>exact inside_ok _
 | succ n ih=>
  refine (be32_inside (by omega)).bind fun utoff _=>(byteAt_inside (by omega)).bind fun isDst _=>
   (byteAt_inside (by omega)).bind fun idx _=>?_
  split_ifs with hidx
  · exact inside_refuse _
  · exact (readAbbreviation_inside _ (by omega)).bind fun _ _=>ih _ (by omega)

lemma readLine_inside {n k:ℕ} (tz:Bytes) (h:k+n≤d.length) : Inside (readLine d n k tz) := by
 induction n generalizing k tz with
 | zero=>exact inside_ok _
 | succ n ih=>
  refine (byteAt_inside (by omega)).bind fun c _=>?_
  split_ifs
  · exact inside_ok _
  · exact ih _ (by omega)

lemma readFooter_inside (start:ℕ) : Inside (readFooter d start) := by
 unfold readFooter
 split_ifs with hshort
 · exact inside_refuse _
 · refine (byteAt_inside (by omega)).bind fun c _=>?_
   split_ifs
   · exact inside_refuse _
   · refine (readLine_inside _ (by omega)).bind fun ⟨tz,k⟩ _=>?_
     dsimp only
     split_ifs
     · exact inside_refuse _
     · exact inside_ok _
     · cases parsePosix tz with
       | ok rule=>exact inside_ok _
       | error e=>
        intro h
        cases h

lemma locateBlock_size {h h':Header} {start timeSize:ℕ} (hrun:locateBlock d h=.ok (h',start,timeSize)) :
 timeSize=8 ∨ timeSize=4 := by
 unfold locateBlock at hrun
 split_ifs at hrun
 · obtain ⟨h2,-,hrun⟩:=bind_ok hrun
   cases hrun
   exact .inl rfl
 · cases hrun
   exact .inr rfl

lemma locateBlock_inside (h:Header) : Inside (locateBlock d h) := by
 unfold locateBlock
 split_ifs
 · exact (readHeader_inside _).bind fun _ _=>inside_ok _
 · exact inside_ok _

lemma readBlock_inside {version:ℕ} {h:Header} {hh:h.typecnt≠0} {start timeSize:ℕ}
 (hsize:timeSize=8 ∨ timeSize=4) : Inside (readBlock d version h hh start timeSize) := by
 unfold readBlock
 by_cases hshort:d.length<start+blockSize h timeSize
 · rw [if_pos hshort]
   exact inside_refuse _
 · rw [if_neg hshort]
   unfold blockSize at hshort
   refine (inside_certified (readTimes_inside _ hsize (by rw [Nat.zero_add]; omega))).bind fun times _=>?_
   refine (inside_certified (readIndices_inside _ (by omega))).bind fun indices _=>?_
   refine (inside_certified (readTypes_inside _ (by omega) (by omega))).bind fun types _=>?_
   refine (inside_certified ?_).bind fun footer _=>inside_ok _
   split_ifs
   · exact readFooter_inside _
   · exact inside_ok _

lemma parse_inside : Inside (parse d) := by
 refine (inside_certified (readHeader_inside 0)).bind fun h1 _=>?_
 refine (inside_certified (locateBlock_inside h1.1)).bind fun ⟨⟨h,start,timeSize⟩,hh⟩ hrun=>?_
 exact readBlock_inside (locateBlock_size (certified_ok hrun))

end Readers

lemma upperBound_pos {times:List ℤ} (hne:times≠[]) {instant:ℤ} (h:times.head hne ≤ instant) :
 0<upperBound times instant := by
 cases times with
 | nil=>exact absurd rfl hne
 | cons t times=>
  rw [upperBound,takeWhile_cons_of_pos (by simpa using h)]
  exact Nat.succ_pos _

lemma upperBound_le (times:List ℤ) (instant:ℤ) : upperBound times instant≤times.length :=
 ( takeWhile_prefix _).length_le

/-- Reading a file stays inside it. A zone that is returned has increasing transition times, a type for each of them
that exists, and at least one type; so the transition that decides at an instant is one of the table. -/
theorem parse_safe (d:Bytes) : parse d≠.error .outside ∧ ∀ z,parse d=.ok z →
  z.transitionTimes.Pairwise (· < ·) ∧ z.transitionTypes.length=z.transitionTimes.length ∧
   (∀ i∈z.transitionTypes,i<z.types.length) ∧ 0<z.types.length ∧
   ∀ instant (hne:z.transitionTimes≠[]),z.transitionTimes.head hne ≤ instant →
    0<upperBound z.transitionTimes instant ∧ upperBound z.transitionTimes instant ≤ z.transitionTypes.length := by
 refine ⟨parse_inside,fun z _=>⟨z.increasing,z.paired,z.inRange,length_pos_of_ne_nil z.typed,?_⟩⟩
 intro instant hne hfirst
 rw [z.paired]
 exact ⟨upperBound_pos hne hfirst,upperBound_le _ _⟩

/-- A file of the first version: from UTC to an hour of daylight saving time at second 100. -/
def sampleFile : Bytes :=
 ascii "TZif" ++ replicate 16 0++[0,0,0,0,0,0,0,0,0,0,0,0,0,0,0,1,0,0,0,2,0,0,0,4] ++
  [0,0,0,100]++[1]++[0,0,0,0,0,0]++[0,0,14,16,1,0]++ascii "UTC" ++ [0]

theorem sampleFile_safe : ∃ z,parse sampleFile=.ok z ∧ 0<z.types.length := by
 have hread:(parse sampleFile).toOption.isSome=true:=by decide +kernel
 cases h:parse sampleFile with
 | error e=>
  rw [h] at hread
  cases hread
 | ok z=>
  obtain ⟨-,-,-,htypes,-⟩:=(parse_safe sampleFile).2 z h
  exact ⟨z,rfl,htypes⟩

namespace Zone

lemma ruleLocal_offset (r:PosixRule) (instant:ℤ) :
 (ruleLocal r instant).offset=r.std.utoff ∨ ∃ dst,r.dst=some dst ∧ (ruleLocal r instant).offset=dst.utoff := by
 unfold ruleLocal
 cases r.dst with
 | none=>exact .inl rfl
 | some dst=>
  dsimp only
  split_ifs
  · exact .inr ⟨dst,rfl,rfl⟩
  · exact .inl rfl

lemma ruleLocal_mem (z:Zone) {r:PosixRule} (hr:z.footer=some r) (l instant:ℤ) :
 (ruleLocal r instant).offset∈z.offsets l := by
 rw [offsets,hr]
 dsimp only
 refine mem_append_right _ ?_
 rcases ruleLocal_offset r instant with h | ⟨dst,hdst,h⟩
 · rw [h]
   exact mem_append_left _ (mem_singleton_self _)
 · rw [h,hdst]
   exact mem_append_right _ (mem_singleton_self _)

lemma type_mem (z:Zone) {t:LocalTimeType} (ht:t∈z.types) (l:ℤ) : t.asLocal.offset∈z.offsets l :=
 mem_append_left _ (mem_append_right _ (mem_map_of_mem ht))

lemma typeLocal_mem (z:Zone) (i:Fin z.types.length) (l:ℤ) : (z.typeLocal i).offset∈z.offsets l :=
 z.type_mem (get_mem _ _) l

lemma initialLocal_mem (z:Zone) (l:ℤ) : z.initialLocal.offset∈z.offsets l := by
 refine z.type_mem ?_ l
 cases h:z.types.find? fun t=>!t.isDst with
 | none=>exact head_mem z.typed
 | some t=>exact mem_of_find?_eq_some h

lemma localOf_mem (z:Zone) (instant l:ℤ) : (z.localOf instant).offset∈z.offsets l := by
 unfold localOf
 split_ifs
 · cases hr:z.footer with
   | none=>exact z.typeLocal_mem _ l
   | some r=>exact z.ruleLocal_mem hr l instant
 · exact z.initialLocal_mem l
 · dsimp only
   split_ifs
   · cases hr:z.footer with
     | none=>exact z.typeLocal_mem _ l
     | some r=>exact z.ruleLocal_mem hr l instant
   · exact z.typeLocal_mem _ l

lemma mem_unique (l:List ℤ) (t:ℤ) : t∈unique l ↔ t∈l := by
 fun_induction unique l with
 | case1 a l ih=>
  rw [ih]
  simp
 | case2 a b l hne ih=>rw [mem_cons,mem_cons,ih]
 | case3 l=>rfl

lemma unique_increasing {l:List ℤ} (h:l.Pairwise (·≤·)) : (unique l).Pairwise (· < ·) := by
 fun_induction unique l with
 | case1 a l ih=>exact ih (pairwise_cons.mp h).2
 | case2 a b l hne ih=>
  obtain ⟨hfirst,hrest⟩:=pairwise_cons.mp h
  refine pairwise_cons.mpr ⟨fun t ht=>?_,ih hrest⟩
  rw [mem_unique] at ht
  have hab:=lt_of_le_of_ne (hfirst b mem_cons_self) hne
  rcases mem_cons.mp ht with rfl | ht
  · exact hab
  · exact lt_of_lt_of_le hab ((pairwise_cons.mp hrest).1 t ht)
 | case3 l hshort=>
  match l with
  | []=>exact List.Pairwise.nil
  | [a]=>exact pairwise_singleton _ _
  | a::b::l=>exact absurd rfl (hshort a b l)

/-- The instants of a local time are exactly those whose offset leads to it, ascending and once each. -/
theorem instantsOf_exact (z:Zone) (l:ℤ) :
  (z.instantsOf l).Pairwise (· < ·) ∧ ∀ t,t∈z.instantsOf l ↔ t+(z.localOf t).offset=l := by
 refine ⟨unique_increasing (pairwise_insertionSort _ _),fun t=>?_⟩
 rw [instantsOf,mem_unique,mem_insertionSort,mem_filterMap]
 constructor
 · rintro ⟨offset,-,h⟩
   dsimp only at h
   split_ifs at h with hoffset
   obtain rfl:=Option.some.inj h
   rw [hoffset]
   omega
 · intro h
   refine ⟨(z.localOf t).offset,z.localOf_mem t l,?_⟩
   have ht:l-(z.localOf t).offset=t:=by omega
   dsimp only
   rw [ht,if_pos rfl]

end Zone

end Archivum.Tzif
