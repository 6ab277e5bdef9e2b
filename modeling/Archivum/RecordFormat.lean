import Archivum.RecordModel

set_option autoImplicit false

/-!
# The encodings of values are read back

A row is read back as it was written if it has fewer than 2^16 values and no
text or blob of 2^32 bytes. A key determines the values it was made of, given
their types, and says where it ends.
-/
namespace Archivum.RecordFormat
open ByteStrings StatefulActions PageTxn Decoders RecordModel List Act

lemma takeBytes_reads {n:ℕ} {b:Bytes} (h:b.length=n) (e:Status) : Reads (takeBytes n e) b b := by
 intro rest
 rw [takeBytes,if_neg (by rw [length_append]; omega),← h,take_left,drop_left]

def payload : Value → ℕ
 | .text s=>s.length
 | .blob b=>b.length
 | _=>0

lemma int64Of_bytes (i:Int64) : int64Of (int64Bytes i)=i := by
 rw [int64Of,int64Bytes,fromLE_toLE_of_lt _ _ (by simpa using i.toUInt64.toNat_lt)]
 simp

lemma int64Bytes_reads (i:Int64) (e:Status) : Reads (takeBytes 8 e) (int64Bytes i) (int64Bytes i) :=
 takeBytes_reads (by rw [int64Bytes,toLE_length]) e

lemma takeSized_reads {b:Bytes} (h:b.length<2^32) : Reads takeSized (sized b) b := by
 refine Reads.bind (takeBytes_reads (toLE_length 4 b.length) _) ?_
 rw [fromLE_toLE_of_lt _ _ (by simpa using h)]
 exact takeBytes_reads rfl _

lemma decodeValue_reads {v:Value} (h:payload v<2^32) : Reads decodeValue (encodeValue v) v := by
 have hkind:∀ {k:UInt8} {xs:Bytes},Reads (decodePayload (fromLE [k])) xs v →
   Reads decodeValue (k::xs) v:=fun hrest=>Reads.bind (takeBytes_reads (b:=[_]) rfl _) hrest
 cases v with
 | null=>exact hkind (Reads.pure _)
 | integer i=>
  have:=(int64Bytes_reads i (corrupt "row integer truncated")).map fun b=>Value.integer (int64Of b)
  rw [int64Of_bytes] at this
  exact hkind this
 | decimal i=>
  have:=(int64Bytes_reads i (corrupt "row integer truncated")).map fun b=>Value.decimal (int64Of b)
  rw [int64Of_bytes] at this
  exact hkind this
 | timestamp i=>
  have:=(int64Bytes_reads i (corrupt "row integer truncated")).map fun b=>Value.timestamp (int64Of b)
  rw [int64Of_bytes] at this
  exact hkind this
 | text s=>exact hkind ((takeSized_reads h).map Value.text)
 | blob b=>exact hkind ((takeSized_reads h).map Value.blob)
 | boolean b=>
  cases b
  · exact hkind ((takeBytes_reads (b:=[0]) rfl _).map fun b=>Value.boolean (b != [0]))
  · exact hkind ((takeBytes_reads (b:=[1]) rfl _).map fun b=>Value.boolean (b != [0]))
 | uuid u=>
  refine hkind fun rest=>(bind_of_ok _ (takeBytes_reads u.2 _ rest)).trans ?_
  rw [dif_pos u.2]
  rfl

structure RowFits (row:Row) : Prop where
 count : row.length<2^16
 payloads : ∀ v∈row,payload v<2^32

lemma rowBody_reads {row:Row} (h:RowFits row) : Reads (do
  let n ← takeBytes 2 (corrupt "row too short")
  times decodeValue (fromLE n)) (encodeRow row) row := by
 refine Reads.bind (takeBytes_reads (toLE_length 2 row.length) _) ?_
 rw [fromLE_toLE_of_lt _ _ (by simpa using h.count)]
 exact Reads.times fun v hv=>decodeValue_reads (h.payloads v hv)

lemma decodeRow_encodeRow {row:Row} (h:RowFits row) : decodeRow (encodeRow row)=.ok row :=
 whole_reads (rowBody_reads h) _

lemma takeBytes_onward (n:ℕ) (e:Status) : Onward (takeBytes n e) := by
 intro xs a rest h ys
 rw [takeBytes] at h ⊢
 split_ifs at h with hshort
 · cases h
 · obtain ⟨ha,rfl⟩:=Prod.mk.inj h
   rw [if_neg (by rw [length_append]; omega),← ha,take_append_of_le_length (by omega),drop_append_of_le_length (by omega)]

lemma decodePayload_onward (k:ℕ) : Onward (decodePayload k) := by
 have hreturn:∀ {α:Type} {m:Act Status Bytes α} {f:α → Value},Onward m → Onward (m >>= fun a=>return f a):=
  fun hm=>hm.bind fun a=>Onward.pure _
 have hsized:Onward takeSized:=(takeBytes_onward _ _).bind fun len=>takeBytes_onward _ _
 match k with
 | 0=>exact Onward.pure _
 | 1=>exact hreturn (takeBytes_onward _ _)
 | 2=>exact hreturn (takeBytes_onward _ _)
 | 3=>exact hreturn hsized
 | 4=>exact hreturn hsized
 | 5=>exact hreturn (takeBytes_onward _ _)
 | 6=>exact hreturn (takeBytes_onward _ _)
 | 7=>
  refine (takeBytes_onward _ _).bind fun u=>?_
  split_ifs
  · exact Onward.pure _
  · exact Onward.fail _
 | n+8=>exact Onward.fail _

/-- A row says where it ends: neither less nor more than its bytes is read as a row. -/
theorem decodeRow_exactly {row:Row} (h:RowFits row) :
  decodeRow (encodeRow row)=.ok row ∧
   (∀ p,p <+: encodeRow row → p≠encodeRow row → ∃ e,decodeRow p=.error e) ∧
   ∀ p,encodeRow row <+: p → p≠encodeRow row → ∃ e,decodeRow p=.error e := by
 have honward:Onward decodeValue:=(takeBytes_onward _ _).bind fun kind=>decodePayload_onward _
 refine ⟨decodeRow_encodeRow h,?_,?_⟩
 · rintro p ⟨rest,hrest⟩ hne
   have hreads:=rowBody_reads h
   rw [←hrest] at hreads
   refine whole_prefix ((takeBytes_onward _ _).bind fun n=>honward.times _) hreads ?_ _
   rintro rfl
   rw [append_nil] at hrest
   exact hne hrest
 · rintro p ⟨rest,rfl⟩ hne
   cases rest with
   | nil=>exact absurd (append_nil _) hne
   | cons x rest=>exact ⟨_,whole_leftover (rowBody_reads h) _ x rest⟩

theorem decodeRow_exactly_mixed : RowFits [.null,.text [0,255],.boolean true] ∧
  ∃ e,decodeRow [3,0,0,3,2,0,0,0,0,255,6]=.error e :=
 have h:RowFits [.null,.text [0,255],.boolean true]:=⟨by decide,by decide⟩
 ⟨h,(decodeRow_exactly h).2.1 _ (by decide) (by decide)⟩

lemma takeBytes_inv {n:ℕ} {e:Status} {xs b rest:Bytes} (h:takeBytes n e xs=(.ok b,rest)) : b.length=n ∧ xs=b++rest := by
 rw [takeBytes] at h
 split_ifs at h with hshort
 · cases h
 · obtain ⟨hb,rfl⟩:=Prod.mk.inj h
   obtain rfl:=Except.ok.inj hb
   exact ⟨by rw [length_take]; omega,(take_append_drop n xs).symm⟩

lemma takeSized_payload {xs b rest:Bytes} (h:takeSized xs=(.ok b,rest)) : b.length<2^32 := by
 obtain ⟨len,ys,hlen,h⟩:=bind_ok_inv h
 have hbound:=fromLE_lt len
 rw [(takeBytes_inv hlen).1] at hbound
 rw [(takeBytes_inv h).1]
 simpa using hbound

lemma decodeValue_payload {xs rest:Bytes} {v:Value} (h:decodeValue xs=(.ok v,rest)) : payload v<2^32 := by
 obtain ⟨kind,ys,-,h⟩:=bind_ok_inv h
 have hreturn:∀ {α:Type} {m:Act Status Bytes α} {f:α → Value},
   (∀ a,payload (f a)=0) → (m >>= fun a=>return f a) ys=(.ok v,rest) → payload v<2^32:=by
  intro α m f hf hrun
  obtain ⟨a,zs,-,hv⟩:=bind_ok_inv hrun
  cases hv
  rw [hf]
  decide
 have hsized:∀ {f:Bytes → Value},(∀ b,payload (f b)=b.length) →
   (takeSized >>= fun b=>return f b) ys=(.ok v,rest) → payload v<2^32:=by
  intro f hf hrun
  obtain ⟨b,zs,hb,hv⟩:=bind_ok_inv hrun
  cases hv
  rw [hf]
  exact takeSized_payload hb
 generalize fromLE kind=k at h
 match k,h with
 | 0,h=>
  cases h
  decide
 | 1,h=>exact hreturn (fun _=>rfl) h
 | 2,h=>exact hreturn (fun _=>rfl) h
 | 3,h=>exact hsized (fun _=>rfl) h
 | 4,h=>exact hsized (fun _=>rfl) h
 | 5,h=>exact hreturn (fun _=>rfl) h
 | 6,h=>exact hreturn (fun _=>rfl) h
 | 7,h=>
  obtain ⟨u,zs,-,hv⟩:=bind_ok_inv h
  split_ifs at hv
  · cases hv
    exact Nat.two_pow_pos 32
  · cases hv
 | n+8,h=>cases h

lemma decodeRow_fits {input:Bytes} {row:Row} (h:decodeRow input=.ok row) : RowFits row := by
 obtain ⟨n,ys,hn,hrun⟩:=bind_ok_inv (whole_inv h)
 refine ⟨?_,times_all (fun xs v rest hv=>decodeValue_payload hv) _ hrun⟩
 have hbound:=fromLE_lt n
 rw [(takeBytes_inv hn).1] at hbound
 rw [times_length _ hrun]
 simpa using hbound

lemma int64OfFlipped_be64 (v:Int64) : int64OfFlipped (be64Flipped v)=v := by
 rw [int64OfFlipped,be64Flipped,reverse_reverse,
  fromLE_toLE_of_lt _ _ (by simpa using (v.toUInt64 ^^^ 0x8000000000000000).toNat_lt),UInt64.ofNat_toNat,
  UInt64.xor_assoc,UInt64.xor_self,UInt64.xor_zero]

lemma be64_reads (v:Int64) (e:Status) : Reads (takeBytes 8 e) (be64Flipped v) (be64Flipped v) :=
 takeBytes_reads (by rw [be64Flipped,length_reverse,toLE_length]) e

lemma getEscapedLoop_run (s rest out:Bytes) (fuel:ℕ) (h:s.length<fuel) :
 getEscapedLoop fuel out (escaped s++rest)=(.ok (out++s),rest) := by
 have hone:∀ (b:UInt8) (more:Bytes) (e:Status),takeBytes 1 e (b::more)=(.ok [b],more):=by
  intro b more e
  exact takeBytes_reads (b:=[b]) rfl e more
 induction s generalizing fuel out with
 | nil=>
  obtain ⟨n,rfl⟩:=Nat.exists_eq_succ_of_ne_zero (by omega:fuel≠0)
  rw [escaped,cons_append,getEscapedLoop,bind_of_ok _ (hone 0 _ _),if_neg (by simp),
   cons_append,bind_of_ok _ (hone 0 _ _),if_pos rfl,append_nil]
  rfl
 | cons b s ih=>
  obtain ⟨n,rfl⟩:=Nat.exists_eq_succ_of_ne_zero (by omega:fuel≠0)
  rw [length_cons] at h
  rw [escaped,getEscapedLoop]
  by_cases hb:b=0
  · have hbytes:(if b=0 then [0,0xFF] else [b])++escaped s++rest=0::0xFF::(escaped s++rest):=by
     simp [hb]
    rw [hbytes,bind_of_ok _ (hone 0 _ _),if_neg (by simp),bind_of_ok _ (hone 0xFF _ _),
     if_neg (by decide),if_pos rfl,ih _ _ (by omega),hb,append_assoc,singleton_append]
  · have hbytes:(if b=0 then [0,0xFF] else [b])++escaped s++rest=b::(escaped s++rest):=by
     simp [hb]
    rw [hbytes,bind_of_ok _ (hone b _ _),if_pos (by simpa using hb),ih _ _ (by omega),append_assoc,singleton_append]

lemma length_le_escaped (s:Bytes) : s.length≤(escaped s).length := by
 induction s with
 | nil=>simp
 | cons b s ih=>
  rw [escaped,length_append,length_cons]
  split <;> simp <;> omega

lemma getEscaped_reads (s:Bytes) : Reads getEscaped (escaped s) s := by
 intro rest
 have hle:=length_le_escaped s
 have hlen:s.length<(escaped s++rest).length+1:=by
  rw [length_append]
  omega
 rw [getEscaped,getEscapedLoop_run s rest [] _ hlen,nil_append]

lemma decodeKeyValue_reads {v:Value} {t:ColumnType} (h:v.matches t=true) :
 Reads (decodeKeyValue t) (encodeKeyValue v) v := by
 cases v with
 | null=>
  intro rest
  exact bind_of_ok _ (takeBytes_reads (b:=[0]) rfl _ rest)
 | integer i=>
  cases t <;> simp [Value.matches,Value.isNull,Value.kind,ColumnType.code] at h
  have:=(be64_reads i (corrupt "key integer too short")).map fun b=>Value.integer (int64OfFlipped b)
  rw [int64OfFlipped_be64] at this
  exact Reads.bind (takeBytes_reads (b:=[1]) rfl _) this
 | decimal i=>
  cases t <;> simp [Value.matches,Value.isNull,Value.kind,ColumnType.code] at h
  have:=(be64_reads i (corrupt "key integer too short")).map fun b=>Value.decimal (int64OfFlipped b)
  rw [int64OfFlipped_be64] at this
  exact Reads.bind (takeBytes_reads (b:=[1]) rfl _) this
 | timestamp i=>
  cases t <;> simp [Value.matches,Value.isNull,Value.kind,ColumnType.code] at h
  have:=(be64_reads i (corrupt "key integer too short")).map fun b=>Value.timestamp (int64OfFlipped b)
  rw [int64OfFlipped_be64] at this
  exact Reads.bind (takeBytes_reads (b:=[1]) rfl _) this
 | text s=>
  cases t <;> simp [Value.matches,Value.isNull,Value.kind,ColumnType.code] at h
  exact Reads.bind (takeBytes_reads (b:=[1]) rfl _) ((getEscaped_reads s).map Value.text)
 | blob b=>
  cases t <;> simp [Value.matches,Value.isNull,Value.kind,ColumnType.code] at h
  exact Reads.bind (takeBytes_reads (b:=[1]) rfl _) ((getEscaped_reads b).map Value.blob)
 | boolean b=>
  cases t <;> simp [Value.matches,Value.isNull,Value.kind,ColumnType.code] at h
  have:=(takeBytes_reads (b:=[if b then 1 else 0]) rfl (corrupt "key boolean too short")).map
   fun b=>Value.boolean (b != [0])
  have hback:([if b then (1:UInt8) else 0] != [0])=b:=by cases b <;> rfl
  rw [hback] at this
  exact Reads.bind (takeBytes_reads (b:=[1]) rfl _) this
 | uuid u=>
  cases t <;> simp [Value.matches,Value.isNull,Value.kind,ColumnType.code] at h
  refine Reads.bind (takeBytes_reads (b:=[1]) rfl _) fun rest=>
   (bind_of_ok _ (takeBytes_reads u.2 _ rest)).trans ?_
  rw [dif_pos u.2]
  rfl

def OfTypes (types:List ColumnType) (values:Row) : Prop :=
 List.Forall₂ (fun t v=>Value.matches v t=true) types values

lemma decodeKey_reads {types:List ColumnType} {values:Row} (h:OfTypes types values) :
 Reads (decodeKey types) (encodeKey values) values := by
 induction h with
 | nil=>exact Reads.pure []
 | @cons t v types values hv _ ih=>
  rw [encodeKey,flatMap_cons]
  exact (decodeKeyValue_reads hv).bind (Reads.map ih (v :: ·))

/-- A key says where it ends, whatever bytes follow it. -/
theorem decodeKey_exactly {types:List ColumnType} {values:Row} (h:OfTypes types values) (rest:Bytes) :
  decodeKey types (encodeKey values++rest)=(.ok values,rest) :=
 decodeKey_reads h rest

/-- A text that ends in a zero byte, followed by 0xFF. -/
theorem decodeKey_exactly_escaped :
  OfTypes [.text,.integer] [.text [7,0],.null] ∧
   decodeKey [.text,.integer] (encodeKey [.text [7,0],.null]++[255])=(.ok [.text [7,0],.null],[255]) :=
 have h:OfTypes [.text,.integer] [.text [7,0],.null]:=.cons rfl (.cons rfl .nil)
 ⟨h,decodeKey_exactly h [255]⟩

lemma encodeKey_inj {types:List ColumnType} {values values':Row} {x x':Bytes} (h:OfTypes types values)
 (h':OfTypes types values') (heq:encodeKey values++x=encodeKey values'++x') : values=values' ∧ x=x' := by
 have hread:=decodeKey_reads h x
 rw [heq,decodeKey_reads h' x'] at hread
 obtain ⟨h1,h2⟩:=Prod.mk.inj hread
 exact ⟨(Except.ok.inj h1).symm,h2.symm⟩

end Archivum.RecordFormat
