import Archivum.RecordModel

set_option autoImplicit false

/-!
# Text that is stored and text that is exported

`valid_utf8` accepts exactly the encodings of sequences of scalar values, and the
rows of an exported CSV text are what a reader of quoted CSV makes of it.
-/
namespace Archivum.TextFormats
open ByteStrings RecordModel List

section Utf8

lemma utf8Lead_eq : ∀ c<256,utf8Lead c=if c<0x80 then some (1,c) else if c<0xC0 then none
 else if c<0xE0 then some (2,c-0xC0) else if c<0xF0 then some (3,c-0xE0)
 else if c<0xF8 then some (4,c-0xF0) else none := by
 decide +kernel

lemma continues_iff : ∀ c<256,c &&& 0xC0=0x80 ↔ 0x80 ≤ c ∧ c<0xC0 := by
 decide +kernel

lemma utf8Tail_cons (cp:ℕ) (b:UInt8) (rest:Bytes) : utf8Tail cp (b::rest) =
 if 0x80≤b.toNat ∧ b.toNat<0xC0 then utf8Tail (cp*64+b.toNat%64) rest else none := by
 have hor:cp <<< 6 ||| (b.toNat &&& 0x3F)=cp*64+b.toNat%64:=by
  rw [show (0x3F:ℕ)=2^6-1 from rfl,Nat.and_two_pow_sub_one_eq_mod,
   ← Nat.shiftLeft_add_eq_or_of_lt (Nat.mod_lt _ (by decide)),Nat.shiftLeft_eq]
 rw [utf8Tail,hor]
 simp only [continues_iff _ b.toNat_lt]

/-- The bytes of a code point of each length, `String.utf8EncodeChar` by the number. -/
def utf8Of (v:ℕ) : Bytes :=
 if v ≤ 0x7F then [UInt8.ofNat v]
 else if v ≤ 0x7FF then [UInt8.ofNat (v/64%0x20+0xC0),UInt8.ofNat (v%0x40+0x80)]
 else if v ≤ 0xFFFF then
  [UInt8.ofNat (v/4096%0x10+0xE0),UInt8.ofNat (v/64%0x40+0x80),UInt8.ofNat (v%0x40+0x80)]
 else [UInt8.ofNat (v/262144%0x08+0xF0),UInt8.ofNat (v/4096%0x40+0x80),
  UInt8.ofNat (v/64%0x40+0x80),UInt8.ofNat (v%0x40+0x80)]

lemma utf8EncodeChar_eq (c:Char) : String.utf8EncodeChar c=utf8Of c.toNat := rfl

lemma isValidChar_iff (v:ℕ) : v.isValidChar ↔ ¬(0x10FFFF<v ∨ 0xD800≤v ∧ v≤0xDFFF) := by
 unfold Nat.isValidChar
 omega

lemma toNat_ofNat {n:ℕ} (h:n<256) : (UInt8.ofNat n).toNat=n := by
 rw [UInt8.toNat_ofNat']
 exact Nat.mod_eq_of_lt h

/-- One round of the loop on a code point of `l` bytes. -/
theorem round {n l bits cp:ℕ} {b:UInt8} {t s:Bytes} (hlead:utf8Lead b.toNat=some (l,bits))
 (hlen:t.length+1=l) (htail:utf8Tail bits t=some cp)
 (hshort:¬(l=2 ∧ cp<0x80 ∨ l=3 ∧ cp<0x800 ∨ l=4 ∧ cp<0x10000)) (hv:cp.isValidChar) :
 validUtf8Loop (n+1) (b::t++s)=validUtf8Loop n s := by
 have htake:(t++s).take (l-1)=t:=take_left' (by omega)
 have hdrop:(t++s).drop (l-1)=s:=drop_left' (by omega)
 rw [cons_append,validUtf8Loop,hlead]
 dsimp only
 rw [if_neg (by rw [length_append]; omega),htake,htail,hdrop]
 dsimp only
 rw [if_neg hshort,if_neg ((isValidChar_iff cp).mp hv)]

lemma loop_encoded {v:ℕ} (hv:v.isValidChar) (n:ℕ) (s:Bytes) : validUtf8Loop (n+1) (utf8Of v++s)=validUtf8Loop n s := by
 have hlt:v<0x110000:=by
  have:=(isValidChar_iff v).mp hv
  omega
 have hcont:∀ x cp rest,utf8Tail cp (UInt8.ofNat (x%64+0x80)::rest)=utf8Tail (cp*64+x%64) rest:=by
  intro x cp rest
  have hlow:(x%64+0x80)%64=x%64:=by omega
  rw [utf8Tail_cons,toNat_ofNat (by omega),if_pos (by omega),hlow]
 unfold utf8Of
 split_ifs with h1 h2 h3
 · exact round (l:=1) (by rw [toNat_ofNat (by omega),utf8Lead_eq _ (by omega),if_pos (by omega)])
    rfl rfl (by omega) hv
 · refine round (l:=2) (by rw [toNat_ofNat (by omega),utf8Lead_eq _ (by omega),if_neg (by omega),
    if_neg (by omega),if_pos (by omega)]) rfl ?_ (by omega) hv
   rw [hcont,utf8Tail]
   congr 1
   omega
 · refine round (l:=3) (by rw [toNat_ofNat (by omega),utf8Lead_eq _ (by omega),if_neg (by omega),
    if_neg (by omega),if_neg (by omega),if_pos (by omega)]) rfl ?_ (by omega) hv
   rw [hcont,hcont,utf8Tail]
   congr 1
   omega
 · refine round (l:=4) (by rw [toNat_ofNat (by omega),utf8Lead_eq _ (by omega),
    if_neg (by omega),if_neg (by omega),if_neg (by omega),if_neg (by omega),if_pos (by omega)]) rfl ?_ (by omega) hv
   rw [hcont,hcont,hcont,utf8Tail]
   congr 1
   omega

lemma utf8Tail_inv {cp v:ℕ} {b:UInt8} {rest:Bytes} (h:utf8Tail cp (b::rest)=some v) :
 0x80≤b.toNat ∧ b.toNat<0xC0 ∧ utf8Tail (cp*64+b.toNat%64) rest=some v := by
 rw [utf8Tail_cons] at h
 split_ifs at h with hb
 exact ⟨hb.1,hb.2,h⟩

lemma ofNat_eq {b:UInt8} {n:ℕ} (h:n=b.toNat) : UInt8.ofNat n=b := by
 rw [h,UInt8.ofNat_toNat]

/-- The code point that an accepting round reads. -/
theorem round_inv {n:ℕ} {b:UInt8} {s:Bytes} (h:validUtf8Loop (n+1) (b::s)=true) :
 ∃ v rest,v.isValidChar ∧ b::s=utf8Of v++rest ∧ validUtf8Loop n rest=true := by
 have hb:=b.toNat_lt
 have hlead:=utf8Lead_eq _ hb
 rw [validUtf8Loop] at h
 cases hl:utf8Lead b.toNat with
 | none=>
  rw [hl] at h
  cases h
 | some lead=>
  obtain ⟨len,bits⟩:=lead
  rw [hl] at h hlead
  dsimp only at h
  split_ifs at h with hlen
  cases htail:utf8Tail bits (s.take (len-1)) with
  | none=>
   rw [htail] at h
   cases h
  | some cp=>
   rw [htail] at h
   dsimp only at h
   split_ifs at h with hshort hrange
   refine ⟨cp,s.drop (len-1),(isValidChar_iff cp).mpr hrange,?_,h⟩
   -- the lead byte says how many bytes there are and where the code point lies
   split_ifs at hlead with h1 h2 h3 h4 h5 <;> simp only [Option.some.injEq,Prod.mk.injEq] at hlead
   · obtain ⟨rfl,hbits⟩:=hlead
     obtain rfl:bits=cp:=Option.some.inj htail
     subst hbits
     rw [utf8Of,if_pos (by omega),UInt8.ofNat_toNat]
     rfl
   · obtain ⟨rfl,hbits⟩:=hlead
     match s,hlen,htail with
     | x::rest,_,htail=>
      obtain ⟨hx1,hx2,hcp⟩:=utf8Tail_inv htail
      have hcp:=Option.some.inj hcp
      have e1:UInt8.ofNat (cp/64%0x20+0xC0)=b:=ofNat_eq (by omega)
      have e2:UInt8.ofNat (cp%0x40+0x80)=x:=ofNat_eq (by omega)
      rw [utf8Of,if_neg (by omega),if_pos (by omega),e1,e2]
      rfl
   · obtain ⟨rfl,hbits⟩:=hlead
     match s,hlen,htail with
     | [_],hlen,_=>exact absurd (by simp) hlen
     | x::y::rest,_,htail=>
      obtain ⟨hx1,hx2,hy⟩:=utf8Tail_inv htail
      obtain ⟨hy1,hy2,hcp⟩:=utf8Tail_inv hy
      have hcp:=Option.some.inj hcp
      have e1:UInt8.ofNat (cp/4096%0x10+0xE0)=b:=ofNat_eq (by omega)
      have e2:UInt8.ofNat (cp/64%0x40+0x80)=x:=ofNat_eq (by omega)
      have e3:UInt8.ofNat (cp%0x40+0x80)=y:=ofNat_eq (by omega)
      rw [utf8Of,if_neg (by omega),if_neg (by omega),if_pos (by omega),e1,e2,e3]
      rfl
   · obtain ⟨rfl,hbits⟩:=hlead
     match s,hlen,htail with
     | [_],hlen,_=>exact absurd (by simp) hlen
     | [_,_],hlen,_=>exact absurd (by simp) hlen
     | x::y::z::rest,_,htail=>
      obtain ⟨hx1,hx2,hy⟩:=utf8Tail_inv htail
      obtain ⟨hy1,hy2,hz⟩:=utf8Tail_inv hy
      obtain ⟨hz1,hz2,hcp⟩:=utf8Tail_inv hz
      have hcp:=Option.some.inj hcp
      have e1:UInt8.ofNat (cp/262144%0x08+0xF0)=b:=ofNat_eq (by omega)
      have e2:UInt8.ofNat (cp/4096%0x40+0x80)=x:=ofNat_eq (by omega)
      have e3:UInt8.ofNat (cp/64%0x40+0x80)=y:=ofNat_eq (by omega)
      have e4:UInt8.ofNat (cp%0x40+0x80)=z:=ofNat_eq (by omega)
      rw [utf8Of,if_neg (by omega),if_neg (by omega),if_neg (by omega),e1,e2,e3,e4]
      rfl

lemma utf8Of_ne_nil (v:ℕ) : utf8Of v≠[] := by
 unfold utf8Of
 split_ifs <;> simp

lemma loop_complete (cs:List Char) (n:ℕ) (h:(cs.flatMap String.utf8EncodeChar).length≤n) :
 validUtf8Loop n (cs.flatMap String.utf8EncodeChar)=true := by
 induction cs generalizing n with
 | nil=>cases n <;> rfl
 | cons c cs ih=>
  have hpos:=length_pos_of_ne_nil (utf8Of_ne_nil c.toNat)
  rw [flatMap_cons,utf8EncodeChar_eq] at h ⊢
  rw [length_append] at h
  obtain ⟨n,rfl⟩:=Nat.exists_eq_succ_of_ne_zero (by omega:n≠0)
  rw [loop_encoded (v:=c.toNat) c.valid]
  exact ih n (by omega)

lemma loop_sound (n:ℕ) (s:Bytes) (h:validUtf8Loop n s=true) : ∃ cs : List Char,s=cs.flatMap String.utf8EncodeChar := by
 induction n generalizing s with
 | zero=>exact ⟨[],by simpa [validUtf8Loop] using h⟩
 | succ n ih=>
  cases s with
  | nil=>exact ⟨[],rfl⟩
  | cons b s=>
   obtain ⟨v,rest,hv,hs,hrest⟩:=round_inv h
   obtain ⟨cs,rfl⟩:=ih rest hrest
   refine ⟨Char.ofNat v::cs,?_⟩
   rw [hs,flatMap_cons,utf8EncodeChar_eq,Char.toNat_ofNat,if_pos hv]

/-- `Char` is the type of the scalar values, `String.utf8EncodeChar` their shortest encoding. -/
theorem validUtf8_iff (s:Bytes) :
  validUtf8 s=true ↔ ∃ cs : List Char,s=cs.flatMap String.utf8EncodeChar := by
 constructor
 · exact loop_sound _ s
 · rintro ⟨cs,rfl⟩
   exact loop_complete cs _ le_rfl

end Utf8

section Csv

def quote : UInt8 := 34
def comma : UInt8 := 44
def newline : UInt8 := 10

def csvField (s:Bytes) : Bytes :=
 if s.any fun c=>c=comma ∨ c=quote ∨ c=newline then
  quote::(s.flatMap fun c=>if c=quote then [quote,c] else [c])++[quote]
 else s

/-- The rows of the export: fields joined with commas, each row ended by a newline. -/
def csvText (rows:List (List Bytes)) : Bytes :=
 rows.flatMap fun row=>[comma].intercalate (row.map csvField)++[newline]

/-- Where a reader of quoted CSV stands in a field. -/
inductive Within
 | start | plain | quoted | closed
 deriving DecidableEq

/-- The field, the row and the rows read so far. -/
structure CsvReader where
 within : Within := .start
 field : Bytes := []
 row : List Bytes := []
 rows : List (List Bytes) := []

namespace CsvReader

def endField (r:CsvReader) (b:UInt8) : CsvReader :=
 if b=newline then ⟨.start,[],[],r.rows++[r.row++[r.field]]⟩
 else ⟨.start,[],r.row++[r.field],r.rows⟩

def step (r:CsvReader) (b:UInt8) : Option CsvReader :=
 match r.within with
 | .quoted=>
  if b=quote then some { r with within:=.closed } else some { r with field:=r.field++[b] }
 | .closed=>
  if b=quote then some { r with within:=.quoted,field:=r.field++[b] }
  else if b=comma ∨ b=newline then some (r.endField b) else none
 | .start=>
  if b=quote then some { r with within:=.quoted }
  else if b=comma ∨ b=newline then some (r.endField b)
  else some { r with within:=.plain,field:=r.field++[b] }
 | .plain=>
  if b=quote then none
  else if b=comma ∨ b=newline then some (r.endField b)
  else some { r with field:=r.field++[b] }

def run (r:CsvReader) (s:Bytes) : Option CsvReader := s.foldlM step r

/-- The rows of a text whose last row is ended. -/
def read (s:Bytes) : Option (List (List Bytes)) :=
 match run {} s with
 | some ⟨.start,[],[],rows⟩=>some rows
 | _=>none

lemma run_append (r:CsvReader) (s t:Bytes) : r.run (s++t)=(r.run s).bind fun q=>q.run t :=
 foldlM_append

lemma run_cons (r:CsvReader) (b:UInt8) (s:Bytes) : r.run (b::s)=(r.step b).bind fun q=>q.run s := rfl

variable {row:List Bytes} {rows:List (List Bytes)}

lemma run_plain {s:Bytes} (h:∀ c∈s,¬(c=comma ∨ c=quote ∨ c=newline)) (field:Bytes) :
 run ⟨.plain,field,row,rows⟩ s=some ⟨.plain,field++s,row,rows⟩ := by
 induction s generalizing field with
 | nil=>rw [append_nil]; rfl
 | cons c s ih=>
  have hc:=h c mem_cons_self
  rw [run_cons,step]
  dsimp only
  rw [if_neg (by tauto),if_neg (by tauto),Option.bind_some,ih fun x hx=>h x (mem_cons_of_mem _ hx),
   append_assoc,singleton_append]

lemma run_quoted (s field:Bytes) :
 run ⟨.quoted,field,row,rows⟩ (s.flatMap fun c=>if c=quote then [quote,c] else [c]) =
  some ⟨.quoted,field++s,row,rows⟩ := by
 induction s generalizing field with
 | nil=>rw [append_nil]; rfl
 | cons c s ih=>
  have hone:run ⟨.quoted,field,row,rows⟩ (if c=quote then [quote,c] else [c]) =
    some ⟨.quoted,field++[c],row,rows⟩:=by
   by_cases hc:c=quote
   · rw [if_pos hc,hc]
     rfl
   · rw [if_neg hc,run_cons,step]
     dsimp only
     rw [if_neg hc]
     rfl
  rw [flatMap_cons,run_append,hone,Option.bind_some,ih,append_assoc,singleton_append]

/-- A field and the comma or newline behind it. -/
theorem run_field (s:Bytes) {b:UInt8} (hb:b=comma ∨ b=newline) :
 run ⟨.start,[],row,rows⟩ (csvField s++[b])=some (endField ⟨.start,s,row,rows⟩ b) := by
 have hbq:b≠quote:=by rcases hb with rfl | rfl <;> decide
 have hlast:∀ w,w≠.quoted → run ⟨w,s,row,rows⟩ [b]=some (endField ⟨.start,s,row,rows⟩ b):=by
  intro w hw
  cases w <;> first
   | exact absurd rfl hw
   | (rw [run_cons,step]; dsimp only; rw [if_neg hbq,if_pos hb]; rfl)
 by_cases hs:(s.any fun c=>c=comma ∨ c=quote ∨ c=newline)=true
 · rw [csvField,if_pos hs,run_append,cons_append,run_cons]
   change (run ⟨.quoted,[],row,rows⟩ (_++[quote])).bind _=_
   rw [run_append,run_quoted,Option.bind_some]
   exact hlast .closed (by decide)
 · have hall:∀ c∈s,¬(c=comma ∨ c=quote ∨ c=newline):=by
    intro c hc hspecial
    exact hs (any_eq_true.mpr ⟨c,hc,decide_eq_true hspecial⟩)
   rw [csvField,if_neg hs]
   cases s with
   | nil=>exact hlast .start (by decide)
   | cons c s=>
    have hc:=hall c mem_cons_self
    rw [cons_append,run_cons,step]
    dsimp only
    rw [if_neg (by tauto),if_neg (by tauto),Option.bind_some,run_append,
     run_plain fun x hx=>hall x (mem_cons_of_mem _ hx),Option.bind_some]
    exact hlast .plain (by decide)

lemma run_row {fields:List Bytes} (h:fields≠[]) :
 run ⟨.start,[],row,rows⟩ ([comma].intercalate (fields.map csvField)++[newline]) =
  some ⟨.start,[],[],rows++[row++fields]⟩ := by
 induction fields generalizing row with
 | nil=>exact absurd rfl h
 | cons f fields ih=>
  cases fields with
  | nil=>
   rw [map_cons,map_nil,intercalate_singleton]
   exact run_field f (Or.inr rfl)
  | cons g fields=>
   rw [map_cons,map_cons,intercalate_cons_cons,← map_cons,append_assoc,append_assoc,← append_assoc (csvField f),
    run_append,run_field f (Or.inl rfl),Option.bind_some]
   refine (ih (by simp)).trans ?_
   rw [append_assoc,singleton_append]

lemma run_text {more:List (List Bytes)} (h:∀ r∈more,r≠[]) :
 run ⟨.start,[],[],rows⟩ (csvText more)=some ⟨.start,[],[],rows++more⟩ := by
 induction more generalizing rows with
 | nil=>rw [append_nil]; rfl
 | cons r more ih=>
  rw [csvText,flatMap_cons,run_append,run_row (h r mem_cons_self),Option.bind_some,nil_append]
  refine (ih fun x hx=>h x (mem_cons_of_mem _ hx)).trans ?_
  rw [append_assoc,singleton_append]

end CsvReader

theorem csvText_read {rows:List (List Bytes)} (h:∀ r∈rows,r≠[]) :
  CsvReader.read (csvText rows)=some rows := by
 rw [CsvReader.read,show CsvReader.run {} (csvText rows)=_ from CsvReader.run_text h]
 rfl

/-- Two rows with quotes, commas and newlines in neighbouring fields. -/
theorem csvText_read_mixed : CsvReader.read (csvText [[[34],[44,34],[]],[[10]]])=some [[[34],[44,34],[]],[[10]]] :=
 csvText_read (by decide)

end Csv

end Archivum.TextFormats
