import Archivum.TzifModel

set_option autoImplicit false

/-!
# The grammar of a zone rule

A rule in a footer is a name and an offset, and for daylight saving time a name,
perhaps an offset, and two dates with perhaps a time each. The parser accepts
exactly the texts of this grammar whose numbers are in range, as long as no run
of digits spells a number that an `int` cannot hold.
-/
namespace Archivum.Tzif
open ByteStrings StatefulActions PageTxn RecordModel DecimalText List Act

/-- Three letters or more, or as many other characters in angle brackets. -/
def NameText (name text:Bytes) : Prop :=
 3 ≤ name.length ∧ (text=name ∧ name.all isLetter=true ∨ text=60::name++[62] ∧ 62 ∉ name)

def NumberText (n:ℕ) (text:Bytes) : Prop := text≠[] ∧ text.all isDigit=true ∧ value text=n

inductive SignText : ℤ → Bytes → Prop
 | absent : SignText 1 []
 | plus : SignText 1 [43]
 | minus : SignText (-1) [45]

inductive ClockText : ℕ → ℕ → Bytes → Prop
 | absent : ClockText 0 0 []
 | minutes {m:ℕ} {a:Bytes} (hm:NumberText m a) : ClockText m 0 (58::a)
 | seconds {m s:ℕ} {a b:Bytes} (hm:NumberText m a) (hs:NumberText s b) : ClockText m s (58::a++58::b)

structure HmsText (maxHours:ℕ) (v:ℤ) (text:Bytes) : Prop where
 parts : ∃ sign h m s a b c,SignText sign a ∧ NumberText h b ∧ ClockText m s c ∧ text=a++b++c ∧
  h ≤ maxHours ∧ m ≤ 59 ∧ s ≤ 59 ∧ v=sign*(h*3600+m*60+s)

inductive DayText : RuleDate → Bytes → Prop
 | monthWeekDay {m w k:ℕ} {a b c:Bytes} (hm:NumberText m a) (hw:NumberText w b) (hk:NumberText k c)
   (hm1:1 ≤ m) (hm12:m ≤ 12) (hw1:1 ≤ w) (hw5:w ≤ 5) (hk6:k ≤ 6) :
   DayText { blank .monthWeekDay with month:=m,week:=w,weekday:=k } (77::a++46::b++46::c)
 | julianNoLeap {n:ℕ} {a:Bytes} (hn:NumberText n a) (h1:1 ≤ n) (h365:n ≤ 365) :
   DayText { blank .julianNoLeap with day:=n } (74::a)
 | julianZeroBased {n:ℕ} {a:Bytes} (hn:NumberText n a) (h365:n ≤ 365) :
   DayText { blank .julianZeroBased with day:=n } a

inductive DateText : RuleDate → Bytes → Prop
 | plain {d:RuleDate} {a:Bytes} (hd:DayText d a) : DateText d a
 | timed {d:RuleDate} {time:ℤ} {a b:Bytes} (hd:DayText d a) (ht:HmsText 167 time b) :
   DateText { d with time } (a++47::b)

/-- The offset of daylight saving time: one hour more than the standard offset if it is not given. -/
inductive OffsetText (std:ℤ) : ℤ → Bytes → Prop
 | absent : OffsetText std (std+3600) []
 | given {off:ℤ} {a:Bytes} (h:HmsText 24 off a) : OffsetText std (-off) a

inductive RuleText : PosixRule → Bytes → Prop
 | standard {name a b:Bytes} {off:ℤ} (hname:NameText name a) (hoff:HmsText 24 off b) :
   RuleText { std:=⟨-off,false,name⟩,dst:=none,start:=blank .monthWeekDay,stop:=blank .monthWeekDay }
    (a++b)
 | daylight {name name' a b a' b' c e:Bytes} {off utoff:ℤ} {start stop:RuleDate} (hname:NameText name a)
   (hoff:HmsText 24 off b) (hname':NameText name' a') (hutoff:OffsetText (-off) utoff b')
   (hstart:DateText start c) (hstop:DateText stop e) :
   RuleText { std:=⟨-off,false,name⟩,dst:=some ⟨utoff,true,name'⟩,start,stop }
    (a++b++(a'++b'++44::c++44::e))

/-- No run of digits spells a number that does not fit an `int`. -/
def NumbersFit (s:Bytes) : Prop := ∀ u∈s.tails,value (u.takeWhile isDigit)<2^31

instance (s:Bytes) : Decidable (NumbersFit s) := inferInstanceAs (Decidable (∀ u∈s.tails,_))

lemma NumbersFit.of_append {a b:Bytes} (h:NumbersFit (a++b)) : NumbersFit b := by
 intro u hu
 rw [mem_tails] at hu
 exact h u ((mem_tails _ _).mpr (hu.trans (suffix_append a b)))

lemma value_le_append (a b:Bytes) : value a≤value (a++b) := by
 induction b using reverseRecOn with
 | nil=>rw [append_nil]
 | append_singleton b x ih=>
  rw [← append_assoc,value_concat]
  omega

lemma foldl_digits {s:Bytes} (hs:s.all isDigit=true) (h:value s<2^31) :
 s.foldl (fun (out:ℤ) b=>int32 (out*10+(b.toNat-48))) 0=value s := by
 induction s using reverseRecOn with
 | nil=>rfl
 | append_singleton s b ih=>
  rw [all_append,Bool.and_eq_true,all_cons,Bool.and_eq_true] at hs
  have hb:48≤b.toNat ∧ b.toNat≤57:=of_decide_eq_true hs.2.1
  rw [foldl_append,ih hs.1 (lt_of_le_of_lt (value_le_append s [b]) h),foldl_cons,foldl_nil]
  rw [value_concat] at h ⊢
  rw [int32_of_lt (by omega) (by omega)]
  omega

section Soundness
variable {s s':Bytes}

lemma peek_bind {α:Type} (f:UInt8 → Cursor α) (s:Bytes) : (peek >>= f) s=f (s.headD 0) s := rfl

lemma peek_cons_bind {α:Type} (f:UInt8 → Cursor α) (c:UInt8) (s:Bytes) : (peek >>= f) (c::s)=f c (c::s) := rfl

lemma done_bind {α:Type} (f:Bool → Cursor α) (s:Bytes) : (done >>= f) s=f s.isEmpty s := rfl

lemma advance_bind {α:Type} (f:Unit → Cursor α) (s:Bytes) : (advance >>= f) s=f () (s.drop 1) := rfl

lemma takeWhile_bind {α:Type} (p:UInt8 → Bool) (f:Bytes → Cursor α) (s:Bytes) :
 (takeWhile p >>= f) s=f (s.takeWhile p) (s.dropWhile p) := rfl

lemma eq_cons_of_head {c:UInt8} (h:s.headD 0=c) (hc:c≠0) : s=c::s.drop 1 := by
 cases s with
 | nil=>exact absurd h.symm hc
 | cons b s=>
  obtain rfl:b=c:=h
  rfl

lemma expectNumber_sound {message:String} {v:ℤ} (hfit:NumbersFit s)
 (h:expectNumber message s=(.ok v,s')) : ∃ (n:ℕ) (a:Bytes),v=n ∧ NumberText n a ∧ s=a++s' := by
 obtain ⟨found,s₁,hnumber,h⟩:=bind_ok_inv h
 rw [number,peek_bind] at hnumber
 split_ifs at hnumber with hdigit
 · rw [takeWhile_bind] at hnumber
   cases hnumber
   cases h
   have hall:(s.takeWhile isDigit).all isDigit=true:=all_takeWhile
   have hlt:value (s.takeWhile isDigit)<2^31:=hfit s ((mem_tails _ _).mpr (suffix_refl s))
   refine ⟨_,s.takeWhile isDigit,foldl_digits hall hlt,⟨?_,hall,rfl⟩,(takeWhile_append_dropWhile).symm⟩
   cases s with
   | nil=>cases hdigit
   | cons b s=>
    rw [takeWhile_cons_of_pos (show isDigit b=true from hdigit)]
    exact cons_ne_nil _ _
 · cases hnumber
   cases h

lemma parseSign_sound {sign:ℤ} (h:parseSign s=(.ok sign,s')) : ∃ a,SignText sign a ∧ s=a++s' := by
 rw [parseSign,peek_bind] at h
 split_ifs at h with hplus hminus
 · cases h
   exact ⟨[43],.plus,eq_cons_of_head hplus (by decide)⟩
 · cases h
   exact ⟨[45],.minus,eq_cons_of_head hminus (by decide)⟩
 · cases h
   exact ⟨[],.absent,rfl⟩

lemma afterColon_sound {α:Type} {m:Cursor α} {otherwise v:α} (h:afterColon m otherwise s=(.ok v,s')) :
 (v=otherwise ∧ s=s') ∨ ∃ s₁,s=58::s₁ ∧ m s₁=(.ok v,s') := by
 rw [afterColon,peek_bind] at h
 split_ifs at h with hcolon
 · exact .inr ⟨s.drop 1,eq_cons_of_head hcolon (by decide),h⟩
 · cases h
   exact .inl ⟨rfl,rfl⟩

lemma parseHms_sound {maxHours:ℕ} {v:ℤ} (hfit:NumbersFit s) (h:parseHms maxHours s=(.ok v,s')) :
 ∃ a,HmsText maxHours v a ∧ s=a++s' := by
 obtain ⟨sign,s₁,hsign,h₁⟩:=bind_ok_inv h
 obtain ⟨a,hsignText,rfl⟩:=parseSign_sound hsign
 obtain ⟨hours,s₂,hhours,h₂⟩:=bind_ok_inv h₁
 obtain ⟨n,b,rfl,hb,rfl⟩:=expectNumber_sound hfit.of_append hhours
 obtain ⟨⟨m,sec⟩,s₃,hclock,h₃⟩:=bind_ok_inv h₂
 dsimp only at h₃
 split_ifs at h₃ with hrange
 · cases h₃
 · obtain ⟨m',sec',c,rfl,rfl,hc,rfl⟩:∃ (m' sec':ℕ) (c:Bytes),m=m' ∧ sec=sec' ∧ ClockText m' sec' c ∧
     s₂=c++s₃:=by
    rcases afterColon_sound hclock with ⟨hzero,rfl⟩ | ⟨s₄,rfl,hminutes⟩
    · cases hzero
      exact ⟨0,0,[],rfl,rfl,.absent,rfl⟩
    · have hfit':NumbersFit s₄:=hfit.of_append.of_append.of_append (a:=[58])
      obtain ⟨m',s₅,hm,hminutes₁⟩:=bind_ok_inv hminutes
      obtain ⟨n',e,rfl,he,rfl⟩:=expectNumber_sound hfit' hm
      obtain ⟨sec',s₆,hs,hminutes₂⟩:=bind_ok_inv hminutes₁
      cases hminutes₂
      rcases afterColon_sound hs with ⟨rfl,rfl⟩ | ⟨s₇,rfl,hseconds⟩
      · exact ⟨n',0,58::e,rfl,rfl,.minutes he,rfl⟩
      · obtain ⟨n'',f,rfl,hf,rfl⟩:=expectNumber_sound (hfit'.of_append.of_append (a:=[58])) hseconds
        exact ⟨n',n'',58::e++58::f,rfl,rfl,.seconds he hf,by simp⟩
   cases h₃
   exact ⟨a++b++c,⟨sign,n,m',sec',a,b,c,hsignText,hb,hc,rfl,by omega,by omega,by omega,rfl⟩,by simp⟩

lemma parseName_sound {name:Bytes} (h:parseName s=(.ok name,s')) : ∃ a,NameText name a ∧ s=a++s' := by
 rw [parseName,peek_bind] at h
 split_ifs at h with hquote
 · rw [advance_bind,takeWhile_bind,peek_bind] at h
   split_ifs at h with hclose
   · cases h
   · rw [advance_bind,longEnough] at h
     split_ifs at h with hlen
     · cases h
     · cases h
       refine ⟨60::(s.drop 1).takeWhile (· ≠ 62)++[62],⟨by omega,.inr ⟨rfl,fun hmem=>?_⟩⟩,?_⟩
       · have:=mem_takeWhile_imp hmem
         simp at this
       · have hrest:=eq_cons_of_head (not_ne_iff.mp hclose) (by decide)
         have hsplit:=takeWhile_append_dropWhile (p:=fun b:UInt8=>decide (b≠62)) (l:=s.drop 1)
         rw [hrest] at hsplit
         conv_lhs=>rw [eq_cons_of_head hquote (by decide),← hsplit]
         simp
 · rw [takeWhile_bind,longEnough] at h
   split_ifs at h with hlen
   · cases h
   · cases h
     exact ⟨_,⟨by omega,.inl ⟨rfl,all_takeWhile⟩⟩,takeWhile_append_dropWhile.symm⟩

lemma expect_sound {c:UInt8} {message:String} {u:Unit} (hc:c≠0) (h:expect c message s=(.ok u,s')) : s=c::s' := by
 rw [expect,peek_bind] at h
 split_ifs at h with hhead
 · cases h
 · cases h
   exact eq_cons_of_head (not_ne_iff.mp hhead) hc

lemma parseDay_sound {d:RuleDate} (hfit:NumbersFit s) (h:parseDay s=(.ok d,s')) : ∃ a,DayText d a ∧ s=a++s' := by
 rw [parseDay,peek_bind] at h
 split_ifs at h with hmonth hjulian
 · have hs:=eq_cons_of_head hmonth (by decide)
   rw [advance_bind] at h
   generalize s.drop 1=s₀ at hs h
   subst hs
   have hfit':=hfit.of_append (a:=[77])
   obtain ⟨m,s₁,hm,h₁⟩:=bind_ok_inv h
   obtain ⟨m,a,rfl,ha,rfl⟩:=expectNumber_sound hfit' hm
   obtain ⟨_,s₂,hdot,h₂⟩:=bind_ok_inv h₁
   obtain rfl:=expect_sound (by decide) hdot
   obtain ⟨w,s₃,hw,h₃⟩:=bind_ok_inv h₂
   obtain ⟨w,b,rfl,hb,rfl⟩:=expectNumber_sound (hfit'.of_append.of_append (a:=[46])) hw
   obtain ⟨_,s₄,hdot',h₄⟩:=bind_ok_inv h₃
   obtain rfl:=expect_sound (by decide) hdot'
   obtain ⟨k,s₅,hk,h₅⟩:=bind_ok_inv h₄
   obtain ⟨k,c,rfl,hc,rfl⟩:=
    expectNumber_sound ((hfit'.of_append.of_append (a:=[46])).of_append.of_append (a:=[46])) hk
   split_ifs at h₅ with hrange
   · cases h₅
   · cases h₅
     exact ⟨_,.monthWeekDay ha hb hc (by omega) (by omega) (by omega) (by omega) (by omega),by simp⟩
 · have hs:=eq_cons_of_head hjulian (by decide)
   rw [advance_bind] at h
   generalize s.drop 1=s₀ at hs h
   subst hs
   obtain ⟨n,s₁,hn,h₁⟩:=bind_ok_inv h
   obtain ⟨n,a,rfl,ha,rfl⟩:=expectNumber_sound (hfit.of_append (a:=[74])) hn
   split_ifs at h₁ with hrange
   · cases h₁
   · cases h₁
     exact ⟨_,.julianNoLeap ha (by omega) (by omega),rfl⟩
 · obtain ⟨n,s₁,hn,h₁⟩:=bind_ok_inv h
   obtain ⟨n,a,rfl,ha,rfl⟩:=expectNumber_sound hfit hn
   split_ifs at h₁ with hrange
   · cases h₁
   · cases h₁
     exact ⟨_,.julianZeroBased ha (by omega),rfl⟩

lemma parseRuleDate_sound {d:RuleDate} (hfit:NumbersFit s) (h:parseRuleDate s=(.ok d,s')) : ∃ a,DateText d a ∧ s=a++s' := by
 obtain ⟨d',s₁,hday,h₁⟩:=bind_ok_inv h
 obtain ⟨a,ha,rfl⟩:=parseDay_sound hfit hday
 rw [peek_bind] at h₁
 split_ifs at h₁ with hslash
 · have hs:=eq_cons_of_head hslash (by decide)
   rw [advance_bind] at h₁
   generalize s₁.drop 1=s₀ at hs h₁
   subst hs
   obtain ⟨time,s₂,htime,h₂⟩:=bind_ok_inv h₁
   obtain ⟨b,hb,rfl⟩:=parseHms_sound (hfit.of_append.of_append (a:=[47])) htime
   cases h₂
   exact ⟨_,.timed ha hb,by simp⟩
 · cases h₁
   exact ⟨a,.plain ha,rfl⟩

end Soundness

section Completeness
variable {rest:Bytes}

lemma takeWhile_run {p:UInt8 → Bool} {a:Bytes} (ha:a.all p=true) (hrest:p (rest.headD 0)=false) :
 takeWhile p (a++rest)=(.ok a,rest) := by
 have hstop:rest.takeWhile p=[] ∧ rest.dropWhile p=rest:=by
  cases rest with
  | nil=>exact ⟨rfl,rfl⟩
  | cons b rest=>
   have hb:¬p b=true:=by simpa using hrest
   exact ⟨takeWhile_cons_of_neg hb,dropWhile_cons_of_neg hb⟩
 have hall:∀ b∈a,p b=true:=all_eq_true.mp ha
 rw [takeWhile,takeWhile_append_of_pos hall,dropWhile_append_of_pos hall,hstop.1,hstop.2,append_nil]

lemma headD_append {a:Bytes} (ha:a≠[]) : (a++rest).headD 0=a.headD 0 := by
 cases a with
 | nil=>exact absurd rfl ha
 | cons b a=>rfl

lemma NumberText.head {n:ℕ} {a:Bytes} (h:NumberText n a) : isDigit (a.headD 0)=true := by
 obtain ⟨hne,hall,-⟩:=h
 cases a with
 | nil=>exact absurd rfl hne
 | cons b a=>exact (Bool.and_eq_true _ _ ▸ all_cons ▸ hall :).1

lemma expectNumber_complete (message:String) {n:ℕ} {a:Bytes} (h:NumberText n a) (hn:n<2^31)
 (hrest:isDigit (rest.headD 0)=false) : expectNumber message (a++rest)=(.ok (n:ℤ),rest) := by
 have hhead:=h.head
 obtain ⟨hne,hall,rfl⟩:=h
 have hnumber:number (a++rest)=(.ok (some (value a:ℤ)),rest):=by
  rw [number,peek_bind,headD_append hne,if_pos hhead,bind_of_ok _ (takeWhile_run hall hrest),foldl_digits hall hn]
  rfl
 rw [expectNumber,bind_of_ok _ hnumber]
 rfl

lemma digit_not_sign {b:UInt8} (h:isDigit b=true) : b≠43 ∧ b≠45 ∧ b≠58 ∧ b≠44 ∧ b≠77 ∧ b≠74 ∧ isLetter b=false := by
 have hb:48≤b.toNat ∧ b.toNat≤57:=of_decide_eq_true h
 have hne:∀ c:UInt8,(c.toNat<48 ∨ 57<c.toNat) → b≠c:=by
  rintro c hc rfl
  omega
 refine ⟨hne _ (by decide),hne _ (by decide),hne _ (by decide),hne _ (by decide),hne _ (by decide),hne _ (by decide),
  decide_eq_false (by omega)⟩

lemma parseSign_complete {sign:ℤ} {a:Bytes} (h:SignText sign a) (hrest:isDigit (rest.headD 0)=true) :
 parseSign (a++rest)=(.ok sign,rest) := by
 cases h with
 | plus=>rfl
 | minus=>rfl
 | absent=>
  obtain ⟨hplus,hminus,-⟩:=digit_not_sign hrest
  rw [parseSign,peek_bind,nil_append,if_neg hplus,if_neg hminus]
  rfl

lemma afterColon_absent {α:Type} {m:Cursor α} {otherwise:α} (h:rest.headD 0≠58) :
 afterColon m otherwise rest=(.ok otherwise,rest) := by
 rw [afterColon,peek_bind,if_neg h]
 rfl

lemma parseHms_complete {maxHours:ℕ} {v:ℤ} {a:Bytes} (h:HmsText maxHours v a) (hmax:maxHours<2^31)
 (hdigit:isDigit (rest.headD 0)=false) (hcolon:rest.headD 0≠58) : parseHms maxHours (a++rest)=(.ok v,rest) := by
 obtain ⟨sign,n,m,s,a,b,c,hsign,hb,hc,rfl,hn,hm,hs,rfl⟩:=h.parts
 have hrange:¬((maxHours:ℤ)<n ∨ (59:ℤ) < m ∨ (59:ℤ)<s):=by omega
 have hclock:isDigit ((c++rest).headD 0)=false ∧ afterColon (do
   let m ← expectNumber "TZ string: expected minutes"
   let s ← afterColon (expectNumber "TZ string: expected seconds") 0
   return (m,s)) (0,0) (c++rest)=(.ok ((m:ℤ),(s:ℤ)),rest):=by
  cases hc with
  | absent=>exact ⟨hdigit,afterColon_absent hcolon⟩
  | minutes hm'=>
   refine ⟨rfl,?_⟩
   have hmin:=expectNumber_complete "TZ string: expected minutes" hm' (by omega) hdigit
   exact (bind_of_ok _ hmin).trans (bind_of_ok _ (afterColon_absent hcolon))
  | @seconds _ _ a' b' hm' hs'=>
   refine ⟨rfl,?_⟩
   have hmin:=expectNumber_complete "TZ string: expected minutes" hm' (by omega)
    (show isDigit ((58::b'++rest).headD 0)=false from rfl)
   have hsec:=expectNumber_complete "TZ string: expected seconds" hs' (by omega) hdigit
   rw [append_assoc]
   exact (bind_of_ok _ hmin).trans (bind_of_ok _ hsec)
 have hhead:isDigit ((b++(c++rest)).headD 0)=true:=by
  rw [headD_append hb.1]
  exact hb.head
 rw [append_assoc,append_assoc,parseHms,bind_of_ok _ (parseSign_complete hsign hhead),
  bind_of_ok _ (expectNumber_complete _ hb (by omega) hclock.1),bind_of_ok _ hclock.2]
 dsimp only
 rw [if_neg hrange]
 rfl

lemma HmsText.head {maxHours:ℕ} {v:ℤ} {a:Bytes} (h:HmsText maxHours v a) : a≠[] ∧
 isLetter (a.headD 0)=false ∧ a.headD 0≠44 := by
 obtain ⟨sign,h,m,s,a,b,c,hsign,hb,-,rfl,-⟩:=h.parts
 cases hsign with
 | plus=>exact ⟨cons_ne_nil _ _,rfl,by simp⟩
 | minus=>exact ⟨cons_ne_nil _ _,rfl,by simp⟩
 | absent=>
  obtain ⟨-,-,-,hcomma,-,-,hletter⟩:=digit_not_sign hb.head
  rw [nil_append,headD_append hb.1]
  exact ⟨by simp [hb.1],hletter,hcomma⟩

lemma parseName_complete {name a:Bytes} (h:NameText name a) (hrest:isLetter (rest.headD 0)=false) :
 parseName (a++rest)=(.ok name,rest) := by
 obtain ⟨hlen,⟨rfl,hall⟩ | ⟨rfl,hclose⟩⟩:=h
 · have hne:a≠[]:=ne_nil_of_length_pos (by omega)
   have hhead:a.headD 0≠60:=by
    cases a with
    | nil=>exact absurd rfl hne
    | cons b a=>
     rw [all_cons,Bool.and_eq_true] at hall
     rintro hb
     have:b=60:=hb
     rw [this] at hall
     exact absurd hall.1 (by decide)
   rw [parseName,peek_bind,headD_append hne,if_neg hhead,bind_of_ok _ (takeWhile_run hall hrest),longEnough,
    if_neg (by omega)]
   rfl
 · have hall:name.all (fun b=>decide (b≠62))=true:=by
    rw [all_eq_true]
    intro b hb
    exact decide_eq_true fun hb'=>hclose (hb' ▸ hb)
   have hrun:takeWhile _ (name++62::rest)=_:=takeWhile_run hall rfl
   have hshape:60::name++[62]++rest=60::(name++62::rest):=by simp
   rw [hshape,parseName,peek_cons_bind,if_pos rfl,advance_bind]
   change (takeWhile (fun b=>decide (b≠62)) >>= _) (name++62::rest)=_
   rw [bind_of_ok _ hrun,peek_cons_bind,if_neg (not_not_intro rfl),advance_bind,longEnough,if_neg (by omega)]
   rfl

lemma NameText.head {name a:Bytes} (h:NameText name a) : a≠[] ∧ isDigit (a.headD 0)=false ∧ a.headD 0≠58 := by
 obtain ⟨hlen,⟨rfl,hall⟩ | ⟨rfl,-⟩⟩:=h
 · cases a with
   | nil=>simp at hlen
   | cons b a=>
    rw [all_cons,Bool.and_eq_true] at hall
    have hb:65≤b.toNat ∧ b.toNat≤90 ∨ 97≤b.toNat ∧ b.toNat≤122:=of_decide_eq_true hall.1
    refine ⟨cons_ne_nil _ _,decide_eq_false ?_,?_⟩
    · change ¬(48≤b.toNat ∧ b.toNat≤57)
      omega
    · rintro hcolon
      have:b=58:=hcolon
      rw [this] at hb
      revert hb
      decide
 · exact ⟨cons_ne_nil _ _,rfl,by simp⟩

lemma expect_complete (c:UInt8) (message:String) : expect c message (c::rest)=(.ok (),rest) := by
 rw [expect,peek_cons_bind,if_neg (not_not_intro rfl)]
 rfl

lemma parseDay_complete {d:RuleDate} {a:Bytes} (h:DayText d a) (hrest:isDigit (rest.headD 0)=false) :
 parseDay (a++rest)=(.ok d,rest) := by
 cases h with
 | @monthWeekDay m w k a b c hm hw hk hm1 hm12 hw1 hw5 hk6=>
  have hshape:77::a++46::b++46::c++rest=77::(a++(46::(b++(46::(c++rest))))):=by simp
  have hrange:¬((m:ℤ)<1 ∨ 12<(m:ℤ) ∨ (w:ℤ)<1 ∨ 5<(w:ℤ) ∨ (k:ℤ)<0 ∨ 6<(k:ℤ)):=by omega
  rw [hshape,parseDay,peek_cons_bind,if_pos rfl,advance_bind]
  change (expectNumber _ >>= _) (a++_)=_
  rw [bind_of_ok _ (expectNumber_complete _ hm (by omega) rfl),bind_of_ok _ (expect_complete 46 _),
   bind_of_ok _ (expectNumber_complete _ hw (by omega) rfl),bind_of_ok _ (expect_complete 46 _),
   bind_of_ok _ (expectNumber_complete _ hk (by omega) hrest),if_neg hrange]
  rfl
 | @julianNoLeap n a hn h1 h365=>
  have hrange:¬((n:ℤ)<1 ∨ 365<(n:ℤ)):=by omega
  rw [cons_append,parseDay,peek_cons_bind,if_neg (by decide),if_pos rfl,advance_bind]
  change (expectNumber _ >>= _) (a++rest)=_
  rw [bind_of_ok _ (expectNumber_complete _ hn (by omega) hrest),if_neg hrange]
  rfl
 | @julianZeroBased n a hn h365=>
  have hrange:¬((n:ℤ)<0 ∨ 365<(n:ℤ)):=by omega
  obtain ⟨-,-,-,-,hmonth,hjulian,-⟩:=digit_not_sign hn.head
  rw [parseDay,peek_bind,headD_append hn.1,if_neg hmonth,if_neg hjulian,
   bind_of_ok _ (expectNumber_complete _ hn (by omega) hrest),if_neg hrange]
  rfl

lemma parseRuleDate_complete {d:RuleDate} {a:Bytes} (h:DateText d a) (hrest:rest.headD 0=0 ∨ rest.headD 0=44) :
 parseRuleDate (a++rest)=(.ok d,rest) := by
 have hdigit:isDigit (rest.headD 0)=false:=by
  rcases hrest with h | h <;> rw [h] <;> decide
 have hcolon:rest.headD 0≠58:=by
  rcases hrest with h | h <;> rw [h] <;> decide
 have hslash:rest.headD 0≠47:=by
  rcases hrest with h | h <;> rw [h] <;> decide
 cases h with
 | plain hd=>
  rw [parseRuleDate,bind_of_ok _ (parseDay_complete hd hdigit),peek_bind,if_neg hslash]
  rfl
 | @timed d time a b hd ht=>
  have hday:parseDay (a++47::(b++rest))=_:=parseDay_complete hd rfl
  have hshape:a++47::b++rest=a++47::(b++rest):=by simp
  rw [hshape,parseRuleDate,bind_of_ok _ hday,peek_cons_bind,if_pos rfl,advance_bind]
  have htime:parseHms 167 (b++rest)=(.ok time,rest):=parseHms_complete ht (by decide) hdigit hcolon
  exact bind_of_ok _ htime

end Completeness

lemma HmsText.bound {maxHours:ℕ} {v:ℤ} {a:Bytes} (h:HmsText maxHours v a) :
 -(maxHours*3600+3599)≤v ∧ v ≤ maxHours*3600+3599 := by
 obtain ⟨sign,n,m,s,a,b,c,hsign,-,-,-,hn,hm,hs,rfl⟩:=h.parts
 cases hsign <;> omega

lemma HmsText.bound_neg {v:ℤ} {a:Bytes} (h:HmsText 24 v a) : -100000≤-v ∧ -v≤100000 := by
 have:=h.bound
 push_cast at this
 omega

lemma int32_hms {v:ℤ} {a:Bytes} (h:HmsText 24 v a) : int32 (-v) = -v := by
 have:=h.bound_neg
 exact int32_of_lt (by omega) (by omega)

lemma parseDstOffset_sound {s s':Bytes} {std:LocalTimeType} {utoff:ℤ} (hfit:NumbersFit s)
 (hstd : -100000 ≤ std.utoff ∧ std.utoff≤100000) (h:parseDstOffset std s=(.ok utoff,s')) :
 ∃ a,OffsetText std.utoff utoff a ∧ s=a++s' := by
 rw [parseDstOffset,done_bind,peek_bind] at h
 split_ifs at h
 · obtain ⟨off,s₁,hoff,h₁⟩:=bind_ok_inv h
   obtain ⟨a,ha,rfl⟩:=parseHms_sound hfit hoff
   cases h₁
   rw [int32_hms ha]
   exact ⟨a,.given ha,rfl⟩
 · cases h
   rw [int32_of_lt (by omega) (by omega)]
   exact ⟨[],.absent,rfl⟩

lemma parseDstOffset_complete {rest:Bytes} {std:LocalTimeType} {utoff:ℤ} {a:Bytes}
 (hstd : -100000 ≤ std.utoff ∧ std.utoff≤100000) (h:OffsetText std.utoff utoff a) (hrest:rest.headD 0=44) :
 parseDstOffset std (a++rest)=(.ok utoff,rest) := by
 cases h with
 | absent=>
  have hstop:¬((!rest.isEmpty && rest.headD 0 != 44)=true):=by
   rw [hrest]
   simp
  rw [nil_append,parseDstOffset,done_bind,peek_bind,if_neg hstop,int32_of_lt (by omega) (by omega)]
  rfl
 | @given off a h=>
  obtain ⟨hne,-,hcomma⟩:=h.head
  have hgo:(!(a++rest).isEmpty && (a++rest).headD 0 != 44)=true:=by
   rw [headD_append hne,Bool.and_eq_true,bne_iff_ne]
   exact ⟨by simp [hne],hcomma⟩
  have hhms:parseHms 24 (a++rest)=(.ok off,rest):=
   parseHms_complete h (by decide) (by rw [hrest]; decide) (by rw [hrest]; decide)
  rw [parseDstOffset,done_bind,peek_bind,if_pos hgo,bind_of_ok _ hhms,int32_hms h]
  rfl

lemma OffsetText.head {std utoff:ℤ} {a rest:Bytes} (h:OffsetText std utoff a) (hrest:rest.headD 0=44) :
 isLetter ((a++rest).headD 0)=false := by
 cases h with
 | absent=>
  rw [nil_append,hrest]
  decide
 | given h=>
  rw [headD_append h.head.1]
  exact h.head.2.1

lemma parsePosix_sound {tz:Bytes} {r:PosixRule} (hfit:NumbersFit tz) (h:parsePosix tz=.ok r) : RuleText r tz := by
 obtain ⟨s',h₀⟩:∃ s',parsePosixRule tz=(.ok r,s'):=⟨_,Prod.ext h rfl⟩
 obtain ⟨name,s₁,hname,h₁⟩:=bind_ok_inv h₀
 obtain ⟨a,ha,rfl⟩:=parseName_sound hname
 obtain ⟨off,s₂,hoff,h₂⟩:=bind_ok_inv h₁
 obtain ⟨b,hb,rfl⟩:=parseHms_sound hfit.of_append hoff
 rw [done_bind,int32_hms hb] at h₂
 split_ifs at h₂ with hend
 · cases h₂
   rw [isEmpty_iff.mp hend,append_nil]
   exact .standard ha hb
 · have hfit₂:=hfit.of_append.of_append
   obtain ⟨name',s₃,hname',h₃⟩:=bind_ok_inv h₂
   obtain ⟨a',ha',rfl⟩:=parseName_sound hname'
   obtain ⟨utoff,s₄,hutoff,h₄⟩:=bind_ok_inv h₃
   obtain ⟨b',hb',rfl⟩:=parseDstOffset_sound hfit₂.of_append hb.bound_neg hutoff
   obtain ⟨_,s₅,hcomma,h₅⟩:=bind_ok_inv h₄
   obtain rfl:=expect_sound (by decide) hcomma
   have hfit₅:NumbersFit s₅:=hfit₂.of_append.of_append.of_append (a:=[44])
   obtain ⟨start,s₆,hstart,h₆⟩:=bind_ok_inv h₅
   obtain ⟨c,hc,rfl⟩:=parseRuleDate_sound hfit₅ hstart
   obtain ⟨_,s₇,hcomma',h₇⟩:=bind_ok_inv h₆
   obtain rfl:=expect_sound (by decide) hcomma'
   obtain ⟨stop,s₈,hstop,h₈⟩:=bind_ok_inv h₇
   obtain ⟨e,he,rfl⟩:=parseRuleDate_sound (hfit₅.of_append.of_append (a:=[44])) hstop
   rw [done_bind] at h₈
   split_ifs at h₈ with htrail
   · cases h₈
   · cases h₈
     rw [Bool.not_eq_true,Bool.not_eq_false',List.isEmpty_iff] at htrail
     have hall:=RuleText.daylight ha hb ha' hb' hc he
     rw [htrail]
     simpa using hall

lemma parsePosix_complete {tz:Bytes} {r:PosixRule} (h:RuleText r tz) : parsePosix tz=.ok r := by
 cases h with
 | @standard name a b off ha hb=>
  have hoff:parseHms 24 b=(.ok off,[]):=by
   have:parseHms 24 (b++[])=_:=parseHms_complete hb (by decide) rfl (by decide)
   rwa [append_nil] at this
  rw [parsePosix,parsePosixRule,bind_of_ok _ (parseName_complete ha hb.head.2.1),bind_of_ok _ hoff,done_bind,
   if_pos isEmpty_nil,int32_hms hb]
  rfl
 | @daylight name name' a b a' b' c e off utoff start stop ha hb ha' hb' hc he=>
  obtain ⟨hne,hdigit,hcolon⟩:=ha'.head
  have hshape:a++b++(a'++b'++44::c++44::e)=a++(b++(a'++(b'++44::(c++44::(e++[]))))):=by
   simp
  have hletter:isLetter ((b++(a'++(b'++44::(c++44::(e++[]))))).headD 0)=false:=by
   rw [headD_append hb.head.1]
   exact hb.head.2.1
  have hoff:parseHms 24 (b++(a'++(b'++44::(c++44::(e++[])))))=(.ok off,_):=
   parseHms_complete hb (by decide) (by rw [headD_append hne]; exact hdigit) (by rw [headD_append hne]; exact hcolon)
  have hmore:¬(a'++(b'++44::(c++44::(e++[])))).isEmpty=true:=by simp [hne]
  rw [hshape,parsePosix,parsePosixRule,bind_of_ok _ (parseName_complete ha hletter),bind_of_ok _ hoff,done_bind,
   if_neg hmore,int32_hms hb,parseDst,bind_of_ok _ (parseName_complete ha' (hb'.head rfl)),
   bind_of_ok _ (parseDstOffset_complete hb.bound_neg hb' rfl),bind_of_ok _ (expect_complete 44 _),
   bind_of_ok _ (parseRuleDate_complete hc (.inr rfl)),bind_of_ok _ (expect_complete 44 _),
   bind_of_ok _ (parseRuleDate_complete he (.inl rfl)),done_bind,if_neg (by simp)]
  rfl

end Archivum.Tzif
