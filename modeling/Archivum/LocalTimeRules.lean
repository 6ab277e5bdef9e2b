import Archivum.LocalTime
import Archivum.CivilCalendar
import Archivum.DecimalText

set_option autoImplicit false

/-!
# Wall-clock texts name dates

The formulas of the code are those of the calendar: a date has the number of
its day since 1970-01-01, and the text made for a number is the date of that
day. A text is accepted exactly when it spells a date of the years 1970 to 9999
and a time of day, with 60 as a leap second.
-/
namespace Archivum.LocalTimes
open ByteStrings PageTxn RecordModel CivilCalendar DecimalText List

lemma floored_tdiv (z:ℤ) {n:ℤ} (hn:0<n) : (if 0≤z then z else z-(n-1)).tdiv n=z/n := by
 split_ifs with hz
 · exact Int.tdiv_eq_ediv_of_nonneg hz
 · have hpos:0≤n-1-z:=by omega
   rw [← neg_sub (n-1) z,Int.neg_tdiv,Int.tdiv_eq_ediv_of_nonneg hpos]
   have hsplit:n-1-z=n-1-z%n+n*(-(z/n)):=by
    have:=Int.emod_add_mul_ediv z n
    linarith
   have hmod:=Int.emod_nonneg z (ne_of_gt hn)
   have hmod':=Int.emod_lt_of_pos z hn
   rw [hsplit,Int.add_mul_ediv_left _ _ (ne_of_gt hn),Int.ediv_eq_zero_of_lt (by omega) (by omega)]
   omega

/-- The days before the year that starts in March of `y`, from the start of the year 0. -/
def marchStart (y:ℤ) : ℤ := 365*y+y/4-y/100+y/400

lemma daysFromCivil_march (y m d:ℤ) (h1:1 ≤ m) : daysFromCivil y m d =
 marchStart (if m≤2 then y-1 else y)+(153*(m+if 2 < m then -3 else 9)+2)/5+d-1-719468 := by
 have hfloor:∀ z:ℤ,(if 0≤z then z else z-399).tdiv 400=z/400:=fun z=>
  floored_tdiv z (n:=400) (by decide)
 have hmonth:0≤153*(m+if 2 < m then -3 else 9)+2:=by
  split_ifs <;> omega
 simp only [daysFromCivil,hfloor]
 generalize (if m≤2 then y-1 else y)=z
 have hyoe:0≤z-z/400*400:=by omega
 rw [Int.tdiv_eq_ediv_of_nonneg hmonth,Int.tdiv_eq_ediv_of_nonneg hyoe,Int.tdiv_eq_ediv_of_nonneg hyoe,marchStart]
 omega

lemma daysFromCivil_eq {m:ℤ} (y d:ℤ) (h1:1 ≤ m) (h2:m≤12) :
 daysFromCivil y m d=yearStart y+monthStart y (m-1).toNat+d-1 := by
 rw [daysFromCivil_march y m d h1]
 obtain ⟨k,rfl⟩:∃ k:ℕ,m=k+1:=⟨(m-1).toNat,by omega⟩
 have hk:k<12:=by omega
 rw [add_sub_cancel_right,Int.toNat_natCast]
 unfold marchStart yearStart
 by_cases hleap:Leap y
 all_goals
  have hy:=hleap
  unfold Leap at hy
  interval_cases k <;> simp [monthStart,monthLength,hleap] <;> omega

lemma exists_cycle {doe:ℤ} (h0:0≤doe) (h1:doe≤146096) : ∃ c b a doy : ℤ,0 ≤ c ∧ c≤3 ∧ 0≤b ∧ b≤24 ∧
 0≤a ∧ a≤3 ∧ 0≤doy ∧ doy≤365 ∧ (doy=365 → a=3 ∧ (b=24 → c=3)) ∧ doe=36524*c+1461*b+365*a+doy := by
 obtain ⟨c,r,hc0,hc3,hr0,hr,hlast,hdoe⟩:∃ c r:ℤ,0 ≤ c ∧ c≤3 ∧ 0 ≤ r ∧ r≤36524 ∧ (r=36524 → c=3) ∧
   doe=36524*c+r:=by
  by_cases h:doe=146096
  · exact ⟨3,36524,by omega⟩
  · exact ⟨doe/36524,doe%36524,by omega⟩
 obtain ⟨b,s,hb0,hb,hs0,hs,hlast',hr'⟩:∃ b s:ℤ,0≤b ∧ b≤24 ∧ 0 ≤ s ∧ s≤1460 ∧
   (s=1460 → b=24 → c=3) ∧ r=1461*b+s:=⟨r/1461,r%1461,by omega⟩
 by_cases h:s=1460
 · exact ⟨c,b,3,365,by omega⟩
 · exact ⟨c,b,s/365,s%365,by omega⟩

lemma yearOfEra {c b a doy doe:ℤ} (hc0:0 ≤ c) (hc3:c≤3) (hb0:0≤b) (hb:b≤24) (ha0:0≤a) (ha:a≤3)
 (hdoy0:0≤doy) (hdoy:doy≤365) (hlast:doy=365 → a=3 ∧ (b=24 → c=3)) (hdoe:doe=36524*c+1461*b+365*a+doy) :
 (doe-doe/1460+doe/36524-doe/146096)/365=100*c+4*b+a := by
 by_cases hfinal:c=3 ∧ b=24 ∧ a=3 ∧ doy=365
 · obtain ⟨rfl,rfl,rfl,rfl⟩:=hfinal
   rw [hdoe]
   rfl
 · have hera:doe/146096=0:=by omega
   have hcentury:doe/36524=c:=by omega
   rw [hera,hcentury]
   -- the fours of a century make up 24 days and a leap day each
   by_cases hcarry:1460≤24*c+b+365*a+doy
   · have hfours:doe/1460=25*c+b+1:=by omega
     rw [hfours]
     omega
   · have hfours:doe/1460=25*c+b:=by omega
     rw [hfours]
     omega

lemma marchStart_era (era:ℤ) {yoe:ℤ} (h0:0≤yoe) (h400:yoe<400) :
 marchStart (yoe+era*400)=era*146097+365*yoe+yoe/4-yoe/100 := by
 unfold marchStart
 omega

lemma march_of_day {z era doe yoe doy:ℤ} (hera:era=(if 0≤z then z else z-146096).tdiv 146097)
 (hdoe:doe=z-era*146097)
 (hyoe:yoe=(doe-doe.tdiv 1460+doe.tdiv 36524-doe.tdiv 146096).tdiv 365)
 (hdoy:doy=doe-(365*yoe+yoe.tdiv 4-yoe.tdiv 100)) :
 marchStart (yoe+era*400)+doy=z ∧ 0≤doy ∧ doy≤365 ∧ (doy=365 → Leap (yoe+era*400+1)) := by
 have hfloor:era=z/146097:=hera.trans (floored_tdiv z (n:=146097) (by decide))
 have h0:0≤doe:=by omega
 have h1:doe≤146096:=by omega
 obtain ⟨c,b,a,k,hc0,hc3,hb0,hb,ha0,ha,hk0,hk,hlast,hsum⟩:=exists_cycle h0 h1
 rw [Int.tdiv_eq_ediv_of_nonneg h0,Int.tdiv_eq_ediv_of_nonneg h0,Int.tdiv_eq_ediv_of_nonneg h0,
  Int.tdiv_eq_ediv_of_nonneg (by omega),yearOfEra hc0 hc3 hb0 hb ha0 ha hk0 hk hlast hsum] at hyoe
 have hyoe0:0≤yoe:=by omega
 rw [Int.tdiv_eq_ediv_of_nonneg hyoe0,Int.tdiv_eq_ediv_of_nonneg hyoe0] at hdoy
 have hfours:yoe/4=25*c+b:=by omega
 have hcentury:yoe/100=c:=by omega
 have hday:doy=k:=by omega
 refine ⟨?_,by omega,by omega,?_⟩
 · rw [marchStart_era era hyoe0 (by omega),hfours,hcentury]
   omega
 · intro hlong
   unfold Leap
   omega

def dateText (a:Date) : String := padded 4 a.year ++ "-" ++ padded 2 a.month ++ "-" ++ padded 2 a.day

lemma month_of_day {y doy mp d m:ℤ} (h0:0≤doy) (h365:doy≤365) (hlong:doy=365 → Leap (y+1))
 (hmp:mp=(5*doy+2)/153) (hd:d=doy-(153*mp+2)/5+1) (hm:m=mp+if mp<10 then 3 else -9) :
 1 ≤ m ∧ m≤12 ∧ 1≤d ∧ d ≤ monthLength (y+if m≤2 then 1 else 0) m ∧
  (if m≤2 then (y+if m≤2 then 1 else 0)-1 else y+if m≤2 then 1 else 0)=y ∧
  (m+if 2 < m then -3 else 9)=mp := by
 have hmp0:0 ≤ mp:=by omega
 have hmp11:mp≤11:=by omega
 interval_cases mp <;> simp at hm <;> subst hm
 all_goals simp [monthLength]
 all_goals try omega
 split_ifs with hleap
 · omega
 · have:doy≠365:=fun h=>hleap (hlong h)
   omega

lemma exists_date {z era doe yoe doy mp d m:ℤ} (hera:era=(if 0≤z then z else z-146096).tdiv 146097)
 (hdoe:doe=z-era*146097)
 (hyoe:yoe=(doe-doe.tdiv 1460+doe.tdiv 36524-doe.tdiv 146096).tdiv 365)
 (hdoy:doy=doe-(365*yoe+yoe.tdiv 4-yoe.tdiv 100)) (hmp:mp=(5*doy+2).tdiv 153)
 (hd:d=doy-(153*mp+2).tdiv 5+1) (hm:m=mp+if mp<10 then 3 else -9) :
 ∃ a : Date,a.number=z-719468 ∧ a.year=yoe+era*400+(if m≤2 then 1 else 0) ∧ a.month=m ∧ a.day=d := by
 obtain ⟨hsum,h0,h365,hlong⟩:=march_of_day hera hdoe hyoe hdoy
 rw [Int.tdiv_eq_ediv_of_nonneg (by omega)] at hmp
 rw [Int.tdiv_eq_ediv_of_nonneg (by omega)] at hd
 obtain ⟨hm1,hm12,hd1,hdle,hyear,hmonth⟩:=month_of_day h0 h365 hlong hmp hd hm
 refine ⟨⟨_,m,d,hm1,hm12,hd1,hdle⟩,?_,rfl,rfl,rfl⟩
 rw [Date.number,← daysFromCivil_eq _ _ hm1 hm12,daysFromCivil_march _ _ _ hm1,hyear,hmonth]
 dsimp only
 omega

lemma formatLocalDay_eq (z:ℤ) : ∃ a : Date,a.number=z ∧ formatLocalDay z=dateText a := by
 obtain ⟨a,hnumber,hyear,hmonth,hday⟩:=exists_date (z:=z+719468) rfl rfl rfl rfl rfl rfl rfl
 refine ⟨a,by omega,?_⟩
 rw [dateText,hyear,hmonth,hday]
 rfl

lemma num_eq (s:Bytes) : num s=if s.all isDigit then some (value s:ℤ) else none := by
 induction s using reverseRecOn with
 | nil=>rfl
 | append_singleton s b ih=>
  have hstep:num (s++[b])=(num s).bind fun n=>
    if 48≤b.toNat ∧ b.toNat≤57 then some (n*10+(b.toNat-48)) else none:=by
   rw [num,foldl_append]
   rfl
  have hdigit:isDigit b=true ↔ 48≤b.toNat ∧ b.toNat≤57:=decide_eq_true_iff
  rw [hstep,ih,all_append,value_concat]
  by_cases hs:s.all isDigit=true
  · by_cases hb:isDigit b=true
    · have hcast:((b.toNat-48:ℕ):ℤ)=b.toNat-48:=Nat.cast_sub (hdigit.mp hb).1
      simp [hs,hb,hdigit.mp hb,hcast]
    · have hb':=hb
      rw [hdigit] at hb'
      simp [hs,hb,hb']
  · simp [hs]

lemma num_fixed {w n:ℕ} (h:n<10^w) : num (fixed w n)=some (n:ℤ) := by
 rw [num_eq,if_pos (fixed_isDigit w n),value_fixed h]

lemma num_some {s:Bytes} {v:ℤ} (h:num s=some v) : 0≤v ∧ s=fixed s.length v.toNat := by
 rw [num_eq] at h
 split_ifs at h with hs
 obtain rfl:=Option.some.inj h
 exact ⟨Int.natCast_nonneg _,by rw [Int.toNat_natCast,fixed_value hs]⟩

lemma ascii_append (s t:String) : ascii (s++t)=ascii s++ascii t := by
 rw [ascii,String.toList_append,map_append]
 rfl

lemma fixed_toDigits {w n:ℕ} (h:n<10^(w+1)) : (replicate (w+1-(Nat.toDigits 10 n).length) '0' ++ Nat.toDigits 10 n).map
  (fun c=>UInt8.ofNat c.toNat)=fixed (w+1) n := by
 have hdigit:∀ k<10,UInt8.ofNat (Nat.digitChar k).toNat=digit k:=by decide
 induction w generalizing n with
 | zero=>
  rw [Nat.toDigits_of_lt_base (by simpa using h)]
  have:=hdigit n (by simpa using h)
  simp [fixed,this,Nat.mod_eq_of_lt (by simpa using h:n<10)]
 | succ w ih=>
  rw [pow_succ] at h
  rw [fixed]
  by_cases hn:n<10
  · have hzero:=ih (n:=0) (by positivity)
    rw [Nat.toDigits_of_lt_base hn,Nat.div_eq_of_lt hn,Nat.mod_eq_of_lt hn,← hzero,← hdigit n hn,Nat.toDigits_zero]
    simp [← replicate_succ']
  · rw [Nat.toDigits_of_base_le (by decide) (by omega),← ih (by omega),← hdigit _ (Nat.mod_lt n (by decide)),
     length_append,length_singleton,Nat.add_sub_add_right,← append_assoc,map_append]
    rfl

lemma ascii_padded {w:ℕ} {v:ℤ} (h0:0≤v) (h:v<10^(w+1)) : ascii (padded (w+1) v)=fixed (w+1) v.toNat := by
 obtain ⟨n,rfl⟩:=Int.eq_ofNat_of_zero_le h0
 have hn:n<10^(w+1):=by exact_mod_cast h
 have hdigits:toString n=String.ofList (Nat.toDigits 10 n):=rfl
 have hsign:(if (n:ℤ)<0 then "-" else "") = "":=if_neg (by omega)
 rw [Int.toNat_natCast,← fixed_toDigits hn,padded,Int.natAbs_natCast,hdigits,hsign]
 simp [ascii]

/-- A date and a time of day that a punch may carry. -/
structure WallClock where
 date : Date
 hour : ℕ
 minute : ℕ
 second : ℕ
 year_ge : 1970 ≤ date.year
 year_le : date.year ≤ 9999
 hour_le : hour ≤ 23
 minute_le : minute ≤ 59
 second_le : second ≤ 60

namespace WallClock

/-- `YYYY-MM-DDTHH:MM:SS` -/
def text (c:WallClock) : Bytes :=
 fixed 4 c.date.year.toNat++ascii "-" ++ fixed 2 c.date.month.toNat++ascii "-" ++ fixed 2 c.date.day.toNat ++
  ascii "T" ++ fixed 2 c.hour++ascii ":" ++ fixed 2 c.minute++ascii ":" ++ fixed 2 c.second

def localTime (c:WallClock) : LocalTime :=
 { year:=c.date.year,month:=c.date.month,day:=c.date.day,hour:=c.hour,minute:=c.minute
   second:=c.second,localDay:=c.date.number,weekday:=weekdayOfDay c.date.number
   minuteOfDay:=c.hour*60+c.minute }

end WallClock

lemma lastDay_eq (y:ℤ) {m:ℤ} (h1:1 ≤ m) (h2:m≤12) : lastDay y m=monthLength y m := by
 have hleap:leap y=false ↔ ¬Leap y:=decide_eq_false_iff_not
 unfold lastDay monthLength
 by_cases hy:Leap y <;> interval_cases m <;> simp [daysInMonth,hleap,hy]

lemma validClock_iff {y m d h mi s:ℤ} : validClock y m d h mi s=true ↔
 1970≤y ∧ y≤9999 ∧ 1 ≤ m ∧ m≤12 ∧ 1≤d ∧ d ≤ monthLength y m ∧ h≤23 ∧ mi≤59 ∧ s≤60 := by
 rw [validClock,decide_eq_true_iff]
 constructor
 · rintro ⟨h1,h2,h3,h4,h5,h6,h7⟩
   rw [lastDay_eq y h3 h4] at h6
   exact ⟨h1,h2,h3,h4,h5,h6,h7⟩
 · rintro ⟨h1,h2,h3,h4,h5,h6,h7⟩
   rw [← lastDay_eq y h3 h4] at h6
   exact ⟨h1,h2,h3,h4,h5,h6,h7⟩

lemma split_fields {s:Bytes} (h:s.length=19) : s=slice s 0 4++slice s 4 1++slice s 5 2++slice s 7 1 ++
 slice s 8 2++slice s 10 1++slice s 11 2++slice s 13 1++slice s 14 2++slice s 16 1++slice s 17 2 := by
 have hstep:∀ i n:ℕ,s.drop i=slice s i n++s.drop (i+n):=by
  intro i n
  rw [slice,← drop_drop,take_append_drop]
 have hend:s.drop 19=[]:=drop_eq_nil_of_le (le_of_eq h)
 have hall:s=s.drop 0:=rfl
 rw [hstep 0 4,hstep 4 1,hstep 5 2,hstep 7 1,hstep 8 2,hstep 10 1,hstep 11 2,hstep 13 1,hstep 14 2,hstep 16 1,
  hstep 17 2,hend,append_nil] at hall
 simpa only [append_assoc] using hall

lemma parseLocalTime_fields {s:Bytes} (hs:wellShaped s=true) {y m d h mi se:ℤ} (hy:num (slice s 0 4)=some y)
  (hm:num (slice s 5 2)=some m) (hd:num (slice s 8 2)=some d) (hh:num (slice s 11 2)=some h)
  (hmi:num (slice s 14 2)=some mi) (hse:num (slice s 17 2)=some se)
  (hvalid:validClock y m d h mi se=true) : parseLocalTime s=.ok
   { year:=y,month:=m,day:=d,hour:=h,minute:=mi,second:=se,localDay:=daysFromCivil y m d
     weekday:=weekdayOfDay (daysFromCivil y m d),minuteOfDay:=h*60+mi } := by
 simp only [parseLocalTime,hs,hy,hm,hd,hh,hmi,hse,hvalid,Bool.not_true,Bool.false_eq_true,if_false]

lemma parseLocalTime_inv {s:Bytes} {t:LocalTime} (ht:parseLocalTime s=.ok t) : wellShaped s=true ∧
 ∃ y m d h mi se : ℤ,num (slice s 0 4)=some y ∧ num (slice s 5 2)=some m ∧ num (slice s 8 2)=some d ∧
  num (slice s 11 2)=some h ∧ num (slice s 14 2)=some mi ∧ num (slice s 17 2)=some se ∧ validClock y m d h mi se=true := by
 unfold parseLocalTime at ht
 split_ifs at ht with hs
 rw [Bool.not_eq_true,Bool.not_eq_false'] at hs
 refine ⟨hs,?_⟩
 split at ht
 · rename_i y m d h mi se hy hm hd hh hmi hse
   split_ifs at ht with hvalid
   rw [Bool.not_eq_true,Bool.not_eq_false'] at hvalid
   exact ⟨y,m,d,h,mi,se,hy,hm,hd,hh,hmi,hse,hvalid⟩
 · cases ht

namespace WallClock

def fields (c:WallClock) : List Bytes :=
 [fixed 4 c.date.year.toNat,ascii "-",fixed 2 c.date.month.toNat,ascii "-",fixed 2 c.date.day.toNat,ascii "T",
  fixed 2 c.hour,ascii ":",fixed 2 c.minute,ascii ":",fixed 2 c.second]

lemma text_eq (c:WallClock) : c.text=c.fields.flatten := by
 simp only [text,fields,flatten_cons,flatten_nil,append_assoc,append_nil]

lemma slice_text (c:WallClock) (i:ℕ) {b:Bytes} {o l:ℕ} (hb:c.fields[i]? = some b)
 (ho:(c.fields.take i).flatten.length=o) (hl:b.length=l) : slice c.text o l=b := by
 rw [text_eq]
 exact slice_flatten c.fields i hb ho hl

lemma wellShaped_text (c:WallClock) : wellShaped c.text=true := by
 have hlen:c.text.length=19:=by simp [text_eq,fields,ascii]
 exact decide_eq_true ⟨hlen,c.slice_text 1 rfl (by simp [fields]) rfl,
  c.slice_text 3 rfl (by simp [fields,ascii]) rfl,c.slice_text 5 rfl (by simp [fields,ascii]) rfl,
  c.slice_text 7 rfl (by simp [fields,ascii]) rfl,c.slice_text 9 rfl (by simp [fields,ascii]) rfl⟩

lemma num_field (c:WallClock) (i:ℕ) {w o:ℕ} {v:ℤ} (hb:c.fields[i]? = some (fixed w v.toNat))
 (ho:(c.fields.take i).flatten.length=o) (h0:0≤v) (h:v<10^w) : num (slice c.text o w)=some v := by
 have hlt:v.toNat<10^w:=by
  zify
  rwa [Int.toNat_of_nonneg h0]
 rw [c.slice_text i hb ho (fixed_length _ _),num_fixed hlt,Int.toNat_of_nonneg h0]

end WallClock

lemma parseLocalTime_text (c:WallClock) : parseLocalTime c.text=.ok c.localTime := by
 have hyear:=c.year_ge
 have hyear':=c.year_le
 have hmonth:=c.date.one_le_month
 have hmonth':=c.date.month_le
 have hday:=c.date.one_le_day
 have hday':c.date.day≤31:=by
  refine c.date.day_le.trans ?_
  unfold monthLength
  split_ifs <;> decide
 have hhour:=c.hour_le
 have hminute:=c.minute_le
 have hsecond:=c.second_le
 have hvalid:validClock c.date.year c.date.month c.date.day c.hour c.minute c.second=true:=
  validClock_iff.mpr ⟨hyear,hyear',hmonth,hmonth',hday,c.date.day_le,by omega,by omega,by omega⟩
 rw [parseLocalTime_fields c.wellShaped_text (c.num_field 0 rfl rfl (by omega) (by omega))
  (c.num_field 2 rfl (by simp [WallClock.fields,ascii]) (by omega) (by omega))
  (c.num_field 4 rfl (by simp [WallClock.fields,ascii]) (by omega) (by omega))
  (c.num_field 6 rfl (by simp [WallClock.fields,ascii]) (Int.natCast_nonneg c.hour) (by omega))
  (c.num_field 8 rfl (by simp [WallClock.fields,ascii]) (Int.natCast_nonneg c.minute) (by omega))
  (c.num_field 10 rfl (by simp [WallClock.fields,ascii]) (Int.natCast_nonneg c.second) (by omega)) hvalid,
  daysFromCivil_eq _ _ hmonth hmonth']
 rfl

lemma parseLocalTime_ok {s:Bytes} {t:LocalTime} (ht:parseLocalTime s=.ok t) : ∃ c : WallClock,s=c.text := by
 obtain ⟨hs,y,m,d,h,mi,se,hy,hm,hd,hh,hmi,hse,hvalid⟩:=parseLocalTime_inv ht
 obtain ⟨hlen,h4,h7,h10,h13,h16⟩:=of_decide_eq_true hs
 obtain ⟨hv1,hv2,hv3,hv4,hv5,hv6,hv7,hv8,hv9⟩:=validClock_iff.mp hvalid
 have hfield:∀ {o l:ℕ} {v:ℤ},o+l≤19 → num (slice s o l)=some v → 0≤v ∧ slice s o l=fixed l v.toNat:=by
  intro o l v hle hv
  have hl:(slice s o l).length=l:=slice_length s o l (by omega)
  have:=num_some hv
  rwa [hl] at this
 obtain ⟨-,hy⟩:=hfield (by decide) hy
 obtain ⟨-,hm⟩:=hfield (by decide) hm
 obtain ⟨-,hd⟩:=hfield (by decide) hd
 obtain ⟨hh0,hh⟩:=hfield (by decide) hh
 obtain ⟨hmi0,hmi⟩:=hfield (by decide) hmi
 obtain ⟨hse0,hse⟩:=hfield (by decide) hse
 refine ⟨⟨⟨y,m,d,hv3,hv4,hv5,hv6⟩,h.toNat,mi.toNat,se.toNat,hv1,hv2,by omega,by omega,by omega⟩,?_⟩
 rw [split_fields hlen,hy,hm,hd,hh,hmi,hse,h4,h7,h10,h13,h16]
 rfl

lemma weekdayOfDay_eq (d:ℤ) : weekdayOfDay d=(d+4)%7 := by
 unfold weekdayOfDay
 dsimp only
 rcases le_total 0 (d+4) with h | h
 · rw [Int.tmod_eq_emod_of_nonneg h,if_neg (by omega)]
 · obtain ⟨k,hk⟩:=Int.eq_ofNat_of_zero_le (by omega:0≤-(d+4))
   have hneg:d+4 = -(k:ℤ):=by omega
   rw [hneg,Int.neg_tmod,Int.tmod_eq_emod_of_nonneg (Int.natCast_nonneg k)]
   split_ifs <;> omega

lemma text_of_day {d:ℤ} (h0:0≤d) (h:d<yearStart 10000) : ∃ c : WallClock,c.date.number=d ∧
 ascii (formatLocalDay d)++ascii "T00:00:00" = c.text := by
 obtain ⟨a,ha,htext⟩:=formatLocalDay_eq d
 have hge:1970≤a.year:=by
  have hlt:=lt_of_le_of_lt (show yearStart 1970≤a.number by rw [ha]; exact h0) a.number_lt
  have:=yearStart_strictMono.lt_iff_lt.mp hlt
  omega
 have hle:a.year≤9999:=by
  have:=yearStart_strictMono.lt_iff_lt.mp (lt_of_le_of_lt a.yearStart_le_number (ha ▸ h))
  omega
 have hmonth:=a.one_le_month
 have hmonth':=a.month_le
 have hday:=a.one_le_day
 have hday':a.day≤31:=by
  refine a.day_le.trans ?_
  unfold monthLength
  split_ifs <;> decide
 refine ⟨⟨a,0,0,0,hge,hle,by decide,by decide,by decide⟩,ha,?_⟩
 rw [htext,dateText]
 simp only [ascii_append]
 rw [ascii_padded (by omega) (by omega),ascii_padded (by omega) (by omega),ascii_padded (by omega) (by omega)]
 simp only [WallClock.text,append_assoc]
 rfl

/-- A text of 19 characters is accepted exactly when it spells a date of the years 1970 to 9999 and a time of day. The
day is the number of days after 1970-01-01, and the text of a day is read back as the day, on the weekday after. -/
theorem parseLocalTime_accepts :
  (∀ s:Bytes,s.length=19 → ((∃ t,parseLocalTime s=.ok t) ↔ ∃ c:WallClock,s=c.text)) ∧
   (∀ c:WallClock,∃ t,parseLocalTime c.text=.ok t ∧ 0 ≤ t.localDay ∧
    Date.next^[t.localDay.toNat] Date.epoch=c.date) ∧
   (∀ c c':WallClock,c'.date=c.date.next → ∃ t t',parseLocalTime c.text=.ok t ∧
    parseLocalTime c'.text=.ok t' ∧ t'.localDay=t.localDay+1) ∧
   ∀ d : ℤ,0 ≤ d → d<yearStart 10000 →
    ∃ t,parseLocalTime (ascii (formatLocalDay d)++ascii "T00:00:00")=.ok t ∧ t.localDay=d ∧
     t.weekday=(weekdayOfDay (d-1)+1)%7 := by
 refine ⟨?_,?_,?_,?_⟩
 · intro s _
   constructor
   · rintro ⟨t,ht⟩
     exact parseLocalTime_ok ht
   · rintro ⟨c,rfl⟩
     exact ⟨_,parseLocalTime_text c⟩
 · intro c
   have hday:0 ≤ c.date.number:=by
    refine le_trans ?_ c.date.yearStart_le_number
    exact (yearStart_strictMono.le_iff_le.mpr c.year_ge:yearStart 1970 ≤ _)
   exact ⟨_,parseLocalTime_text c,hday,Date.iterate_number (Int.toNat_of_nonneg hday).symm⟩
 · intro c c' hnext
   refine ⟨_,_,parseLocalTime_text c,parseLocalTime_text c',?_⟩
   rw [WallClock.localTime,hnext]
   exact c.date.number_next
 · intro d h0 h
   obtain ⟨c,hc,htext⟩:=text_of_day h0 h
   refine ⟨c.localTime,htext ▸ parseLocalTime_text c,hc,?_⟩
   change weekdayOfDay c.date.number=_
   rw [hc,weekdayOfDay_eq,weekdayOfDay_eq]
   omega

/-- A leap second on a leap day, and the day after it. -/
theorem leapDay_accepted : (∃ t,parseLocalTime (ascii "2024-02-29T23:59:60")=.ok t) ∧
  ∃ t,parseLocalTime (ascii (formatLocalDay 19783)++ascii "T00:00:00")=.ok t ∧ t.localDay=19783 ∧
   t.weekday=(weekdayOfDay 19782+1)%7 := by
 obtain ⟨haccept,-,-,hdays⟩:=parseLocalTime_accepts
 constructor
 · exact (haccept _ rfl).mpr ⟨⟨⟨2024,2,29,by decide,by decide,by decide,by decide⟩,23,59,60,by decide,by decide,
    by decide,by decide,by decide⟩,by decide⟩
 · exact hdays 19783 (by decide) (by decide)

end Archivum.LocalTimes
