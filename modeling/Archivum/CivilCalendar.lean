import Mathlib

set_option autoImplicit false

/-!
# The Gregorian calendar

Dates, the day after a date, and the number of a day, counted from 1970-01-01.
Years are those of the proleptic calendar, so the numbers go both ways. A year
that starts in March ends with its leap day, which is why the closed formulas
count years from there.
-/
namespace Archivum.CivilCalendar

def Leap (y:ℤ) : Prop := y%4=0 ∧ y%100≠0 ∨ y%400=0

instance (y:ℤ) : Decidable (Leap y) := inferInstanceAs (Decidable (_ ∨ _))

def yearLength (y:ℤ) : ℤ := if Leap y then 366 else 365

def monthLength (y m:ℤ) : ℤ :=
 if m=2 then if Leap y then 29 else 28 else if m=4 ∨ m=6 ∨ m=9 ∨ m=11 then 30 else 31

@[ext]
structure Date where
 year : ℤ
 month : ℤ
 day : ℤ
 one_le_month : 1 ≤ month
 month_le : month ≤ 12
 one_le_day : 1 ≤ day
 day_le : day ≤ monthLength year month

lemma one_le_monthLength (y m:ℤ) : 1 ≤ monthLength y m := by
 unfold monthLength
 split_ifs <;> decide

namespace Date

def epoch : Date := ⟨1970,1,1,by decide,by decide,by decide,by decide⟩

def next (a:Date) : Date :=
 if h:a.day < monthLength a.year a.month then
  { a with day:=a.day+1,one_le_day:=by have:=a.one_le_day; omega,day_le:=h }
 else if h:a.month<12 then
  { year:=a.year,month:=a.month+1,day:=1
    one_le_month:=by have:=a.one_le_month; omega
    month_le:=h
    one_le_day:=le_refl 1
    day_le:=one_le_monthLength _ _ }
 else
  { year:=a.year+1,month:=1,day:=1
    one_le_month:=le_refl 1
    month_le:=by decide
    one_le_day:=le_refl 1
    day_le:=one_le_monthLength _ _ }

end Date

def yearStart (y:ℤ) : ℤ := 365*y+(y-1)/4-(y-1)/100+(y-1)/400-719527

lemma yearStart_succ (y:ℤ) : yearStart (y+1)=yearStart y+yearLength y := by
 unfold yearStart yearLength
 split_ifs with h
 all_goals
  unfold Leap at h
  omega

/-- The days of a year before the month that `months` others precede. -/
def monthStart (y:ℤ) : ℕ → ℤ
 | 0=>0
 | months+1=>monthStart y months+monthLength y (months+1)

lemma monthStart_year (y:ℤ) : monthStart y 12=yearLength y := by
 by_cases h:Leap y <;> simp [monthStart,monthLength,yearLength,h]

namespace Date

def number (a:Date) : ℤ := yearStart a.year+monthStart a.year (a.month-1).toNat+a.day-1

lemma number_epoch : epoch.number=0 := by decide

lemma number_next (a:Date) : a.next.number=a.number+1 := by
 have hmonth:=a.one_le_month
 have hday:=a.day_le
 unfold next
 split_ifs with hd hm
 · simp only [number]
   omega
 · have hsucc:(a.month+1-1).toNat=(a.month-1).toNat+1:=by omega
   have hcast:(((a.month-1).toNat:ℤ)+1)=a.month:=by omega
   simp only [number,hsucc,monthStart,hcast]
   omega
 · have hlast:a.month=12:=by
    have:=a.month_le
    omega
   have hyear:=monthStart_year a.year
   have hsum:monthStart a.year 12=monthStart a.year 11+monthLength a.year 12:=rfl
   rw [hlast] at hd hday
   simp only [number,hlast,yearStart_succ]
   change _+monthStart (a.year+1) 0+1-1=_+monthStart a.year 11+a.day-1+1
   rw [monthStart]
   omega

lemma number_iterate (n:ℕ) : (next^[n] epoch).number=n := by
 induction n with
 | zero=>exact number_epoch
 | succ n ih=>rw [Function.iterate_succ_apply',number_next,ih,Nat.cast_succ]

lemma monthStart_nonneg (y:ℤ) (m:ℕ) : 0 ≤ monthStart y m := by
 induction m with
 | zero=>exact le_refl 0
 | succ m ih=>
  have:=one_le_monthLength y (m+1)
  rw [monthStart]
  omega

lemma monthStart_mono (y:ℤ) : Monotone (monthStart y) := by
 refine monotone_nat_of_le_succ fun m=>?_
 have:=one_le_monthLength y (m+1)
 rw [monthStart]
 omega

lemma yearStart_le_number (a:Date) : yearStart a.year≤a.number := by
 have:=monthStart_nonneg a.year (a.month-1).toNat
 have:=a.one_le_day
 unfold number
 omega

lemma number_lt (a:Date) : a.number<yearStart (a.year+1) := by
 have hmonth:=a.one_le_month
 have hle:=a.month_le
 have hday:=a.day_le
 have hstart:monthStart a.year ((a.month-1).toNat+1) ≤ monthStart a.year 12:=
  monthStart_mono a.year (by omega)
 have hcast:(((a.month-1).toNat:ℤ)+1)=a.month:=by omega
 rw [monthStart,monthStart_year,hcast] at hstart
 rw [number,yearStart_succ]
 omega

end Date

lemma yearStart_strictMono : StrictMono yearStart := by
 refine strictMono_int_of_lt_succ fun y=>?_
 rw [yearStart_succ]
 unfold yearLength
 split_ifs <;> omega

lemma year_unique {y z:ℤ} {n:ℤ} (hy:yearStart y≤n) (hy':n<yearStart (y+1)) (hz:yearStart z≤n)
 (hz':n<yearStart (z+1)) : y=z := by
 have h1:=yearStart_strictMono.lt_iff_lt.mp (lt_of_le_of_lt hy hz')
 have h2:=yearStart_strictMono.lt_iff_lt.mp (lt_of_le_of_lt hz hy')
 omega

namespace Date

lemma number_injective : Function.Injective number := by
 intro a b h
 have hyear:a.year=b.year:=by
  refine year_unique a.yearStart_le_number a.number_lt ?_ ?_ <;> rw [h]
  · exact b.yearStart_le_number
  · exact b.number_lt
 -- the days before the month and those before the next one
 have hbracket:∀ c:Date,monthStart c.year (c.month-1).toNat ≤ c.number-yearStart c.year ∧
   c.number-yearStart c.year < monthStart c.year ((c.month-1).toNat+1):=by
  intro c
  have hfirst:=c.one_le_day
  have hlast:=c.day_le
  have hcast:(((c.month-1).toNat:ℤ)+1)=c.month:=by
   have:=c.one_le_month
   omega
  rw [monthStart,hcast,number]
  omega
 have ha:=hbracket a
 have hb:=hbracket b
 rw [← h,← hyear] at hb
 have hmonths:(a.month-1).toNat=(b.month-1).toNat:=by
  have h1:=(monthStart_mono a.year).reflect_lt (lt_of_le_of_lt ha.1 hb.2)
  have h2:=(monthStart_mono a.year).reflect_lt (lt_of_le_of_lt hb.1 ha.2)
  omega
 have hmonth:a.month=b.month:=by
  have:=a.one_le_month
  have:=b.one_le_month
  omega
 have hday:a.day=b.day:=by
  rw [number,number,hyear,hmonths] at h
  omega
 exact Date.ext hyear hmonth hday

lemma iterate_number {a:Date} {n:ℕ} (h:a.number=n) : next^[n] epoch=a :=
 number_injective (by rw [number_iterate,h])

end Date

end Archivum.CivilCalendar
