import Archivum.LocalTimeRules
import Archivum.TzifModel

set_option autoImplicit false

/-!
# The years of a rule

At an instant the latest transition of the rule decides. The code looks at the
transitions of three years. That is enough when both dates, with their times,
take effect before their year is over: then those of the year before the
instant's have all happened, and those of earlier years do not matter.
-/
namespace Archivum.Tzif
open ByteStrings RecordModel CivilCalendar List
open LocalTimes (daysFromCivil weekdayOfDay leap floored_tdiv daysFromCivil_eq weekdayOfDay_eq exists_date)

/-- Years of these instants fit an `int`. -/
def YearsFit (instant:ℤ) : Prop := -67000000000000000 ≤ instant ∧ instant ≤ 67000000000000000

instance (instant:ℤ) : Decidable (YearsFit instant) := inferInstanceAs (Decidable (_ ∧ _))

lemma yearOfInstant_eq {x:ℤ} (h : -67700000000000000<x) (h':x<67700000000000000) :
 yearStart (yearOfInstant x)*86400≤x ∧ x<yearStart (yearOfInstant x+1)*86400 := by
 have hday:(if 0≤x then x else x-86399).tdiv 86400=x/86400:=floored_tdiv x (n:=86400) (by decide)
 obtain ⟨a,hnumber,hyear,-,-⟩:=exists_date (z:=x/86400+719468) rfl rfl rfl rfl rfl rfl rfl
 have hlow:=a.yearStart_le_number
 have hhigh:=a.number_lt
 rw [hnumber] at hlow hhigh
 have hfit:int32 a.year=a.year:=by
  refine int32_of_lt ?_ ?_
  · by_contra hneg
    have hmono:=yearStart_strictMono.monotone (show a.year+1≤-2^31 by omega)
    have hlast:yearStart (-2^31) = -784353015833:=by decide
    omega
  · by_contra hbig
    have hmono:=yearStart_strictMono.monotone (show 2^31≤a.year by omega)
    have hfirst:yearStart (2^31)=784351576777:=by decide
    omega
 have heq:yearOfInstant x=a.year:=by
  rw [← hfit,hyear,yearOfInstant,hday]
 rw [heq]
 omega

lemma monthStart_add_length (y:ℤ) {m:ℤ} (h1:1 ≤ m) : monthStart y (m-1).toNat+monthLength y m=monthStart y m.toNat := by
 have hsucc:m.toNat=(m-1).toNat+1:=by omega
 have hcast:(((m-1).toNat:ℤ)+1)=m:=by omega
 rw [hsucc,monthStart,hcast]

lemma dim_eq (y:ℤ) {m:ℤ} (h1:1 ≤ m) (h12:m≤12) :
 dim.getD (m-1).toNat 0+(if m=2 ∧ leap y=true then 1 else 0)=monthLength y m := by
 have hleap:leap y=true ↔ Leap y:=decide_eq_true_iff
 unfold monthLength
 by_cases hy:Leap y <;> interval_cases m <;> simp [dim,hleap,hy]

lemma backTo_bounds {lo last:ℤ} (hlast:lo+6≤last) {n:ℕ} {day:ℤ} (hn:day-last≤n) (hlo:lo≤day) :
 lo≤backTo last n day ∧ backTo last n day≤last ∧ backTo last n day≤day := by
 induction n generalizing day with
 | zero=>
  rw [backTo]
  omega
 | succ n ih=>
  rw [backTo]
  split_ifs with hpast
  · have:=ih (show day-7-last≤n by omega) (by omega)
    omega
  · omega

def slack (d:RuleDate) : ℤ :=
 match d.kind with
 | .monthWeekDay=>if d.month<12 then 31 else max 1 (32-7*d.week)
 | .julianNoLeap=>366-d.day
 | .julianZeroBased=>365-d.day

lemma yearLength_bounds (y:ℤ) : 365≤yearLength y ∧ yearLength y≤366 := by
 unfold yearLength
 split_ifs <;> omega

lemma weekday_range (d:ℤ) : 0≤weekdayOfDay d ∧ weekdayOfDay d≤6 := by
 rw [weekdayOfDay_eq]
 omega

lemma ruleDay_month {y:ℤ} {d:RuleDate} (hkind:d.kind=.monthWeekDay) (h:d.Checked) :
 yearStart y ≤ ruleDay y d ∧ ruleDay y d+slack d≤yearStart (y+1) := by
 unfold RuleDate.Checked at h
 rw [hkind] at h
 obtain ⟨hm1,hm12,hw1,hw5,hk0,hk6⟩:=h
 have hyear:=yearStart_succ y
 have hmonths:=monthStart_year y
 have hdec:monthStart y 12=monthStart y 11+31:=rfl
 have hend:=monthStart_add_length y hm1
 have hmono:=Date.monthStart_mono y
 have hfirst:=daysFromCivil_eq y 1 hm1 hm12
 have hpos:=Date.monthStart_nonneg y (d.month-1).toNat
 have hlength:28 ≤ monthLength y d.month:=by
  unfold monthLength
  split_ifs <;> omega
 have hwd:=weekday_range (daysFromCivil y d.month 1)
 unfold ruleDay slack
 rw [hkind]
 dsimp only
 generalize daysFromCivil y d.month 1=first at hfirst hwd ⊢
 generalize hdelta:(if d.weekday-weekdayOfDay first<0 then d.weekday-weekdayOfDay first+7
  else d.weekday-weekdayOfDay first)=delta
 have hdelta':0≤delta ∧ delta≤6:=by
  rw [← hdelta]
  split_ifs <;> omega
 generalize hlast:first+dim.getD (d.month-1).toNat 0+(if d.month=2 ∧ leap y=true then 1 else 0)-1=last
 rw [add_assoc first,dim_eq y hm1 hm12] at hlast
 obtain ⟨hlow,hhigh,hweek⟩:=backTo_bounds (show first+6≤last by omega) (Int.self_le_toNat
  (first+delta+(d.week-1)*7-last)) (by omega)
 refine ⟨by omega,?_⟩
 split_ifs with hdecember
 · have:=hmono (show d.month.toNat≤11 by omega)
   omega
 · obtain hlastMonth:d.month=12:=by omega
   have hlong:monthLength y 12=31:=rfl
   rw [hlastMonth] at hfirst hlast
   change _=_+monthStart y 11+_-_ at hfirst
   omega

lemma ruleDay_bounds (y:ℤ) {d:RuleDate} (h:d.Checked) :
 yearStart y ≤ ruleDay y d ∧ ruleDay y d+slack d≤yearStart (y+1) := by
 cases hkind:d.kind with
 | monthWeekDay=>exact ruleDay_month hkind h
 | julianNoLeap=>
  unfold RuleDate.Checked at h
  rw [hkind] at h
  have hyear:=yearStart_succ y
  have hleap:leap y=true ↔ Leap y:=decide_eq_true_iff
  have hfirst:daysFromCivil y 1 1=yearStart y+0+1-1:=daysFromCivil_eq y 1 (by decide) (by decide)
  unfold ruleDay slack
  unfold yearLength at hyear
  rw [hkind]
  by_cases hy:Leap y
  · rw [if_pos hy] at hyear
    simp only [hleap,hy,true_and]
    split_ifs <;> omega
  · rw [if_neg hy] at hyear
    simp only [hleap,hy,false_and,if_false]
    omega
 | julianZeroBased=>
  unfold RuleDate.Checked at h
  rw [hkind] at h
  have hyear:=yearStart_succ y
  have hlength:=yearLength_bounds y
  have hfirst:daysFromCivil y 1 1=yearStart y+0+1-1:=daysFromCivil_eq y 1 (by decide) (by decide)
  unfold ruleDay slack
  rw [hkind]
  dsimp only at h ⊢
  omega

lemma slack_nonneg {d:RuleDate} (h:d.Checked) : 0 ≤ slack d := by
 unfold RuleDate.Checked at h
 unfold slack
 cases hkind:d.kind <;> rw [hkind] at h <;> dsimp only at h ⊢
 · split_ifs <;> omega
 · omega
 · omega

lemma ruleDay_mono {d:RuleDate} (h:d.Checked) : Monotone fun y=>ruleDay y d := by
 refine monotone_int_of_le_succ fun y=>?_
 have h1:=ruleDay_bounds y h
 have h2:=ruleDay_bounds (y+1) h
 have h3:=slack_nonneg h
 omega

/-- The offsets and times are those of a rule, and both dates take effect before the end of their year in standard
time. -/
structure PosixRule.WithinYear (r:PosixRule) (dst:LocalTimeType) : Prop where
 stdOffset : -93599 ≤ r.std.utoff ∧ r.std.utoff ≤ 93599
 dstOffset : -93599 ≤ dst.utoff ∧ dst.utoff ≤ 93599
 startTime : -604799 ≤ r.start.time ∧ r.start.time ≤ slack r.start*86400
 stopTime : -604799 ≤ r.stop.time ∧ r.stop.time-dst.utoff+r.std.utoff ≤ slack r.stop*86400

section Latest
variable {r:PosixRule} {dst:LocalTimeType}

lemma mem_yearTransitions {p:ℤ ×ₗ Bool} {y:ℤ} : p∈yearTransitions r dst y ↔
 p=toLex (ruleTransition y r.start r.std.utoff,true) ∨ p=toLex (ruleTransition y r.stop dst.utoff,false) := by
 rw [yearTransitions,mem_cons,mem_singleton]

lemma transition_bounds (hchecked:r.start.Checked ∧ r.stop.Checked) (h:r.WithinYear dst) {p:ℤ ×ₗ Bool} {y:ℤ}
 (hp:p∈yearTransitions r dst y) :
 yearStart y*86400-800000≤(ofLex p).1+r.std.utoff ∧ (ofLex p).1+r.std.utoff≤yearStart (y+1)*86400 := by
 have hstd:=h.stdOffset
 have hdst:=h.dstOffset
 have hstart:=h.startTime
 have hstop:=h.stopTime
 have hday:=ruleDay_bounds y hchecked.1
 have hday':=ruleDay_bounds y hchecked.2
 rcases mem_yearTransitions.mp hp with rfl | rfl <;>
 · rw [ofLex_toLex,ruleTransition]
   dsimp only
   omega

lemma transition_mono (hchecked:r.start.Checked ∧ r.stop.Checked) {p:ℤ ×ₗ Bool} {y y':ℤ} (hy:y≤y')
 (hp:p∈yearTransitions r dst y) : ∃ q∈yearTransitions r dst y',p≤q := by
 have hle:∀ {s t:ℤ} {b:Bool},s≤t → (toLex (s,b):ℤ ×ₗ Bool)≤toLex (t,b):=by
  intro s t b hst
  exact Prod.Lex.toLex_mono ⟨hst,le_refl b⟩
 rcases mem_yearTransitions.mp hp with rfl | rfl
 · refine ⟨_,mem_yearTransitions.mpr (.inl rfl),hle ?_⟩
   have:=ruleDay_mono hchecked.1 hy
   unfold ruleTransition
   dsimp only at this
   omega
 · refine ⟨_,mem_yearTransitions.mpr (.inr rfl),hle ?_⟩
   have:=ruleDay_mono hchecked.2 hy
   unfold ruleTransition
   dsimp only at this
   omega

lemma latest_foldl {l:List (ℤ ×ₗ Bool)} (hsorted:l.Pairwise (·≤·)) {instant:ℤ} {p:ℤ ×ₗ Bool} (hp:p∈l)
 (hle:(ofLex p).1 ≤ instant) (hmax:∀ q∈l,(ofLex q).1 ≤ instant → q≤p) (b:Bool) :
 l.foldl (fun isDst td=>if (ofLex td).1 ≤ instant then (ofLex td).2 else isDst) b=(ofLex p).2 := by
 induction l using reverseRecOn with
 | nil=>cases hp
 | append_singleton l q ih=>
  obtain ⟨hinit,-,hlast⟩:=pairwise_append.mp hsorted
  rw [foldl_append,foldl_cons,foldl_nil]
  by_cases hq:(ofLex q).1 ≤ instant
  · have hpq:p≤q:=by
     rcases mem_append.mp hp with hp | hp
     · exact hlast p hp q (mem_singleton_self q)
     · exact le_of_eq (mem_singleton.mp hp)
    have hqp:=hmax q (mem_append_right _ (mem_singleton_self q)) hq
    rw [if_pos hq,le_antisymm hqp hpq]
  · rw [if_neg hq]
    have hp':p∈l:=by
     rcases mem_append.mp hp with hp | hp
     · exact hp
     · rw [mem_singleton.mp hp] at hle
       exact absurd hle hq
    exact ih hinit hp' fun q hq=>hmax q (mem_append_left _ hq)

def happened (r:PosixRule) (dst:LocalTimeType) (instant:ℤ) : Set (ℤ ×ₗ Bool) :=
 { p | (∃ y,p∈yearTransitions r dst y) ∧ (ofLex p).1 ≤ instant }

def localAfter (r:PosixRule) (dst:LocalTimeType) (isDst:Bool) : Local :=
 if isDst then ⟨dst.utoff,true,dst.abbreviation⟩ else ⟨r.std.utoff,false,r.std.abbreviation⟩

lemma ruleLocal_of_latest (hdst:r.dst=some dst) (hchecked:r.start.Checked ∧ r.stop.Checked)
 (h:r.WithinYear dst) {instant:ℤ} (hfit:YearsFit instant) :
 ∃ p,IsGreatest (happened r dst instant) p ∧ ruleLocal r instant=localAfter r dst (ofLex p).2 := by
 have hstd:=h.stdOffset
 obtain ⟨hlow,hhigh⟩:=yearOfInstant_eq (x:=instant+r.std.utoff) (by have:=hfit.1; omega) (by have:=hfit.2; omega)
 generalize hyear:yearOfInstant (instant+r.std.utoff)=year at hlow hhigh
 generalize hwindow:[year-1,year,year+1].flatMap (yearTransitions r dst)=window
 have hmem:∀ p,p∈window ↔ ∃ y,(y=year-1 ∨ y=year ∨ y=year+1) ∧ p∈yearTransitions r dst y:=by
  intro p
  rw [← hwindow,mem_flatMap]
  simp only [mem_cons,not_mem_nil,or_false]
 -- all of last year's transitions have happened
 have hlastYear:∀ p∈yearTransitions r dst (year-1),(ofLex p).1 ≤ instant:=by
  intro p hp
  have hb:=(transition_bounds hchecked h hp).2
  rw [sub_add_cancel] at hb
  omega
 have hone:toLex (ruleTransition (year-1) r.start r.std.utoff,true)∈window.toFinset.filter
   fun p=>(ofLex p).1 ≤ instant:=by
  have hfirst:toLex (ruleTransition (year-1) r.start r.std.utoff,true)∈yearTransitions r dst (year-1):=
   mem_yearTransitions.mpr (.inl rfl)
  rw [Finset.mem_filter,mem_toFinset,hmem]
  exact ⟨⟨year-1,.inl rfl,hfirst⟩,hlastYear _ hfirst⟩
 obtain ⟨p,hp,hmax⟩:=Finset.exists_max_image _ id ⟨_,hone⟩
 simp only [Finset.mem_filter,mem_toFinset,id_eq] at hp hmax
 have hgreatest:∀ q∈window,(ofLex q).1 ≤ instant → q≤p:=fun q hq hle=>hmax q ⟨hq,hle⟩
 refine ⟨p,⟨⟨?_,hp.2⟩,?_⟩,?_⟩
 · obtain ⟨y,-,hy⟩:=(hmem p).mp hp.1
   exact ⟨y,hy⟩
 · rintro q ⟨⟨y,hy⟩,hle⟩
   -- a later year has not begun, an earlier one is outdone by last year
   have hsoon:y≤year+1:=by
    by_contra hlate
    have hmono:=yearStart_strictMono.monotone (show year+2≤y by omega)
    have hnext:=yearStart_succ (year+1)
    have hlength:=yearLength_bounds (year+1)
    have hb:=(transition_bounds hchecked h hy).1
    rw [show year+1+1=year+2 by omega] at hnext
    omega
   by_cases hearly:y≤year-1
   · obtain ⟨q',hq',hqq'⟩:=transition_mono hchecked hearly hy
     exact hqq'.trans (hgreatest q' ((hmem q').mpr ⟨_,.inl rfl,hq'⟩) (hlastYear q' hq'))
   · exact hgreatest q ((hmem q).mpr ⟨y,by omega,hy⟩) hle
 · have hfold:=latest_foldl (pairwise_insertionSort (·≤·) window) ((mem_insertionSort _).mpr hp.1) hp.2
    (fun q hq=>hgreatest q ((mem_insertionSort _).mp hq)) false
   unfold ruleLocal
   rw [hdst]
   dsimp only
   rw [hyear,hwindow,hfold]
   rfl

end Latest

/-- `EST5EDT,M3.2.0,M11.1.0` -/
def easternRule : PosixRule where
 std := ⟨-18000,false,ascii "EST"⟩
 dst:=some ⟨-14400,true,ascii "EDT"⟩
 start:={ blank .monthWeekDay with month:=3,week:=2,weekday:=0 }
 stop:={ blank .monthWeekDay with month:=11,week:=1,weekday:=0 }

/-- `AAA0BBB,J365/167,J364/167`: both dates fall into the first week of the next year. -/
def lateRule : PosixRule where
 std := ⟨0,false,ascii "AAA"⟩
 dst:=some ⟨3600,true,ascii "BBB"⟩
 start:={ blank .julianNoLeap with day:=365,time:=601200 }
 stop:={ blank .julianNoLeap with day:=364,time:=601200 }

end Archivum.Tzif
