import Archivum.ChangePoints
import Archivum.RuleYears
import Archivum.ZoneRules

set_option autoImplicit false

/-!
# The transitions of a range

The explicit transitions come from the table, the others from the rule. Between
the times that the two loops look at the zone does not change, so what they
list are its changes, except at the very start of the range and where only the
abbreviation is new.
-/
namespace Archivum.Tzif
open ByteStrings RecordModel CivilCalendar ChangePoints List

def Differs (a b:Local) : Prop := a.offset≠b.offset ∨ a.isDst≠b.isDst

instance : DecidableRel Differs := fun a b=>inferInstanceAs (Decidable (a.offset≠b.offset ∨ a.isDst≠b.isDst))

def DiffersAtAll (a b:Local) : Prop := a.offset≠b.offset ∨ a.isDst≠b.isDst ∨ a.abbreviation≠b.abbreviation

instance : DecidableRel DiffersAtAll := fun a b=>
 inferInstanceAs (Decidable (a.offset≠b.offset ∨ a.isDst≠b.isDst ∨ a.abbreviation≠b.abbreviation))

lemma not_differs_self (a:Local) : ¬Differs a a := by simp [Differs]

lemma not_differsAtAll_self (a:Local) : ¬DiffersAtAll a a := by simp [DiffersAtAll]

namespace Zone

lemma upperBound_pred {times:List ℤ} {x:ℤ} (hx:x ∉ times) : upperBound times x=upperBound times (x-1) := by
 unfold upperBound
 congr 1
 induction times with
 | nil=>rfl
 | cons t times ih=>
  have ht:t≠x:=fun h=>hx (h ▸ mem_cons_self)
  have hsame:decide (t≤x)=decide (t≤x-1):=by
   congr 1
   exact propext (by omega)
  rw [takeWhile_cons,takeWhile_cons,hsame,ih fun h=>hx (mem_cons_of_mem _ h)]

lemma upperBound_eq_length_iff {times:List ℤ} {x:ℤ} : upperBound times x=times.length ↔ ∀ t∈times,t≤x := by
 unfold upperBound
 constructor
 · intro h t ht
   have hall:=List.IsPrefix.eq_of_length ( takeWhile_prefix (p:=fun t=>decide (t≤x)) (l:=times)) h
   rw [← hall] at ht
   have hle:=mem_takeWhile_imp ht
   exact of_decide_eq_true hle
 · intro h
   rw [takeWhile_eq_self_iff.mpr fun t ht=>decide_eq_true (h t ht)]

lemma localOf_explicit (z:Zone) {x last:ℤ} (hlast:last∈z.transitionTimes) (hx:x ∉ z.transitionTimes)
 (hle:x≤last) : z.localOf x=z.localOf (x-1) := by
 have hne:z.transitionTimes≠[]:=ne_nil_of_mem hlast
 have hhead:z.transitionTimes.head hne≠x:=fun h=>hx (h ▸ head_mem hne)
 have hupper:=upperBound_pred hx
 have hshort:upperBound z.transitionTimes x≠z.transitionTimes.length:=by
  rw [Ne,upperBound_eq_length_iff]
  intro hall
  have:last≠x:=fun h=>hx (h ▸ hlast)
  have:=hall last hlast
  omega
 unfold localOf
 rw [dif_neg hne,dif_neg hne]
 by_cases hbefore:x<z.transitionTimes.head hne
 · rw [if_pos hbefore,if_pos (by omega)]
 · have hpos:=upperBound_pos hne (not_lt.mp hbefore)
   have hidx:¬upperBound z.transitionTimes x-1+1=z.transitionTimes.length:=by
    omega
   have hbefore':¬x-1<z.transitionTimes.head hne:=by omega
   rw [if_neg hbefore,if_neg hbefore']
   dsimp only
   rw [if_neg hidx,if_neg (hupper ▸ hidx)]
   simp only [hupper]

def RuleGoverns (z:Zone) (x:ℤ) : Prop := ∀ t∈z.transitionTimes,t ≤ x

lemma types_pos (z:Zone) : 0<z.types.length := length_pos_of_ne_nil z.typed

/-- What holds after the last explicit transition of a zone without a rule. -/
def finalLocal (z:Zone) : Local :=
 if h:z.transitionTimes=[] then z.typeLocal ⟨0,z.types_pos⟩
 else z.typeLocal (z.typeAt ⟨z.transitionTimes.length-1,by have:=length_pos_of_ne_nil h; omega⟩)

lemma localOf_governed (z:Zone) {x:ℤ} (hx:z.RuleGoverns x) : z.localOf x =
 match z.footer with
  | some r=>ruleLocal r x
  | none=>z.finalLocal := by
 unfold localOf finalLocal
 by_cases hne:z.transitionTimes=[]
 · cases z.footer with
   | some r=>exact dif_pos hne
   | none=>
    dsimp only
    rw [dif_pos hne,dif_pos hne]
 · have hbefore:¬x<z.transitionTimes.head hne:=not_lt.mpr (hx _ (head_mem hne))
   have hall:=upperBound_eq_length_iff.mpr hx
   have hpos:=length_pos_of_ne_nil hne
   have hidx:upperBound z.transitionTimes x-1+1=z.transitionTimes.length:=by omega
   cases z.footer with
   | some r=>
    rw [dif_neg hne,if_neg hbefore]
    exact if_pos hidx
   | none=>
    rw [dif_neg hne,if_neg hbefore,dif_neg hne]
    refine (if_pos hidx).trans ?_
    simp only [hall]

section Rules
variable {r:PosixRule} {dst:LocalTimeType}

lemma ruleLocal_still (hdst:r.dst=some dst) (hchecked:r.start.Checked ∧ r.stop.Checked) (h:r.WithinYear dst)
 {x:ℤ} (hfit:YearsFit x) (hfit':YearsFit (x-1)) (hx:∀ y,∀ p∈yearTransitions r dst y,(ofLex p).1≠x) :
 ruleLocal r x=ruleLocal r (x-1) := by
 obtain ⟨p,hp,hlocal⟩:=ruleLocal_of_latest hdst hchecked h hfit
 obtain ⟨p',hp',hlocal'⟩:=ruleLocal_of_latest hdst hchecked h hfit'
 have hsame:happened r dst x=happened r dst (x-1):=by
  ext q
  constructor
  · rintro ⟨⟨y,hy⟩,hle⟩
    have:=hx y q hy
    exact ⟨⟨y,hy⟩,by omega⟩
  · rintro ⟨hy,hle⟩
    exact ⟨hy,by omega⟩
 rw [hsame] at hp
 rw [hlocal,hlocal',hp.unique hp']

lemma mem_years {y0 y1 y:ℤ} : y∈years y0 y1 ↔ y0≤y ∧ y≤y1 := by
 rw [years,mem_map]
 constructor
 · rintro ⟨k,hk,rfl⟩
   rw [mem_range] at hk
   omega
 · rintro ⟨h0,h1⟩
   exact ⟨(y-y0).toNat,mem_range.mpr (by omega),by omega⟩

lemma year_of_transition (hchecked:r.start.Checked ∧ r.stop.Checked) (h:r.WithinYear dst) {a b:ℤ} (ha:YearsFit a)
 (hb:YearsFit b) {p:ℤ ×ₗ Bool} {y:ℤ} (hp:p∈yearTransitions r dst y) (hap:a≤(ofLex p).1)
 (hpb:(ofLex p).1<b) : y∈years (yearOfInstant a-1) (yearOfInstant b+1) := by
 have hstd:=h.stdOffset
 obtain ⟨hlow,hhigh⟩:=transition_bounds hchecked h hp
 obtain ⟨ha1,ha2⟩:=yearOfInstant_eq (x:=a) (by have:=ha.1; omega) (by have:=ha.2; omega)
 obtain ⟨hb1,hb2⟩:=yearOfInstant_eq (x:=b) (by have:=hb.1; omega) (by have:=hb.2; omega)
 rw [mem_years]
 constructor
 · by_contra hearly
   have hmono:=yearStart_strictMono.monotone (show y+1≤yearOfInstant a-1 by omega)
   have hnext:=yearStart_succ (yearOfInstant a-1)
   have hlength:=yearLength_bounds (yearOfInstant a-1)
   rw [sub_add_cancel] at hnext
   omega
 · by_contra hlate
   have hmono:=yearStart_strictMono.monotone (show yearOfInstant b+2≤y by omega)
   have hnext:=yearStart_succ (yearOfInstant b+1)
   have hlength:=yearLength_bounds (yearOfInstant b+1)
   rw [show yearOfInstant b+1+1=yearOfInstant b+2 by omega] at hnext
   omega

end Rules

def listed (ps:List (ℤ × Local)) : List Transition := ps.map fun p=>⟨p.1,p.2⟩

lemma mem_listed {ps:List (ℤ × Local)} {t:ℤ} {v:Local} : Transition.mk t v∈listed ps ↔ (t,v)∈ps := by
 rw [listed,mem_map]
 constructor
 · rintro ⟨p,hp,h⟩
   obtain ⟨rfl,rfl⟩:=Transition.mk.inj h
   exact hp
 · intro h
   exact ⟨(t,v),h,rfl⟩

/-- The times of a list from `a` on and before `b`. -/
def window (a b:ℤ) (ts:List ℤ) : List ℤ := ts.filter fun t=>¬(t<a ∨ b ≤ t)

lemma mem_window {a b t:ℤ} {ts:List ℤ} : t∈window a b ts ↔ t∈ts ∧ a≤t ∧ t<b := by
 rw [window,mem_filter,decide_eq_true_iff,not_or,not_lt,not_le]

lemma window_cons_in {a b t:ℤ} {ts:List ℤ} (h:¬(t<a ∨ b≤t)) : window a b (t::ts)=t::window a b ts :=
 filter_cons_of_pos (decide_eq_true h)

lemma window_cons_out {a b t:ℤ} {ts:List ℤ} (h:t<a ∨ b≤t) : window a b (t::ts)=window a b ts := by
 refine filter_cons_of_neg ?_
 rw [decide_eq_true_iff]
 exact not_not_intro h

lemma window_empty {a b:ℤ} (h:b≤a) (ts:List ℤ) : window a b ts=[] := by
 rw [eq_nil_iff_forall_not_mem]
 intro t ht
 have:=mem_window.mp ht
 omega

lemma explicit_loop (z:Zone) (lo hi:ℤ) (ts:List ℤ) (a:ℤ) (out:List Transition) :
 (ts.foldl (z.explicitStep lo hi) (out,z.localOf a)).1 =
  out++listed (changes z.localOf DiffersAtAll a (window lo hi ts)) := by
 induction ts generalizing a out with
 | nil=>rw [foldl_nil,window,filter_nil,changes,listed,map_nil,append_nil]
 | cons t ts ih=>
  rw [foldl_cons,explicitStep]
  by_cases hout:t<lo ∨ hi≤t
  · rw [if_pos hout,ih,window_cons_out hout]
  · rw [if_neg hout,window_cons_in hout,changes]
    dsimp only
    rw [ih]
    by_cases hD:DiffersAtAll (z.localOf t) (z.localOf a)
    · have hD':(z.localOf t).offset≠(z.localOf a).offset ∨ (z.localOf t).isDst≠(z.localOf a).isDst ∨
        (z.localOf t).abbreviation≠(z.localOf a).abbreviation:=hD
      rw [if_pos hD,if_pos hD',append_assoc]
      rfl
    · have hD':¬((z.localOf t).offset≠(z.localOf a).offset ∨ (z.localOf t).isDst≠(z.localOf a).isDst ∨
        (z.localOf t).abbreviation≠(z.localOf a).abbreviation):=hD
      rw [if_neg hD,if_neg hD']
      rfl

lemma rule_loop (z:Zone) {lo hi ruleFrom:ℤ} {ts:List ℤ} (hsorted:ts.Pairwise (·≤·)) {a:ℤ}
 {out:List Transition} (hfrom:∀ t∈window ruleFrom hi ts,a≤t) (hlo:lo-1<a)
 (hback:∀ p∈out.getLast?,p.time≤a) : (ts.foldl (z.ruleStep lo hi ruleFrom) (out,z.localOf a)).1 =
  out++listed (changes z.localOf Differs a (window ruleFrom hi ts)) := by
 induction ts generalizing a out with
 | nil=>rw [foldl_nil,window,filter_nil,changes,listed,map_nil,append_nil]
 | cons t ts ih=>
  obtain ⟨hfirst,hrest⟩:=pairwise_cons.mp hsorted
  rw [foldl_cons,ruleStep]
  by_cases hout:t < ruleFrom ∨ hi≤t
  · rw [window_cons_out hout] at hfrom ⊢
    rw [if_pos hout,ih hrest hfrom hlo hback]
  · have hat:a≤t:=hfrom t (by rw [window_cons_in hout]; exact mem_cons_self)
    have hlater:∀ s∈window ruleFrom hi ts,t ≤ s:=fun s hs=>hfirst s (mem_window.mp hs).1
    rw [if_neg hout,window_cons_in hout,changes]
    by_cases hskip:t≤(out.getLast?.map Transition.time).getD (lo-1)
    · -- only a time that was listed already is passed over
      obtain rfl:a=t:=by
       cases hlast:out.getLast? with
       | none=>
        rw [hlast] at hskip
        change t≤lo-1 at hskip
        omega
       | some p=>
        rw [hlast] at hskip
        change t≤p.time at hskip
        have:=hback p hlast
        omega
      rw [if_pos hskip,ih hrest hlater hlo hback,if_neg (not_differs_self _)]
      rfl
    · rw [if_neg hskip]
      dsimp only
      by_cases hD:Differs (z.localOf t) (z.localOf a)
      · have hD':(z.localOf t).offset≠(z.localOf a).offset ∨ (z.localOf t).isDst≠(z.localOf a).isDst:=hD
        rw [if_pos hD,if_pos hD',ih hrest hlater (by omega) (by simp),append_assoc]
        rfl
      · have hD':¬((z.localOf t).offset≠(z.localOf a).offset ∨ (z.localOf t).isDst≠(z.localOf a).isDst):=hD
        rw [if_neg hD,if_neg hD',ih hrest hlater (by omega) fun p hp=>(hback p hp).trans hat]
        rfl

lemma le_getLastD {l:List ℤ} (h:l.Pairwise (· < ·)) {t:ℤ} (ht:t∈l) : t≤l.getLastD 0 := by
 rcases eq_nil_or_concat' l with rfl | ⟨init,last,rfl⟩
 · cases ht
 · have hlast:(init++[last]).getLastD 0=last:=by simp
   rw [hlast]
   rcases mem_append.mp ht with ht | ht
   · exact le_of_lt ((pairwise_append.mp h).2.2 t ht last (mem_singleton_self _))
   · exact le_of_eq (mem_singleton.mp ht)

lemma getLastD_mem {l:List ℤ} (h:l≠[]) : l.getLastD 0∈l := by
 rcases eq_nil_or_concat' l with rfl | ⟨init,last,rfl⟩
 · exact absurd rfl h
 · simp

lemma mem_explicit (z:Zone) {lo hi t:ℤ} {v:Local} :
 (t,v)∈changes z.localOf DiffersAtAll lo (window lo hi z.transitionTimes) ↔
  t∈z.transitionTimes ∧ lo<t ∧ t<hi ∧ DiffersAtAll (z.localOf t) (z.localOf (t-1)) ∧ v=z.localOf t := by
 by_cases hne:z.transitionTimes=[]
 · rw [hne,window,filter_nil,changes]
   simp
 · have hlast:=getLastD_mem hne
   have hsorted:(window lo hi z.transitionTimes).Pairwise (·≤·):=
    (z.increasing.imp fun h=>le_of_lt h).sublist filter_sublist
   have hstill:StillOff z.localOf (window lo hi z.transitionTimes) lo (min (z.transitionTimes.getLastD 0) (hi-1)):=by
    intro x hx hxb hmem
    refine z.localOf_explicit hlast (fun hx'=>hmem (mem_window.mpr ⟨hx',by omega,by omega⟩)) (by omega)
   have hto:∀ t∈window lo hi z.transitionTimes,t ≤ min (z.transitionTimes.getLastD 0) (hi-1):=by
    intro t ht
    obtain ⟨hmem,-,hhi⟩:=mem_window.mp ht
    have:=le_getLastD z.increasing hmem
    omega
   rw [mem_changes not_differsAtAll_self hsorted (fun t ht=>(mem_window.mp ht).2.1) hstill hto,mem_window]
   constructor
   · rintro ⟨⟨hmem,-,hhi⟩,hlo,hrest⟩
     exact ⟨hmem,hlo,hhi,hrest⟩
   · rintro ⟨hmem,hlo,hhi,hrest⟩
     exact ⟨⟨hmem,by omega,hhi⟩,hlo,hrest⟩

lemma explicit_sorted (z:Zone) (lo hi:ℤ) :
 (changes z.localOf DiffersAtAll lo (window lo hi z.transitionTimes)).Pairwise (fun p q=>p.1<q.1) :=
 (changes_sorted not_differsAtAll_self ((z.increasing.imp fun h=>le_of_lt h).sublist filter_sublist)
  fun _ ht=>(mem_window.mp ht).2.1).1

def ruleTimes (r:PosixRule) (dst:LocalTimeType) (ys:List ℤ) : List ℤ :=
 ys.flatMap fun y=>[ruleTransition y r.start r.std.utoff,ruleTransition y r.stop dst.utoff]

lemma mem_ruleTimes {r:PosixRule} {dst:LocalTimeType} {ys:List ℤ} {t:ℤ} :
 t∈ruleTimes r dst ys ↔ ∃ y∈ys,∃ p∈yearTransitions r dst y,(ofLex p).1=t := by
 simp [ruleTimes,yearTransitions,eq_comm]

lemma mem_rule (z:Zone) {r:PosixRule} {dst:LocalTimeType} (hr:z.footer=some r) (hdst:r.dst=some dst)
 (h:r.WithinYear dst) {ruleFrom hi:ℤ} (hgov:z.RuleGoverns ruleFrom) (hfit:YearsFit ruleFrom) (hfit':YearsFit hi)
 {t:ℤ} {v:Local} : (t,v)∈changes z.localOf Differs ruleFrom (window ruleFrom hi
   ((ruleTimes r dst (years (yearOfInstant ruleFrom-1) (yearOfInstant hi+1))).insertionSort (·≤·))) ↔
  ruleFrom<t ∧ t<hi ∧ Differs (z.localOf t) (z.localOf (t-1)) ∧ v=z.localOf t := by
 have hchecked:r.start.Checked ∧ r.stop.Checked:=z.checked r hr (by rw [hdst]; exact Option.some_ne_none _)
 generalize hts:(ruleTimes r dst (years (yearOfInstant ruleFrom-1) (yearOfInstant hi+1))).insertionSort (·≤·)=ts
 have hsorted:(window ruleFrom hi ts).Pairwise (·≤·):=by
  rw [← hts]
  exact (pairwise_insertionSort (·≤·) _).sublist filter_sublist
 have hquiet:∀ x,ruleFrom<x → x<hi → x ∉ window ruleFrom hi ts → z.localOf x=z.localOf (x-1):=by
  intro x hx hxhi hmem
  have hfx:YearsFit x ∧ YearsFit (x-1):=by
   unfold YearsFit at *
   omega
  rw [z.localOf_governed fun s hs=>(hgov s hs).trans (by omega),z.localOf_governed fun s hs=>(hgov s hs).trans (by omega),hr]
  refine ruleLocal_still hdst hchecked h hfx.1 hfx.2 fun y p hp hpx=>hmem (mem_window.mpr ⟨?_,by omega,hxhi⟩)
  rw [← hts,mem_insertionSort,mem_ruleTimes]
  exact ⟨y,year_of_transition hchecked h hfit hfit' hp (by omega) (by omega),p,hp,hpx⟩
 rw [mem_changes not_differs_self hsorted (fun t ht=>(mem_window.mp ht).2.1)
  (b:=hi-1) (fun x hx hxb hmem=>hquiet x hx (by omega) hmem)
  (fun t ht=>by have:=(mem_window.mp ht).2.2; omega)]
 constructor
 · rintro ⟨hmem,hlo,hrest⟩
   exact ⟨hlo,(mem_window.mp hmem).2.2,hrest⟩
 · rintro ⟨hlo,hhi,hD,hv⟩
   refine ⟨?_,hlo,hD,hv⟩
   by_contra hmem
   rw [hquiet t hlo hhi hmem] at hD
   exact not_differs_self _ hD

lemma localOf_final (z:Zone) (hrule:∀ r∈z.footer,r.dst=none) {x:ℤ} (hx:z.RuleGoverns (x-1)) :
 z.localOf x=z.localOf (x-1) := by
 rw [z.localOf_governed fun t ht=>(hx t ht).trans (by omega),z.localOf_governed hx]
 cases hr:z.footer with
 | none=>rfl
 | some r=>
  have hdst:=hrule r hr
  simp only [ruleLocal,hdst]

/-- The range does not begin at a change, no explicit transition in it changes the abbreviation only, and a rule with
daylight saving time takes effect within its years, which fit an `int`. -/
structure Plain (z:Zone) (lo hi:ℤ) : Prop where
 start : ¬Differs (z.localOf lo) (z.localOf (lo-1))
 names : ∀ t∈z.transitionTimes,lo<t → t<hi → ¬Differs (z.localOf t) (z.localOf (t-1)) →
  (z.localOf t).abbreviation=(z.localOf (t-1)).abbreviation
 rule : ∀ r∈z.footer,∀ dst∈r.dst,r.WithinYear dst ∧ YearsFit lo ∧ YearsFit hi

lemma Plain.differs_iff {z:Zone} {lo hi:ℤ} (h:z.Plain lo hi) {t:ℤ} (ht:t∈z.transitionTimes) (hlo:lo<t)
 (hhi:t<hi) : DiffersAtAll (z.localOf t) (z.localOf (t-1)) ↔ Differs (z.localOf t) (z.localOf (t-1)) := by
 constructor
 · intro hD
   by_contra hsame
   have hname:=h.names t ht hlo hhi hsame
   rcases hD with hD | hD | hD
   · exact hsame (.inl hD)
   · exact hsame (.inr hD)
   · exact hD hname
 · rintro (hD | hD)
   · exact .inl hD
   · exact .inr (.inl hD)

lemma listed_sorted {ps:List (ℤ × Local)} (h:ps.Pairwise fun p q=>p.1<q.1) :
 (listed ps).Pairwise fun a b=>a.time<b.time := pairwise_map.mpr h

lemma sort_listed {out:List Transition} (h:out.Pairwise fun a b=>a.time<b.time) :
 out.insertionSort (fun a b=>a.time≤b.time)=out :=
 List.Pairwise.insertionSort_eq (h.imp fun hlt=>le_of_lt hlt)

lemma change_cases (z:Zone) {t:ℤ} (hD:Differs (z.localOf t) (z.localOf (t-1))) :
 t∈z.transitionTimes ∨ z.RuleGoverns (t-1) := by
 by_cases hgov:z.RuleGoverns (t-1)
 · exact .inr hgov
 · unfold RuleGoverns at hgov
   push Not at hgov
   obtain ⟨last,hlast,hlt⟩:=hgov
   by_contra hmem
   rw [z.localOf_explicit hlast (fun ht=>hmem (.inl ht)) (by omega)] at hD
   exact not_differs_self _ hD

def tableChanges (z:Zone) (lo hi:ℤ) : List (ℤ × Local) :=
 changes z.localOf DiffersAtAll lo (window lo hi z.transitionTimes)

def ruleFrom (z:Zone) (lo:ℤ) : ℤ :=
 if z.transitionTimes.isEmpty then lo else max lo (z.transitionTimes.getLastD 0)

lemma le_ruleFrom (z:Zone) (lo:ℤ) : lo≤z.ruleFrom lo := by
 unfold ruleFrom
 split_ifs
 · exact le_refl lo
 · exact le_max_left _ _

lemma ruleFrom_governs (z:Zone) (lo:ℤ) : z.RuleGoverns (z.ruleFrom lo) := by
 intro t ht
 have hne:¬z.transitionTimes.isEmpty=true:=by simpa using ne_nil_of_mem ht
 rw [ruleFrom,if_neg hne]
 exact (le_getLastD z.increasing ht).trans (le_max_right _ _)

lemma ruleFrom_le (z:Zone) {lo x:ℤ} (hlo:lo≤x) (hx:z.RuleGoverns x) : z.ruleFrom lo≤x := by
 unfold ruleFrom
 split_ifs with hempty
 · exact hlo
 · exact max_le hlo (hx _ (getLastD_mem (by simpa using hempty)))

def ruleChanges (z:Zone) (r:PosixRule) (dst:LocalTimeType) (lo hi:ℤ) : List (ℤ × Local) :=
 changes z.localOf Differs (z.ruleFrom lo) (window (z.ruleFrom lo) hi
  ((ruleTimes r dst (years (yearOfInstant (z.ruleFrom lo)-1) (yearOfInstant hi+1))).insertionSort (· ≤ ·)))

lemma tableChanges_le (z:Zone) {lo hi:ℤ} {p:ℤ × Local} (hp:p∈z.tableChanges lo hi) : p.1≤z.ruleFrom lo :=
 z.ruleFrom_governs lo p.1 (z.mem_explicit.mp hp).1

lemma ruleChanges_sorted (z:Zone) (r:PosixRule) (dst:LocalTimeType) (lo hi:ℤ) :
 (z.ruleChanges r dst lo hi).Pairwise (fun p q=>p.1<q.1) ∧ ∀ p∈z.ruleChanges r dst lo hi,z.ruleFrom lo<p.1 :=
 changes_sorted not_differs_self ((pairwise_insertionSort (·≤·) _).sublist filter_sublist) fun _ ht=>(mem_window.mp ht).2.1

lemma transitions_table (z:Zone) (lo hi:ℤ) (hrule:∀ r∈z.footer,r.dst=none) :
 z.transitions lo hi=listed (z.tableChanges lo hi) := by
 have hloop:=z.explicit_loop lo hi z.transitionTimes lo []
 have hsort:=sort_listed (listed_sorted (z.explicit_sorted lo hi))
 rw [nil_append] at hloop
 unfold transitions
 rw [hloop]
 cases hr:z.footer with
 | none=>exact hsort
 | some r=>
  simp only [hrule r hr]
  exact hsort

lemma transitions_rule (z:Zone) (lo hi:ℤ) {r:PosixRule} {dst:LocalTimeType} (hr:z.footer=some r)
 (hdst:r.dst=some dst) : z.transitions lo hi=listed (z.tableChanges lo hi++z.ruleChanges r dst lo hi) := by
 have hloop:=z.explicit_loop lo hi z.transitionTimes lo []
 rw [nil_append] at hloop
 obtain ⟨hpair,hafter⟩:=z.ruleChanges_sorted r dst lo hi
 have hback:∀ p∈(listed (z.tableChanges lo hi)).getLast?,p.time≤z.ruleFrom lo:=by
  intro p hp
  exact z.tableChanges_le (mem_listed.mp (mem_of_getLast? hp))
 have hrun:=z.rule_loop (pairwise_insertionSort (·≤·) (ruleTimes r dst
  (years (yearOfInstant (z.ruleFrom lo)-1) (yearOfInstant hi+1)))) (fun t (ht:t∈window _ hi _)=>(mem_window.mp ht).2.1)
  (by have:=z.le_ruleFrom lo; omega:lo-1<z.ruleFrom lo) hback
 have hall:(z.tableChanges lo hi++z.ruleChanges r dst lo hi).Pairwise fun p q=>p.1<q.1:=
  pairwise_append.mpr ⟨z.explicit_sorted lo hi,hpair,fun p hp q hq=>
   lt_of_le_of_lt (z.tableChanges_le hp) (hafter q hq)⟩
 rw [← sort_listed (listed_sorted hall),listed,map_append]
 unfold transitions
 simp only [hloop,hr,hdst]
 exact congrArg (insertionSort _) hrun

end Zone

def easternZone : Zone where
 version := 2
 transitionTimes:=[]
 transitionTypes:=[]
 types:=[⟨-18000,false,ascii "EST"⟩]
 footer:=some easternRule
 increasing:=List.Pairwise.nil
 paired:=rfl
 inRange:=fun _ hi=>nomatch hi
 typed:=cons_ne_nil _ _
 checked:=by
  rintro r ⟨⟩ -
  exact ⟨⟨by decide,by decide,by decide,by decide,by decide,by decide⟩,
   ⟨by decide,by decide,by decide,by decide,by decide,by decide⟩⟩

end Archivum.Tzif
