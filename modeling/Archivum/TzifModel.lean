import Archivum.DecimalText
import Archivum.LocalTime

set_option autoImplicit false

/-!
# Time zones

The reader of compiled time zone files and of the rule in their footer, and the
questions asked of a zone: the offset at an instant, the instants of a local
time, the transitions of a range. A byte outside the file that is read is a
fault of its own. `int` values of the rule parser and of years wrap at 32 bits;
other sums are not bounded.
-/
namespace Archivum.Tzif
open ByteStrings StatefulActions PageTxn RecordModel DecimalText List Act
open LocalTimes (daysFromCivil weekdayOfDay leap)

inductive Fault
 | refused (s:Status)
 /-- A byte past the end was read. -/
 | outside
 deriving DecidableEq

def refuse {α:Type} (message:String) : Except Fault α := .error (.refused (corrupt message))

def byteAt (d:Bytes) (i:ℕ) : Except Fault UInt8 :=
 match d[i]? with
 | some b=>.ok b
 | none=>.error .outside

/-- `static_cast<std::int32_t>` -/
def int32 (v:ℤ) : ℤ := v.bmod (2^32)

lemma int32_of_lt {v:ℤ} (h0 : -2^31≤v) (h:v<2^31) : int32 v=v := by
 unfold int32
 rw [Int.bmod_eq_of_le]
 · simpa using h0
 · simpa using h

def be32 (d:Bytes) (p:ℕ) : Except Fault ℕ := do
 let b0 ← byteAt d p
 let b1 ← byteAt d (p+1)
 let b2 ← byteAt d (p+2)
 let b3 ← byteAt d (p+3)
 return b0.toNat*2^24+b1.toNat*2^16+b2.toNat*2^8+b3.toNat

def be64 (d:Bytes) (p:ℕ) : Except Fault ℤ := do
 let high ← be32 d p
 let low ← be32 d (p+4)
 return ((high*2^32+low:ℕ):ℤ).bmod (2^64)

structure Header where
 version : ℕ
 isutcnt : ℕ
 isstdcnt : ℕ
 leapcnt : ℕ
 timecnt : ℕ
 typecnt : ℕ
 charcnt : ℕ

def readMagic (d:Bytes) (p:ℕ) : Except Fault Bytes := do
 let b0 ← byteAt d p
 let b1 ← byteAt d (p+1)
 let b2 ← byteAt d (p+2)
 let b3 ← byteAt d (p+3)
 return [b0,b1,b2,b3]

def versionOf (v:UInt8) : Except Fault ℕ :=
 if v=0 then .ok 1
 else if 50 ≤ v.toNat ∧ v.toNat ≤ 57 then .ok (v.toNat-48)
 else refuse "TZif: unknown version byte"

def checkCounts (h:Header) : Except Fault Header :=
 if h.typecnt=0 ∨ 256<h.typecnt ∨ 2^20<h.timecnt ∨ 2^16<h.charcnt ∨ 2^16<h.leapcnt then
  refuse "TZif: implausible counts"
 else if h.isstdcnt≠0 ∧ h.isstdcnt≠h.typecnt then refuse "TZif: isstdcnt"
 else if h.isutcnt≠0 ∧ h.isutcnt≠h.typecnt then refuse "TZif: isutcnt"
 else .ok h

def readHeader (d:Bytes) (start:ℕ) : Except Fault Header :=
 if d.length<start+44 then refuse "TZif: truncated header"
 else do
  let magic ← readMagic d start
  if magic≠ascii "TZif" then refuse "TZif: bad magic"
  else do
   let v ← byteAt d (start+4)
   let version ← versionOf v
   let isutcnt ← be32 d (start+20)
   let isstdcnt ← be32 d (start+24)
   let leapcnt ← be32 d (start+28)
   let timecnt ← be32 d (start+32)
   let typecnt ← be32 d (start+36)
   let charcnt ← be32 d (start+40)
   checkCounts { version,isutcnt,isstdcnt,leapcnt,timecnt,typecnt,charcnt }

def blockSize (h:Header) (timeSize:ℕ) : ℕ :=
 h.timecnt*timeSize+h.timecnt+h.typecnt*6+h.charcnt+h.leapcnt*(timeSize+4)+h.isstdcnt+h.isutcnt

structure LocalTimeType where
 /-- Seconds east of UT. -/
 utoff : ℤ
 isDst : Bool
 abbreviation : Bytes
 deriving DecidableEq

inductive Kind
 | monthWeekDay | julianNoLeap | julianZeroBased
 deriving DecidableEq

/-- `Mm.w.d/time`, `Jn/time` or `n/time`. -/
structure RuleDate where
 kind : Kind
 month : ℤ
 week : ℤ
 weekday : ℤ
 day : ℤ
 time : ℤ
 deriving DecidableEq

/-- The dates mean something when there is a `dst`; `stop` is `end` in the source. -/
structure PosixRule where
 std : LocalTimeType
 dst : Option LocalTimeType
 start : RuleDate
 stop : RuleDate
 deriving DecidableEq

abbrev Cursor := Act Status Bytes

def peek : Cursor UInt8 := reads fun s=>s.headD 0

def done : Cursor Bool := reads isEmpty

def advance : Cursor Unit := modify (drop 1)

/-- Passes the characters that satisfy `p` and returns them. -/
def takeWhile (p:UInt8 → Bool) : Cursor Bytes := fun s=>(.ok (s.takeWhile p),s.dropWhile p)

def isLetter (b:UInt8) : Bool := 65 ≤ b.toNat ∧ b.toNat ≤ 90 ∨ 97 ≤ b.toNat ∧ b.toNat ≤ 122

def longEnough (name:Bytes) : Cursor Bytes :=
 if name.length<3 then fail (corrupt "TZ string: name shorter than three characters") else return name

def parseName : Cursor Bytes := do
 if (← peek)=60 then
  advance
  let name ← takeWhile (· ≠ 62)
  if (← peek)≠62 then fail (corrupt "TZ string: unterminated <name>")
  else do
   advance
   longEnough name
 else do
  let name ← takeWhile isLetter
  longEnough name

/-- A run of digits in an `int`, none if there is no digit. -/
def number : Cursor (Option ℤ) := do
 if isDigit (← peek) then
  let digits ← takeWhile isDigit
  return some (digits.foldl (fun out b=>int32 (out*10+(b.toNat-48))) 0)
 else return none

def expectNumber (message:String) : Cursor ℤ := do
 match ← number with
 | some v=>return v
 | none=>fail (corrupt message)

def parseSign : Cursor ℤ := do
 let c ← peek
 if c=43 then
  advance
  return 1
 else if c=45 then
  advance
  return -1
 else return 1

/-- What `:` introduces, 0 without one. -/
def afterColon {α:Type} (m:Cursor α) (otherwise:α) : Cursor α := do
 if (← peek)=58 then
  advance
  m
 else return otherwise

/-- `[+-]hh[:mm[:ss]]` in seconds. -/
def parseHms (maxHours:ℤ) : Cursor ℤ := do
 let sign ← parseSign
 let h ← expectNumber "TZ string: expected hours"
 let (m,s) ← afterColon (do
  let m ← expectNumber "TZ string: expected minutes"
  let s ← afterColon (expectNumber "TZ string: expected seconds") 0
  return (m,s)) (0,0)
 if maxHours<h ∨ 59 < m ∨ 59<s then fail (corrupt "TZ string: time out of range")
 else return sign*(h*3600+m*60+s)

def expect (c:UInt8) (message:String) : Cursor Unit := do
 if (← peek)≠c then fail (corrupt message) else advance

def blank (kind:Kind) : RuleDate := { kind,month:=0,week:=0,weekday:=0,day:=0,time:=7200 }

def parseDay : Cursor RuleDate := do
 let c ← peek
 if c=77 then
  advance
  let month ← expectNumber "TZ string: Mm.w.d"
  expect 46 "TZ string: Mm.w.d"
  let week ← expectNumber "TZ string: Mm.w.d"
  expect 46 "TZ string: Mm.w.d"
  let weekday ← expectNumber "TZ string: Mm.w.d"
  if month<1 ∨ 12 < month ∨ week<1 ∨ 5<week ∨ weekday<0 ∨ 6<weekday then
   fail (corrupt "TZ string: Mm.w.d out of range")
  else return { blank .monthWeekDay with month,week,weekday }
 else if c=74 then
  advance
  let day ← expectNumber "TZ string: Jn"
  if day<1 ∨ 365<day then fail (corrupt "TZ string: Jn") else return { blank .julianNoLeap with day }
 else do
  let day ← expectNumber "TZ string: n"
  if day<0 ∨ 365<day then fail (corrupt "TZ string: n") else return { blank .julianZeroBased with day }

def parseRuleDate : Cursor RuleDate := do
 let d ← parseDay
 if (← peek)=47 then
  advance
  let time ← parseHms 167
  return { d with time }
 else return d

def parseDstOffset (std:LocalTimeType) : Cursor ℤ := do
 if !(← done) && (← peek) != 44 then
  let off ← parseHms 24
  return int32 (-off)
 else return int32 (std.utoff+3600)

def parseDst (std:LocalTimeType) : Cursor PosixRule := do
 let name ← parseName
 let utoff ← parseDstOffset std
 expect 44 "TZ string: dst without rules"
 let start ← parseRuleDate
 expect 44 "TZ string: missing end rule"
 let stop ← parseRuleDate
 if !(← done) then fail (corrupt "TZ string: trailing characters")
 else return { std,dst:=some { utoff,isDst:=true,abbreviation:=name },start,stop }

def parsePosixRule : Cursor PosixRule := do
 let name ← parseName
 let off ← parseHms 24
 -- offsets of POSIX count west
 let std:LocalTimeType:={ utoff:=int32 (-off),isDst:=false,abbreviation:=name }
 if ← done then return { std,dst:=none,start:=blank .monthWeekDay,stop:=blank .monthWeekDay }
 else parseDst std

def parsePosix (tz:Bytes) : Except Status PosixRule := (parsePosixRule tz).1

example : (parsePosix (ascii "CET-1CEST,M3.5.0,M10.5.0/3")).toOption.map (fun r=>(r.std.utoff,r.stop.time)) =
  some (3600,10800) := by decide +kernel

def RuleDate.Checked (d:RuleDate) : Prop :=
 match d.kind with
 | .monthWeekDay=>1 ≤ d.month ∧ d.month ≤ 12 ∧ 1 ≤ d.week ∧ d.week ≤ 5 ∧ 0 ≤ d.weekday ∧ d.weekday ≤ 6
 | .julianNoLeap=>1 ≤ d.day ∧ d.day ≤ 365
 | .julianZeroBased=>0 ≤ d.day ∧ d.day ≤ 365

def PosixRule.Checked (r:PosixRule) : Prop := r.dst≠none → r.start.Checked ∧ r.stop.Checked

lemma parseDay_checked {s s':Bytes} {d:RuleDate} (h:parseDay s=(.ok d,s')) : d.Checked := by
 rw [parseDay,peek,bind_reads] at h
 split_ifs at h
 · obtain ⟨_,_,-,h⟩:=bind_ok_inv h
   obtain ⟨month,_,-,h⟩:=bind_ok_inv h
   obtain ⟨_,_,-,h⟩:=bind_ok_inv h
   obtain ⟨week,_,-,h⟩:=bind_ok_inv h
   obtain ⟨_,_,-,h⟩:=bind_ok_inv h
   obtain ⟨weekday,_,-,h⟩:=bind_ok_inv h
   split_ifs at h with hrange
   · cases h
   · cases h
     change _ ∧ _ ∧ _ ∧ _ ∧ _ ∧ _
     dsimp only
     omega
 · obtain ⟨_,_,-,h⟩:=bind_ok_inv h
   obtain ⟨day,_,-,h⟩:=bind_ok_inv h
   split_ifs at h with hrange
   · cases h
   · cases h
     change _ ∧ _
     dsimp only
     omega
 · obtain ⟨day,_,-,h⟩:=bind_ok_inv h
   split_ifs at h with hrange
   · cases h
   · cases h
     change _ ∧ _
     dsimp only
     omega

lemma parseRuleDate_checked {s s':Bytes} {d:RuleDate} (h:parseRuleDate s=(.ok d,s')) : d.Checked := by
 obtain ⟨d',s₁,hd,h⟩:=bind_ok_inv h
 rw [peek,bind_reads] at h
 split_ifs at h
 · obtain ⟨_,_,-,h⟩:=bind_ok_inv h
   obtain ⟨time,_,-,h⟩:=bind_ok_inv h
   cases h
   have hchecked:=parseDay_checked hd
   exact hchecked
 · cases h
   exact parseDay_checked hd

lemma parsePosix_checked {tz:Bytes} {r:PosixRule} (h:parsePosix tz=.ok r) : r.Checked := by
 obtain ⟨s',h⟩:∃ s',parsePosixRule tz=(.ok r,s'):=⟨_,Prod.ext h rfl⟩
 obtain ⟨name,s₁,-,h⟩:=bind_ok_inv h
 obtain ⟨off,s₂,-,h⟩:=bind_ok_inv h
 rw [done,bind_reads] at h
 split_ifs at h
 · cases h
   exact fun hdst=>absurd rfl hdst
 · obtain ⟨_,_,-,h⟩:=bind_ok_inv h
   obtain ⟨_,_,-,h⟩:=bind_ok_inv h
   obtain ⟨_,_,-,h⟩:=bind_ok_inv h
   obtain ⟨start,_,hstart,h⟩:=bind_ok_inv h
   obtain ⟨_,_,-,h⟩:=bind_ok_inv h
   obtain ⟨stop,_,hstop,h⟩:=bind_ok_inv h
   rw [done,bind_reads] at h
   split_ifs at h
   · cases h
   · cases h
     exact fun _=>⟨parseRuleDate_checked hstart,parseRuleDate_checked hstop⟩

def readTime (d:Bytes) (p timeSize i:ℕ) : Except Fault ℤ :=
 if timeSize=8 then be64 d (p+i*8)
 else do
  let v ← be32 d (p+i*4)
  return int32 v

/-- `n` more times from the `i`-th on. -/
def readTimes (d:Bytes) (p timeSize:ℕ) : ℕ → ℕ → List ℤ → Except Fault (List ℤ)
 | 0,_,times=>.ok times
 | n+1,i,times=>do
  let t ← readTime d p timeSize i
  if 0 < i ∧ t ≤ times.getLastD 0 then refuse "TZif: transitions not increasing"
  else readTimes d p timeSize n (i+1) (times++[t])

def readIndices (d:Bytes) (p typecnt:ℕ) : ℕ → ℕ → List ℕ → Except Fault (List ℕ)
 | 0,_,indices=>.ok indices
 | n+1,i,indices=>do
  let idx ← byteAt d (p+i)
  if typecnt ≤ idx.toNat then refuse "TZif: transition type out of range"
  else readIndices d p typecnt n (i+1) (indices++[idx.toNat])

/-- The characters up to a zero, at most `n`. -/
def readAbbreviation (d:Bytes) (chars:ℕ) : ℕ → ℕ → Bytes → Except Fault Bytes
 | 0,_,text=>.ok text
 | n+1,k,text=>do
  let c ← byteAt d (chars+k)
  if c=0 then .ok text else readAbbreviation d chars n (k+1) (text++[c])

def readTypes (d:Bytes) (p chars charcnt:ℕ) : ℕ → ℕ → List LocalTimeType → Except Fault (List LocalTimeType)
 | 0,_,types=>.ok types
 | n+1,i,types=>do
  let utoff ← be32 d (p+i*6)
  let isDst ← byteAt d (p+(i*6+4))
  let idx ← byteAt d (p+(i*6+5))
  if charcnt ≤ idx.toNat then refuse "TZif: abbreviation index out of range"
  else do
   let abbreviation ← readAbbreviation d chars (charcnt-idx.toNat) idx.toNat []
   readTypes d p chars charcnt n (i+1) (types++[{ utoff:=int32 utoff,isDst:=isDst≠0,abbreviation }])

/-- The characters up to a line feed, and where that is; `n` are left from `k` on. -/
def readLine (d:Bytes) : ℕ → ℕ → Bytes → Except Fault (Bytes × ℕ)
 | 0,k,tz=>.ok (tz,k)
 | n+1,k,tz=>do
  let c ← byteAt d k
  if c=10 then .ok (tz,k) else readLine d n (k+1) (tz++[c])

def readFooter (d:Bytes) (start:ℕ) : Except Fault (Option PosixRule) :=
 if d.length<start+2 then refuse "TZif: missing footer"
 else do
  let c ← byteAt d start
  if c≠10 then refuse "TZif: missing footer"
  else do
   let (tz,k) ← readLine d (d.length-(start+1)) (start+1) []
   if d.length ≤ k then refuse "TZif: unterminated footer"
   else if tz.isEmpty then return none
   else match parsePosix tz with
    | .ok rule=>return some rule
    | .error e=>.error (.refused e)

lemma pairwise_concat {l:List ℤ} {t:ℤ} (h:l.Pairwise (· < ·)) (hlast:l≠[] → l.getLastD 0<t) : (l++[t]).Pairwise (· < ·) := by
 rcases eq_nil_or_concat' l with rfl | ⟨init,z,rfl⟩
 · exact pairwise_singleton _ _
 · have hz:z<t:=by simpa using hlast (by simp)
   rw [pairwise_append] at h ⊢
   refine ⟨pairwise_append.mpr h,pairwise_singleton _ _,fun a ha b hb=>?_⟩
   obtain rfl:=mem_singleton.mp hb
   rcases mem_append.mp ha with ha | ha
   · exact (h.2.2 a ha z (mem_singleton_self z)).trans hz
   · obtain rfl:=mem_singleton.mp ha
     exact hz

section Loops
variable {d:Bytes} {p:ℕ}

lemma bind_ok {α β:Type} {x:Except Fault α} {f:α → Except Fault β} {b:β} (h:(x >>= f)=.ok b) : ∃ a,x=.ok a ∧ f a=.ok b := by
 cases x with
 | error e=>cases h
 | ok a=>exact ⟨a,rfl,h⟩

lemma readTimes_increasing {timeSize n i:ℕ} {times ts:List ℤ} (h:readTimes d p timeSize n i times=.ok ts)
 (hi:times.length=i) (hinc:times.Pairwise (· < ·)) : ts.Pairwise (· < ·) ∧ ts.length=i+n := by
 induction n generalizing i times with
 | zero=>
  cases h
  exact ⟨hinc,hi⟩
 | succ n ih=>
  obtain ⟨t,-,h⟩:=bind_ok h
  split_ifs at h with hlate
  · cases h
  · have hlast:times≠[] → times.getLastD 0<t:=by
     intro hne
     have hpos:=length_pos_of_ne_nil hne
     by_contra hle
     exact hlate ⟨by omega,not_lt.mp hle⟩
    have hnext:=ih h (by rw [length_append,hi,length_singleton]) (pairwise_concat hinc hlast)
    exact ⟨hnext.1,by omega⟩

lemma readIndices_inRange {typecnt n i:ℕ} {indices is:List ℕ} (h:readIndices d p typecnt n i indices=.ok is)
 (hrange:∀ k∈indices,k<typecnt) : (∀ k∈is,k<typecnt) ∧ is.length=indices.length+n := by
 induction n generalizing i indices with
 | zero=>
  cases h
  exact ⟨hrange,rfl⟩
 | succ n ih=>
  obtain ⟨idx,-,h⟩:=bind_ok h
  split_ifs at h with hout
  · cases h
  · have hnext:=ih h (by
     intro k hk
     rcases mem_append.mp hk with hk | hk
     · exact hrange k hk
     · obtain rfl:=mem_singleton.mp hk
       omega)
    rw [length_append,length_singleton] at hnext
    exact ⟨hnext.1,by omega⟩

lemma readTypes_length {chars charcnt n i:ℕ} {types ts:List LocalTimeType}
 (h:readTypes d p chars charcnt n i types=.ok ts) : ts.length=types.length+n := by
 induction n generalizing i types with
 | zero=>
  cases h
  rfl
 | succ n ih=>
  obtain ⟨utoff,-,h⟩:=bind_ok h
  obtain ⟨isDst,-,h⟩:=bind_ok h
  obtain ⟨idx,-,h⟩:=bind_ok h
  split_ifs at h
  · cases h
  · obtain ⟨text,-,h⟩:=bind_ok h
    rw [ih h,length_append,length_singleton]
    omega

lemma readHeader_typed {start:ℕ} {h:Header} (hrun:readHeader d start=.ok h) : h.typecnt≠0 := by
 unfold readHeader at hrun
 split_ifs at hrun
 · cases hrun
 · obtain ⟨magic,-,hrun⟩:=bind_ok hrun
   split_ifs at hrun
   · cases hrun
   · obtain ⟨v,-,hrun⟩:=bind_ok hrun
     obtain ⟨version,-,hrun⟩:=bind_ok hrun
     obtain ⟨isutcnt,-,hrun⟩:=bind_ok hrun
     obtain ⟨isstdcnt,-,hrun⟩:=bind_ok hrun
     obtain ⟨leapcnt,-,hrun⟩:=bind_ok hrun
     obtain ⟨timecnt,-,hrun⟩:=bind_ok hrun
     obtain ⟨typecnt,-,hrun⟩:=bind_ok hrun
     obtain ⟨charcnt,-,hrun⟩:=bind_ok hrun
     unfold checkCounts at hrun
     split_ifs at hrun with hcounts
     · cases hrun
     · cases hrun
     · cases hrun
     · cases hrun
       exact fun hzero=>hcounts (.inl hzero)

lemma readFooter_checked {start:ℕ} {footer:Option PosixRule} (h:readFooter d start=.ok footer) : ∀ r∈footer,r.Checked := by
 unfold readFooter at h
 split_ifs at h
 · cases h
 · obtain ⟨c,-,h⟩:=bind_ok h
   split_ifs at h
   · cases h
   · obtain ⟨⟨tz,k⟩,-,h⟩:=bind_ok h
     dsimp only at h
     split_ifs at h
     · cases h
     · cases h
       exact fun r hr=>nomatch hr
     · cases hparse:parsePosix tz with
       | error e=>
        rw [hparse] at h
        cases h
       | ok rule=>
        rw [hparse] at h
        cases h
        intro r hr
        obtain rfl:=Option.mem_some_iff.mp hr
        exact parsePosix_checked hparse

end Loops

structure Zone where
 version : ℕ
 transitionTimes : List ℤ
 transitionTypes : List ℕ
 types : List LocalTimeType
 footer : Option PosixRule
 increasing : transitionTimes.Pairwise (· < ·)
 paired : transitionTypes.length=transitionTimes.length
 inRange : ∀ i∈transitionTypes,i<types.length
 typed : types≠[]
 checked : ∀ r∈footer,r.Checked

def certified {α:Type} {P:α → Prop} (x:Except Fault α) (h:∀ a,x=.ok a → P a) : Except Fault { a // P a } :=
 match x,h with
 | .ok a,h=>.ok ⟨a,h a rfl⟩
 | .error e,_=>.error e

/-- The header in force, where its block begins and the size of its times: the second header if there is one. -/
def locateBlock (d:Bytes) (h:Header) : Except Fault (Header × ℕ × ℕ) :=
 if 2 ≤ h.version then do
  let start:=44+blockSize h 4
  let h2 ← readHeader d start
  return (h2,start+44,8)
 else return (h,44,4)

lemma locateBlock_typed {d:Bytes} {h h':Header} {start timeSize:ℕ} (hh:h.typecnt≠0)
 (hrun:locateBlock d h=.ok (h',start,timeSize)) : h'.typecnt≠0 := by
 unfold locateBlock at hrun
 split_ifs at hrun
 · obtain ⟨h2,hread,hrun⟩:=bind_ok hrun
   cases hrun
   exact readHeader_typed hread
 · cases hrun
   exact hh

/-- The tables of a block: times, type indices, types with their abbreviations; then the footer. -/
def readBlock (d:Bytes) (version:ℕ) (h:Header) (hh:h.typecnt≠0) (start timeSize:ℕ) : Except Fault Zone :=
 if d.length<start+blockSize h timeSize then refuse "TZif: truncated data block"
 else do
  let ⟨times,htimes⟩ ← certified (readTimes d start timeSize h.timecnt 0 []) fun _ hrun=>
   readTimes_increasing hrun rfl List.Pairwise.nil
  let p:=start+h.timecnt*timeSize
  let ⟨indices,hindices⟩ ← certified (readIndices d p h.typecnt h.timecnt 0 []) fun _ hrun=>
   readIndices_inRange hrun fun _ hk=>nomatch hk
  let p:=p+h.timecnt
  let ⟨types,htypes⟩ ← certified (readTypes d p (p+h.typecnt*6) h.charcnt h.typecnt 0 []) fun _ hrun=>
   readTypes_length hrun
  let ⟨footer,hfooter⟩ ← certified (if 2 ≤ h.version then readFooter d (start+blockSize h timeSize) else return none)
   (P:=fun footer=>∀ r∈footer,r.Checked) fun footer hrun=>by
    split_ifs at hrun
    · exact readFooter_checked hrun
    · cases hrun
      exact fun r hr=>nomatch hr
  have hcount:types.length=h.typecnt:=by rw [htypes,length_nil,Nat.zero_add]
  return {
   version,transitionTimes:=times,transitionTypes:=indices,types,footer
   increasing:=htimes.1
   paired:=by rw [hindices.2,htimes.2,length_nil]
   inRange:=fun i hi=>by rw [hcount]; exact hindices.1 i hi
   typed:=fun hnil=>hh (by rw [← hcount,hnil,length_nil])
   checked:=hfooter }

def parse (d:Bytes) : Except Fault Zone := do
 let ⟨h1,hh1⟩ ← certified (readHeader d 0) fun _ hrun=>readHeader_typed hrun
 let ⟨(h,start,timeSize),hh⟩ ← certified (locateBlock d h1) (P:=fun b=>b.1.typecnt≠0) fun _ hrun=>
  locateBlock_typed hh1 hrun
 readBlock d h1.version h hh start timeSize

/-- The year in which a second falls, as an `int`. -/
def yearOfInstant (instant:ℤ) : ℤ :=
 let z:=(if 0 ≤ instant then instant else instant-86399).tdiv 86400+719468
 let era:=(if 0 ≤ z then z else z-146096).tdiv 146097
 let doe:=z-era*146097
 let yoe:=(doe-doe.tdiv 1460+doe.tdiv 36524-doe.tdiv 146096).tdiv 365
 let doy:=doe-(365*yoe+yoe.tdiv 4-yoe.tdiv 100)
 let mp:=(5*doy+2).tdiv 153
 let m:=mp+if mp<10 then 3 else -9
 int32 (yoe+era*400+if m ≤ 2 then 1 else 0)

def dim : List ℤ := [31,28,31,30,31,30,31,31,30,31,30,31]

/-- Goes back by weeks while the day is past `last`; each round makes up a day at least. -/
def backTo (last:ℤ) : ℕ → ℤ → ℤ
 | 0,day=>day
 | n+1,day=>if last<day then backTo last n (day-7) else day

def ruleDay (year:ℤ) (d:RuleDate) : ℤ :=
 match d.kind with
 | .monthWeekDay=>
  let first:=daysFromCivil year d.month 1
  let delta:=d.weekday-weekdayOfDay first
  let delta:=if delta<0 then delta+7 else delta
  let day:=first+delta+(d.week-1)*7
  let last:=first+dim.getD (d.month-1).toNat 0+(if d.month=2 ∧ leap year=true then 1 else 0)-1
  backTo last (day-last).toNat day
 | .julianNoLeap=>
  let n:=if leap year=true ∧ 60 ≤ d.day then d.day+1 else d.day
  daysFromCivil year 1 1+n-1
 | .julianZeroBased=>daysFromCivil year 1 1+d.day

/-- The instant at which the date takes effect, its time being local under the offset before. -/
def ruleTransition (year:ℤ) (d:RuleDate) (offsetBefore:ℤ) : ℤ := ruleDay year d*86400+d.time-offsetBefore

structure Local where
 offset : ℤ
 isDst : Bool
 abbreviation : Bytes
 deriving DecidableEq

def LocalTimeType.asLocal (t:LocalTimeType) : Local := ⟨t.utoff,t.isDst,t.abbreviation⟩

/-- The transitions of a rule in a year, each with whether it is to daylight saving time. -/
def yearTransitions (r:PosixRule) (dst:LocalTimeType) (y:ℤ) : List (ℤ ×ₗ Bool) :=
 [toLex (ruleTransition y r.start r.std.utoff,true),toLex (ruleTransition y r.stop dst.utoff,false)]

def ruleLocal (r:PosixRule) (instant:ℤ) : Local :=
 match r.dst with
 | none=>⟨r.std.utoff,false,r.std.abbreviation⟩
 | some dst=>
  let year:=yearOfInstant (instant+r.std.utoff)
  let ts:=[year-1,year,year+1].flatMap (yearTransitions r dst)
  let isDst:=(ts.insertionSort (· ≤ ·)).foldl
   (fun isDst td=>if (ofLex td).1 ≤ instant then (ofLex td).2 else isDst) false
  if isDst then ⟨dst.utoff,true,dst.abbreviation⟩ else ⟨r.std.utoff,false,r.std.abbreviation⟩

def upperBound (times:List ℤ) (instant:ℤ) : ℕ := (times.takeWhile (· ≤ instant)).length

namespace Zone

def typeAt (z:Zone) (k:Fin z.transitionTimes.length) : Fin z.types.length :=
 let i:=z.transitionTypes.get ⟨k,by rw [z.paired]; exact k.2⟩
 ⟨i,z.inRange i (get_mem _ _)⟩

def typeLocal (z:Zone) (i:Fin z.types.length) : Local := (z.types.get i).asLocal

/-- Before the first transition: the first type that is not daylight saving time, else the first. -/
def initialLocal (z:Zone) : Local := ((z.types.find? fun t=>!t.isDst).getD (z.types.head z.typed)).asLocal

def localOf (z:Zone) (instant:ℤ) : Local :=
 if h:z.transitionTimes=[] then
  match z.footer with
  | some r=>ruleLocal r instant
  | none=>z.typeLocal ⟨0,length_pos_of_ne_nil z.typed⟩
 else if instant<z.transitionTimes.head h then z.initialLocal
 else
  let idx:Fin z.transitionTimes.length:=⟨upperBound z.transitionTimes instant-1,by
   have hpos:=length_pos_of_ne_nil h
   have hle:upperBound z.transitionTimes instant ≤ z.transitionTimes.length:=( takeWhile_prefix _).length_le
   omega⟩
  if idx+1=z.transitionTimes.length then
   match z.footer with
   | some r=>ruleLocal r instant
   | none=>z.typeLocal (z.typeAt idx)
  else z.typeLocal (z.typeAt idx)

def offsets (z:Zone) (localSeconds:ℤ) : List ℤ :=
 [(z.localOf (localSeconds-36*3600)).offset,(z.localOf (localSeconds+36*3600)).offset] ++
  z.types.map LocalTimeType.utoff ++
  match z.footer with
  | none=>[]
  | some r=>[r.std.utoff]++match r.dst with
   | none=>[]
   | some dst=>[dst.utoff]

/-- `std::unique` -/
def unique : List ℤ → List ℤ
 | a::b::l=>if a=b then unique (b::l) else a::unique (b::l)
 | l=>l

def instantsOf (z:Zone) (localSeconds:ℤ) : List ℤ :=
 let candidates:=(z.offsets localSeconds).filterMap fun offset=>
  let t:=localSeconds-offset
  if (z.localOf t).offset=offset then some t else none
 unique (candidates.insertionSort (· ≤ ·))

structure Transition where
 time : ℤ
 after : Local
 deriving DecidableEq

def explicitStep (z:Zone) (lo hi:ℤ) (s:List Transition × Local) (t:ℤ) : List Transition × Local :=
 if t<lo ∨ hi ≤ t then s
 else
  let after:=z.localOf t
  let differs:=after.offset≠s.2.offset ∨ after.isDst≠s.2.isDst ∨ after.abbreviation≠s.2.abbreviation
  (if differs then s.1++[⟨t,after⟩] else s.1,after)

def ruleStep (z:Zone) (lo hi ruleFrom:ℤ) (s:List Transition × Local) (t:ℤ) : List Transition × Local :=
 if t < ruleFrom ∨ hi ≤ t then s
 else if t ≤ (s.1.getLast?.map Transition.time).getD (lo-1) then s
 else
  let after:=z.localOf t
  let differs:=after.offset≠s.2.offset ∨ after.isDst≠s.2.isDst
  (if differs then s.1++[⟨t,after⟩] else s.1,after)

def years (y0 y1:ℤ) : List ℤ := (range (y1+1-y0).toNat).map fun k:ℕ=>y0+k

def transitions (z:Zone) (lo hi:ℤ) : List Transition :=
 let out:=(z.transitionTimes.foldl (z.explicitStep lo hi) ([],z.localOf lo)).1
 let out:=match z.footer with
  | none=>out
  | some r=>match r.dst with
   | none=>out
   | some dst=>
    let ruleFrom:=if z.transitionTimes.isEmpty then lo else max lo (z.transitionTimes.getLastD 0)
    let times:=(years (yearOfInstant ruleFrom-1) (yearOfInstant hi+1)).flatMap fun y=>
     [ruleTransition y r.start r.std.utoff,ruleTransition y r.stop dst.utoff]
    ((times.insertionSort (· ≤ ·)).foldl (z.ruleStep lo hi ruleFrom) (out,z.localOf ruleFrom)).1
 out.insertionSort fun a b=>a.time ≤ b.time

end Zone

end Archivum.Tzif
