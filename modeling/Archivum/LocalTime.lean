import Archivum.RecordModel

set_option autoImplicit false

/-!
# Wall-clock times and days

Local days since 1970-01-01, and the wall-clock text that a punch carries. The
divisions are those of the code, towards zero.
-/
namespace Archivum.LocalTimes
open ByteStrings PageTxn RecordModel

/-- `%0*d` -/
def padded (width:ℕ) (v:ℤ) : String :=
 let digits:=toString v.natAbs
 let sign:=if v<0 then "-" else ""
 sign++String.ofList (List.replicate (width-sign.length-digits.length) '0')++digits

def daysFromCivil (y m d:ℤ) : ℤ :=
 let y:=if m ≤ 2 then y-1 else y
 let era:=(if 0 ≤ y then y else y-399).tdiv 400
 let yoe:=y-era*400
 let doy:=(153*(m+if 2 < m then -3 else 9)+2).tdiv 5+d-1
 let doe:=yoe*365+yoe.tdiv 4-yoe.tdiv 100+doy
 era*146097+doe-719468

def weekdayOfDay (localDay:ℤ) : ℤ :=
 let w:=(localDay+4).tmod 7
 if w<0 then w+7 else w

def formatLocalDay (z:ℤ) : String :=
 let z:=z+719468
 let era:=(if 0 ≤ z then z else z-146096).tdiv 146097
 let doe:=z-era*146097
 let yoe:=(doe-doe.tdiv 1460+doe.tdiv 36524-doe.tdiv 146096).tdiv 365
 let y:=yoe+era*400
 let doy:=doe-(365*yoe+yoe.tdiv 4-yoe.tdiv 100)
 let mp:=(5*doy+2).tdiv 153
 let d:=doy-(153*mp+2).tdiv 5+1
 let m:=mp+if mp<10 then 3 else -9
 padded 4 (y+if m ≤ 2 then 1 else 0) ++ "-" ++ padded 2 m ++ "-" ++ padded 2 d

structure LocalTime where
 year : ℤ
 month : ℤ
 day : ℤ
 hour : ℤ
 minute : ℤ
 second : ℤ
 localDay : ℤ
 weekday : ℤ
 minuteOfDay : ℤ
 deriving DecidableEq

def num (digits:Bytes) : Option ℤ :=
 digits.foldl (fun out b=>out.bind fun n=>
  if 48 ≤ b.toNat ∧ b.toNat ≤ 57 then some (n*10+(b.toNat-48)) else none) (some 0)

/-- `len` bytes from `start` on. -/
def slice (s:Bytes) (start len:ℕ) : Bytes := (s.drop start).take len

def daysInMonth : List ℤ := [31,29,31,30,31,30,31,31,30,31,30,31]

def leap (year:ℤ) : Bool := year%4=0 ∧ year%100≠0 ∨ year%400=0

def wellShaped (s:Bytes) : Bool :=
 s.length=19 ∧ slice s 4 1=ascii "-" ∧ slice s 7 1=ascii "-" ∧ slice s 10 1=ascii "T" ∧
  slice s 13 1=ascii ":" ∧ slice s 16 1=ascii ":"

def lastDay (year month:ℤ) : ℤ :=
 daysInMonth.getD (month-1).toNat 0-if month=2 ∧ leap year=false then 1 else 0

def validClock (year month day hour minute second:ℤ) : Bool :=
 1970 ≤ year ∧ year ≤ 9999 ∧ 1 ≤ month ∧ month ≤ 12 ∧ 1 ≤ day ∧ day ≤ lastDay year month ∧ hour ≤ 23 ∧
  minute ≤ 59 ∧ second ≤ 60

def shapeError : Status := invalidArgument "local_time must be YYYY-MM-DDTHH:MM:SS"

def parseLocalTime (s:Bytes) : Except Status LocalTime :=
 if !wellShaped s then .error shapeError
 else match num (slice s 0 4),num (slice s 5 2),num (slice s 8 2),num (slice s 11 2),num (slice s 14 2),
   num (slice s 17 2) with
  | some year,some month,some day,some hour,some minute,some second=>
   if !validClock year month day hour minute second then
    .error (invalidArgument "local_time is not a valid wall-clock time")
   else
    let localDay:=daysFromCivil year month day
    .ok { year,month,day,hour,minute,second,localDay,
          weekday:=weekdayOfDay localDay,minuteOfDay:=hour*60+minute }
  | _,_,_,_,_,_=>.error shapeError

example : (parseLocalTime (ascii "2024-02-29T07:05:09")).toOption.map LocalTime.localDay=some 19782 := by
 decide +kernel

end Archivum.LocalTimes
