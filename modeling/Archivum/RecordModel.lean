import Archivum.Decoders
import Archivum.PageTxn

set_option autoImplicit false

/-!
# Typed values and their encodings

Column types, tagged values, the order-preserving key encoding and the compact
row encoding. A `std::string` is its bytes.
-/
namespace Archivum.RecordModel
open ByteStrings StatefulActions PageTxn Decoders

def alreadyExists (message:String) : Status := ⟨.alreadyExists,message⟩

def text (s:Bytes) : String := String.ofList (s.map fun b=>Char.ofNat b.toNat)

def ascii (s:String) : Bytes := s.toList.map fun c=>UInt8.ofNat c.toNat

inductive ColumnType
 | integer | decimal | text | blob | timestamp | boolean | uuid
 deriving DecidableEq,Repr

namespace ColumnType

def code : ColumnType → ℕ
 | integer=>1
 | decimal=>2
 | text=>3
 | blob=>4
 | timestamp=>5
 | boolean=>6
 | uuid=>7

/-- `static_cast<ColumnType>` of a number from 1 to 7. -/
def ofCode : ℕ → ColumnType
 | 1=>integer
 | 2=>decimal
 | 3=>text
 | 4=>blob
 | 5=>timestamp
 | 6=>boolean
 | _=>uuid

def toString : ColumnType → String
 | integer => "integer"
 | decimal => "decimal"
 | text => "text"
 | blob => "blob"
 | timestamp => "timestamp"
 | boolean => "boolean"
 | uuid => "uuid"

end ColumnType

abbrev UuidBytes := { b:Bytes // b.length=16 }

inductive Value
 | null
 | integer (v:Int64)
 /-- Units already scaled: 12.34 at scale 2 is 1234. -/
 | decimal (units:Int64)
 | text (s:Bytes)
 | blob (b:Bytes)
 | timestamp (micros:Int64)
 | boolean (v:Bool)
 | uuid (u:UuidBytes)
 deriving DecidableEq

abbrev Row := List Value

namespace Value

def kind : Value → ℕ
 | null=>0
 | integer _=>1
 | decimal _=>2
 | text _=>3
 | blob _=>4
 | timestamp _=>5
 | boolean _=>6
 | uuid _=>7

def isNull : Value → Bool
 | null=>true
 | _=>false

/-- Whether the value may be stored in a column of the type; null always may. -/
def «matches» (v:Value) (t:ColumnType) : Bool := v.isNull || v.kind == t.code

def compareInts (a b:Int64) : Ordering := if a<b then .lt else if b<a then .gt else .eq

def compare (a b:Value) : Ordering :=
 match a,b with
 | integer x,integer y=>compareInts x y
 | decimal x,decimal y=>compareInts x y
 | timestamp x,timestamp y=>compareInts x y
 | boolean x,boolean y=>compareOfLessAndEq x.toNat y.toNat
 | text x,text y=>compareBytes x y
 | blob x,blob y=>compareBytes x y
 | uuid x,uuid y=>compareBytes x.1 y.1
 | _,_=>compareOfLessAndEq a.kind b.kind

/-- `operator==` -/
def equal (a b:Value) : Bool := a.compare b == .eq && a.kind == b.kind

def hexDigit (n:ℕ) : Char := "0123456789abcdef".toList.getD n '0'

def uuidText (u:Bytes) : String :=
 String.ofList ((u.zipIdx.flatMap fun b=>
  [hexDigit (b.1.toNat/16),hexDigit (b.1.toNat%16)] ++
   if b.2=3 ∨ b.2=5 ∨ b.2=7 ∨ b.2=9 then ['-'] else []))

def toString : Value → String
 | null => "NULL"
 | integer v=>ToString.toString v.toInt
 | decimal v=>ToString.toString v.toInt
 | timestamp v=>ToString.toString v.toInt
 | boolean v=>if v then "true" else "false"
 | text s => "'" ++ RecordModel.text s ++ "'"
 | blob b => "blob(" ++ ToString.toString b.length ++ ")"
 | uuid u=>uuidText u.1

end Value

/-- The length of a sequence by its first byte, and the bits of the code point in it. -/
def utf8Lead (c:ℕ) : Option (ℕ × ℕ) :=
 if c<0x80 then some (1,c)
 else if c &&& 0xE0=0xC0 then some (2,c &&& 0x1F)
 else if c &&& 0xF0=0xE0 then some (3,c &&& 0x0F)
 else if c &&& 0xF8=0xF0 then some (4,c &&& 0x07)
 else none

/-- The code point after the continuation bytes, none if one is not one. -/
def utf8Tail : ℕ → Bytes → Option ℕ
 | cp,[]=>some cp
 | cp,cc::rest=>
  if cc.toNat &&& 0xC0=0x80 then utf8Tail (cp <<< 6 ||| (cc.toNat &&& 0x3F)) rest else none

/-- The loop of `valid_utf8`; each round takes a byte at least. -/
def validUtf8Loop : ℕ → Bytes → Bool
 | 0,s=>s.isEmpty
 | _+1,[]=>true
 | n+1,c::s=>
  match utf8Lead c.toNat with
  | none=>false
  | some (len,bits)=>
   if s.length+1<len then false
   else match utf8Tail bits (s.take (len-1)) with
    | none=>false
    | some cp=>
     if len=2 ∧ cp<0x80 ∨ len=3 ∧ cp<0x800 ∨ len=4 ∧ cp<0x10000 then false
     else if 0x10FFFF<cp ∨ 0xD800 ≤ cp ∧ cp ≤ 0xDFFF then false
     else validUtf8Loop n (s.drop (len-1))

def validUtf8 (s:Bytes) : Bool := validUtf8Loop s.length s

def be64Flipped (v:Int64) : Bytes := (toLE 8 (v.toUInt64 ^^^ 0x8000000000000000).toNat).reverse

/-- A zero byte is followed by 0xFF, and the string ends with two zero bytes. -/
def escaped : Bytes → Bytes
 | []=>[0,0]
 | b::s=>(if b=0 then [0,0xFF] else [b])++escaped s

def encodeKeyValue : Value → Bytes
 | .null=>[0]
 | .integer v=>1::be64Flipped v
 | .decimal v=>1::be64Flipped v
 | .timestamp v=>1::be64Flipped v
 | .boolean v=>[1,if v then 1 else 0]
 | .uuid u=>1::u.1
 | .text s=>1::escaped s
 | .blob b=>1::escaped b

def encodeKey (values:Row) : Bytes := values.flatMap encodeKeyValue

/-- The next `n` bytes, `e` if there are fewer. -/
def takeBytes (n:ℕ) (e:Status) : Act Status Bytes Bytes := fun input=>
 if input.length<n then (.error e,input) else (.ok (input.take n),input.drop n)

/-- The loop of `get_escaped`; `fuel` bounds its rounds by the input. -/
def getEscapedLoop : ℕ → Bytes → Act Status Bytes Bytes
 | 0,_=>Act.fail (corrupt "unterminated key string")
 | fuel+1,out=>do
  let b ← takeBytes 1 (corrupt "unterminated key string")
  if b≠[0] then getEscapedLoop fuel (out++b)
  else do
   let n ← takeBytes 1 (corrupt "unterminated key string")
   if n=[0] then return out
   else if n=[0xFF] then getEscapedLoop fuel (out++[0])
   else Act.fail (corrupt "bad key string escape")

def getEscaped : Act Status Bytes Bytes := fun input=>getEscapedLoop (input.length+1) [] input

def int64OfFlipped (b:Bytes) : Int64 := ⟨UInt64.ofNat (fromLE b.reverse) ^^^ 0x8000000000000000⟩

def decodeKeyValue (t:ColumnType) : Act Status Bytes Value := do
 let tag ← takeBytes 1 (corrupt "key too short")
 if tag=[0] then return .null
 else if tag≠[1] then Act.fail (corrupt "bad key tag")
 else match t with
  | .integer=>do return .integer (int64OfFlipped (← takeBytes 8 (corrupt "key integer too short")))
  | .decimal=>do return .decimal (int64OfFlipped (← takeBytes 8 (corrupt "key integer too short")))
  | .timestamp=>do return .timestamp (int64OfFlipped (← takeBytes 8 (corrupt "key integer too short")))
  | .boolean=>do return .boolean ((← takeBytes 1 (corrupt "key boolean too short")) != [0])
  | .uuid=>do
   let u ← takeBytes 16 (corrupt "key uuid too short")
   if h:u.length=16 then return .uuid ⟨u,h⟩ else Act.fail (corrupt "key uuid too short")
  | .text=>do return .text (← getEscaped)
  | .blob=>do return .blob (← getEscaped)

def decodeKey : List ColumnType → Act Status Bytes Row
 | []=>return []
 | t::types=>do
  let v ← decodeKeyValue t
  let row ← decodeKey types
  return v::row

def int64Bytes (v:Int64) : Bytes := toLE 8 v.toUInt64.toNat

def int64Of (b:Bytes) : Int64 := ⟨UInt64.ofNat (fromLE b)⟩

def sized (b:Bytes) : Bytes := toLE 4 b.length++b

def encodeValue (v:Value) : Bytes :=
 UInt8.ofNat v.kind::match v with
  | .null=>[]
  | .integer i=>int64Bytes i
  | .decimal i=>int64Bytes i
  | .timestamp i=>int64Bytes i
  | .boolean b=>[if b then 1 else 0]
  | .uuid u=>u.1
  | .text s=>sized s
  | .blob b=>sized b

def encodeRow (row:Row) : Bytes := toLE 2 row.length++row.flatMap encodeValue

def takeSized : Act Status Bytes Bytes := do
 let len ← takeBytes 4 (corrupt "row length truncated")
 takeBytes (fromLE len) (corrupt "row payload truncated")

def decodePayload : ℕ → Act Status Bytes Value
 | 0=>return .null
 | 1=>do return .integer (int64Of (← takeBytes 8 (corrupt "row integer truncated")))
 | 2=>do return .decimal (int64Of (← takeBytes 8 (corrupt "row integer truncated")))
 | 3=>do return .text (← takeSized)
 | 4=>do return .blob (← takeSized)
 | 5=>do return .timestamp (int64Of (← takeBytes 8 (corrupt "row integer truncated")))
 | 6=>do return .boolean ((← takeBytes 1 (corrupt "row boolean truncated")) != [0])
 | 7=>do
  let u ← takeBytes 16 (corrupt "row uuid truncated")
  if h : u.length=16 then return .uuid ⟨u,h⟩ else Act.fail (corrupt "row uuid truncated")
 | _=>Act.fail (corrupt "row has unknown value kind")

def decodeValue : Act Status Bytes Value := do
 let kind ← takeBytes 1 (corrupt "row truncated")
 decodePayload (fromLE kind)

def decodeRow (input:Bytes) : Except Status Row :=
 whole (do
  let n ← takeBytes 2 (corrupt "row too short")
  times decodeValue (fromLE n)) (corrupt "row has trailing bytes") input

end Archivum.RecordModel
