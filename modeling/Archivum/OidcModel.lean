import Archivum.Interleaving
import Archivum.RecordModel
import Archivum.VfsModel

set_option autoImplicit false

/-!
# Bearer tokens and the cached keys

`OidcValidator::authenticate` as a sequence of steps, each the code between two
points where another request may run: a critical section, or the wait for the
network. Tokens and key sets are decoded by a library, which is a parameter.
-/
namespace Archivum.OidcModel
open ByteStrings PageTxn VfsModel RecordModel Interleaving

structure OidcConfig where
 issuer : Bytes
 audience : Bytes
 clockSkewSeconds : ℕ := 120
 jwksRefreshMinIntervalSeconds : ℕ := 60
 jwksDefaultMaxAgeSeconds : ℕ := 3600
 deriving DecidableEq

structure Principal where
 subject : Bytes
 oid : Bytes
 tid : Bytes
 preferredUsername : Bytes
 email : Bytes
 keyId : Bytes
 deriving DecidableEq

/-- A decoded token; `claims` are those that are strings. -/
structure Decoded where
 keyId : Option Bytes
 algorithm : Except String Bytes
 hasExpiresAt : Bool
 claims : List (Bytes × Bytes)

structure Jwk where
 keyId : Option Bytes
 keyType : Except String Bytes
 use : Option Bytes
 n : Bytes
 e : Bytes

/-- What the library computes, or what its exception says. -/
structure Jwt where
 decode : Bytes → Except String Decoded
 /-- Signature, issuer, audience and times, at a reading of the system clock. -/
 verify : OidcConfig → Bytes → Decoded → ℤ → Except String (Option String)
 parseJwks : Bytes → Except String (List Jwk)
 publicKey : Bytes → Bytes → Except String Bytes

/-- `std::tolower` of the C locale -/
def toLower (s:Bytes) : Bytes := s.map fun c=>if 65 ≤ c ∧ c ≤ 90 then c+32 else c

/-- `std::strtol` in base ten -/
def strtol (s:Bytes) : ℤ :=
 let s:=s.dropWhile fun c=>c=32 ∨ 9 ≤ c ∧ c ≤ 13
 let negative:=s.head? = some 45
 let digits:=(if s.head? = some 45 ∨ s.head? = some 43 then s.tail else s).takeWhile fun c=>48 ≤ c ∧ c ≤ 57
 let v:ℤ:=digits.foldl (fun v c=>10*v+(c.toNat-48)) 0
 if negative then max (-v) (-2^63) else min v (2^63-1)

/-- What follows the first `needle`. -/
def findAfter (needle s:Bytes) : Option Bytes :=
 (s.tails.find? fun t=>needle.isPrefixOf t).map fun t=>t.drop needle.length

def parseMaxAge (cacheControl:Bytes) : ℕ :=
 match findAfter (ascii "max-age=") (toLower cacheControl) with
 | none=>0
 | some s=>if 0<strtol s then (strtol s).toNat%2^32 else 0

/-- The token of an `Authorization` header. -/
def bearerToken (header:Bytes) : Except Status Bytes :=
 let token:=(header.drop 7).dropWhile fun c=>c=32
 if header.length<8 then .error (invalidArgument "missing bearer token")
 else if toLower (header.take 7)≠ascii "bearer " then
  .error (invalidArgument "authorization scheme is not Bearer")
 else if token=[] ∨ 32∈token then .error (invalidArgument "malformed bearer token")
 else .ok token

/-- The fields that the mutex guards. Times count nanoseconds. -/
structure Validator where
 jwksUri : Bytes
 keys : List (Bytes × Bytes)
 fetchedAt : ℤ
 expiresAt : ℤ
 lastRefreshStarted : ℤ
 refreshes : ℕ
 refreshesSuppressed : ℕ
 refreshesJoined : ℕ
 refreshInFlight : Bool
 refreshGeneration : UInt64
 deriving DecidableEq

structure Fetched where
 body : Bytes
 cacheControl : Bytes

def kSecond : ℤ := 1000000000

variable (jwt:Jwt) (cfg:OidcConfig)

/-- The signing keys of a set; a later key replaces an earlier one of the same id. -/
def usableKeys : List Jwk → List (Bytes × Bytes) → Except String (List (Bytes × Bytes))
 | [],keys=>.ok keys
 | jwk::rest,keys=>
  match jwk.keyId with
  | none=>usableKeys rest keys
  | some kid=>do
   let keyType ← jwk.keyType
   if keyType≠ascii "RSA" ∨ jwk.use.isSome ∧ jwk.use≠some (ascii "sig") then usableKeys rest keys
   else do
    let pem ← jwt.publicKey jwk.n jwk.e
    usableKeys rest ((kid,pem)::keys)

/-- What `refresh_jwks` makes of the response: the keys and for how many seconds they are good. -/
def readResponse (response:Except Status Fetched) : Except Status (List (Bytes × Bytes) × ℕ) := do
 let fetched ← response
 let keys ← ((jwt.parseJwks fetched.body).bind fun jwks=>usableKeys jwt jwks []).mapError
  fun what=>ioError ("JWKS parse failed: " ++ what)
 if keys=[] then .error (ioError "JWKS contains no usable RSA signing keys")
 else
  let maxAge:=parseMaxAge fetched.cacheControl
  .ok (keys,if maxAge=0 then cfg.jwksDefaultMaxAgeSeconds else maxAge)

def claimString (d:Decoded) (name:String) : Bytes := (d.claims.lookup (ascii name)).getD []

def verifyWithCachedKeys (keys:List (Bytes × Bytes)) (token:Bytes) (now:ℤ) :
  Except String (Except Status Principal × Bool) := do
 let decoded ← jwt.decode token
 match decoded.keyId with
 | none=>return (.error (invalidArgument "token has no kid"),false)
 | some kid=>
  let algorithm ← decoded.algorithm
  if algorithm≠ascii "RS256" then return (.error (invalidArgument "token algorithm is not RS256"),false)
  else match keys.lookup kid with
   | none=>return (.error (notFound "unknown kid"),true)
   | some pem=>
    let rejected ← jwt.verify cfg pem decoded now
    match rejected with
    | some message=>return (.error (invalidArgument ("token rejected: " ++ message)),false)
    | none=>
     let p:Principal:=
      { subject:=claimString decoded "sub",oid:=claimString decoded "oid"
        tid:=claimString decoded "tid",preferredUsername:=claimString decoded "preferred_username"
        email:=claimString decoded "email",keyId:=kid }
     if !decoded.hasExpiresAt then return (.error (invalidArgument "token has no exp"),false)
     else if p.oid=[] ∨ p.tid=[] then return (.error (invalidArgument "token lacks oid or tid"),false)
     else return (.ok p,false)

def verifyToken (keys:List (Bytes × Bytes)) (token:Bytes) (now:ℤ) : Except Status Principal × Bool :=
 match verifyWithCachedKeys jwt cfg keys token now with
 | .ok r=>r
 | .error what=>(.error (invalidArgument ("token undecodable: " ++ what)),false)

/-- Where a call of `authenticate` stands. `floor` tells the refresh for an unknown key id from the
one for expired keys. -/
inductive Phase
 | idle
 | check (token:Bytes)
 /-- About to decide who fetches. -/
 | decide (token:Bytes) (floor:Bool)
 /-- To fetch; the start is not recorded yet. -/
 | start (token:Bytes) (floor:Bool)
 | fetch (token:Bytes) (floor:Bool) (uri:Bytes)
 | store (token:Bytes) (floor:Bool) (keys:List (Bytes × Bytes)) (maxAge:ℕ)
 | finish (token:Bytes) (floor:Bool) (status:Except Status Unit)
 | wait (token:Bytes) (floor:Bool) (generation:UInt64) (polls:ℕ)
 | verify (token:Bytes) (again:Bool)
 | done (result:Except Status Principal)
 deriving DecidableEq

structure Moment where
 system : ℤ
 steady : ℤ
 header : Bytes
 response : Except Status Fetched

def kPolls : ℕ := 2000

def advance (m:Moment) (v:Validator) : Phase → Validator × Phase
 | .idle=>
  match bearerToken m.header with
  | .error s=>(v,.done (.error s))
  | .ok token=>(v,.check token)
 | .check token=>(v,if v.expiresAt ≤ m.system then .decide token false else .verify token false)
 | .decide token floor=>
  if v.refreshInFlight then
   ({ v with refreshesJoined:=v.refreshesJoined+1 },.wait token floor v.refreshGeneration 0)
  else if floor ∧ m.steady-v.lastRefreshStarted<cfg.jwksRefreshMinIntervalSeconds*kSecond then
   ({ v with refreshesSuppressed:=v.refreshesSuppressed+1 },
    .done (.error (invalidArgument "unknown kid; refresh suppressed by rate floor")))
  else ({ v with refreshInFlight:=true },.start token floor)
 | .start token floor=>({ v with lastRefreshStarted:=m.steady },.fetch token floor v.jwksUri)
 | .fetch token floor _=>
  match readResponse jwt cfg m.response with
  | .error s=>(v,.finish token floor (.error s))
  | .ok (keys,maxAge)=>(v,.store token floor keys maxAge)
 | .store token floor keys maxAge=>
  ({ v with keys,fetchedAt:=m.system,expiresAt:=m.system+maxAge*kSecond
            refreshes:=v.refreshes+1 },.finish token floor (.ok ()))
 | .finish token floor status=>
  ({ v with refreshInFlight:=false,refreshGeneration:=v.refreshGeneration+1 },
   match status with
   | .error s=>.done (.error s)
   | .ok ()=>.verify token floor)
 | .wait token floor generation polls=>
  (v,if v.refreshGeneration≠generation then .verify token floor
    else if polls+1<kPolls then .wait token floor generation (polls+1)
    else .done (.error (ioError "JWKS refresh in flight did not finish in time")))
 | .verify token again=>
  match verifyToken jwt cfg v.keys token m.system with
  | (.ok p,_)=>(v,.done (.ok p))
  | (.error s,unknownKid)=>(v,if unknownKid ∧ !again then .decide token true else .done (.error s))
 | .done result=>(v,.done result)

abbrev System (ι:Type) := Validator × (ι → Phase)

abbrev run {ι:Type} [DecidableEq ι] (xs:List (ι × Moment)) (s:System ι) : System ι :=
 StatefulActions.after (turn (advance jwt cfg)) xs s

/-- Before the first call: what `initialize` left. -/
structure Fresh {ι:Type} (s:System ι) : Prop where
 idle : ∀ i,s.2 i=.idle
 free : s.1.refreshInFlight=false

end Archivum.OidcModel
