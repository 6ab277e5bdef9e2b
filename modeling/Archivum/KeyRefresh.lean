import Archivum.OidcModel

set_option autoImplicit false

/-!
# Refreshing the keys from many calls at once

One call at a time fetches. An unknown key id starts a fetch only once the floor
has passed since the last one started; a call that found the keys expired can
rely on new keys only where no fetch that it waits for fails.
-/
namespace Archivum.KeyRefresh
open ByteStrings PageTxn RecordModel StatefulActions Interleaving OidcModel

variable {ι:Type} [DecidableEq ι] {jwt:Jwt} {cfg:OidcConfig}

def floorNs (cfg:OidcConfig) : ℤ := cfg.jwksRefreshMinIntervalSeconds*kSecond

inductive Moves (cfg:OidcConfig) (m:Moment) (v:Validator) : Phase → Validator → Phase → Prop
 | refused {s:Status} : Moves cfg m v .idle v (.done (.error s))
 | begun {token:Bytes} : Moves cfg m v .idle v (.check token)
 | expired {token:Bytes} (h:v.expiresAt ≤ m.system) : Moves cfg m v (.check token) v (.decide token false)
 | good {token:Bytes} (h:m.system<v.expiresAt) : Moves cfg m v (.check token) v (.verify token false)
 | joined {token:Bytes} {floor:Bool} (h:v.refreshInFlight=true) :
   Moves cfg m v (.decide token floor) { v with refreshesJoined:=v.refreshesJoined+1 }
    (.wait token floor v.refreshGeneration 0)
 | suppressed {token:Bytes} {s:Status} :
   Moves cfg m v (.decide token true) { v with refreshesSuppressed:=v.refreshesSuppressed+1 } (.done (.error s))
 | chosen {token:Bytes} {floor:Bool} (hfree:v.refreshInFlight=false)
   (hfloor:floor=true → v.lastRefreshStarted+floorNs cfg ≤ m.steady) :
   Moves cfg m v (.decide token floor) { v with refreshInFlight:=true } (.start token floor)
 | started {token:Bytes} {floor:Bool} :
   Moves cfg m v (.start token floor) { v with lastRefreshStarted:=m.steady } (.fetch token floor v.jwksUri)
 | failed {token:Bytes} {floor:Bool} {uri:Bytes} {s:Status} :
   Moves cfg m v (.fetch token floor uri) v (.finish token floor (.error s))
 | fetched {token:Bytes} {floor:Bool} {uri:Bytes} {keys:List (Bytes × Bytes)} {maxAge:ℕ} :
   Moves cfg m v (.fetch token floor uri) v (.store token floor keys maxAge)
 | stored {token:Bytes} {floor:Bool} {keys:List (Bytes × Bytes)} {maxAge:ℕ} :
   Moves cfg m v (.store token floor keys maxAge)
    { v with keys,fetchedAt:=m.system,expiresAt:=m.system+maxAge*kSecond,refreshes:=v.refreshes+1 }
    (.finish token floor (.ok ()))
 | ended {token:Bytes} {floor:Bool} {s:Status} :
   Moves cfg m v (.finish token floor (.error s))
    { v with refreshInFlight:=false,refreshGeneration:=v.refreshGeneration+1 } (.done (.error s))
 | finished {token:Bytes} {floor:Bool} :
   Moves cfg m v (.finish token floor (.ok ()))
    { v with refreshInFlight:=false,refreshGeneration:=v.refreshGeneration+1 } (.verify token floor)
 | woken {token:Bytes} {floor:Bool} {generation:UInt64} {polls:ℕ} (h:v.refreshGeneration≠generation) :
   Moves cfg m v (.wait token floor generation polls) v (.verify token floor)
 | polled {token:Bytes} {floor:Bool} {generation:UInt64} {polls:ℕ} :
   Moves cfg m v (.wait token floor generation polls) v (.wait token floor generation (polls+1))
 | timedOut {token:Bytes} {floor:Bool} {generation:UInt64} {polls:ℕ} {s:Status} :
   Moves cfg m v (.wait token floor generation polls) v (.done (.error s))
 | accepted {token:Bytes} {again:Bool} {p:Principal} : Moves cfg m v (.verify token again) v (.done (.ok p))
 | rejected {token:Bytes} {again:Bool} {s:Status} : Moves cfg m v (.verify token again) v (.done (.error s))
 | unknown {token:Bytes} : Moves cfg m v (.verify token false) v (.decide token true)
 | returned {r:Except Status Principal} : Moves cfg m v (.done r) v (.done r)

lemma advance_moves (jwt:Jwt) (cfg:OidcConfig) (m:Moment) (v:Validator) (l:Phase) :
 Moves cfg m v l (advance jwt cfg m v l).1 (advance jwt cfg m v l).2 := by
 cases l with
 | idle=>
  simp only [advance]
  split
  · exact .refused
  · exact .begun
 | check token=>
  simp only [advance]
  split
  · exact .expired ‹_›
  · exact .good (not_le.mp ‹_›)
 | decide token floor=>
  simp only [advance]
  split
  · exact .joined ‹_›
  · split
    · rename_i _ hfloor
      rw [hfloor.1]
      exact .suppressed
    · rename_i hfree hfloor
      refine .chosen (by simpa using hfree) fun h=>?_
      have:=not_lt.mp fun hlt=>hfloor ⟨h,hlt⟩
      unfold floorNs
      omega
 | start token floor=>exact .started
 | fetch token floor uri=>
  simp only [advance]
  split
  · exact .failed
  · exact .fetched
 | store token floor keys maxAge=>exact .stored
 | finish token floor status=>
  cases status with
  | error s=>exact .ended
  | ok=>exact .finished
 | wait token floor generation polls=>
  simp only [advance]
  split
  · exact .woken ‹_›
  · split
    · exact .polled
    · exact .timedOut
 | verify token again=>
  simp only [advance]
  split
  · exact .accepted
  · dsimp only
    split
    · rename_i h
      obtain rfl:again=false:=by simpa using h.2
      exact .unknown
    · exact .rejected
 | done r=>exact .returned

def Fetches : Phase → Prop
 | .start .. | .fetch .. | .store .. | .finish ..=>True
 | _=>False

def Marked (v:Validator) : Prop := v.refreshInFlight=true

lemma Moves.acquires {m:Moment} {v v':Validator} {l l':Phase} (h:Moves cfg m v l v' l') (hl:¬Fetches l)
 (hl':Fetches l') : ¬Marked v ∧ Marked v' := by
 cases h with
 | chosen hfree=>exact ⟨by simp [Marked,hfree],rfl⟩
 | started | failed | fetched | stored=>exact absurd trivial hl
 | _=>exact hl'.elim

lemma Moves.keeps {m:Moment} {v v':Validator} {l l':Phase} (h:Moves cfg m v l v' l') (hv:Marked v)
 (hl:¬Fetches l ∨ Fetches l') : Marked v' := by
 cases h with
 | ended | finished=>exact (hl.elim (fun hl=>hl trivial) id).elim
 | chosen=>rfl
 | _=>exact hv

lemma advance_guards (jwt:Jwt) (cfg:OidcConfig) : Guards Marked Fetches (advance jwt cfg) where
 acquire m v l hl hl' := (advance_moves jwt cfg m v l).acquires hl hl'
 keep m v l _ hv hl':=(advance_moves jwt cfg m v l).keeps hv (.inr hl')
 respect m v l hl hv:=(advance_moves jwt cfg m v l).keeps hv (.inl hl)

lemma fresh_exclusive {s:System ι} (h:Fresh s) : Exclusive Marked Fetches s where
 marked i hi := by rw [h.idle i] at hi; exact hi.elim
 one i j hi:=by rw [h.idle i] at hi; exact hi.elim

/-- A fetch that has started: when, and whether for an unknown key id. -/
structure Start where
 time : ℤ
 floor : Bool
 deriving DecidableEq

def startOf (x:ι × Moment) (s:System ι) : Option Start :=
 match s.2 x.1 with
 | .start _ floor=>some ⟨x.2.steady,floor⟩
 | _=>none

def starts (jwt:Jwt) (cfg:OidcConfig) : List (ι × Moment) → System ι → List Start
 | [],_=>[]
 | x::xs,s=>(startOf x s).toList++starts jwt cfg xs (turn (advance jwt cfg) x s)

def Spaced (cfg:OidcConfig) (a b:Start) : Prop := b.floor=true → a.time+floorNs cfg ≤ b.time

/-- At this time, a call that is about to fetch for an unknown key id may start. -/
def MayStart (cfg:OidcConfig) (now:ℤ) (s:System ι) : Prop :=
 ∀ i token,s.2 i=.start token true → s.1.lastRefreshStarted+floorNs cfg ≤ now

lemma Moves.last_eq {m:Moment} {v v':Validator} {l l':Phase} (h:Moves cfg m v l v' l')
 (hl:∀ token floor,l≠.start token floor) : v'.lastRefreshStarted=v.lastRefreshStarted := by
 cases h with
 | started=>exact absurd rfl (hl _ _)
 | _=>rfl

lemma Moves.mayStart {m:Moment} {v v':Validator} {l:Phase} {token:Bytes}
 (h:Moves cfg m v l v' (.start token true)) : v'.lastRefreshStarted+floorNs cfg ≤ m.steady := by
 cases h with
 | chosen hfree hfloor=>exact hfloor rfl

lemma MayStart.turn {now:ℤ} {x:ι × Moment} {s:System ι} (h:MayStart cfg now s)
 (hs:Exclusive Marked Fetches s) (hnow:now≤x.2.steady) : MayStart cfg x.2.steady (turn (advance jwt cfg) x s) := by
 intro i token hi
 have hmove:=advance_moves jwt cfg x.2 s.1 (s.2 x.1)
 rw [turn_fst]
 by_cases hix:i=x.1
 · subst hix
   rw [turn_self] at hi
   rw [hi] at hmove
   exact hmove.mayStart
 · rw [turn_other hix] at hi
   have hother:¬Fetches (s.2 x.1):=fun hx=>hix (hs.one i x.1 (by rw [hi]; trivial) hx)
   rw [hmove.last_eq fun _ _ hx=>hother (by rw [hx]; trivial)]
   exact (h i token hi).trans hnow

lemma starts_spaced {xs:List (ι × Moment)} {s:System ι} {now:ℤ} {a:Start}
 (hs:Exclusive Marked Fetches s) (hmay:MayStart cfg now s) (ha:a.time=s.1.lastRefreshStarted)
 (hclock:(now::xs.map fun x=>x.2.steady).IsChain (·≤·)) : (a::starts jwt cfg xs s).IsChain (Spaced cfg) := by
 induction xs generalizing s now a with
 | nil=>exact .singleton a
 | cons x xs ih=>
  rw [List.map_cons,List.isChain_cons_cons] at hclock
  have hs':=(advance_guards jwt cfg).turn x hs
  have hmay':MayStart cfg x.2.steady (turn (advance jwt cfg) x s):=hmay.turn hs hclock.1
  rw [starts]
  by_cases hstart:∃ token floor,s.2 x.1=.start token floor
  · obtain ⟨token,floor,hphase⟩:=hstart
    have hof:startOf x s=some ⟨x.2.steady,floor⟩:=by rw [startOf,hphase]
    have hlast:(turn (advance jwt cfg) x s).1.lastRefreshStarted=x.2.steady:=by
     rw [turn_fst,hphase]
     rfl
    rw [hof,Option.toList_some,List.singleton_append,List.isChain_cons_cons]
    refine ⟨fun hfloor=>?_,ih hs' hmay' hlast.symm hclock.2⟩
    rw [ha]
    exact (hmay x.1 token (hfloor ▸ hphase)).trans hclock.1
  · have hof:startOf x s=none:=by
     unfold startOf
     split
     · exact absurd ⟨_,_,‹_›⟩ hstart
     · rfl
    rw [hof,Option.toList_none,List.nil_append]
    refine ih hs' hmay' (ha.trans ?_) hclock.2
    exact ((advance_moves jwt cfg x.2 s.1 (s.2 x.1)).last_eq fun token floor hx=>hstart ⟨token,floor,hx⟩).symm

/-- From a fresh validator, whatever the schedule: in every state at most one call fetches, and
along a clock that does not run back, every fetch for an unknown key id keeps the floor. -/
theorem single_flight_spaced {s:System ι} (hs:Fresh s) (xs:List (ι × Moment))
  (hclock:(s.1.lastRefreshStarted::xs.map fun x=>x.2.steady).IsChain (· ≤ ·)) :
  (∀ i j,Fetches ((run jwt cfg xs s).2 i) → Fetches ((run jwt cfg xs s).2 j) → i=j) ∧
  (⟨s.1.lastRefreshStarted,false⟩::starts jwt cfg xs s).IsChain (Spaced cfg) := by
 constructor
 · exact (after_preserves (fun x _ h=>(advance_guards jwt cfg).turn x h) xs (fresh_exclusive hs)).one
 · refine starts_spaced (fresh_exclusive hs) (fun i token hi=>?_) rfl hclock
   rw [hs.idle i] at hi
   cases hi

/-- A library that takes every token for one signed by the key `k`. -/
def exampleJwt : Jwt where
 decode _ := .ok ⟨some (ascii "k"),.ok (ascii "RS256"),true,[(ascii "oid",ascii "o"),(ascii "tid",ascii "t")]⟩
 verify _ _ _ _:=.ok none
 parseJwks _:=.ok [⟨some (ascii "k"),.ok (ascii "RSA"),none,[],[]⟩]
 publicKey _ _:=.ok []

def exampleOidc : OidcConfig := { issuer:=[],audience:=[] }

def exampleSystem (kid:String) : System Bool :=
 ({ jwksUri:=[],keys:=[(ascii kid,[])],fetchedAt:=0,expiresAt:=100*kSecond,lastRefreshStarted:=0
    refreshes:=1,refreshesSuppressed:=0,refreshesJoined:=0,refreshInFlight:=false
    refreshGeneration:=0 },fun _=>.idle)

lemma exampleSystem_fresh (kid:String) : Fresh (exampleSystem kid) := ⟨fun _=>rfl,rfl⟩

def turnsOf (i:Bool) (n:ℕ) (second:ℤ) (response:Except Status Fetched) : List (Bool × Moment) :=
 List.replicate n (i,⟨second*kSecond,second*kSecond,ascii "Bearer x",response⟩)

/-- An unknown key id starts a fetch at second 61. -/
theorem unknownKid_spaced :
  let xs := turnsOf false 5 61 (.ok ⟨[],[]⟩)
  starts exampleJwt exampleOidc xs (exampleSystem "old")=[⟨61*kSecond,true⟩] ∧
  (⟨0,false⟩::starts exampleJwt exampleOidc xs (exampleSystem "old")).IsChain (Spaced exampleOidc):=
 ⟨by decide +kernel,(single_flight_spaced (exampleSystem_fresh "old") _ (by decide +kernel)).2⟩

def checksExpiry : Phase → Bool
 | .check _=>true
 | _=>false

/-- The call's fetch has stored its keys; the mark is not released yet. -/
def hasStored : Phase → Bool
 | .finish _ _ (.ok ())=>true
 | _=>false

def hasFailed : Phase → Bool
 | .finish _ _ (.error _)=>true
 | _=>false

/-- The call found the keys expired and waits for the fetch of this generation. -/
def waitsFor (generation:UInt64) : Phase → Bool
 | .wait _ false g _=>g=generation
 | _=>false

def Stored (s:System ι) : Prop := ∃ i,hasStored (s.2 i)=true

/-- The end of a failed fetch wakes no call that found the keys expired, and no call finds the keys
expired that a fetch has just stored. -/
def Sound (x:ι × Moment) (s:System ι) : Prop :=
 (hasFailed (s.2 x.1)=true → ∀ i,waitsFor s.1.refreshGeneration (s.2 i)=false) ∧
 (checksExpiry (s.2 x.1)=true → s.1.expiresAt ≤ x.2.system → ∀ i,hasStored (s.2 i)=false)

instance [Fintype ι] (x:ι × Moment) (s:System ι) : Decidable (Sound x s) :=
 inferInstanceAs (Decidable (_ ∧ _))

/-- The call found the keys expired and has not passed the refresh; it has joined no fetch that has
ended or has stored its keys. -/
def Awaits (v:Validator) (stored:Prop) : Phase → Prop
 | .decide _ false=>¬stored
 | .wait _ false generation _=>v.refreshGeneration=generation ∧ ¬stored
 | .start _ false | .fetch _ false _ | .store _ false _ _ | .finish _ false (.error _) | .done (.error _)=>True
 | _=>False

lemma awaits_of_same {v v':Validator} {stored stored':Prop} {l:Phase} (h:Awaits v stored l) (hstored:stored' → stored)
 (hwait:∀ token polls,l=.wait token false v.refreshGeneration polls →
  v'.refreshGeneration=v.refreshGeneration ∨ stored) : Awaits v' stored' l := by
 cases l with
 | decide _ floor=>
  cases floor
  · exact fun hs=>h (hstored hs)
  · exact h
 | wait token floor generation polls=>
  cases floor
  · obtain ⟨rfl,hs⟩:=h
    exact ⟨(hwait _ _ rfl).resolve_right hs,fun hs'=>hs (hstored hs')⟩
  · exact h
 | start _ floor | fetch _ floor | store _ floor=>cases floor <;> exact h
 | finish _ floor status=>cases floor <;> cases status <;> exact h
 | done r=>cases r <;> exact h
 | idle | check | verify=>exact h

lemma Moves.effect {m:Moment} {v v':Validator} {l l':Phase} (h:Moves cfg m v l v' l') : v'.refreshes=v.refreshes+1 ∨
 v'.refreshes=v.refreshes ∧ hasStored l'=false ∧
  (v'.refreshGeneration=v.refreshGeneration ∨ hasStored l=true ∨ hasFailed l=true) := by
 cases h with
 | stored=>exact .inl rfl
 | ended=>exact .inr ⟨rfl,rfl,.inr (.inr rfl)⟩
 | finished=>exact .inr ⟨rfl,rfl,.inr (.inl rfl)⟩
 | _=>exact .inr ⟨rfl,rfl,.inl rfl⟩

lemma stored_of_turn {x:ι × Moment} {s:System ι}
 (hl:hasStored (advance jwt cfg x.2 s.1 (s.2 x.1)).2=false) (h:Stored (turn (advance jwt cfg) x s)) : Stored s := by
 obtain ⟨i,hi⟩:=h
 by_cases hix:i=x.1
 · subst hix
   rw [turn_self,hl] at hi
   cases hi
 · rw [turn_other hix] at hi
   exact ⟨i,hi⟩

lemma Moves.awaits {m:Moment} {v v':Validator} {l l':Phase} {stored stored':Prop}
 (h:Moves cfg m v l v' l') (hl:Awaits v stored l) (hstored:hasStored l'=false → stored' → stored) :
 v.refreshes<v'.refreshes ∨ Awaits v' stored' l' := by
 cases h with
 | stored=>exact .inl (Nat.lt_succ_self _)
 | @joined _ floor hflight=>
  cases floor
  · exact .inr ⟨rfl,fun hs=>hl (hstored rfl hs)⟩
  · exact hl.elim
 | @polled _ floor=>
  cases floor
  · exact .inr ⟨hl.1,fun hs=>hl.2 (hstored rfl hs)⟩
  · exact hl.elim
 | @woken _ floor generation polls hne=>
  cases floor
  · exact absurd hl.1 hne
  · exact hl.elim
 | @chosen _ floor | @started _ floor | @failed _ floor | @fetched _ floor=>
  cases floor
  · exact .inr trivial
  · exact hl.elim
 | @finished _ floor=>cases floor <;> exact hl.elim
 | @returned r=>
  cases r
  · exact .inr trivial
  · exact hl.elim
 | suppressed | ended | timedOut | rejected=>exact .inr trivial
 | refused | begun | expired | good | accepted | unknown=>exact hl.elim

/-- The call found the keys expired after `n` fetches: there have been more, or it still waits. -/
def Expecting (n:ℕ) (c:ι) (s:System ι) : Prop :=
 n<s.1.refreshes ∨ n=s.1.refreshes ∧ Awaits s.1 (Stored s) (s.2 c)

lemma Expecting.turn {n:ℕ} {c:ι} {x:ι × Moment} {s:System ι} (h:Expecting n c s) (hx:Sound x s) :
 Expecting n c (turn (advance jwt cfg) x s) := by
 have hmove:=advance_moves jwt cfg x.2 s.1 (s.2 x.1)
 unfold Expecting
 rw [turn_fst]
 rcases hmove.effect with hmore | ⟨hsame,hl',hend⟩
 · exact .inl (by rcases h with h | h <;> omega)
 · rw [hsame]
   refine h.imp_right fun ⟨hn,hc⟩=>⟨hn,?_⟩
   by_cases hcx:c=x.1
   · subst hcx
     rw [turn_self]
     exact (hmove.awaits hc stored_of_turn).resolve_left (by omega)
   · rw [turn_other hcx]
     refine awaits_of_same hc (stored_of_turn hl') fun token polls hwait=>?_
     rcases hend with hgeneration | hstored | hfailed
     · exact .inl hgeneration
     · exact .inr ⟨x.1,hstored⟩
     · have hno:=hx.1 hfailed c
       rw [hwait] at hno
       exact absurd rfl (of_decide_eq_false hno)

/-- A call that found the keys expired and returned a principal: in a run of such steps, keys have
been fetched in between. -/
theorem principal_after_refresh {s:System ι} {before later:List (ι × Moment)} {x:ι × Moment} {token:Bytes}
  {p:Principal} (hmeets:Meets (turn (advance jwt cfg)) Sound (before++x::later) s)
  (hcheck:(run jwt cfg before s).2 x.1=.check token)
  (hexpired:(run jwt cfg before s).1.expiresAt ≤ x.2.system)
  (hdone:(run jwt cfg (before++x::later) s).2 x.1=.done (.ok p)) :
  (run jwt cfg before s).1.refreshes<(run jwt cfg (before++x::later) s).1.refreshes := by
 obtain ⟨hx,hlater⟩:=((meets_append before (x::later) s).mp hmeets).2
 simp only [run,after_append] at hcheck hexpired hdone ⊢
 generalize after (turn (advance jwt cfg)) before s=s₁ at *
 have hnext:advance jwt cfg x.2 s₁.1 (s₁.2 x.1)=(s₁.1,.decide token false):=by
  rw [hcheck,advance,if_pos hexpired]
 have hfirst:Expecting s₁.1.refreshes x.1 (turn (advance jwt cfg) x s₁):=by
  refine .inr ⟨by rw [turn_fst,hnext],?_⟩
  rw [turn_self,turn_fst,hnext]
  intro h
  obtain ⟨i,hi⟩:=stored_of_turn (by rw [hnext]; rfl) h
  rw [hx.2 (by rw [hcheck]; rfl) hexpired i] at hi
  cases hi
 have hlast:Expecting s₁.1.refreshes x.1 (after (turn (advance jwt cfg)) (x::later) s₁):=
  after_invariant (fun y t ht hy=>Expecting.turn ht hy) later hfirst hlater
 refine hlast.resolve_right fun hwaits=>?_
 rw [hdone] at hwaits
 exact hwaits.2

def fetching (response:Except Status Fetched) : List (Bool × Moment) :=
 turnsOf true 1 100 response++turnsOf false 4 100 response

/-- The first call joins, the fetch ends within `n` turns, and the first call goes on. -/
def joining (response:Except Status Fetched) (n:ℕ) : List (Bool × Moment) :=
 turnsOf true 1 100 response++turnsOf false n 100 response++turnsOf true 2 100 response

def checking (response:Except Status Fetched) : Bool × Moment :=
 (true,⟨100*kSecond,100*kSecond,ascii "Bearer x",response⟩)

def examplePrincipal : Principal := ⟨[],ascii "o",ascii "t",[],[],ascii "k"⟩

theorem joined_refresh :
  let response : Except Status Fetched := .ok ⟨[],[]⟩
  let schedule:=fetching response++checking response::joining response 3
  (run exampleJwt exampleOidc schedule (exampleSystem "k")).2 true=.done (.ok examplePrincipal) ∧
  (run exampleJwt exampleOidc (fetching response) (exampleSystem "k")).1.refreshes <
   (run exampleJwt exampleOidc schedule (exampleSystem "k")).1.refreshes:=by
 intro response schedule
 have hdone:(run exampleJwt exampleOidc schedule (exampleSystem "k")).2 true=.done (.ok examplePrincipal):=by
  decide +kernel
 have hcheck:(run exampleJwt exampleOidc (fetching response) (exampleSystem "k")).2 true=.check (ascii "x"):=by
  decide +kernel
 exact ⟨hdone,principal_after_refresh (by decide +kernel) hcheck (by decide +kernel) hdone⟩

/-- The fetch that the call joined has failed, and the expired keys give the principal. -/
theorem joined_failure :
  let response : Except Status Fetched := .error (VfsModel.ioError "OIDC fetch failed")
  let schedule:=fetching response++checking response::joining response 2
  (run exampleJwt exampleOidc (fetching response) (exampleSystem "k")).2 true=.check (ascii "x") ∧
  (run exampleJwt exampleOidc (fetching response) (exampleSystem "k")).1.expiresAt ≤ (checking response).2.system ∧
  (run exampleJwt exampleOidc schedule (exampleSystem "k")).2 true=.done (.ok examplePrincipal) ∧
  (run exampleJwt exampleOidc schedule (exampleSystem "k")).1.refreshes =
   (run exampleJwt exampleOidc (fetching response) (exampleSystem "k")).1.refreshes:=by
 decide +kernel

end Archivum.KeyRefresh
