import Archivum.Interleaving
import Archivum.RecordModel

set_option autoImplicit false

/-!
# Local accounts

Accounts are created disabled, enabled for a bounded time and disabled when they
are used after it. A call is one transaction: the store may refuse it, or commit
it and lose the answer.
-/
namespace Archivum.Accounts
open ByteStrings StatefulActions PageTxn RecordModel Interleaving List Function

structure Account where
 id : ℤ
 username : Bytes
 kind : Bytes
 verifier : Bytes
 enabled : Bool
 createdAt : ℤ
 expiresAt : Option ℤ
 lastUsedAt : Option ℤ

/-- An account without its verifier; a time that is not set is 0. -/
structure LocalAccount where
 id : ℤ
 username : Bytes
 kind : Bytes
 enabled : Bool
 createdAt : ℤ
 expiresAt : ℤ
 lastUsedAt : ℤ

def Account.expires (a:Account) : ℤ := a.expiresAt.getD 0

def accountFromRow (a:Account) : LocalAccount :=
 ⟨a.id,a.username,a.kind,a.enabled,a.createdAt,a.expires,a.lastUsedAt.getD 0⟩

inductive Actor
 | console
 | account (username requestId:Bytes)

structure AuditRow where
 now : ℤ
 actor : Actor
 action : String
 target : ℤ
 detail : String := ""

/-- The rows of `local_accounts` by their unique index, and the greatest id given. -/
structure Db where
 findAccount : Bytes → Option Account := fun _=>none
 lastId : ℤ := 0
 audit : List AuditRow := []

/-- A row stored through the recorder, under one row of the audit log. -/
def Db.record (d:Db) (username:Bytes) (a:Account) (now:ℤ) (actor:Actor) (action:String) (detail:String := "") : Db :=
 ⟨update d.findAccount username (some a),max d.lastId a.id,d.audit++[⟨now,actor,action,a.id,detail⟩]⟩

/-- The password comes from the random source, its verifier from `make_verifier`. -/
def createAccount (username kind password:Bytes) (verifier:Except Status Bytes) (now:ℤ) (f:Fault Status) :
  Act Status Db (LocalAccount × Bytes) :=
 if username=[] then Act.fail (invalidArgument "username is empty")
 else transaction f fun d=>match d.findAccount username,verifier with
  | some _,_=>.error (alreadyExists ("account " ++ text username))
  | none,.error e=>.error e
  | none,.ok verifier=>
   let a:Account:=⟨d.lastId+1,username,kind,verifier,false,now,none,none⟩
   if kind∈["break_glass","device_admin"].map ascii then
    .ok (d.record username a now .console "account.create",.ok (accountFromRow a,password))
   else .error (constraint "check local_accounts_kind_known on local_accounts")

def enableAccount (username:Bytes) (expiresAt now:ℤ) (f:Fault Status) : Act Status Db Unit :=
 if expiresAt ≤ now then Act.fail (invalidArgument "expiry must be in the future")
 else transaction f fun d=>match d.findAccount username with
  | none=>.error (notFound ("account " ++ text username))
  | some a=>.ok (d.record username { a with enabled:=true,expiresAt:=some expiresAt } now .console "account.enable"
   ("expires_at=" ++ toString expiresAt),.ok ())

def disableAccount (username:Bytes) (now:ℤ) (f:Fault Status) : Act Status Db Unit :=
 transaction f fun d=>match d.findAccount username with
  | none=>.error (notFound ("account " ++ text username))
  | some a=>.ok (d.record username { a with enabled:=false } now .console "account.disable",.ok ())

variable (verifySecret:Bytes → Bytes → Bool)

def verifyAccount (username password requestId:Bytes) (now:ℤ) (f:Fault Status) : Act Status Db LocalAccount :=
 transaction f fun d=>match d.findAccount username with
  | none=>.error (notFound "unknown account")
  | some a=>
   if !a.enabled then .error (notFound "account disabled")
   else if a.expires≠0 ∧ a.expires ≤ now then
    .ok (d.record username { a with enabled:=false } now .console "account.expire",.error (notFound "account expired"))
   else if !verifySecret a.verifier password then .error (invalidArgument "wrong password")
   else
    let used:={ a with lastUsedAt:=some now }
    .ok (d.record username used now (.account username requestId) "account.use",.ok (accountFromRow used))

inductive Call
 | create (username kind password:Bytes) (verifier:Except Status Bytes) (now:ℤ)
 | enable (username:Bytes) (expiresAt now:ℤ)
 | disable (username:Bytes) (now:ℤ)
 | verify (username password requestId:Bytes) (now:ℤ)

/-- A call and what the store makes of it. -/
abbrev Event : Type := Call × Fault Status

def Call.username : Call → Bytes
 | .create username ..=>username
 | .enable username ..=>username
 | .disable username _=>username
 | .verify username ..=>username

def step (x:Event) (d:Db) : Db :=
 match x.1 with
 | .create username kind password verifier now=>(createAccount username kind password verifier now x.2 d).2
 | .enable username expiresAt now=>(enableAccount username expiresAt now x.2 d).2
 | .disable username now=>(disableAccount username now x.2 d).2
 | .verify username password requestId now=>(verifyAccount verifySecret username password requestId now x.2 d).2

/-! ### What one call changes -/

variable {d:Db} {x:Event} {username:Bytes}

/-- The call leaves an enabled account of this name and expiry enabled. -/
def Keeps (username:Bytes) (expires:ℤ) (x:Event) : Prop := x.2.Refuses ∨ match x.1 with
 | .create ..=>True
 | .enable name expiresAt now=>name=username → expiresAt ≤ now
 | .disable name _=>name≠username
 | .verify name _ _ now=>name=username → expires=0 ∨ now<expires

def Enables (username:Bytes) (expires:ℤ) (x:Event) : Prop :=
 ∃ now,x.1=.enable username expires now ∧ ¬x.2.Refuses ∧ now<expires

/-- What a call may store: an account anew, or the one of that name with other settings. -/
inductive Stores (d:Db) (x:Event) (a:Account) : Prop
 | anew (hoff:a.enabled=false) (hcall:∃ kind password now,x.1=.create x.1.username kind password (.ok a.verifier) now)
 | again {old:Account} (hold:d.findAccount x.1.username=some old) (hverifier:a.verifier=old.verifier)
  (henabled:a.enabled → (old.enabled ∧ a.expires=old.expires ∧ Keeps x.1.username a.expires x) ∨
   Enables x.1.username a.expires x)

/-- A call stores one account under one new row of the log, or nothing, and then the enabled ones stay. -/
def Steps (d:Db) (x:Event) (d':Db) : Prop :=
 (d'=d ∧ ∀ a,d.findAccount x.1.username=some a → a.enabled → Keeps x.1.username a.expires x) ∨
  ∃ a now actor action detail,d'=d.record x.1.username a now actor action detail ∧ Stores d x a

lemma keeps_other (h:x.1.username≠username) (expires:ℤ) : Keeps username expires x := by
 obtain ⟨call,f⟩:=x
 cases call with
 | create=>exact .inr trivial
 | enable name=>exact .inr fun e=>absurd e h
 | disable name=>exact .inr h
 | verify name=>exact .inr fun e=>absurd e h

lemma transaction_steps {α:Type} {body:Db → Except Status (Db × Except Status α)}
 (hleft:∀ e,body d=.error e → ∀ a,d.findAccount x.1.username=some a → a.enabled → Keeps x.1.username a.expires x)
 (hstored:∀ d' answer,¬x.2.Refuses → body d=.ok (d',answer) → Steps d x d') : Steps d x (transaction x.2 body d).2 := by
 obtain ⟨e,hrun,hf | hbody⟩ | ⟨d',answer,hf,hbody,hrun | ⟨e,hrun⟩⟩:=transaction_cases x.2 body d
 all_goals rw [hrun]
 · exact .inl ⟨rfl,fun _ _ _=>.inl hf⟩
 · exact .inl ⟨rfl,hleft e hbody⟩
 · exact hstored d' answer hf hbody
 · exact hstored d' answer hf hbody

lemma step_steps (x:Event) (d:Db) : Steps d x (step verifySecret x d) := by
 obtain ⟨call,f⟩:=x
 cases call with
 | create name kind password verifier now=>
  change Steps d _ (createAccount name kind password verifier now f d).2
  unfold createAccount
  by_cases hempty:name=[]
  · rw [if_pos hempty]
    exact .inl ⟨rfl,fun _ _ _=>.inr trivial⟩
  rw [if_neg hempty]
  refine transaction_steps (x:=(_,f)) (fun _ _ _ _ _=>.inr trivial) fun d' answer _ hbody=>?_
  split at hbody
  · cases hbody
  · cases hbody
  · dsimp only at hbody
    split_ifs at hbody
    cases hbody
    exact .inr ⟨_,_,_,_,_,rfl,.anew rfl ⟨kind,password,now,rfl⟩⟩
 | enable name expiresAt now=>
  change Steps d _ (enableAccount name expiresAt now f d).2
  unfold enableAccount
  split_ifs with hpast
  · exact .inl ⟨rfl,fun _ _ _=>.inr fun _=>hpast⟩
  refine transaction_steps (x:=(.enable name expiresAt now,f)) (fun e hbody a (ha:d.findAccount name=some a) _=>?_) fun d' answer hf hbody=>?_
  · rw [ha] at hbody
    cases hbody
  · split at hbody
    · cases hbody
    · next ha=>
      cases hbody
      exact .inr ⟨_,_,_,_,_,rfl,.again ha rfl fun _=>.inr ⟨now,rfl,hf,not_le.mp hpast⟩⟩
 | disable name now=>
  refine transaction_steps (x:=(.disable name now,f)) (fun e hbody a (ha:d.findAccount name=some a) _=>?_) fun d' answer hf hbody=>?_
  · rw [ha] at hbody
    cases hbody
  · split at hbody
    · cases hbody
    · next ha=>
      cases hbody
      exact .inr ⟨_,_,_,_,_,rfl,.again ha rfl (by simp)⟩
 | verify name password requestId now=>
  have hopen:∀ {a:Account},¬(a.expires≠0 ∧ a.expires≤now) →
    Keeps name a.expires (.verify name password requestId now,f):=fun h=>
   .inr fun _=>by change _=0 ∨ now<_; omega
  refine transaction_steps (x:=(.verify name password requestId now,f)) (fun e hbody a (ha:d.findAccount name=some a) hon=>?_)
   fun d' answer hf hbody=>?_
  · -- an enabled account is left as it is only before its expiry
    simp only [ha,hon] at hbody
    split_ifs at hbody with hoff hlate
    · cases hoff
    · exact hopen hlate
  · split at hbody
    · cases hbody
    · next ha=>
      split_ifs at hbody with hoff hlate
      · cases hbody
        exact .inr ⟨_,_,_,_,_,rfl,.again ha rfl (by simp)⟩
      · cases hbody
        exact .inr ⟨_,_,_,_,_,rfl,.again ha rfl fun hon=>.inl ⟨hon,rfl,hopen hlate⟩⟩

/-! ### What a history leaves -/

/-- A call that enabled the name up to this time, and none since that ended it. -/
def Granted (history:List Event) (username:Bytes) (expires:ℤ) : Prop :=
 ∃ before x since,history=before++x::since ∧ Enables username expires x ∧ ∀ y∈since,Keeps username expires y

structure Explained (history:List Event) (username:Bytes) (a:Account) : Prop where
 created : ∃ x∈history,∃ kind password now,x.1=.create username kind password (.ok a.verifier) now
 granted : a.enabled → Granted history username a.expires

variable {history:List Event}

lemma Granted.keeps {expires:ℤ} (h:Granted history username expires) (hx:Keeps username expires x) :
 Granted (history++[x]) username expires := by
 obtain ⟨before,y,since,rfl,hy,hsince⟩:=h
 refine ⟨before,y,since++[x],by simp,hy,fun z hz=>?_⟩
 rcases mem_append.mp hz with hz | hz
 · exact hsince z hz
 · rwa [mem_singleton.mp hz]

lemma Explained.keeps {a:Account} (h:Explained history username a) (hx:a.enabled → Keeps username a.expires x) :
 Explained (history++[x]) username a :=
 ⟨h.created.imp fun _ hy=>⟨mem_append_left _ hy.1,hy.2⟩,fun hon=>(h.granted hon).keeps (hx hon)⟩

lemma explained (history:List Event) (username:Bytes) (a:Account)
 (ha:(after (step verifySecret) history {}).findAccount username=some a) : Explained history username a := by
 induction history using reverseRecOn generalizing username a with
 | nil=>cases ha
 | append_singleton history x ih=>
  rw [after_append] at ha
  rcases step_steps verifySecret x (after (step verifySecret) history {}) with
   ⟨hsame,hkeeps⟩ | ⟨b,now,actor,action,detail,hstep,hstores⟩
  · change (step verifySecret x _).findAccount username=some a at ha
    rw [hsame] at ha
    refine (ih username a ha).keeps fun hon=>?_
    by_cases hname:x.1.username=username
    · subst hname
      exact hkeeps a ha hon
    · exact keeps_other hname _
  · change (step verifySecret x _).findAccount username=some a at ha
    rw [hstep] at ha
    by_cases hname:x.1.username=username
    · subst hname
      obtain rfl:b=a:=by simpa [Db.record] using ha
      cases hstores with
      | anew hoff hcall=>exact ⟨⟨x,by simp,hcall⟩,fun hon=>absurd hon (by simp [hoff])⟩
      | again hold hverifier henabled=>
       have hbefore:=ih _ _ hold
       refine ⟨?_,fun hon=>?_⟩
       · obtain ⟨y,hy,hcreate⟩:=hbefore.created
         exact ⟨y,mem_append_left _ hy,hverifier ▸ hcreate⟩
       · rcases henabled hon with ⟨holdon,hexpires,hx⟩ | hx
         · exact Granted.keeps (hexpires ▸ hbefore.granted holdon) hx
         · exact ⟨history,x,[],rfl,hx,fun y hy=>by cases hy⟩
    · have hother:(after (step verifySecret) history {}).findAccount username=some a:=by
       simpa [Db.record,update_of_ne (Ne.symm hname)] using ha
      exact (ih username a hother).keeps fun _=>keeps_other hname _

lemma audit_grows (later:List Event) {row:AuditRow} (h:row∈d.audit) : row∈(after (step verifySecret) later d).audit := by
 refine after_preserves (I:=fun d:Db=>row∈d.audit) (fun x d h=>?_) later h
 rcases step_steps verifySecret x d with ⟨hsame,-⟩ | ⟨a,now,actor,action,detail,hstep,-⟩
 · rwa [hsame]
 · rw [hstep]
   exact mem_append_left _ h

/-- One account, enabled from 2 up to 100. -/
def breakGlass : List Event :=
 [(.create [103] (ascii "break_glass") [112] (.ok [112]) 1,.none),(.enable [103] 100 2,.none)]

end Archivum.Accounts
