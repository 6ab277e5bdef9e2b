import Archivum.ActionRules
import Archivum.PageFormat

set_option autoImplicit false

/-!
# The free list over whole histories

Transactions allocate, write and free pages and commit or roll back. The pages
that callers freed and nobody allocated since are the free list of every
committed state, in the order in which they will be handed out.
-/
namespace Archivum.FreeListRuns
open ByteStrings StatefulActions PageTxn List

/-- The committed database, the pages its callers hold and the pages they freed. -/
structure Database where
 pageSize : ℕ
 pages : ℕ → Bytes
 header : DbHeader
 allocated : List ℕ
 freed : List ℕ

/-- A write transaction with the two lists as they are inside it. -/
structure Caller where
 txn : WriteTxn
 allocated : List ℕ
 freed : List ℕ

inductive Call
 | allocate
 | write (page:ℕ) (data:Bytes)
 | free (page:ℕ)

def Call.run (call:Call) (c:Caller) : Caller :=
 match call with
 | .allocate=>
  match allocatePage c.txn with
  | (.ok p,t)=>⟨t,p::c.allocated,c.freed.erase p⟩
  | (.error _,t)=>{ c with txn:=t }
 | .write p data=>{ c with txn:=(writePage p data c.txn).2 }
 | .free p=>
  match freePage p c.txn with
  | (.ok _,t)=>⟨t,c.allocated.erase p,p::c.freed⟩
  | (.error _,t)=>{ c with txn:=t }

/-- Callers write and free only what they hold; no file has 2^64 pages. -/
def Call.Fair (call:Call) (c:Caller) : Prop :=
 match call with
 | .allocate=>c.txn.header.pageCount+1<2^64
 | .write p _=>p∈c.allocated
 | .free p=>p∈c.allocated

instance (call:Call) (c:Caller) : Decidable (call.Fair c) := by
 unfold Call.Fair
 cases call <;> infer_instance

namespace Database

/-- A new database: page 0 is its header. -/
def created (pageSize:ℕ) (page0:Bytes) : Database := ⟨pageSize,fun _=>page0,{},[],[]⟩

def beginWrite (db:Database) : Caller :=
 ⟨⟨db.pageSize,db.pages,db.header,db.header,fun _=>none,[],false⟩,db.allocated,db.freed⟩

/-- The dirty pages are sealed and published with the header. -/
def commit (db:Database) (c:Caller) : Database :=
 ⟨db.pageSize,fun p=>((c.txn.dirty p).map PageFormat.sealPage).getD (db.pages p),c.txn.header,
  c.allocated,c.freed⟩

end Database

/-- What a transaction calls; it rolls back unless it commits. -/
structure Transaction where
 calls : List Call
 commits : Bool

def Transaction.run (x:Transaction) (db:Database) : Database :=
 if x.commits then db.commit (after Call.run x.calls db.beginWrite) else db

def Transaction.Fair (x:Transaction) (db:Database) : Prop := Meets Call.run Call.Fair x.calls db.beginWrite

instance (x:Transaction) (db:Database) : Decidable (x.Fair db) :=
 inferInstanceAs (Decidable (Meets _ _ _ _))

/-- The transaction reads what the database has committed, and every page is held or free. -/
structure Held (ps:ℕ) (db:Database) (c:Caller) : Prop where
 committed : c.txn.committed=db.pages
 pages : Pages ps c.txn c.allocated c.freed

lemma writePage_wrong_size {ps:ℕ} {t:WriteTxn} {own free:List ℕ} (h:Pages ps t own free) {p:ℕ}
 (hp:p∈own) {d:Bytes} (hd:d.length≠ps) : (writePage p d t).2=t := by
 have hlt:=h.own_lt hp
 have hpos:=h.own_pos hp
 rw [writePage,if_neg (by simp [h.open_]),if_neg (by omega),if_neg (by omega),if_pos (by rwa [h.size_eq])]

lemma Call.run_held {ps:ℕ} {db:Database} (call:Call) (c:Caller) (h:Held ps db c) (hf:call.Fair c) :
 Held ps db (call.run c) := by
 cases call with
 | allocate=>
  obtain ⟨p,t,hrun,hcommitted,hpages,-⟩:=h.pages.allocatePage_run hf
  rw [Call.run,hrun]
  exact ⟨hcommitted.trans h.committed,hpages⟩
 | write p d=>
  rw [Call.run]
  by_cases hd:d.length=ps
  · rw [h.pages.writePage_run hf hd]
    exact ⟨h.committed,h.pages.setDirty hf hd⟩
  · rw [writePage_wrong_size h.pages hf hd]
    exact h
 | free p=>
  have hpages:=h.pages.reorder (perm_cons_erase hf).symm
  rw [Call.run,hpages.freePage_run]
  exact ⟨h.committed,hpages.pushFree⟩

lemma decode_sealPage {page:Bytes} (h:20≤page.length) :
 FreePage.decode (PageFormat.sealPage page)=FreePage.decode page := by
 have hs:∀ o l,o+l≤16 → slice (PageFormat.sealPage page) o l=slice page o l:=fun o l hol=>
  PageFormat.slice_sealPage page o l (by simp only [kPageTrailerBytes]; omega)
 rw [FreePage.decode,FreePage.decode,PageFormat.sealPage_length,getU64,getU64,getLE,getLE,hs 0 8 (by decide),
  hs 8 8 (by decide)]

lemma Held.commit {ps:ℕ} {db:Database} {c:Caller} (h:Held ps db c) (hsize:db.pageSize=ps) :
 Held ps (db.commit c) (db.commit c).beginWrite := by
 have hpage:∀ p,(db.commit c).beginWrite.txn.page p = ((c.txn.dirty p).map PageFormat.sealPage).getD (db.pages p):=fun _=>rfl
 have hmin:512≤ps:=h.pages.size_min
 have hlen:∀ p<c.txn.header.pageCount,((db.commit c).beginWrite.txn.page p).length=ps ∧
   FreePage.decode ((db.commit c).beginWrite.txn.page p)=FreePage.decode (c.txn.page p):=by
  intro p hp
  have himage:=h.pages.images p hp
  rw [hpage]
  rw [WriteTxn.page,h.committed] at himage ⊢
  cases hd:c.txn.dirty p with
  | none=>
   rw [hd] at himage
   exact ⟨himage,rfl⟩
  | some d=>
   rw [hd] at himage
   exact ⟨(PageFormat.sealPage_length d).trans himage,decode_sealPage (by
    rw [show d.length=ps from himage]
    omega)⟩
 refine ⟨rfl,rfl,hsize,h.pages.size_min,h.pages.size_max,fun p hp hs=>absurd hp (Nat.not_lt.mpr hs),
  fun p hp=>(hlen p hp).1,h.pages.count_pos,h.pages.count_lt,h.pages.perm,?_,h.pages.free_count,
  fun _ hp=>absurd hp not_mem_nil⟩
 exact h.pages.chain.of_decode fun p hp=>(hlen p ((h.pages.mem_iff p).mp (Or.inr hp)).2).2

/-- What every transaction leaves. -/
structure Settled (ps:ℕ) (db:Database) : Prop where
 size : db.pageSize=ps
 held : Held ps db db.beginWrite

lemma Transaction.run_settled {ps:ℕ} (x:Transaction) (db:Database) (h:Settled ps db) (hf:x.Fair db) :
 Settled ps (x.run db) := by
 rw [Transaction.run]
 split
 · exact ⟨h.size,(after_invariant Call.run_held x.calls h.held hf).commit h.size⟩
 · exact h

lemma created_settled {ps:ℕ} (hmin:kMinPageSize≤ps) (hmax:ps≤kMaxPageSize) {page0:Bytes}
 (h0:page0.length=ps) : Settled ps (Database.created ps page0) :=
 ⟨rfl,rfl,rfl,rfl,hmin,hmax,fun _ hp hs=>absurd hp (Nat.not_lt.mpr hs),fun _ _=>h0,Nat.one_pos,
  Nat.one_lt_two_pow (by decide),List.Perm.refl _,rfl,rfl,fun _ hp=>absurd hp not_mem_nil⟩

/-- The states that transactions lead to from a new database with pages of `ps` bytes. -/
def Reached (ps:ℕ) (db:Database) : Prop :=
 ∃ page0 xs,page0.length=ps ∧ Meets Transaction.run Transaction.Fair xs (Database.created ps page0) ∧
  db=after Transaction.run xs (Database.created ps page0)

/-- A transaction on `db` in progress. -/
def InProgress (db:Database) (c:Caller) : Prop :=
 ∃ calls,Meets Call.run Call.Fair calls db.beginWrite ∧ c=after Call.run calls db.beginWrite

lemma Reached.settled {ps:ℕ} (hmin:kMinPageSize≤ps) (hmax:ps≤kMaxPageSize) {db:Database}
 (h:Reached ps db) : Settled ps db := by
 obtain ⟨page0,xs,h0,hxs,rfl⟩:=h
 exact after_invariant Transaction.run_settled xs (created_settled hmin hmax h0) hxs

theorem freeList_exact {ps:ℕ} (hmin:kMinPageSize ≤ ps) (hmax:ps ≤ kMaxPageSize) {db:Database}
  (h:Reached ps db) :
  FreeChain db.beginWrite.txn db.header.freelistHead db.freed ∧ db.freed.Nodup ∧
   db.freed.length=db.header.freelistCount ∧ (∀ p∈db.freed,p<db.header.pageCount) ∧
   ∀ c,InProgress db c → Call.allocate.Fair c → ∃ p t,allocatePage c.txn=(.ok p,t) ∧ p≠0 ∧ p ∉ c.allocated := by
 have hsettled:=h.settled hmin hmax
 have hpages:=hsettled.held.pages
 refine ⟨hpages.chain,(nodup_append.mp hpages.nodup).2.1,hpages.free_count.symm,
  fun p hp=>((hpages.mem_iff p).mp (Or.inr hp)).2,?_⟩
 rintro c ⟨calls,hcalls,rfl⟩ hroom
 have hheld:=after_invariant Call.run_held calls hsettled.held hcalls
 obtain ⟨p,t,hrun,-,hafter,-⟩:=hheld.pages.allocatePage_run hroom
 exact ⟨p,t,hrun,Nat.ne_of_gt (hafter.own_pos mem_cons_self),(nodup_cons.mp hafter.own_nodup).1⟩

/-- Pages freed and allocated again in one transaction, and one rolled back. -/
def exampleHistory : List Transaction :=
 [⟨[.allocate,.allocate,.allocate,.free 2,.free 1,.allocate],true⟩,⟨[.allocate,.free 3],false⟩,⟨[.free 3],true⟩]

def exampleDatabase : Database := after Transaction.run exampleHistory (Database.created 512 (replicate 512 0))

lemma exampleDatabase_reached : Reached 512 exampleDatabase :=
 ⟨replicate 512 0,exampleHistory,length_replicate,by decide +kernel,rfl⟩

theorem freeList_exact_example : exampleDatabase.freed=[3,2] ∧
  exampleDatabase.freed.length=exampleDatabase.header.freelistCount :=
 ⟨by decide +kernel,(freeList_exact (by decide) (by decide) exampleDatabase_reached).2.2.1⟩

end Archivum.FreeListRuns
