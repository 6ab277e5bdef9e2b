import Archivum.TreeRuns

set_option autoImplicit false

/-!
# Values in overflow chains

A value goes to a chain of pages and comes back, and the chain can be freed
again. On any pages at all the reader stops within its hop limit.
-/
namespace Archivum.TreeShape
open ByteStrings StatefulActions PageTxn BTreeModel List

/-- The loop of `read_overflow` on the pages of `σ`, with the number of pages it reads. -/
def countedOverflow (b:BTree) (σ:WriteTxn) : ℕ → ℕ → ℕ → Bytes → Except Status Bytes × ℕ
 | 0,page,remaining,out=>
  (if remaining=0 then .ok out
   else .error (corrupt (if page=0 then "overflow chain ends early" else "overflow chain too long")),0)
 | hops+1,page,remaining,out=>
  if remaining=0 then (.ok out,0)
  else if page=0 then (.error (corrupt "overflow chain ends early"),0)
  else match readPage page σ with
   | (.error e,_)=>(.error e,1)
   | (.ok buf,_)=>
    let len := min b.overflowCap remaining
    let r:=countedOverflow b σ hops (getU64 buf 0) (remaining-len) (out++slice buf kOverflowHdr len)
    (r.1,r.2+1)

section Reading
variable {b:BTree} {σ:WriteTxn}

lemma readPage_state (page:ℕ) (σ:WriteTxn) : (readPage page σ).2=σ := by
 rw [readPage]
 split
 · rfl
 · split
   · rfl
   · split
     · rfl
     · split <;> rfl

lemma readOverflowLoop_counted (hops page remaining:ℕ) (out:Bytes) :
 b.readOverflowLoop hops page remaining out σ=((countedOverflow b σ hops page remaining out).1,σ) ∧
  (countedOverflow b σ hops page remaining out).2≤hops := by
 induction hops generalizing page remaining out with
 | zero=>
  rw [BTree.readOverflowLoop,countedOverflow]
  refine ⟨?_,le_rfl⟩
  split_ifs <;> rfl
 | succ hops ih=>
  rw [BTree.readOverflowLoop,countedOverflow]
  split_ifs with h1 h2
  · exact ⟨rfl,Nat.zero_le _⟩
  · exact ⟨rfl,Nat.zero_le _⟩
  · have hstate:=readPage_state page σ
    rcases hread:readPage page σ with ⟨r,τ⟩
    rw [hread] at hstate
    obtain rfl:τ=σ:=hstate
    cases r with
    | error e=>exact ⟨Act.bind_of_error _ hread,Nat.succ_le_succ (Nat.zero_le _)⟩
    | ok buf=>
     obtain ⟨hrun,hle⟩:=ih (getU64 buf 0) (remaining-min b.overflowCap remaining)
      (out++slice buf kOverflowHdr (min b.overflowCap remaining))
     exact ⟨(Act.bind_of_ok _ hread).trans hrun,Nat.succ_le_succ hle⟩

lemma readOverflowLoop_length (hpages:∀ p buf,(readPage p σ).1=.ok buf → buf.length=b.pageSize)
 (hops page remaining:ℕ) {out out':Bytes}
 (h:(b.readOverflowLoop hops page remaining out σ).1=.ok out') : out'.length=out.length+remaining := by
 induction hops generalizing page remaining out with
 | zero=>
  rw [BTree.readOverflowLoop] at h
  split_ifs at h with h1 h2
  · cases h
    rw [h1]
    rfl
  · cases h
  · cases h
 | succ hops ih=>
  rw [BTree.readOverflowLoop] at h
  split_ifs at h with h1 h2
  · cases h
    rw [h1]
    rfl
  · cases h
  · have hstate:=readPage_state page σ
    rcases hread:readPage page σ with ⟨r,τ⟩
    rw [hread] at hstate
    obtain rfl:τ=σ:=hstate
    cases r with
    | error e=>
     rw [Act.bind_of_error _ hread] at h
     cases h
    | ok buf=>
     rw [Act.bind_of_ok _ hread] at h
     have hbuf:=hpages page buf (by rw [hread])
     have hlen:=ih _ _ h
     simp only [length_append,slice,length_take,length_drop,hbuf,BTree.overflowCap,kOverflowHdr,kPageTrailerBytes] at hlen
     omega

end Reading

theorem overflow_roundtrip {ps:ℕ} {σ:WriteTxn} {own free:List ℕ} {b:BTree} {value:Bytes}
  (hb:b.pageSize=ps) (h:Pages ps σ own free) (hv:value.length<2^32)
  (hroom:σ.header.pageCount+(value.length+b.overflowCap-1)/b.overflowCap<2^64) :
  (∃ pages σ₁ free₁ σ₂ free₂,b.writeOverflow value σ=(.ok (pages.headD 0),σ₁) ∧
   Pages ps σ₁ (pages++own) free₁ ∧
   b.readOverflow (pages.headD 0) value.length σ₁=(.ok value,σ₁) ∧
   BTree.freeOverflow (pages.headD 0) σ₁=(.ok (),σ₂) ∧ Pages ps σ₂ own free₂ ∧
   ∀ p,p∈free₂ ↔ p∈pages ∨ p∈free₁) ∧
  ∀ (τ:WriteTxn) (first total:ℕ),(∀ p buf,(readPage p τ).1=.ok buf → buf.length=b.pageSize) →
   ∃ r reads,countedOverflow b τ (total/b.overflowCap+2) first total []=(r,reads) ∧
    b.readOverflow first total τ=(r,τ) ∧ reads ≤ total/b.overflowCap+2 ∧
    ∀ out,r=.ok out → out.length=total := by
 constructor
 · have hmin:=h.size_min
   have hcap:b.overflowCap=chunkBytes ps:=by rw [BTree.overflowCap,hb,chunkBytes]
   have hheld:Holding ps σ [] own free:=⟨h,fun x hx=>absurd hx not_mem_nil⟩
   obtain ⟨pages,τ,free₁,halloc,hlen,hτ,-,-⟩:=allocatePages_run _ hheld hroom
   rw [hcap] at hlen
   obtain ⟨σ₁,hwrite,hσ₁,hchain,-,-⟩:=writeChunks_run hb pages value hτ hlen
   have hdiv:=hchain.length_le_div hmin
   obtain ⟨σ₂,free₂,hfree,hσ₂,-,hcount⟩:=freeOverflowLoop_run (2^24) pages value hσ₁ hchain (by
    have h512:512 ≤ ps:=hmin
    have h500:500 ≤ chunkBytes ps:=by
     simp only [chunkBytes,kPageTrailerBytes,kOverflowHdr]
     omega
    have:=Nat.div_le_div_left h500 (by decide) (a:=value.length)
    omega)
   have hpages₁:Pages ps σ₁ (pages++own) free₁:=hσ₁.pages
   have hpages₂:Pages ps σ₂ own free₂:=hσ₂.pages
   refine ⟨pages,σ₁,free₁,σ₂,free₂,?_,hpages₁,?_,hfree,hpages₂,fun p=>?_⟩
   · rw [BTree.writeOverflow,Act.bind_of_ok _ halloc,Act.bind_of_ok _ hwrite]
     rfl
   · rw [BTree.readOverflow,hcap]
     refine (readOverflowLoop_run hb hpages₁ pages value [] _ (by omega) ?_ hchain).trans ?_
     · exact fun p hp=>mem_append_left _ hp
     · rw [nil_append]
   · have h1:=hpages₁.mem_iff p
     have h2:=hpages₂.mem_iff p
     have hnew:p∈pages → p ∉ own:=fun hp ho=>
      (nodup_append.mp hpages₁.own_nodup).2.2 p hp p ho rfl
     have hold:p∈own → p ∉ free₁:=fun ho=>hpages₁.not_free (mem_append_right _ ho)
     have hown:p∈own → p ∉ free₂:=fun ho=>hpages₂.not_free ho
     rw [hcount] at h2
     rw [mem_append] at h1
     tauto
 · intro τ first total hpages
   obtain ⟨hrun,hle⟩:=readOverflowLoop_counted (b:=b) (σ:=τ) (total/b.overflowCap+2) first total []
   refine ⟨_,_,rfl,hrun,hle,fun out hout=>?_⟩
   have hlen:=readOverflowLoop_length hpages _ first total ((congrArg Prod.fst hrun).trans hout)
   rwa [length_nil,Nat.zero_add] at hlen

/-- Two full pages. -/
theorem overflow_roundtrip_full : ∃ first σ,
  BTree.writeOverflow ⟨1,512⟩ (replicate 1000 7) (Runs.freshTxn 512)=(.ok first,σ) ∧
   BTree.readOverflow ⟨1,512⟩ first 1000 σ=(.ok (replicate 1000 7),σ) := by
 have hlen:(replicate 1000 (7:UInt8)).length=1000:=length_replicate
 have hlt:(replicate 1000 (7:UInt8)).length<2^32:=by
  rw [hlen]
  decide
 obtain ⟨⟨pages,σ,free₁,σ₂,free₂,hwrite,-,hread,-⟩,-⟩:=overflow_roundtrip (b:=⟨1,512⟩) rfl
  (Runs.freshTxn_pages (by decide) (by decide)) hlt (by rw [hlen]; decide)
 rw [hlen] at hread
 exact ⟨_,σ,hwrite,hread⟩

end Archivum.TreeShape
