import Archivum.DbModel
import Archivum.PagedFiles

set_option autoImplicit false

/-!
# Lines of history

What a database is for, apart from files and logs: a line of commits, each of
which replaces some pages and the header, and the pages as of every commit. A
commit follows the one before it as a write transaction makes it: the counter
goes up by one, the page count never goes down, and every page it adds is among
the pages it writes.
-/
namespace Archivum.Histories
open ByteStrings PageTxn PageFormat Overlays PagedFiles List

structure Commit where
 /-- The sealed images of the dirty pages. -/
 dirty : List (ℕ × Bytes)
 header : PageFormat.DbHeader

def Commit.images (c:Commit) : List (ℕ × Bytes) := c.dirty++[(0,c.header.page0)]

/-- The commit is one a write transaction makes after a commit with header `prev`. -/
structure Commit.Follows (prev:PageFormat.DbHeader) (c:Commit) : Prop where
 fits : c.header.Fits
 pageSize : c.header.pageSize=prev.pageSize
 dbId : c.header.dbId=prev.dbId
 counter : c.header.changeCounter=prev.changeCounter+1
 grows : prev.pageCount ≤ c.header.pageCount
 dirty_pos : ∀ x∈c.dirty,0<x.1
 dirty_lt : ∀ x∈c.dirty,x.1<c.header.pageCount
 dirty_length : ∀ x∈c.dirty,x.2.length=prev.pageSize
 dirty_ok : ∀ x∈c.dirty,pageChecksumOk x.2=true
 fresh : ∀ p,prev.pageCount ≤ p → p<c.header.pageCount → p∈c.dirty.map Prod.fst

/-- The header after the first `n` commits. -/
def headerAfter (root:PageFormat.DbHeader) (commits:List Commit) (n:ℕ) : PageFormat.DbHeader :=
 (((commits.take n).getLast?).map Commit.header).getD root

/-- A linear history: a database as it was created, and its commits. -/
structure Line where
 root : PageFormat.DbHeader
 commits : List Commit
 root_fits : root.Fits
 root_count : root.pageCount=1
 root_counter : root.changeCounter=0
 follows : ∀ (n:ℕ) (c:Commit),commits[n]? = some c → c.Follows (headerAfter root commits n)

namespace Line

variable (H:Line)

def pageSize : ℕ := H.root.pageSize

def last : ℕ := H.commits.length

/-- The header as of commit `n`. -/
def headerAt (n:ℕ) : PageFormat.DbHeader := headerAfter H.root H.commits n

/-- The number of pages as of commit `n`. -/
def count (n:ℕ) : ℕ := (H.headerAt n).pageCount

/-- The commits after `b` up to `n`. -/
def between (b n:ℕ) : List Commit := (H.commits.take n).drop b

def imagesOf (cs:List Commit) : List (ℕ × Bytes) := cs.flatMap Commit.images

def created (p:ℕ) : Bytes := if p=0 then H.root.page0 else []

/-- The pages as of commit `n`. -/
def pages (n:ℕ) : ℕ → Bytes := overlay (imagesOf (H.commits.take n)) H.created

/-- A database file that holds the committed state at `n`. -/
def image (n:ℕ) : Bytes := (range (H.count n)).flatMap (H.pages n)

variable {H}

lemma headerAt_zero : H.headerAt 0=H.root := rfl

lemma headerAt_succ {n:ℕ} {c:Commit} (h:H.commits[n]? = some c) : H.headerAt (n+1)=c.header := by
 rw [headerAt,headerAfter,take_add_one,h]
 simp

lemma commit_exists {n:ℕ} (h:n<H.last) : ∃ c,H.commits[n]? = some c :=
 ⟨_,getElem?_eq_getElem h⟩

lemma commit_follows {n:ℕ} {c:Commit} (h:H.commits[n]? = some c) : c.Follows (H.headerAt n) := H.follows n c h

lemma commits_lt {n:ℕ} {c:Commit} (h:H.commits[n]? = some c) : n<H.last :=
 (List.getElem?_eq_some_iff.mp h).1

lemma headerAt_induction {P:ℕ → PageFormat.DbHeader → Prop} (h0:P 0 H.root)
 (hstep:∀ n c,H.commits[n]? = some c → P n (H.headerAt n) → P (n+1) c.header) {n:ℕ}
 (hn:n≤H.last) : P n (H.headerAt n) := by
 induction n with
 | zero=>exact h0
 | succ n ih=>
  obtain ⟨c,hc⟩:=commit_exists (H:=H) hn
  rw [headerAt_succ hc]
  exact hstep n c hc (ih (by omega))

lemma headerAt_fits {n:ℕ} (hn:n≤H.last) : (H.headerAt n).Fits :=
 headerAt_induction (P:=fun _ h=>h.Fits) H.root_fits (fun _ _ hc _=>(commit_follows hc).fits) hn

lemma headerAt_pageSize {n:ℕ} (hn:n≤H.last) : (H.headerAt n).pageSize=H.pageSize :=
 headerAt_induction (P:=fun _ h=>h.pageSize=H.pageSize) rfl (fun _ _ hc ih=>(commit_follows hc).pageSize.trans ih) hn

lemma headerAt_dbId {n:ℕ} (hn:n≤H.last) : (H.headerAt n).dbId=H.root.dbId :=
 headerAt_induction (P:=fun _ h=>h.dbId=H.root.dbId) rfl (fun _ _ hc ih=>(commit_follows hc).dbId.trans ih) hn

lemma headerAt_counter {n:ℕ} (hn:n≤H.last) : (H.headerAt n).changeCounter=n :=
 headerAt_induction (P:=fun n h=>h.changeCounter=n) H.root_counter (fun _ _ hc ih=>by rw [(commit_follows hc).counter,ih]) hn

lemma pageSize_bounds : kMinPageSize≤H.pageSize ∧ H.pageSize≤kMaxPageSize :=
 H.root_fits.pageSize_le

lemma pageSize_pos : 0<H.pageSize := by
 have:=(pageSize_bounds (H:=H)).1
 simp only [kMinPageSize] at this
 omega

lemma count_pos {n:ℕ} (hn:n≤H.last) : 0<H.count n := (headerAt_fits hn).pageCount_pos

lemma count_succ {n:ℕ} {c:Commit} (h:H.commits[n]? = some c) : H.count n≤H.count (n+1) := by
 rw [count,count,headerAt_succ h]
 exact (commit_follows h).grows

lemma count_mono {b n:ℕ} (hbn:b≤n) (hn:n≤H.last) : H.count b≤H.count n := by
 induction n with
 | zero=>rw [Nat.le_zero.mp hbn]
 | succ n ih=>
  obtain ⟨c,hc⟩:=commit_exists (H:=H) hn
  rcases Nat.lt_or_ge b (n+1) with h | h
  · exact (ih (by omega) (by omega)).trans (count_succ hc)
  · rw [show b=n+1 by omega]

lemma imagesOf_append (cs ds:List Commit) : imagesOf (cs++ds)=imagesOf cs++imagesOf ds := flatMap_append

lemma take_eq_append {b n:ℕ} (hbn:b≤n) : H.commits.take n=H.commits.take b++H.between b n := by
 conv_lhs=>rw [← take_append_drop b (H.commits.take n),take_take,min_eq_left hbn]
 rfl

lemma take_succ_eq {n:ℕ} {c:Commit} (h:H.commits[n]? = some c) : H.commits.take (n+1)=H.commits.take n++[c] := by
 rw [take_add_one,h]
 rfl

lemma pages_advance {b n:ℕ} (hbn:b≤n) : H.pages n=overlay (imagesOf (H.between b n)) (H.pages b) := by
 rw [pages,take_eq_append hbn,imagesOf_append,overlay_append]
 rfl

lemma pages_succ {n:ℕ} {c:Commit} (h:H.commits[n]? = some c) : H.pages (n+1)=overlay c.images (H.pages n) := by
 rw [pages,take_succ_eq h,imagesOf_append,overlay_append]
 simp [pages,imagesOf]

lemma pages_zero {n:ℕ} (hn:n≤H.last) : H.pages n 0=(H.headerAt n).page0 := by
 cases n with
 | zero=>rfl
 | succ n=>
  obtain ⟨c,hc⟩:=commit_exists (H:=H) hn
  rw [pages_succ hc,headerAt_succ hc,Commit.images,overlay_append,overlay_cons,overlay_nil]
  exact Function.update_self _ _ _

lemma pages_induction {P:Bytes → Prop} (h0:P H.root.page0)
 (hc:∀ (n:ℕ) (c:Commit),H.commits[n]? = some c → ∀ x∈c.images,P x.2) {n:ℕ} (hn:n≤H.last) {p:ℕ}
 (hp:p<H.count n) : P (H.pages n p) := by
 induction n with
 | zero=>
  have hzero:p=0:=by
   rw [count,headerAt_zero,H.root_count] at hp
   omega
  subst hzero
  exact h0
 | succ n ih=>
  obtain ⟨c,hcn⟩:=commit_exists (H:=H) hn
  rw [pages_succ hcn]
  by_cases hmem:p∈c.images.map Prod.fst
  · obtain ⟨w,hw,-,hval⟩:=overlay_mem c.images (H.pages n) p hmem
    rw [hval]
    exact hc n c hcn w hw
  · rw [overlay_other _ _ _ hmem]
    refine ih (by omega) ?_
    -- A page the commit adds is among those it writes.
    by_contra hnew
    apply hmem
    rw [count,headerAt_succ hcn] at hp
    have:=(commit_follows hcn).fresh p (by rw [count] at hnew; omega) hp
    rw [Commit.images,map_append]
    exact mem_append_left _ this

lemma mem_images {c:Commit} {x:ℕ × Bytes} : x∈c.images ↔ x∈c.dirty ∨ x=(0,c.header.page0) := by
 rw [Commit.images,mem_append,mem_singleton]

lemma image_length_of_mem {n:ℕ} {c:Commit} (h:H.commits[n]? = some c) {x:ℕ × Bytes}
 (hx:x∈c.images) : x.2.length=H.pageSize := by
 have hf:=commit_follows h
 have hn:n≤H.last:=(commits_lt h).le
 rcases mem_images.mp hx with hx | rfl
 · rw [hf.dirty_length x hx,headerAt_pageSize hn]
 · rw [DbHeader.page0_length,hf.pageSize,headerAt_pageSize hn]

lemma image_ok_of_mem {n:ℕ} {c:Commit} (h:H.commits[n]? = some c) {x:ℕ × Bytes}
 (hx:x∈c.images) : pageChecksumOk x.2=true := by
 have hf:=commit_follows h
 rcases mem_images.mp hx with hx | rfl
 · exact hf.dirty_ok x hx
 · exact DbHeader.page0_ok hf.fits

lemma image_lt_of_mem {n:ℕ} {c:Commit} (h:H.commits[n]? = some c) {x:ℕ × Bytes} (hx:x∈c.images) : x.1<H.count (n+1) := by
 have hf:=commit_follows h
 rw [count,headerAt_succ h]
 rcases mem_images.mp hx with hx | rfl
 · exact hf.dirty_lt x hx
 · exact hf.fits.pageCount_pos

lemma pages_length {n:ℕ} (hn:n≤H.last) {p:ℕ} (hp:p<H.count n) : (H.pages n p).length=H.pageSize :=
 pages_induction (P:=fun b=>b.length=H.pageSize) (DbHeader.page0_length _) (fun _ _ hc _ hx=>image_length_of_mem hc hx) hn hp

lemma pages_ok {n:ℕ} (hn:n≤H.last) {p:ℕ} (hp:p<H.count n) : pageChecksumOk (H.pages n p)=true :=
 pages_induction (P:=fun b=>pageChecksumOk b=true) (DbHeader.page0_ok H.root_fits)
  (fun _ _ hc _ hx=>image_ok_of_mem hc hx) hn hp

end Line

namespace Line

variable {H:Line} {b n p:ℕ}

lemma between_split {m:ℕ} (hbm:b ≤ m) (hmn:m≤n) : H.between b n=H.between b m++H.between m n := by
 have hlen:(H.commits.take b).length≤(H.commits.take m).length:=by
  simp only [length_take]
  omega
 rw [between,take_eq_append hmn,between,between]
 rcases Nat.lt_or_ge H.last m with hm | hm
 · have hnil:(H.commits.take n).drop m=[]:=by
    apply drop_eq_nil_of_le
    simp only [length_take,last] at hm ⊢
    omega
   rw [hnil,append_nil,append_nil]
 · rw [drop_append_of_le_length]
   simp only [length_take,last] at hm ⊢
   omega

lemma between_succ {c:Commit} (hbn:b≤n) (hc:H.commits[n]? = some c) : H.between b (n+1)=H.between b n++[c] := by
 have hlen:b≤(H.commits.take n).length:=by
  have:=commits_lt hc
  simp only [length_take,last] at this ⊢
  omega
 rw [between,take_succ_eq hc,drop_append_of_le_length hlen]
 rfl

lemma between_self : H.between b b=[] := by
 apply drop_eq_nil_of_le
 simp only [length_take]
 omega

lemma mem_between {c:Commit} (hc:c∈H.between b n) : c∈H.commits :=
 mem_of_mem_take (mem_of_mem_drop hc)

lemma unwritten_lt (hbn:b≤n) (hn:n≤H.last) (hp:p<H.count n)
 (hnot:p ∉ (imagesOf (H.between b n)).map Prod.fst) : p<H.count b := by
 induction n with
 | zero=>
  rw [Nat.le_zero.mp hbn]
  exact hp
 | succ n ih=>
  rcases Nat.lt_or_ge n b with hb | hb
  · rw [show b=n+1 by omega]
    exact hp
  · obtain ⟨c,hc⟩:=commit_exists (H:=H) hn
    rw [between_succ hb hc,imagesOf_append,map_append,mem_append,not_or] at hnot
    refine ih hb (by omega) ?_ hnot.1
    by_contra hnew
    apply hnot.2
    have hfresh:=(commit_follows hc).fresh p (by rw [count] at hnew; omega)
     (by rwa [count,headerAt_succ hc] at hp)
    simp only [imagesOf,flatMap_cons,flatMap_nil,append_nil,Commit.images,map_append]
    exact mem_append_left _ hfresh

lemma unwritten_eq {m:ℕ} (hbm:b ≤ m) (hmn:m≤n)
 (hnot:p ∉ (imagesOf (H.between b n)).map Prod.fst) : H.pages n p=H.pages m p := by
 rw [pages_advance hmn,overlay_other]
 intro hmem
 apply hnot
 rw [between_split hbm hmn,imagesOf_append,map_append]
 exact mem_append_right _ hmem

lemma overlay_end (hbn:b≤n) : overlay (imagesOf (H.between b n)) (H.pages n)=H.pages n := by
 funext p
 conv_rhs=>rw [pages_advance hbn]
 by_cases hp:p∈(imagesOf (H.between b n)).map Prod.fst
 · exact overlay_congr _ _ _ p (Or.inl hp)
 · rw [overlay_other _ _ _ hp,overlay_other _ _ _ hp,unwritten_eq le_rfl hbn hp]

end Line

namespace Line

variable {H:Line}

lemma image_length {n:ℕ} (hn:n≤H.last) : (H.image n).length=H.count n*H.pageSize :=
 flatMap_pages_length _ _ fun _ hp=>pages_length hn hp

lemma slice_image {n:ℕ} (hn:n≤H.last) {p:ℕ} (hp:p<H.count n) : slice (H.image n) (p*H.pageSize) H.pageSize=H.pages n p :=
 slice_flatMap_pages _ _ (fun _ hp=>pages_length hn hp) hp

lemma mem_images_of_new {n:ℕ} {c:Commit} (hc:H.commits[n]? = some c) {p:ℕ}
 (h:H.count n≤p) (hp:p<H.count (n+1)) : p∈c.images.map Prod.fst := by
 rw [count,headerAt_succ hc] at hp
 rw [Commit.images,map_append]
 exact mem_append_left _ ((commit_follows hc).fresh p h hp)

lemma writePages_image {n:ℕ} {c:Commit} (hc:H.commits[n]? = some c) :
 writePages H.pageSize c.images (H.image n)=H.image (n+1) := by
 have hn:n≤H.last:=(commits_lt hc).le
 have hstart:Paged H.pageSize (H.image n) (H.count n)
   (padded H.pageSize (H.count n) (H.pages n)):=paged_flatMap fun p hp=>pages_length hn hp
 obtain ⟨m,hnm,hbelow,hm,hpaged⟩:=
  hstart.writePages c.images fun x hx=>image_length_of_mem hc hx
 have hcount:m=H.count (n+1):=by
  apply le_antisymm
  · rcases hm with rfl | ⟨x,hx,rfl⟩
    · exact count_succ hc
    · exact image_lt_of_mem hc hx
  · by_contra hlt
    obtain ⟨x,hx,hxp⟩:=mem_map.mp (mem_images_of_new (p:=m) hc hnm (by omega))
    have:=hbelow x hx
    omega
 subst hcount
 refine eq_flatMap_of_pages hpaged.length fun p hp=>?_
 rw [hpaged.page p hp,pages_succ hc]
 apply overlay_congr
 rcases Nat.lt_or_ge p (H.count n) with hpn | hpn
 · exact Or.inr (by rw [padded,if_pos hpn])
 · exact Or.inl (mem_images_of_new hc hpn hp)

end Line

namespace Line

variable {H K:Line} {n:ℕ}

/-- The two lines are the same up to commit `n`. -/
structure SameUpTo (H K:Line) (n:ℕ) : Prop where
 root : K.root=H.root
 commits : K.commits.take n=H.commits.take n

lemma SameUpTo.take (h:SameUpTo H K n) {m:ℕ} (hm:m≤n) : K.commits.take m=H.commits.take m := by
 have:=congrArg (List.take m) h.commits
 rwa [List.take_take,List.take_take,min_eq_left hm] at this

lemma SameUpTo.headerAt (h:SameUpTo H K n) {m:ℕ} (hm:m≤n) : K.headerAt m=H.headerAt m := by
 rw [Line.headerAt,Line.headerAt,headerAfter,headerAfter,h.take hm,h.root]

lemma SameUpTo.count (h:SameUpTo H K n) {m:ℕ} (hm:m≤n) : K.count m=H.count m := by
 rw [Line.count,Line.count,h.headerAt hm]

lemma SameUpTo.pages (h:SameUpTo H K n) {m:ℕ} (hm:m≤n) : K.pages m=H.pages m := by
 have hcreated:K.created=H.created:=by
  funext p
  simp only [Line.created,h.root]
 rw [Line.pages,Line.pages,h.take hm,hcreated]

lemma SameUpTo.image (h:SameUpTo H K n) {m:ℕ} (hm:m≤n) : K.image m=H.image m := by
 rw [Line.image,Line.image,h.count hm,h.pages hm]

lemma SameUpTo.between (h:SameUpTo H K n) (b:ℕ) {m:ℕ} (hm:m≤n) :
 K.between b m=H.between b m := by rw [Line.between,Line.between,h.take hm]

lemma SameUpTo.pageSize (h:SameUpTo H K n) : K.pageSize=H.pageSize := by
 rw [Line.pageSize,Line.pageSize,h.root]

def extend (H:Line) (c:Commit) (hc:c.Follows (H.headerAt H.last)) : Line where
 root := H.root
 commits:=H.commits++[c]
 root_fits:=H.root_fits
 root_count:=H.root_count
 root_counter:=H.root_counter
 follows:=by
  intro n d hd
  have hsame:∀ m ≤ H.commits.length,
    headerAfter H.root (H.commits++[c]) m=headerAfter H.root H.commits m:=by
   intro m hm
   rw [headerAfter,headerAfter,take_append_of_le_length hm]
  rcases Nat.lt_or_ge n H.commits.length with hn | hn
  · rw [getElem?_append_left hn] at hd
    rw [hsame n hn.le]
    exact H.follows n d hd
  · rw [getElem?_append_right hn] at hd
    obtain ⟨hlt,hget⟩:=List.getElem?_eq_some_iff.mp hd
    have heq:n=H.commits.length:=by
     simp only [length_singleton] at hlt
     omega
    subst heq
    rw [hsame _ le_rfl]
    simp only [Nat.sub_self,getElem_cons_zero] at hget
    rw [← hget]
    exact hc

section Extend
variable {c:Commit} {hc:c.Follows (H.headerAt H.last)}

lemma extend_last : (H.extend c hc).last=H.last+1 := by
 rw [last,extend,length_append]
 rfl

lemma extend_same : SameUpTo H (H.extend c hc) H.last :=
 ⟨rfl,take_append_of_le_length le_rfl⟩

lemma extend_get : (H.extend c hc).commits[H.last]? = some c := getElem?_concat_length

lemma extend_between {b:ℕ} (hb:b≤H.last) : (H.extend c hc).between b (H.last+1)=H.between b H.last++[c] := by
 rw [between_succ hb extend_get,extend_same.between b le_rfl]

end Extend

end Line

/-- The header of a database of two pages of 512 bytes at counter and time `n`. -/
def exampleHeader (pages n:ℕ) : PageFormat.DbHeader where
 pageCount := pages
 pageSize:=512
 changeCounter:=n
 dbId:=⟨replicate 16 7,by decide⟩
 commitTimeUs:=n

/-- A page full of `x`, sealed. -/
def exampleImage (x:UInt8) : Bytes := sealPage (replicate 512 x)

lemma exampleImage_length (x:UInt8) : (exampleImage x).length=512 := by
 rw [exampleImage,sealPage_length,length_replicate]

lemma exampleImage_ok (x:UInt8) : pageChecksumOk (exampleImage x)=true :=
 sealPage_ok _ (by rw [length_replicate]; decide)

/-- A commit that fills page 1 with the byte `x`. -/
def exampleCommit (x:UInt8) (n:ℕ) : Commit where
 dirty := [(1,exampleImage x)]
 header:=exampleHeader 2 n

lemma exampleHeader_fits {pages n:ℕ} (hp:0<pages) (hp':pages<2^64) (hn:n<2^63) : (exampleHeader pages n).Fits where
 pageSize := by
  change isPageSize 512=true
  decide
 version:=rfl
 pageCount_pos:=hp
 pageCount:=hp'
 freelistHead:=Nat.two_pow_pos 64
 freelistCount:=Nat.two_pow_pos 64
 changeCounter:=by
  change n<2^64
  omega
 time_ge:=by
  change -2^63≤(n:ℤ)
  omega
 time_lt:=by
  change (n:ℤ)<2^63
  omega

lemma exampleCommit_follows (x:UInt8) {pages n:ℕ} (hp:1≤pages) (hp':pages≤2)
 (hn:n+1<2^63) : (exampleCommit x (n+1)).Follows (exampleHeader pages n) where
 fits := exampleHeader_fits (by decide) (by decide) hn
 pageSize:=rfl
 dbId:=rfl
 counter:=rfl
 grows:=hp'
 dirty_pos:=by simp [exampleCommit]
 dirty_lt:=by simp [exampleCommit,exampleHeader]
 dirty_length:=by simp [exampleCommit,exampleHeader,exampleImage_length]
 dirty_ok:=by simp [exampleCommit,exampleImage_ok]
 fresh:=by
  intro p h1 h2
  change pages≤p at h1
  change p<2 at h2
  simp only [exampleCommit,map_cons,map_nil,mem_singleton]
  omega

lemma exampleCommits_get (g:ℕ → UInt8) (k n:ℕ) :
 ((range k).map fun i=>exampleCommit (g i) (i+1))[n]? =
  if n<k then some (exampleCommit (g n) (n+1)) else none := by
 rw [getElem?_map]
 split_ifs with h
 · rw [getElem?_range h]
   rfl
 · rw [getElem?_eq_none (by simpa using h)]
   rfl

lemma exampleHeaderAfter (g:ℕ → UInt8) {k n:ℕ} (hn:n≤k) :
 headerAfter (exampleHeader 1 0) ((range k).map fun i=>exampleCommit (g i) (i+1)) n =
  exampleHeader (if n=0 then 1 else 2) n := by
 cases n with
 | zero=>rfl
 | succ n=>
  rw [headerAfter,take_add_one,exampleCommits_get,if_pos (Nat.lt_of_succ_le hn)]
  simp [exampleCommit]

lemma one_lt_bound : 1<2^63 := by decide

/-- The line of `k` commits whose commit `i + 1` fills page 1 with `g i`. -/
def exampleLine (g:ℕ → UInt8) (k:ℕ) (hk:k<2^63) : Line where
 root := exampleHeader 1 0
 commits:=(range k).map fun i=>exampleCommit (g i) (i+1)
 root_fits:=exampleHeader_fits (by decide) (by decide) (by decide)
 root_count:=rfl
 root_counter:=rfl
 follows:=by
  intro n c hc
  rw [exampleCommits_get] at hc
  split_ifs at hc with hn
  cases hc
  rw [exampleHeaderAfter g hn.le]
  refine exampleCommit_follows (g n) ?_ ?_ (by omega) <;> split_ifs <;> decide

end Archivum.Histories
