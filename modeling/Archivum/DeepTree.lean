import Archivum.TreeRuns

set_option autoImplicit false

/-!
# A tree deeper than its readers look

`remove_child` collapses a node below the root without shortening the other
branches, and a root split lengthens all of them. Fourteen calls at the right
edge of the tree thus push the leftmost leaf one level down and leave the right
edge as it was. Repeated, they take that leaf below the 64 levels that
`find_leaf` descends.
-/
namespace Archivum.TreeShape.Runs
open ByteStrings StatefulActions PageTxn SlottedPage BTreeModel InteriorSplit List Act

def numKey (n:ℕ) : Bytes :=
 replicate 102 97++[UInt8.ofNat (n/256),UInt8.ofNat (n%256)]

def numValue : Bytes := replicate 8 0

def numEntry (n:ℕ) : Entry := ⟨numKey n,numValue,[]⟩

lemma numKey_length (n:ℕ) : (numKey n).length=104 := by
 simp [numKey]

lemma numKey_lt {m n:ℕ} (h:m<n) (hn:n<65536) : numKey m<numKey n := by
 have hpre:∀ (l a b:Bytes),a<b → l++a<l++b:=by
  intro l a b hab
  induction l with
  | nil=>exact hab
  | cons x l ih=>exact List.Lex.cons ih
 refine hpre _ _ _ ?_
 have hbyte:∀ k,k<256 → (UInt8.ofNat k).toNat=k:=fun k hk=>by
  rw [UInt8.toNat_ofNat']
  omega
 rcases Nat.lt_or_ge (m/256) (n/256) with hlt | hge
 · refine List.Lex.rel ?_
   rw [UInt8.lt_iff_toNat_lt,hbyte _ (by omega),hbyte _ (by omega)]
   exact hlt
 · have heq:m/256=n/256:=by omega
   rw [heq]
   refine List.Lex.cons (List.Lex.rel ?_)
   rw [UInt8.lt_iff_toNat_lt,hbyte _ (by omega),hbyte _ (by omega)]
   omega

lemma numEntry_inline (n:ℕ) : (numEntry n).inline 512=true := by
 simp only [Entry.inline,numEntry,numKey_length,numValue,length_replicate]
 decide

lemma numEntry_cell_length (n:ℕ) : ((numEntry n).cell 512).length=119 := by
 rw [Entry.cell,numEntry_inline,if_pos rfl,buildLeafCell_length]
 simp [numEntry,numKey_length,numValue,kLeafCellHdr]

lemma cells_lengths (ns:List ℕ) : ((ns.map numEntry).map (Entry.cell 512)).map length=replicate ns.length 119 := by
 rw [map_map,map_map,eq_replicate_iff]
 refine ⟨by simp,?_⟩
 intro x hx
 obtain ⟨n,-,rfl⟩:=mem_map.mp hx
 exact numEntry_cell_length n

lemma leafFit_iff (ns:List ℕ) : LeafFit 512 (ns.map numEntry) ↔ ns.length≤4 := by
 have hw:weight ((ns.map numEntry).map (Entry.cell 512))=ns.length*121:=by
  have h:=congrArg (fun l=>(l.map (· + 2)).sum) (cells_lengths ns)
  simp only [map_map,map_replicate,sum_replicate] at h
  simpa [weight,Function.comp_def] using h
 rw [LeafFit,hw,Node.usable,kPageTrailerBytes,kHdr]
 omega

lemma splitPoint_five {ns:List ℕ} (h:ns.length=5) : BTree.splitPoint ((ns.map numEntry).map (Entry.cell 512))=2 := by
 have hc:((ns.map numEntry).map (Entry.cell 512)).map length =
   (replicate 5 (replicate 119 (0:UInt8))).map length:=by
  rw [cells_lengths,h]
  simp
 rw [splitPoint_congr hc]
 decide +kernel

lemma keysFit_long_iff {keys:List Bytes} (h:∀ k∈keys,k.length=104) : KeysFit 512 keys ↔ keys.length≤4 := by
 have hw:keysWeight keys=keys.length*116:=by
  have hm:keys.map (fun k=>cellWeight k.length)=replicate keys.length 116:=by
   rw [eq_replicate_iff]
   refine ⟨by simp,?_⟩
   intro x hx
   obtain ⟨k,hk,rfl⟩:=mem_map.mp hx
   rw [h k hk]
   rfl
  rw [keysWeight,hm,sum_replicate]
  simp
 rw [KeysFit,hw,Node.usable,kPageTrailerBytes,kHdr]
 omega

lemma edge_focus {fs:List Frame} {p:ℕ} {es:List Entry} {e:Entry} (h:(plugAll fs (.leaf p (es++[e]))).marks.Pairwise (· < ·))
 (hafter:pathMarksAfter fs=[]) : Focus fs e.key ∧ AtSlot es [e] [] e.key := by
 rw [plugAll_marks,hafter,append_nil,Tree.marks,map_append,map_singleton,← append_assoc] at h
 have hlast:=(pairwise_append.mp h).2.2
 refine ⟨⟨fun m hm=>hlast m (mem_append_left _ hm) _ (by simp),?_⟩,?_,by simp,by simp,by simp⟩
 · rw [hafter]
   simp
 · intro d hd
   have:=hlast (keyMark d.key) (mem_append_right _ (mem_map.mpr ⟨d,hd,rfl⟩)) _ mem_cons_self
   exact (keyMark_lt_keyMark _ _).mp this

lemma edge_focus_above {fs:List Frame} {p:ℕ} {es:List Entry} {e:Entry} {key:Bytes}
 (h:(plugAll fs (.leaf p (es++[e]))).marks.Pairwise (· < ·)) (hafter:pathMarksAfter fs=[]) (hkey:e.key<key) :
 Focus fs key ∧ AtSlot (es++[e]) [] [] key := by
 obtain ⟨hf,hslot⟩:=edge_focus h hafter
 have hmark:keyMark e.key<keyMark key:=(keyMark_lt_keyMark _ _).mpr hkey
 refine ⟨⟨fun m hm=>lt_trans (hf.below m hm) hmark,?_⟩,?_,by simp,by simp,by simp⟩
 · rw [hafter]
   simp
 · intro d hd
   rcases mem_append.mp hd with hd | hd
   · exact lt_trans (hslot.below d hd) hkey
   · rw [mem_singleton.mp hd]
     exact hkey

/-- The calls `ops`, each sound where it is made, lead from `σ₁` to the tree `t`. -/
def Reaches (b:BTree) (σ₁:WriteTxn) (ops:List Op) (t:Tree) : Prop :=
 ∃ rs σ free,runOps b ops σ₁=(.ok rs,σ) ∧ EachStep b (fun σ op=>op.Sound b σ) ops σ₁ ∧
  TreeAt 512 σ t [] free ∧ b.root=t.page ∧ b.pageSize=512 ∧
  σ.header.pageCount ≤ 2+ops.length*16777282

lemma runOps_concat {b:BTree} {op:Op} {r:Bool} {σ' σ'':WriteTxn} (hop:op.run b σ'=(.ok r,σ'')) (ops:List Op) :
 ∀ (σ:WriteTxn) (rs:List Bool),runOps b ops σ=(.ok rs,σ') → runOps b (ops++[op]) σ=(.ok (rs++[r]),σ'') := by
 induction ops with
 | nil=>
  intro σ rs h
  obtain ⟨rfl,rfl⟩:[]=rs ∧ σ=σ':=by
   rw [runOps,pure_run,Prod.mk.injEq,Except.ok.injEq] at h
   exact h
  rw [nil_append,runOps,bind_of_ok _ hop]
  rfl
 | cons o ops ih=>
  intro σ rs h
  rw [runOps] at h
  obtain ⟨r1,σ1,h1,h2⟩:=bind_ok_inv h
  obtain ⟨rs1,σ2,h3,h4⟩:=bind_ok_inv h2
  obtain ⟨rfl,rfl⟩:r1::rs1=rs ∧ σ2=σ':=by
   rw [pure_run,Prod.mk.injEq,Except.ok.injEq] at h4
   exact h4
  rw [cons_append,runOps,bind_of_ok _ h1,bind_of_ok _ (ih σ1 rs1 h3)]
  rfl

lemma eachStep_concat {b:BTree} {P:WriteTxn → Op → Prop} {op:Op} {σ':WriteTxn}
 (hop:P σ' op) (ops:List Op) : ∀ (σ:WriteTxn) (rs:List Bool),
  runOps b ops σ=(.ok rs,σ') → EachStep b P ops σ → EachStep b P (ops++[op]) σ := by
 induction ops with
 | nil=>
  intro σ rs h _
  rw [runOps,pure_run,Prod.mk.injEq] at h
  rw [h.2]
  exact ⟨hop,trivial⟩
 | cons o ops ih=>
  intro σ rs h hP
  rw [runOps] at h
  obtain ⟨r1,σ1,h1,h2⟩:=bind_ok_inv h
  obtain ⟨rs1,σ2,h3,h4⟩:=bind_ok_inv h2
  obtain rfl:σ2=σ':=by
   rw [pure_run,Prod.mk.injEq] at h4
   exact h4.2
  obtain ⟨hfirst,hrest⟩:=hP
  refine ⟨hfirst,?_⟩
  rw [h1] at hrest ⊢
  exact ih σ1 rs1 h3 hrest

section Edge
variable {b:BTree} {σ₁:WriteTxn} {ops:List Op} {fs:List Frame} {p m n:ℕ} {ns:List ℕ}

def putNum (n:ℕ) : Op := .put (numKey n) numValue
def eraseNum (n:ℕ) : Op := .erase (numKey n)

lemma numKey_ne (n:ℕ) : numKey n≠[] := by
 intro h
 have:=numKey_length n
 rw [h] at this
 simp at this

lemma file_size {c k:ℕ} (hc:c≤2+k*16777282) (hk:k≤1000) : c*512≤2^63 := by
 omega

lemma chain_nil {ps:ℕ} {σ:WriteTxn} {t:Tree} {O free:List ℕ} {e:Entry}
 (h:TreeAt ps σ t O free) (he:e∈t.entries) (hin:e.inline ps=true) : e.chain=[] := by
 obtain ⟨⟨q,es⟩,hl,hm⟩:=mem_flatMap.mp he
 exact ((h.leaf_of_leaves hl).2.1 e hm).1.chain_nil hin

lemma Reaches.put_at {es:List Entry} (h:Reaches b σ₁ ops (plugAll fs (.leaf p es)))
 (hf:Focus fs (numKey n)) (hslot:AtSlot es [] [] (numKey n)) (hlen:fs.length<64)
 (hops:ops.length≤1000) (hfits:PutFits 512 fs (es++[numEntry n])) :
 ∃ t',PutLeaf 512 fs p (es++[numEntry n]) t' ∧ Reaches b σ₁ (ops++[putNum n]) t' := by
 obtain ⟨rs,σ,free,hrun,heach,hat,hroot,hb,hcnt⟩:=h
 have hfile:=file_size hcnt hops
 have hle:(numKey n).length ≤ maxKeyBytesFor 512:=by
  rw [numKey_length]
  decide
 have hv:numValue.length<2^32:=by decide
 rw [← append_nil es] at hat hroot
 have hsplits:=(splits_put hat hb hroot hf hslot hlen (numKey_ne n) hle hv).mpr hfits
 obtain ⟨chain,t',σ',free',hput,htree,hat',-,hcnt'⟩:=TreeShape.put_at hat hb hroot hf
  hslot hlen (numKey_ne n) hle hv (fun chain=>(putFits_chain chain).mpr hfits)
  (file_room (by decide) hfile)
 obtain rfl:chain=[]:=by
  refine chain_nil (e:=⟨numKey n,numValue,chain⟩) hat' ?_ (numEntry_inline n)
  rw [htree.entries]
  simp
 have hop:(putNum n).run b σ=(.ok true,σ'):=by
  rw [putNum,Op.run,bind_of_ok _ hput]
  rfl
 have hsound:(putNum n).Sound b σ:=by
  refine ⟨numKey_ne n,?_,hv,?_,?_⟩
  · rw [BTree.maxKeyBytes,hb]
    exact hle
  · rw [hb]
    exact hsplits
  · rw [hb]
    exact hfile
 refine ⟨t',htree,rs++[true],σ',free',runOps_concat hop ops σ₁ rs hrun,
  eachStep_concat hsound ops σ₁ rs hrun heach,hat',?_,hb,?_⟩
 · rw [hroot,htree.page]
   exact plugAll_leaf_page fs p _ _
 · rw [length_append,length_singleton]
   omega

lemma Reaches.put (h:Reaches b σ₁ ops (plugAll fs (.leaf p (ns.map numEntry++[numEntry m]))))
 (hafter:pathMarksAfter fs=[]) (hlen:fs.length<64) (hops:ops.length≤1000) (hmn:m<n) (hn:n<65536)
 (hfits:PutFits 512 fs (ns.map numEntry++[numEntry m]++[numEntry n])) :
 ∃ t',PutLeaf 512 fs p (ns.map numEntry++[numEntry m]++[numEntry n]) t' ∧ Reaches b σ₁ (ops++[putNum n]) t' := by
 obtain ⟨rs,σ,free,hrun,heach,hat,hroot,hb,hcnt⟩:=h
 obtain ⟨hf,hslot⟩:=edge_focus_above hat.sorted hafter (numKey_lt hmn hn)
 exact Reaches.put_at ⟨rs,σ,free,hrun,heach,hat,hroot,hb,hcnt⟩ hf hslot hlen hops hfits

lemma Reaches.erase (h:Reaches b σ₁ ops (plugAll fs (.leaf p (ns.map numEntry++[numEntry m]))))
 (hafter:pathMarksAfter fs=[]) (hlen:fs.length<64) (hops:ops.length≤1000) :
 ∃ t',EraseLeaf p fs (ns.map numEntry) t' ∧ Reaches b σ₁ (ops++[eraseNum m]) t' := by
 obtain ⟨rs,σ,free,hrun,heach,hat,hroot,hb,hcnt⟩:=h
 obtain ⟨hf,hslot⟩:=edge_focus hat.sorted hafter
 have hfile:=file_size hcnt hops
 rw [← append_nil [numEntry m]] at hat hroot
 obtain ⟨t',σ',free',herase,htree,hat',-,hcnt'⟩:=erase_present hat hroot hf hslot hlen
 rw [append_nil] at htree
 have hsound:(eraseNum m).Sound b σ:=by
  refine ⟨numKey_ne m,?_,Nat.two_pow_pos 32,?_,?_⟩
  · rw [BTree.maxKeyBytes,hb,eraseNum,Op.key,numKey_length]
    decide
  · have hnil:(eraseNum m).splits b σ=[]:=by
     rw [eraseNum,Op.splits]
     split <;> rfl
    rw [hnil]
    simp
  · rw [hb]
    exact hfile
 have hop:(eraseNum m).run b σ=(.ok true,σ'):=herase
 refine ⟨t',htree,rs++[true],σ',free',runOps_concat hop ops σ₁ rs hrun,
  eachStep_concat hsound ops σ₁ rs hrun heach,hat',?_,hb,?_⟩
 · rw [hroot]
   exact (htree.page _).symm
 · rw [length_append,length_singleton,hcnt']
   exact hcnt.trans (by omega)

lemma Reaches.put_fits (h:Reaches b σ₁ ops (plugAll fs (.leaf p (ns.map numEntry++[numEntry m]))))
 (hafter:pathMarksAfter fs=[]) (hlen:fs.length<64) (hops:ops.length≤1000)
 (hmn:m<n) (hn:n<65536) (hroom:ns.length<3) : Reaches b σ₁ (ops++[putNum n])
  (plugAll fs (.leaf p ((ns++[m]).map numEntry++[numEntry n]))) := by
 have hlist:ns.map numEntry++[numEntry m]++[numEntry n] = (ns++[m]++[n]).map numEntry:=by simp
 have hfit:LeafFit 512 (ns.map numEntry++[numEntry m]++[numEntry n]):=by
  rw [hlist,leafFit_iff]
  simp only [length_append,length_singleton]
  omega
 obtain ⟨t',htree,hreach⟩:=h.put hafter hlen hops hmn hn (Or.inl hfit)
 have ht':t'=plugAll fs (.leaf p (ns.map numEntry++[numEntry m]++[numEntry n])):=by
  generalize hes:ns.map numEntry++[numEntry m]++[numEntry n]=es at htree hfit
  cases htree with
  | fits _=>rfl
  | split q hfull _ _=>exact absurd hfit hfull
  | root l r hfull _=>exact absurd hfit hfull
 rw [ht'] at hreach
 simpa using hreach

lemma full_leaf {a c d k e:ℕ} {L R:List Entry} (hes:L++R=[a,c,d,k,e].map numEntry)
 (hcut:L.length=BTree.splitPoint ((L++R).map (Entry.cell 512))) :
 L=[a,c].map numEntry ∧ R=[d,k,e].map numEntry ∧ headKey R=numKey d := by
 rw [hes,splitPoint_five rfl] at hcut
 have hL:L=(L++R).take 2:=by rw [← hcut,take_left]
 have hR:R=(L++R).drop 2:=by rw [← hcut,drop_left]
 rw [hes] at hL hR
 refine ⟨hL,hR,?_⟩
 rw [hR]
 rfl

lemma insertKeys_long {r:ℕ} {kids:List (Bytes × Tree)} {s:Bytes} (hkids:∀ kt∈kids,kt.1.length=104) (hs:s.length=104) :
 ∀ k∈(Frame.last r kids).insertKeys s,k.length=104 := by
 intro k hk
 rw [Frame.insertKeys,mem_append,mem_singleton] at hk
 rcases hk with hk | rfl
 · obtain ⟨kt,hkt,rfl⟩:=mem_map.mp hk
   exact hkids kt hkt
 · exact hs

section Full
variable {r a c d k e:ℕ} {kids:List (Bytes × Tree)}

lemma Reaches.put_full (h:Reaches b σ₁ ops (.node r kids (.leaf p ([a,c,d,k].map numEntry))))
 (hops:ops.length≤1000) (hke:k<e) (he:e<65536) (hkids:∀ kt∈kids,kt.1.length=104) (hlen:kids.length≤4) :
 ∃ q t',InsertSep 512 [.last r kids] (.leaf p ([a,c].map numEntry)) (numKey d)
   (.leaf q ([d,k,e].map numEntry)) t' ∧ Reaches b σ₁ (ops++[putNum e]) t' := by
 have hlist:[a,c,d].map numEntry++[numEntry k]++[numEntry e] = [a,c,d,k,e].map numEntry:=rfl
 have hfull:¬LeafFit 512 ([a,c,d,k,e].map numEntry):=by
  rw [leafFit_iff]
  simp
 have hlong:=insertKeys_long (r:=r) hkids (numKey_length d)
 have hcount:((Frame.last r kids).insertKeys (numKey d)).length=kids.length+1:=by
  simp [Frame.insertKeys]
 -- the halves of an overfull root have at most two separators each
 have hframes:FramesFit 512 [.last r kids] (numKey d):=by
  rw [FramesFit,FramesFit,and_true]
  by_cases hfit:KeysFit 512 ((Frame.last r kids).insertKeys (numKey d))
  · exact Or.inl hfit
  · refine Or.inr ⟨?_,?_⟩
    · rw [keysFit_long_iff fun x hx=>hlong x (mem_of_mem_take hx),length_take]
      omega
    · rw [keysFit_long_iff fun x hx=>hlong x (mem_of_mem_drop hx),length_drop]
      omega
 have hfits:PutFits 512 [.last r kids] ([a,c,d].map numEntry++[numEntry k]++[numEntry e]):=by
  rw [hlist]
  right
  rw [splitPoint_five rfl]
  exact hframes
 have h':Reaches b σ₁ ops (plugAll [.last r kids] (.leaf p ([a,c,d].map numEntry++[numEntry k]))):=h
 obtain ⟨t',htree,hreach⟩:=h'.put rfl (by simp) hops hke he hfits
 rw [hlist] at htree
 generalize hes:[a,c,d,k,e].map numEntry=es at htree hfull
 cases htree with
 | fits hfit=>exact absurd hfit hfull
 | @split f gs p L R t' q _ hcut up=>
  obtain ⟨rfl,rfl,hsep⟩:=full_leaf hes.symm hcut
  rw [hsep] at up
  exact ⟨q,t',up,hreach⟩

lemma Reaches.put_split (h:Reaches b σ₁ ops (.node r kids (.leaf p ([a,c,d,k].map numEntry))))
 (hops:ops.length≤1000) (hke:k<e) (he:e<65536) (hkids:∀ kt∈kids,kt.1.length=104) (hlen:kids.length<4) :
 ∃ q,Reaches b σ₁ (ops++[putNum e]) (.node r (kids++[(numKey d,.leaf p ([a,c].map numEntry))])
   (.leaf q ([d,k,e].map numEntry))) := by
 obtain ⟨q,t',hsep,hreach⟩:=h.put_full hops hke he hkids hlen.le
 have hfit:KeysFit 512 ((Frame.last r kids).insertKeys (numKey d)):=by
  rw [keysFit_long_iff (insertKeys_long hkids (numKey_length d))]
  simp only [Frame.insertKeys,length_append,length_map,length_singleton]
  omega
 cases hsep with
 | fits _=>exact ⟨q,hreach⟩
 | root lp rp hfull _ _=>exact absurd hfit hfull

lemma Reaches.put_root {s₀ s₁ s₂ s₃:Bytes} {t₀ t₁ t₂ t₃:Tree}
 (h:Reaches b σ₁ ops (.node r [(s₀,t₀),(s₁,t₁),(s₂,t₂),(s₃,t₃)] (.leaf p ([a,c,d,k].map numEntry))))
 (hops:ops.length≤1000) (hke:k<e) (he:e<65536) (hkids:∀ kt∈[(s₀,t₀),(s₁,t₁),(s₂,t₂),(s₃,t₃)],kt.1.length=104) :
 ∃ q lp rp,Reaches b σ₁ (ops++[putNum e]) (.node r [(s₂,.node lp [(s₀,t₀),(s₁,t₁)] t₂)]
   (.node rp [(s₃,t₃),(numKey d,.leaf p ([a,c].map numEntry))] (.leaf q ([d,k,e].map numEntry)))) := by
 obtain ⟨q,t',hsep,hreach⟩:=h.put_full hops hke he hkids le_rfl
 have hfull:¬KeysFit 512
   ((Frame.last r [(s₀,t₀),(s₁,t₁),(s₂,t₂),(s₃,t₃)]).insertKeys (numKey d)):=by
  rw [keysFit_long_iff (insertKeys_long hkids (numKey_length d))]
  simp [Frame.insertKeys]
 cases hsep with
 | fits hfit=>exact absurd hfit hfull
 | @root f t1 t2 mid s key A B lp rp _ hcut hmid=>
  have hkids':(Frame.last r [(s₀,t₀),(s₁,t₁),(s₂,t₂),(s₃,t₃)]).insertKids
    (.leaf p ([a,c].map numEntry)) (numKey d) (.leaf q ([d,k,e].map numEntry)) =
    [(s₀,t₀),(s₁,t₁)]++(s₂,t₂)::[(s₃,t₃),(numKey d,.leaf p ([a,c].map numEntry))]:=
   rfl
  have hA:A.length=2:=by rw [hmid,hkids']; simp
  rw [hkids'] at hcut
  obtain ⟨rfl,hrest⟩:=append_inj hcut (by rw [hA]; rfl)
  obtain ⟨hmid',rfl⟩:=cons.inj hrest
  obtain ⟨rfl,rfl⟩:=Prod.mk.inj hmid'
  exact ⟨q,lp,rp,hreach⟩

end Full

lemma Reaches.erase_keep (h:Reaches b σ₁ ops (plugAll fs (.leaf p ((ns++[m]).map numEntry++[numEntry n]))))
 (hafter:pathMarksAfter fs=[]) (hlen:fs.length<64) (hops:ops.length≤1000) : Reaches b σ₁ (ops++[eraseNum n])
  (plugAll fs (.leaf p (ns.map numEntry++[numEntry m]))) := by
 obtain ⟨t',htree,hreach⟩:=h.erase hafter hlen hops
 have ht':t'=plugAll fs (.leaf p (ns.map numEntry++[numEntry m])):=by
  have hlist:(ns++[m]).map numEntry=ns.map numEntry++[numEntry m]:=by simp
  rw [hlist] at htree
  generalize hes:ns.map numEntry++[numEntry m]=es at htree
  cases htree with
  | keep _=>rfl
  | gone _=>simp at hes
 rwa [ht'] at hreach

lemma Reaches.erase_shrink {q:ℕ} {s₀ s₁:Bytes} {t₀ t₁:Tree}
 (h:Reaches b σ₁ ops (plugAll (.last q [(s₀,t₀),(s₁,t₁)]::fs) (.leaf p [numEntry m])))
 (hafter:pathMarksAfter fs=[]) (hlen:fs.length<63) (hops:ops.length≤1000) :
 Reaches b σ₁ (ops++[eraseNum m]) (plugAll fs (.node q [(s₀,t₀)] t₁)) := by
 have h':Reaches b σ₁ ops (plugAll (.last q [(s₀,t₀),(s₁,t₁)]::fs) (.leaf p (([]:List ℕ).map numEntry++[numEntry m]))):=h
 have hafter':pathMarksAfter (.last q [(s₀,t₀),(s₁,t₁)]::fs)=[]:=by
  rw [pathMarksAfter,hafter]
  rfl
 obtain ⟨t',htree,hreach⟩:=h'.erase hafter' (by rw [length_cons]; omega) hops
 cases htree with
 | keep hne=>simp at hne
 | gone hrem=>
  cases hrem with
  | @shrink f gs kids z hrem hne=>
   obtain ⟨rfl,rfl⟩:[(s₀,t₀)]=kids ∧ t₁=z:=by simpa [Frame.remove] using hrem
   exact hreach
  | collapse hrem=>simp [Frame.remove] at hrem
  | root hrem=>simp [Frame.remove] at hrem

/-- A leaf that loses its only entry, below a node with one cell that is not the root: the node
goes, and its other child takes its place. -/
theorem Reaches.erase_collapse {q r:ℕ} {s₀:Bytes} {t₀:Tree} {kids:List (Bytes × Tree)}
 (h:Reaches b σ₁ ops (plugAll [.last q [(s₀,t₀)],.last r kids] (.leaf p [numEntry m]))) (hops:ops.length≤1000) :
 Reaches b σ₁ (ops++[eraseNum m]) (.node r kids t₀) := by
 have h':Reaches b σ₁ ops (plugAll [.last q [(s₀,t₀)],.last r kids] (.leaf p (([]:List ℕ).map numEntry++[numEntry m]))):=h
 obtain ⟨t',htree,hreach⟩:=h'.erase rfl (by simp) hops
 cases htree with
 | keep hne=>simp at hne
 | gone hrem=>
  cases hrem with
  | @shrink f gs kids' z hrem hne=>
   have hnil:[]=kids' ∧ t₀=z:=by simpa [Frame.remove] using hrem
   exact absurd hnil.1.symm hne
  | @collapse f g gs z hrem=>
   obtain rfl:t₀=z:=by simpa [Frame.remove] using hrem
   exact hreach

end Edge

def roundOps (n:ℕ) : List Op :=
 [putNum n,putNum (n+1),putNum (n+2),putNum (n+3),putNum (n+4),putNum (n+5),
  putNum (n+6),putNum (n+7),putNum (n+8),eraseNum (n+8),eraseNum (n+7),
  eraseNum (n+6),eraseNum (n+5),eraseNum (n+4)]

section Round
variable {b:BTree} {σ₁:WriteTxn} {ops:List Op} {r q a c n:ℕ} {s:Bytes} {D:Tree}

lemma Reaches.grow {p m e:ℕ} (ns:List ℕ) {kids:List (Bytes × Tree)}
 (h:Reaches b σ₁ ops (.node r kids (.leaf p ((ns++[m]).map numEntry))))
 (hops:ops.length≤1000) (hme:m<e) (he:e<65536) (hns:ns.length<3) : Reaches b σ₁ (ops++[putNum e])
  (.node r kids (.leaf p ((ns++[m]++[e]).map numEntry))) := by
 have h':Reaches b σ₁ ops (plugAll [.last r kids] (.leaf p (ns.map numEntry++[numEntry m]))):=by
  simpa [plugAll,Frame.plug] using h
 have h2:=h'.put_fits rfl (by simp) hops hme he hns
 simpa [plugAll,Frame.plug] using h2

lemma long_concat {kids:List (Bytes × Tree)} {k:ℕ} {t:Tree} (hk:∀ kt∈kids,kt.1.length=104) :
 ∀ kt∈kids++[(numKey k,t)],kt.1.length=104 := by
 intro kt hm
 rcases mem_append.mp hm with hm | hm
 · exact hk kt hm
 · rw [mem_singleton.mp hm]
   exact numKey_length k

lemma Reaches.grow_split {p:ℕ} {kids:List (Bytes × Tree)}
 (h:Reaches b σ₁ ops (.node r kids (.leaf p ([n,n+1,n+2].map numEntry))))
 (hops:ops.length≤998) (hn:n+4<65536) (hkids:∀ kt∈kids,kt.1.length=104) (hlen:kids.length<4) :
 ∃ q,Reaches b σ₁ (ops++[putNum (n+3)]++[putNum (n+4)])
  (.node r (kids++[(numKey (n+2),.leaf p ([n,n+1].map numEntry))]) (.leaf q ([n+2,n+3,n+4].map numEntry))) := by
 have h1:=Reaches.grow [n,n+1] h (by omega) (Nat.lt_succ_self (n+2)) (by omega) (by simp)
 exact Reaches.put_split h1 (by simp; omega) (by omega) hn hkids hlen

lemma Reaches.round_puts (h:Reaches b σ₁ ops (.node r [(s,D)] (.leaf q ([a,c].map numEntry))))
 (hs:s.length=104) (hcn:c<n) (hn:n+8<65536) (hops:ops.length≤986) :
 ∃ lp rp q₂ q₃ q₄ q₅,Reaches b σ₁ (ops++[putNum n,putNum (n+1),putNum (n+2),
   putNum (n+3),putNum (n+4),putNum (n+5),putNum (n+6),putNum (n+7),putNum (n+8)])
  (.node r [(numKey (n+2),.node lp [(s,D),(numKey n,.leaf q ([a,c].map numEntry))] (.leaf q₂ ([n,n+1].map numEntry)))]
   (.node rp [(numKey (n+4),.leaf q₃ ([n+2,n+3].map numEntry)),(numKey (n+6),.leaf q₄ ([n+4,n+5].map numEntry))]
    (.leaf q₅ ([n+6,n+7,n+8].map numEntry)))) := by
 have hk1:∀ kt∈[(s,D)],kt.1.length=104:=by
  intro kt hm
  rw [mem_singleton.mp hm]
  exact hs
 have h1:=Reaches.grow [a] h (by omega) hcn (by omega) (by simp)
 have h2:=Reaches.grow [a,c] h1 (by simp; omega) (Nat.lt_succ_self n) (by omega) (by simp)
 obtain ⟨q₂,h3⟩:=Reaches.put_split h2 (by simp; omega) (Nat.lt_succ_self (n+1)) (by omega) hk1
  (by simp)
 have hk2:=long_concat (k:=n) (t:=.leaf q ([a,c].map numEntry)) hk1
 obtain ⟨q₃,h4⟩:=h3.grow_split (by simp; omega) (by omega) hk2 (by simp)
 have hk3:=long_concat (k:=n+2) (t:=.leaf q₂ ([n,n+1].map numEntry)) hk2
 obtain ⟨q₄,h5⟩:=h4.grow_split (by simp; omega) (by omega) hk3 (by simp)
 have hk4:=long_concat (k:=n+4) (t:=.leaf q₃ ([n+2,n+3].map numEntry)) hk3
 have h6:=Reaches.grow [n+4,n+5] h5 (by simp; omega) (Nat.lt_succ_self (n+6)) (by omega)
  (by simp)
 obtain ⟨q₅,lp,rp,h7⟩:=Reaches.put_root h6 (by simp; omega) (Nat.lt_succ_self (n+7)) hn hk4
 simp only [append_assoc] at h7
 exact ⟨lp,rp,q₂,q₃,q₄,q₅,h7⟩

lemma Reaches.round (h:Reaches b σ₁ ops (.node r [(s,D)] (.leaf q ([a,c].map numEntry))))
 (hs:s.length=104) (hcn:c<n) (hn:n+8<65536) (hops:ops.length≤986) : ∃ lp q₂ q₃,Reaches b σ₁ (ops++roundOps n)
  (.node r [(numKey (n+2),.node lp [(s,D),(numKey n,.leaf q ([a,c].map numEntry))] (.leaf q₂ ([n,n+1].map numEntry)))]
   (.leaf q₃ ([n+2,n+3].map numEntry))) := by
 obtain ⟨lp,rp,q₂,q₃,q₄,q₅,h1⟩:=h.round_puts hs hcn hn hops
 generalize hL:Tree.node lp [(s,D),(numKey n,.leaf q ([a,c].map numEntry))] (.leaf q₂ ([n,n+1].map numEntry))=L at h1
 generalize hT:Tree.leaf q₃ ([n+2,n+3].map numEntry)=T at h1
 have h2:Reaches b σ₁ _ (plugAll [.last rp [(numKey (n+4),T),
   (numKey (n+6),.leaf q₄ ([n+4,n+5].map numEntry))],.last r [(numKey (n+2),L)]]
   (.leaf q₅ (([n+6]++[n+7]).map numEntry++[numEntry (n+8)]))):=h1
 have h3:Reaches b σ₁ _ (plugAll [.last rp [(numKey (n+4),T),
   (numKey (n+6),.leaf q₄ ([n+4,n+5].map numEntry))],.last r [(numKey (n+2),L)]]
   (.leaf q₅ ((([]:List ℕ)++[n+6]).map numEntry++[numEntry (n+7)]))):=
  h2.erase_keep rfl (by simp) (by simp; omega)
 have h4:=h3.erase_keep rfl (by simp) (by simp; omega)
 have h5:=h4.erase_shrink rfl (by simp) (by simp; omega)
 have h6:Reaches b σ₁ _ (plugAll [.last rp [(numKey (n+4),T)],.last r [(numKey (n+2),L)]]
   (.leaf q₄ ((([]:List ℕ)++[n+4]).map numEntry++[numEntry (n+5)]))):=h5
 have h7:=h6.erase_keep rfl (by simp) (by simp; omega)
 have h8:=Reaches.erase_collapse h7 (by simp; omega)
 rw [← hL,← hT] at h8
 refine ⟨lp,q₂,q₃,?_⟩
 simpa only [roundOps,append_assoc,singleton_append,cons_append,nil_append] using h8

end Round

def towerOps : ℕ → List Op
 | 0=>[putNum 1,putNum 2,putNum 3,putNum 4,putNum 5,eraseNum 5]
 | k+1=>towerOps k++roundOps (5+4*k)

lemma towerOps_length (k:ℕ) : (towerOps k).length=6+14*k := by
 induction k with
 | zero=>rfl
 | succ k ih=>
  rw [towerOps,length_append,ih]
  simp [roundOps]
  omega

lemma replay_append (ops ops':List Op) (m:Bytes → Option Bytes) : replay (ops++ops') m=replay ops' (replay ops m) := by
 induction ops generalizing m with
 | nil=>rfl
 | cons op ops ih=>exact ih (op.apply m)

lemma replay_other {key:Bytes} (ops:List Op) (h:∀ op∈ops,key≠op.key) (m:Bytes → Option Bytes) : replay ops m key=m key := by
 induction ops generalizing m with
 | nil=>rfl
 | cons op ops ih=>
  rw [replay,ih (fun o ho=>h o (mem_cons_of_mem _ ho))]
  have hne:=h op mem_cons_self
  cases op with
  | put k v=>exact Function.update_of_ne hne _ _
  | insertIfAbsent k v=>
   simp only [Op.apply]
   split
   · rfl
   · exact Function.update_of_ne hne _ _
  | erase k=>exact Function.update_of_ne hne _ _

lemma numKey_one_ne {n:ℕ} (h:1<n) (hn:n<65536) : numKey 1≠numKey n :=
 (numKey_lt h hn).ne

lemma towerOps_first (k:ℕ) (hk:k≤63) : replay (towerOps k) (fun _=>none) (numKey 1)=some numValue := by
 induction k with
 | zero=>
  rw [towerOps,replay,replay_other]
  · exact Function.update_self (numKey 1) (some numValue) fun _=>none
  · simp only [forall_mem_cons,not_mem_nil,false_imp_iff,implies_true,and_true]
    refine ⟨?_,?_,?_,?_,?_⟩ <;> exact numKey_one_ne (by decide) (by decide)
 | succ k ih=>
  rw [towerOps,replay_append,replay_other]
  · exact ih (by omega)
  · simp only [roundOps,forall_mem_cons,not_mem_nil,false_imp_iff,implies_true,and_true]
    refine ⟨?_,?_,?_,?_,?_,?_,?_,?_,?_,?_,?_,?_,?_,?_⟩ <;> exact numKey_one_ne (by omega) (by omega)

lemma first_focus {fs:List Frame} {p:ℕ} {e:Entry} {es:List Entry}
 (h:(plugAll fs (.leaf p (e::es))).marks.Pairwise (· < ·)) (hbefore:pathMarksBefore fs=[]) : Focus fs e.key := by
 rw [plugAll_marks,hbefore,nil_append,Tree.marks,map_cons] at h
 refine ⟨?_,fun m hm=>(pairwise_append.mp h).2.2 _ mem_cons_self m hm⟩
 rw [hbefore]
 simp

section Tower
variable {σ₀:WriteTxn}

lemma tower_start (hP:Pages 512 σ₀ [] []) (hcount:σ₀.header.pageCount=1) :
 ∃ root σ₁ q₁ q₂,BTree.create 512 σ₀=(.ok root,σ₁) ∧ Reaches ⟨root,512⟩ σ₁ (towerOps 0)
   (.node root [(numKey 3,.leaf q₁ ([1,2].map numEntry))] (.leaf q₂ ([3,4].map numEntry))) := by
 obtain ⟨root,σ₁,free,hcreate,hat,-,hcnt⟩:=create_run hP (by rw [hcount]; decide)
 have h0:Reaches ⟨root,512⟩ σ₁ [] (plugAll [] (.leaf root [])):=
  ⟨[],σ₁,free,rfl,trivial,hat,rfl,rfl,by rw [hcount] at hcnt; exact hcnt⟩
 have hone:LeafFit 512 ([]++[numEntry 1]):=(leafFit_iff [1]).mpr (by decide)
 obtain ⟨t₁,htree,h1⟩:=h0.put_at (n:=1) (Focus.nil _) ⟨by simp,by simp,by simp,by simp⟩ (by simp) (by simp) (Or.inl hone)
 have ht₁:t₁=plugAll [] (.leaf root [numEntry 1]):=by
  generalize hes:([]:List Entry)++[numEntry 1]=es at htree hone
  cases htree with
  | fits _=>rw [← hes]; rfl
  | root l r hfull _=>exact absurd hone hfull
 rw [ht₁] at h1
 have h1':Reaches ⟨root,512⟩ σ₁ [putNum 1] (plugAll [] (.leaf root (([]:List ℕ).map numEntry++[numEntry 1]))):=h1
 have h2:=h1'.put_fits (n:=2) rfl (by simp) (by simp) (by decide) (by decide) (by simp)
 have h3:=h2.put_fits (n:=3) rfl (by simp) (by simp) (by decide) (by decide) (by simp)
 have h4:=h3.put_fits (n:=4) rfl (by simp) (by simp) (by decide) (by decide) (by simp)
 have hfull:¬LeafFit 512 ([1,2,3,4,5].map numEntry):=by
  rw [leafFit_iff]
  decide
 obtain ⟨t₅,htree,h5⟩:=h4.put (n:=5) rfl (by simp) (by simp) (by decide) (by decide)
  (Or.inr trivial)
 obtain ⟨l,r,ht₅⟩:∃ l r,t₅=.node root [(numKey 3,.leaf l ([1,2].map numEntry))]
   (.leaf r ([3,4,5].map numEntry)):=by
  have hlist:map numEntry ([]++[1]++[2]++[3])++[numEntry 4]++[numEntry 5] = [1,2,3,4,5].map numEntry:=rfl
  rw [hlist] at htree
  generalize hes:[1,2,3,4,5].map numEntry=es at htree hfull
  cases htree with
  | fits hfit=>exact absurd hfit hfull
  | @root p L R l r _ hcut=>
   obtain ⟨rfl,rfl,hsep⟩:=full_leaf hes.symm hcut
   rw [hsep]
   exact ⟨l,r,rfl⟩
 rw [ht₅] at h5
 have h5':Reaches ⟨root,512⟩ σ₁ _ (plugAll [.last root [(numKey 3,.leaf l ([1,2].map numEntry))]]
    (.leaf r (([3]++[4]).map numEntry++[numEntry 5]))):=h5
 have h6:=h5'.erase_keep rfl (by simp) (by simp)
 exact ⟨root,σ₁,l,r,hcreate,h6⟩

lemma tower (hP:Pages 512 σ₀ [] []) (hcount:σ₀.header.pageCount=1) (k:ℕ) (hk:k≤63) :
 ∃ root σ₁ q s fs p,BTree.create 512 σ₀=(.ok root,σ₁) ∧ s.length=104 ∧ fs.length=k ∧ pathMarksBefore fs=[] ∧
  Reaches ⟨root,512⟩ σ₁ (towerOps k) (.node root [(s,plugAll fs (.leaf p ([1,2].map numEntry)))]
    (.leaf q ([3+4*k,4+4*k].map numEntry))) := by
 induction k with
 | zero=>
  obtain ⟨root,σ₁,q₁,q₂,hcreate,h⟩:=tower_start hP hcount
  exact ⟨root,σ₁,q₂,_,[],q₁,hcreate,numKey_length 3,rfl,rfl,h⟩
 | succ k ih=>
  obtain ⟨root,σ₁,q,s,fs,p,hcreate,hs,hlen,hbefore,h⟩:=ih (by omega)
  obtain ⟨lp,q₂,q₃,h'⟩:=h.round (n:=5+4*k) hs (by omega) (by omega)
   (by rw [towerOps_length]; omega)
  have e1:3+4*(k+1)=5+4*k+2:=by ring
  have e2:4+4*(k+1)=5+4*k+3:=by ring
  rw [e1,e2]
  refine ⟨root,σ₁,q₃,numKey (5+4*k+2),fs++[.cell lp [] s [(numKey (5+4*k),.leaf q ([3+4*k,4+4*k].map numEntry))]
   (.leaf q₂ ([5+4*k,5+4*k+1].map numEntry))],p,hcreate,numKey_length _,?_,?_,?_⟩
  · rw [length_append,hlen,length_singleton]
  · rw [pathMarksBefore_append,hbefore]
    rfl
  · rw [plugAll_append]
    exact h'

end Tower

/-- On a fresh database of 512-byte pages there is a run of calls, each sound where it is made and
each returning ok, after which `get` of a key the run has put, and never erased, answers with the
error for a tree that is too deep. -/
theorem deep_tree_unreadable :
  ∃ root σ₁ rs σ,BTree.create 512 (freshTxn 512)=(.ok root,σ₁) ∧
   EachStep ⟨root,512⟩ (fun σ op=>op.Sound ⟨root,512⟩ σ) (towerOps 63) σ₁ ∧
   runOps ⟨root,512⟩ (towerOps 63) σ₁=(.ok rs,σ) ∧
   replay (towerOps 63) (fun _=>none) (numKey 1)=some numValue ∧
   BTree.get ⟨root,512⟩ (numKey 1) σ=(.error (corrupt "b-tree too deep"),σ) := by
 obtain ⟨root,σ₁,q,s,fs,p,hcreate,-,hlen,hbefore,rs,σ,free,hrun,heach,hat,-⟩:=
  tower (freshTxn_pages (by decide) (by decide)) rfl 63 le_rfl
 refine ⟨root,σ₁,rs,σ,hcreate,heach,hrun,towerOps_first 63 le_rfl,?_⟩
 set z:Tree:=.leaf q ([3+4*63,4+4*63].map numEntry)
 have htree:Tree.node root [(s,plugAll fs (.leaf p ([1,2].map numEntry)))] z =
   plugAll (fs++[.cell root [] s [] z]) (.leaf p ([1,2].map numEntry)):=by
  rw [plugAll_append]
  rfl
 rw [htree] at hat
 have hfocus:Focus (fs++[.cell root [] s [] z]) (numKey 1):=by
  refine first_focus (e:=numEntry 1) hat.sorted ?_
  rw [pathMarksBefore_append,hbefore]
  rfl
 have hfind:BTree.findLeaf ⟨root,512⟩ (numKey 1) σ =
   (.error (corrupt "b-tree too deep"),σ):=by
  have hpage:root=(plugAll (fs++[.cell root [] s [] z])
    (.leaf p ([1,2].map numEntry))).page:=by
   rw [← htree]
   rfl
  rw [BTree.findLeaf]
  nth_rewrite 1 [hpage]
  exact findLeafLoop_too_deep hat.pages (numKey 1) 64 _ p _ [] (by simp [hlen]) hat.facts
   (fun _ hq=>mem_append_left _ hq) hat.sorted hfocus
 rw [BTree.get,bind_of_error _ hfind]

end Archivum.TreeShape.Runs
