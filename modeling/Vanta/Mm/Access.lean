import Vanta.Mm.Faults

namespace Vanta.Mm
open Library Memory Kernel Function

def SwapUser (c : Scope) (k : Kernel) : Prop :=
  ∀ s v, c.live s → v < userPages → Swapped (k.leaf s v) → hasFlag (k.leaf s v) mapUser = true

/-- What a resolved fault at `va` has done. -/
inductive Serves (c : Scope) (hand : List Nat) (s va : Nat) (isWrite : Bool) (k k' : Kernel) : Prop
  | own (hwrite : isWrite = true) (hpresent : hasFlag (k.leaf s (va/pageSize)) flagPresent = true)
      (hcow : hasFlag (k.leaf s (va/pageSize)) mapCow = true)
      (hone : k.frames.refcounts (frameOf (k.leaf s (va/pageSize))) = 1)
      (heq : k' = k.setLeaf s (va/pageSize)
        ((k.leaf s (va/pageSize) &&& addressMask) ||| cowFlags (k.leaf s (va/pageSize))))
  | copy (hwrite : isWrite = true) (hpresent : hasFlag (k.leaf s (va/pageSize)) flagPresent = true)
      (hcow : hasFlag (k.leaf s (va/pageSize)) mapCow = true) (hprocs : k'.procs = k.procs) {f : Nat}
      (hputs : Puts c hand 1 s (va/pageSize) f (frameBits f ||| cowFlags (k.leaf s (va/pageSize)))
        (k.mem (frameOf (k.leaf s (va/pageSize)))) k k')
  | swapIn (hswapped : Swapped (k.leaf s (va/pageSize))) (hprocs : k'.procs = k.procs)
      (hcontent : SameContent c (fun _ _ => False) k k') {f : Nat}
      (hgets : Gets c hand 1 s (va/pageSize) f (restored f (k.leaf s (va/pageSize))) k k')
  | demand (hnot : hasFlag (k.leaf s (va/pageSize)) flagPresent = false)
      (hfree : Swapped (k.leaf s (va/pageSize)) → k.frames.freeFrames = 0) {w x : Bool}
      (hgrounds : Grounds k s va isWrite w x k'.procs) {f : Nat}
      (hgets : Gets c hand 6 s (va/pageSize) f (frameBits f ||| pteFlags w x ||| flagPresent) k k')

/-- What a fault that is not resolved has done: the stack may have grown without its page. -/
inductive Refuses (c : Scope) (hand : List Nat) (n s va : Nat) (k k' : Kernel) : Prop
  | same (hidle : Idle c hand n k k')
  | grown {p : Process} {m : ProcessMemoryMap} (hp : k.procs s = some p) (hregistered : p.registered = true)
      (hcan : p.memoryMap.canGrowStack va = true) (hgrow : p.memoryMap.growStackTo va = some m)
      (hidle : Idle c hand n (k.setMemoryMap s m) k')

section
variable {c : Scope} {hand : List Nat} {n m s v t f va : Nat} {k k' k'' : Kernel} {e : Entry} {isWrite : Bool}

lemma alignDown_mod (va : Nat) : alignDown va%pageSize = 0 := Nat.mul_mod_left _ _

lemma Kernel.memoryMap_some {m : ProcessMemoryMap} (h : k.memoryMap s = some m) :
    ∃ p, k.procs s = some p ∧ p.registered = true ∧ p.memoryMap = m := by
  unfold memoryMap at h
  split at h
  · rename_i p hp
    split_ifs at h with hr
    exact ⟨p,hp,hr,Option.some.inj h⟩
  · cases h

lemma Owned.setProcs (h : Owned c k hand) (procs : Nat → Option Process) : Owned c {k with procs := procs} hand :=
  h.congr rfl rfl (fun _ => rfl) h.tracked

section
variable (h : Owned c k hand) (hs : c.live s) (hva : va < userAddressLimit)
  (hlent : ¬c.lent s (va/pageSize)) (hnot : hasFlag (k.leaf s (va/pageSize)) flagPresent = false)

include h hs hva hlent hnot

lemma Kernel.demandVma_spec {m : ProcessMemoryMap} {p : Process} (hp : k.procs s = some p)
    (hr : p.registered = true) (hm : p.memoryMap = m) (hc : k.mapsCached s va isWrite = false)
    {r : Except Unit Bool} (hru : k.demandVma s va m isWrite = (k',r)) : match r with
      | .ok true => ∃ w x f, Grounds k s va isWrite w x k'.procs ∧
          Gets c hand 5 s (va/pageSize) f (frameBits f ||| pteFlags w x ||| flagPresent) k k'
      | .ok false => k' = k
      | .error _ => Idle c hand 5 k k' := by
  have hma : k.memoryMap s = some m := by simp [memoryMap,hp,hr,hm]
  have hdi := alignDown_div va
  rw [demandVma] at hru
  cases hf : m.findVma va with
  | none =>
    simp only [hf] at hru
    cases hru
    rfl
  | some vma =>
    simp only [hf] at hru
    cases hd : isWrite && !grants vma.flags vmaWrite with
    | true =>
      simp only [hd,if_true] at hru
      cases hru
      rfl
    | false =>
      have hwr : isWrite = true → grants vma.flags vmaWrite = true := fun hw => by simpa [hw] using hd
      have hf' : p.memoryMap.findVma va = some vma := by rw [hm,hf]
      simp only [hd,Bool.false_eq_true,if_false] at hru
      cases hb : vma.backing with
      | deviceMmio _ =>
        simp only [hb] at hru
        cases hru
        rfl
      | anonymous =>
        simp only [hb] at hru
        have hsp := demandZero_spec h hs (alignDown_lt hva) (alignDown_mod va) (by rwa [hdi]) (by rwa [hdi])
          _ _ hru
        cases r with
        | error _ => exact hsp.1.mono (by omega)
        | ok b =>
          obtain ⟨rfl,hpr,f,hpu⟩ := hsp
          rw [hdi] at hpu
          exact ⟨_,_,f,hpr ▸ .area hp hr hf' hwr,hpu.toGets.mono (by omega)⟩
      | fileBacked mountId inode offset fileSize shared =>
        have hpri : shared = false ∧ isWrite = true := by
          simpa [mapsCached,hma,hf,hb] using hc
        obtain ⟨rfl,rfl⟩ := hpri
        simp only [hb] at hru
        have hsp := demandPrivate_spec h hs (alignDown_lt hva) (alignDown_mod va) (by rwa [hdi]) hru
        cases r with
        | error _ => exact hsp
        | ok b =>
          obtain ⟨rfl,hpr,f,hg⟩ := hsp
          rw [hdi] at hg
          exact ⟨_,_,f,hpr ▸ .area hp hr hf' hwr,hg⟩

lemma Kernel.resolveDemandPage_spec (hc : k.mapsCached s va isWrite = false) {r : Except Unit Bool}
    (hru : k.resolveDemandPage s va isWrite = (k',r)) : match r with
      | .ok true => ∃ w x f, Grounds k s va isWrite w x k'.procs ∧
          Gets c hand 5 s (va/pageSize) f (frameBits f ||| pteFlags w x ||| flagPresent) k k'
      | _ => Refuses c hand 5 s va k k' := by
  have hd := alignDown_div va
  rw [resolveDemandPage,if_neg (by omega)] at hru
  cases hma : k.memoryMap s with
  | none =>
    simp only [hma] at hru
    cases hru
    exact .same ((Idle.refl h).mono (by omega))
  | some m =>
    obtain ⟨p,hp,hr,hm⟩ := memoryMap_some hma
    simp only [hma] at hru
    cases hgr : (if m.canGrowStack va then m.growStackTo va else none) with
    | none =>
      simp only [hgr] at hru
      have hsp := demandVma_spec h hs hva hlent hnot hp hr hm hc hru
      match r with
      | .ok true => exact hsp
      | .ok false =>
        obtain rfl : k' = k := hsp
        exact .same ((Idle.refl h).mono (by omega))
      | .error _ => exact .same (hsp.mono (by omega))
    | some grown =>
      have hca : m.canGrowStack va = true ∧ m.growStackTo va = some grown := by
        split_ifs at hgr with hca
        exact ⟨hca,hgr⟩
      simp only [hgr] at hru
      have hsp := demandZero_spec (h.setProcs _) hs (alignDown_lt hva) (alignDown_mod va) (by rwa [hd])
        (by rw [hd]; exact hnot) true false hru
      match r with
      | .error _ => exact .grown hp hr (hm ▸ hca.1) (hm ▸ hca.2) (hsp.1.mono (by omega))
      | .ok b =>
        obtain ⟨rfl,hpr,f,hpu⟩ := hsp
        rw [hd] at hpu
        have hg : Grounds k s va isWrite true false k'.procs :=
          hpr.symm ▸ .stack hp hr (hm ▸ hca.1) (hm ▸ hca.2)
        refine ⟨_,_,f,hg,?_⟩
        exact (hpu.toGets.after (n := 0) (.procs _) (.of_eq rfl rfl rfl rfl) id).mono (by omega)

end

lemma Idle.leaf_eq (h : Idle c hand n k k') (hs : c.live s) (hv : v < userPages)
    (hnot : hasFlag (k.leaf s v) flagPresent = false) : k'.leaf s v = k.leaf s v :=
  (h.around.leaf s v hs hv (fun hf => hf)).of_absent hnot

lemma Kernel.mapsCached_congr (hp : k'.procs = k.procs) (s va : Nat) (isWrite : Bool) :
    k'.mapsCached s va isWrite = k.mapsCached s va isWrite := by
  simp only [mapsCached,memoryMap,hp]

lemma Grounds.congr {w x : Bool} {procs : Nat → Option Process} (h : Grounds k' s va isWrite w x procs)
    (hpr : k'.procs = k.procs) : Grounds k s va isWrite w x procs := by
  cases h with
  | stack hp hr hc hg =>
    simp only [pushDynamic,setMemoryMap,modifyProc,hpr] at hp ⊢
    exact .stack hp hr hc hg
  | area hp hr hf hw =>
    simp only [pushDynamic,modifyProc,hpr] at hp ⊢
    exact .area hp hr hf hw

lemma Idle.setProcs (h : Idle c hand n k k') (procs : Nat → Option Process) :
    Idle c hand n {k with procs := procs} {k' with procs := procs} where
  owned := h.owned.setProcs procs
  around := by
    have hb : Around c 0 (fun _ _ => False) {k with procs := procs} k := .procs k.procs
    have := (hb.trans h.around).trans (.procs procs)
    rwa [Nat.zero_add,Nat.add_zero] at this
  content := by
    have hb : SameContent c (fun _ _ => False) {k with procs := procs} k := .of_eq rfl rfl rfl rfl
    exact (hb.trans h.content).trans (.of_eq rfl rfl rfl rfl)
  procs := rfl

lemma Refuses.after (h : Refuses c hand m s va k' k'') (hi : Idle c hand n k k') : Refuses c hand (n+m) s va k k'' := by
  cases h with
  | same hi' => exact .same (hi.trans hi')
  | grown hp hr hc hg hi' =>
    rw [hi.procs] at hp
    refine .grown hp hr hc hg ?_
    rw [setMemoryMap,modifyProc,hi.procs] at hi'
    exact (hi.setProcs _).trans hi'

lemma Serves.after_idle {k1 : Kernel} (hi : Idle c hand 1 k k1) (hs : c.live s) (hva : va < userAddressLimit)
    (hlent : ¬c.lent s (va/pageSize)) (hnot : hasFlag (k.leaf s (va/pageSize)) flagPresent = false)
    (hc : k.mapsCached s va isWrite = false)
    (hfr : Swapped (k.leaf s (va/pageSize)) → k.frames.freeFrames = 0) {r : FaultOutcome}
    (hr : (match k1.resolveDemandPage s va isWrite with
      | (k,.ok true) => (k,FaultOutcome.resolved)
      | (k,_) => (k,.segv)) = (k',r)) :
    (r = .resolved → Serves c hand s va isWrite k k') ∧ (r ≠ .resolved → Refuses c hand 6 s va k k') := by
  have hl := hi.leaf_eq hs (div_lt_userPages hva) hnot
  have hc1 : k1.mapsCached s va isWrite = false := by rwa [mapsCached_congr hi.procs]
  rcases hre : k1.resolveDemandPage s va isWrite with ⟨k2,a⟩
  have hsp := resolveDemandPage_spec hi.owned hs hva hlent (by rwa [hl]) hc1 hre
  rw [hre] at hr
  match a with
  | .ok true =>
    cases hr
    obtain ⟨w,x,f,hg,hge⟩ := hsp
    have hg' := hge.after (hi.around.mono (le_refl _) (fun _ _ hf => hf.elim))
      (hi.content.mono (fun _ _ hf => hf.elim)) (fun ho => hl ▸ ho)
    exact ⟨fun _ => .demand hnot hfr (hg.congr hi.procs) hg',fun hn => absurd rfl hn⟩
  | .ok false =>
    cases hr
    exact ⟨fun he => (by cases he),fun _ => Refuses.after hsp hi⟩
  | .error _ =>
    cases hr
    exact ⟨fun he => (by cases he),fun _ => Refuses.after hsp hi⟩

lemma Kernel.pageFault_spec {present : Bool} (h : Owned c k hand) (hswap : SwapUser c k) (hs : c.live s)
    (hva : va < userAddressLimit) (hlent : ¬c.lent s (va/pageSize))
    (hp : hasFlag (k.leaf s (va/pageSize)) flagPresent = present)
    (hc : present = false → k.mapsCached s va isWrite = false) {r : FaultOutcome}
    (hr : k.pageFault s va isWrite present = (k',r)) :
    (r = .resolved → Serves c hand s va isWrite k k') ∧ (r ≠ .resolved → Refuses c hand 6 s va k k') := by
  have hv := div_lt_userPages hva
  rw [pageFault] at hr
  by_cases hcow : isWrite = true ∧ present = true ∧ hasFlag (k.leaf s (va/pageSize)) mapCow = true
  · obtain ⟨rfl,rfl,hcow⟩ := hcow
    rcases hre : k.resolveCowPage s va with ⟨k1,a⟩
    have hsp := resolveCowPage_spec h hs hva hlent hp hcow hre
    rw [hre] at hr
    match a with
    | .error _ =>
      cases hr
      exact ⟨fun he => (by cases he),fun _ => .same (hsp.1.mono (by omega))⟩
    | .ok b =>
      obtain ⟨rfl,hsp⟩ := hsp
      cases hr
      refine ⟨fun _ => ?_,fun hne => absurd rfl hne⟩
      rcases hsp with ⟨ho,he⟩ | ⟨hpr,f,hpu⟩
      · exact .own rfl hp hcow ho he
      · exact .copy rfl hp hcow hpr hpu
  have hn : (if isWrite then k.resolveCowPage s va else (k,.ok false)) = (k,.ok false) := by
    split_ifs with hw
    · refine resolveCowPage_eq h hs hva ?_
      by_contra hb
      simp only [not_or,Bool.not_eq_false] at hb
      exact hcow ⟨hw,hp ▸ hb.1,hb.2⟩
    · rfl
  simp only [hn] at hr
  cases present with
  | true =>
    cases hr
    exact ⟨fun he => (by cases he),fun _ => .same ((Idle.refl h).mono (by omega))⟩
  | false =>
    simp only [Bool.false_eq_true,if_false,hva,if_true] at hr
    by_cases hswa : Swapped (k.leaf s (va/pageSize))
    · rcases hre : k.resolveSwappedPage s va with ⟨k1,a⟩
      have hsp := resolveSwappedPage_spec h hs hva hlent hswa (hswap s _ hs hv hswa) hre
      rw [hre] at hr
      match a with
      | .ok b =>
        obtain ⟨rfl,hpr,hco,f,hg⟩ := hsp
        cases hr
        exact ⟨fun _ => .swapIn hswa hpr hco hg,fun hne => absurd rfl hne⟩
      | .error _ => exact Serves.after_idle hsp.1 hs hva hlent hp (hc rfl) (fun _ => hsp.2) hr
    · rw [resolveSwappedPage_eq h hs hva hswa] at hr
      exact Serves.after_idle ((Idle.refl h).mono (by omega)) hs hva hlent hp (hc rfl)
        (fun hsw => absurd hsw hswa) hr

structure Served (c : Scope) (hand : List Nat) (s v : Nat) (k k' : Kernel) : Prop where
  owned : Owned c k' hand
  around : Around c 6 (At s v) k k'
  present : hasFlag (k'.leaf s v) flagPresent = true
  cow : hasFlag (k'.leaf s v) mapCow = false

lemma pteFlags_rights (f : Nat) (w x : Bool) : hasFlag (frameBits f ||| pteFlags w x ||| flagPresent) mapWritable = w ∧
      hasFlag (frameBits f ||| pteFlags w x ||| flagPresent) mapNoExecute = !x ∧
      hasFlag (frameBits f ||| pteFlags w x ||| flagPresent) mapCow = false := by
  have hf : ∀ w x, hasFlag (pteFlags w x) mapWritable = w ∧ hasFlag (pteFlags w x) mapNoExecute = !x ∧
      hasFlag (pteFlags w x) mapCow = false := by decide
  obtain ⟨h1,h2,h3⟩ := hf w x
  rw [mapWritable] at h1
  rw [mapNoExecute] at h2
  rw [mapCow] at h3
  simp (disch := decide) [mapWritable,mapNoExecute,mapCow,flagPresent,hasFlag_frameBits,hasFlag_bit_bit,h1,h2,h3]

lemma restored_cow (f : Nat) (e : Entry) : hasFlag (restored f e) mapCow = false := by
  simp (disch := decide) [restored,mapCow,flagPresent,mapWritable,mapUser,mapNoExecute,hasFlag_frameBits,hasFlag_bit_bit]

lemma ownedCow_flags {e : Entry} (hp : hasFlag e flagPresent = true) (hu : hasFlag e mapUser = true) :
    hasFlag ((e &&& addressMask) ||| cowFlags e) flagPresent = true ∧
      frameOf ((e &&& addressMask) ||| cowFlags e) = frameOf e ∧
      hasFlag ((e &&& addressMask) ||| cowFlags e) mapUser = true ∧
      hasFlag ((e &&& addressMask) ||| cowFlags e) mapWritable = true ∧
      hasFlag ((e &&& addressMask) ||| cowFlags e) mapCow = false := by
  obtain ⟨hw,hc⟩ := cowFlags_writable e
  refine ⟨?_,?_,?_,?_,?_⟩
  · rw [flagPresent,hasFlag_or,hasFlag_cowFlags e (by decide) (by decide) (by decide),← flagPresent,hp]
    simp
  · rw [frameOf_or (noAddress_cowFlags e),frameOf_address]
  · rw [mapUser,hasFlag_or,hasFlag_cowFlags e (by decide) (by decide) (by decide),← mapUser,hu]
    simp
  · rw [mapWritable] at hw ⊢
    rw [hasFlag_or,hw]
    simp
  · rw [mapCow] at hc ⊢
    rw [hasFlag_or,hc,hasFlag_address _ (by decide)]
    rfl

lemma Gets.served (h : Gets c hand n s v f e k k') (hn : n ≤ 6) (hc : hasFlag e mapCow = false) :
    Served c hand s v k k' :=
  ⟨h.owned,h.around.mono hn (fun _ _ => id),by rw [h.leaf]; exact h.present,by rw [h.leaf]; exact hc⟩

lemma Serves.served (h : Serves c hand s va isWrite k k') (ho : Owned c k hand) (hs : c.live s)
    (hva : va < userAddressLimit) : Served c hand s (va/pageSize) k k' := by
  have hv := div_lt_userPages hva
  cases h with
  | own hw hp hco hon he =>
    obtain ⟨t,ht⟩ := leafTable_of_flag hp
    obtain ⟨h1,h2,h3,-,h5⟩ := ownedCow_flags hp (ho.user s _ hs hv hp)
    have hl := ho.leaf_setLeaf_self hs hv ht ((k.leaf s (va/pageSize) &&& addressMask) |||
      cowFlags (k.leaf s (va/pageSize)))
    subst he
    refine ⟨?_,(Around.setLeaf ho hs hv _).mono (by omega) (fun _ _ => id),by rw [hl]; exact h1,by rw [hl]; exact h5⟩
    rw [setLeaf_eq ht]
    exact ho.writeLeaf_keep hs hv ht (fun _ => ⟨hp,h2,h3⟩)
  | copy hw hp hco hpr hpu =>
    refine hpu.toGets.served (by omega) ?_
    rw [mapCow,hasFlag_or,hasFlag_frameBits _ (by decide),← mapCow,(cowFlags_writable _).2]
    rfl
  | swapIn hsw hpr hc hge => exact hge.served (by omega) (restored_cow _ _)
  | demand hnot hf hg hge => exact hge.served (by omega) (pteFlags_rights _ _ _).2.2

lemma Owned.pathEntries_spec (h : Owned c k hand) (hs : c.live s) (path rest : List Nat) (j : Nat)
    (hp : UserPath (path++rest)) (hd : descend k.tables nextTable s path = some t) :
    match descend k.tables nextTable t rest with
      | none => pathEntries k.tables t (rest++[j]) = none
      | some x => if hasFlag (k.tables x j) flagPresent then
          ∃ es, pathEntries k.tables t (rest++[j]) = some (es++[k.tables x j]) ∧
            ∀ e ∈ es, ∃ f, UpperEntry e f
        else pathEntries k.tables t (rest++[j]) = none := by
  induction rest generalizing path t with
  | nil =>
    simp only [descend_nil,List.nil_append,pathEntries]
    split_ifs with hpr
    · exact ⟨[],rfl,by simp⟩
    · rfl
  | cons i rest ih =>
    have hp' : UserPath ((path++[i])++rest) := by simpa using hp
    have hpi := hp'.of_prefix (List.prefix_append (path++[i]) rest)
    simp only [descend,List.cons_append,pathEntries]
    cases hpr : hasFlag (k.tables t i) flagPresent with
    | false => simp [nextTable,hpr]
    | true =>
      obtain ⟨f,he⟩ := h.upper s path i t hs hpi hd hpr
      have hn := he.next
      have hst : descend k.tables nextTable s (path++[i]) = some f := by
        rw [descend_concat,hd,Option.bind_some,hn]
      have hr := ih (path++[i]) hp' hst
      rw [hn,(nextTable_some hn).2.2]
      simp only [Option.bind_some,if_true]
      cases hx : descend k.tables nextTable f rest with
      | none =>
        simp only [hx] at hr
        simp [hr]
      | some x =>
        simp only [hx] at hr ⊢
        split_ifs at hr ⊢ with hl
        · obtain ⟨es,hes,ha⟩ := hr
          refine ⟨k.tables t i::es,by simp [hes],fun e hm => ?_⟩
          rcases List.mem_cons.1 hm with rfl | hm
          · exact ⟨f,he⟩
          · exact ha e hm
        · simp [hr]

lemma permits_upperEntry {e : Entry} {f : Nat} (kind : AccessKind) (h : UpperEntry e f) : permits kind e = true := by
  obtain ⟨-,hu,hw,hx,-⟩ := h.flags
  cases kind <;> simp [permits,hu,hw,hx]

lemma Owned.walk_page (h : Owned c k hand) (hs : c.live s) (hva : va < userAddressLimit) :
    if hasFlag (k.leaf s (va/pageSize)) flagPresent then
      ∃ path t, pathEntries k.tables s (upperIndices va++[indexPt va]) = some path ∧
        k.leafTable s (va/pageSize) = some t ∧ ∀ kind, path.all (permits kind) = permits kind (k.leaf s (va/pageSize))
    else pathEntries k.tables s (upperIndices va++[indexPt va]) = none := by
  have hpa := h.pathEntries_spec hs [] (vpath (va/pageSize)) (indexPt va) (vpath_user (div_lt_userPages hva)) rfl
  rw [← upperIndices_eq] at hpa
  cases ht : k.leafTable s (va/pageSize) with
  | none =>
    have hd : descend k.tables nextTable s (upperIndices va) = none := by
      rw [upperIndices_eq]
      exact ht
    rw [hd] at hpa
    rw [if_neg (by simp [(leaf_absent ht).1])]
    exact hpa
  | some t =>
    have hd : descend k.tables nextTable s (upperIndices va) = some t := by
      rw [upperIndices_eq]
      exact ht
    rw [hd] at hpa
    have hl : k.leaf s (va/pageSize) = k.tables t (indexPt va) := by rw [leaf_eq ht,indexPt_eq]
    rw [hl]
    simp only at hpa
    split_ifs at hpa ⊢ with hp
    · obtain ⟨es,hes,ha⟩ := hpa
      refine ⟨_,t,hes,rfl,fun kind => ?_⟩
      have he' : es.all (permits kind) = true := by
        rw [List.all_eq_true]
        intro e he
        obtain ⟨f,hf⟩ := ha e he
        exact permits_upperEntry kind hf
      simp [he']
    · exact hpa

end

def Kernel.touch (k : Kernel) (s va : Nat) (kind : AccessKind) (value : UInt8) : Kernel × UInt8 :=
  let e := k.leaf s (va/pageSize)
  match kind with
  | .write =>
    ({k.setLeaf s (va/pageSize) (e ||| flagAccessed ||| flagDirty) with
        mem := update k.mem (frameOf e) (update (k.mem (frameOf e)) (va%pageSize) value)},value)
  | _ => (k.setLeaf s (va/pageSize) (e ||| flagAccessed),k.mem (frameOf e) (va%pageSize))

/-- What an access has done: at most one fault, then the access itself. -/
inductive Accesses (c : Scope) (hand : List Nat) (s va : Nat) (kind : AccessKind) (value : UInt8) (k k' : Kernel) :
    AccessResult → Prop
  | done {k₁ : Kernel} (hserves : k₁ = k ∨ Serves c hand s va (kind == .write) k k₁)
      (hpresent : hasFlag (k₁.leaf s (va/pageSize)) flagPresent = true)
      (hpermits : permits kind (k₁.leaf s (va/pageSize)) = true) (heq : k' = (k₁.touch s va kind value).1) :
      Accesses c hand s va kind value k k' (.done (k₁.touch s va kind value).2)
  | killed (hserves : Serves c hand s va (kind == .write) k k')
      (hdenied : permits kind (k'.leaf s (va/pageSize)) = false) : Accesses c hand s va kind value k k' .segv
  | refused (hrefuses : Refuses c hand 6 s va k k') {r : AccessResult} (hr : r = .segv ∨ r = .panic) :
      Accesses c hand s va kind value k k' r

section
variable {c : Scope} {hand : List Nat} {s t va : Nat} {k k' : Kernel} {kind : AccessKind} {value : UInt8}

lemma Kernel.perform_eq (ht : k.leafTable s (va/pageSize) = some t) :
    k.perform t va kind value = k.touch s va kind value := by
  simp only [perform,touch,indexPt_eq,← leaf_eq ht,setLeaf_eq ht]
  rfl

lemma Kernel.accessLoop_succ (h : Owned c k hand) (hs : c.live s) (hva : va < userAddressLimit) (fuel : Nat) :
    accessLoop s va kind value (fuel+1) k =
      if hasFlag (k.leaf s (va/pageSize)) flagPresent && permits kind (k.leaf s (va/pageSize)) then
        ((k.touch s va kind value).1,.done (k.touch s va kind value).2) else
        match k.pageFault s va (kind == .write) (hasFlag (k.leaf s (va/pageSize)) flagPresent) with
        | (k,.resolved) => accessLoop s va kind value fuel k
        | (k,.segv) => (k,.segv)
        | (k,.panic) => (k,.panic) := by
  have hw := h.walk_page hs hva
  rw [accessLoop,h.pteLocation_eq hs hva]
  split_ifs at hw with hp
  · obtain ⟨path,t,hpa,ht,ha⟩ := hw
    rewrite [hpa,ht,hp,Bool.true_and,← ha,← perform_eq ht]
    rfl
  · rw [Bool.not_eq_true] at hp
    rewrite [hw,hp,Bool.false_and,if_neg (by decide)]
    rfl

lemma Kernel.pageFault_denied (h : Owned c k hand) (hs : c.live s) (hva : va < userAddressLimit) (isWrite : Bool)
    (hc : hasFlag (k.leaf s (va/pageSize)) mapCow = false) : k.pageFault s va isWrite true = (k,.segv) := by
  have hn : (if isWrite then k.resolveCowPage s va else (k,.ok false)) = (k,.ok false) := by
    split_ifs
    · exact resolveCowPage_eq h hs hva (.inr hc)
    · rfl
  rw [pageFault,hn]
  rfl

lemma Kernel.access_spec (h : Owned c k hand) (hsw : SwapUser c k) (hs : c.live s) (hva : va < userAddressLimit)
    (hlent : ¬c.lent s (va/pageSize)) (hc : hasFlag (k.leaf s (va/pageSize)) flagPresent = false →
      k.mapsCached s va (kind == .write) = false) {r : AccessResult} (hru : k.access s va kind value = (k',r)) :
    Accesses c hand s va kind value k k' r := by
  rw [access,accessLoop_succ h hs hva] at hru
  split_ifs at hru with hp
  · cases hru
    rw [Bool.and_eq_true] at hp
    exact .done (.inl rfl) hp.1 hp.2 rfl
  rcases hf : k.pageFault s va (kind == .write) (hasFlag (k.leaf s (va/pageSize)) flagPresent) with ⟨k1,a⟩
  obtain ⟨hse,hr⟩ := pageFault_spec h hsw hs hva hlent rfl hc hf
  rw [hf] at hru
  match a with
  | .segv =>
    cases hru
    exact .refused (hr (by simp)) (.inl rfl)
  | .panic =>
    cases hru
    exact .refused (hr (by simp)) (.inr rfl)
  | .resolved =>
    have hse := hse rfl
    have hser := hse.served h hs hva
    simp only at hru
    rw [accessLoop_succ hser.owned hs hva,hser.present] at hru
    split_ifs at hru with hp'
    · cases hru
      exact .done (.inr hse) hser.present (by simpa using hp') rfl
    rw [pageFault_denied hser.owned hs hva _ hser.cow] at hru
    cases hru
    exact .killed hse (by simpa using hp')

def marked (kind : AccessKind) (e : Entry) : Entry :=
  match kind with
  | .write => e ||| flagAccessed ||| flagDirty
  | _ => e ||| flagAccessed

lemma marked_flag (kind : AccessKind) (e : Entry) {i : Nat} (hi : i < 64) (h5 : i ≠ 5) (h6 : i ≠ 6) :
    hasFlag (marked kind e) (bit i) = hasFlag e (bit i) := by
  have ha : hasFlag flagAccessed (bit i) = false := by
    rw [flagAccessed,hasFlag_bit_bit 5 hi,decide_eq_false_iff_not]
    omega
  have hd : hasFlag flagDirty (bit i) = false := by
    rw [flagDirty,hasFlag_bit_bit 6 hi,decide_eq_false_iff_not]
    omega
  cases kind <;> simp [marked,ha,hd]

lemma marked_frame (kind : AccessKind) (e : Entry) : frameOf (marked kind e) = frameOf e := by
  cases kind <;> simp only [marked]
  · exact frameOf_or (by decide)
  · rw [frameOf_or (by decide),frameOf_or (by decide)]
  · exact frameOf_or (by decide)

def stored (kind : AccessKind) (bytes : Nat → UInt8) (i : Nat) (value : UInt8) : Nat → UInt8 :=
  match kind with
  | .write => update bytes i value
  | _ => bytes

lemma stored_ne {bytes : Nat → UInt8} {i j : Nat} (h : i ≠ j) (value : UInt8) :
    stored kind bytes j value i = bytes i := by
  cases kind <;> simp [stored,h]

/-- An access to a page that is present. -/
structure Touches (c : Scope) (hand : List Nat) (s va : Nat) (kind : AccessKind) (value : UInt8) (k k' : Kernel) :
    Prop where
  owned : Owned c k' hand
  around : Around c 0 (At s (va/pageSize)) k k'
  leaf : ∀ s' v, c.live s' → v < userPages → k'.leaf s' v =
    if s' = s ∧ v = va/pageSize then marked kind (k.leaf s (va/pageSize)) else k.leaf s' v
  state : ∃ T, k' = {k with
    tables := T
    mem := update k.mem (frameOf (k.leaf s (va/pageSize)))
      (stored kind (k.mem (frameOf (k.leaf s (va/pageSize)))) (va%pageSize) value)}

lemma Kernel.touch_spec (h : Owned c k hand) (hs : c.live s) (hva : va < userAddressLimit)
    (hp : hasFlag (k.leaf s (va/pageSize)) flagPresent = true) (kind : AccessKind) (value : UInt8) :
    Touches c hand s va kind value k (k.touch s va kind value).1 := by
  have hv := div_lt_userPages hva
  obtain ⟨t,ht⟩ := leafTable_of_flag hp
  set e := marked kind (k.leaf s (va/pageSize)) with he
  have heq : (k.touch s va kind value).1 = {k.setLeaf s (va/pageSize) e with
      mem := update k.mem (frameOf (k.leaf s (va/pageSize)))
        (stored kind (k.mem (frameOf (k.leaf s (va/pageSize)))) (va%pageSize) value)} := by
    obtain ⟨T,hT⟩ := setLeaf_tables k s (va/pageSize) e
    cases kind with
    | write => rfl
    | read | execute =>
      rw [hT]
      simp only [touch,stored,update_eq_self]
      exact hT
  have ho : Owned c (k.setLeaf s (va/pageSize) e) hand := by
    rw [setLeaf_eq ht]
    refine h.writeLeaf_keep hs hv ht (fun _ => ⟨hp,marked_frame kind _,?_⟩)
    rw [he,mapUser,marked_flag kind _ (by decide) (by decide) (by decide)]
    exact h.user s _ hs hv hp
  rw [heq]
  exact {
    owned := ho.congr rfl rfl (fun _ => rfl) ho.tracked
    around := (Around.setLeaf h hs hv e).trans (.mem _)
    leaf := fun s' v hs' hv' => h.leaf_setLeaf hs hv ht e hs' hv'
    state := by
      obtain ⟨T,hT⟩ := setLeaf_tables k s (va/pageSize) e
      exact ⟨T,by rw [hT]⟩}

lemma Touches.content_eq {s' v : Nat} (h : Touches c hand s va kind value k k')
    (hpr : hasFlag (k.leaf s (va/pageSize)) flagPresent = true) (hs' : c.live s') (hv : v < userPages) :
    k'.content s' v = if hasFlag (k.leaf s' v) flagPresent = true ∧ frameOf (k.leaf s' v) = frameOf (k.leaf s (va/pageSize))
      then some (stored kind (k.mem (frameOf (k.leaf s (va/pageSize)))) (va%pageSize) value) else k.content s' v := by
  obtain ⟨T,hT⟩ := h.state
  have hm : k'.mem = update k.mem (frameOf (k.leaf s (va/pageSize)))
      (stored kind (k.mem (frameOf (k.leaf s (va/pageSize)))) (va%pageSize) value) := by rw [hT]
  have hd : k'.swapDisk = k.swapDisk := by rw [hT]
  rw [content,h.leaf s' v hs' hv]
  by_cases ha : s' = s ∧ v = va/pageSize
  · obtain ⟨rfl,rfl⟩ := ha
    have hn : hasFlag (marked kind (k.leaf s' (va/pageSize))) flagPresent = true := by
      rw [flagPresent,marked_flag kind _ (by decide) (by decide) (by decide)]
      exact hpr
    rw [if_pos ⟨rfl,rfl⟩,if_pos ⟨hpr,rfl⟩,contentOf_present hn,marked_frame,hm,update_self]
  · rw [if_neg ha,content,contentOf,contentOf]
    by_cases hp : hasFlag (k.leaf s' v) flagPresent = true
    · simp only [hp,if_true,true_and,hm,update_apply]
      split_ifs <;> rfl
    have hb : ¬(hasFlag (k.leaf s' v) flagPresent = true ∧
        frameOf (k.leaf s' v) = frameOf (k.leaf s (va/pageSize))) := fun hx => hp hx.1
    rw [if_neg hb,if_neg hp,if_neg hp,hd]

lemma Touches.slots {a : Option Nat} (h : Touches c hand s va kind value k k') (hs : c.live s)
    (hva : va < userAddressLimit) (hp : hasFlag (k.leaf s (va/pageSize)) flagPresent = true) (hsl : Slots c k a) :
    Slots c k' a := by
  obtain ⟨T,hT⟩ := h.state
  have hn : hasFlag (k'.leaf s (va/pageSize)) flagPresent = true := by
    rw [h.leaf s _ hs (div_lt_userPages hva),if_pos ⟨rfl,rfl⟩,flagPresent,
      marked_flag kind _ (by decide) (by decide) (by decide)]
    exact hp
  refine Exclusive.congr hsl (fun page slot => ?_) (fun slot => by simp only [Kernel.SlotUsed,hT])
  by_cases ha : page.1 = s ∧ page.2 = va/pageSize
  · have ho : ¬HoldsSlot c k page slot := fun hx => not_swapped_of_present (ha.1 ▸ ha.2 ▸ hp) hx.2.2.1
    have hnot : ¬HoldsSlot c k' page slot := fun hx => not_swapped_of_present (ha.1 ▸ ha.2 ▸ hn) hx.2.2.1
    exact iff_of_false hnot ho
  · refine and_congr_right (fun hl => and_congr_right (fun hv => ?_))
    rw [h.leaf page.1 page.2 hl hv,if_neg ha]

end
end Vanta.Mm
