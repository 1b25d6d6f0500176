import Vanta.Mm.Heap
import Vanta.Mm.VmaMap

namespace Vanta.Mm
open Library Memory Kernel List

/-- The calls that change the mappings of a process. -/
inductive MapOp where
  | brk (newBrk : Nat)
  | mmap (addr length prot flags : Nat) (backing : VmaBacking)
  | munmap (addr length : Nat)

namespace MapOp

def run (s : Nat) (k : Kernel) : MapOp → Kernel
  | .brk newBrk => (k.brk s newBrk).1
  | .mmap addr length prot flags backing => (k.mmapBacking s addr length prot flags backing).1
  | .munmap addr length => (k.munmap s addr length).1

def peak (s : Nat) (k : Kernel) (peak : Nat) : MapOp → Nat
  | .brk newBrk =>
    match k.procs s with
    | none => peak
    | some p => if newBrk = 0 ∨ newBrk < p.brkStart ∨ newBrk ≥ brkLimit then peak else max peak newBrk
  | _ => peak

/-- A hint that is taken lies outside of the heap, and `munmap` stays in the user half. -/
def apart (s peak : Nat) (k : Kernel) : MapOp → Bool
  | .brk _ => true
  | .mmap addr length _ flags _ =>
    match k.procs s with
    | none => true
    | some p => (alignLength length).all (fun aligned => flags.testBit 4 ||
        !hintOk p.memoryMap addr aligned || decide (alignUp peak ≤ addr ∨ addr+aligned ≤ p.brkStart))
  | .munmap addr length => (alignLength length).all (fun aligned => decide (addr+aligned ≤ userAddressLimit))

def Spares (c : Scope) (s : Nat) : MapOp → Prop
  | .brk _ => True
  | .mmap addr length _ flags _ => flags.testBit 4 = true → ∀ aligned, alignLength length = some aligned →
      ∀ v, addr/pageSize ≤ v → v < (addr+aligned)/pageSize → ¬c.lent s v
  | .munmap addr length => ∀ aligned, alignLength length = some aligned →
      ∀ v, addr/pageSize ≤ v → v < (addr+aligned)/pageSize → ¬c.lent s v

def apartRun (s : Nat) : List MapOp → Nat → Kernel → Bool
  | [], _, _ => true
  | op::ops, top, k => op.apart s top k && apartRun s ops (op.peak s k top) (op.run s k)

end MapOp

/-- Nothing else is at the `aligned` bytes from `base` on: no page of the page table, no area, neither
heap nor stack. -/
structure Unoccupied (s base aligned : Nat) (k : Kernel) (p : Process) : Prop where
  page_aligned : base%pageSize = 0 ∧ aligned%pageSize = 0
  pages : ∀ v, base ≤ v*pageSize → v*pageSize < base+aligned → ¬k.Maps s v
  areas : ∀ v ∈ p.memoryMap.areas, ¬v.Meets base (base+aligned)
  heap : ∀ va, p.brkStart ≤ va → va < alignUp p.brkCurrent → ¬(base ≤ va ∧ va < base+aligned)
  stack : base+aligned ≤ userStackStart

/-- The areas cover what is mapped outside of the heap, which ends below `peak`. -/
structure Placed (c : Scope) (hand : List Nat) (s start peak : Nat) (k : Kernel) (p : Process) : Prop where
  owned : Owned c k hand
  proc : k.procs s = some p
  wellFormed : p.memoryMap.WellFormed
  next : brkLimit ≤ p.mmapNext
  breaks : p.brkStart = start ∧ start ≤ p.brkCurrent ∧ p.brkCurrent ≤ peak
  mapped : ∀ v, v < userPages → k.Maps s v →
    (p.memoryMap.findVma (v*pageSize)).isSome ∨ start ≤ v*pageSize ∧ v*pageSize < alignUp peak
  bound : peak < brkLimit ∨ peak = start
  aligned : start%pageSize = 0

section
variable {c : Scope} {hand : List Nat} {s start peak va v addr length aligned base : Nat} {k k' : Kernel} {p : Process}
variable {m : ProcessMemoryMap}

lemma Kernel.findBase_spec {fuel first : Nat}
    (h : findBase m aligned fuel first = some base) : first ≤ base ∧ base+aligned < userStackStart := by
  induction fuel generalizing first with
  | zero => cases h
  | succ fuel ih =>
    rw [findBase] at h
    split_ifs at h with he
    have hf : first+aligned < userStackStart := by omega
    split at h
    · cases h
      exact ⟨le_refl _,hf⟩
    split_ifs at h with ho
    · obtain ⟨hl,hlt⟩ := ih h
      refine ⟨?_,hlt⟩
      simp only [alignDown,pageSize] at hl
      omega
    · cases h
      exact ⟨le_refl _,hf⟩

lemma page_lt_of_stack (hs : base+aligned ≤ userStackStart) (hv : v*pageSize < base+aligned) : v < userPages := by
  have hl : userStackStart ≤ userPages*pageSize := by decide
  exact lt_of_mul_lt_mul_right (by omega) (Nat.zero_le pageSize)

variable {backing : VmaBacking} {prot flags : Nat}

section
variable (h : Placed c hand s start peak k p)
include h

lemma Placed.heap_end (hv : start ≤ va) (hl : va < alignUp peak) : va < brkLimit := by
  rcases h.bound with hb | hb
  · exact lt_of_lt_of_le hl (alignUp_bounds hb).2
  have := alignUp_le_of_aligned h.aligned
  rw [hb] at hl
  omega

lemma Placed.unoccupied (hb : base%pageSize = 0)
    (hal : aligned%pageSize = 0) (ha : ∀ v ∈ p.memoryMap.areas, ¬v.Meets base (base+aligned))
    (hs : base+aligned ≤ userStackStart)
    (hh : ∀ va, start ≤ va → va < alignUp peak → ¬(base ≤ va ∧ va < base+aligned)) : Unoccupied s base aligned k p where
  page_aligned := ⟨hb,hal⟩
  pages := fun v h1 h2 hm => by
    rcases h.mapped v (page_lt_of_stack hs h2) hm with hf | ⟨hl,hhi⟩
    · obtain ⟨area,har⟩ := Option.isSome_iff_exists.1 hf
      obtain ⟨hme,hst,hsto⟩ := h.wellFormed.findVma_eq_some.1 har
      exact ha area hme ⟨by omega,by omega⟩
    · exact hh _ hl hhi ⟨h1,h2⟩
  areas := ha
  heap := fun va h1 h2 => hh va (h.breaks.1 ▸ h1) (lt_of_lt_of_le h2 (alignUp_mono h.breaks.2.2))
  stack := hs

variable {k1 : Kernel}

lemma Placed.fill {n first last top : Nat} {p' : Process}
    (hs : c.live s) (hf : Fills c hand n s first last k k1) (ht : peak ≤ top)
    (hi : ∀ v, first ≤ v → v < last → start ≤ v*pageSize ∧ v*pageSize < alignUp top)
    (hbo : top < brkLimit ∨ top = start) {procs : Nat → Option Process} (hp' : procs s = some p')
    (hma : p'.memoryMap = p.memoryMap) (hn : p'.mmapNext = p.mmapNext)
    (hb : p'.brkStart = start ∧ start ≤ p'.brkCurrent ∧ p'.brkCurrent ≤ top) :
    Placed c hand s start top {k1 with procs := procs} p' where
  owned := hf.owned.setProcs procs
  proc := hp'
  wellFormed := hma ▸ h.wellFormed
  next := hn ▸ h.next
  breaks := hb
  mapped := fun v hv hm => by
    by_cases hr : first ≤ v ∧ v < last
    · exact .inr (hi v hr.1 hr.2)
    have ho := (Maps.faded (hf.around.leaf s v hs hv (fun hx => hr ⟨hx.2.1,hx.2.2⟩))).1 hm
    rw [hma]
    refine (h.mapped v hv ho).imp_right (fun hx => ⟨hx.1,lt_of_lt_of_le hx.2 (alignUp_mono ht)⟩)
  bound := hbo
  aligned := h.aligned

lemma Placed.brk (hs : c.live s) (newBrk : Nat) :
    ∃ p', Placed c hand s start ((MapOp.brk newBrk).peak s k peak) (k.brk s newBrk).1 p' := by
  obtain ⟨hst,hlo,hh⟩ := h.breaks
  simp only [MapOp.peak,h.proc]
  split_ifs with ho
  · rw [brk_out h.proc ho]
    exact ⟨p,h⟩
  have hn : newBrk < brkLimit := by omega
  have hl : brkLimit ≤ userAddressLimit := by decide
  obtain ⟨-,hu⟩ := alignUp_bounds hn
  rcases hg : growHeap s (brkPages p.brkCurrent newBrk) k (alignUp p.brkCurrent) with ⟨k1,b⟩
  have hf : Fills c hand (4*brkPages p.brkCurrent newBrk) s (alignUp p.brkCurrent/pageSize)
      (alignUp p.brkCurrent/pageSize+brkPages p.brkCurrent newBrk) k k1 := by
    by_cases hle : p.brkCurrent ≤ newBrk
    · exact growHeap_fills _ h.owned hs (alignUp_mod _) (by rw [(brkPages_spec hle).2]; omega) hg
    rw [brkPages_eq_zero (by omega)] at hg ⊢
    cases hg
    exact .refl h.owned s _
  have hi : ∀ v, alignUp p.brkCurrent/pageSize ≤ v → v < alignUp p.brkCurrent/pageSize+brkPages p.brkCurrent newBrk →
      start ≤ v*pageSize ∧ v*pageSize < alignUp (max peak newBrk) := fun v h1 h2 => by
    have hle : p.brkCurrent ≤ newBrk := by
      by_contra hne
      rw [brkPages_eq_zero (by omega)] at h2
      omega
    have hc := (alignUp_bounds (lt_of_le_of_lt hle hn)).1
    have h3 := alignUp_div_mul p.brkCurrent
    have h4 := alignUp_div_mul newBrk
    have h5 : alignUp p.brkCurrent/pageSize*pageSize ≤ v*pageSize := Nat.mul_le_mul_right _ h1
    have h6 : v*pageSize < alignUp newBrk/pageSize*pageSize :=
      Nat.mul_lt_mul_of_pos_right (by rw [(brkPages_spec hle).1]; exact h2) (by decide)
    have h7 : alignUp newBrk ≤ alignUp (max peak newBrk) := alignUp_mono (le_max_right _ _)
    omega
  have hbo : max peak newBrk < brkLimit ∨ max peak newBrk = start := by
    rcases h.bound with hb | hb <;> omega
  obtain ⟨L,hL⟩ := hf.recorded.proc h.proc
  rw [brk_in h.proc ho hg]
  cases b with
  | true =>
    refine ⟨{p with mappings := L, brkCurrent := newBrk},h.fill hs hf (le_max_left _ _) hi hbo
      (by simp [hL]) rfl rfl ⟨hst,by simp only; omega,le_max_right _ _⟩⟩
  | false =>
    exact ⟨_,h.fill hs hf (le_max_left _ _) hi hbo hL rfl rfl ⟨hst,hlo,by simp only; omega⟩⟩

lemma Placed.drop (hs : c.live s) (had : addr%pageSize = 0) (ha : aligned%pageSize = 0)
    (hd : Drops c hand s (addr/pageSize) ((addr+aligned)/pageSize) k k1) :
    ∃ p', Placed c hand s start peak (k1.removeRange s addr (addr+aligned)) p' := by
  obtain ⟨L,hL⟩ := hd.recorded.proc h.proc
  have hst : (addr+aligned)%pageSize = 0 := by simp [Nat.add_mod,had,ha]
  refine ⟨{p with mappings := L, memoryMap := p.memoryMap.removeVmaRange addr (addr+aligned)},{
    owned := hd.owned.setProcs _
    proc := by simp [removeRange,modifyProc,hL]
    wellFormed := AreaEdit.remove.wellFormed h.wellFormed (by omega) had hst
    next := h.next
    breaks := h.breaks
    mapped := fun v hv hm => ?_
    bound := h.bound
    aligned := h.aligned}⟩
  by_cases hr : addr/pageSize ≤ v ∧ v < (addr+aligned)/pageSize
  · obtain ⟨h1,h2⟩ := hd.gone v hr.1 hr.2 hv
    have hm : k1.Maps s v := hm
    rcases hm with hp | hsw
    · rw [h1] at hp
      cases hp
    · rw [Swapped,h2] at hsw
      cases hsw.2
  · have ho : k.Maps s v := by
      have hsa := hd.same s v hs hv (fun hx => hr ⟨hx.2.1,hx.2.2⟩)
      rw [Kernel.Maps,← hsa]
      exact hm
    refine (h.mapped v hv ho).imp_left (fun hf => ?_)
    refine (AreaEdit.remove.isSome_apply h.wellFormed (by omega) had hst _).2 ⟨hf,fun hx => hr ?_⟩
    obtain ⟨-,h1,h2⟩ := hx
    simp only [pageSize] at *
    omega

lemma Placed.munmap (hs : c.live s)
    (ha : (MapOp.munmap addr length).apart s peak k = true) (hsp : (MapOp.munmap addr length).Spares c s) :
    ∃ p', Placed c hand s start peak (k.munmap s addr length).1 p' := by
  have hw : ∀ aligned, alignLength length = some aligned → addr+aligned ≤ userAddressLimit ∧
      ∀ v, addr/pageSize ≤ v → v < (addr+aligned)/pageSize → ¬c.lent s v := by
    intro aligned hl
    simp only [MapOp.apart,hl,Option.all_some,decide_eq_true_eq] at ha
    exact ⟨ha,hsp aligned hl⟩
  rcases hr : k.munmap s addr length with ⟨k',r⟩
  rcases munmap_spec h.owned hs hw hr with ⟨rfl,-⟩ | ⟨aligned,k1,-,had,hal,-,-,hd,rfl⟩
  · exact ⟨p,h⟩
  · obtain ⟨p',h'⟩ := h.drop hs had hal hd
    exact ⟨p',h'⟩

lemma Placed.insert {flags : VmaFlags} {stop : Nat} (hi : p.memoryMap.insertVma base stop flags backing = some m) :
    Placed c hand s start peak (k.setMemoryMap s m) {p with memoryMap := m} := by
  obtain ⟨hm,ha,-⟩ := h.wellFormed.insertVma hi
  exact {
    owned := h.owned.setProcs _
    proc := by simp [setMemoryMap,modifyProc,h.proc]
    wellFormed := hm
    next := h.next
    breaks := h.breaks
    mapped := fun v hv hma => (h.mapped v hv hma).imp_left (fun hf => by
      obtain ⟨area,har⟩ := Option.isSome_iff_exists.1 hf
      obtain ⟨hme,hin⟩ := h.wellFormed.findVma_eq_some.1 har
      exact Option.isSome_iff_exists.2 ⟨area,hm.findVma_eq_some.2 ⟨(ha area).2 (.inr hme),hin⟩⟩)
    bound := h.bound
    aligned := h.aligned}

variable {r : Except Unit Nat}

lemma Placed.mmapBase {fixed : Bool} (hs : c.live s) (ha : aligned%pageSize = 0)
    (hl : fixed = true → ∀ v, addr/pageSize ≤ v → v < (addr+aligned)/pageSize → ¬c.lent s v)
    (hh : fixed = false → hintOk p.memoryMap addr aligned = true → alignUp peak ≤ addr ∨ addr+aligned ≤ start)
    (hru : k.mmapBase s p addr aligned fixed = (k',r)) (hr : r = .ok base) :
    ∃ p', Placed c hand s start peak k' p' ∧ (fixed = false → p'.memoryMap = p.memoryMap ∧
      base+aligned ≤ userStackStart ∧ ∀ va, start ≤ va → va < alignUp peak → ¬(base ≤ va ∧ va < base+aligned)) := by
  rcases mmapBase_spec h.owned hs ha hl hru hr with
    ⟨rfl,-,had,-,k1,hd,rfl⟩ | ⟨rfl,rfl,ho,rfl⟩ | ⟨rfl,hf,rfl⟩
  · obtain ⟨p',h'⟩ := h.drop hs had ha hd
    exact ⟨p',h',nofun⟩
  · refine ⟨p,h,fun _ => ⟨rfl,?_,fun va h1 h2 => ?_⟩⟩
    · simp only [hintOk,Bool.and_eq_true,decide_eq_true_eq] at ho
      exact ho.1.2.2.2
    · have := hh rfl ho
      omega
  obtain ⟨hle,hlt⟩ := findBase_spec hf
  have hn := h.next
  refine ⟨{p with mmapNext := base+aligned},{
    owned := h.owned.setProcs _
    proc := by simp [modifyProc,h.proc]
    wellFormed := h.wellFormed
    next := by simp only; omega
    breaks := h.breaks
    mapped := h.mapped
    bound := h.bound
    aligned := h.aligned},fun _ => ⟨rfl,by omega,fun va h1 h2 => ?_⟩⟩
  have := h.heap_end h1 h2
  omega

lemma Placed.mmap (hs : c.live s) (hap : (MapOp.mmap addr length prot flags backing).apart s peak k = true)
    (hsp : (MapOp.mmap addr length prot flags backing).Spares c s)
    (hr : k.mmapBacking s addr length prot flags backing = (k',r)) :
    (∃ p', Placed c hand s start peak k' p') ∧ (∀ base, r = .ok base → flags.testBit 4 = false →
      ∃ aligned, alignLength length = some aligned ∧ Unoccupied s base aligned k p) := by
  simp only [mmapBacking,h.proc] at hr
  split_ifs at hr with hz
  · cases hr
    exact ⟨⟨p,h⟩,nofun⟩
  cases hl : alignLength length with
  | none =>
    rw [hl] at hr
    cases hr
    exact ⟨⟨p,h⟩,nofun⟩
  | some aligned =>
    obtain ⟨hm,-⟩ := alignLength_some hl
    simp only [hl] at hr
    rcases hba : k.mmapBase s p addr aligned (flags.testBit 4) with ⟨k1,a⟩
    simp only [hba] at hr
    cases a with
    | error e =>
      cases hr
      rw [mmapBase_error hba]
      exact ⟨⟨p,h⟩,nofun⟩
    | ok b =>
      simp only [MapOp.apart,h.proc,hl,Option.all_some,Bool.or_eq_true,Bool.not_eq_true',decide_eq_true_eq] at hap
      obtain ⟨p1,h1,hfr⟩ := h.mmapBase hs hm (fun hf => hsp hf aligned hl) (fun hf ho => by
        rcases hap with (ha | ha) | ha
        · rw [hf] at ha
          cases ha
        · rw [ho] at ha
          cases ha
        · rwa [← h.breaks.1]) hba rfl
      simp only [h1.proc] at hr
      cases hi : p1.memoryMap.insertVma b (b+aligned) (protFlags prot ||| backingFlags backing) backing with
      | none =>
        rw [hi] at hr
        cases hr
        exact ⟨⟨p1,h1⟩,nofun⟩
      | some m =>
        rw [hi] at hr
        cases hr
        refine ⟨⟨_,h1.insert hi⟩,fun base hb hfi => ⟨aligned,rfl,?_⟩⟩
        cases hb
        obtain ⟨hma,hst,hh⟩ := hfr hfi
        rw [hma] at hi
        obtain ⟨-,-,har⟩ := h.wellFormed.insertVma hi
        have hba : b%pageSize = 0 := by
          unfold ProcessMemoryMap.insertVma at hi
          split_ifs at hi with hbad
          omega
        exact h.unoccupied hba hm har hst hh

lemma Placed.step (hs : c.live s) (op : MapOp) (ha : op.apart s peak k = true) (hsp : op.Spares c s) :
    ∃ p', Placed c hand s start (op.peak s k peak) (op.run s k) p' := by
  cases op with
  | brk newBrk => exact h.brk hs newBrk
  | mmap addr length prot flags backing => exact (h.mmap hs ha hsp Prod.mk.eta.symm).1
  | munmap addr length => exact h.munmap hs ha hsp

end

lemma Placed.run (pre : List MapOp) {post : List MapOp} (h : Placed c hand s start peak k p) (hs : c.live s)
    (ha : MapOp.apartRun s (pre++.mmap addr length prot flags backing::post) peak k = true)
    (hsp : ∀ op ∈ pre++.mmap addr length prot flags backing::post, op.Spares c s) (hf : flags.testBit 4 = false)
    (ho : ((pre.foldl (MapOp.run s) k).mmapBacking s addr length prot flags backing).2 = .ok base) :
    ∃ p aligned, (pre.foldl (MapOp.run s) k).procs s = some p ∧ alignLength length = some aligned ∧
      Unoccupied s base aligned (pre.foldl (MapOp.run s) k) p := by
  induction pre generalizing k p peak with
  | nil =>
    simp only [nil_append,MapOp.apartRun,Bool.and_eq_true] at ha
    obtain ⟨aligned,hl,hfr⟩ := (h.mmap hs ha.1 (hsp _ (by simp)) Prod.mk.eta.symm).2 base ho hf
    exact ⟨p,aligned,h.proc,hl,hfr⟩
  | cons op pre ih =>
    simp only [cons_append,MapOp.apartRun,Bool.and_eq_true] at ha
    obtain ⟨p',h'⟩ := h.step hs op ha.1 (hsp op (by simp))
    exact ih h' ha.2 (fun op' hop => hsp op' (by simp only [cons_append,mem_cons,hop,or_true])) ho

/-- In a run of `brk`, `mmap` and `munmap` whose hints avoid the heap, a mapping that is not fixed goes
where nothing is. -/
theorem mmap_unoccupied (h : Owned c k hand) (hs : c.live s) (hp : k.procs s = some p)
    (hmap : p.memoryMap.WellFormed) (hnext : Kernel.brkLimit ≤ p.mmapNext) (haligned : p.brkStart%pageSize = 0)
    (hfresh : p.brkCurrent = p.brkStart)
    (hmapped : ∀ v, v < userPages → k.Maps s v → (p.memoryMap.findVma (v*pageSize)).isSome)
    (pre post : List MapOp) (addr length prot flags : Nat) (backing : VmaBacking)
    (hapart : MapOp.apartRun s (pre++.mmap addr length prot flags backing::post) p.brkStart k = true)
    (hspares : ∀ op ∈ pre++.mmap addr length prot flags backing::post, op.Spares c s)
    (hfixed : flags.testBit 4 = false)
    (hok : ((pre.foldl (MapOp.run s) k).mmapBacking s addr length prot flags backing).2 = .ok base) :
    ∃ q aligned, (pre.foldl (MapOp.run s) k).procs s = some q ∧ Kernel.alignLength length = some aligned ∧
      Unoccupied s base aligned (pre.foldl (MapOp.run s) k) q :=
  Placed.run pre ⟨h,hp,hmap,hnext,⟨rfl,by omega,by omega⟩,fun v hv hm => .inl (hmapped v hv hm),.inr rfl,haligned⟩ hs
    hapart hspares hfixed hok

end

lemma heapKernel_map : (ProcessMemoryMap.new userStackTop (userStackTop-16*1024*1024)).WellFormed :=
  ⟨fun _ he => absurd he not_mem_nil,fun _ hv => absurd hv not_mem_nil,
    fun _ hv => absurd hv not_mem_nil,fun _ hv => absurd hv not_mem_nil⟩

theorem mmap_unoccupied_here : ∃ q aligned, ([.brk 0x401000].foldl (MapOp.run 1) heapKernel).procs 1 = some q ∧
    Kernel.alignLength 0x1000 = some aligned ∧
    Unoccupied 1 0x10000000 aligned ([.brk 0x401000].foldl (MapOp.run 1) heapKernel) q := by
  obtain ⟨ho,-,hl,-⟩ := heapKernel_empty
  refine mmap_unoccupied ho (.inl rfl) rfl heapKernel_map (by decide) rfl rfl (fun v hv hm => ?_) _ [] 0x10000000
    0x1000 3 0x22 .anonymous (by decide +kernel) ?_ (by decide) (by decide +kernel)
  · rw [Kernel.Maps,hl v hv] at hm
    exact absurd hm (by decide)
  · simp [MapOp.Spares,Nat.testBit]

/-- A hint inside the heap is taken too: the areas do not cover the heap. -/
theorem hint_takes_heap_page : hasFlag ((heapKernel.brk 1 0x401000).1.leaf 1 0x400) flagPresent = true ∧
    (heapKernel.brk 1 0x401000).1.breakOf 1 = 0x401000 ∧
    ((heapKernel.brk 1 0x401000).1.mmapBacking 1 0x400000 0x1000 3 0x22 .anonymous).2 = .ok 0x400000 := by
  decide +kernel

end Vanta.Mm
