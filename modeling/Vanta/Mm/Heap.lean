import Vanta.Mm.Spaces

namespace Vanta.Mm
open Library Memory Kernel

inductive HeapOp where
  | brk (newBrk : Nat)
  | load (va : Nat)
  | store (va : Nat) (value : UInt8)

def HeapOp.run (s : Nat) (k : Kernel) : HeapOp → Kernel
  | .brk newBrk => (k.brk s newBrk).1
  | .load va => (k.access s va .read 0).1
  | .store va value => (k.access s va .write value).1

def Kernel.breakOf (k : Kernel) (s : Nat) : Nat :=
  match k.procs s with
  | none => 0
  | some p => p.brkCurrent

def brkPages (current new : Nat) : Nat := (alignUp new-alignUp current)/pageSize

/-- The break is raised only from its highest value so far, `peak`, and by one page unless frames
suffice; accesses are below the break. -/
def HeapOp.steady (s peak : Nat) (k : Kernel) (op : HeapOp) : Bool :=
  match k.procs s with
  | none => true
  | some p =>
    match op with
    | .brk newBrk => decide (p.brkStart ≤ newBrk → newBrk < brkLimit → p.brkCurrent < newBrk →
        peak ≤ p.brkCurrent ∧ (brkPages p.brkCurrent newBrk ≤ 1 ∨ 4*brkPages p.brkCurrent newBrk ≤ k.frames.freeFrames))
    | .load va => decide (p.brkStart ≤ va ∧ va < p.brkCurrent)
    | .store va _ => decide (p.brkStart ≤ va ∧ va < p.brkCurrent)

def steadyRun (s : Nat) : List HeapOp → Nat → Kernel → Bool
  | [], _, _ => true
  | op::ops, peak, k => op.steady s peak k && steadyRun s ops (max peak ((op.run s k).breakOf s)) (op.run s k)

def Kernel.Maps (k : Kernel) (s v : Nat) : Prop := hasFlag (k.leaf s v) flagPresent = true ∨ Swapped (k.leaf s v)

structure BrkLaw (s newBrk : Nat) (k : Kernel) (p : Process) : Prop where
  granted : newBrk ≠ 0 → p.brkStart ≤ newBrk → newBrk < brkLimit →
    4*brkPages p.brkCurrent newBrk ≤ k.frames.freeFrames → (k.brk s newBrk).2 = newBrk
  returned : (k.brk s newBrk).1.breakOf s = (k.brk s newBrk).2
  zeros : (k.brk s newBrk).2 = newBrk → ∀ va, p.brkCurrent ≤ va → va < newBrk →
    ((k.brk s newBrk).1.access s va .read 0).2 = .done 0
  refused : (k.brk s newBrk).2 ≠ newBrk → (k.brk s newBrk).2 = p.brkCurrent ∧
    ∀ v, v < userPages → ((k.brk s newBrk).1.Maps s v ↔ k.Maps s v)

structure HeapPage (c : Scope) (k : Kernel) (s v : Nat) : Prop where
  present : hasFlag (k.leaf s v) flagPresent = true
  writable : hasFlag (k.leaf s v) mapWritable = true
  untracked : ¬k.Tracks s v
  own : ¬c.lent s v

def ZeroAt (k : Kernel) (s va : Nat) : Prop := ∃ b, k.content s (va/pageSize) = some b ∧ b (va%pageSize) = 0

/-- The heap from `start` on, when `peak` is the highest break so far. -/
structure HeapAt (c : Scope) (hand : List Nat) (s start peak : Nat) (k : Kernel) : Prop where
  owned : Owned c k hand
  slots : Slots c k none
  proc : ∃ p, k.procs s = some p ∧ p.brkStart = start ∧ start ≤ p.brkCurrent ∧ p.brkCurrent ≤ peak
  pages : ∀ v, start/pageSize ≤ v → v < alignUp peak/pageSize → HeapPage c k s v
  tail : ∀ va, peak ≤ va → va < alignUp peak → ZeroAt k s va
  vacant : Vacant c s (alignUp peak/pageSize) (brkLimit/pageSize) k
  bound : peak < brkLimit ∨ peak = start

section
variable {c : Scope} {hand : List Nat} {s start peak newBrk va v : Nat} {k k' : Kernel} {p : Process}

lemma alignUp_le_of_aligned (h : start%pageSize = 0) : alignUp start ≤ start := by
  simp only [alignUp,alignDown,pageSize] at *
  omega

lemma alignUp_mod (x : Nat) : alignUp x%pageSize = 0 := Nat.mul_mod_left _ _

lemma alignUp_bounds {x : Nat} (h : x < brkLimit) : x ≤ alignUp x ∧ alignUp x ≤ brkLimit := by
  simp only [alignUp,alignDown,pageSize,brkLimit] at *
  omega

lemma alignUp_mono {x y : Nat} (h : x ≤ y) : alignUp x ≤ alignUp y := by
  simp only [alignUp,alignDown,pageSize]
  omega

lemma alignUp_div_mul (x : Nat) : alignUp x/pageSize*pageSize = alignUp x :=
  Nat.div_mul_cancel (Nat.dvd_of_mod_eq_zero (alignUp_mod x))

section
variable (h : Owned c k hand) (hs : c.live s) (hva : va < userAddressLimit)
  (hpage : HeapPage c k s (va/pageSize))

include h hs hva hpage

lemma HeapPage.access {kind : AccessKind} (hk : kind ≠ .execute) (value : UInt8) :
    k.access s va kind value = ((k.touch s va kind value).1,.done (k.touch s va kind value).2) := by
  have hu := h.user s _ hs (div_lt_userPages hva) hpage.present
  have hpe : permits kind (k.leaf s (va/pageSize)) = true := by
    cases kind with
    | read => simp [permits,hu]
    | write => simp [permits,hu,hpage.writable]
    | execute => exact absurd rfl hk
  rw [Kernel.access,Kernel.accessLoop_succ h hs hva,if_pos (by rw [hpage.present,hpe]; rfl)]

lemma HeapPage.read_zero (hz : ZeroAt k s va) : (k.access s va .read 0).2 = .done 0 := by
  obtain ⟨b,hb,hby⟩ := hz
  rw [content,contentOf_present hpage.present] at hb
  rw [hpage.access h hs hva (by decide)]
  simp only [touch,Option.some.inj hb,hby]

end

lemma HeapPage.congr (h : HeapPage c k s v) (hl : k'.leaf s v = k.leaf s v)
    (htr : k'.Tracks s v → k.Tracks s v) : HeapPage c k' s v :=
  ⟨hl ▸ h.present,hl ▸ h.writable,fun ht => h.untracked (htr ht),h.own⟩

lemma heapEntry_flags (f : Nat) :
    hasFlag (heapEntry f) flagPresent = true ∧ hasFlag (heapEntry f) mapWritable = true := by
  refine ⟨mapped_present,?_⟩
  simp (disch := decide) [heapEntry,pteFlags,mapWritable,mapUser,mapNoExecute,flagPresent,hasFlag_bit_bit]

section
variable (hp : k.procs s = some p)
include hp

lemma Kernel.brk_out
    (ho : newBrk = 0 ∨ newBrk < p.brkStart ∨ newBrk ≥ brkLimit) : k.brk s newBrk = (k,p.brkCurrent) := by
  simp only [brk,hp,if_pos ho]

lemma Kernel.brk_in (hi : ¬(newBrk = 0 ∨ newBrk < p.brkStart ∨ newBrk ≥ brkLimit))
    {b : Bool} (hg : growHeap s (brkPages p.brkCurrent newBrk) k (alignUp p.brkCurrent) = (k',b)) :
    k.brk s newBrk = if b then (k'.modifyProc s (fun p => {p with brkCurrent := newBrk}),newBrk)
      else (k',p.brkCurrent) := by
  simp only [brkPages] at hg
  simp only [brk,hp,if_neg hi,hg]
  cases b <;> rfl

lemma Kernel.breakOf_modify (f : Process → Process) : (k.modifyProc s f).breakOf s = (f p).brkCurrent := by
  simp [breakOf,modifyProc,hp]

end

lemma Recorded.proc (h : Recorded s k k') (hp : k.procs s = some p) :
    ∃ L, k'.procs s = some {p with mappings := L} := by
  obtain ⟨g,hg⟩ := h
  exact ⟨g p.mappings,by rw [hg]; simp [modifyProc,hp]⟩

lemma Maps.faded {e e' : Entry} (h : Faded e e') :
    (hasFlag e' flagPresent = true ∨ Swapped e') ↔ (hasFlag e flagPresent = true ∨ Swapped e) := by
  rcases h with ⟨hp',hp,-⟩ | ⟨-,rfl⟩ | ⟨hp',hs',hp,-⟩
  · exact iff_of_true (.inl hp') (.inl hp)
  · exact Iff.rfl
  · exact iff_of_true (.inr ⟨hp',hs'⟩) (.inl hp)

lemma HeapAt.grow_pages {n done : Nat} (h : HeapAt c hand s start peak k) (hs : c.live s)
    (hd : alignUp peak/pageSize+done ≤ brkLimit/pageSize)
    (hg : Grows c hand n s (alignUp peak/pageSize) (alignUp peak/pageSize+done) k k') :
    (∀ v, start/pageSize ≤ v → v < alignUp peak/pageSize+done → HeapPage c k' s v) ∧
      (∀ va, peak ≤ va → va/pageSize < alignUp peak/pageSize+done → ZeroAt k' s va) := by
  have hol : ∀ v, v < alignUp peak/pageSize → v < userPages ∧
      ¬Range s (alignUp peak/pageSize) (alignUp peak/pageSize+done) s v := fun v hv =>
    ⟨lt_of_lt_of_le (by omega : v < brkLimit/pageSize) (by decide),fun hr => by have := hr.2.1; omega⟩
  refine ⟨fun v h1 h2 => ?_,fun va h1 h2 => ?_⟩
  · by_cases hv : v < alignUp peak/pageSize
    · have hpage := h.pages v h1 hv
      obtain ⟨hlt,ho⟩ := hol v hv
      refine hpage.congr ?_ (hg.tracked s v)
      by_contra hn
      exact hpage.untracked (hg.around.touched s v hs hlt ho hn).2.2
    · obtain ⟨f,hf,-⟩ := hg.pages v (by omega) h2
      obtain ⟨hpr,hw⟩ := heapEntry_flags f
      obtain ⟨-,-,htr,hl⟩ := h.vacant v (by omega) (by omega)
      exact ⟨hf ▸ hpr,hf ▸ hw,fun ht => htr (hg.tracked s v ht),hl⟩
  · by_cases hv : va/pageSize < alignUp peak/pageSize
    · obtain ⟨hlt,ho⟩ := hol _ hv
      have hva : va < alignUp peak := by
        rw [← alignUp_div_mul peak]
        exact (Nat.div_lt_iff_lt_mul (by decide)).1 hv
      obtain ⟨p,-,-,hst,hpe⟩ := h.proc
      have hpage := h.pages _ (Nat.div_le_div_right (by omega)) hv
      obtain ⟨b,hb,hby⟩ := h.tail va h1 hva
      exact ⟨b,by rw [(hg.content h.slots).2 s _ hs hlt ho hpage.own,hb],hby⟩
    · obtain ⟨f,-,hz⟩ := hg.pages (va/pageSize) (by omega) h2
      exact ⟨_,hz,rfl⟩

lemma HeapAt.grow {n done top : Nat} (h : HeapAt c hand s start peak k) (hs : c.live s) (hp : k.procs s = some p)
    (hg : Grows c hand n s (alignUp peak/pageSize) (alignUp peak/pageSize+done) k k')
    (hd : alignUp top/pageSize = alignUp peak/pageSize+done) (ht : peak ≤ top) (hbo : top < brkLimit)
    {procs : Nat → Option Process} (hpr : ∃ p', procs s = some p' ∧ p'.brkStart = p.brkStart ∧
      start ≤ p'.brkCurrent ∧ p'.brkCurrent ≤ top) : HeapAt c hand s start top {k' with procs := procs} := by
  obtain ⟨ht1,ht3⟩ := alignUp_bounds hbo
  have hpa := Nat.div_le_div_right (c := pageSize) ht3
  obtain ⟨hpage,hz⟩ := h.grow_pages hs (by omega) hg
  obtain ⟨q,hq,hst,-⟩ := h.proc
  rw [hp] at hq
  cases hq
  exact {
    owned := hg.owned.setProcs procs
    slots := ((hg.content h.slots).1).congr rfl rfl
    proc := by
      obtain ⟨p',hp',hs',hl,hh⟩ := hpr
      exact ⟨p',hp',hs'.trans hst,hl,hh⟩
    pages := fun v h1 h2 => by
      have hv := hpage v h1 (by omega)
      exact ⟨hv.present,hv.writable,hv.untracked,hv.own⟩
    tail := fun va h1 h2 => by
      obtain ⟨b,hb,hby⟩ := hz va (by omega) (by
        rw [← hd]
        exact (Nat.div_lt_iff_lt_mul (by decide)).2 (by rwa [alignUp_div_mul]))
      exact ⟨b,hb,hby⟩
    vacant := by
      rw [hd]
      have hvac : Vacant c s (alignUp peak/pageSize+done) (brkLimit/pageSize) k' :=
        (h.vacant.mono (by omega) (le_refl _)).fills hs (by decide) hg.toFills
      exact fun v h1 h2 => hvac v h1 h2
    bound := .inl hbo}

lemma brkPages_spec {current new : Nat} (h : current ≤ new) :
    alignUp new/pageSize = alignUp current/pageSize+brkPages current new ∧
      alignUp current+brkPages current new*pageSize = alignUp new := by
  have h1 := alignUp_mod current
  have h2 := alignUp_mod new
  have h3 := alignUp_mono h
  simp only [brkPages,pageSize] at *
  omega

lemma brkPages_eq_zero {current new : Nat} (h : new ≤ current) : brkPages current new = 0 := by
  have := alignUp_mono h
  rw [brkPages,Nat.sub_eq_zero_of_le this,Nat.zero_div]

lemma HeapAt.brk_out (h : HeapAt c hand s start peak k) (hp : k.procs s = some p)
    (ho : newBrk = 0 ∨ newBrk < p.brkStart ∨ newBrk ≥ brkLimit) :
    HeapAt c hand s start (max peak ((k.brk s newBrk).1.breakOf s)) (k.brk s newBrk).1 ∧ BrkLaw s newBrk k p := by
  obtain ⟨q,hq,-,-,hpe⟩ := h.proc
  rw [hp] at hq
  cases hq
  have hb : k.breakOf s = p.brkCurrent := by simp [breakOf,hp]
  have he := Kernel.brk_out hp ho
  constructor
  · rw [he,hb,max_eq_left hpe]
    exact h
  exact {
    granted := fun h0 h1 h2 => by omega
    returned := by rw [he,hb]
    zeros := fun hr va h1 h2 => by
      rw [he] at hr
      omega
    refused := fun _ => by
      rw [he]
      exact ⟨rfl,fun _ _ => Iff.rfl⟩}

section
variable (h : HeapAt c hand s start peak k) (hs : c.live s) (hp : k.procs s = some p)
include h hs hp

section
variable (hi : ¬(newBrk = 0 ∨ newBrk < p.brkStart ∨ newBrk ≥ brkLimit))
include hi

lemma HeapAt.brk_lower (hle : newBrk ≤ p.brkCurrent) :
    HeapAt c hand s start (max peak ((k.brk s newBrk).1.breakOf s)) (k.brk s newBrk).1 ∧ BrkLaw s newBrk k p := by
  obtain ⟨q,hq,hst,hl,hpe⟩ := h.proc
  rw [hp] at hq
  cases hq
  have hg : growHeap s (brkPages p.brkCurrent newBrk) k (alignUp p.brkCurrent) = (k,true) := by
    rw [brkPages_eq_zero hle]
    rfl
  have he := brk_in hp hi hg
  rw [if_pos rfl] at he
  have hbr : (k.brk s newBrk).1.breakOf s = newBrk := by
    rw [he]
    exact breakOf_modify hp _
  constructor
  · rw [hbr,max_eq_left (by omega),he]
    have hn : Grows c hand 0 s (alignUp peak/pageSize) (alignUp peak/pageSize+0) k k := .of_idle (.refl h.owned) s _
    refine h.grow hs hp hn rfl (le_refl _) ?_ ?_
    · rcases h.bound with hb | hb <;> omega
    · exact ⟨{p with brkCurrent := newBrk},by simp [hp],rfl,by simp only; omega,by simp only; omega⟩
  · exact {
      granted := fun _ _ _ _ => by rw [he]
      returned := by rw [hbr,he]
      zeros := fun _ va h1 h2 => by omega
      refused := fun hne => absurd (by rw [he]) hne}

lemma HeapAt.brk_raise (hlt : p.brkCurrent < newBrk) (hpe : peak ≤ p.brkCurrent)
    (hf : brkPages p.brkCurrent newBrk ≤ 1 ∨ 4*brkPages p.brkCurrent newBrk ≤ k.frames.freeFrames) :
    HeapAt c hand s start (max peak ((k.brk s newBrk).1.breakOf s)) (k.brk s newBrk).1 ∧ BrkLaw s newBrk k p := by
  obtain ⟨q,hq,hst,hlo,hc⟩ := h.proc
  rw [hp] at hq
  cases hq
  have hpk : p.brkCurrent = peak := by omega
  have hn : newBrk < brkLimit := by omega
  obtain ⟨hdi,hsu⟩ := brkPages_spec (le_of_lt hlt)
  obtain ⟨hu1,hu3⟩ := alignUp_bounds hn
  have hl : brkLimit ≤ userAddressLimit := by decide
  have hu4 := Nat.div_le_div_right (c := pageSize) hu3
  rw [hpk] at hdi hsu hf
  rcases hgr : growHeap s (brkPages p.brkCurrent newBrk) k (alignUp p.brkCurrent) with ⟨k1,b⟩
  have he := brk_in hp hi hgr
  rw [hpk] at hgr
  obtain ⟨done,hd,hg,ht,hfa⟩ := growHeap_spec _ h.owned h.slots hs (alignUp_mod peak)
    (by omega) (h.vacant.mono (le_refl _) (by omega)) hgr
  obtain ⟨L,hL⟩ := hg.recorded.proc hp
  cases b with
  | true =>
    rw [ht rfl] at hg
    rw [if_pos rfl] at he
    have hbr : (k.brk s newBrk).1.breakOf s = newBrk := by
      rw [he]
      exact breakOf_modify hL _
    have ha : HeapAt c hand s start newBrk (k.brk s newBrk).1 := by
      rw [he]
      exact h.grow hs hp hg hdi (by omega) hn ⟨{p with brkCurrent := newBrk, mappings := L},by simp [hL],rfl,
        by simp only; omega,le_refl _⟩
    refine ⟨by rwa [hbr,max_eq_right (by omega)],fun _ _ _ _ => by rw [he],by rw [hbr,he],?_,?_⟩
    · intro _ va h1 h2
      have hva : va/pageSize < alignUp newBrk/pageSize := by
        rw [Nat.div_lt_iff_lt_mul (by decide),alignUp_div_mul]
        omega
      have hpage := ha.pages (va/pageSize) (Nat.div_le_div_right (by omega)) hva
      obtain ⟨bytes,hb,hby⟩ := (h.grow_pages hs (by omega) hg).2 va (by omega) (by omega)
      refine hpage.read_zero ha.owned hs (by omega) ⟨bytes,?_,hby⟩
      rw [he]
      exact hb
    · exact fun hne => absurd (by rw [he]) hne
  | false =>
    obtain ⟨hle,hfre⟩ := hfa rfl
    have hz : done = 0 := by omega
    subst hz
    rw [if_neg (by decide)] at he
    have hbr : (k.brk s newBrk).1.breakOf s = p.brkCurrent := by
      rw [he]
      simp [breakOf,hL]
    refine ⟨?_,fun _ _ _ hfr => by rw [hpk] at hfr; omega,by rw [hbr,he],?_,fun _ => ⟨by rw [he],fun v hv => ?_⟩⟩
    · rw [hbr,max_eq_left (by omega),he]
      exact h.grow hs hp hg rfl (le_refl _) (by omega) ⟨_,hL,rfl,hlo,hc⟩
    · intro hr va h1 h2
      rw [he] at hr
      omega
    · rw [he]
      refine Maps.faded (hg.around.leaf s v hs hv (fun hr => ?_))
      have := hr.2.1
      have := hr.2.2
      omega

end

lemma HeapAt.brk (hst : (HeapOp.brk newBrk).steady s peak k = true) :
    HeapAt c hand s start (max peak ((k.brk s newBrk).1.breakOf s)) (k.brk s newBrk).1 ∧ BrkLaw s newBrk k p := by
  by_cases ho : newBrk = 0 ∨ newBrk < p.brkStart ∨ newBrk ≥ brkLimit
  · exact h.brk_out hp ho
  by_cases hl : newBrk ≤ p.brkCurrent
  · exact h.brk_lower hs hp ho hl
  simp only [HeapOp.steady,hp,decide_eq_true_eq] at hst
  obtain ⟨hpe,hf⟩ := hst (by omega) (by omega) (by omega)
  exact h.brk_raise hs hp ho (by omega) hpe hf

lemma HeapAt.access
    (hlo : p.brkStart ≤ va) (hh : va < p.brkCurrent) {kind : AccessKind} (hk : kind ≠ .execute) (value : UInt8) :
    HeapAt c hand s start (max peak ((k.access s va kind value).1.breakOf s)) (k.access s va kind value).1 := by
  obtain ⟨q,hq,hst,hle,hpe⟩ := h.proc
  rw [hp] at hq
  cases hq
  have hbo : peak < brkLimit := by
    rcases h.bound with hb | hb <;> omega
  obtain ⟨hu1,hu3⟩ := alignUp_bounds hbo
  have hl : brkLimit ≤ userAddressLimit := by decide
  have hla : va/pageSize < alignUp peak/pageSize := by
    rw [Nat.div_lt_iff_lt_mul (by decide),alignUp_div_mul]
    omega
  have hva : va < userAddressLimit := by omega
  have hpage := h.pages (va/pageSize) (Nat.div_le_div_right (by omega)) hla
  have hto := touch_spec h.owned hs hva hpage.present kind value
  have hu : ∀ v, v < alignUp peak/pageSize → v < userPages := fun v hv =>
    lt_of_lt_of_le hv (Nat.div_le_div_right (by omega : alignUp peak ≤ userAddressLimit))
  rw [hpage.access h.owned hs hva hk value]
  set k' := (k.touch s va kind value).1
  obtain ⟨T,hT⟩ := hto.state
  have hpr : k'.procs = k.procs := by rw [hT]
  have htr : ∀ v, k'.Tracks s v → k.Tracks s v := fun v ht => by
    simpa only [Kernel.Tracks,hT] using ht
  have hf : ∀ v, v < userPages → ∀ i, i < 64 → i ≠ 5 → i ≠ 6 →
      hasFlag (k'.leaf s v) (bit i) = hasFlag (k.leaf s v) (bit i) := fun v hv i hi h5 h6 => by
    rw [hto.leaf s v hs hv]
    split_ifs with ha
    · rw [marked_flag kind _ hi h5 h6,ha.2]
    · rfl
  have hbr : k'.breakOf s = p.brkCurrent := by simp [breakOf,hpr,hp]
  rw [hbr,max_eq_left hpe]
  exact {
    owned := hto.owned
    slots := hto.slots hs hva hpage.present h.slots
    proc := ⟨p,by rw [hpr,hp],hst,hle,hpe⟩
    pages := fun v h1 h2 => by
      have hv := h.pages v h1 h2
      exact ⟨by rw [flagPresent,hf v (hu v h2) 0 (by decide) (by decide) (by decide)]; exact hv.present,
        by rw [mapWritable,hf v (hu v h2) 1 (by decide) (by decide) (by decide)]; exact hv.writable,
        fun ht => hv.untracked (htr v ht),hv.own⟩
    tail := fun x h1 h2 => by
      have hx : x/pageSize < alignUp peak/pageSize := by
        rwa [Nat.div_lt_iff_lt_mul (by decide),alignUp_div_mul]
      have hxp := h.pages (x/pageSize) (Nat.div_le_div_right (by omega)) hx
      obtain ⟨b,hb,hby⟩ := h.tail x h1 h2
      rw [ZeroAt,hto.content_eq hpage.present hs (hu _ hx)]
      split_ifs with hsa
      · -- two pages of the heap with one frame are the same page
        have he : x/pageSize = va/pageSize := h.owned.once s _ _ _ ⟨hs,hu _ hla,hpage.own,hpage.present,rfl⟩
            ⟨hs,hu _ hx,hxp.own,hsa.1,hsa.2⟩
        refine ⟨_,rfl,?_⟩
        rw [he,content,contentOf_present hpage.present] at hb
        have hn : x%pageSize ≠ va%pageSize := fun hm => by
          have h3 := Nat.div_add_mod x pageSize
          have h4 := Nat.div_add_mod va pageSize
          rw [he,hm] at h3
          omega
        rw [stored_ne hn,Option.some.inj hb,hby]
      · exact ⟨b,hb,hby⟩
    vacant := fun v h1 h2 => by
      obtain ⟨hpre,hsw,hun,ho⟩ := h.vacant v h1 h2
      have hlea : k'.leaf s v = k.leaf s v := by
        rw [hto.leaf s v hs (lt_of_lt_of_le h2 (by decide)),if_neg (fun ha => by omega)]
      rw [hlea]
      exact ⟨hpre,hsw,fun ht => hun (htr v ht),ho⟩
    bound := h.bound}

end

lemma HeapAt.step (h : HeapAt c hand s start peak k) (hs : c.live s) (op : HeapOp)
    (hst : op.steady s peak k = true) : HeapAt c hand s start (max peak ((op.run s k).breakOf s)) (op.run s k) := by
  obtain ⟨p,hp,-⟩ := h.proc
  cases op with
  | brk newBrk => exact (h.brk hs hp hst).1
  | load va =>
    simp only [HeapOp.steady,hp,decide_eq_true_eq] at hst
    exact h.access hs hp hst.1 hst.2 (by decide) 0
  | store va value =>
    simp only [HeapOp.steady,hp,decide_eq_true_eq] at hst
    exact h.access hs hp hst.1 hst.2 (by decide) value

lemma HeapAt.run {post : List HeapOp} (pre : List HeapOp) (h : HeapAt c hand s start peak k) (hs : c.live s)
    (hst : steadyRun s (pre++.brk newBrk::post) peak k = true) :
    ∃ p, (pre.foldl (HeapOp.run s) k).procs s = some p ∧ BrkLaw s newBrk (pre.foldl (HeapOp.run s) k) p := by
  induction pre generalizing k peak with
  | nil =>
    simp only [List.nil_append,steadyRun,Bool.and_eq_true] at hst
    obtain ⟨p,hp,-⟩ := h.proc
    exact ⟨p,hp,(h.brk hs hp hst.1).2⟩
  | cons op pre ih =>
    simp only [List.cons_append,steadyRun,Bool.and_eq_true] at hst
    exact ih (h.step hs op hst.1) hst.2

lemma HeapAt.fresh (h : Owned c k hand) (hsl : Slots c k none) (hp : k.procs s = some p)
    (ha : p.brkStart%pageSize = 0) (hf : p.brkCurrent = p.brkStart)
    (hv : Vacant c s (p.brkStart/pageSize) (brkLimit/pageSize) k) : HeapAt c hand s p.brkStart p.brkStart k := by
  have hle := alignUp_le_of_aligned ha
  have hd : alignUp p.brkStart/pageSize ≤ p.brkStart/pageSize := Nat.div_le_div_right hle
  refine ⟨h,hsl,⟨p,hp,rfl,by omega,by omega⟩,fun v h1 h2 => by omega,fun va h1 h2 => by omega,?_,.inr rfl⟩
  by_cases hl : p.brkStart < brkLimit
  · have he : alignUp p.brkStart = p.brkStart := le_antisymm hle (alignUp_bounds hl).1
    rwa [he]
  have ho : brkLimit ≤ alignUp p.brkStart := by
    simp only [alignUp,alignDown,pageSize,brkLimit] at *
    omega
  have := Nat.div_le_div_right (c := pageSize) ho
  exact fun v h1 h2 => by omega

/-- Each call of `brk` in a steady run keeps the law of the break. -/
theorem brk_keeps_law (h : Owned c k hand) (hslots : Slots c k none) (hs : c.live s) (hp : k.procs s = some p)
    (haligned : p.brkStart%pageSize = 0) (hfresh : p.brkCurrent = p.brkStart)
    (hvacant : Vacant c s (p.brkStart/pageSize) (Kernel.brkLimit/pageSize) k) (pre post : List HeapOp) (newBrk : Nat)
    (hsteady : steadyRun s (pre++.brk newBrk::post) p.brkStart k = true) :
    ∃ q, (pre.foldl (HeapOp.run s) k).procs s = some q ∧ BrkLaw s newBrk (pre.foldl (HeapOp.run s) k) q :=
  (HeapAt.fresh h hslots hp haligned hfresh hvacant).run pre hs hsteady

end

def heapKernel : Kernel :=
  {(boot 64 [(4096,200704)] 0 0 (fun _ => .empty) false).createAddressSpace.1 with
    procs := Function.update (fun _ => none) 1
      (some ⟨0x400000,0x400000,0x700000000000,[],.new userStackTop (userStackTop-16*1024*1024),true⟩)}

lemma heapKernel_created : (boot 64 [(4096,200704)] 0 0 (fun _ => .empty) false).createAddressSpace =
    ((boot 64 [(4096,200704)] 0 0 (fun _ => .empty) false).createAddressSpace.1,.ok 1) :=
  Prod.ext rfl (by decide +kernel)

lemma heapKernel_empty : Owned (Scope.empty.add 1) heapKernel [] ∧ Slots (Scope.empty.add 1) heapKernel none ∧
    (∀ v, v < userPages → heapKernel.leaf 1 v = 0) ∧ ∀ x v, ¬heapKernel.Tracks x v := by
  obtain ⟨ho,hsl,hl,ht⟩ := (boot_booted 64 (by decide) 0 0 _ false).create (fun _ => rfl)
    heapKernel_created
  exact ⟨ho.setProcs _,hsl.congr rfl rfl,hl,ht⟩

theorem brk_keeps_law_here : ∃ q, ([.brk 0x402000,.store 0x400010 7].foldl (HeapOp.run 1) heapKernel).procs 1 = some q ∧
    BrkLaw 1 0x401000 ([.brk 0x402000,.store 0x400010 7].foldl (HeapOp.run 1) heapKernel) q := by
  obtain ⟨ho,hsl,hl,ht⟩ := heapKernel_empty
  refine brk_keeps_law ho hsl (.inl rfl) rfl rfl rfl (fun v h1 h2 => ?_) _ [] _ (by decide +kernel)
  rw [hl v (lt_of_lt_of_le h2 (by decide))]
  exact ⟨by decide,by decide,ht 1 v,Scope.add_own⟩

/-- A break that was lowered is not raised again: the pages are still mapped. -/
theorem lowered_break_stays : (heapKernel.brk 1 0x402000).2 = 0x402000 ∧
    ((heapKernel.brk 1 0x402000).1.brk 1 0x401000).2 = 0x401000 ∧
    (((heapKernel.brk 1 0x402000).1.brk 1 0x401000).1.brk 1 0x402000).2 = 0x401000 ∧
    40 ≤ ((heapKernel.brk 1 0x402000).1.brk 1 0x401000).1.frames.freeFrames := by
  decide +kernel

end Vanta.Mm
