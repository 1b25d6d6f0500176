import Vanta.Mm.Access

namespace Vanta.Mm
open Library Memory Kernel Function

def Kernel.unmapStep (k : Kernel) (space page : Nat) : Kernel :=
  match k.unmap space page with
  | (k,.ok (some frame)) =>
    (k.freeFrame frame).1.modifyProc space (fun p => {p with mappings := p.mappings.erase page})
  | (k,_) => k

def Recorded (s : Nat) (k k' : Kernel) : Prop :=
  ∃ g : List Nat → List Nat, k'.procs = (k.modifyProc s (fun p => {p with mappings := g p.mappings})).procs

/-- The pages `first` up to `last` of space `s` are unmapped, and nothing else. -/
structure Drops (c : Scope) (hand : List Nat) (s first last : Nat) (k k' : Kernel) : Prop where
  owned : Owned c k' hand
  around : Around c 0 (Range s first last) k k'
  content : SameContent c (Range s first last) k k'
  gone : ∀ v, first ≤ v → v < last → v < userPages →
    hasFlag (k'.leaf s v) flagPresent = false ∧ hasFlag (k'.leaf s v) mapSwapped = false
  same : ∀ s' v, c.live s' → v < userPages → ¬Range s first last s' v → k'.leaf s' v = k.leaf s' v
  mem : k'.mem = k.mem
  cache : k'.cache = k.cache
  files : k'.files = k.files
  recorded : Recorded s k k'

/-- The entries of the pages `first` up to `last` that are present get other flags. -/
structure Protects (c : Scope) (hand : List Nat) (s first last : Nat) (flags : Entry) (k k' : Kernel) : Prop where
  owned : Owned c k' hand
  around : Around c 0 (Range s first last) k k'
  content : SameContent c (fun _ _ => False) k k'
  inside : ∀ v, first ≤ v → v < last → v < userPages → k'.leaf s v =
    if hasFlag (k.leaf s v) flagPresent then (k.leaf s v &&& addressMask) ||| flags ||| flagPresent else k.leaf s v
  same : ∀ s' v, c.live s' → v < userPages → ¬Range s first last s' v → k'.leaf s' v = k.leaf s' v
  tables : ∃ T, k' = {k with tables := T}

/-- The pages `first` up to `last` may have got frames. -/
structure Fills (c : Scope) (hand : List Nat) (n s first last : Nat) (k k' : Kernel) : Prop where
  owned : Owned c k' hand
  around : Around c n (Range s first last) k k'
  tracked : ∀ s v, k'.Tracks s v → k.Tracks s v
  recorded : Recorded s k k'

def heapEntry (f : Nat) : Entry := frameBits f ||| pteFlags true false ||| flagPresent

/-- Nothing is mapped or was mapped at the pages `first` up to `last`. -/
def Vacant (c : Scope) (s first last : Nat) (k : Kernel) : Prop :=
  ∀ v, first ≤ v → v < last → hasFlag (k.leaf s v) flagPresent = false ∧ ¬Swapped (k.leaf s v) ∧
    ¬k.Tracks s v ∧ ¬c.lent s v

/-- The pages `first` up to `last` are new pages of zeros. -/
structure Grows (c : Scope) (hand : List Nat) (n s first last : Nat) (k k' : Kernel) : Prop extends
    Fills c hand n s first last k k' where
  content : SameContent c (Range s first last) k k'
  pages : ∀ v, first ≤ v → v < last → ∃ f, k'.leaf s v = heapEntry f ∧ k'.content s v = some (fun _ => 0)

/-- What `mprotect` does to the areas of a process. -/
def Kernel.protectAreas (k : Kernel) (s start stop : Nat) (flags : VmaFlags) : Kernel :=
  match k.memoryMap s with
  | none => k
  | some m => k.setMemoryMap s (m.protectVmaRange start stop flags)

section
variable {c : Scope} {hand : List Nat} {n m s v t f va first mid last : Nat} {k k' k'' : Kernel} {flags : Entry}

lemma Range.mono {a b a' b' s' : Nat} (h : Range s a b s' v) (ha : a' ≤ a) (hb : b ≤ b') : Range s a' b' s' v :=
  ⟨h.1,by have := h.2.1; omega,by have := h.2.2; omega⟩

lemma Range.of_at {s' v' : Nat} (h : At s v s' v') : Range s v (v+1) s' v' :=
  ⟨h.1,by rw [h.2],by rw [h.2]; omega⟩

lemma Kernel.modifyProc_modifyProc (k : Kernel) (f g : Process → Process) :
    ((k.modifyProc s f).modifyProc s g).procs = (k.modifyProc s (g ∘ f)).procs := by
  simp [modifyProc]

lemma Kernel.modifyProc_congr (h : k'.procs = k.procs) (g : Process → Process) :
    (k'.modifyProc s g).procs = (k.modifyProc s g).procs := by
  simp only [modifyProc,h]

lemma Recorded.of_eq (h : k'.procs = k.procs) : Recorded s k k' := by
  refine ⟨id,?_⟩
  rw [h]
  funext x
  simp only [modifyProc,update_apply]
  split_ifs with hx
  · subst hx
    simp
  · rfl

lemma Recorded.trans (h : Recorded s k k') (h' : Recorded s k' k'') : Recorded s k k'' := by
  obtain ⟨g,hg⟩ := h
  obtain ⟨g',hg'⟩ := h'
  refine ⟨g' ∘ g,?_⟩
  rw [hg',modifyProc_congr hg,modifyProc_modifyProc]
  rfl

namespace Drops

lemma refl (h : Owned c k hand) (s first : Nat) : Drops c hand s first first k k where
  owned := h
  around := .refl c _ k
  content := .refl c _ k
  gone := fun v h1 h2 => by omega
  same := fun _ _ _ _ _ => rfl
  mem := rfl
  cache := rfl
  files := rfl
  recorded := .of_eq rfl

lemma trans (hs : c.live s) (h1 : first ≤ mid) (h2 : mid ≤ last) (h : Drops c hand s first mid k k')
    (h' : Drops c hand s mid last k' k'') : Drops c hand s first last k k'' where
  owned := h'.owned
  around := (h.around.mono (le_refl 0) (fun _ _ hr => hr.mono (le_refl _) h2)).trans
    (h'.around.mono (le_refl 0) (fun _ _ hr => hr.mono h1 (le_refl _)))
  content := (h.content.mono (fun _ _ hr => hr.mono (le_refl _) h2)).trans
    (h'.content.mono (fun _ _ hr => hr.mono h1 (le_refl _)))
  gone := fun v hl hh hv => by
    by_cases hm : mid ≤ v
    · exact h'.gone v hm hh hv
    · rw [h'.same s v hs hv (fun hr => hm hr.2.1)]
      exact h.gone v hl (by omega) hv
  same := fun s' v hs' hv ho => by
    rw [h'.same s' v hs' hv (fun hr => ho (hr.mono h1 (le_refl _)))]
    exact h.same s' v hs' hv (fun hr => ho (hr.mono (le_refl _) h2))
  mem := h'.mem.trans h.mem
  cache := h'.cache.trans h.cache
  files := h'.files.trans h.files
  recorded := h.recorded.trans h'.recorded

lemma setProcs {procs : Nat → Option Process} (h : Drops c hand s first last k k')
    (hr : Recorded s k {k' with procs := procs}) : Drops c hand s first last k {k' with procs := procs} :=
  {h with
    owned := h.owned.setProcs procs
    around := h.around.trans (.procs procs)
    content := h.content.trans (.of_eq rfl rfl rfl rfl)
    recorded := hr}

end Drops

lemma zero_absent : hasFlag (0 : Entry) flagPresent = false ∧ hasFlag (0 : Entry) mapSwapped = false := by decide

lemma Drops.of_clear (h : Owned c k hand) (hs : c.live s) (hv : v < userPages) (ht : k.leafTable s v = some t)
    (ho : Owned c k' hand) (ha : Around c 0 (At s v) k k') (hc : SameContent c (At s v) k k')
    (hta : k'.tables = (k.setLeaf s v 0).tables) (hm : k'.mem = k.mem) (hca : k'.cache = k.cache)
    (hf : k'.files = k.files) (hp : k'.procs = k.procs) : Drops c hand s v (v+1) k k' := by
  have hl : ∀ s' v', c.live s' → v' < userPages → k'.leaf s' v' = if s' = s ∧ v' = v then 0 else k.leaf s' v' :=
    fun s' v' hs' hv' => (leaf_congr hta s' v').trans (h.leaf_setLeaf hs hv ht 0 hs' hv')
  exact {
    owned := ho
    around := ha.mono (le_refl 0) (fun _ _ => Range.of_at)
    content := hc.mono (fun _ _ => Range.of_at)
    gone := fun v' h1 h2 hv' => by
      rw [hl s v' hs hv',if_pos ⟨rfl,by omega⟩]
      exact zero_absent
    same := fun s' v' hs' hv' hou => (hl s' v' hs' hv').trans (if_neg (fun hat => hou (Range.of_at hat)))
    mem := hm
    cache := hca
    files := hf
    recorded := .of_eq hp}

lemma Drops.present (h : Owned c k hand) (hs : c.live s) (hv : v < userPages) (hl : ¬c.lent s v)
    (hp : hasFlag (k.leaf s v) flagPresent = true) :
    Drops c hand s v (v+1) k ((k.setLeaf s v 0).freeFrame (frameOf (k.leaf s v))).1 := by
  obtain ⟨t,ht⟩ := leafTable_of_flag hp
  have ho : Owned c (k.setLeaf s v 0) (frameOf (k.leaf s v)::hand) := by
    rw [setLeaf_eq ht]
    exact h.writeLeaf_clear hs hv ht hl hp zero_absent.1
  have ha := (Around.setLeaf h hs hv 0).trans (.freeFrame ho)
  have hc := SameContent.setLeaf (e := 0) h hs hv (not_swapped_of_present hp) (by decide)
  obtain ⟨frames,hf,ho',-⟩ := ho.free
  rw [hf] at ha ⊢
  exact .of_clear h hs hv ht ho' ha (hc.trans (.of_eq rfl rfl rfl rfl)) rfl (by simp) (by simp)
    (by simp) (by simp)

lemma Kernel.setLeaf_setSwap (swap : SwapManager) (e : Entry) :
    {k with swap := swap}.setLeaf s v e = {k.setLeaf s v e with swap := swap} := by
  have ht : {k with swap := swap}.leafTable s v = k.leafTable s v := rfl
  simp only [setLeaf,ht]
  cases k.leafTable s v <;> rfl

lemma Drops.swapped (h : Owned c k hand) (hs : c.live s) (hv : v < userPages) (hsw : Swapped (k.leaf s v)) :
    Drops c hand s v (v+1) k ({k with swap := k.swap.freeSlot (slotOf (k.leaf s v))}.setLeaf s v 0) := by
  obtain ⟨t,ht⟩ := leafTable_of_flag hsw.2
  have hc := SameContent.clearSwapped (e := 0) h hs hv hsw (by decide)
  have ha := Around.setLeaf h hs hv 0
  have ho : Owned c (k.setLeaf s v 0) hand := by
    rw [setLeaf_eq ht]
    exact h.writeLeaf_keep hs hv ht (fun hp => by rw [zero_absent.1] at hp; cases hp)
  rw [setLeaf_swap] at hc
  rw [setLeaf_setSwap]
  have hst : Around c 0 (At s v) (k.setLeaf s v 0)
      {k.setLeaf s v 0 with swap := k.swap.freeSlot (slotOf (k.leaf s v))} := by
    refine .of_eq rfl rfl rfl rfl rfl ?_
    rintro s' v' ⟨i,p,hi,hp⟩
    rw [freeSlot_tracked] at hi
    exact .inl ⟨i,p,by rwa [setLeaf_swap],hp⟩
  refine .of_clear h hs hv ht (ho.congr rfl rfl (fun _ => rfl) ?_) (ha.trans hst) hc rfl (by simp)
    (by simp) (by simp) (by simp)
  rw [freeSlot_tracked]
  exact h.tracked

lemma Kernel.unmapStep_spec (h : Owned c k hand) (hs : c.live s) (hva : va < userAddressLimit)
    (ha : va%pageSize = 0) (hl : ¬c.lent s (va/pageSize)) :
    Drops c hand s (va/pageSize) (va/pageSize+1) k (k.unmapStep s va) := by
  have hv := div_lt_userPages hva
  rw [unmapStep,unmap_eq h hs hva ha]
  by_cases hp : hasFlag (k.leaf s (va/pageSize)) flagPresent = true
  · rw [if_pos hp]
    have hd := Drops.present h hs hv hl hp
    refine hd.setProcs ⟨fun l => l.erase va,?_⟩
    exact modifyProc_congr (by simp [freeFrame]) _
  rw [if_neg hp]
  by_cases hsw : hasFlag (k.leaf s (va/pageSize)) mapSwapped = true
  · rw [if_pos hsw]
    exact .swapped h hs hv ⟨by simpa using hp,hsw⟩
  rw [if_neg hsw]
  have hre := Drops.refl h s (va/pageSize)
  exact {hre with
    around := hre.around.mono (le_refl 0) (fun _ _ hr => hr.mono (le_refl _) (by omega))
    content := hre.content.mono (fun _ _ hr => hr.mono (le_refl _) (by omega))
    gone := fun v h1 h2 _ => by
      have he : v = va/pageSize := by omega
      subst he
      exact ⟨by simpa using hp,by simpa using hsw⟩
    same := fun _ _ _ _ _ => rfl}

lemma pages_step {pages : Nat} (he : va+(pages+1)*pageSize ≤ userAddressLimit) :
    (va+pageSize)/pageSize = va/pageSize+1 ∧ va < userAddressLimit ∧ va+pageSize+pages*pageSize ≤ userAddressLimit := by
  have hm : (pages+1)*pageSize = pages*pageSize+pageSize := Nat.succ_mul _ _
  refine ⟨Nat.add_div_right _ (by decide),?_,by omega⟩
  simp only [pageSize] at he hm
  omega

variable (pages : Nat)

lemma Kernel.unmapPages_spec (h : Owned c k hand) (hs : c.live s) (hv : va%pageSize = 0)
    (he : va+pages*pageSize ≤ userAddressLimit) (hle : ∀ v, va/pageSize ≤ v → v < va/pageSize+pages → ¬c.lent s v) :
    Drops c hand s (va/pageSize) (va/pageSize+pages) k (unmapPages s pages k va) := by
  induction pages generalizing k va with
  | zero => exact .refl h s _
  | succ pages ih =>
    obtain ⟨hn,hl,hr⟩ := pages_step he
    have hst := unmapStep_spec h hs hl hv (hle _ (le_refl _) (by omega))
    have hm : (va+pageSize)%pageSize = 0 := by simp [hv]
    have hre := ih hst.owned hm hr (fun v h1 h2 => hle v (by omega) (by omega))
    rw [hn] at hre
    refine hst.trans hs (by omega) (by omega) ?_
    rwa [show va/pageSize+(pages+1) = va/pageSize+1+pages by omega]

namespace Protects

lemma refl (h : Owned c k hand) (s first : Nat) (flags : Entry) : Protects c hand s first first flags k k where
  owned := h
  around := .refl c _ k
  content := .refl c _ k
  inside := fun v h1 h2 => by omega
  same := fun _ _ _ _ _ => rfl
  tables := ⟨k.tables,rfl⟩

lemma trans (hs : c.live s) (h1 : first ≤ mid) (h2 : mid ≤ last) (h : Protects c hand s first mid flags k k')
    (h' : Protects c hand s mid last flags k' k'') : Protects c hand s first last flags k k'' where
  owned := h'.owned
  around := (h.around.mono (le_refl 0) (fun _ _ hr => hr.mono (le_refl _) h2)).trans
    (h'.around.mono (le_refl 0) (fun _ _ hr => hr.mono h1 (le_refl _)))
  content := h.content.trans h'.content
  inside := fun v hl hh hv => by
    by_cases hm : mid ≤ v
    · rw [h'.inside v hm hh hv,h.same s v hs hv (fun hr => by have := hr.2.2; omega)]
    · rw [h'.same s v hs hv (fun hr => hm hr.2.1)]
      exact h.inside v hl (by omega) hv
  same := fun s' v hs' hv ho => by
    rw [h'.same s' v hs' hv (fun hr => ho (hr.mono h1 (le_refl _)))]
    exact h.same s' v hs' hv (fun hr => ho (hr.mono (le_refl _) h2))
  tables := by
    obtain ⟨T,rfl⟩ := h.tables
    obtain ⟨T',rfl⟩ := h'.tables
    exact ⟨T',rfl⟩

end Protects

lemma hasFlag_protect {e flags : Entry} (hf : hasFlag flags mapUser = true) :
    hasFlag ((e &&& addressMask) ||| flags ||| flagPresent) mapUser = true := by
  rw [mapUser] at hf ⊢
  simp [hf]

variable {r : Except MapError Unit}

lemma Kernel.protectPage_spec (h : Owned c k hand) (hs : c.live s) (hva : va < userAddressLimit)
    (hu : hasFlag flags mapUser = true) (hfl : NoAddress flags) (hru : k.protectPage s va flags = (k',r)) :
    r = .ok () ∧ Protects c hand s (va/pageSize) (va/pageSize+1) flags k k' := by
  have hv := div_lt_userPages hva
  rw [protectPage_eq h hs hva] at hru
  cases hru
  refine ⟨rfl,?_⟩
  split_ifs with hp
  · obtain ⟨t,ht⟩ := leafTable_of_flag hp
    set e : Entry := (k.leaf s (va/pageSize) &&& addressMask) ||| flags ||| flagPresent with he
    have hf : frameOf e = frameOf (k.leaf s (va/pageSize)) := by
      rw [he,frameOf_or (by decide),frameOf_or hfl,frameOf_address]
    have hn : hasFlag e flagPresent = true := by
      rw [he,flagPresent,hasFlag_or,hasFlag_bit_bit 0 (by decide)]
      simp
    have hl : ∀ s' v', c.live s' → v' < userPages → (k.setLeaf s (va/pageSize) e).leaf s' v' =
        if s' = s ∧ v' = va/pageSize then e else k.leaf s' v' := fun s' v' hs' hv' => h.leaf_setLeaf hs hv ht e hs' hv'
    exact {
      owned := by
        rw [setLeaf_eq ht]
        exact h.writeLeaf_keep hs hv ht (fun _ => ⟨hp,hf,hasFlag_protect hu⟩)
      around := (Around.setLeaf h hs hv e).mono (le_refl 0) (fun _ _ => Range.of_at)
      content := by
        rw [setLeaf_eq ht]
        exact .of_kept (Calm.writeLeaf_present (a := none) h hs hv ht hp hn hf).kept _
      inside := fun v h1 h2 hv' => by
        have heq : v = va/pageSize := by omega
        rw [hl s v hs hv',if_pos ⟨rfl,heq⟩,heq,if_pos hp]
      same := fun s' v' hs' hv' ho => (hl s' v' hs' hv').trans (if_neg (fun ha => ho (Range.of_at ha)))
      tables := setLeaf_tables k s _ e}
  · have hre := Protects.refl h s (va/pageSize) flags
    exact {hre with
      around := hre.around.mono (le_refl 0) (fun _ _ hr => hr.mono (le_refl _) (by omega))
      inside := fun v h1 h2 _ => by
        have heq : v = va/pageSize := by omega
        rw [heq,if_neg hp]
      same := fun _ _ _ _ _ => rfl}

lemma Kernel.protectPages_spec (h : Owned c k hand) (hs : c.live s)
    (he : va+pages*pageSize ≤ userAddressLimit) (hu : hasFlag flags mapUser = true) (hf : NoAddress flags) (hru : protectPages s flags pages k va = (k',r)) :
    r = .ok () ∧ Protects c hand s (va/pageSize) (va/pageSize+pages) flags k k' := by
  induction pages generalizing k va with
  | zero =>
    cases hru
    exact ⟨rfl,.refl h s _ flags⟩
  | succ pages ih =>
    obtain ⟨hn,hl,hre⟩ := pages_step he
    have hw : ¬va ≥ 2^64 := by
      simp only [userAddressLimit] at hl
      omega
    rw [protectPages,if_neg hw] at hru
    rcases hst : k.protectPage s va flags with ⟨k1,a⟩
    obtain ⟨rfl,ho⟩ := protectPage_spec h hs hl hu hf hst
    rw [hst] at hru
    obtain ⟨hr,hres⟩ := ih ho.owned hre hru
    rw [hn] at hres
    refine ⟨hr,ho.trans hs (by omega) (by omega) ?_⟩
    rwa [show va/pageSize+(pages+1) = va/pageSize+1+pages by omega]

lemma Kernel.mapAny_spec (h : Owned c k (f::hand)) (hf : k.frames.refcounts f = 1) (hs : c.live s)
    (hva : va < userAddressLimit) (hal : va%pageSize = 0) (hu : hasFlag flags mapUser = true)
    (hfl : NoAddress flags) (hru : k.map s va f flags = (k',r)) :
    Around c 3 (At s (va/pageSize)) k k' ∧ k'.procs = k.procs ∧ (∀ s v, k'.Tracks s v → k.Tracks s v) ∧
      Owned c k' (match r with
        | .ok _ => hand
        | .error _ => f::hand) := by
  have hv := div_lt_userPages hva
  obtain ⟨k1,ha,ho,hr⟩ := map_spec h hs hva hal hu hru
  have har := (Around.of_allocs ha (At s (va/pageSize)))
  have htr : ∀ s v, k1.Tracks s v → k.Tracks s v := by
    rintro s' v' ⟨i,p,hi,hp⟩
    exact ⟨i,p,ha.quiet.tracked i p hi,hp⟩
  cases r with
  | error e =>
    obtain ⟨rfl,-⟩ := hr
    exact ⟨har,ha.quiet.procs,htr,ho⟩
  | ok u =>
    obtain ⟨⟨t,ht⟩,-,rfl⟩ := hr
    have hon : k1.frames.refcounts f = 1 := by
      have := ha.quiet.count f
      have := ho.counted.hand_pos (f := f) (by simp)
      omega
    have hpu := Puts.mapped ho hon hs hv ht hu hfl
    refine ⟨har.trans hpu.around,by simpa using ha.quiet.procs,?_,hpu.owned⟩
    rintro s' v' ⟨i,p,hi,hp⟩
    exact htr s' v' ⟨i,p,by simpa using hi,hp⟩

lemma Fills.refl (h : Owned c k hand) (s first : Nat) : Fills c hand 0 s first first k k :=
  ⟨h,.refl c _ k,fun _ _ => id,.of_eq rfl⟩

lemma Fills.trans (h1 : first ≤ mid) (h2 : mid ≤ last) (h : Fills c hand n s first mid k k')
    (h' : Fills c hand m s mid last k' k'') : Fills c hand (n+m) s first last k k'' where
  owned := h'.owned
  around := (h.around.mono (le_refl n) (fun _ _ hr => hr.mono (le_refl _) h2)).trans
    (h'.around.mono (le_refl m) (fun _ _ hr => hr.mono h1 (le_refl _)))
  tracked := fun s v ht => h.tracked s v (h'.tracked s v ht)
  recorded := h.recorded.trans h'.recorded

variable {last' : Nat}

lemma Fills.mono (h : Fills c hand n s first last k k') (hn : n ≤ m) (hl : last ≤ last') :
    Fills c hand m s first last' k k' :=
  {h with around := h.around.mono hn (fun _ _ hr => hr.mono (le_refl _) hl)}

lemma Kernel.loadPage_fills (h : Owned c k hand) (hs : c.live s) (hv : va < userAddressLimit)
    (hali : va%pageSize = 0) (w x : Bool) {r : Bool} (hr : k.loadPage s va (pteFlags w x) = (k',r)) :
    Fills c hand 4 s (va/pageSize) (va/pageSize+1) k k' := by
  obtain ⟨hu,hfl⟩ := pteFlags_user w x
  rw [loadPage] at hr
  rcases hall : k.allocFrame with ⟨k1,a⟩
  obtain ⟨hal,-,ha⟩ := Allocs.allocFrame h hall
  have har := Around.of_allocs hal (Range s (va/pageSize) (va/pageSize+1))
  have htr : ∀ s v, k1.Tracks s v → k.Tracks s v := by
    rintro s' v' ⟨i,p,hi,hp⟩
    exact ⟨i,p,hal.quiet.tracked i p hi,hp⟩
  cases a with
  | none =>
    rw [hall] at hr
    cases hr
    exact ⟨ha.1,har.mono (by omega) (fun _ _ => id),htr,.of_eq hal.quiet.procs⟩
  | some f =>
    obtain ⟨ho,hon⟩ := ha
    simp only [hall,fillFrame,overlay_nil] at hr
    have ho2 : Owned c {k1 with mem := update k1.mem f (fun _ => 0)} (f::hand) :=
      ho.congr rfl rfl (fun _ => rfl) ho.tracked
    rcases hm : {k1 with mem := update k1.mem f (fun _ => 0)}.map s va f (pteFlags w x) with ⟨k2,a⟩
    obtain ⟨ha2,hpr,ht2,ho'⟩ := mapAny_spec ho2 hon hs hv hali hu hfl hm
    have hb := (har.trans (.mem _)).trans (ha2.mono (le_refl 3) (fun _ _ => Range.of_at))
    have ht' : ∀ s v, k2.Tracks s v → k.Tracks s v := fun s v ht => htr s v (ht2 s v ht)
    have hp' : k2.procs = k.procs := hpr.trans hal.quiet.procs
    simp only [hm] at hr
    cases a with
    | ok u =>
      cases hr
      exact ⟨ho'.setProcs _,hb.trans (.procs _),ht',⟨fun l => l++[va],modifyProc_congr hp' _⟩⟩
    | error e =>
      cases hr
      have hf := hb.trans (.freeFrame ho')
      obtain ⟨frames,hfr,ho'',-⟩ := Owned.free ho'
      rw [hfr] at hf ⊢
      exact ⟨ho'',hf,ht',.of_eq hp'⟩

lemma Kernel.growHeap_fills (h : Owned c k hand) (hs : c.live s) (hv : va%pageSize = 0)
    (he : va+pages*pageSize ≤ userAddressLimit) {r : Bool} (hru : growHeap s pages k va = (k',r)) :
    Fills c hand (4*pages) s (va/pageSize) (va/pageSize+pages) k k' := by
  induction pages generalizing k va with
  | zero =>
    cases hru
    exact .refl h s _
  | succ pages ih =>
    obtain ⟨hn,hl,hr⟩ := pages_step he
    rw [growHeap] at hru
    rcases hst : k.loadPage s va (pteFlags true false) with ⟨k1,b⟩
    have ho := loadPage_fills h hs hl hv true false hst
    rw [hst] at hru
    cases b with
    | false =>
      cases hru
      exact ho.mono (by omega) (by omega)
    | true =>
      have hm : (va+pageSize)%pageSize = 0 := by simp [hv]
      have hre := ih ho.owned hm hr hru
      rw [hn] at hre
      have hb := ho.trans (by omega) (by omega) hre
      rwa [show 4*(pages+1) = 4+4*pages by omega,show va/pageSize+(pages+1) = va/pageSize+1+pages by omega]

lemma Vacant.fills (h : Vacant c s mid last k) (hs : c.live s) (hla : last ≤ userPages)
    (hf : Fills c hand n s first mid k k') : Vacant c s mid last k' := by
  intro v h1 h2
  obtain ⟨hp,hsw,htr,hl⟩ := h v h1 h2
  have hfa := hf.around.leaf s v hs (by omega) (fun hr => by have := hr.2.2; omega)
  rw [hfa.of_absent hp]
  exact ⟨hp,hsw,fun ht => htr (hf.tracked s v ht),hl⟩

lemma Vacant.mono (h : Vacant c s first last k) (h1 : first ≤ mid) (h2 : last' ≤ last) : Vacant c s mid last' k :=
  fun v hl hh => h v (by omega) (by omega)

namespace Grows

lemma of_idle (h : Idle c hand n k k') (s first : Nat) : Grows c hand n s first first k k' where
  owned := h.owned
  around := h.around.mono (le_refl n) (fun _ _ => False.elim)
  tracked := fun s v ht => (h.around.tracked s v ht).resolve_right id
  recorded := .of_eq h.procs
  content := h.content.mono (fun _ _ => False.elim)
  pages := fun v h1 h2 => by omega

lemma mono (h : Grows c hand n s first last k k') (hn : n ≤ m) : Grows c hand m s first last k k' :=
  {h with around := h.around.mono hn (fun _ _ => id)}

lemma trans (hsl : Slots c k none) (hs : c.live s) (hv : Vacant c s first mid k) (h1 : first ≤ mid)
    (h2 : mid ≤ last) (hla : last ≤ userPages) (h : Grows c hand n s first mid k k')
    (h' : Grows c hand m s mid last k' k'') : Grows c hand (n+m) s first last k k'' where
  toFills := h.toFills.trans h1 h2 h'.toFills
  content := (h.content.mono (fun _ _ hr => hr.mono (le_refl _) h2)).trans
    (h'.content.mono (fun _ _ hr => hr.mono h1 (le_refl _)))
  pages := fun v hlo hh => by
    by_cases hm : mid ≤ v
    · exact h'.pages v hm hh
    obtain ⟨-,-,ht,hl⟩ := hv v hlo (by omega)
    have ho : ¬Range s mid last s v := fun hr => hm hr.2.1
    have hle : k''.leaf s v = k'.leaf s v := by
      by_contra hn
      exact ht (h.tracked s v (h'.around.touched s v hs (by omega) ho hn).2.2)
    obtain ⟨f,hf,hz⟩ := h.pages v hlo (by omega)
    refine ⟨f,hle.trans hf,?_⟩
    rw [(h'.content (h.content hsl).1).2 s v hs (by omega) ho hl]
    exact hz

end Grows
variable {r : Bool} {aligned length addr : Nat}

lemma Kernel.loadPage_grows (h : Owned c k hand) (hs : c.live s) (hva : va < userAddressLimit)
    (ha : va%pageSize = 0) (hv : Vacant c s (va/pageSize) (va/pageSize+1) k)
    (hr : k.loadPage s va (pteFlags true false) = (k',r)) :
    if r then Grows c hand 4 s (va/pageSize) (va/pageSize+1) k k'
      else Idle c hand 4 k k' ∧ k.frames.freeFrames < 4 := by
  obtain ⟨hp,hsw,-⟩ := hv _ (le_refl _) (Nat.lt_succ_self _)
  have hf := loadPage_fills h hs hva ha true false hr
  have hsp := loadPage_spec h hs hva ha hp true false hr
  cases r with
  | false => exact hsp
  | true =>
    obtain ⟨-,f,hpu⟩ := hsp
    refine ⟨hf,(hpu.content hsw).mono (fun _ _ => Range.of_at),fun v h1 h2 => ⟨f,?_⟩⟩
    have he : v = va/pageSize := by omega
    rw [he,content,hpu.leaf]
    refine ⟨rfl,?_⟩
    rw [contentOf_present hpu.present,hpu.frame,hpu.bytes]

lemma Kernel.growHeap_spec (h : Owned c k hand) (hsl : Slots c k none) (hs : c.live s)
    (hva : va%pageSize = 0) (he : va+pages*pageSize ≤ userAddressLimit)
    (hv : Vacant c s (va/pageSize) (va/pageSize+pages) k) (hru : growHeap s pages k va = (k',r)) :
    ∃ done, done ≤ pages ∧ Grows c hand (4*pages) s (va/pageSize) (va/pageSize+done) k k' ∧ (r = true → done = pages) ∧
      (r = false → done < pages ∧ k.frames.freeFrames < 4*(done+1)) := by
  induction pages generalizing k va with
  | zero =>
    cases hru
    exact ⟨0,le_refl 0,.of_idle (.refl h) s _,fun _ => rfl,nofun⟩
  | succ pages ih =>
    obtain ⟨hn,hl,hre⟩ := pages_step he
    have hb : va/pageSize+(pages+1) ≤ userPages := by
      have : (va+(pages+1)*pageSize)/pageSize ≤ userAddressLimit/pageSize := Nat.div_le_div_right he
      rwa [Nat.add_mul_div_right _ _ (by decide)] at this
    have hf : Vacant c s (va/pageSize) (va/pageSize+1) k := hv.mono (le_refl _) (by omega)
    rw [growHeap] at hru
    rcases hst : k.loadPage s va (pteFlags true false) with ⟨k1,b⟩
    have ho := loadPage_grows h hs hl hva hf hst
    rw [hst] at hru
    cases b with
    | false =>
      obtain ⟨hi,hfr⟩ := ho
      cases hru
      exact ⟨0,by omega,(Grows.of_idle hi s _).mono (by omega),nofun,fun _ => ⟨by omega,by omega⟩⟩
    | true =>
      have hres : Vacant c s (va/pageSize+1) (va/pageSize+1+pages) k1 :=
        (hv.mono (by omega) (by omega)).fills hs (by omega) ho.toFills
      have hm : (va+pageSize)%pageSize = 0 := by simp [hva]
      obtain ⟨done,hd,hg,ht,hfa⟩ := ih ho.owned (ho.content hsl).1 hm hre
        (by rwa [hn]) hru
      rw [hn] at hg
      have hbo := ho.trans hsl hs hf (by omega) (by omega) (by omega) hg
      refine ⟨done+1,by omega,?_,fun hr => by rw [ht hr],fun hr => ?_⟩
      · rwa [show 4*(pages+1) = 4+4*pages by omega,show va/pageSize+(done+1) = va/pageSize+1+done by omega]
      obtain ⟨hlt,hfr⟩ := hfa hr
      have := ho.around.free
      exact ⟨by omega,by omega⟩

lemma Kernel.alignLength_some (h : alignLength length = some aligned) : aligned%pageSize = 0 ∧ length ≤ aligned := by
  unfold alignLength at h
  split_ifs at h with hl
  rw [← Option.some.inj h]
  simp only [alignDown,pageSize] at *
  omega

lemma div_mul_of_mod {x : Nat} (h : x%pageSize = 0) : x/pageSize*pageSize = x :=
  Nat.div_mul_cancel (Nat.dvd_of_mod_eq_zero h)

lemma Kernel.unmapRange_spec (h : Owned c k hand) (hs : c.live s) (had : addr%pageSize = 0)
    (ha : aligned%pageSize = 0) (he : addr+aligned ≤ userAddressLimit)
    (hl : ∀ v, addr/pageSize ≤ v → v < (addr+aligned)/pageSize → ¬c.lent s v) :
    Drops c hand s (addr/pageSize) ((addr+aligned)/pageSize) k (unmapPages s (aligned/pageSize) k addr) := by
  have hm := div_mul_of_mod ha
  have hsu : addr/pageSize+aligned/pageSize = (addr+aligned)/pageSize := by
    simp only [pageSize] at *
    omega
  have hsp := unmapPages_spec (aligned/pageSize) h hs had (by omega) (fun v h1 h2 => hl v h1 (by omega))
  rwa [hsu] at hsp

lemma Kernel.munmap_spec (h : Owned c k hand) (hs : c.live s)
    (hw : ∀ aligned, alignLength length = some aligned → addr+aligned ≤ userAddressLimit ∧
      ∀ v, addr/pageSize ≤ v → v < (addr+aligned)/pageSize → ¬c.lent s v) {r : Except Unit Unit}
    (hr : k.munmap s addr length = (k',r)) :
    (k' = k ∧ r = .error ()) ∨ ∃ aligned k1, (r = .ok () ∧ alignLength length = some aligned) ∧
      addr%pageSize = 0 ∧ aligned%pageSize = 0 ∧ 0 < aligned ∧
      addr+aligned ≤ userAddressLimit ∧ Drops c hand s (addr/pageSize) ((addr+aligned)/pageSize) k k1 ∧
      k' = k1.removeRange s addr (addr+aligned) := by
  rw [munmap] at hr
  split_ifs at hr with hb
  · exact .inl ⟨(Prod.mk.inj hr).1.symm,(Prod.mk.inj hr).2.symm⟩
  cases hlen : alignLength length with
  | none =>
    rw [hlen] at hr
    exact .inl ⟨(Prod.mk.inj hr).1.symm,(Prod.mk.inj hr).2.symm⟩
  | some aligned =>
    obtain ⟨hm,hle⟩ := alignLength_some hlen
    obtain ⟨he,hl⟩ := hw aligned hlen
    have hwo : (addr+aligned)%2^64 = addr+aligned := Nat.mod_eq_of_lt (lt_of_le_of_lt he (by decide))
    have ha : addr%pageSize = 0 := by
      by_contra hn
      exact hb (.inl hn)
    have hp : 0 < aligned := by
      by_contra hn
      exact hb (.inr (by omega))
    have hd := unmapRange_spec h hs ha hm he hl
    simp only [hlen,hwo,Nat.add_sub_cancel_left] at hr
    exact .inr ⟨aligned,_,⟨(Prod.mk.inj hr).2.symm,rfl⟩,ha,hm,hp,he,hd,(Prod.mk.inj hr).1.symm⟩

variable {fixed : Bool} {p : Process}

lemma Kernel.mmapBase_error {e : Unit} (hr : k.mmapBase s p addr aligned fixed = (k',.error e)) : k' = k := by
  rw [mmapBase] at hr
  split_ifs at hr
  · exact (Prod.mk.inj hr).1.symm
  · cases (Prod.mk.inj hr).2
  · cases (Prod.mk.inj hr).2
  split at hr
  · exact (Prod.mk.inj hr).1.symm
  · cases (Prod.mk.inj hr).2

lemma Kernel.mmapBase_spec {base : Nat} (h : Owned c k hand) (hs : c.live s) (ha : aligned%pageSize = 0)
    (hle : fixed = true → ∀ v, addr/pageSize ≤ v → v < (addr+aligned)/pageSize → ¬c.lent s v)
    {r : Except Unit Nat} (hru : k.mmapBase s p addr aligned fixed = (k',r)) (hr : r = .ok base) :
    (fixed = true ∧ base = addr ∧ addr%pageSize = 0 ∧ addr+aligned < userStackStart ∧
      ∃ k1, Drops c hand s (addr/pageSize) ((addr+aligned)/pageSize) k k1 ∧ k' = k1.removeRange s addr (addr+aligned)) ∨
    (fixed = false ∧ base = addr ∧ hintOk p.memoryMap addr aligned = true ∧ k' = k) ∨
    (fixed = false ∧ findBase p.memoryMap aligned (p.memoryMap.vmas.entries.length+1) p.mmapNext = some base ∧
      k' = k.modifyProc s (fun p => {p with mmapNext := base+aligned})) := by
  subst hr
  rw [mmapBase] at hru
  cases fixed with
  | true =>
    simp only [if_true] at hru
    split_ifs at hru with hba
    · cases (Prod.mk.inj hru).2
    obtain ⟨rfl,hb⟩ := Prod.mk.inj hru
    cases hb
    have had : addr%pageSize = 0 := by
      by_contra hn
      exact hba (.inr (.inl hn))
    have he : addr+aligned < userStackStart := by omega
    have hl : userStackStart ≤ userAddressLimit := by decide
    exact .inl ⟨rfl,rfl,had,he,_,unmapRange_spec h hs had ha (by omega) (hle rfl),rfl⟩
  | false =>
    simp only [Bool.false_eq_true,if_false] at hru
    split_ifs at hru with hh
    · obtain ⟨rfl,hb⟩ := Prod.mk.inj hru
      cases hb
      exact .inr (.inl ⟨rfl,rfl,hh,rfl⟩)
    cases hf : findBase p.memoryMap aligned (p.memoryMap.vmas.entries.length+1) p.mmapNext with
    | none =>
      rw [hf] at hru
      cases (Prod.mk.inj hru).2
    | some b =>
      rw [hf] at hru
      obtain ⟨rfl,hb⟩ := Prod.mk.inj hru
      cases hb
      exact .inr (.inr ⟨rfl,rfl,rfl⟩)

lemma Owned.protectAreas (h : Owned c k hand) (start stop : Nat) (flags : VmaFlags) :
    Owned c (k.protectAreas s start stop flags) hand := by
  rw [Kernel.protectAreas]
  split
  · exact h
  · exact h.setProcs _

variable {prot : Nat}

lemma Kernel.mprotect_eq (ha : ¬addr%pageSize ≠ 0) (hl : length ≠ 0)
    (hle : alignLength length = some aligned) (he : ¬(addr+aligned ≥ 2^64 ∨ addr+aligned ≥ userAddressLimit)) :
    k.mprotect s addr length prot =
      match (k.protectAreas s addr (addr+aligned) (protFlags prot)).protect s addr (aligned/pageSize)
        (pteFlags (prot.testBit 1) (prot.testBit 2)) with
      | (k,.ok _) => (k,true)
      | (k,.error _) => (k,false) := by
  unfold mprotect
  rw [if_neg ha,if_neg hl,hle]
  dsimp only
  rw [if_neg he]
  rfl

lemma Kernel.mprotect_spec (h : Owned c k hand) (hs : c.live s) (hr : k.mprotect s addr length prot = (k',r)) :
    k' = k ∨ ∃ aligned, alignLength length = some aligned ∧ addr%pageSize = 0 ∧ aligned%pageSize = 0 ∧
      addr+aligned < userAddressLimit ∧ r = true ∧
      Protects c hand s (addr/pageSize) ((addr+aligned)/pageSize) (pteFlags (prot.testBit 1) (prot.testBit 2))
        (k.protectAreas s addr (addr+aligned) (protFlags prot)) k' := by
  obtain ⟨hu,hf⟩ := pteFlags_user (prot.testBit 1) (prot.testBit 2)
  by_cases hb : addr%pageSize ≠ 0
  · rw [mprotect,if_pos hb] at hr
    exact .inl (Prod.mk.inj hr).1.symm
  by_cases hz : length = 0
  · rw [mprotect,if_neg hb,if_pos hz] at hr
    exact .inl (Prod.mk.inj hr).1.symm
  cases hle : alignLength length with
  | none =>
    rw [mprotect,if_neg hb,if_neg hz,hle] at hr
    exact .inl (Prod.mk.inj hr).1.symm
  | some aligned =>
    obtain ⟨hm,-⟩ := alignLength_some hle
    by_cases ho : addr+aligned ≥ 2^64 ∨ addr+aligned ≥ userAddressLimit
    · rw [mprotect,if_neg hb,if_neg hz,hle] at hr
      dsimp only at hr
      rw [if_pos ho] at hr
      exact .inl (Prod.mk.inj hr).1.symm
    have ha : addr%pageSize = 0 := by omega
    have hsu : addr/pageSize+aligned/pageSize = (addr+aligned)/pageSize := by
      simp only [pageSize] at *
      omega
    have he : addr+aligned/pageSize*pageSize ≤ userAddressLimit := by
      rw [div_mul_of_mod hm]
      omega
    rw [mprotect_eq hb hz hle ho,protect,if_neg hb] at hr
    cases hl : protectPages s (pteFlags (prot.testBit 1) (prot.testBit 2)) (aligned/pageSize)
        (k.protectAreas s addr (addr+aligned) (protFlags prot)) addr with
    | mk k2 a =>
      obtain ⟨rfl,hp⟩ := protectPages_spec _ (h.protectAreas _ _ _) hs he hu hf hl
      rw [hsu] at hp
      rw [hl] at hr
      cases hr
      exact .inr ⟨aligned,rfl,ha,hm,by omega,rfl,hp⟩

end
end Vanta.Mm
