import Vanta.Mm.Owned

namespace Vanta.Mm
open Library Memory Kernel Function

structure SameRights (e e' : Entry) : Prop where
  writable : hasFlag e' mapWritable = hasFlag e mapWritable
  user : hasFlag e' mapUser = hasFlag e mapUser
  noExecute : hasFlag e' mapNoExecute = hasFlag e mapNoExecute

/-- The entry `e` after reclaim: it still maps its frame, or it is untouched, or it was swapped out
with its rights. -/
def Faded (e e' : Entry) : Prop :=
  (hasFlag e' flagPresent = true ∧ hasFlag e flagPresent = true ∧ frameOf e' = frameOf e ∧ SameRights e e' ∧
    hasFlag e' mapCow = hasFlag e mapCow) ∨
  (hasFlag e' flagPresent = false ∧ e' = e) ∨
  (hasFlag e' flagPresent = false ∧ hasFlag e' mapSwapped = true ∧ hasFlag e flagPresent = true ∧
    hasFlag e mapCow = false ∧ SameRights e e')

lemma SameRights.refl (e : Entry) : SameRights e e := ⟨rfl,rfl,rfl⟩

variable {e e' e'' : Entry}

lemma SameRights.trans (h : SameRights e e') (h' : SameRights e' e'') : SameRights e e'' :=
  ⟨h'.writable.trans h.writable,h'.user.trans h.user,h'.noExecute.trans h.noExecute⟩

lemma Faded.refl (e : Entry) : Faded e e := by
  cases h : hasFlag e flagPresent with
  | true => exact .inl ⟨h,h,rfl,.refl e,rfl⟩
  | false => exact .inr (.inl ⟨h,rfl⟩)

lemma Faded.trans (h : Faded e e') (h' : Faded e' e'') : Faded e e'' := by
  rcases h with ⟨hp,hp0,hf,hr,hc⟩ | ⟨-,rfl⟩ | ⟨hp,hw,hp0,hc,hr⟩
  · rcases h' with ⟨hp',-,hf',hr',hc'⟩ | ⟨hp',rfl⟩ | ⟨hp',hw',-,hc',hr'⟩
    · exact .inl ⟨hp',hp0,hf'.trans hf,hr.trans hr',hc'.trans hc⟩
    · rw [hp] at hp'
      cases hp'
    · exact .inr (.inr ⟨hp',hw',hp0,hc ▸ hc',hr.trans hr'⟩)
  · exact h'
  rcases h' with ⟨-,hp',-⟩ | ⟨hp',rfl⟩ | ⟨-,-,hp',-⟩
  · rw [hp] at hp'
    cases hp'
  · exact .inr (.inr ⟨hp,hw,hp0,hc,hr⟩)
  · rw [hp] at hp'
    cases hp'

lemma Faded.clearAccessed (hp : hasFlag e flagPresent = true) : Faded e (e &&& ~~~flagAccessed) := by
  have hf : ∀ {i : Nat}, i < 64 → i ≠ 5 → hasFlag (e &&& ~~~flagAccessed) (bit i) = hasFlag e (bit i) := by
    intro i hi hn
    rw [flagAccessed,hasFlag_and,hasFlag_not _ hi,hasFlag_bit_bit 5 hi]
    simp [Ne.symm hn]
  refine .inl ⟨?_,hp,frameOf_clear e (by decide),⟨hf (by decide) (by decide),hf (by decide) (by decide),
    hf (by decide) (by decide)⟩,hf (by decide) (by decide)⟩
  rw [flagPresent,hf (by decide) (by decide)]
  exact hp

lemma Faded.swapOut (slot : Nat) (hp : hasFlag e flagPresent = true) (hc : hasFlag e mapCow = false) :
    Faded e (slotBits slot ||| (e &&& (mapWritable ||| mapUser ||| mapNoExecute)) ||| mapSwapped) := by
  refine .inr (.inr ⟨?_,?_,hp,hc,?_,?_,?_⟩) <;>
  simp (disch := decide) [flagPresent,mapWritable,mapUser,mapNoExecute,mapSwapped,hasFlag_bit_bit,hasFlag_slotBits]

namespace Kernel

/-- Frames run short within `n` allocations. -/
def Pressed (k : Kernel) (n : Nat) : Prop := 0 < k.lowWatermark ∧ k.frames.freeFrames < k.lowWatermark+n

def Tracks (k : Kernel) (s v : Nat) : Prop :=
  ∃ i p, k.swap.trackedPages i = some p ∧ p.space = s ∧ p.vaddr/pageSize = v

end Kernel

/-- What user space sees of `k'` comes from `k` by reclaim, under `pressure`, by new page tables, and by
taking at most `n` frames. -/
structure Still (c : Scope) (pressure : Prop) (n : Nat) (k k' : Kernel) : Prop where
  procs : k'.procs = k.procs
  cr3 : k'.cr3 = k.cr3
  watermark : k'.lowWatermark = k.lowWatermark
  initialized : k'.swapInitialized = k.swapInitialized
  leaf : ∀ s v, c.live s → v < userPages → Faded (k.leaf s v) (k'.leaf s v)
  touched : ∀ s v, c.live s → v < userPages → k'.leaf s v ≠ k.leaf s v →
    pressure ∧ k.swapInitialized = true ∧ k.Tracks s v
  table : ∀ s path t, c.live s → UserPath path → descend k.tables nextTable s path = some t →
    descend k'.tables nextTable s path = some t
  count : ∀ f, k'.frames.refcounts f ≤ max 1 (k.frames.refcounts f)
  free : k.frames.freeFrames ≤ k'.frames.freeFrames+n
  tracked : ∀ i p, k'.swap.trackedPages i = some p → k.swap.trackedPages i = some p

/-- The files stay, and so does the page cache but for clean pages that leave it under `pressure`. -/
structure SameCache (pressure : Prop) (k k' : Kernel) : Prop where
  files : k'.files = k.files
  sizes : k'.cache.fileSizes = k.cache.fileSizes
  cached : ∀ key e, k'.cache.entries.get key = some e → k.cache.entries.get key = some e
  dirty : ∀ key e, k.cache.entries.get key = some e → e.dirty = true → k'.cache.entries.get key = some e
  evicted : ∀ key, k'.cache.entries.get key ≠ k.cache.entries.get key → pressure
  bytes : ∀ key e, k'.cache.entries.get key = some e → k'.mem e.frame = k.mem e.frame

/-- Besides, the files and the pages of the cache stay, but for clean pages that leave it. -/
structure Quiet (c : Scope) (pressure : Prop) (n : Nat) (k k' : Kernel) : Prop extends
    Still c pressure n k k' where
  mem : k'.mem = k.mem
  files : k'.files = k.files
  sizes : k'.cache.fileSizes = k.cache.fileSizes
  cached : ∀ key e, k'.cache.entries.get key = some e → k.cache.entries.get key = some e
  dirty : ∀ key e, k.cache.entries.get key = some e → e.dirty = true → k'.cache.entries.get key = some e
  evicted : ∀ key, k'.cache.entries.get key ≠ k.cache.entries.get key → pressure

section
variable {c : Scope} {p q r : Prop} {n m s v t : Nat} {k k' k'' : Kernel} {hand : List Nat}
section
variable (hprocs : k'.procs = k.procs) (hcr3 : k'.cr3 = k.cr3)
  (hwater : k'.lowWatermark = k.lowWatermark) (hinit : k'.swapInitialized = k.swapInitialized)
  (htables : k'.tables = k.tables)

include hprocs hcr3 hwater hinit htables

lemma Still.of_tables (hc : ∀ f, k'.frames.refcounts f ≤ max 1 (k.frames.refcounts f))
    (hf : k.frames.freeFrames ≤ k'.frames.freeFrames+n)
    (htr : ∀ i p, k'.swap.trackedPages i = some p → k.swap.trackedPages i = some p) : Still c p n k k' where
  procs := hprocs
  cr3 := hcr3
  watermark := hwater
  initialized := hinit
  leaf := fun s v _ _ => by
    rw [leaf_congr htables]
    exact .refl _
  touched := fun s v _ _ hn => absurd (leaf_congr htables s v) hn
  table := fun s path t _ _ ht => by rwa [htables]
  count := hc
  free := hf
  tracked := htr

lemma Still.of_eq (hf : k'.frames = k.frames) (hs : k'.swap = k.swap) : Still c p n k k' :=
  .of_tables hprocs hcr3 hwater hinit htables (fun _ => hf ▸ le_max_right _ _)
    (hf ▸ Nat.le_add_right _ _) (fun _ _ h => hs ▸ h)

end

lemma Still.refl (c : Scope) (p : Prop) (k : Kernel) : Still c p 0 k k := .of_eq rfl rfl rfl rfl rfl rfl rfl

lemma Still.trans (h : Still c p n k k') (h' : Still c q m k' k'') (hp : p → r) (hq : q → r) :
    Still c r (n+m) k k'' where
  procs := h'.procs.trans h.procs
  cr3 := h'.cr3.trans h.cr3
  watermark := h'.watermark.trans h.watermark
  initialized := h'.initialized.trans h.initialized
  leaf := fun s v hs hv => (h.leaf s v hs hv).trans (h'.leaf s v hs hv)
  touched := fun s v hs hv hn => by
    by_cases hk : k'.leaf s v = k.leaf s v
    · obtain ⟨hpr,hinit,i,page,hi,hpa⟩ := h'.touched s v hs hv (hk ▸ hn)
      exact ⟨hq hpr,h.initialized ▸ hinit,i,page,h.tracked i page hi,hpa⟩
    · obtain ⟨hpr,hr⟩ := h.touched s v hs hv hk
      exact ⟨hp hpr,hr⟩
  table := fun s path t hs hp ht => h'.table s path t hs hp (h.table s path t hs hp ht)
  count := fun f => by
    have := h.count f
    have := h'.count f
    omega
  free := by
    have := h.free
    have := h'.free
    omega
  tracked := fun i page hi => h.tracked i page (h'.tracked i page hi)

lemma Still.leafTable (h : Still c p n k k') (hs : c.live s) (hv : v < userPages) (ht : k.leafTable s v = some t) :
    k'.leafTable s v = some t :=
  h.table s (vpath v) t hs (vpath_user hv) ht

lemma Still.mono (h : Still c p n k k') (hp : p → q) (hn : n ≤ m) : Still c q m k k' :=
  {h.trans (Still.refl c q k') hp id with free := by have := h.free; omega}

lemma Kernel.Pressed.mono (h : k.Pressed n) (hn : n ≤ m) : k.Pressed m := ⟨h.1,by have := h.2; omega⟩

lemma Still.pressed (h : Still c p n k k') (hp : k'.Pressed m) : k.Pressed (n+m) := by
  have hf := h.free
  obtain ⟨hpo,hl⟩ := hp
  rw [h.watermark] at hpo hl
  exact ⟨hpo,by omega⟩

namespace SameCache

lemma of_quiet (h : Quiet c p n k k') : SameCache p k k' where
  files := h.files
  sizes := h.sizes
  cached := h.cached
  dirty := h.dirty
  evicted := h.evicted
  bytes := fun _ _ _ => by rw [h.mem]

lemma trans (h : SameCache p k k') (h' : SameCache q k' k'') (hp : p → r) (hq : q → r) : SameCache r k k'' where
  files := h'.files.trans h.files
  sizes := h'.sizes.trans h.sizes
  cached := fun key e he => h.cached key e (h'.cached key e he)
  dirty := fun key e he hd => h'.dirty key e (h.dirty key e he hd) hd
  evicted := fun key hn => by
    by_cases hk : k'.cache.entries.get key = k.cache.entries.get key
    · exact hq (h'.evicted key (hk ▸ hn))
    · exact hp (h.evicted key hk)
  bytes := fun key e he => (h'.bytes key e he).trans (h.bytes key e (h'.cached key e he))

lemma of_eq (hf : k'.files = k.files) (hc : k'.cache = k.cache)
    (hb : ∀ key e, k.cache.entries.get key = some e → k'.mem e.frame = k.mem e.frame) : SameCache p k k' where
  files := hf
  sizes := by rw [hc]
  cached := fun key e he => hc ▸ he
  dirty := fun key e he _ => hc ▸ he
  evicted := fun key hn => absurd (by rw [hc]) hn
  bytes := fun key e he => hb key e (hc ▸ he)

end SameCache
namespace Quiet

lemma of_sameCache (hs : Still c p n k k') (hm : k'.mem = k.mem) (h : SameCache p k k') : Quiet c p n k k' where
  toStill := hs
  mem := hm
  files := h.files
  sizes := h.sizes
  cached := h.cached
  dirty := h.dirty
  evicted := h.evicted

lemma of_eq (hm : k'.mem = k.mem) (hf : k'.files = k.files) (hc : k'.cache = k.cache)
    (hs : Still c p n k k') : Quiet c p n k k' :=
  .of_sameCache hs hm (.of_eq hf hc (fun _ _ _ => by rw [hm]))

lemma refl (c : Scope) (p : Prop) (k : Kernel) : Quiet c p 0 k k := of_eq rfl rfl rfl (.refl c p k)

lemma trans (h : Quiet c p n k k') (h' : Quiet c q m k' k'') (hp : p → r) (hq : q → r) : Quiet c r (n+m) k k'' :=
  .of_sameCache (h.toStill.trans h'.toStill hp hq) (h'.mem.trans h.mem)
    ((SameCache.of_quiet h).trans (.of_quiet h') hp hq)

lemma append (h : Quiet c (k.Pressed n) n k k') (h' : Quiet c (k'.Pressed m) m k' k'') :
    Quiet c (k.Pressed (n+m)) (n+m) k k'' :=
  h.trans h' (fun hp => hp.mono (by omega)) h.toStill.pressed

lemma mono (h : Quiet c p n k k') (hp : p → q) (hn : n ≤ m) : Quiet c q m k k' where
  toStill := h.toStill.mono hp hn
  mem := h.mem
  files := h.files
  sizes := h.sizes
  cached := h.cached
  dirty := h.dirty
  evicted := fun key hne => hp (h.evicted key hne)

lemma swap {swap : SwapManager} (ht : ∀ i p, swap.trackedPages i = some p → k.swap.trackedPages i = some p) :
    Quiet c p 0 k {k with swap := swap} :=
  of_eq rfl rfl rfl (.of_tables rfl rfl rfl rfl rfl (fun _ => le_max_right _ _) (le_refl _) ht)

lemma recount {frames : BuddyAllocator} (hc : ∀ f, frames.refcounts f ≤ max 1 (k.frames.refcounts f))
    (hf : k.frames.freeFrames ≤ frames.freeFrames+n) : Quiet c p n k {k with frames := frames} :=
  of_eq rfl rfl rfl (.of_tables rfl rfl rfl rfl rfl hc hf (fun _ _ h => h))

lemma fadeLeaf (h : Owned c k hand) (hs : c.live s) (hv : v < userPages) (ht : k.leafTable s v = some t)
    (hf : Faded (k.leaf s v) e) (hp : p) (hinit : k.swapInitialized = true) (htr : k.Tracks s v) :
    Quiet c p 0 k (k.writeEntry t (v%512) e) := .of_eq rfl rfl rfl {
  procs := rfl
  cr3 := rfl
  watermark := rfl
  initialized := rfl
  leaf := fun s' v' hs' hv' => by
    rw [h.leaf_writeEntry hs hv ht e hs' hv']
    split_ifs with hsa
    · obtain ⟨rfl,rfl⟩ := hsa
      exact hf
    · exact .refl _
  touched := fun s' v' hs' hv' hn => by
    rw [h.leaf_writeEntry hs hv ht e hs' hv'] at hn
    split_ifs at hn with hsa
    · obtain ⟨rfl,rfl⟩ := hsa
      exact ⟨hp,hinit,htr⟩
    · exact absurd rfl hn
  table := fun s' path t' hs' hp' ht' => by rwa [h.descend_writeEntry hs hv ht _ e hs' hp']
  count := fun _ => le_max_right _ _
  free := le_refl _
  tracked := fun _ _ hi => hi}

end Quiet
end
variable {va : Nat}

namespace Owned
variable {c : Scope} {k : Kernel} {hand : List Nat} {s v t f : Nat}
section
variable (h : Owned c k hand)
include h

lemma walk_eq (hs : c.live s) (path rest : List Nat) (hp : UserPath (path++rest))
    (hd : descend k.tables nextTable s path = some t) :
    walk k.tables t rest = .ok (descend k.tables nextTable t rest) := by
  induction rest generalizing path t with
  | nil => rfl
  | cons i rest ih =>
    have hp' : UserPath ((path++[i])++rest) := by simpa using hp
    have hc := descend_concat k.tables nextTable s path i
    rw [hd,Option.bind_some] at hc
    rw [walk,descend]
    cases hpr : hasFlag (k.tables t i) flagPresent with
    | false => simp [nextTable,hpr]
    | true =>
      obtain ⟨f,he⟩ := h.upper s path i t hs (hp'.of_prefix (List.prefix_append _ _)) hd hpr
      have hn := he.next
      obtain ⟨-,hh,hfr⟩ := nextTable_some hn
      rw [hn] at hc
      simp only [hh,hn,hfr,Option.bind_some,Bool.not_true,Bool.false_eq_true,if_false]
      exact ih (path++[i]) hp' hc

lemma pteLocation_eq (hs : c.live s) (hva : va < userAddressLimit) :
    k.pteLocation s va = .ok (k.leafTable s (va/pageSize)) := by
  have hv : va/pageSize < userPages := by
    simp only [userAddressLimit,pageSize,userPages] at *
    omega
  rw [pteLocation,upperIndices_eq]
  exact h.walk_eq hs [] _ (vpath_user hv) rfl

lemma recache {cache : PageCache} {ha' : List Nat}
    (hc : Counted (Holds c {k with cache := cache}) k.frames.refcounts ha') :
    Owned c {k with cache := cache} ha' where
  buddy := h.buddy
  counted := hc
  single := h.single
  once := h.once
  upper := h.upper
  user := h.user
  tracked := h.tracked

lemma reswap (swap : SwapManager) (disk : Nat → Nat → UInt8)
    (ht : ∀ i p, swap.trackedPages i = some p → k.swap.trackedPages i = some p) :
    Owned c {k with swap := swap, swapDisk := disk} hand :=
  h.congr rfl rfl (fun _ => rfl) (fun i p hi => h.tracked i p (ht i p hi))

variable {key : PageKey} {entry : PageEntry}

lemma eraseCached (hk : k.cache.entries.get key = some entry) :
    Owned c {k with cache := {k.cache with entries := k.cache.entries.erase key}} (entry.frame::hand) := by
  have hh : Holds c k (.cached key) entry.frame := ⟨entry,hk,rfl⟩
  refine h.recache (h.counted.lift hh (fun u f hu => ?_) ?_)
  · cases u with
    | cached key' =>
      obtain ⟨e,he,hf⟩ := hu
      simp only [OrdMap.get_erase] at he
      split_ifs at he
      exact ⟨e,he,hf⟩
    | table s path | page s v => exact hu
  · rintro ⟨e,he,-⟩
    simp [OrdMap.get_erase] at he

lemma dropCached (hk : k.cache.entries.get key = some entry) :
    ∃ frames, ({k with cache := {k.cache with entries := k.cache.entries.erase key}}.freeFrame entry.frame).1 =
        {k with cache := {k.cache with entries := k.cache.entries.erase key}, frames := frames} ∧
      Owned c {k with cache := {k.cache with entries := k.cache.entries.erase key}, frames := frames} hand ∧
      k.frames.freeFrames ≤ frames.freeFrames ∧ ∀ f, frames.refcounts f ≤ k.frames.refcounts f := by
  obtain ⟨frames,hfr,ho,hl,hc⟩ := (h.eraseCached hk).free
  refine ⟨frames,by rw [hfr],ho,hl,fun f => ?_⟩
  rw [hc,update_apply]
  split_ifs with hf
  · rw [hf]
    exact Nat.sub_le _ _
  · exact le_refl _

end
end Owned
section
variable {c : Scope} {k : Kernel} {hand : List Nat} {s v t f : Nat}

lemma Kernel.evictEntry_spec (h : Owned c k hand) (key : PageKey) :
    Owned c (k.evictEntry key) hand ∧ Quiet c True 0 k (k.evictEntry key) := by
  unfold evictEntry
  cases hk : k.cache.entries.get key with
  | none => exact ⟨h,.refl c True k⟩
  | some entry =>
    simp only
    split_ifs with hdi
    · exact ⟨h,.refl c True k⟩
    obtain ⟨frames,hf,ho,hl,hc⟩ := h.dropCached hk
    rw [hf]
    refine ⟨ho,⟨.of_tables rfl rfl rfl rfl rfl (fun f => le_trans (hc f) (le_max_right _ _)) hl
      (fun _ _ hi => hi),rfl,rfl,rfl,fun key' e he => ?_,fun key' e he hd => ?_,fun _ _ => trivial⟩⟩
    · simp only [OrdMap.get_erase] at he
      split_ifs at he
      exact he
    simp only [OrdMap.get_erase]
    split_ifs with hs
    · subst hs
      rw [hk] at he
      cases he
      exact absurd hd hdi
    · exact he

lemma Quiet.foldl {α : Type} {step : Kernel → α → Kernel}
    (hs : ∀ k x, Owned c k hand → Owned c (step k x) hand ∧ Quiet c True 0 k (step k x)) (l : List α)
    (h : Owned c k hand) : Owned c (l.foldl step k) hand ∧ Quiet c True 0 k (l.foldl step k) := by
  induction l generalizing k with
  | nil => exact ⟨h,.refl c True k⟩
  | cons x l ih =>
    obtain ⟨ho,hq⟩ := hs k x h
    obtain ⟨ho',hq'⟩ := ih ho
    exact ⟨ho',hq.trans hq' id id⟩

lemma Kernel.evictCleanPages_spec (h : Owned c k hand) (n : Nat) :
    Owned c (k.evictCleanPages n) hand ∧ Quiet c True 0 k (k.evictCleanPages n) :=
  Quiet.foldl (fun _ key h => evictEntry_spec h key) _ h

lemma Kernel.Tracks.bounds (h : Owned c k hand) (ht : k.Tracks s v) : v < userPages := by
  obtain ⟨i,p,hi,rfl,rfl⟩ := ht
  have hlt := (h.tracked i p hi).2.1
  simp only [userAddressLimit,pageSize,userPages] at *
  omega

lemma alignDown_lt (h : va < userAddressLimit) : alignDown va < userAddressLimit :=
  lt_of_le_of_lt (Nat.div_mul_le_self va pageSize) h

lemma Owned.pteLocation_page (h : Owned c k hand) (hs : c.live s) (hv : va < userAddressLimit) :
    k.pteLocation s (alignDown va) = .ok (k.leafTable s (va/pageSize)) ∧ indexPt (alignDown va) = va/pageSize%512 := by
  rw [h.pteLocation_eq hs (alignDown_lt hv),indexPt_eq,alignDown_div]
  exact ⟨rfl,rfl⟩

variable {i : Nat} {p : TrackedUserPage} {k' : Kernel}

lemma Kernel.checkAndClearAccessed_spec (h : Owned c k hand)
    (hp : k.swap.trackedPages i = some p) (hinit : k.swapInitialized = true)
    {r : Except MapError (Option Bool)} (hr : k.checkAndClearAccessed p.space p.vaddr = (k',r)) :
    Owned c k' hand ∧ Quiet c True 0 k k' ∧ (r = .ok (some false) → k' = k ∧
      ∃ t, k.leafTable p.space (p.vaddr/pageSize) = some t ∧
        hasFlag (k.leaf p.space (p.vaddr/pageSize)) flagPresent = true ∧
        hasFlag (k.leaf p.space (p.vaddr/pageSize)) mapCow = false) := by
  have htr : k.Tracks p.space (p.vaddr/pageSize) := ⟨i,p,hp,rfl,rfl⟩
  obtain ⟨hs,hva,-⟩ := h.tracked i p hp
  have hv := htr.bounds h
  obtain ⟨hl,hi⟩ := h.pteLocation_page hs hva
  rw [checkAndClearAccessed,hl] at hr
  cases ht : k.leafTable p.space (p.vaddr/pageSize) with
  | none =>
    simp only [ht] at hr
    cases hr
    exact ⟨h,.refl c True k,by simp⟩
  | some t =>
    simp only [ht,hi,← leaf_eq ht] at hr
    split_ifs at hr with hpr hc ha <;> simp only [Prod.mk.injEq] at hr <;> obtain ⟨rfl,rfl⟩ := hr
    · exact ⟨h,.refl c True k,by simp⟩
    · exact ⟨h,.refl c True k,by simp⟩
    · have hp' : hasFlag (k.leaf p.space (p.vaddr/pageSize)) flagPresent = true := by simpa using hpr
      have hf := frameOf_clear (k.leaf p.space (p.vaddr/pageSize)) (show FlagBit 5 by decide)
      have hu := h.user _ _ hs hv hp'
      exact ⟨h.writeLeaf_keep hs hv ht (fun _ => ⟨hp',hf,by
          simpa (disch := decide) [flagAccessed,mapUser,hasFlag_not,hasFlag_bit_bit] using hu⟩),
        .fadeLeaf h hs hv ht (.clearAccessed hp') trivial hinit htr,by simp⟩
    · exact ⟨h,.refl c True k,fun _ => ⟨rfl,t,rfl,by simpa using hpr,by simpa using hc⟩⟩

lemma dropTracked_sub {m : SwapManager} (index : Nat) (i : Nat) (p : TrackedUserPage)
    (h : (m.dropTracked index).trackedPages i = some p) : m.trackedPages i = some p := by
  simp only [SwapManager.dropTracked,update_apply] at h
  split_ifs at h
  exact h

lemma freeSlot_tracked (m : SwapManager) (slot : Nat) : (m.freeSlot slot).trackedPages = m.trackedPages := by
  unfold SwapManager.freeSlot
  split_ifs <;> rfl

variable {r : Option Nat}

lemma allocSlot_tracked {m m' : SwapManager} (h : m.allocSlot = (m',r)) : m'.trackedPages = m.trackedPages := by
  unfold SwapManager.allocSlot at h
  cases hf : firstIndex (fun i => !m.bitmap i) maxSwapSlots 0 with
  | none | some slot =>
    simp only [hf,Prod.mk.injEq] at h
    rw [← h.1]

lemma Kernel.swapVictim_spec (slot : Nat) (h : Owned c k hand)
    (hp : k.swap.trackedPages i = some p) (hinit : k.swapInitialized = true)
    (ht : k.leafTable p.space (p.vaddr/pageSize) = some t)
    (hpr : hasFlag (k.leaf p.space (p.vaddr/pageSize)) flagPresent = true)
    (hcow : hasFlag (k.leaf p.space (p.vaddr/pageSize)) mapCow = false) :
    ∃ k' f, ({k with swap := k.swap.dropTracked i}).swapPageOut p.space p.vaddr slot = (k',.ok f) ∧
      Owned c k' hand ∧ Quiet c True 0 k k' := by
  have htr : k.Tracks p.space (p.vaddr/pageSize) := ⟨i,p,hp,rfl,rfl⟩
  obtain ⟨hs,hva,hl⟩ := h.tracked i p hp
  have hv := htr.bounds h
  obtain ⟨hlo,hi⟩ := h.pteLocation_page hs hva
  set e := k.leaf p.space (p.vaddr/pageSize) with he
  set out := slotBits slot ||| (e &&& (mapWritable ||| mapUser ||| mapNoExecute)) ||| mapSwapped with hou
  have hfa : Faded e out := Faded.swapOut slot hpr hcow
  have hg : hasFlag out flagPresent = false := by
    rcases hfa with ⟨hp',-⟩ | ⟨hp',-⟩ | ⟨hp',-⟩
    · simp (disch := decide) [hou,flagPresent,mapWritable,mapUser,mapNoExecute,mapSwapped,hasFlag_bit_bit,
        hasFlag_slotBits] at hp'
    · exact hp'
    · exact hp'
  have hq : Quiet c True 0 k (k.writeEntry t (p.vaddr/pageSize%512) out) :=
    .fadeLeaf h hs hv ht hfa trivial hinit htr
  have hc := (h.writeLeaf_clear hs hv ht hl hpr hg).reswap (k.swap.dropTracked i)
    (update k.swapDisk slot (k.mem (frameOf e))) (dropTracked_sub i)
  obtain ⟨frames,hfr,ho,hle,hco⟩ := hc.free
  refine ⟨_,frameOf e,?_,ho,?_⟩
  · have hl' : ({k with swap := k.swap.dropTracked i}).pteLocation p.space (alignDown p.vaddr) = .ok (some t) :=
      hlo.trans (by rw [ht])
    rw [swapPageOut,hl']
    simp only [hi,← leaf_eq ht,← he,hpr,Bool.not_true,Bool.false_eq_true,if_false,Prod.mk.injEq,and_true]
    exact congrArg Prod.fst hfr
  · refine hq.trans (q := True) (m := 0) (.of_eq rfl rfl rfl (.of_tables rfl rfl rfl rfl rfl (fun f => ?_) hle
      (dropTracked_sub i))) id id
    rw [hco,update_apply]
    split_ifs with hf
    · rw [hf]
      exact le_trans (Nat.sub_le _ _) (le_max_right _ _)
    · exact le_max_right _ _

lemma Kernel.clockScan_spec (slot fuel : Nat) (h : Owned c k hand) (hinit : k.swapInitialized = true) :
    Owned c (clockScan slot fuel k).1 hand ∧ Quiet c True 0 k (clockScan slot fuel k).1 := by
  induction fuel generalizing k with
  | zero =>
    have hf : ∀ i p, (k.swap.freeSlot slot).trackedPages i = some p → k.swap.trackedPages i = some p := by
      intro i p hi
      rwa [freeSlot_tracked] at hi
    exact ⟨h.reswap _ _ hf,.swap hf⟩
  | succ fuel ih =>
    have hh : ∀ n i p, ({k.swap with clockHand := n} : SwapManager).trackedPages i = some p →
        k.swap.trackedPages i = some p := fun _ _ _ hi => hi
    set k1 : Kernel := {k with swap := {k.swap with clockHand := (k.swap.clockHand+1)%maxTrackedPages}} with hk1
    have h1 : Owned c k1 hand := h.reswap _ _ (hh _)
    have hq1 : Quiet c True 0 k k1 := .swap (hh _)
    rw [clockScan]
    -- The turns go on from a kernel that has faded a little more.
    have hm : ∀ k2, Owned c k2 hand → Quiet c True 0 k1 k2 →
        Owned c (clockScan slot fuel k2).1 hand ∧ Quiet c True 0 k (clockScan slot fuel k2).1 := by
      intro k2 h2 hq2
      obtain ⟨h3,hq3⟩ := ih h2 (hq2.initialized.trans hinit)
      exact ⟨h3,(hq1.trans hq2 id id).trans hq3 id id⟩
    cases hpa : k1.swap.trackedPages (k.swap.clockHand%maxTrackedPages) with
    | none => exact hm k1 h1 (.refl c True k1)
    | some p =>
      simp only
      rcases hr : k1.checkAndClearAccessed p.space p.vaddr with ⟨k2,r⟩
      obtain ⟨h2,hq2,hv⟩ := checkAndClearAccessed_spec h1 hpa hinit hr
      have hd : ∀ i, Owned c {k2 with swap := k2.swap.dropTracked i} hand ∧
          Quiet c True 0 k1 {k2 with swap := k2.swap.dropTracked i} := fun i =>
        ⟨h2.reswap _ _ (dropTracked_sub i),hq2.trans (.swap (dropTracked_sub i)) id id⟩
      match r with
      | .ok (some true) => exact hm k2 h2 hq2
      | .ok none => exact hm _ (hd _).1 (hd _).2
      | .error _ => exact hm _ (hd _).1 (hd _).2
      | .ok (some false) =>
        obtain ⟨rfl,t,ht,hp,hc⟩ := hv rfl
        obtain ⟨k3,f,ho,h3,hq3⟩ := swapVictim_spec slot h1 hpa hinit ht hp hc
        simp only [ho]
        exact ⟨h3,hq1.trans hq3 id id⟩

section
variable (h : Owned c k hand)
include h

lemma Kernel.evictPageClock_spec : Owned c k.evictPageClock.1 hand ∧ Quiet c True 0 k k.evictPageClock.1 := by
  unfold evictPageClock
  split_ifs with hinit hc
  · exact ⟨h,.refl c True k⟩
  · exact ⟨h,.refl c True k⟩
  rcases hs : k.swap.allocSlot with ⟨swap,r⟩
  have hsu : ∀ i p, swap.trackedPages i = some p → k.swap.trackedPages i = some p := by
    intro i p hi
    rwa [allocSlot_tracked hs] at hi
  cases r with
  | none => exact ⟨h,.refl c True k⟩
  | some slot =>
    obtain ⟨h',hq⟩ := clockScan_spec slot (maxTrackedPages*2) (h.reswap swap k.swapDisk hsu)
      (by simpa using hinit)
    exact ⟨h',(Quiet.swap hsu).trans hq id id⟩

lemma Kernel.reclaim_spec : Owned c k.reclaim hand ∧ Quiet c True 0 k k.reclaim := by
  obtain ⟨h1,hq1⟩ := evictCleanPages_spec h 32
  obtain ⟨h2,hq2⟩ := evictPageClock_spec h1
  exact ⟨h2,hq1.trans hq2 id id⟩

lemma Kernel.takeFrame_spec : (k.takeFrame = (k,none) ∧ k.frames.freeFrames = 0) ∨
      ∃ k' f, k.takeFrame = (k',some f) ∧ Owned c k' (f::hand) ∧ k'.frames.refcounts f = 1 ∧ ∀ p, Quiet c p 1 k k' := by
  rcases h.take with hn | ⟨frames,f,hs,ho,-,hc,hl⟩
  · exact .inl hn
  refine .inr ⟨_,f,hs,ho,by simp [hc],fun p => .recount (fun g => ?_) (by omega)⟩
  rw [hc,update_apply]
  split_ifs
  · exact le_max_left _ _
  · exact le_max_right _ _

lemma Kernel.allocFrame_spec (hr : k.allocFrame = (k',r)) : Quiet c (k.Pressed 1) 1 k k' ∧ match r with
      | none => Owned c k' hand ∧ k.frames.freeFrames = 0
      | some f => Owned c k' (f::hand) ∧ k'.frames.refcounts f = 1 := by
  set k1 : Kernel := if k.lowWatermark > 0 ∧ k.frames.freeFrames ≤ k.lowWatermark then k.reclaim else k with hk1
  have hf : Owned c k1 hand ∧ Quiet c (k.Pressed 1) 0 k k1 := by
    rw [hk1]
    split_ifs with hp
    · obtain ⟨h',hq⟩ := reclaim_spec h
      exact ⟨h',hq.mono (fun _ => ⟨hp.1,by omega⟩) (le_refl _)⟩
    · exact ⟨h,.refl _ _ _⟩
  obtain ⟨h1,hq1⟩ := hf
  rw [allocFrame] at hr
  simp only [← hk1] at hr
  rcases takeFrame_spec h1 with ⟨hn,he⟩ | ⟨k2,f,hs,h2,ho,hq2⟩
  · have hz : k.frames.freeFrames = 0 := by
      have := hq1.free
      omega
    simp only [hn] at hr
    split_ifs at hr with hwater
    · have hp : k.Pressed 1 := by
        rw [hq1.watermark] at hwater
        exact ⟨hwater,by omega⟩
      obtain ⟨h2,hq2⟩ := reclaim_spec h1
      have hq := hq1.trans hq2 id (fun _ => hp)
      rcases takeFrame_spec h2 with ⟨hn',-⟩ | ⟨k3,f,hs',h3,ho,hq3⟩
      · rw [hn'] at hr
        cases hr
        exact ⟨hq.mono id (by omega),h2,hz⟩
      · rw [hs'] at hr
        cases hr
        exact ⟨hq.trans (hq3 (k.Pressed 1)) id id,h3,ho⟩
    · obtain ⟨rfl,rfl⟩ := Prod.mk.inj hr
      exact ⟨hq1.mono id (by omega),h1,hz⟩
  · simp only [hs] at hr
    cases hr
    exact ⟨hq1.trans (hq2 (k.Pressed 1)) id id,h2,ho⟩

end
end
end Vanta.Mm
