import Vanta.Library.Exclusive
import Vanta.Mm.Reclaim

/-! What the user pages hold, in memory or on the swap device. -/

namespace Vanta.Mm
open Library Memory Kernel Function BitVec

def Swapped (e : Entry) : Prop := hasFlag e flagPresent = false ∧ hasFlag e mapSwapped = true

instance (e : Entry) : Decidable (Swapped e) := inferInstanceAs (Decidable (_ ∧ _))

lemma getLsbD_slotMask (i : Nat) : slotMask.getLsbD i = decide (i < 20) := by
  by_cases hi : i < 64
  · have ha : ∀ j : Fin 64, slotMask.getLsbD j = decide (j.val < 20) := by decide
    exact ha ⟨i,hi⟩
  · rw [getLsbD_of_ge _ _ (by omega),eq_comm,decide_eq_false]
    omega

variable {slot : Nat}

lemma slotOf_swapOut (hsl : slot < maxSwapSlots) (e : Entry) :
    slotOf (slotBits slot ||| (e &&& (mapWritable ||| mapUser ||| mapNoExecute)) ||| mapSwapped) = slot := by
  have hf : ∀ i : Fin 20, (mapWritable ||| mapUser ||| mapNoExecute).getLsbD (12+i.val) = false ∧
      mapSwapped.getLsbD (12+i.val) = false := by decide
  have hw : (slotBits slot ||| (e &&& (mapWritable ||| mapUser ||| mapNoExecute)) ||| mapSwapped) >>> 12 &&&
      slotMask = BitVec.ofNat 64 slot := by
    apply eq_of_getLsbD_eq
    intro i hi
    rw [getLsbD_and,getLsbD_ushiftRight,getLsbD_slotMask]
    by_cases hl : i < 20
    · obtain ⟨h1,h2⟩ := hf ⟨i,hl⟩
      rw [getLsbD_or,getLsbD_or,getLsbD_and,h1,h2,slotBits,getLsbD_shiftLeft,
        getLsbD_and,show 12+i-12 = i by omega,getLsbD_slotMask]
      simp [hl,show 12+i < 64 by omega]
    · have hz : slot.testBit i = false := by
        refine Nat.testBit_lt_two_pow (lt_of_lt_of_le hsl ?_)
        exact le_trans (by decide : maxSwapSlots ≤ 2^20) (Nat.pow_le_pow_right (by decide) (by omega))
      simp [hl,hz,getLsbD_ofNat]
  rw [slotOf,hw,toNat_ofNat,Nat.mod_eq_of_lt]
  exact lt_trans hsl (by decide)

variable {i : Nat}

lemma firstIndex_some {p : Nat → Bool} {fuel j : Nat} (h : firstIndex p fuel i = some j) :
    i ≤ j ∧ j < i+fuel ∧ p j = true := by
  induction fuel generalizing i with
  | zero => simp [firstIndex] at h
  | succ fuel ih =>
    rw [firstIndex] at h
    split_ifs at h with hp
    · cases h
      exact ⟨le_rfl,by omega,hp⟩
    · obtain ⟨h1,h2,h3⟩ := ih h
      exact ⟨by omega,by omega,h3⟩

lemma SwapManager.allocSlot_some {m m' : SwapManager} (h : m.allocSlot = (m',some slot)) :
    slot < maxSwapSlots ∧ m.bitmap slot = false ∧
      m' = {m with bitmap := update m.bitmap slot true, usedSlots := m.usedSlots+1} := by
  unfold SwapManager.allocSlot at h
  cases hf : firstIndex (fun i => !m.bitmap i) maxSwapSlots 0 with
  | none => simp [hf] at h
  | some i =>
    simp only [hf] at h
    cases h
    obtain ⟨-,hl,hp⟩ := firstIndex_some hf
    exact ⟨by omega,by simpa using hp,rfl⟩

lemma SwapManager.freeSlot_bitmap (m : SwapManager) (slot i : Nat) :
    i < maxSwapSlots → ((m.freeSlot slot).bitmap i = true ↔ m.bitmap i = true ∧ i ≠ slot) := by
  intro hi
  unfold SwapManager.freeSlot
  split_ifs with hg hu
  · constructor
    · exact fun h => ⟨h,by omega⟩
    · exact fun h => h.1
  · by_cases he : i = slot <;> simp [he]
  constructor
  · refine fun h => ⟨h,?_⟩
    rintro rfl
    exact hu h
  · exact fun h => h.1

namespace Kernel
variable (k : Kernel)

def contentOf (e : Entry) : Option (Nat → UInt8) :=
  if hasFlag e flagPresent then some (k.mem (frameOf e))
  else if hasFlag e mapSwapped then some (k.swapDisk (slotOf e))
  else none

/-- What page `v` holds, if it is in memory or swapped out. -/
def content (s v : Nat) : Option (Nat → UInt8) := k.contentOf (k.leaf s v)

def SlotUsed (slot : Nat) : Prop := slot < maxSwapSlots ∧ k.swap.bitmap slot = true

end Kernel

variable (c : Scope)

def HoldsSlot (k : Kernel) (page : Nat × Nat) (slot : Nat) : Prop :=
  c.live page.1 ∧ page.2 < userPages ∧ Swapped (k.leaf page.1 page.2) ∧ slotOf (k.leaf page.1 page.2) = slot

/-- The slots in use are those of the swapped pages, with `hand` in a local variable. -/
def Slots (k : Kernel) (hand : Option Nat) : Prop := Exclusive (HoldsSlot c k) k.SlotUsed hand

/-- However the pages moved, `k'` keeps what they hold, with the slots `a` and then `b` in a local variable. -/
def Kept (c : Scope) (a b : Option Nat) (k k' : Kernel) : Prop :=
  Slots c k a → Slots c k' b ∧ ∀ s v, c.live s → v < userPages → k'.content s v = k.content s v

def SamePaths (k k' : Kernel) : Prop := ∀ s path, c.live s → UserPath path →
  descend k'.tables nextTable s path = descend k.tables nextTable s path

/-- Besides, no table is new. -/
structure Calm (c : Scope) (a b : Option Nat) (k k' : Kernel) : Prop where
  kept : Kept c a b k k'
  paths : SamePaths c k k'

section
variable {c : Scope} {k k' k'' : Kernel} {hand : List Nat} {s v t f slot : Nat} {a b d : Option Nat}

lemma Kept.trans (h : Kept c a b k k') (h' : Kept c b d k' k'') : Kept c a d k k'' := fun hsl => by
  obtain ⟨h1,h2⟩ := h hsl
  obtain ⟨h3,h4⟩ := h' h1
  exact ⟨h3,fun s v hs hv => (h4 s v hs hv).trans (h2 s v hs hv)⟩

lemma SamePaths.trans (h : SamePaths c k k') (h' : SamePaths c k' k'') : SamePaths c k k'' :=
  fun s path hs hp => (h' s path hs hp).trans (h s path hs hp)

lemma Calm.refl (c : Scope) (a : Option Nat) (k : Kernel) : Calm c a a k k :=
  ⟨fun h => ⟨h,fun _ _ _ _ => rfl⟩,fun _ _ _ _ => rfl⟩

lemma Calm.trans (h : Calm c a b k k') (h' : Calm c b d k' k'') : Calm c a d k k'' :=
  ⟨h.kept.trans h'.kept,h.paths.trans h'.paths⟩

lemma Kernel.content_congr (hta : k'.tables = k.tables) (hm : k'.mem = k.mem)
    (hd : k'.swapDisk = k.swapDisk) (s v : Nat) : k'.content s v = k.content s v := by
  simp only [content,contentOf,leaf_congr hta,hm,hd]

lemma Slots.congr (h : Slots c k a) (hta : k'.tables = k.tables) (hb : k'.swap.bitmap = k.swap.bitmap) : Slots c k' a :=
  Exclusive.congr h (fun page slot => by simp only [HoldsSlot,leaf_congr hta])
    (fun slot => by simp only [Kernel.SlotUsed,hb])

lemma Calm.of_eq (hta : k'.tables = k.tables) (hm : k'.mem = k.mem) (hd : k'.swapDisk = k.swapDisk)
    (hb : k'.swap.bitmap = k.swap.bitmap) : Calm c a a k k' where
  kept := fun h => ⟨h.congr hta hb,fun s v _ _ => content_congr hta hm hd s v⟩
  paths := fun s path _ _ => by rw [hta]

section Leaf
variable (h : Owned c k hand) (hs : c.live s) (hv : v < userPages) (ht : k.leafTable s v = some t) {e : Entry}
include h hs hv ht

lemma Owned.holdsSlot_writeLeaf {page : Nat × Nat} : HoldsSlot c (k.writeEntry t (v%512) e) page slot ↔
      if page = (s,v) then Swapped e ∧ slotOf e = slot else HoldsSlot c k page slot := by
  obtain ⟨s',v'⟩ := page
  simp only [HoldsSlot,Prod.mk.injEq]
  by_cases hsa : s' = s ∧ v' = v
  · obtain ⟨rfl,rfl⟩ := hsa
    have := h.leaf_writeEntry hs hv ht e hs hv
    simp [this,hs,hv]
  · rw [if_neg hsa]
    refine and_congr_right (fun hs' => and_congr_right (fun hv' => ?_))
    rw [h.leaf_writeEntry hs hv ht e hs' hv',if_neg hsa]

lemma Owned.content_writeLeaf {s' v' : Nat} (hs' : c.live s') (hv' : v' < userPages) :
    (k.writeEntry t (v%512) e).content s' v' = if s' = s ∧ v' = v then k.contentOf e else k.content s' v' := by
  rw [content,h.leaf_writeEntry hs hv ht e hs' hv']
  split_ifs <;> rfl

lemma Calm.writeLeaf (hc : k.contentOf e = k.content s v)
    (hslo : ∀ slot, Swapped e ∧ slotOf e = slot ↔ Swapped (k.leaf s v) ∧ slotOf (k.leaf s v) = slot) :
    Calm c a a k (k.writeEntry t (v%512) e) where
  kept := fun hsl => by
    refine ⟨Exclusive.congr hsl (fun page slot => ?_) (fun _ => Iff.rfl),fun s' v' hs' hv' => ?_⟩
    · rw [h.holdsSlot_writeLeaf hs hv ht]
      split_ifs with hpa
      · subst hpa
        rw [hslo slot]
        simp [HoldsSlot,hs,hv]
      · exact Iff.rfl
    · rw [h.content_writeLeaf hs hv ht hs' hv']
      split_ifs with hsa
      · rw [hc,hsa.1,hsa.2]
      · rfl
  paths := fun s' path hs' hp => h.descend_writeEntry hs hv ht _ e hs' hp

end Leaf
variable {e : Entry}

lemma not_swapped_of_present (h : hasFlag e flagPresent = true) : ¬Swapped e := fun hs => by
  rw [hs.1] at h
  cases h

lemma contentOf_present (h : hasFlag e flagPresent = true) : k.contentOf e = some (k.mem (frameOf e)) := by
  simp [contentOf,h]

lemma contentOf_swapped (h : Swapped e) : k.contentOf e = some (k.swapDisk (slotOf e)) := by
  simp [contentOf,h.1,h.2]

lemma Calm.writeLeaf_present (h : Owned c k hand) (hs : c.live s) (hv : v < userPages)
    (ht : k.leafTable s v = some t) (ho : hasFlag (k.leaf s v) flagPresent = true)
    (hn : hasFlag e flagPresent = true) (hf : frameOf e = frameOf (k.leaf s v)) :
    Calm c a a k (k.writeEntry t (v%512) e) := by
  refine .writeLeaf h hs hv ht ?_ (fun slot => ?_)
  · rw [content,contentOf_present hn,contentOf_present ho,hf]
  · exact iff_of_false (fun hx => not_swapped_of_present hn hx.1) (fun hx => not_swapped_of_present ho hx.1)

lemma Calm.allocSlot {swap : SwapManager} (hr : k.swap.allocSlot = (swap,some slot)) :
    Calm c none (some slot) k {k with swap := swap} := by
  obtain ⟨hl,hf,rfl⟩ := SwapManager.allocSlot_some hr
  refine ⟨fun hsl => ⟨?_,fun _ _ _ _ => rfl⟩,fun _ _ _ _ => rfl⟩
  refine hsl.take (fun hu => by simp [Kernel.SlotUsed,hf] at hu) (fun g => ?_)
  simp only [Kernel.SlotUsed]
  by_cases hg : g = slot
  · simp [hg,hl]
  · simp [hg]

lemma Calm.freeSlot : Calm c (some slot) none k {k with swap := k.swap.freeSlot slot} := by
  refine ⟨fun hsl => ⟨?_,fun _ _ _ _ => rfl⟩,fun _ _ _ _ => rfl⟩
  refine hsl.drop (fun g => ?_)
  constructor
  · rintro ⟨hl,hb⟩
    obtain ⟨h1,h2⟩ := (k.swap.freeSlot_bitmap slot g hl).1 hb
    exact ⟨⟨hl,h1⟩,h2⟩
  · rintro ⟨⟨hl,hb⟩,hn⟩
    exact ⟨hl,(k.swap.freeSlot_bitmap slot g hl).2 ⟨hb,hn⟩⟩

lemma Calm.swapOut (h : Owned c k hand) (hs : c.live s) (hv : v < userPages) (ht : k.leafTable s v = some t)
    (hpr : hasFlag (k.leaf s v) flagPresent = true) (he : Swapped e) (hslo : slotOf e = slot) :
    Calm c (some slot) none k
      ({k with swapDisk := update k.swapDisk slot (k.mem (frameOf (k.leaf s v)))}.writeEntry t (v%512) e) := by
  set k1 : Kernel := {k with swapDisk := update k.swapDisk slot (k.mem (frameOf (k.leaf s v)))} with hk1
  have h1 : Owned c k1 hand := h.congr rfl rfl (fun _ => rfl) h.tracked
  refine ⟨fun hsl => ⟨?_,fun s' v' hs' hv' => ?_⟩,
    fun s' path hs' hp => h1.descend_writeEntry hs hv ht _ e hs' hp⟩
  · refine Exclusive.put hsl (u := (s,v)) (fun g hg => not_swapped_of_present hpr hg.2.2.1) (fun g => ?_)
      (fun page g hn => ?_)
    · rw [h1.holdsSlot_writeLeaf hs hv ht,if_pos rfl]
      simp [he,hslo,eq_comm]
    · rw [h1.holdsSlot_writeLeaf hs hv ht,if_neg hn]
      exact Iff.rfl
  rw [h1.content_writeLeaf hs hv ht hs' hv']
  split_ifs with hsa
  · obtain ⟨rfl,rfl⟩ := hsa
    rw [contentOf_swapped he,hslo,content,contentOf_present hpr]
    simp [hk1]
  -- Another page does not use the slot.
  change k1.contentOf (k.leaf s' v') = k.contentOf (k.leaf s' v')
  by_cases hsw : Swapped (k.leaf s' v')
  · have hn : slotOf (k.leaf s' v') ≠ slot := fun heq =>
      hsl.unheld (s',v') slot rfl ⟨hs',hv',hsw,heq⟩
    rw [contentOf_swapped hsw,contentOf_swapped hsw]
    simp [hk1,hn]
  · simp only [contentOf]
    split_ifs with hp hw
    · rfl
    · exact absurd ⟨by simpa using hp,hw⟩ hsw
    · rfl

lemma Calm.free (k : Kernel) (f : Nat) : Calm c a a k (k.freeFrame f).1 := .of_eq rfl rfl rfl rfl

end
section Reclaim
variable {c : Scope} {k : Kernel} {hand : List Nat} {s v t f slot : Nat} {a : Option Nat}

lemma Kernel.evictEntry_calm (k : Kernel) (key : PageKey) : Calm c a a k (k.evictEntry key) := by
  unfold evictEntry
  cases hk : k.cache.entries.get key with
  | none => exact .refl c a k
  | some entry =>
    simp only
    split_ifs with hd
    · exact .refl c a k
    · exact .of_eq rfl rfl rfl rfl

lemma Kernel.evictCleanPages_calm (k : Kernel) (n : Nat) : Calm c a a k (k.evictCleanPages n) := by
  have hf : ∀ (l : List PageKey) (k : Kernel), Calm c a a k (l.foldl evictEntry k) := by
    intro l
    induction l with
    | nil => exact fun k => .refl c a k
    | cons key l ih => exact fun k => (evictEntry_calm k key).trans (ih _)
  exact hf _ k

variable {p : TrackedUserPage}

lemma Kernel.checkAndClearAccessed_calm (h : Owned c k hand)
    (hp : k.swap.trackedPages i = some p) : Calm c a a k (k.checkAndClearAccessed p.space p.vaddr).1 := by
  have htr : k.Tracks p.space (p.vaddr/pageSize) := ⟨i,p,hp,rfl,rfl⟩
  obtain ⟨hs,hva,-⟩ := h.tracked i p hp
  have hv := htr.bounds h
  obtain ⟨hl,hi⟩ := h.pteLocation_page hs hva
  rw [checkAndClearAccessed,hl]
  cases ht : k.leafTable p.space (p.vaddr/pageSize) with
  | none => exact .refl c a k
  | some t =>
    simp only [hi,← leaf_eq ht]
    split_ifs with hpr hc ha
    · exact .refl c a k
    · exact .refl c a k
    · have hp' : hasFlag (k.leaf p.space (p.vaddr/pageSize)) flagPresent = true := by simpa using hpr
      refine .writeLeaf_present h hs hv ht hp' ?_ (frameOf_clear _ (by decide))
      simpa (disch := decide) [flagAccessed,flagPresent,hasFlag_not,hasFlag_bit_bit] using hp'
    · exact .refl c a k

lemma Calm.dropTracked (i : Nat) : Calm c a a k {k with swap := k.swap.dropTracked i} :=
  .of_eq rfl rfl rfl rfl

lemma Kernel.swapVictim_calm (hsl : slot < maxSwapSlots) (h : Owned c k hand)
    (hp : k.swap.trackedPages i = some p) (ht : k.leafTable p.space (p.vaddr/pageSize) = some t)
    (hpr : hasFlag (k.leaf p.space (p.vaddr/pageSize)) flagPresent = true) :
    Calm c (some slot) none k ({k with swap := k.swap.dropTracked i}.swapPageOut p.space p.vaddr slot).1 := by
  have htr : k.Tracks p.space (p.vaddr/pageSize) := ⟨i,p,hp,rfl,rfl⟩
  obtain ⟨hs,hva,hl⟩ := h.tracked i p hp
  have hv := htr.bounds h
  set k0 : Kernel := {k with swap := k.swap.dropTracked i}
  have h0 : Owned c k0 hand := h.reswap _ k.swapDisk (dropTracked_sub i)
  have ht0 : k0.leafTable p.space (p.vaddr/pageSize) = some t := ht
  have hp0 : hasFlag (k0.leaf p.space (p.vaddr/pageSize)) flagPresent = true := hpr
  obtain ⟨hlo,hi⟩ := h0.pteLocation_page hs hva
  have hsw : Swapped (slotBits slot |||
      (k0.leaf p.space (p.vaddr/pageSize) &&& (mapWritable ||| mapUser ||| mapNoExecute)) ||| mapSwapped) := by
    constructor <;>
    simp (disch := decide) [flagPresent,mapWritable,mapUser,mapNoExecute,mapSwapped,hasFlag_bit_bit,hasFlag_slotBits]
  rw [swapPageOut,hlo,ht0]
  simp only [hi,← leaf_eq ht0,hp0,Bool.not_true,Bool.false_eq_true,if_false]
  exact ((Calm.dropTracked i).trans (.swapOut h0 hs hv ht0 hp0 hsw (slotOf_swapOut hsl _))).trans (.free _ _)

lemma Kernel.clockScan_calm (hsl : slot < maxSwapSlots) (fuel : Nat) (h : Owned c k hand)
    (hin : k.swapInitialized = true) : Calm c (some slot) none k (clockScan slot fuel k).1 := by
  induction fuel generalizing k with
  | zero => exact .freeSlot
  | succ fuel ih =>
    set k1 : Kernel := {k with swap := {k.swap with clockHand := (k.swap.clockHand+1)%maxTrackedPages}} with hk1
    have h1 : Owned c k1 hand := h.reswap _ _ (fun _ _ hi => hi)
    have hc1 : ∀ a, Calm c a a k k1 := fun a => .of_eq rfl rfl rfl rfl
    rw [clockScan]
    cases hpa : k1.swap.trackedPages (k.swap.clockHand%maxTrackedPages) with
    | none => exact (hc1 _).trans (ih h1 hin)
    | some p =>
      simp only
      have hc2 : ∀ a, Calm c a a k1 (k1.checkAndClearAccessed p.space p.vaddr).1 := fun a =>
        checkAndClearAccessed_calm h1 hpa
      rcases hr : k1.checkAndClearAccessed p.space p.vaddr with ⟨k2,r⟩
      rw [hr] at hc2
      obtain ⟨h2,hq2,hvi⟩ := checkAndClearAccessed_spec h1 hpa hin hr
      have hi2 : k2.swapInitialized = true := hq2.initialized.trans hin
      -- The turns go on without the page.
      have hd : ∀ i, Calm c (some slot) none k
          (clockScan slot fuel {k2 with swap := k2.swap.dropTracked i}).1 := fun i =>
        (((hc1 _).trans (hc2 _)).trans (.dropTracked i)).trans
          (ih (h2.reswap _ k2.swapDisk (dropTracked_sub i)) hi2)
      rcases r with e | _ | _ | _
      · exact hd _
      · exact hd _
      · obtain ⟨rfl,t,ht,hp,hc⟩ := hvi rfl
        obtain ⟨k3,f,ho,-⟩ := swapVictim_spec slot h1 hpa hin ht hp hc
        have hc3 := swapVictim_calm hsl h1 hpa ht hp
        rw [ho] at hc3
        simp only [ho]
        exact (hc1 _).trans hc3
      · exact ((hc1 _).trans (hc2 _)).trans (ih h2 hi2)

lemma Kernel.evictPageClock_calm (h : Owned c k hand) : Calm c none none k k.evictPageClock.1 := by
  unfold evictPageClock
  split_ifs with hin hc
  · exact .refl c none k
  · exact .refl c none k
  rcases hsl : k.swap.allocSlot with ⟨swap,r⟩
  cases r with
  | none => exact .refl c none k
  | some slot =>
    have hsu : ∀ i p, swap.trackedPages i = some p → k.swap.trackedPages i = some p := by
      intro i p hi
      rwa [allocSlot_tracked hsl] at hi
    exact (Calm.allocSlot hsl).trans (clockScan_calm (SwapManager.allocSlot_some hsl).1 _
      (h.reswap swap k.swapDisk hsu) (by simpa using hin))

lemma Kernel.reclaim_calm (h : Owned c k hand) : Calm c none none k k.reclaim :=
  (evictCleanPages_calm k 32).trans (evictPageClock_calm (evictCleanPages_spec h 32).1)

lemma Kernel.takeFrame_calm : Calm c a a k k.takeFrame.1 := .of_eq rfl rfl rfl rfl

lemma Kernel.allocFrame_calm (h : Owned c k hand) : Calm c none none k k.allocFrame.1 := by
  unfold allocFrame
  set k1 : Kernel := if k.lowWatermark > 0 ∧ k.frames.freeFrames ≤ k.lowWatermark then k.reclaim else k with hk1
  have hf : Owned c k1 hand ∧ Calm c none none k k1 := by
    rw [hk1]
    split_ifs with hp
    · exact ⟨(reclaim_spec h).1,reclaim_calm h⟩
    · exact ⟨h,.refl c none k⟩
  obtain ⟨h1,hc1⟩ := hf
  have hc2 : Calm c none none k k1.takeFrame.1 := hc1.trans takeFrame_calm
  rcases takeFrame_spec h1 with ⟨hn,-⟩ | ⟨k2,f,hso,-⟩
  · simp only [hn]
    split_ifs
    · exact (hc1.trans (reclaim_calm h1)).trans takeFrame_calm
    · exact hc1
  · rw [hso] at hc2
    simp only [hso]
    exact hc2

end Reclaim

/-- `k'` comes from `k` by at most `n` allocations, with what they do behind the caller's back. -/
structure Allocs (c : Scope) (n : Nat) (k k' : Kernel) : Prop where
  quiet : Quiet c (k.Pressed n) n k k'
  kept : Kept c none none k k'

namespace Allocs
variable {c : Scope} {hand : List Nat} {n m : Nat} {k k' k'' : Kernel}

lemma refl (c : Scope) (k : Kernel) : Allocs c 0 k k := ⟨.refl c _ k,(Calm.refl c none k).kept⟩

lemma trans (h : Allocs c n k k') (h' : Allocs c m k' k'') : Allocs c (n+m) k k'' :=
  ⟨h.quiet.append h'.quiet,h.kept.trans h'.kept⟩

lemma mono (h : Allocs c n k k') (hn : n ≤ m) : Allocs c m k k' :=
  ⟨h.quiet.mono (fun hp => hp.mono hn) hn,h.kept⟩

lemma allocFrame (h : Owned c k hand) {r : Option Nat} (hru : k.allocFrame = (k',r)) :
    Allocs c 1 k k' ∧ SamePaths c k k' ∧ match r with
      | none => Owned c k' hand ∧ k.frames.freeFrames = 0
      | some f => Owned c k' (f::hand) ∧ k'.frames.refcounts f = 1 := by
  obtain ⟨hq,hr⟩ := allocFrame_spec h hru
  have hc := allocFrame_calm h
  rw [hru] at hc
  exact ⟨⟨hq,hc.kept⟩,hc.paths,hr⟩

end Allocs
end Vanta.Mm
