import Vanta.Mm.Swapping

/-! The books of the swap manager, whatever the page tables hold and the disk answers. -/

namespace Vanta.Mm
open Memory Function List

/-- A call of the swap manager: the kernel after it and the slot it hands out; `passed` and `victim` are the
pages of the clock scan. -/
structure Eviction where
  kernel : Kernel
  slot : Option Nat
  passed : List TrackedUserPage
  victim : Option TrackedUserPage

/-- What a caller sees of it. -/
def Eviction.plain (r : Eviction) : Kernel × Option Nat := (r.kernel,r.slot)

inductive SwapCall where
  | allocSlot
  | freeSlot (slot : Nat)
  | trackPage (space vaddr : Nat)
  | untrackPage (space vaddr : Nat)
  | evictPageClock
  | pageOut (space vaddr : Nat)

namespace Kernel

/-- `swap_page_out` where `write_page_to_disk` may fail, by slot. -/
def writePageOut (writes : Nat → Bool) (k : Kernel) (space va slot : Nat) : Kernel × Except MapError Nat :=
  if writes slot then k.swapPageOut space va slot
  else
    match (k.swapPageOut space va slot).2 with
    | .error e => (k,.error e)
    | .ok _ => (k,.error .noHhdm)

/-- `clockScan` with what it passes over and what it chooses. -/
def watchedScan (writes : Nat → Bool) (slot : Nat) : Nat → Kernel → List TrackedUserPage → Eviction
  | 0, k, passed => ⟨{k with swap := k.swap.freeSlot slot},none,passed,none⟩
  | fuel+1, k, passed =>
    let index := k.swap.clockHand%maxTrackedPages
    let k := {k with swap := {k.swap with clockHand := (k.swap.clockHand+1)%maxTrackedPages}}
    match k.swap.trackedPages index with
    | none => watchedScan writes slot fuel k passed
    | some target =>
      match k.checkAndClearAccessed target.space target.vaddr with
      | (k,.ok (some true)) => watchedScan writes slot fuel k (target::passed)
      | (k,.ok (some false)) =>
        let k := {k with swap := k.swap.dropTracked index}
        match k.writePageOut writes target.space target.vaddr slot with
        | (k,.ok _) => ⟨k,some slot,passed,some target⟩
        | (k,.error _) => ⟨{k with swap := k.swap.freeSlot slot},none,passed,some target⟩
      | (k,_) => watchedScan writes slot fuel {k with swap := k.swap.dropTracked index} passed

variable (writes : Nat → Bool) (k : Kernel)

/-- A slot is taken for `body`, which gives it back when it fails. -/
def taking (body : Nat → Kernel → Eviction) : Eviction :=
  match k.swap.allocSlot with
  | (_,none) => ⟨k,none,[],none⟩
  | (swap,some slot) => body slot {k with swap := swap}

def swapCall : SwapCall → Eviction
  | .allocSlot => k.taking fun slot k => ⟨k,some slot,[],none⟩
  | .freeSlot slot => ⟨{k with swap := k.swap.freeSlot slot},none,[],none⟩
  | .trackPage space vaddr => ⟨{k with swap := k.swap.trackPage space vaddr},none,[],none⟩
  | .untrackPage space vaddr => ⟨{k with swap := k.swap.untrackPage space vaddr},none,[],none⟩
  | .evictPageClock =>
    if !k.swapInitialized ∨ k.swap.trackedCount = 0 then ⟨k,none,[],none⟩
    else k.taking fun slot k => watchedScan writes slot (maxTrackedPages*2) k []
  | .pageOut space vaddr => k.taking fun slot k =>
    match k.writePageOut writes space vaddr slot with
    | (k,.ok _) => ⟨k,some slot,[],none⟩
    | (k,.error _) => ⟨{k with swap := k.swap.freeSlot slot},none,[],none⟩

/-- The leaf entry of a tracked page: its table and its index. -/
def entryOf (p : TrackedUserPage) : Option (Nat × Nat) :=
  match k.pteLocation p.space (alignDown p.vaddr) with
  | .ok (some table) => some (table,indexPt (alignDown p.vaddr))
  | _ => none

def accessed (p : TrackedUserPage) : Bool := (k.entryOf p).any fun l => hasFlag (k.tables l.1 l.2) flagAccessed

end Kernel

/-- A call as it finds the rest of the kernel, which other code may have changed since the call before, and the disk. -/
structure SwapTurn where
  kernel : Kernel
  writes : Nat → Bool
  call : SwapCall

namespace SwapTurn

def taken (turn : SwapTurn) (m : SwapManager) : Eviction := {turn.kernel with swap := m}.swapCall turn.writes turn.call

/-- With the slots that calls have handed out and none has freed since. -/
def step (b : SwapManager × List Nat) (turn : SwapTurn) : SwapManager × List Nat :=
  let r := turn.taken b.1
  (r.kernel.swap,match turn.call with
    | .freeSlot slot => b.2.filter (· ≠ slot)
    | _ => r.slot.toList++b.2)

end SwapTurn

def occupied (n : Nat) (f : Nat → Bool) : Finset Nat := (Finset.range n).filter (f · = true)

namespace SwapManager

structure Booked (m : SwapManager) : Prop where
  used : m.usedSlots = (occupied maxSwapSlots m.bitmap).card
  tracked : m.trackedCount = (occupied maxTrackedPages (Option.isSome ∘ m.trackedPages)).card
  once : ∀ i j p, i < maxTrackedPages → j < maxTrackedPages →
    m.trackedPages i = some p → m.trackedPages j = some p → i = j

variable {m m' : SwapManager} {i slot n : Nat} {f : Nat → Bool}

lemma occupied_set (hi : i < n) (hf : f i = false) : (occupied n (update f i true)).card = (occupied n f).card+1 := by
  have hs : occupied n (update f i true) = insert i (occupied n f) := by
    ext j
    by_cases hj : j = i <;> simp [occupied,hj,hi]
  rw [hs,Finset.card_insert_of_notMem (by simp [occupied,hf])]

lemma occupied_clear (hi : i < n) (hf : f i = true) : (occupied n (update f i false)).card = (occupied n f).card-1 := by
  have h := occupied_set hi (f := update f i false) (by simp)
  rw [update_idem,← hf,update_eq_self] at h
  omega

lemma firstIndex_none {p : Nat → Bool} {fuel i j : Nat} (h : firstIndex p fuel i = none) (hi : i ≤ j)
    (hj : j < i+fuel) : p j = false := by
  induction fuel generalizing i with
  | zero => omega
  | succ fuel ih =>
    rw [firstIndex] at h
    split_ifs at h with hp
    rcases eq_or_lt_of_le hi with rfl | hl
    · simpa using hp
    · exact ih h hl (by omega)

section
variable (h : m.Booked)
include h

lemma Booked.allocSlot (ha : m.allocSlot = (m',some slot)) : m'.Booked := by
  obtain ⟨hl,hf,rfl⟩ := allocSlot_some ha
  exact ⟨by rw [occupied_set hl hf,h.used],h.tracked,h.once⟩

lemma Booked.freeSlot (slot : Nat) : (m.freeSlot slot).Booked := by
  rw [SwapManager.freeSlot]
  split_ifs with hl hb
  · exact h
  · exact ⟨by rw [occupied_clear (by omega) hb,h.used],h.tracked,h.once⟩
  · exact h

lemma Booked.dropTracked (hi : i < maxTrackedPages) (hs : (m.trackedPages i).isSome) : (m.dropTracked i).Booked := by
  refine ⟨h.used,?_,fun j j' p hj hj' hp hp' => ?_⟩
  · simp only [SwapManager.dropTracked]
    rw [comp_update,Option.isSome_none,occupied_clear hi hs,h.tracked]
  · exact h.once j j' p hj hj' (dropTracked_sub i j p hp) (dropTracked_sub i j' p hp')

lemma Booked.trackPage (space vaddr : Nat) : (m.trackPage space vaddr).Booked := by
  simp only [SwapManager.trackPage]
  split
  · exact h
  next hno =>
  split
  · exact h
  next i hi =>
  obtain ⟨-,hl,hn⟩ := firstIndex_some hi
  have hl : i < maxTrackedPages := by omega
  have hno : ∀ j, j < maxTrackedPages → m.trackedPages j ≠ some ⟨space,alignDown vaddr⟩ := fun j hj he => by
    simpa [he] using firstIndex_none hno (Nat.zero_le j) (by omega)
  refine ⟨h.used,?_,fun j j' p hj hj' hp hp' => ?_⟩
  · rw [comp_update,Option.isSome_some,occupied_set hl (by simpa using hn),h.tracked]
  · simp only [update_apply] at hp hp'
    split_ifs at hp hp' with he he'
    · omega
    · cases hp
      exact absurd hp' (hno j' hj')
    · cases hp'
      exact absurd hp (hno j hj)
    · exact h.once j j' p hj hj' hp hp'

lemma Booked.untrackPage (space vaddr : Nat) : (m.untrackPage space vaddr).Booked := by
  simp only [SwapManager.untrackPage]
  split
  · next i hi =>
    obtain ⟨-,hl,hs⟩ := firstIndex_some hi
    exact h.dropTracked (by omega) (by simp [beq_iff_eq.1 hs])
  · exact h

end

def SameSlots (m m' : SwapManager) : Prop := m'.bitmap = m.bitmap ∧ m'.usedSlots = m.usedSlots

lemma SameSlots.trans {m'' : SwapManager} (h : SameSlots m m') (h' : SameSlots m' m'') : SameSlots m m'' :=
  ⟨h'.1.trans h.1,h'.2.trans h.2⟩

lemma SameSlots.freeSlot (h : SameSlots m m') (slot : Nat) : SameSlots (m.freeSlot slot) (m'.freeSlot slot) := by
  simp only [SwapManager.freeSlot,h.1]
  split_ifs
  · exact h
  · exact ⟨rfl,by rw [h.2]⟩
  · exact h

lemma freeSlot_allocSlot (ha : m.allocSlot = (m',some slot)) : SameSlots m (m'.freeSlot slot) := by
  obtain ⟨hl,hf,rfl⟩ := allocSlot_some ha
  rw [SwapManager.freeSlot,if_neg (by omega),if_pos (by simp)]
  exact ⟨by simp [← hf],by simp⟩

end SwapManager
namespace Kernel
open SwapManager
variable {writes : Nat → Bool} {k k' : Kernel} {m : SwapManager} {space va slot fuel : Nat}
  {passed : List TrackedUserPage} {p q : TrackedUserPage} {r : Eviction}

lemma writePageOut_swap (writes : Nat → Bool) (k : Kernel) (space va slot : Nat) : (k.writePageOut writes space va slot).1.swap = k.swap := by
  rw [writePageOut]
  split_ifs
  · rw [swapPageOut]
    split
    · rfl
    · rfl
    · dsimp only
      split_ifs <;> rfl
  · split <;> rfl

/-- With a disk that takes every page, the call is the kernel's own. -/
lemma writePageOut_eq : k.writePageOut (fun _ => true) space va slot = k.swapPageOut space va slot := if_pos rfl

lemma watchedScan_eq : (watchedScan (fun _ => true) slot fuel k passed).plain = clockScan slot fuel k := by
  induction fuel generalizing k passed with
  | zero => rfl
  | succ fuel ih =>
    rw [watchedScan,clockScan]
    generalize ({k with swap := {k.swap with clockHand := (k.swap.clockHand+1)%maxTrackedPages}} : Kernel) = k1
    dsimp only
    cases k1.swap.trackedPages (k.swap.clockHand%maxTrackedPages) with
    | none => exact ih
    | some target =>
      dsimp only
      rcases k1.checkAndClearAccessed target.space target.vaddr with ⟨k2,e | _ | _ | _⟩
      · exact ih
      · exact ih
      · dsimp only
        rw [writePageOut_eq]
        rcases Kernel.swapPageOut _ target.space target.vaddr slot with ⟨k3,e | frame⟩ <;> rfl
      · exact ih

lemma evictPageClock_watched : (k.swapCall (fun _ => true) .evictPageClock).plain = k.evictPageClock := by
  rw [swapCall,evictPageClock,taking]
  by_cases hi : k.swapInitialized = true
  · by_cases hc : k.swap.trackedCount = 0
    · simp [hi,hc,Eviction.plain]
    · simp only [hi,hc,Bool.not_true,Bool.false_eq_true,or_self,if_false]
      rcases k.swap.allocSlot with ⟨m',_ | slot⟩
      · rfl
      · exact watchedScan_eq
  · simp [hi,Eviction.plain]

lemma pageOut_watched (space va : Nat) :
    (k.swapCall (fun _ => true) (.pageOut space va)).plain = k.pageOut space va := by
  rw [swapCall,pageOut,taking]
  rcases k.swap.allocSlot with ⟨m',_ | slot⟩
  · rfl
  · dsimp only
    rw [writePageOut_eq]
    rcases Kernel.swapPageOut _ space va slot with ⟨k3,e | frame⟩ <;> rfl

/-- The slot that was taken is kept or given back. -/
def Ends (slot : Nat) (m : SwapManager) (r : Eviction) : Prop :=
  r.kernel.swap.Booked ∧
    (r.slot = some slot ∧ SameSlots m r.kernel.swap ∨ r.slot = none ∧ SameSlots (m.freeSlot slot) r.kernel.swap)

lemma Ends.of_same {m' : SwapManager} (h : Ends slot m' r) (hs : SameSlots m m') : Ends slot m r :=
  ⟨h.1,h.2.imp (And.imp_right hs.trans) (And.imp_right (hs.freeSlot slot).trans)⟩

lemma checkAndClearAccessed_swap (k : Kernel) (space va : Nat) : (k.checkAndClearAccessed space va).1.swap = k.swap := by
  rw [checkAndClearAccessed]
  split
  · rfl
  · rfl
  · dsimp only
    split_ifs <;> rfl

lemma watchedScan_ends (hb : k.swap.Booked) : Ends slot k.swap (watchedScan writes slot fuel k passed) := by
  induction fuel generalizing k passed with
  | zero => exact ⟨hb.freeSlot slot,.inr ⟨rfl,rfl,rfl⟩⟩
  | succ fuel ih =>
    have hi : k.swap.clockHand%maxTrackedPages < maxTrackedPages := Nat.mod_lt _ (by decide)
    rw [watchedScan]
    generalize hm : ({k with swap := {k.swap with clockHand := (k.swap.clockHand+1)%maxTrackedPages}} : Kernel) = k'
    have hb' : k'.swap.Booked := hm ▸ ⟨hb.used,hb.tracked,hb.once⟩
    have hm' : SameSlots k.swap k'.swap := hm ▸ ⟨rfl,rfl⟩
    refine Ends.of_same ?_ hm'
    dsimp only
    split
    · exact ih hb'
    next target ht =>
    have hd := hb'.dropTracked hi (by simp [ht])
    have hs : SameSlots k'.swap (k'.swap.dropTracked (k.swap.clockHand%maxTrackedPages)) := ⟨rfl,rfl⟩
    have hw := k'.checkAndClearAccessed_swap target.space target.vaddr
    split
    · next he =>
      rw [he] at hw
      rw [← hw] at hb' ⊢
      exact ih hb'
    · next k2 he =>
      rw [he] at hw
      rw [← hw] at hd hs ⊢
      have ho := writePageOut_swap writes
        {k2 with swap := k2.swap.dropTracked (k.swap.clockHand%maxTrackedPages)} target.space target.vaddr slot
      split
      · next he =>
        rw [he] at ho
        exact ⟨ho ▸ hd,.inl ⟨rfl,ho ▸ hs⟩⟩
      · next he =>
        rw [he] at ho
        exact ⟨ho ▸ hd.freeSlot slot,.inr ⟨rfl,ho ▸ hs.freeSlot slot⟩⟩
    · next k2 _ _ _ he =>
      rw [he] at hw
      rw [← hw] at hd hs ⊢
      exact (ih (k := {k2 with swap := k2.swap.dropTracked (k.swap.clockHand%maxTrackedPages)}) hd).of_same hs

/-- A call other than `free_slot` takes the slot it hands out and no other. -/
def Takes (m : SwapManager) (r : Eviction) : Prop :=
  r.kernel.swap.Booked ∧ (r.slot = none ∧ SameSlots m r.kernel.swap ∨
    ∃ slot m', m.allocSlot = (m',some slot) ∧ r.slot = some slot ∧ SameSlots m' r.kernel.swap)

lemma taking_takes (hb : k.swap.Booked) {body : Nat → Kernel → Eviction}
    (h : ∀ {slot m'}, k.swap.allocSlot = (m',some slot) → Ends slot m' (body slot {k with swap := m'})) :
    Takes k.swap (k.taking body) := by
  rw [taking]
  rcases ha : k.swap.allocSlot with ⟨m',_ | slot⟩
  · exact ⟨hb,.inl ⟨rfl,rfl,rfl⟩⟩
  · obtain ⟨hb,⟨hr,hs⟩ | ⟨hr,hs⟩⟩ := h ha
    · exact ⟨hb,.inr ⟨slot,m',ha,hr,hs⟩⟩
    · exact ⟨hb,.inl ⟨hr,(freeSlot_allocSlot ha).trans hs⟩⟩

lemma swapCall_takes (writes : Nat → Bool) (hb : k.swap.Booked) {c : SwapCall} (hc : ∀ slot, c ≠ .freeSlot slot) :
    Takes k.swap (k.swapCall writes c) := by
  cases c with
  | freeSlot slot => exact absurd rfl (hc slot)
  | trackPage space vaddr =>
    refine ⟨hb.trackPage space vaddr,.inl ⟨rfl,?_⟩⟩
    simp only [swapCall,SwapManager.trackPage]
    split
    · exact ⟨rfl,rfl⟩
    · split <;> exact ⟨rfl,rfl⟩
  | untrackPage space vaddr =>
    refine ⟨hb.untrackPage space vaddr,.inl ⟨rfl,?_⟩⟩
    simp only [swapCall,SwapManager.untrackPage]
    split <;> exact ⟨rfl,rfl⟩
  | allocSlot => exact taking_takes hb fun ha => ⟨hb.allocSlot ha,.inl ⟨rfl,rfl,rfl⟩⟩
  | evictPageClock =>
    rw [swapCall]
    split
    · exact ⟨hb,.inl ⟨rfl,rfl,rfl⟩⟩
    · exact taking_takes hb fun {slot m'} ha =>
        watchedScan_ends (k := {k with swap := m'}) (hb.allocSlot ha)
  | pageOut space vaddr =>
    refine taking_takes hb fun {slot m'} ha => ?_
    have ho := writePageOut_swap writes {k with swap := m'} space vaddr slot
    split
    · next he =>
      rw [he] at ho
      exact ⟨ho ▸ hb.allocSlot ha,.inl ⟨rfl,ho ▸ ⟨rfl,rfl⟩⟩⟩
    · next he =>
      rw [he] at ho
      exact ⟨ho ▸ (hb.allocSlot ha).freeSlot slot,.inr ⟨rfl,ho ▸ ⟨rfl,rfl⟩⟩⟩

/-- Clearing an accessed flag moves no entry. -/
lemma walk_of_faded {tables tables' : Nat → Nat → Entry}
    (h : ∀ t i, tables' t i = tables t i ∨ tables' t i = tables t i &&& ~~~flagAccessed) (table : Nat) (path : List Nat) :
    walk tables' table path = walk tables table path := by
  induction path generalizing table with
  | nil => rfl
  | cons i path ih =>
    have hp : hasFlag (tables' table i) flagPresent = hasFlag (tables table i) flagPresent ∧
        hasFlag (tables' table i) flagHugePage = hasFlag (tables table i) flagHugePage ∧
        frameOf (tables' table i) = frameOf (tables table i) := by
      rcases h table i with he | he
      · rw [he]
        exact ⟨rfl,rfl,rfl⟩
      · rw [he]
        exact ⟨by simp (disch := decide) [flagAccessed,flagPresent,hasFlag_not,hasFlag_bit_bit],
          by simp (disch := decide) [flagAccessed,flagHugePage,hasFlag_not,hasFlag_bit_bit],
          frameOf_clear _ (show FlagBit 5 by decide)⟩
    rw [walk,walk,hp.1,hp.2.1,hp.2.2,ih]

lemma writeEntry_tables (table index : Nat) (e : Entry) (t i : Nat) :
    (k.writeEntry table index e).tables t i = if t = table ∧ i = index then e else k.tables t i := by
  rw [writeEntry]
  by_cases ht : t = table
  · subst ht
    by_cases hi : i = index <;> simp [hi]
  · simp [ht]

/-- What a check does to the flags: it reports a clear flag only where it is clear, and clears the flag of the entry it
reports. -/
lemma checkAndClearAccessed_accessed {r : Except MapError (Option Bool)}
    (he : k.checkAndClearAccessed q.space q.vaddr = (k',r)) :
    (∀ p, k'.entryOf p = k.entryOf p) ∧ (r = .ok (some false) → k.accessed q = false) ∧
      ∀ p, k.accessed p = true → k'.accessed p = true ∨ r = .ok (some true) ∧ k.entryOf q = k.entryOf p := by
  have hsame : k' = k → (∀ p, k'.entryOf p = k.entryOf p) ∧
      ∀ p, k.accessed p = true → k'.accessed p = true ∨ r = .ok (some true) ∧ k.entryOf q = k.entryOf p := by
    rintro rfl
    exact ⟨fun _ => rfl,fun _ h => .inl h⟩
  rw [checkAndClearAccessed] at he
  split at he
  · cases he
    exact ⟨(hsame rfl).1,fun h => (by cases h),(hsame rfl).2⟩
  · cases he
    exact ⟨(hsame rfl).1,fun h => (by cases h),(hsame rfl).2⟩
  next table hl =>
  have hq : k.entryOf q = some (table,indexPt (alignDown q.vaddr)) := by rw [entryOf,hl]
  dsimp only at he
  split_ifs at he with hp hc ha
  · cases he
    exact ⟨(hsame rfl).1,fun h => (by cases h),(hsame rfl).2⟩
  · cases he
    exact ⟨(hsame rfl).1,fun h => (by cases h),(hsame rfl).2⟩
  · cases he
    have hw : ∀ p, (k.writeEntry table (indexPt (alignDown q.vaddr))
        (k.tables table (indexPt (alignDown q.vaddr)) &&& ~~~flagAccessed)).entryOf p = k.entryOf p := by
      intro p
      rw [entryOf,entryOf,pteLocation,pteLocation,walk_of_faded]
      intro t i
      rw [writeEntry_tables]
      split_ifs with hti
      · rw [hti.1,hti.2]
        exact .inr rfl
      · exact .inl rfl
    refine ⟨hw,fun h => (by cases h),fun p hpa => ?_⟩
    by_cases hqp : k.entryOf q = k.entryOf p
    · exact .inr ⟨rfl,hqp⟩
    · left
      rw [accessed,hw]
      rw [accessed] at hpa
      obtain ⟨⟨t,i⟩,hpe,hfl⟩ := (Option.any_eq_true _ _).1 hpa
      rw [hpe,Option.any_some]
      rw [hq,hpe,Option.some.injEq,Prod.mk.injEq] at hqp
      rw [writeEntry_tables,if_neg fun h => hqp ⟨h.1.symm,h.2.symm⟩]
      exact hfl
  · cases he
    refine ⟨(hsame rfl).1,fun _ => ?_,(hsame rfl).2⟩
    rw [accessed,hq]
    simpa using ha

lemma watchedScan_passed (hp : (∃ q ∈ passed, k.entryOf q = k.entryOf p) ∨ k.accessed p = true)
    (hv : (watchedScan writes slot fuel k passed).victim = some p) :
    ∃ q ∈ (watchedScan writes slot fuel k passed).passed, k.entryOf q = k.entryOf p := by
  induction fuel generalizing k passed with
  | zero => cases hv
  | succ fuel ih =>
    rw [watchedScan] at hv ⊢
    generalize hm : ({k with swap := {k.swap with clockHand := (k.swap.clockHand+1)%maxTrackedPages}} : Kernel) = k1
      at hv ⊢
    have hk : ∀ p, k1.entryOf p = k.entryOf p := fun p => hm ▸ rfl
    have hka : k1.accessed p = k.accessed p := hm ▸ rfl
    rw [← hka] at hp
    simp only [← hk] at hp ⊢
    dsimp only at hv ⊢
    split at hv
    · exact ih hp hv
    next target ht =>
    split at hv
    · next k2 he =>
      obtain ⟨hs,-,hc⟩ := checkAndClearAccessed_accessed he
      simp only [← hs] at hp hc ⊢
      refine ih ?_ hv
      rcases hp with ⟨q,hq,hqp⟩ | hp
      · exact .inl ⟨q,mem_cons_of_mem _ hq,hqp⟩
      · rcases hc p hp with hc | ⟨-,hc⟩
        · exact .inr hc
        · exact .inl ⟨target,mem_cons_self,hc⟩
    · next k2 he =>
      obtain ⟨-,hn,-⟩ := checkAndClearAccessed_accessed he
      have ht : target = p := by split at hv <;> exact Option.some.inj hv
      obtain ⟨q,hq,hqp⟩ := hp.resolve_right (by simp [← ht,hn rfl])
      split <;> exact ⟨q,hq,hqp⟩
    · next k2 _ hn _ he =>
      obtain ⟨hs,-,hc⟩ := checkAndClearAccessed_accessed he
      simp only [← hs] at hp hc ⊢
      exact ih (hp.imp id fun hp => (hc p hp).resolve_right fun hk => hn hk.1) hv

/-- A scan passes over tracked pages. -/
lemma watchedScan_tracked (hq : q ∈ (watchedScan writes slot fuel k passed).passed) :
    q ∈ passed ∨ ∃ i, k.swap.trackedPages i = some q := by
  induction fuel generalizing k passed with
  | zero => exact .inl hq
  | succ fuel ih =>
    rw [watchedScan] at hq
    dsimp only at hq
    split at hq
    · have hk := ih hq
      exact hk
    next target ht =>
    have hw := fun k1 : Kernel => k1.checkAndClearAccessed_swap target.space target.vaddr
    split at hq
    · next he =>
      have hw := he ▸ hw _
      rcases ih hq with hq | ⟨i,hi⟩
      · rcases mem_cons.1 hq with rfl | hq
        · exact .inr ⟨_,ht⟩
        · exact .inl hq
      · rw [hw] at hi
        exact .inr ⟨i,hi⟩
    · split at hq <;> exact .inl hq
    · next he =>
      have hw := he ▸ hw _
      refine (ih hq).imp id fun ⟨i,hi⟩ => ⟨i,?_⟩
      have hi := dropTracked_sub _ _ _ hi
      rw [hw] at hi
      exact hi

end Kernel
namespace SwapTurn
open SwapManager Kernel

/-- The slots in use are those handed out. -/
def Accounted (b : SwapManager × List Nat) : Prop :=
  b.1.Booked ∧ ∀ slot, slot < maxSwapSlots → (b.1.bitmap slot = true ↔ slot ∈ b.2)

lemma Accounted.step {b : SwapManager × List Nat} (h : Accounted b) (turn : SwapTurn) : Accounted (turn.step b) := by
  obtain ⟨k,writes,c⟩ := turn
  by_cases hc : ∃ slot, c = .freeSlot slot
  · obtain ⟨slot,rfl⟩ := hc
    refine ⟨h.1.freeSlot slot,fun i hi => ?_⟩
    rw [SwapTurn.step,taken,swapCall,freeSlot_bitmap _ _ _ hi,h.2 i hi]
    simp
  · rw [not_exists] at hc
    obtain ⟨hb,ht⟩ := swapCall_takes (k := {k with swap := b.1}) writes h.1 hc
    have hs : (SwapTurn.step b ⟨k,writes,c⟩).2 = (({k with swap := b.1} : Kernel).swapCall writes c).slot.toList++b.2 := by
      cases c with
      | freeSlot slot => exact absurd rfl (hc slot)
      | _ => rfl
    refine ⟨hb,fun i hi => ?_⟩
    rw [hs]
    change (({k with swap := b.1} : Kernel).swapCall writes c).kernel.swap.bitmap i = true ↔ _
    obtain ⟨hr,hm⟩ | ⟨slot,m',ha,hr,hm⟩ := ht
    · rw [hr,hm.1,h.2 i hi]
      rfl
    · obtain ⟨-,-,rfl⟩ := allocSlot_some ha
      rw [hr,hm.1,Option.toList_some,singleton_append,mem_cons,← h.2 i hi]
      by_cases he : i = slot <;> simp [he]

/-- In every run of calls, whatever happens to the rest of the kernel between them: the books are kept, a call hands out
a slot that is free, a call that fails leaves the slots as they were, and a victim whose entry has the accessed flag has
been passed over. -/
theorem swap_bookkeeping (turns : List SwapTurn) (turn : SwapTurn) :
    let b := turns.foldl step (.new,[])
    let r := turn.taken b.1
    Accounted b ∧ (∀ slot, r.slot = some slot → slot ∉ b.2) ∧
      ((∀ slot, turn.call ≠ .freeSlot slot) → r.slot = none → SameSlots b.1 r.kernel.swap) ∧
      ∀ p, r.victim = some p → turn.kernel.accessed p = true →
        (∃ q ∈ r.passed, turn.kernel.entryOf q = turn.kernel.entryOf p) ∧
          ((∀ i q, b.1.trackedPages i = some q → turn.kernel.entryOf q = turn.kernel.entryOf p → q = p) →
            p ∈ r.passed) := by
  have ha : Accounted (.new,[]) := by
    refine ⟨⟨?_,?_,?_⟩,?_⟩ <;> simp [SwapManager.new,occupied]
  have hb : ∀ b, Accounted b → Accounted (turns.foldl step b) := by
    induction turns with
    | nil => exact fun b hb => hb
    | cons turn turns ih => exact fun b hb => ih _ (hb.step turn)
  have hb := hb _ ha
  intro b r
  change Accounted b at hb
  obtain ⟨k,writes,c⟩ := turn
  have ht := swapCall_takes (k := {k with swap := b.1}) writes (c := c) hb.1
  refine ⟨hb,fun slot hr hm => ?_,fun hc hr => ?_,fun p hv hp => ?_⟩
  · obtain ⟨-,⟨hn,-⟩ | ⟨slot',m',hal,hr',-⟩⟩ := ht (by rintro slot rfl; cases hr)
    · cases hn.symm.trans hr
    · cases hr'.symm.trans hr
      obtain ⟨hl,hf,-⟩ := allocSlot_some hal
      rw [(hb.2 slot hl).2 hm] at hf
      cases hf
  · obtain ⟨-,⟨-,hs⟩ | ⟨slot,m',-,hr',-⟩⟩ := ht hc
    · exact hs
    · cases hr'.symm.trans hr
  · cases c with
    | evictPageClock =>
      simp only [r,taken,swapCall,taking] at hv ⊢
      split at hv
      · cases hv
      next hi =>
      rw [if_neg hi]
      split at hv
      · cases hv
      next m' slot hal =>
      have hpass := watchedScan_passed (.inr (by exact hp)) hv
      refine ⟨hpass,fun hone => ?_⟩
      obtain ⟨q,hq,hqp⟩ := hpass
      rcases watchedScan_tracked hq with hn | ⟨i,hi⟩
      · cases hn
      · rw [show _ = m'.trackedPages from rfl,allocSlot_tracked hal] at hi
        rw [← hone i q hi hqp]
        exact hq
    | allocSlot =>
      simp only [r,taken,swapCall,taking] at hv
      split at hv <;> cases hv
    | pageOut space vaddr =>
      simp only [r,taken,swapCall,taking] at hv
      split at hv
      · cases hv
      · split at hv <;> cases hv
    | _ => cases hv

end SwapTurn

/-- The sectors asked for from the `i`-th on, up to the first that the device refuses. -/
def sectorLoop (serves : BitVec 64 → Bool) (base : BitVec 64) : Nat → Nat → List (BitVec 64) × Bool
  | 0, _ => ([],true)
  | fuel+1, i =>
    let lba := base+BitVec.ofNat 64 i
    if serves lba then
      let (sectors,done) := sectorLoop serves base fuel (i+1)
      (lba::sectors,done)
    else ([lba],false)

/-- The transfers of `write_page_to_disk` and `read_page_from_disk`, for an area that starts at `startLba`. -/
def pageTransfers (serves : BitVec 64 → Bool) (startLba : BitVec 64) (slot : Nat) : List (BitVec 64) × Bool :=
  sectorLoop serves (startLba+BitVec.ofNat 64 slot*8#64) 8 0

lemma mem_sectorLoop {serves : BitVec 64 → Bool} {base lba : BitVec 64} {fuel i : Nat}
    (h : lba ∈ (sectorLoop serves base fuel i).1) : ∃ j, j < i+fuel ∧ lba = base+BitVec.ofNat 64 j := by
  induction fuel generalizing i with
  | zero => cases h
  | succ fuel ih =>
    rw [sectorLoop] at h
    split at h
    · rcases mem_cons.1 h with rfl | h
      · exact ⟨i,by omega,rfl⟩
      · obtain ⟨j,hj,he⟩ := ih h
        exact ⟨j,by omega,he⟩
    · exact ⟨i,by omega,mem_singleton.1 h⟩

/-- All slots but the last are taken. -/
lemma allocSlot_last : ∃ m m', SwapManager.allocSlot m = (m',some (maxSwapSlots-1)) := by
  rcases ha : SwapManager.allocSlot {SwapManager.new with bitmap := (· != maxSwapSlots-1)} with ⟨m',_ | slot⟩
  · rw [SwapManager.allocSlot] at ha
    split at ha
    · next hn => simpa using SwapManager.firstIndex_none hn (Nat.zero_le (maxSwapSlots-1)) (by decide)
    · cases ha
  · obtain ⟨-,hf,-⟩ := SwapManager.allocSlot_some ha
    exact ⟨_,m',bne_eq_false_iff_eq.1 hf ▸ ha⟩

/-- An area confines its slots exactly when it has eight sectors for each of them, below `2^64`. -/
theorem swap_confined (start sectors : BitVec 64) :
    (∀ m m' slot serves, SwapManager.allocSlot m = (m',some slot) →
      (∀ lba ∈ (pageTransfers serves start slot).1,
        start.toNat ≤ lba.toNat ∧ lba.toNat < start.toNat+sectors.toNat) ∧
      ∀ e, Swapped (swapEntry slot e) ∧ slotOf (swapEntry slot e) = slot) ↔
      maxSwapSlots*8 ≤ sectors.toNat ∧ start.toNat+maxSwapSlots*8 ≤ 2^64 := by
  constructor
  · intro h
    obtain ⟨m,m',ha⟩ := allocSlot_last
    have hl := (h m m' _ (fun _ => true) ha).1 (start+BitVec.ofNat 64 (maxSwapSlots-1)*8#64+BitVec.ofNat 64 7)
      (by simp [pageTransfers,sectorLoop])
    simp only [maxSwapSlots,BitVec.toNat_add,BitVec.toNat_mul,BitVec.toNat_ofNat] at hl ⊢
    omega
  · rintro ⟨hn,he⟩ m m' slot serves ha
    have hsl := (SwapManager.allocSlot_some ha).1
    refine ⟨fun lba hm => ?_,fun e => ⟨swapEntry_swapped slot e,slotOf_swapOut hsl e⟩⟩
    obtain ⟨j,hj,rfl⟩ := mem_sectorLoop hm
    simp only [maxSwapSlots,BitVec.toNat_add,BitVec.toNat_mul,BitVec.toNat_ofNat] at *
    omega

/-- With the 2014 sectors that the kernel takes where there is no partition, the slot after the first 251 leaves the area. -/
theorem swap_leaves_area :
    let m : SwapManager := {SwapManager.new with bitmap := (decide <| · < 251), usedSlots := 251}
    m.allocSlot.2 = some 251 ∧ 2048#64 ∈ (pageTransfers (fun _ => true) 34#64 251).1 ∧ ¬2048 < 34+2014 := by
  have h : firstIndex (fun i => !decide (i < 251)) maxSwapSlots 0 = some 251 := by decide +kernel
  exact ⟨by rw [SwapManager.allocSlot,h],by decide +kernel⟩

end Vanta.Mm
