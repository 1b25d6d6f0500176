import Mathlib.Algebra.BigOperators.Group.Finset.Basic
import Vanta.Library.Dyadic
import Vanta.Memory.FreeLists

/-! The blocks of the frame allocator tile the frames that were added. -/

namespace Vanta.Memory
open Library Function List
variable (L : Nat → List Nat)

def listedFrames : Nat := ∑ k ∈ Finset.range maxOrder, (L k).length*2^k

/-- The frame `f` lies in a block on the lists `L`. -/
def Listed (f : Nat) : Prop := ∃ k, ∃ p ∈ L k, InBlock p k f

/-- No list holds both halves of a block of the next order. -/
def Canon : Prop := ∀ k, ∀ p ∈ L k, k+1 < maxOrder → p ^^^ 2^k ∉ L k

lemma mem_push (p k q j : Nat) : q ∈ update L k (p::L k) j ↔ (q = p ∧ j = k) ∨ q ∈ L j := by
  by_cases hj : j = k
  · subst hj; simp
  · simp [hj]

lemma Canon.push {L : Nat → List Nat} (h : Canon L) {p k : Nat}
    (hb : k+1 < maxOrder → p ^^^ 2^k ∉ L k) : Canon (update L k (p::L k)) := by
  intro j q hq hj
  rw [mem_push] at hq ⊢
  rintro (⟨hqp,rfl⟩ | hbu)
  · rcases hq with ⟨rfl,-⟩ | hq
    · have := congrArg (q ^^^ ·) hqp
      simp at this
    · exact hb hj (by rwa [← hqp,Nat.xor_assoc,Nat.xor_self,Nat.xor_zero])
  · rcases hq with ⟨rfl,rfl⟩ | hq
    · exact hb hj hbu
    · exact h j q hq hj hbu

lemma listed_push (p k f : Nat) : Listed (update L k (p::L k)) f ↔ Listed L f ∨ InBlock p k f := by
  simp only [Listed,mem_push]
  constructor
  · rintro ⟨j,q,⟨rfl,rfl⟩ | hq,hf⟩
    · exact .inr hf
    · exact .inl ⟨j,q,hq,hf⟩
  · rintro (⟨j,q,hq,hf⟩ | hf)
    · exact ⟨j,q,.inr hq,hf⟩
    · exact ⟨k,p,.inl ⟨rfl,rfl⟩,hf⟩

lemma listedFrames_update {L : Nat → List Nat} {k : Nat} (hk : k < maxOrder) (l : List Nat) :
    listedFrames (update L k l)+(L k).length*2^k = listedFrames L+l.length*2^k := by
  have hm : k ∈ Finset.range maxOrder := by simpa using hk
  have hr : ∑ j ∈ (Finset.range maxOrder).erase k, (update L k l j).length*2^j =
      ∑ j ∈ (Finset.range maxOrder).erase k, (L j).length*2^j := by
    refine Finset.sum_congr rfl (fun j hj => ?_)
    rw [update_of_ne (Finset.ne_of_mem_erase hj)]
  rw [listedFrames,listedFrames,← Finset.add_sum_erase _ _ hm,← Finset.add_sum_erase _ _ hm,hr,update_self]
  omega

namespace BuddyAllocator
variable {b : BuddyAllocator} {L : Nat → List Nat} {area : Set Nat} {hand : List (Nat × Nat)}
  {extra k p q : Nat}

lemma Threaded.listed_remove (h : Threaded b L) (hp : p ∈ L k) (f : Nat) :
    Listed L f ↔ Listed (update L k ((L k).erase p)) f ∨ InBlock p k f := by
  constructor
  · rintro ⟨j,q,hq,hf⟩
    by_cases hqp : q = p
    · subst hqp
      exact .inr (h.order_unique hq hp ▸ hf)
    · exact .inl ⟨j,q,(h.mem_remove hp).2 ⟨hq,hqp⟩,hf⟩
  · rintro (⟨j,q,hq,hf⟩ | hf)
    · exact ⟨j,q,((h.mem_remove hp).1 hq).1,hf⟩
    · exact ⟨k,p,hp,hf⟩

def Live (b : BuddyAllocator) (p k : Nat) : Prop := 0 < b.refcounts p ∧ b.order p = k

def Blocks (b : BuddyAllocator) (L : Nat → List Nat) (hand : List (Nat × Nat)) (p k : Nat) : Prop :=
  (p ∈ L k ∨ b.Live p k) ∨ (p,k) ∈ hand

/-- The allocator inside an operation that holds the blocks `hand`; `extra` counted frames are on no list, `area` is
what was added. -/
structure Inv (b : BuddyAllocator) (area : Set Nat) (L : Nat → List Nat) (hand : List (Nat × Nat))
    (extra : Nat) : Prop where
  threaded : Threaded b L
  tiling : Tiling area (b.Blocks L hand)
  tracked : ∀ f ∈ area, f < b.maxPfn
  live : ∀ p, 0 < b.refcounts p → b.isAllocated p = true ∧ b.order p < maxOrder
  unowned : ∀ k, ∀ p ∈ L k, b.refcounts p = 0
  held : ∀ p k, (p,k) ∈ hand → b.refcounts p = 0 ∧ b.isFree p = false ∧ k < maxOrder
  count : b.freeFrames = listedFrames L+extra

namespace Inv

section
variable (h : Inv b area L hand extra)
include h

lemma lt_of_blocks (hb : b.Blocks L hand p k) : p < b.maxPfn :=
  h.tracked p (h.tiling.inside p k hb p (inBlock_head p k))

lemma live_notFree (hp : 0 < b.refcounts p) : b.isFree p = false := by
  have hm : p < b.maxPfn := h.lt_of_blocks (.inl (.inr ⟨hp,rfl⟩))
  cases hf : b.isFree p with
  | false => rfl
  | true =>
    have := h.unowned _ p (h.threaded.listed p hm hf)
    omega

lemma reorder {ha' : List (Nat × Nat)}
    (he : ∀ x, x ∈ ha' ↔ x ∈ hand) : Inv b area L ha' extra :=
  {h with
    tiling := h.tiling.congr (fun p k => by simp [Blocks,he])
    held := fun p k hm => h.held p k ((he _).1 hm)}

end

lemma push (h : Inv b area L ((p,k)::hand) (extra+2^k)) (ho : ∀ j, (p,j) ∉ hand) :
    Inv (b.listPush k p) area (update L k (p::L k)) hand extra := by
  obtain ⟨hr,hf,hk⟩ := h.held p k (by simp)
  have hm : p < b.maxPfn := h.lt_of_blocks (k := k) (.inr (by simp))
  have hfl : ∀ q, q ≠ p → (b.listPush k p).flags q = b.flags q := fun q hq => listPush_flags_of_ne hq
  have hl : ∀ q, 0 < b.refcounts q → q ≠ p := by
    rintro q hq rfl
    omega
  refine ⟨h.threaded.push hk hm hf,h.tiling.congr (fun q j => ?_),?_,?_,?_,?_,?_⟩
  · have hlv : (b.listPush k p).Live q j ↔ b.Live q j := by
      simp only [Live,listPush_refcounts]
      refine and_congr_right (fun hq => ?_)
      rw [order_congr (hfl q (hl q hq))]
    simp only [Blocks,mem_push,hlv,mem_cons,Prod.mk.injEq]
    tauto
  · simpa using h.tracked
  · intro q hq
    rw [listPush_refcounts] at hq
    rw [isAllocated_congr (hfl q (hl q hq)),order_congr (hfl q (hl q hq))]
    exact h.live q hq
  · intro j q hq
    rw [listPush_refcounts]
    by_cases hj : j = k
    · subst hj
      rcases mem_cons.1 (by simpa using hq) with rfl | hq
      · exact hr
      · exact h.unowned j q hq
    · exact h.unowned j q (by simpa [hj] using hq)
  · intro q j hq
    have hqp : q ≠ p := by
      rintro rfl
      exact ho j hq
    rw [listPush_refcounts,isFree_congr (hfl q hqp)]
    exact h.held q j (by simp [hq])
  · have hc := h.count
    have hs := listedFrames_update (L := L) hk (p::L k)
    rw [length_cons,Nat.add_mul] at hs
    rw [listPush_freeFrames]
    omega

lemma remove (h : Inv b area L hand extra) (hp : p ∈ L k) :
    Inv (b.listRemove k p) area (update L k ((L k).erase p)) ((p,k)::hand) (extra+2^k) := by
  have hk := h.threaded.order_lt hp
  have hm := h.threaded.bound k p hp
  have hr := h.unowned k p hp
  have hf : ∀ q, q ≠ p → (b.listRemove k p).flags q = b.flags q :=
    fun q hq => listRemove_flags_of_ne hq
  have hl : ∀ q, 0 < b.refcounts q → q ≠ p := by
    rintro q hq rfl
    omega
  have hli : ∀ j q, q ∈ update L k ((L k).erase p) j ↔ q ∈ L j ∧ q ≠ p :=
    fun j q => h.threaded.mem_remove hp
  refine ⟨h.threaded.remove hp,h.tiling.congr (fun q j => ?_),?_,?_,?_,?_,?_⟩
  · have hlv : (b.listRemove k p).Live q j ↔ b.Live q j := by
      simp only [Live,listRemove_refcounts]
      refine and_congr_right (fun hq => ?_)
      rw [order_congr (hf q (hl q hq))]
    simp only [Blocks,hli,hlv,mem_cons,Prod.mk.injEq]
    constructor
    · rintro ((hq | hq) | ⟨rfl,rfl⟩ | hq)
      · exact .inl (.inl hq.1)
      · exact .inl (.inr hq)
      · exact .inl (.inl hp)
      · exact .inr hq
    · rintro ((hq | hq) | hq)
      · by_cases hqp : q = p
        · subst hqp
          exact .inr (.inl ⟨rfl,h.threaded.order_unique hq hp⟩)
        · exact .inl (.inl ⟨hq,hqp⟩)
      · exact .inl (.inr hq)
      · exact .inr (.inr hq)
  · simpa using h.tracked
  · intro q hq
    rw [listRemove_refcounts] at hq
    rw [isAllocated_congr (hf q (hl q hq)),order_congr (hf q (hl q hq))]
    exact h.live q hq
  · intro j q hq
    rw [listRemove_refcounts]
    exact h.unowned j q ((hli j q).1 hq).1
  · intro q j hq
    rw [listRemove_refcounts]
    rcases mem_cons.1 hq with hqk | hqh
    · cases hqk
      exact ⟨hr,listRemove_isFree_self hm,hk⟩
    have hqp : q ≠ p := by
      rintro rfl
      have := (h.held q j hqh).2.1
      simp [(h.threaded.flag k q hp).1] at this
    rw [isFree_congr (hf q hqp)]
    exact h.held q j hqh
  · have hc := h.count
    have hle : ((L k).erase p).length+1 = (L k).length := by
      have := length_pos_of_mem hp
      rw [length_erase_of_mem hp]
      omega
    have hs := listedFrames_update (L := L) hk ((L k).erase p)
    rw [← hle,Nat.add_mul] at hs
    rw [listRemove_freeFrames]
    omega

end Inv

/-- What the list operations between `b` and `c` do: the frames of `given` leave the hand, those of
`taken` come into it, and no owned block changes. -/
structure Moves (b c : BuddyAllocator) (L L' : Nat → List Nat) (given taken : Nat → Prop) : Prop where
  counts : c.refcounts = b.refcounts
  owned : ∀ q, 0 < b.refcounts q → c.flags q = b.flags q
  frames : ∀ f, Listed L f ∨ given f ↔ Listed L' f ∨ taken f
  canon : Canon L → Canon L'

lemma Moves.trans {c d : BuddyAllocator} {L' L'' : Nat → List Nat} {given held taken : Nat → Prop}
    (h : Moves b c L L' given held) (h' : Moves c d L' L'' held taken) : Moves b d L L'' given taken where
  counts := h'.counts.trans h.counts
  owned q hq := (h'.owned q (h.counts ▸ hq)).trans (h.owned q hq)
  frames f := (h.frames f).trans (h'.frames f)
  canon hc := h'.canon (h.canon hc)

namespace Inv

lemma push_moves (h : Inv b area L ((p,k)::hand) extra)
    (hb : k+1 < maxOrder → p ^^^ 2^k ∉ L k) (taken : Nat → Prop) : Moves b (b.listPush k p) L (update L k (p::L k))
      (fun f => InBlock p k f ∨ taken f) taken where
  counts := listPush_refcounts
  owned q hq := listPush_flags_of_ne (fun he => by
    have := (h.held p k (by simp)).1
    rw [he] at hq
    omega)
  frames f := by rw [listed_push,or_assoc]
  canon hc := hc.push hb

lemma remove_moves (h : Inv b area L hand extra) (hp : p ∈ L k) (given : Nat → Prop) :
    Moves b (b.listRemove k p) L (update L k ((L k).erase p)) given (fun f => InBlock p k f ∨ given f) where
  counts := listRemove_refcounts
  owned q hq := listRemove_flags_of_ne (fun he => by
    have := h.unowned k p hp
    rw [he] at hq
    omega)
  frames f := by rw [h.threaded.listed_remove hp,or_assoc]
  canon hc j q hq hj hb := hc j q ((h.threaded.mem_remove hp).1 hq).1 hj ((h.threaded.mem_remove hp).1 hb).1

lemma notBlocks_of_hand (h : Inv b area L hand extra) (hp : (p,k) ∈ hand) {j : Nat} : ¬(p ∈ L j ∨ b.Live p j) := by
  obtain ⟨hr,hf,-⟩ := h.held p k hp
  rintro (hm | ⟨hl,-⟩)
  · simp [(h.threaded.flag j p hm).1] at hf
  · omega

lemma split (h : Inv b area L [(p,k+1)] extra) : Inv b area L [(p,k),(p+2^k,k)] extra := by
  obtain ⟨hr,hf,hk⟩ := h.held p (k+1) (by simp)
  have hp := Nat.two_pow_pos k
  have hi : InBlock p (k+1) (p+2^k) := (inBlock_split p k _).2 (.inr (inBlock_head _ k))
  -- a block at the upper half would overlap the block in hand
  have hu : ∀ j, ¬(p+2^k ∈ L j ∨ b.Live (p+2^k) j) := by
    intro j hj
    have := h.tiling.disjoint (p+2^k) j p (k+1) (p+2^k) (.inl hj) (.inr (by simp))
      (inBlock_head _ j) hi
    omega
  have hm : p+2^k < b.maxPfn := h.tracked _ (h.tiling.inside p (k+1) (.inr (by simp)) _ hi)
  refine {h with
    tiling := Tiling.split h.tiling (h.notBlocks_of_hand (k := k+1) (by simp))
    held := ?_}
  intro q j hq
  simp only [mem_cons,Prod.mk.injEq,not_mem_nil,or_false] at hq
  rcases hq with ⟨rfl,rfl⟩ | ⟨rfl,rfl⟩
  · exact ⟨hr,hf,by omega⟩
  refine ⟨?_,?_,by omega⟩
  · by_contra hn
    exact hu _ (.inr ⟨Nat.pos_of_ne_zero hn,rfl⟩)
  cases hfr : b.isFree (p+2^j) with
  | false => rfl
  | true => exact absurd (.inl (h.threaded.listed _ hm hfr)) (hu _)

lemma merge (h : Inv b area L [(p,k),(p+2^k,k)] extra) (hk : k+1 < maxOrder) (ha : 2^(k+1) ∣ p) :
    Inv b area L [(p,k+1)] extra := by
  refine {h with
    tiling := Tiling.merge h.tiling (h.notBlocks_of_hand (k := k) (by simp))
      (h.notBlocks_of_hand (k := k) (by simp)) ha
    held := ?_}
  intro q j hq
  obtain ⟨rfl,rfl⟩ := Prod.mk.inj (mem_singleton.1 hq)
  obtain ⟨hr,hf,-⟩ := h.held q k (by simp)
  exact ⟨hr,hf,hk⟩

/-- The block in hand is given to its owner: the head gets the flags of an allocated block and a
reference count of one. -/
lemma take (h : Inv b area L [(p,k)] (extra+2^k)) {flags : BitVec 8}
    (ha : flags &&& flagAllocated ≠ 0) (hfr : flags &&& flagFree = 0) (ho : (flags &&& orderMask).toNat = k) :
    Inv {b with
      flags := update b.flags p flags
      refcounts := update b.refcounts p 1
      freeFrames := b.freeFrames - 2^k} area L [] extra := by
  obtain ⟨hr,hf,hk⟩ := h.held p k (by simp)
  have hm : ∀ j, ∀ q ∈ L j, q ≠ p := by
    rintro j q hq rfl
    simp [(h.threaded.flag j q hq).1] at hf
  refine ⟨h.threaded.congr rfl rfl rfl rfl (fun q => ?_) (fun q hq => ?_),
    h.tiling.congr (fun q j => ?_),h.tracked,?_,?_,by simp,?_⟩
  · by_cases hq : q = p
    · subst hq
      rw [hf]
      simp [isFree,hfr]
    · simp [isFree,hq]
  · have hqp : q ≠ p := by
      rintro rfl
      simp [hf] at hq
    simp [order,hqp]
  · simp only [Blocks,Live,order,not_mem_nil,or_false,mem_singleton,Prod.mk.injEq]
    by_cases hq : q = p
    · subst hq
      simp only [update_self,ho,hr]
      simp [eq_comm]
    · simp [hq]
  · intro q hq
    by_cases hqp : q = p
    · subst hqp
      simpa [isAllocated,order,ho,hk] using ha
    · simpa [isAllocated,order,hqp] using h.live q (by simpa [hqp] using hq)
  · intro j q hq
    simpa [hm j q hq] using h.unowned j q hq
  have := h.count
  simp only
  omega

section
variable (h : Inv b area L [] extra)
include h

lemma release (hp : 0 < b.refcounts p) : Inv {b with
      refcounts := update b.refcounts p 0
      freeFrames := b.freeFrames+2^b.order p
      flags := update b.flags p (b.flags p &&& ~~~flagAllocated)} area L
      [(p,b.order p)] (extra+2^b.order p) := by
  have hf := h.live_notFree hp
  obtain ⟨-,hk⟩ := h.live p hp
  have hb : ∀ x : BitVec 8, (x &&& ~~~flagAllocated) &&& flagFree = x &&& flagFree := by
    decide
  have hm : ∀ j, ∀ q ∈ L j, q ≠ p := by
    rintro j q hq rfl
    simp [(h.threaded.flag j q hq).1] at hf
  have hfr : ∀ q, isFree {b with
      refcounts := update b.refcounts p 0
      freeFrames := b.freeFrames+2^b.order p
      flags := update b.flags p (b.flags p &&& ~~~flagAllocated)} q = b.isFree q := by
    intro q
    by_cases hq : q = p
    · subst hq
      simp [isFree,hb]
    · simp [isFree,hq]
  refine ⟨h.threaded.congr rfl rfl rfl rfl hfr (fun q hq => ?_),h.tiling.congr (fun q j => ?_),h.tracked,?_,?_,?_,?_⟩
  · have hqp : q ≠ p := by
      rintro rfl
      simp [hf] at hq
    simp [order,hqp]
  · simp only [Blocks,Live,order,not_mem_nil,or_false,mem_singleton,Prod.mk.injEq]
    by_cases hq : q = p
    · subst hq
      simp [hp,eq_comm]
    · simp [hq]
  · intro q hq
    have hqp : q ≠ p := by
      rintro rfl
      simp at hq
    simpa [isAllocated,order,hqp] using h.live q (by simpa [hqp] using hq)
  · intro j q hq
    simpa [hm j q hq] using h.unowned j q hq
  · intro q j hq
    obtain ⟨rfl,rfl⟩ := Prod.mk.inj (mem_singleton.1 hq)
    exact ⟨by simp,by rw [hfr,hf],hk⟩
  · have := h.count
    simp only
    omega

lemma recount {n : Nat} (hp : 0 < b.refcounts p) (hn : 0 < n) :
    Inv {b with refcounts := update b.refcounts p n} area L [] extra := by
  have hpo : ∀ q, 0 < update b.refcounts p n q ↔ 0 < b.refcounts q := by
    intro q
    by_cases hq : q = p
    · subst hq; simp [hp,hn]
    · simp [hq]
  refine ⟨h.threaded.congr rfl rfl rfl rfl (fun q => rfl) (fun q _ => rfl),
    h.tiling.congr (fun q j => ?_),h.tracked,fun q hq => h.live q ((hpo q).1 hq),?_,by simp,h.count⟩
  · simp only [Blocks,Live,hpo]
    rfl
  intro j q hq
  have := h.unowned j q hq
  have := hpo q
  simp only
  omega

lemma mark :
    Inv {b with flags := update b.flags p (b.flags p ||| flagReserved)} area L [] extra := by
  have hb : ∀ x : BitVec 8, (x ||| flagReserved) &&& flagFree = x &&& flagFree ∧
      (x ||| flagReserved) &&& flagAllocated = x &&& flagAllocated ∧
      (x ||| flagReserved) &&& orderMask = x &&& orderMask := by
    decide
  have hs : ∀ m ∈ [flagFree,flagAllocated,orderMask], ∀ q,
      update b.flags p (b.flags p ||| flagReserved) q &&& m = b.flags q &&& m := by
    intro m hm q
    by_cases hq : q = p
    · subst hq
      obtain ⟨hf,ha,ho⟩ := hb (b.flags q)
      simp only [mem_cons,not_mem_nil,or_false] at hm
      rcases hm with rfl | rfl | rfl <;> simp [hf,ha,ho]
    · simp [hq]
  have hf := hs flagFree (by simp)
  have ha := hs flagAllocated (by simp)
  have ho := hs orderMask (by simp)
  refine ⟨h.threaded.congr rfl rfl rfl rfl (fun q => by simp [isFree,hf])
    (fun q _ => by simp [order,ho]),h.tiling.congr (fun q j => ?_),h.tracked,?_,h.unowned,
    by simp,h.count⟩
  · simp [Blocks,Live,order,ho]
  · intro q hq
    simpa [isAllocated,order,ha,ho] using h.live q hq

lemma grow (n : Nat) : Inv {b with
      totalUsableFrames := b.totalUsableFrames+n
      freeFrames := b.freeFrames+n} area L [] (extra+n) := by
  refine ⟨h.threaded.congr rfl rfl rfl rfl (fun q => rfl) (fun q _ => rfl),h.tiling,h.tracked,h.live,
    h.unowned,h.held,?_⟩
  have := h.count
  simp only
  omega

lemma add {area' : Set Nat} (hk : k < maxOrder) (ha : 2^k ∣ p)
    (ho : ∀ f, InBlock p k f → f ∉ area) (hs : area ⊆ area')
    (hi : ∀ f, InBlock p k f → f ∈ area') (ht : ∀ f ∈ area', f < b.maxPfn) : Inv b area' L [(p,k)] extra := by
  have hn : ∀ j, ¬b.Blocks L [] p j := fun j hj =>
    ho p (inBlock_head p k) (h.tiling.inside p j hj p (inBlock_head p j))
  refine {h with
    tiling := (h.tiling.insert ha ho hs hi).congr (fun q j => by simp [Blocks])
    tracked := ht
    held := ?_}
  intro q j hq
  obtain ⟨rfl,rfl⟩ := Prod.mk.inj (mem_singleton.1 hq)
  have hm : q < b.maxPfn := ht q (hi q (inBlock_head q j))
  refine ⟨?_,?_,hk⟩
  · by_contra hr
    exact hn _ (.inl (.inr ⟨Nat.pos_of_ne_zero hr,rfl⟩))
  cases hf : b.isFree q with
  | false => rfl
  | true => exact absurd (.inl (.inl (h.threaded.listed q hm hf))) (hn _)

end
end Inv
end BuddyAllocator
end Vanta.Memory
