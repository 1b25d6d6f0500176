import Vanta.Library.LinkedList
import Vanta.Memory.Buddy

namespace Vanta.Memory
open Library Function List
namespace BuddyAllocator
variable {b : BuddyAllocator} {L : Nat → List Nat} {k p q : Nat}

@[simp] lemma listPush_refcounts : (b.listPush k p).refcounts = b.refcounts := by
  unfold listPush; split <;> rfl

@[simp] lemma listPush_maxPfn : (b.listPush k p).maxPfn = b.maxPfn := by
  unfold listPush; split <;> rfl

@[simp] lemma listPush_freeFrames : (b.listPush k p).freeFrames = b.freeFrames := by
  unfold listPush; split <;> rfl

lemma listPush_flags_of_ne (h : q ≠ p) : (b.listPush k p).flags q = b.flags q := by
  unfold listPush
  split
  · rfl
  · simp [h]

lemma listPush_flags_self (h : p < b.maxPfn) :
    (b.listPush k p).flags p = (BitVec.ofNat 8 k &&& orderMask) ||| flagFree := by
  simp [listPush,Nat.not_le.2 h]

@[simp] lemma listRemove_refcounts : (b.listRemove k p).refcounts = b.refcounts := by
  unfold listRemove; split <;> rfl

@[simp] lemma listRemove_maxPfn : (b.listRemove k p).maxPfn = b.maxPfn := by
  unfold listRemove; split <;> rfl

@[simp] lemma listRemove_freeFrames : (b.listRemove k p).freeFrames = b.freeFrames := by
  unfold listRemove; split <;> rfl

lemma listRemove_flags_of_ne (h : q ≠ p) : (b.listRemove k p).flags q = b.flags q := by
  unfold listRemove
  split
  · rfl
  · simp [h]

lemma listRemove_flags_self (h : p < b.maxPfn) : (b.listRemove k p).flags p = b.flags p &&& ~~~flagFree := by
  simp [listRemove,Nat.not_le.2 h]

variable {c : BuddyAllocator}

section
variable (h : c.flags q = b.flags q)
include h

lemma isFree_congr : c.isFree q = b.isFree q := by
  simp [isFree,h]

lemma isAllocated_congr : c.isAllocated q = b.isAllocated q := by
  simp [isAllocated,h]

lemma order_congr : c.order q = b.order q := by
  simp [order,h]

end

lemma order_bits : ∀ k < maxOrder, ∀ x ∈ [flagFree,flagAllocated],
    (((BitVec.ofNat 8 k &&& orderMask) ||| x) &&& orderMask).toNat = k := by
  decide

lemma listPush_isFree_self (h : p < b.maxPfn) : (b.listPush k p).isFree p = true := by
  have hb : ∀ x : BitVec 8, (x ||| flagFree) &&& flagFree ≠ 0 := by
    decide
  simpa [isFree,listPush_flags_self h] using hb _

lemma listPush_order_self (hk : k < maxOrder) (h : p < b.maxPfn) : (b.listPush k p).order p = k := by
  rw [order,listPush_flags_self h]
  exact order_bits k hk _ (by simp)

lemma listRemove_isFree_self (h : p < b.maxPfn) : (b.listRemove k p).isFree p = false := by
  have hb : ∀ x : BitVec 8, (x &&& ~~~flagFree) &&& flagFree = 0 := by
    decide
  simp [isFree,listRemove_flags_self h,hb]

/-- The arrays hold exactly the lists `L`, threaded from the heads, and the free flag with order `k` is on the frames of
`L k`. -/
structure Threaded (b : BuddyAllocator) (L : Nat → List Nat) : Prop where
  linked : ∀ k, Linked b.nextFree b.prevFree none32 none32 (L k)
  head : ∀ k, b.freeLists k = (L k).head?
  nodup : ∀ k, (L k).Nodup
  bound : ∀ k, ∀ p ∈ L k, p < b.maxPfn
  flag : ∀ k, ∀ p ∈ L k, b.isFree p = true ∧ b.order p = k
  listed : ∀ p < b.maxPfn, b.isFree p = true → p ∈ L (b.order p)
  top : ∀ k, maxOrder ≤ k → L k = []
  small : b.maxPfn ≤ maxSupportedFrames

namespace Threaded
variable {j : Nat}

section
variable (h : Threaded b L)
include h

lemma lt_none32 (hp : p < b.maxPfn) : p < none32 :=
  lt_of_lt_of_le hp (le_trans h.small (by decide))

lemma ne_none32 (hp : p ∈ L k) : p ≠ none32 :=
  (h.lt_none32 (h.bound k p hp)).ne

lemma isLink_of_mem (hp : p ∈ L k) : b.isLink p = true := by
  simp [isLink,h.ne_none32 hp,h.bound k p hp]

lemma notMem_of_notFree (hp : b.isFree p = false) : p ∉ L k := by
  intro hm
  simp [(h.flag k p hm).1] at hp

lemma order_unique (hk : p ∈ L k) (hj : p ∈ L j) : k = j := (h.flag k p hk).2.symm.trans (h.flag j p hj).2

lemma order_lt (hp : p ∈ L k) : k < maxOrder := by
  by_contra hk
  simp [h.top k (Nat.not_lt.1 hk)] at hp

lemma congr {c : BuddyAllocator} (hn : c.nextFree = b.nextFree)
    (hp : c.prevFree = b.prevFree) (hl : c.freeLists = b.freeLists) (hm : c.maxPfn = b.maxPfn)
    (hf : ∀ q, c.isFree q = b.isFree q) (ho : ∀ q, b.isFree q = true → c.order q = b.order q) : Threaded c L where
  linked k := by rw [hn,hp]; exact h.linked k
  head k := by rw [hl]; exact h.head k
  nodup := h.nodup
  bound k q hq := by rw [hm]; exact h.bound k q hq
  flag k q hq := by
    have := h.flag k q hq
    rw [hf,ho q this.1]
    exact this
  listed q hq hqf := by
    rw [hf] at hqf
    rw [ho q hqf]
    exact h.listed q (hm ▸ hq) hqf
  top := h.top
  small := hm ▸ h.small

lemma mod_two_pow (hp : p < b.maxPfn) : p%2^32 = p :=
  Nat.mod_eq_of_lt (lt_trans (h.lt_none32 hp) (by decide))

lemma push_nextFree (hp : p < b.maxPfn) :
    (b.listPush k p).nextFree q = if q = p then (L k).headD none32 else b.nextFree q := by
  simp only [listPush,Nat.not_le.2 hp,if_false,update_apply,h.head k]
  cases hl : L k with
  | nil => rfl
  | cons a l =>
    have ha := h.mod_two_pow (h.bound k a (by simp [hl]))
    simp only [List.head?_cons,headD_cons,ha]

lemma push_prevFree (hp : p < b.maxPfn) : (b.listPush k p).prevFree q =
      if q ∈ (L k).head? then p else if q = p then none32 else b.prevFree q := by
  simp only [listPush,Nat.not_le.2 hp,if_false,h.head k,h.mod_two_pow hp]
  cases hl : L k with
  | nil => simp [update_apply]
  | cons a l =>
    have ha := h.bound k a (by simp [hl])
    simp [ha,update_apply,eq_comm]

lemma push (hk : k < maxOrder) (hp : p < b.maxPfn) (hf : b.isFree p = false) :
    Threaded (b.listPush k p) (update L k (p::L k)) := by
  have hn : ∀ j, p ∉ L j := fun j => h.notMem_of_notFree hf
  have hne : ∀ j, ∀ q ∈ L j, q ≠ p := fun j q hq he => hn j (he ▸ hq)
  have hfla : ∀ j, ∀ q ∈ L j, (b.listPush k p).flags q = b.flags q :=
    fun j q hq => listPush_flags_of_ne (hne j q hq)
  have ho : ∀ j, ∀ q ∈ L j, (b.listPush k p).isFree q = true ∧ (b.listPush k p).order q = j := by
    intro j q hq
    rw [isFree_congr (hfla j q hq),order_congr (hfla j q hq)]
    exact h.flag j q hq
  have hnew := listPush_order_self hk hp
  refine ⟨?_,?_,?_,?_,?_,?_,?_,?_⟩
  · intro j
    by_cases hj : j = k
    · subst hj
      rw [update_self]
      refine linked_push (h.linked j) (h.nodup j) (by simp [h.push_nextFree hp]) ?_ ?_ ?_
      · rw [h.push_prevFree hp,if_neg (fun hm => hn j (mem_of_mem_head? hm)),if_pos rfl]
      · intro q hq
        rw [h.push_nextFree hp,if_neg (hne j q hq)]
      intro q hq
      rw [h.push_prevFree hp,if_neg (hne j q hq)]
      cases hl : L j with
      | nil => simp [hl] at hq
      | cons a l => simp [eq_comm]
    · rw [update_of_ne hj]
      refine linked_congr (fun q hq => ?_) (fun q hq => ?_) (h.linked j)
      · rw [h.push_nextFree hp,if_neg (hne j q hq)]
      have hq' : q ∉ (L k).head? :=
        fun hm => hj (h.order_unique hq (mem_of_mem_head? hm))
      rw [h.push_prevFree hp,if_neg hq',if_neg (hne j q hq)]
  · intro j
    by_cases hj : j = k
    · simp [listPush,Nat.not_le.2 hp,hj]
    · simp [listPush,Nat.not_le.2 hp,hj,h.head j]
  · intro j
    by_cases hj : j = k
    · subst hj
      simpa using ⟨hn j,h.nodup j⟩
    · simpa [hj] using h.nodup j
  · intro j q hq
    rw [listPush_maxPfn]
    by_cases hj : j = k
    · subst hj
      rcases mem_cons.1 (by simpa using hq) with rfl | hq
      · exact hp
      · exact h.bound j q hq
    · exact h.bound j q (by simpa [hj] using hq)
  · intro j q hq
    by_cases hj : j = k
    · subst hj
      rcases mem_cons.1 (by simpa using hq) with rfl | hq
      · exact ⟨listPush_isFree_self hp,hnew⟩
      · exact ho j q hq
    · exact ho j q (by simpa [hj] using hq)
  · intro q hq hqf
    rw [listPush_maxPfn] at hq
    by_cases hqp : q = p
    · subst hqp
      simp [hnew]
    have hfl : (b.listPush k p).flags q = b.flags q := listPush_flags_of_ne hqp
    rw [isFree_congr hfl] at hqf
    rw [order_congr hfl]
    have hm := h.listed q hq hqf
    by_cases hj : b.order q = k
    · rw [hj] at hm ⊢
      simp [hm]
    · simpa [hj] using hm
  · intro j hj
    rw [update_of_ne (by omega)]
    exact h.top j hj
  · rw [listPush_maxPfn]
    exact h.small

lemma isLink_iff_of_list (hq : q = none32 ∨ q ∈ L k) : b.isLink q = true ↔ q ∈ L k := by
  rcases hq with rfl | hq
  · simp only [isLink,bne_self_eq_false,Bool.false_and,Bool.false_eq_true,false_iff]
    exact fun hm => h.ne_none32 hm rfl
  · simp [h.isLink_of_mem hq,hq]

end
section
variable (h : Threaded b L) (hp : p ∈ L k)
include h hp

lemma isLink_prev : b.isLink (b.prevFree p) = true ↔ b.prevFree p ∈ L k :=
  h.isLink_iff_of_list (mem_cons.1 (linked_prev_mem (h.linked k) hp))

lemma isLink_next : b.isLink (b.nextFree p) = true ↔ b.nextFree p ∈ L k := by
  apply h.isLink_iff_of_list
  by_cases hn : b.nextFree p = none32
  · exact .inl hn
  · exact .inr (linked_next_mem (h.linked k) hp hn)

lemma remove_nextFree (hq : q ∈ L j) (hqp : q ≠ p) : (b.listRemove k p).nextFree q =
      if b.nextFree q = p then b.nextFree p else b.nextFree q := by
  have hma := h.bound k p hp
  simp only [listRemove,Nat.not_le.2 hma,if_false,update_of_ne hqp]
  by_cases hn : b.nextFree q = p
  · have hb : b.prevFree p = q := by
      rw [← hn]
      exact linked_prev_next (h.linked j) hq (by rw [hn]; exact h.ne_none32 hp)
    rw [if_pos hn,hb,if_pos (h.isLink_of_mem hq),update_self]
  split
  · next hl =>
    have hm := (h.isLink_prev hp).1 hl
    have hf := linked_next_prev (h.linked k) (h.nodup k) hp (h.ne_none32 hm)
    rw [update_of_ne]
    rintro rfl
    exact hn hf
  · rfl

lemma remove_prevFree (hq : q ∈ L j) (hqp : q ≠ p) : (b.listRemove k p).prevFree q =
      if b.prevFree q = p then b.prevFree p else b.prevFree q := by
  have hma := h.bound k p hp
  simp only [listRemove,Nat.not_le.2 hma,if_false,update_of_ne hqp]
  by_cases hn : b.prevFree q = p
  · have hf : b.nextFree p = q := by
      rw [← hn]
      exact linked_next_prev (h.linked j) (h.nodup j) hq (by rw [hn]; exact h.ne_none32 hp)
    rw [if_pos hn,hf,if_pos (h.isLink_of_mem hq),update_self]
  split
  · next hl =>
    have hm := (h.isLink_next hp).1 hl
    have hb := linked_prev_next (h.linked k) hp (h.ne_none32 hm)
    rw [update_of_ne]
    rintro rfl
    exact hn hb
  · rfl

lemma remove_head : (b.listRemove k p).freeLists = update b.freeLists k ((L k).erase p).head? := by
  have hm := h.bound k p hp
  have hlk := h.linked k
  have hh := h.head k
  have hpr := h.isLink_prev hp
  have hn := h.isLink_next hp
  simp only [listRemove,Nat.not_le.2 hm,if_false]
  cases hl : L k with
  | nil => simp [hl] at hp
  | cons a l =>
    simp only [hl] at hp hlk hh hpr hn
    by_cases ha : a = p
    · subst ha
      have hno : b.isLink (b.prevFree a) = false := by simp [hlk.1,isLink]
      rw [hno,hh,hlk.2.1]
      cases l with
      | nil => simp [isLink]
      | cons c l => simp [h.isLink_of_mem (k := k) (show c ∈ L k by simp [hl])]
    · have hpl : p ∈ l := (mem_cons.1 hp).resolve_left (Ne.symm ha)
      rw [if_pos (hpr.2 (linked_prev_mem hlk.2.2 hpl)),erase_cons_tail (by simpa using ha)]
      exact (update_eq_self_iff.2 hh.symm).symm

lemma mem_remove : q ∈ update L k ((L k).erase p) j ↔ q ∈ L j ∧ q ≠ p := by
  by_cases hj : j = k
  · subst hj
    rw [update_self,(h.nodup j).mem_erase_iff,and_comm]
  rw [update_of_ne hj,iff_self_and]
  rintro hq rfl
  exact hj (h.order_unique hq hp)

lemma remove : Threaded (b.listRemove k p) (update L k ((L k).erase p)) := by
  have hma := h.bound k p hp
  have hs : ∀ j, ∀ q, q ∈ update L k ((L k).erase p) j ↔ q ∈ L j ∧ q ≠ p :=
    fun j q => h.mem_remove hp
  have hf : ∀ q, q ≠ p → (b.listRemove k p).flags q = b.flags q :=
    fun q hq => listRemove_flags_of_ne hq
  refine ⟨?_,?_,?_,?_,?_,?_,?_,?_⟩
  · intro j
    by_cases hj : j = k
    · subst hj
      obtain ⟨l1,l2,hno,hl,he⟩ := exists_erase_eq hp
      have hme : ∀ q ∈ l1++l2, q ∈ L j ∧ q ≠ p := by
        intro q hq
        have := (hs j q).1
        rw [update_self,he] at this
        exact this hq
      rw [update_self,he]
      refine linked_unlink (hl ▸ h.linked j) (hl ▸ h.nodup j) (h.ne_none32 hp).symm
        (h.ne_none32 hp).symm (fun q hq => ?_) (fun q hq => ?_)
      · exact h.remove_nextFree hp (hme q hq).1 (hme q hq).2
      · exact h.remove_prevFree hp (hme q hq).1 (hme q hq).2
    · rw [update_of_ne hj]
      have hqp : ∀ q ∈ L j, q ≠ p := by
        rintro q hq rfl
        exact hj (h.order_unique hq hp)
      refine linked_congr (fun q hq => ?_) (fun q hq => ?_) (h.linked j)
      · rw [h.remove_nextFree hp hq (hqp q hq),if_neg]
        intro hn
        have := linked_next_mem (h.linked j) hq (by rw [hn]; exact h.ne_none32 hp)
        exact hqp _ this hn
      · rw [h.remove_prevFree hp hq (hqp q hq),if_neg]
        intro hn
        rcases mem_cons.1 (linked_prev_mem (h.linked j) hq) with hm | hm
        · exact h.ne_none32 hp (hn.symm.trans hm)
        · exact hqp _ hm hn
  · intro j
    rw [h.remove_head hp]
    by_cases hj : j = k
    · subst hj; simp
    · simp [hj,h.head j]
  · intro j
    by_cases hj : j = k
    · subst hj
      simpa using (h.nodup j).erase p
    · simpa [hj] using h.nodup j
  · intro j q hq
    rw [listRemove_maxPfn]
    exact h.bound j q ((hs j q).1 hq).1
  · intro j q hq
    obtain ⟨hq,hqp⟩ := (hs j q).1 hq
    rw [isFree_congr (hf q hqp),order_congr (hf q hqp)]
    exact h.flag j q hq
  · intro q hq hqf
    rw [listRemove_maxPfn] at hq
    by_cases hqp : q = p
    · subst hqp
      simp [listRemove_isFree_self hma] at hqf
    rw [isFree_congr (hf q hqp)] at hqf
    rw [order_congr (hf q hqp),hs]
    exact ⟨h.listed q hq hqf,hqp⟩
  · intro j hj
    have hk := h.order_lt hp
    rw [update_of_ne (by omega)]
    exact h.top j hj
  · rw [listRemove_maxPfn]
    exact h.small

end
end Threaded
end BuddyAllocator
end Vanta.Memory
