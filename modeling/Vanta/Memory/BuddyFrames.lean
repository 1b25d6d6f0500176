import Vanta.Memory.BuddyRun

namespace Vanta.Memory
open Library Function
namespace BuddyAllocator
variable {b : BuddyAllocator} {L : Nat → List Nat} {area : Set Nat} {p k : Nat}

lemma splitDown_frame (order n : Nat) :
    (b.splitDown p order n).maxPfn = b.maxPfn ∧ (b.splitDown p order n).freeFrames = b.freeFrames := by
  induction n generalizing b with
  | zero => exact ⟨rfl,rfl⟩
  | succ n ih =>
    obtain ⟨hm,hf⟩ := ih (b := b.listPush (order+n) (p+2^(order+n)))
    exact ⟨hm.trans (listPush_maxPfn ..),hf.trans (listPush_freeFrames ..)⟩

lemma mergeUp_frame (fuel : Nat) :
    (b.mergeUp fuel p k).maxPfn = b.maxPfn ∧ (b.mergeUp fuel p k).freeFrames = b.freeFrames := by
  induction fuel generalizing b p k with
  | zero => exact ⟨listPush_maxPfn ..,listPush_freeFrames ..⟩
  | succ fuel ih =>
    rw [mergeUp]
    dsimp only
    split_ifs
    · exact ⟨listPush_maxPfn ..,listPush_freeFrames ..⟩
    · obtain ⟨hm,hf⟩ := ih (b := b.listRemove k (p ^^^ 2^k)) (p := min p (p ^^^ 2^k)) (k := k+1)
      exact ⟨hm.trans (listRemove_maxPfn ..),hf.trans (listRemove_freeFrames ..)⟩
    · exact ⟨listPush_maxPfn ..,listPush_freeFrames ..⟩
    · exact ⟨listPush_maxPfn ..,listPush_freeFrames ..⟩

lemma allocOrder_frame {c : BuddyAllocator} {order : Nat} (h : b.allocOrder order = (c,some p)) :
    c.maxPfn = b.maxPfn ∧ c.freeFrames = b.freeFrames-2^order := by
  unfold allocOrder listPop at h
  dsimp only at h
  split_ifs at h
  · simp at h
  · simp at h
  cases hh : b.freeLists (b.firstOrder (maxOrder-order) order) with
  | none => simp [hh] at h
  | some head =>
    simp only [hh] at h
    obtain ⟨rfl,-⟩ := Prod.mk.inj h
    obtain ⟨hm,hf⟩ := splitDown_frame (b := b.listRemove (b.firstOrder (maxOrder-order) order) head)
      (p := head) order (b.firstOrder (maxOrder-order) order-order)
    exact ⟨hm.trans (listRemove_maxPfn ..),by rw [hf,listRemove_freeFrames]⟩

section
variable (h : Inv b area L [] 0)
include h

lemma listed_of_free (hf : 0 < b.freeFrames) : ∃ k < maxOrder, b.freeLists k ≠ none := by
  by_contra hn
  push Not at hn
  have he : ∀ k ∈ Finset.range maxOrder, (L k).length*2^k = 0 := by
    intro k hk
    have := hn k (Finset.mem_range.1 hk)
    rw [h.threaded.head,List.head?_eq_none_iff] at this
    simp [this]
  have := h.count
  rw [listedFrames,Finset.sum_eq_zero he] at this
  omega

lemma alloc_spec : (b.alloc = (b,none) ∧ b.freeFrames = 0) ∨
      ∃ c p L', b.alloc = (c,some (p*pageSize)) ∧ Inv c area L' [] 0 ∧ b.refcounts p = 0 ∧
        c.refcounts = update b.refcounts p 1 ∧ c.maxPfn = b.maxPfn ∧ c.freeFrames = b.freeFrames-1 := by
  rcases allocOrder_spec h 0 with hn | ⟨c,p,L',hs,hi,-,hz,hc,-⟩
  · refine .inl ⟨by simp [alloc,hn],?_⟩
    by_contra hp
    obtain ⟨k,hk,hl⟩ := listed_of_free h (Nat.pos_of_ne_zero hp)
    obtain ⟨-,hs,hsk⟩ := firstOrder_spec (b := b) (maxOrder-0) 0 (le_refl _)
    have hcu : b.firstOrder (maxOrder-0) 0 < maxOrder := by
      by_contra hg
      exact hl (hsk k (Nat.zero_le k) (by omega))
    cases hh : b.freeLists (b.firstOrder (maxOrder-0) 0) with
    | none => exact hs hcu hh
    | some pfn =>
      rw [allocOrder,if_neg (by decide)] at hn
      rw [if_neg (by omega),listPop,hh] at hn
      simp at hn
  · obtain ⟨hm,hf⟩ := allocOrder_frame hs
    exact .inr ⟨c,p,L',by simp [alloc,hs],hi,hz,hc,hm,hf⟩

lemma free_frame_spec (hz : 0 ∉ area) (hp : 0 < b.refcounts p) :
    ∃ c L', b.free (p*pageSize) = (c,true) ∧ Inv c area L' [] 0 ∧ Freed b c L L' p ∧ b.freeFrames ≤ c.freeFrames := by
  have hb : b.Blocks L [] p (b.order p) := .inl (.inr ⟨hp,rfl⟩)
  have hmax := h.lt_of_blocks hb
  have hn : p ≠ 0 := by
    rintro rfl
    exact hz (h.tiling.inside 0 _ hb 0 (inBlock_head 0 _))
  have hd : p*pageSize/pageSize = p := Nat.mul_div_cancel _ (by decide)
  have ha : ¬(p*pageSize = 0 ∨ p*pageSize%pageSize ≠ 0) := by
    simp [hn,pageSize]
  rcases free_spec h (p*pageSize) with hfa | ⟨c,L',hfre,hi,-,-,hfr⟩
  · rw [free,if_neg ha] at hfa
    rw [hd,if_neg (by omega)] at hfa
    split_ifs at hfa with hma ho
    · simp at hfa
    · simp at hfa
    · omega
  rw [hd] at hfr
  refine ⟨c,L',hfre,hi,hfr,?_⟩
  rw [free,if_neg ha] at hfre
  rw [hd,if_neg (by omega)] at hfre
  split_ifs at hfre with hma ho
  · rw [← (Prod.mk.inj hfre).1]
  · obtain ⟨-,hf⟩ := mergeUp_frame (b := {{b with refcounts := update b.refcounts p 0} with
      freeFrames := b.freeFrames+2^b.order p
      flags := update b.flags p (b.flags p &&& ~~~flagAllocated)})
      (p := p) (k := b.order p) (maxOrder-1-b.order p)
    rw [← (Prod.mk.inj hfre).1]
    exact le_trans (Nat.le_add_right _ _) (le_of_eq hf.symm)
  · omega

end
end BuddyAllocator
end Vanta.Memory
