import Mathlib.Data.Multiset.Filter
import Mathlib.Tactic.Abel
import Vanta.Timer.Placement


namespace Vanta.Timer
open Library TimerWheel List

/-- The rotation of a level starts after the current slot, or at it while the tick
stands on a slot boundary. -/
def Rotation (b lo c : Nat) : Prop := lo = 1 ∨ lo = 0 ∧ c%b = 0

structure Placed (w : TimerWheel) (lo₁ lo₂ lo₃ lo₄ : Nat) : Prop where
  lvl0 : ∀ s, ∀ e ∈ w.level0 s, e.targetTick%256 = s ∧ w.currentTick ≤ e.targetTick ∧ e.targetTick < w.currentTick+256
  lvl1 : Level (2^lvl1Shift) lo₁ w.currentTick w.level1
  lvl2 : Level (2^lvl2Shift) lo₂ w.currentTick w.level2
  lvl3 : Level (2^lvl3Shift) lo₃ w.currentTick w.level3
  far : ∀ e ∈ w.overflow,w.currentTick/2^lvl3Shift+lo₄+63 ≤ e.targetTick/2^lvl3Shift

lemma rotation_window {b lo c t : Nat} (hb : 0 < b) (hr : Rotation b lo c)
    (h1 : b ≤ t-c) (h2 : t-c < 64*b) : c/b+lo ≤ t/b ∧ t/b ≤ c/b+lo+63 := by
  have h := quotient_window hb h1 h2
  rcases hr with rfl | ⟨rfl,hc⟩
  · omega
  · have := quotient_window_aligned hb hc h2
    omega

variable {lo₂ lo₃ lo₄ : Nat} {w : TimerWheel}

lemma reinsert_placed {lo1 : Nat} (hp : Placed w lo1 lo₂ lo₃ lo₄) (h1 : Rotation (2^lvl1Shift) lo1 w.currentTick)
    (h2 : Rotation (2^lvl2Shift) lo₂ w.currentTick) (h3 : Rotation (2^lvl3Shift) lo₃ w.currentTick) (h4 : lo₄ ≤ 1)
    {e : TimerEntry} (he : w.currentTick ≤ e.targetTick) : Placed (w.reinsert e) lo1 lo₂ lo₃ lo₄ := by
  obtain ⟨p0,p1,p2,p3,p4⟩ := hp
  simp only [reinsert]
  split_ifs with d0 d1 d2 d3
  · refine ⟨?_,p1,p2,p3,p4⟩
    intro s x hx
    by_cases hs : s = e.targetTick%lvl0Size
    · subst hs
      simp only [Slots.push,Function.update_self,mem_append,mem_singleton] at hx
      rcases hx with hx | rfl
      · exact p0 _ x hx
      simp only [lvl0Span,lvl1Shift] at d0
      refine ⟨rfl,he,?_⟩
      show x.targetTick < w.currentTick+256
      omega
    · simp only [Slots.push,Function.update_of_ne hs] at hx
      exact p0 s x hx
  · refine ⟨p0,p1.push (rotation_window (by decide) h1 ?_ ?_),p2,p3,p4⟩
    · simpa [lvl0Span] using d0
    · simpa [lvl1Span,lvl2Shift,lvl1Shift] using d1
  · refine ⟨p0,p1,p2.push (rotation_window (by decide) h2 ?_ ?_),p3,p4⟩
    · simpa [lvl1Span] using d1
    · simpa [lvl2Span,lvl3Shift,lvl2Shift] using d2
  · refine ⟨p0,p1,p2,p3.push (rotation_window (by decide) h3 ?_ ?_),p4⟩
    · simpa [lvl2Span] using d2
    · simpa [lvl3Span,lvl3Shift] using d3
  refine ⟨p0,p1,p2,p3,?_⟩
  intro x hx
  rcases mem_append.1 hx with hx | hx
  · exact p4 x hx
  obtain rfl := mem_singleton.1 hx
  simp only [lvl3Span,lvl3Shift] at d3 ⊢
  omega

lemma reinsertAll_placed {lo1 : Nat} (es : List TimerEntry) (hp : Placed w lo1 lo₂ lo₃ lo₄)
    (h1 : Rotation (2^lvl1Shift) lo1 w.currentTick) (h2 : Rotation (2^lvl2Shift) lo₂ w.currentTick)
    (h3 : Rotation (2^lvl3Shift) lo₃ w.currentTick) (h4 : lo₄ ≤ 1) (he : ∀ e ∈ es, w.currentTick ≤ e.targetTick) :
    Placed (w.reinsertAll es) lo1 lo₂ lo₃ lo₄ := by
  induction es generalizing w with
  | nil => exact hp
  | cons e es ih =>
    have hn := reinsert_placed hp h1 h2 h3 h4 (he e mem_cons_self)
    refine ih hn ?_ ?_ ?_ ?_
    · simpa using h1
    · simpa using h2
    · simpa using h3
    · intro x hx
      simpa using he x (mem_cons_of_mem e hx)

lemma target_ge_of_quotient {b c t : Nat} (hc : c%b = 0) (h : t/b = c/b) : c ≤ t := by
  have h1 := Nat.div_add_mod c b
  have h2 := Nat.div_mul_le_self t b
  rw [h,Nat.mul_comm] at h2
  omega

lemma cascade1_placed (hp : Placed w 0 lo₂ lo₃ lo₄) (hc : w.currentTick%2^lvl1Shift = 0)
    (h2 : Rotation (2^lvl2Shift) lo₂ w.currentTick) (h3 : Rotation (2^lvl3Shift) lo₃ w.currentTick) (h4 : lo₄ ≤ 1) :
    Placed w.cascade1 1 lo₂ lo₃ lo₄ := by
  obtain ⟨p0,p1,p2,p3,p4⟩ := hp
  refine reinsertAll_placed _ ⟨p0,p1.clear,p2,p3,p4⟩ (.inl rfl) h2 h3 h4 ?_
  intro e he
  exact target_ge_of_quotient hc (p1.current he)

lemma cascade2_placed (hp : Placed w 1 0 lo₃ lo₄) (hc : w.currentTick%2^lvl2Shift = 0)
    (h3 : Rotation (2^lvl3Shift) lo₃ w.currentTick) (h4 : lo₄ ≤ 1) : Placed w.cascade2 1 1 lo₃ lo₄ := by
  obtain ⟨p0,p1,p2,p3,p4⟩ := hp
  refine reinsertAll_placed _ ⟨p0,p1,p2.clear,p3,p4⟩ (.inl rfl) (.inl rfl) h3 h4 ?_
  intro e he
  exact target_ge_of_quotient hc (p2.current he)

lemma cascade3_placed (hp : Placed w 1 1 0 lo₄) (hc : w.currentTick%2^lvl3Shift = 0) (h4 : lo₄ ≤ 1) :
    Placed w.cascade3 1 1 1 lo₄ := by
  obtain ⟨p0,p1,p2,p3,p4⟩ := hp
  refine reinsertAll_placed _ ⟨p0,p1,p2,p3.clear,p4⟩
    (.inl rfl) (.inl rfl) (.inl rfl) h4 ?_
  intro e he
  exact target_ge_of_quotient hc (p3.current he)

lemma pending_cascade1 (w : TimerWheel) : w.cascade1.pending = w.pending := by
  have hs : w.currentTick/2^lvl1Shift%lvl1Size < lvl1Size := Nat.mod_lt _ (by decide)
  rw [cascade1,pending_reinsertAll]
  simp only [pending]
  rw [← Slots.total_clear hs w.level1]
  abel

lemma pending_cascade2 (w : TimerWheel) : w.cascade2.pending = w.pending := by
  have hs : w.currentTick/2^lvl2Shift%lvl2Size < lvl2Size := Nat.mod_lt _ (by decide)
  rw [cascade2,pending_reinsertAll]
  simp only [pending]
  rw [← Slots.total_clear hs w.level2]
  abel

lemma pending_cascade3 (w : TimerWheel) : w.cascade3.pending = w.pending := by
  have hs : w.currentTick/2^lvl3Shift%lvl3Size < lvl3Size := Nat.mod_lt _ (by decide)
  rw [cascade3,pending_reinsertAll]
  simp only [pending]
  rw [← Slots.total_clear hs w.level3]
  abel

lemma promote_placed (fuel : Nat) (i : Nat) (hp : Placed w 1 1 1 0) (hc : w.currentTick%2^lvl3Shift = 0)
    (hse : ∀ e ∈ w.overflow.take i, lvl3Span ≤ e.targetTick-w.currentTick) (hf : w.overflow.length ≤ i+fuel) :
    Placed (w.promote i fuel) 1 1 1 1 := by
  -- at the end of the list every entry left in it was seen
  have hdo : ∀ {w : TimerWheel}, Placed w 1 1 1 0 → w.currentTick%2^lvl3Shift = 0 →
      (∀ e ∈ w.overflow, lvl3Span ≤ e.targetTick-w.currentTick) → Placed w 1 1 1 1 := by
    intro w hp hc ha
    refine ⟨hp.lvl0,hp.lvl1,hp.lvl2,hp.lvl3,?_⟩
    intro e he
    have h := ha e he
    simp only [lvl3Span,lvl3Shift] at h hc ⊢
    omega
  induction fuel generalizing w i with
  | zero =>
    rw [take_of_length_le (by omega)] at hse
    exact hdo hp hc hse
  | succ fuel ih =>
    simp only [promote]
    cases hi : w.overflow[i]? with
    | none =>
      have hl : w.overflow.length ≤ i := List.getElem?_eq_none_iff.1 hi
      rw [take_of_length_le hl] at hse
      exact hdo hp hc hse
    | some e =>
      have hme : e ∈ w.overflow := mem_of_getElem? hi
      have ht : w.currentTick ≤ e.targetTick := by
        have := hp.far e hme
        simp only [lvl3Shift] at this hc
        omega
      by_cases hd : e.targetTick-w.currentTick < lvl3Span
      · simp only [hd,if_true]
        have hsu : ∀ x ∈ swapRemove w.overflow i, x ∈ w.overflow := by
          intro x hx
          have hm : x ∈ (w.overflow : Multiset TimerEntry) := by
            rw [← coe_swapRemove hi]
            exact Multiset.mem_cons_of_mem hx
          exact hm
        have hs := swapRemove_length hi
        have ho : ({w with overflow := swapRemove w.overflow i}.reinsert e).overflow =
            swapRemove w.overflow i := by
          simp only [reinsert]
          split_ifs <;> rfl
        have hr : Placed {w with overflow := swapRemove w.overflow i} 1 1 1 0 :=
          ⟨hp.lvl0,hp.lvl1,hp.lvl2,hp.lvl3,fun x hx => hp.far x (hsu x hx)⟩
        apply ih
        · exact reinsert_placed hr (.inl rfl) (.inl rfl) (.inl rfl) (by decide) ht
        · simpa using hc
        · rw [ho,swapRemove_take hi]
          simpa using hse
        · rw [ho]; omega
      · simp only [hd,if_false]
        apply ih (i+1) hp hc
        · intro x hx
          rw [take_add_one,hi] at hx
          rcases mem_append.1 hx with hx | hx
          · exact hse x hx
          · simp only [Option.toList_some,mem_singleton] at hx
            subst hx; omega
        · omega

lemma promote_pending (fuel : Nat) (w : TimerWheel) (i : Nat) : (w.promote i fuel).pending = w.pending ∧
      (w.promote i fuel).currentTick = w.currentTick := by
  induction fuel generalizing w i with
  | zero => exact ⟨rfl,rfl⟩
  | succ fuel ih =>
    simp only [promote]
    cases hi : w.overflow[i]? with
    | none => exact ⟨rfl,rfl⟩
    | some e =>
      by_cases hd : e.targetTick-w.currentTick < lvl3Span
      · simp only [hd,if_true]
        obtain ⟨h1,h2⟩ := ih ({w with overflow := swapRemove w.overflow i}.reinsert e) i
        rw [h1,h2,pending_reinsert,reinsert_currentTick]
        refine ⟨?_,rfl⟩
        simp only [pending]
        rw [← coe_swapRemove hi,Multiset.add_cons]
      · simp only [hd,if_false]
        exact ih w (i+1)

lemma cascade_currentTick (w : TimerWheel) : w.cascade.currentTick = w.currentTick := by
  simp only [cascade]
  split_ifs <;> simp [promote_pending,cascade1,cascade2,cascade3]

lemma cascade_pending (w : TimerWheel) : w.cascade.pending = w.pending := by
  simp only [cascade]
  split_ifs <;>
    simp [promote_pending,pending_cascade1,pending_cascade2,pending_cascade3]

/-- Where the rotation of a level of width `b` starts right after a tick to `c`. -/
def startOf (b c : Nat) : Nat := if c%b = 0 then 0 else 1

lemma rotation_startOf (b c : Nat) : Rotation b (startOf b c) c := by
  unfold startOf
  split_ifs with h
  · exact .inr ⟨rfl,h⟩
  · exact .inl rfl

lemma startOf_le (b c : Nat) : startOf b c ≤ 1 := by
  unfold startOf; split_ifs <;> decide

/-- The cascades in the order of the source: a level is emptied before the next one refills it, up to the overflow list.
-/
lemma cascade_placed (hp : Placed w (startOf (2^lvl1Shift) w.currentTick) (startOf (2^lvl2Shift) w.currentTick)
      (startOf (2^lvl3Shift) w.currentTick) (startOf (2^lvl3Shift) w.currentTick)) : Placed w.cascade 1 1 1 1 := by
  have r2 := rotation_startOf (2^lvl2Shift) w.currentTick
  have r3 := rotation_startOf (2^lvl3Shift) w.currentTick
  have r4 := startOf_le (2^lvl3Shift) w.currentTick
  -- after the level 1 cascade
  have h1 : ∃ w1, w1 = (if w.currentTick%2^lvl1Shift = 0 then w.cascade1 else w) ∧
      w1.currentTick = w.currentTick ∧ Placed w1 1 (startOf (2^lvl2Shift) w.currentTick)
        (startOf (2^lvl3Shift) w.currentTick) (startOf (2^lvl3Shift) w.currentTick) := by
    refine ⟨_,rfl,?_,?_⟩
    · split_ifs <;> simp [cascade1]
    split_ifs with hz
    · rw [startOf,if_pos hz] at hp
      exact cascade1_placed hp hz r2 r3 r4
    · rw [startOf,if_neg hz] at hp
      exact hp
  obtain ⟨w1,e1,t1,p1⟩ := h1
  -- after the level 2 cascade
  have h2 : ∃ w2, w2 = (if w.currentTick%2^lvl2Shift = 0 then w1.cascade2 else w1) ∧
      w2.currentTick = w.currentTick ∧ Placed w2 1 1
        (startOf (2^lvl3Shift) w.currentTick) (startOf (2^lvl3Shift) w.currentTick) := by
    refine ⟨_,rfl,?_,?_⟩
    · split_ifs <;> simp [cascade2,t1]
    split_ifs with hz
    · rw [startOf,if_pos hz] at p1
      exact cascade2_placed p1 (by rw [t1]; exact hz) (by rw [t1]; exact r3) r4
    · rw [startOf,if_neg hz] at p1
      exact p1
  obtain ⟨w2,e2,t2,p2⟩ := h2
  have hc : w.cascade = if w.currentTick%2^lvl3Shift = 0 then
      w2.cascade3.promote 0 w2.cascade3.overflow.length else w2 := by
    simp only [cascade,← e1,← e2]
  rw [hc]
  split_ifs with hz
  · rw [startOf,if_pos hz] at p2
    have hz2 : w2.currentTick%2^lvl3Shift = 0 := by rw [t2]; exact hz
    have p3 := cascade3_placed p2 hz2 (by decide)
    exact promote_placed _ 0 p3 (by simpa [cascade3] using hz2) (by simp) (by simp)
  · rw [startOf,if_neg hz] at p2
    exact p2

end Vanta.Timer
