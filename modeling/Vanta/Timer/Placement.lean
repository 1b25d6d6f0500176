import Mathlib.Algebra.BigOperators.Group.Finset.Piecewise
import Mathlib.Tactic.Ring
import Vanta.Timer.Wheel

namespace Vanta.Timer
open TimerWheel Function Multiset

@[irreducible] def Slots.total (n : Nat) (l : Slots) : Multiset TimerEntry :=
  ∑ s ∈ Finset.range n, (l s : Multiset TimerEntry)

variable {n s b c : Nat} {e : TimerEntry} {l : Slots}

lemma Slots.total_update (hs : s < n) (l : Slots) (x : List TimerEntry) :
    Slots.total n (update l s x)+l s = l.total n+x := by
  have hm : s ∈ Finset.range n := Finset.mem_range.2 hs
  have hu : (fun i => (update l s x i : Multiset TimerEntry)) =
      update (fun i => (l i : Multiset TimerEntry)) s (x : Multiset TimerEntry) := by
    funext i
    by_cases hi : i = s
    · subst hi; simp
    · simp [update_of_ne hi]
  unfold Slots.total
  rw [hu,Finset.sum_update_of_mem hm,← Finset.add_sum_erase _ _ hm,Finset.sdiff_singleton_eq_erase]
  ac_rfl

lemma Slots.total_push (hs : s < n) (l : Slots) (e : TimerEntry) : (l.push s e).total n = e ::ₘ l.total n := by
  have h := total_update hs l (l s++[e])
  rw [← coe_add,← add_assoc,add_right_comm] at h
  have h := add_right_cancel h
  rw [Slots.push,h,coe_singleton,← singleton_add,add_comm]

lemma Slots.total_clear (hs : s < n) (l : Slots) : Slots.total n (update l s [])+l s = l.total n := by
  simpa using total_update hs l []

lemma Slots.mem_total : e ∈ l.total n ↔ ∃ s < n, e ∈ l s := by
  simp [Slots.total,mem_sum]

variable (w : TimerWheel)

def TimerWheel.pending : Multiset TimerEntry :=
  w.level0.total lvl0Size+w.level1.total lvl1Size+w.level2.total lvl2Size +
    w.level3.total lvl3Size+w.overflow

@[simp] lemma reinsert_currentTick (e : TimerEntry) : (w.reinsert e).currentTick = w.currentTick := by
  simp only [reinsert]; split_ifs <;> rfl

@[simp] lemma reinsertAll_currentTick (es : List TimerEntry) : (w.reinsertAll es).currentTick = w.currentTick := by
  induction es generalizing w with
  | nil => rfl
  | cons e es ih =>
    exact (ih _).trans (reinsert_currentTick w e)

lemma pending_reinsert (e : TimerEntry) : (w.reinsert e).pending = e ::ₘ w.pending := by
  simp only [reinsert]
  split_ifs
  · have hs : e.targetTick%lvl0Size < lvl0Size := Nat.mod_lt _ (by decide)
    simp only [pending,Slots.total_push hs,cons_add]
  · have hs : e.targetTick / 2^lvl1Shift%lvl1Size < lvl1Size := Nat.mod_lt _ (by decide)
    simp only [pending,Slots.total_push hs,cons_add,add_cons]
  · have hs : e.targetTick / 2^lvl2Shift%lvl2Size < lvl2Size := Nat.mod_lt _ (by decide)
    simp only [pending,Slots.total_push hs,cons_add,add_cons]
  · have hs : e.targetTick / 2^lvl3Shift%lvl3Size < lvl3Size := Nat.mod_lt _ (by decide)
    simp only [pending,Slots.total_push hs,cons_add,add_cons]
  · simp only [pending,← coe_add,coe_singleton,← add_assoc]
    rw [add_comm,singleton_add]

lemma pending_reinsertAll (es : List TimerEntry) : (w.reinsertAll es).pending = w.pending+es := by
  induction es generalizing w with
  | nil => simp [reinsertAll]
  | cons e es ih =>
    have hc : w.reinsertAll (e::es) = (w.reinsert e).reinsertAll es := rfl
    rw [hc,ih,pending_reinsert,← cons_coe,add_cons,cons_add]

lemma quotient_window {t : Nat} (hb : 0 < b) (h1 : b ≤ t-c) (h2 : t-c < 64*b) : c/b+1 ≤ t/b ∧ t/b ≤ c/b+64 := by
  constructor
  · rw [← Nat.add_div_right c hb]
    exact Nat.div_le_div_right (by omega)
  · rw [← Nat.add_mul_div_left c 64 hb,Nat.mul_comm b 64]
    exact Nat.div_le_div_right (by omega)

lemma quotient_window_aligned {t : Nat} (hb : 0 < b) (hc : c%b = 0) (h2 : t-c < 64*b) : t/b ≤ c/b+63 := by
  have hd := Nat.div_add_mod c b
  have hl : t < (c/b+64)*b := by
    rw [Nat.add_mul,Nat.mul_comm (c/b) b]; omega
  have := (Nat.div_lt_iff_lt_mul hb).2 hl
  omega

/-- A level with slots of `b` ticks: with `lo = 0` the current slot still waits for its cascade. -/
def Level (b lo c : Nat) (l : Slots) : Prop :=
  ∀ s, ∀ e ∈ l s, e.targetTick/b%64 = s ∧ c/b+lo ≤ e.targetTick/b ∧ e.targetTick/b ≤ c/b+lo+63

lemma Level.push {lo : Nat} (hl : Level b lo c l) (h : c/b+lo ≤ e.targetTick/b ∧ e.targetTick/b ≤ c/b+lo+63) :
    Level b lo c (l.push (e.targetTick/b%64) e) := by
  intro s x hx
  by_cases hs : s = e.targetTick/b%64
  · subst hs
    simp only [Slots.push,update_self,List.mem_append,List.mem_singleton] at hx
    rcases hx with hx | rfl
    · exact hl _ x hx
    · exact ⟨rfl,h⟩
  · rw [Slots.push,update_of_ne hs] at hx
    exact hl s x hx

/-- One tick later, the rotation of a level moves exactly when its slot boundary is
crossed; until the cascade the crossed slot is still on the level. -/
lemma Level.tick (hl : Level b 1 c l) : Level b (if (c+1)%b = 0 then 0 else 1) (c+1) l := by
  intro s e he
  obtain ⟨hs,h1,h2⟩ := hl s e he
  have hsu := Nat.succ_div (a := c) (b := b)
  refine ⟨hs,?_⟩
  split_ifs with hz
  · have hd : b ∣ c+1 := Nat.dvd_of_mod_eq_zero hz
    rw [if_pos hd] at hsu
    omega
  · have hd : ¬b ∣ c+1 := fun h => hz (Nat.mod_eq_zero_of_dvd h)
    rw [if_neg hd] at hsu
    omega

lemma Level.clear (hl : Level b 0 c l) : Level b 1 c (update l (c/b%64) []) := by
  intro s e he
  by_cases hs : s = c/b%64
  · subst hs; simp at he
  rw [update_of_ne hs] at he
  obtain ⟨h0,h1,h2⟩ := hl s e he
  omega

lemma Level.current (hl : Level b 0 c l) (he : e ∈ l (c/b%64)) : e.targetTick/b = c/b := by
  obtain ⟨h0,h1,h2⟩ := hl _ e he
  omega

end Vanta.Timer
