import Mathlib.Data.List.Count
import Mathlib.Logic.Function.Basic

/-! Reference counts that cover the users of a resource and the references in hand. -/

namespace Vanta.Library
open Function List
variable {U F : Type} [DecidableEq F]

/-- Every resource is counted at least once for each user that holds it and each reference in hand. -/
def Counted (holds : U → F → Prop) (count : F → Nat) (hand : List F) : Prop :=
  ∀ f, ∃ users : List U, (∀ u, holds u f → u ∈ users) ∧ users.length+hand.count f ≤ count f

namespace Counted
variable {holds holds' : U → F → Prop} {count : F → Nat} {hand : List F} {u v : U} {f : F}
section
variable (h : Counted holds count hand)
include h

lemma pos (hu : holds u f) : 0 < count f := by
  obtain ⟨users,hm,hl⟩ := h f
  have := length_pos_of_mem (hm u hu)
  omega

lemma hand_pos (hf : f ∈ hand) : 0 < count f := by
  obtain ⟨users,-,hl⟩ := h f
  have := count_pos_iff.2 hf
  omega

/-- A resource counted once has one user. -/
lemma unique (hc : count f ≤ 1) (hu : holds u f) (hv : holds v f) : u = v := by
  obtain ⟨users,hm,hle⟩ := h f
  have hl : users.length ≤ 1 := by omega
  cases users with
  | nil => exact absurd (hm u hu) not_mem_nil
  | cons w rest =>
    have hr : rest = [] := length_eq_zero_iff.1 (by simp only [length_cons] at hl; omega)
    subst hr
    rw [mem_singleton.1 (hm u hu),mem_singleton.1 (hm v hv)]

/-- A resource counted once and in hand has no user. -/
lemma unheld (hc : count f ≤ 1) (hf : f ∈ hand) : ¬holds u f := by
  intro hu
  obtain ⟨users,hm,hl⟩ := h f
  have := length_pos_of_mem (hm u hu)
  have := count_pos_iff.2 hf
  omega

lemma unheld_of_zero (hc : count f = 0) : ¬holds u f := by
  intro hu
  have := h.pos hu
  omega

/-- Fewer users, fewer references in hand or higher counts. -/
lemma mono {count' : F → Nat} {ha' : List F} (hh : ∀ u f, holds' u f → holds u f) (hc : ∀ f, count f ≤ count' f)
    (hha : ∀ f, ha'.count f ≤ hand.count f) : Counted holds' count' ha' := by
  intro f
  obtain ⟨users,hm,hl⟩ := h f
  have := hc f
  have := hha f
  exact ⟨users,fun u hu => hm u (hh u f hu),by omega⟩

lemma inc (f : F) : Counted holds (update count f (count f+1)) (f::hand) := by
  intro g
  obtain ⟨users,hm,hl⟩ := h g
  refine ⟨users,hm,?_⟩
  by_cases hg : g = f
  · subst hg
    rw [update_self,count_cons_self]
    omega
  · rw [update_of_ne hg,count_cons_of_ne (Ne.symm hg)]
    exact hl

end

lemma dec (h : Counted holds count (f::hand)) : Counted holds (update count f (count f-1)) hand := by
  intro g
  obtain ⟨users,hm,hl⟩ := h g
  refine ⟨users,hm,?_⟩
  by_cases hg : g = f
  · subst hg
    rw [count_cons_self] at hl
    rw [update_self]
    omega
  · rw [count_cons_of_ne (Ne.symm hg)] at hl
    rw [update_of_ne hg]
    exact hl

/-- The user `u` takes a reference from the hand. -/
lemma put (h : Counted holds count (f::hand)) (ho : ∀ v g, v ≠ u → holds' v g → holds v g)
    (hu : ∀ g, holds' u g → g = f) : Counted holds' count hand := by
  intro g
  obtain ⟨users,hm,hl⟩ := h g
  by_cases hg : g = f
  · subst hg
    rw [count_cons_self] at hl
    refine ⟨u::users,fun v hv => ?_,by simp only [length_cons]; omega⟩
    by_cases hvu : v = u
    · simp [hvu]
    · exact mem_cons_of_mem _ (hm v (ho v g hvu hv))
  · rw [count_cons_of_ne (Ne.symm hg)] at hl
    refine ⟨users,fun v hv => hm v (ho v g ?_ hv),hl⟩
    rintro rfl
    exact hg (hu g hv)

/-- The user `u` gives its reference back into the hand. -/
lemma lift (h : Counted holds count hand) (hf : holds u f)
    (ho : ∀ v g, holds' v g → holds v g) (hu : ¬holds' u f) : Counted holds' count (f::hand) := by
  classical
  intro g
  obtain ⟨users,hm,hl⟩ := h g
  by_cases hg : g = f
  · subst hg
    have hm' := hm u hf
    refine ⟨users.erase u,fun v hv => ?_,?_⟩
    · have hvu : v ≠ u := by
        rintro rfl
        exact hu hv
      exact (mem_erase_of_ne hvu).2 (hm v (ho v g hv))
    · have := length_pos_of_mem hm'
      rw [length_erase_of_mem hm',count_cons_self]
      omega
  · rw [count_cons_of_ne (Ne.symm hg)]
    exact ⟨users,fun v hv => hm v (ho v g hv),hl⟩

end Counted
end Vanta.Library
