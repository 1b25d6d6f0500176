import Mathlib.Algebra.Order.Group.Multiset

namespace Vanta.Library
open List Multiset

/-- Remove index `i`; the last element takes the hole. -/
def swapRemove {α : Type} (l : List α) (i : Nat) : List α :=
  match l.getLast? with
  | none => []
  | some z => (l.set i z).dropLast

variable {α : Type} {e : α} {i : Nat} {l : List α}

lemma swapRemove_concat (l : List α) (z : α) (i : Nat) : swapRemove (l++[z]) i = l.set i z := by
  simp only [swapRemove,getLast?_append,getLast?_singleton,Option.some_or]
  by_cases hi : i < l.length
  · rw [set_append_left _ _ hi]; simp
  rw [set_append_right _ _ (by omega),set_eq_of_length_le (by omega : l.length ≤ i)]
  cases hk : i-l.length with
  | zero | succ k => simp

lemma coe_set_cons (l : List α) (i : Nat) (e z : α) (h : l[i]? = some e) :
    (e ::ₘ (l.set i z : Multiset α)) = z ::ₘ (l : Multiset α) := by
  induction l generalizing i with
  | nil => simp at h
  | cons a l ih =>
    cases i with
    | zero =>
      simp only [getElem?_cons_zero,Option.some.injEq] at h
      subst h
      simpa using cons_swap a z l
    | succ i =>
      simp only [set_cons_succ,← cons_coe]
      rw [cons_swap,ih i h,cons_swap]

lemma coe_swapRemove (h : l[i]? = some e) : (e ::ₘ (swapRemove l i : Multiset α)) = l := by
  rcases eq_nil_or_concat' l with rfl | ⟨l,z,rfl⟩
  · simp at h
  rw [swapRemove_concat]
  by_cases hi : i < l.length
  · rw [getElem?_append_left hi] at h
    rw [coe_set_cons l i e z h,← coe_add,coe_singleton,add_comm,singleton_add]
  rw [getElem?_append_right (by omega)] at h
  cases hk : i-l.length with
  | zero =>
    simp only [hk,getElem?_cons_zero,Option.some.injEq] at h
    subst h
    rw [set_eq_of_length_le (by omega : l.length ≤ i),← coe_add,coe_singleton,add_comm,singleton_add]
  | succ k => simp [hk] at h

lemma swapRemove_length (h : l[i]? = some e) : (swapRemove l i).length+1 = l.length := by
  have hc := congrArg Multiset.card (coe_swapRemove h)
  simpa using hc

lemma swapRemove_take (h : l[i]? = some e) : (swapRemove l i).take i = l.take i := by
  rcases eq_nil_or_concat' l with rfl | ⟨l,z,rfl⟩
  · simp at h
  have hi : i ≤ l.length := by
    have := (List.getElem?_eq_some_iff.1 h).1
    simp at this; omega
  rw [swapRemove_concat,take_append_of_le_length hi,take_set_of_le (Nat.le_refl i)]

lemma coe_eraseP {p : α → Bool} (h : l.find? p = some e) : (e ::ₘ (l.eraseP p : Multiset α)) = l := by
  induction l with
  | nil => simp at h
  | cons a l ih =>
    by_cases ha : p a
    · simp only [find?_cons_of_pos ha,Option.some.injEq] at h
      subst h
      simp [eraseP_cons_of_pos ha]
    · simp only [find?_cons_of_neg ha] at h
      rw [eraseP_cons_of_neg ha,← cons_coe,cons_swap,ih h,cons_coe]

end Vanta.Library
