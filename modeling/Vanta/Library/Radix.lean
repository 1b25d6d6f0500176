import Mathlib.Data.List.Infix

/-! Trees of tables in a heap: `T t i` is entry `i` of table `t`, `next` the table it leads to. -/

namespace Vanta.Library
open List
variable {E : Type} {T T' : Nat → Nat → E} {next : E → Option Nat} {root t i j : Nat} {path : List Nat}

/-- The table that the indices `path` lead to from `root`. -/
def descend (T : Nat → Nat → E) (next : E → Option Nat) : Nat → List Nat → Option Nat
  | root, [] => some root
  | root, i::path => (next (T root i)).bind (fun t => descend T next t path)

@[simp] lemma descend_nil : descend T next root [] = some root := rfl

lemma descend_append (path rest : List Nat) :
    descend T next root (path++rest) = (descend T next root path).bind (fun t => descend T next t rest) := by
  induction path generalizing root with
  | nil => rfl
  | cons i path ih =>
    simp only [cons_append,descend]
    cases next (T root i) with
    | none => rfl
    | some t => exact ih

lemma descend_concat (T : Nat → Nat → E) (next : E → Option Nat) (root : Nat) (path : List Nat) (i : Nat) :
    descend T next root (path++[i]) = (descend T next root path).bind (fun t => next (T t i)) := by
  rw [descend_append]
  congr 1
  funext t
  simp [descend]

/-- A path depends only on the entries it passes. -/
lemma descend_congr (h : ∀ q j t, q++[j] <+: path → descend T next root q = some t →
    next (T' t j) = next (T t j)) : descend T' next root path = descend T next root path := by
  induction path using reverseRecOn with
  | nil => rfl
  | append_singleton path i ih =>
    have hp : path <+: path++[i] := prefix_append path [i]
    rw [descend_concat,descend_concat,ih (fun q j t hq => h q j t (hq.trans hp))]
    cases hd : descend T next root path with
    | none => rfl
    | some t => exact h path i t (prefix_refl _) hd

/-- An empty table `f` is linked where an entry led nowhere: this adds the paths that end at `f`. -/
lemma descend_link {f x : Nat} (hol : next (T t i) = none) (hn : next (T' t i) = some f)
    (he : ∀ j, next (T' f j) = none) (ho : ∀ y j, (y,j) ≠ (t,i) → next (T' y j) = next (T y j)) :
    descend T' next root path = some x ↔
      descend T next root path = some x ∨ (x = f ∧ ∃ q, path = q++[i] ∧ descend T next root q = some t) := by
  induction path using reverseRecOn generalizing x with
  | nil => simp
  | append_singleton p j ih =>
    simp only [descend_concat,Option.bind_eq_some_iff]
    constructor
    · rintro ⟨y,hy,hx⟩
      rcases ih.1 hy with hy | ⟨rfl,-⟩
      · by_cases hyj : (y,j) = (t,i)
        · cases hyj
          rw [hn] at hx
          exact .inr ⟨(Option.some.inj hx).symm,p,rfl,hy⟩
        · exact .inl ⟨y,hy,by rwa [ho y j hyj] at hx⟩
      · rw [he] at hx
        cases hx
    · rintro (⟨y,hy,hx⟩ | ⟨rfl,q,hq,ht⟩)
      · refine ⟨y,ih.2 (.inl hy),?_⟩
        rw [ho y j ?_]
        · exact hx
        rintro hyj
        cases hyj
        rw [hol] at hx
        cases hx
      · obtain ⟨rfl,hj⟩ := append_inj' hq rfl
        obtain rfl := singleton_inj.1 hj
        exact ⟨t,ih.2 (.inl ht),hn⟩

end Vanta.Library
