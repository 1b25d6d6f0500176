import Mathlib.Logic.Relation
import Mathlib.Tactic.SplitIfs

/-! Trees given by named links: one path from the root to a node. -/

namespace Vanta.Library
open Relation
variable {ν η : Type}

def Edge (link : ν → η → Option ν) (a b : ν) : Prop := ∃ name, link a name = some b

abbrev Reaches (link : ν → η → Option ν) : ν → ν → Prop := ReflTransGen (Edge link)

/-- A node without links reaches only itself. -/
lemma not_reaches_of_leaf {link : ν → η → Option ν} {c q : ν} (hl : ∀ k, link c k = none) (hn : c ≠ q) :
    ¬Reaches link c q := by
  intro h
  rcases ReflTransGen.cases_head h with he | ⟨x,⟨k,hk⟩,-⟩
  · exact hn he
  · simp [hl] at hk

structure LinkTree (link : ν → η → Option ν) (root : ν) : Prop where
  orphan : ∀ p n, link p n ≠ some root
  unique : ∀ {p n p' n' c}, link p n = some c → link p' n' = some c → p' = p ∧ n' = n
  reached : ∀ {p n c}, link p n = some c → Reaches link root c

namespace LinkTree
variable {link link' : ν → η → Option ν} {root p q c : ν} {n m : η}

lemma empty (root : ν) : LinkTree (fun (_ : ν) (_ : η) => none) root :=
  ⟨by simp,by simp,by simp⟩

section
variable (h : LinkTree link root)
include h

lemma acyclic {x : ν} (hx : Reaches link root x) : ¬TransGen (Edge link) x x := by
  induction hx with
  | refl =>
    intro hcy
    obtain ⟨y,-,name,hn⟩ := TransGen.tail'_iff.1 hcy
    exact h.orphan y name hn
  | @tail y z hy hyz ih =>
    intro hcy
    obtain ⟨name,hn⟩ := hyz
    obtain ⟨w,hw,name',hn'⟩ := TransGen.tail'_iff.1 hcy
    obtain ⟨rfl,rfl⟩ := h.unique hn hn'
    exact ih (TransGen.head' ⟨_,hn⟩ hw)

/-- A node without a link to or from it is hung under a free name. -/
lemma insert [DecidableEq ν] [DecidableEq η] (hp : Reaches link root p)
    (hfree : link p n = none) (hr : c ≠ root) (ht : ∀ a k, link a k ≠ some c)
    (hlink : ∀ a k, link' a k = if a = p ∧ k = n then some c else link a k) : LinkTree link' root := by
  have he : ∀ a b, Edge link a b → Edge link' a b := by
    rintro a b ⟨k,hk⟩
    refine ⟨k,?_⟩
    have hn : ¬(a = p ∧ k = n) := by
      rintro ⟨rfl,rfl⟩
      simp [hfree] at hk
    rw [hlink,if_neg hn,hk]
  have ho : ∀ x, Reaches link root x → Reaches link' root x := fun x hx => ReflTransGen.mono he root x hx
  refine ⟨fun a k hk => ?_,fun {a k a' k' b} hk hk' => ?_,fun {a k b} hk => ?_⟩
  · rw [hlink] at hk
    split_ifs at hk
    · exact hr (Option.some.inj hk)
    · exact h.orphan a k hk
  · rw [hlink] at hk hk'
    split_ifs at hk hk' with h1 h2 h2
    · exact ⟨h2.1.trans h1.1.symm,h2.2.trans h1.2.symm⟩
    · exact absurd (hk'.trans hk.symm) (ht a' k')
    · exact absurd (hk.trans hk'.symm) (ht a k)
    · exact h.unique hk hk'
  · rw [hlink] at hk
    split_ifs at hk with h1
    · cases hk
      exact (ho p hp).tail ⟨n,by rw [hlink,if_pos ⟨rfl,rfl⟩]⟩
    · exact ho b (h.reached hk)

/-- The link to a node without links from it is removed. -/
lemma erase [DecidableEq ν] [DecidableEq η] (hc : link p n = some c)
    (hl : ∀ k, link c k = none) (hlink : ∀ a k, link' a k = if a = p ∧ k = n then none else link a k) :
    LinkTree link' root := by
  have hke : ∀ {a k b}, link' a k = some b → link a k = some b := by
    intro a k b hk
    rw [hlink] at hk
    split_ifs at hk
    exact hk
  -- nothing that is still linked was reached through the leaf
  have ho : ∀ x, Reaches link root x → x ≠ c → Reaches link' root x := by
    intro x hx
    induction hx with
    | refl => exact fun _ => .refl
    | @tail y z hy hyz ih =>
      intro hz
      obtain ⟨k,hk⟩ := hyz
      have hyc : y ≠ c := by
        rintro rfl
        simp [hl] at hk
      have hn : ¬(y = p ∧ k = n) := by
        rintro ⟨rfl,rfl⟩
        exact hz (Option.some.inj (hk.symm.trans hc))
      exact (ih hyc).tail ⟨k,by rw [hlink,if_neg hn,hk]⟩
  refine ⟨fun a k hk => h.orphan a k (hke hk),fun hk hk' => h.unique (hke hk) (hke hk'),
    fun {a k b} hk => ho b (h.reached (hke hk)) ?_⟩
  rintro rfl
  have hs := h.unique hc (hke hk)
  rw [hlink,if_pos hs] at hk
  cases hk

end

section
variable [DecidableEq ν] [DecidableEq η] (h : LinkTree link root) (hc : link p n = some c)
  (hfree : link q m = none ∨ q = p ∧ m = n) (hbelow : ¬Reaches link c q)
  (hlink : ∀ a k, link' a k = if a = q ∧ k = m then some c else if a = p ∧ k = n then none else link a k)
include hc hfree hlink
omit hc in
/-- A link other than the one that moves is still there. -/
lemma moved_link {a b : ν} {k : η} (hk : link a k = some b) (hne : ¬(a = p ∧ k = n)) : link' a k = some b := by
  have hn : ¬(a = q ∧ k = m) := by
    rintro ⟨rfl,rfl⟩
    rcases hfree with hfree | hs
    · simp [hfree] at hk
    · exact hne hs
  rw [hlink,if_neg hn,if_neg hne,hk]

/-- What is not below the node that moves stays where it is. -/
lemma moved_outside {x : ν} (hx : Reaches link root x) (ho : ¬Reaches link c x) : Reaches link' root x := by
  induction hx with
  | refl => exact .refl
  | @tail y z hy hyz ih =>
    have hyo : ¬Reaches link c y := fun hcy => ho (hcy.tail hyz)
    obtain ⟨k,hk⟩ := hyz
    have hn : ¬(y = p ∧ k = n) := by
      rintro ⟨rfl,rfl⟩
      cases hk.symm.trans hc
      exact ho .refl
    exact (ih hyo).tail ⟨k,moved_link hfree hlink hk hn⟩

include h in
/-- What is below the node moves with it. -/
lemma moved_below {x : ν} (hx : Reaches link c x) : Reaches link' c x := by
  induction hx with
  | refl => exact .refl
  | @tail y z hy hyz ih =>
    obtain ⟨k,hk⟩ := hyz
    have hn : ¬(y = p ∧ k = n) := by
      rintro ⟨rfl,rfl⟩
      exact h.acyclic (h.reached hc) (TransGen.tail' hy ⟨_,hc⟩)
    exact ih.tail ⟨k,moved_link hfree hlink hk hn⟩

include h hbelow in
/-- Nothing is lost when a node moves to a place that is not below it. -/
lemma moved_reaches (hq : Reaches link root q) {x : ν} (hx : Reaches link root x) : Reaches link' root x := by
  by_cases hcx : Reaches link c x
  · have hqx : Reaches link' root c := (moved_outside hc hfree hlink hq hbelow).tail ⟨m,by rw [hlink,if_pos ⟨rfl,rfl⟩]⟩
    exact hqx.trans (moved_below h hc hfree hlink hcx)
  · exact moved_outside hc hfree hlink hx hcx

include h hbelow in
lemma move (hq : Reaches link root q) : LinkTree link' root := by
  have hca : ∀ {a k b}, link' a k = some b → (a = q ∧ k = m ∧ b = c) ∨ (¬(a = p ∧ k = n) ∧ link a k = some b) := by
    intro a k b hk
    rw [hlink] at hk
    split_ifs at hk with h1 h2
    · exact .inl ⟨h1.1,h1.2,(Option.some.inj hk).symm⟩
    · exact .inr ⟨h2,hk⟩
  refine ⟨fun a k hk => ?_,fun {a k a' k' b} hk hk' => ?_,fun {a k b} hk => ?_⟩
  · rcases hca hk with ⟨-,-,rfl⟩ | ⟨-,ho⟩
    · exact h.orphan p n hc
    · exact h.orphan a k ho
  · rcases hca hk with ⟨rfl,rfl,rfl⟩ | ⟨hn,ho⟩ <;> rcases hca hk' with ⟨rfl,rfl,hb⟩ | ⟨hn',ho'⟩
    · exact ⟨rfl,rfl⟩
    · exact absurd (h.unique hc ho') hn'
    · subst hb
      exact absurd (h.unique hc ho) hn
    · exact h.unique ho ho'
  · have hx : Reaches link root b := by
      rcases hca hk with ⟨-,-,rfl⟩ | ⟨-,ho⟩
      · exact h.reached hc
      · exact h.reached ho
    exact moved_reaches h hc hfree hbelow hlink hq hx

end
end LinkTree
end Vanta.Library
