import Mathlib.Data.Nat.Bitwise
import Mathlib.Data.Set.Basic
import Mathlib.Tactic.Ring

/-! Blocks of `2^order` natural numbers from a head on. -/

namespace Vanta.Library
open List

/-- The number `f` lies in the block of order `k` at `p`. -/
def InBlock (p k f : Nat) : Prop := p ≤ f ∧ f < p+2^k

lemma inBlock_head (p k : Nat) : InBlock p k p := by
  have := Nat.two_pow_pos k
  exact ⟨le_refl p,by omega⟩

lemma inBlock_split (p k f : Nat) : InBlock p (k+1) f ↔ InBlock p k f ∨ InBlock (p+2^k) k f := by
  have hp : 2^(k+1) = 2^k+2^k := by ring
  simp only [InBlock,hp]
  omega

variable {p k f : Nat}

lemma inBlock_iff_div (h : 2^k ∣ p) : InBlock p k f ↔ f / 2^k = p / 2^k := by
  obtain ⟨m,rfl⟩ := h
  rw [Nat.mul_div_cancel_left _ (Nat.two_pow_pos k),Nat.div_eq_iff (Nat.two_pow_pos k),InBlock]
  have hp := Nat.two_pow_pos k
  have hc := Nat.mul_comm m (2^k)
  omega

variable {q : Nat}

lemma eq_of_inBlock (hp : 2^k ∣ p) (hq : 2^k ∣ q) (h : InBlock q k p) : q = p := by
  rw [← Nat.div_mul_cancel hp,(inBlock_iff_div hq).1 h,Nat.div_mul_cancel hq]

variable {r i j : Nat}

/-- Aligned blocks that meet are nested. -/
lemma inBlock_trans (hr : 2^i ∣ r) (hj : j ≤ i) (hq : InBlock r i q) (h : p / 2^j = q / 2^j) : InBlock r i p := by
  obtain ⟨d,rfl⟩ := Nat.exists_eq_add_of_le hj
  rw [inBlock_iff_div hr] at hq ⊢
  rw [← hq,Nat.pow_add,← Nat.div_div_eq_div_mul,← Nat.div_div_eq_div_mul,h]

/-- A set of blocks, each aligned to its size and inside `area`, no two of which overlap. -/
structure Tiling (area : Set Nat) (blocks : Nat → Nat → Prop) : Prop where
  aligned : ∀ p k, blocks p k → 2^k ∣ p
  inside : ∀ p k, blocks p k → ∀ f, InBlock p k f → f ∈ area
  disjoint : ∀ p k q j f, blocks p k → blocks q j → InBlock p k f → InBlock q j f → p = q ∧ k = j

namespace Tiling
variable {area area' : Set Nat} {blocks blocks' : Nat → Nat → Prop} {p k : Nat}

lemma congr (h : Tiling area blocks) (he : ∀ p k, blocks' p k ↔ blocks p k) : Tiling area blocks' := by
  have : blocks' = blocks := by
    funext p k
    exact propext (he p k)
  exact this ▸ h

/-- One more block outside of the area already covered. -/
lemma insert (h : Tiling area blocks) (ha : 2^k ∣ p) (ho : ∀ f, InBlock p k f → f ∉ area)
    (hs : area ⊆ area') (hi : ∀ f, InBlock p k f → f ∈ area') :
    Tiling area' (fun q j => blocks q j ∨ (q,j) ∈ [(p,k)]) where
  aligned q j hb := by
    simp only [mem_singleton,Prod.mk.injEq] at hb
    rcases hb with hb | ⟨rfl,rfl⟩
    · exact h.aligned q j hb
    · exact ha
  inside q j hb f hf := by
    simp only [mem_singleton,Prod.mk.injEq] at hb
    rcases hb with hb | ⟨rfl,rfl⟩
    · exact hs (h.inside q j hb f hf)
    · exact hi f hf
  disjoint q j r i f hq hr hf hf' := by
    simp only [mem_singleton,Prod.mk.injEq] at hq hr
    rcases hq with hq | ⟨rfl,rfl⟩ <;> rcases hr with hr | ⟨rfl,rfl⟩
    · exact h.disjoint q j r i f hq hr hf hf'
    · exact absurd (h.inside q j hq f hf) (ho f hf')
    · exact absurd (h.inside r i hr f hf') (ho f hf)
    · exact ⟨rfl,rfl⟩

lemma halves_disjoint (hq : (q,j) ∈ [(p,k),(p+2^k,k)])
    (hr : (r,i) ∈ [(p,k),(p+2^k,k)]) (hf : InBlock q j f) (hf' : InBlock r i f) : q = r ∧ j = i := by
  simp only [mem_cons,Prod.mk.injEq,not_mem_nil,or_false] at hq hr
  simp only [InBlock] at hf hf'
  rcases hq with ⟨rfl,rfl⟩ | ⟨rfl,rfl⟩ <;> rcases hr with ⟨rfl,rfl⟩ | ⟨rfl,rfl⟩ <;> omega

lemma inBlock_half (hq : (q,j) ∈ [(p,k),(p+2^k,k)]) (hf : InBlock q j f) : InBlock p (k+1) f := by
  simp only [mem_cons,Prod.mk.injEq,not_mem_nil,or_false] at hq
  rw [inBlock_split]
  rcases hq with ⟨rfl,rfl⟩ | ⟨rfl,rfl⟩
  · exact .inl hf
  · exact .inr hf

lemma split (h : Tiling area (fun q j => blocks q j ∨ (q,j) ∈ [(p,k+1)])) (hn : ¬blocks p (k+1)) :
    Tiling area (fun q j => blocks q j ∨ (q,j) ∈ [(p,k),(p+2^k,k)]) := by
  have hd : 2^(k+1) ∣ p := h.aligned p (k+1) (by simp)
  have hk : 2^k ∣ p := dvd_trans ⟨2,by ring⟩ hd
  -- a block that stays meets neither half, since it does not meet the whole
  have ho : ∀ q j r i f, blocks q j → (r,i) ∈ [(p,k),(p+2^k,k)] → InBlock q j f → ¬InBlock r i f := by
    intro q j r i f hq hr hf hf'
    obtain ⟨rfl,rfl⟩ := h.disjoint q j p (k+1) f (.inl hq) (by simp) hf (inBlock_half hr hf')
    exact hn hq
  refine ⟨?_,?_,?_⟩
  · intro q j hq
    rcases hq with hq | hq
    · exact h.aligned q j (.inl hq)
    simp only [mem_cons,Prod.mk.injEq,not_mem_nil,or_false] at hq
    rcases hq with ⟨rfl,rfl⟩ | ⟨rfl,rfl⟩
    · exact hk
    · exact (Nat.dvd_add_right hk).2 (dvd_refl _)
  · intro q j hq f hf
    rcases hq with hq | hq
    · exact h.inside q j (.inl hq) f hf
    · exact h.inside p (k+1) (by simp) f (inBlock_half hq hf)
  intro q j r i f hq hr hf hf'
  rcases hq with hq | hq <;> rcases hr with hr | hr
  · exact h.disjoint q j r i f (.inl hq) (.inl hr) hf hf'
  · exact absurd hf' (ho q j r i f hq hr hf)
  · exact absurd hf (ho r i q j f hr hq hf')
  · exact halves_disjoint hq hr hf hf'

lemma merge (h : Tiling area (fun q j => blocks q j ∨ (q,j) ∈ [(p,k),(p+2^k,k)]))
    (hl : ¬blocks p k) (hh : ¬blocks (p+2^k) k) (ha : 2^(k+1) ∣ p) :
    Tiling area (fun q j => blocks q j ∨ (q,j) ∈ [(p,k+1)]) := by
  have ho : ∀ q j f, blocks q j → InBlock q j f → ¬InBlock p (k+1) f := by
    intro q j f hq hf hf'
    rcases (inBlock_split p k f).1 hf' with hf' | hf'
    · obtain ⟨rfl,rfl⟩ := h.disjoint q j p k f (.inl hq) (by simp) hf hf'
      exact hl hq
    · obtain ⟨rfl,rfl⟩ := h.disjoint q j (p+2^k) k f (.inl hq) (by simp) hf hf'
      exact hh hq
  refine ⟨?_,?_,?_⟩
  · intro q j hq
    simp only [mem_singleton,Prod.mk.injEq] at hq
    rcases hq with hq | ⟨rfl,rfl⟩
    · exact h.aligned q j (.inl hq)
    · exact ha
  · intro q j hq f hf
    simp only [mem_singleton,Prod.mk.injEq] at hq
    rcases hq with hq | ⟨rfl,rfl⟩
    · exact h.inside q j (.inl hq) f hf
    rcases (inBlock_split q k f).1 hf with hf | hf
    · exact h.inside q k (by simp) f hf
    · exact h.inside (q+2^k) k (by simp) f hf
  · intro q j r i f hq hr hf hf'
    simp only [mem_singleton,Prod.mk.injEq] at hq hr
    rcases hq with hq | ⟨rfl,rfl⟩ <;> rcases hr with hr | ⟨rfl,rfl⟩
    · exact h.disjoint q j r i f (.inl hq) (.inl hr) hf hf'
    · exact absurd hf' (ho q j f hq hf)
    · exact absurd hf (ho r i f hr hf')
    · exact ⟨rfl,rfl⟩

end Tiling

lemma two_pow_mul_xor (k m : Nat) : 2^k*m ^^^ 2^k = 2^k*(m ^^^ 1) := by
  have := (Nat.shiftLeft_xor_distrib (a := m) (b := 1) (i := k)).symm
  simpa [Nat.shiftLeft_eq,Nat.mul_comm] using this

lemma xor_upper (h : 2^(k+1) ∣ p) : (p+2^k) ^^^ 2^k = p := by
  obtain ⟨m,rfl⟩ := h
  rw [show 2^(k+1)*m+2^k = 2^k*(2*m+1) by ring,two_pow_mul_xor,Nat.xor_one_of_odd ⟨m,rfl⟩,Nat.add_sub_cancel]
  ring

/-- The other half of the block of order `k+1` that the block of order `k` at `p` is a half of. -/
lemma xor_two_pow_of_dvd (h : 2^k ∣ p) : (2^(k+1) ∣ p ∧ p ^^^ 2^k = p+2^k) ∨
      (2^(k+1) ∣ p ^^^ 2^k ∧ p = (p ^^^ 2^k)+2^k) := by
  obtain ⟨m,rfl⟩ := h
  have hx := two_pow_mul_xor k m
  rcases Nat.even_or_odd m with hm | hm
  · rw [hx,Nat.xor_one_of_even hm]
    obtain ⟨c,rfl⟩ := hm
    exact .inl ⟨⟨c,by ring⟩,by ring⟩
  · rw [Nat.xor_one_of_odd hm] at hx
    obtain ⟨c,rfl⟩ := hm
    rw [hx]
    exact .inr ⟨⟨c,by rw [Nat.add_sub_cancel]; ring⟩,by rw [Nat.add_sub_cancel]; ring⟩

end Vanta.Library
