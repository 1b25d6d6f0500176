import Mathlib.Logic.Function.Basic
import Mathlib.Data.List.Nodup

/-! Doubly linked lists threaded through two pointer arrays. -/

namespace Vanta.Library
open List
section
variable {α : Type} {next prev next' prev' : α → α} {nil p a : α} {l l₁ l₂ : List α}

/-- Following `next` from the head of `l` visits `l` and ends at `nil`; `prev` leads back, out of the
head to `p`. -/
def Linked (next prev : α → α) (nil : α) : α → List α → Prop
  | _, [] => True
  | p, a::l => prev a = p ∧ next a = l.headD nil ∧ Linked next prev nil a l

lemma linked_congr (hn : ∀ x ∈ l, next' x = next x) (hp : ∀ x ∈ l, prev' x = prev x)
    (h : Linked next prev nil p l) : Linked next' prev' nil p l := by
  induction l generalizing p with
  | nil => trivial
  | cons a l ih =>
    obtain ⟨hpa,hna,hl⟩ := h
    exact ⟨by rw [hp a (by simp),hpa],by rw [hn a (by simp),hna],
      ih (fun x hx => hn x (by simp [hx])) (fun x hx => hp x (by simp [hx])) hl⟩

lemma headD_mem (h : l.headD nil ≠ nil) : l.headD nil ∈ l := by
  cases l with
  | nil => simp at h
  | cons a l => simp

section
variable (h : Linked next prev nil p l)
include h

lemma linked_next_mem {x : α} (hx : x ∈ l) (hn : next x ≠ nil) : next x ∈ l := by
  induction l generalizing p with
  | nil => simp at hx
  | cons a l ih =>
    obtain ⟨-,hna,hl⟩ := h
    rcases mem_cons.1 hx with rfl | hx
    · rw [hna] at hn ⊢
      exact mem_cons_of_mem _ (headD_mem hn)
    · exact mem_cons_of_mem _ (ih hl hx)

lemma linked_prev_mem {x : α} (hx : x ∈ l) : prev x ∈ p::l := by
  induction l generalizing p with
  | nil => simp at hx
  | cons a l ih =>
    obtain ⟨hp,-,hl⟩ := h
    rcases mem_cons.1 hx with rfl | hx
    · simp [hp]
    · exact mem_cons_of_mem _ (ih hl hx)

lemma linked_prev_next {x : α} (hx : x ∈ l) (hn : next x ≠ nil) : prev (next x) = x := by
  induction l generalizing p with
  | nil => simp at hx
  | cons a l ih =>
    obtain ⟨-,hna,hl⟩ := h
    rcases mem_cons.1 hx with rfl | hx
    · cases l with
      | nil => simp [hna] at hn
      | cons b l => rw [hna]; exact hl.1
    · exact ih hl hx

lemma linked_next_prev (hd : l.Nodup) {x : α} (hx : x ∈ l) (hp : prev x ≠ p) : next (prev x) = x := by
  induction l generalizing p with
  | nil => simp at hx
  | cons a l ih =>
    obtain ⟨hpa,hn,hl⟩ := h
    obtain ⟨hal,hd⟩ := nodup_cons.1 hd
    rcases mem_cons.1 hx with rfl | hx
    · exact absurd hpa hp
    by_cases ha : prev x = a
    · cases l with
      | nil => simp at hx
      | cons b l =>
        rcases mem_cons.1 hx with rfl | hx'
        · rw [ha,hn]; rfl
        · exact absurd (ha ▸ linked_prev_mem hl.2.2 hx') hal
    · exact ih hl hd hx ha

end

/-- Taking `a` out: whoever pointed to `a` now points past it. -/
lemma linked_unlink [DecidableEq α] (h : Linked next prev nil p (l₁++a::l₂))
    (hd : (l₁++a::l₂).Nodup) (hpa : p ≠ a) (hni : nil ≠ a)
    (hn : ∀ x ∈ l₁++l₂, next' x = if next x = a then next a else next x)
    (hp : ∀ x ∈ l₁++l₂, prev' x = if prev x = a then prev a else prev x) : Linked next' prev' nil p (l₁++l₂) := by
  induction l₁ generalizing p with
  | nil =>
    obtain ⟨hpr,hnx,hl⟩ := h
    obtain ⟨ha,-⟩ := nodup_cons.1 hd
    cases l₂ with
    | nil => trivial
    | cons b l =>
      have hb : prev' b = p := by rw [hp b (by simp),if_pos hl.1,hpr]
      have hne : ∀ x ∈ b::l, next' x = next x := by
        intro x hx
        rw [hn x (by simpa using hx),if_neg]
        intro hxa
        exact ha (hxa ▸ linked_next_mem hl hx (by rw [hxa]; exact hni.symm))
      have hpre : ∀ x ∈ l, prev' x = prev x := by
        intro x hx
        rw [hp x (by simp [hx]),if_neg]
        intro hxa
        exact ha (hxa ▸ linked_prev_mem hl.2.2 hx)
      exact ⟨hb,by rw [hne b (by simp),hl.2.1],linked_congr (fun x hx => hne x (by simp [hx])) hpre hl.2.2⟩
  | cons c l₁ ih =>
    obtain ⟨hpr,hnx,hl⟩ := h
    obtain ⟨hc,hd⟩ := nodup_cons.1 hd
    have hca : c ≠ a := fun hca => hc (by simp [hca])
    have hr := ih hl hd hca (fun x hx => hn x (mem_cons_of_mem _ hx))
      (fun x hx => hp x (mem_cons_of_mem _ hx))
    refine ⟨?_,?_,hr⟩
    · rw [hp c (by simp),if_neg (hpr ▸ hpa),hpr]
    rw [hn c (by simp),hnx]
    cases l₁ with
    | nil =>
      have hl : next a = l₂.headD nil := hl.2.1
      simp [hl]
    | cons d l₁ =>
      have hda : d ≠ a := by
        intro hda
        simp [hda] at hd
      simp [hda]

/-- Putting `a` in front: the old head, if any, leads back to `a`. -/
lemma linked_push [DecidableEq α] (h : Linked next prev nil p l) (hd : l.Nodup)
    (hna : next' a = l.headD nil) (hpa : prev' a = p) (hn : ∀ x ∈ l, next' x = next x)
    (hp : ∀ x ∈ l, prev' x = if x = l.headD nil then a else prev x) : Linked next' prev' nil p (a::l) := by
  refine ⟨hpa,hna,?_⟩
  cases l with
  | nil => trivial
  | cons b l =>
    obtain ⟨hb,-⟩ := nodup_cons.1 hd
    refine ⟨by simpa using hp b (by simp),by rw [hn b (by simp),h.2.1],
      linked_congr (fun x hx => hn x (by simp [hx])) ?_ h.2.2⟩
    intro x hx
    have hxb : x ≠ b := fun hxb => hb (hxb ▸ hx)
    simpa [hxb] using hp x (by simp [hx])

end
end Vanta.Library
