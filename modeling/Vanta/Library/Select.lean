import Mathlib.Data.List.Basic

namespace Vanta.Library
open List
variable {α : Type*}

inductive Turn where
  | kept
  | first
  | second
  deriving DecidableEq

/-- The first `n` elements that satisfy `p` have the first turn, the next `m` of them the second. -/
def turns (p : α → Bool) : Nat → Nat → List α → List Turn
  | _, _, [] => []
  | n, m, a::l =>
    if p a then
      match n, m with
      | n+1, m => .first::turns p n m l
      | 0, m+1 => .second::turns p 0 m l
      | 0, 0 => .kept::turns p 0 0 l
    else .kept::turns p n m l

variable {p : α → Bool}

@[simp] lemma turns_nil (p : α → Bool) (n m : Nat) : turns p n m [] = [] := by
  simp [turns]

lemma turns_cons_of_neg {a : α} (h : p a = false) (n m : Nat) (l : List α) :
    turns p n m (a::l) = .kept::turns p n m l := by
  simp [turns,h]

lemma turns_cons_first {a : α} (h : p a = true) (n m : Nat) (l : List α) :
    turns p (n+1) m (a::l) = .first::turns p n m l := by
  simp [turns,h]

lemma turns_cons_second {a : α} (h : p a = true) (m : Nat) (l : List α) :
    turns p 0 (m+1) (a::l) = .second::turns p 0 m l := by
  simp [turns,h]

lemma turns_zero (p : α → Bool) (l : List α) : turns p 0 0 l = List.replicate l.length .kept := by
  induction l with
  | nil => simp
  | cons a l ih =>
    cases h : p a with
    | false => rw [turns_cons_of_neg h,ih,length_cons,replicate_succ]
    | true => rw [turns,if_pos h,ih,length_cons,replicate_succ]

@[simp] lemma turns_length (p : α → Bool) (n m : Nat) (l : List α) : (turns p n m l).length = l.length := by
  induction l generalizing n m with
  | nil => simp
  | cons a l ih =>
    cases h : p a with
    | false => rw [turns_cons_of_neg h,length_cons,ih,length_cons]
    | true =>
      match n, m with
      | n+1, m => rw [turns_cons_first h,length_cons,ih,length_cons]
      | 0, m+1 => rw [turns_cons_second h,length_cons,ih,length_cons]
      | 0, 0 => rw [turns_zero,length_replicate]

/-- The counts that are left after a part of the list are used up on the rest. -/
lemma turns_append (p : α → Bool) (n m : Nat) (l l' : List α) :
    turns p n m (l++l') = turns p n m l++turns p (n-l.countP p) (m-(l.countP p-n)) l' := by
  induction l generalizing n m with
  | nil => simp
  | cons a l ih =>
    cases h : p a with
    | false =>
      rw [cons_append,turns_cons_of_neg h,turns_cons_of_neg h,ih,countP_cons_of_neg (by simp [h]),cons_append]
    | true =>
      have hc : (a::l).countP p = l.countP p+1 := countP_cons_of_pos h
      match n, m with
      | n+1, m =>
        rw [cons_append,turns_cons_first h,turns_cons_first h,ih,hc,Nat.add_sub_add_right,
          Nat.add_sub_add_right,cons_append]
      | 0, m+1 =>
        rw [cons_append,turns_cons_second h,turns_cons_second h,ih,hc,Nat.zero_sub,Nat.zero_sub,Nat.sub_zero,
          Nat.sub_zero,Nat.add_sub_add_right,cons_append]
      | 0, 0 =>
        rw [Nat.zero_sub,Nat.zero_sub,turns_zero,turns_zero,turns_zero,length_append,replicate_add]

lemma count_turns (p : α → Bool) (n m : Nat) (l : List α) :
    (turns p n m l).count .first = min n (l.countP p) ∧ (turns p n m l).count .second = min m (l.countP p-n) := by
  induction l generalizing n m with
  | nil => simp
  | cons a l ih =>
    cases h : p a with
    | false => simp [turns_cons_of_neg h,ih,h]
    | true =>
      rw [countP_cons_of_pos h]
      match n, m with
      | n+1, m =>
        rw [turns_cons_first h,count_cons_self,count_cons_of_ne (by decide),(ih n m).1,(ih n m).2]
        omega
      | 0, m+1 =>
        rw [turns_cons_second h,count_cons_self,count_cons_of_ne (by decide),(ih 0 m).1,(ih 0 m).2]
        omega
      | 0, 0 => simp [turns_zero,count_replicate]

lemma of_mem_zip_turns {n m : Nat} {l : List α} {t : Turn} {a : α} (h : (t,a) ∈ (turns p n m l).zip l)
    (ht : t ≠ .kept) : p a = true := by
  induction l generalizing n m with
  | nil => simp at h
  | cons b l ih =>
    cases hb : p b with
    | false =>
      rw [turns_cons_of_neg hb,zip_cons_cons,mem_cons] at h
      obtain h | h := h
      · cases h
        exact absurd rfl ht
      · exact ih h
    | true =>
      have key : ∀ {n' m' : Nat} {t' : Turn}, (t,a) ∈ (t'::turns p n' m' l).zip (b::l) → p a = true := by
        intro n' m' t' h'
        rw [zip_cons_cons,mem_cons] at h'
        obtain h' | h' := h'
        · cases h'
          exact hb
        · exact ih h'
      match n, m with
      | n+1, m => exact key (turns_cons_first hb n m l ▸ h)
      | 0, m+1 => exact key (turns_cons_second hb m l ▸ h)
      | 0, 0 =>
        rw [turns,if_pos hb] at h
        exact key h

/-- The elements that are chosen are the first ones that match. -/
lemma chosen_iff (p q : α → Bool) (n m : Nat) (l : List α) :
    (∀ fate a, (fate,a) ∈ (turns p n m l).zip l → fate ≠ .kept → q a = true) ↔
      ∀ a ∈ (l.filter p).take (n+m), q a = true := by
  induction l generalizing n m with
  | nil => simp
  | cons a l ih =>
    cases h : p a with
    | false =>
      rw [turns_cons_of_neg h,filter_cons_of_neg (by simp [h]),← ih]
      simp only [zip_cons_cons,mem_cons,Prod.mk.injEq]
      exact ⟨fun hz fate b hb => hz fate b (.inr hb),
        fun hz fate b hb hk => hb.elim (fun he => absurd he.1 hk) (fun hb => hz fate b hb hk)⟩
    | true =>
      rw [filter_cons_of_pos h]
      match n, m with
      | n+1, m =>
        rw [turns_cons_first h,Nat.add_right_comm,take_succ_cons]
        simp only [zip_cons_cons,mem_cons,Prod.mk.injEq,forall_eq_or_imp,← ih]
        exact ⟨fun hz => ⟨hz .first a (.inl ⟨rfl,rfl⟩) (by simp),fun fate b hb => hz fate b (.inr hb)⟩,
          fun ⟨h0,hz⟩ fate b hb hk => hb.elim (fun he => he.2 ▸ h0) (fun hb => hz fate b hb hk)⟩
      | 0, m+1 =>
        rw [turns_cons_second h,← Nat.add_assoc,take_succ_cons]
        simp only [zip_cons_cons,mem_cons,Prod.mk.injEq,forall_eq_or_imp,← ih]
        exact ⟨fun hz => ⟨hz .second a (.inl ⟨rfl,rfl⟩) (by simp),fun fate b hb => hz fate b (.inr hb)⟩,
          fun ⟨h0,hz⟩ fate b hb hk => hb.elim (fun he => he.2 ▸ h0) (fun hb => hz fate b hb hk)⟩
      | 0, 0 =>
        rw [turns_zero]
        simp only [Nat.add_zero,take_zero,not_mem_nil,false_implies,implies_true,iff_true]
        intro fate b hb hk
        exact absurd (eq_of_mem_replicate (of_mem_zip hb).1) hk

/-- Where the first `k` that match all have `q`, counting those with `q` changes nothing below `k`. -/
lemma min_countP_eq {p q : α → Bool} {k : Nat} {l : List α} (h : ∀ a ∈ (l.filter p).take k, q a = true) :
    min k (l.countP (fun a => q a && p a)) = min k (l.countP p) := by
  have hc : l.countP (fun a => q a && p a) = (l.filter p).countP q := by rw [countP_filter]
  have ht : ((l.filter p).take k).countP q = min k (l.countP p) := by
    rw [countP_eq_length.2 h,length_take,countP_eq_length_filter]
  have hle : ((l.filter p).take k).countP q ≤ (l.filter p).countP q := (take_sublist k _).countP_le
  have hup : (l.filter p).countP q ≤ l.countP p := by
    rw [countP_eq_length_filter (p := p)]
    exact countP_le_length
  rw [hc]
  omega

end Vanta.Library
