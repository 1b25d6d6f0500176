import Mathlib.Data.List.Basic

namespace Vanta.Library
open List
section
variable {α : Type} {sep : α}

/-- A word that a separator in front is enough to mark. -/
structure Word (sep : α) (w : List α) : Prop where
  ne_nil : w ≠ []
  free : sep ∉ w

def written (sep : α) : List (List α) → List α
  | [] => []
  | w::ws => sep::(w++written sep ws)

@[simp] lemma written_append (us ws : List (List α)) : written sep (us++ws) = written sep us++written sep ws := by
  induction us with
  | nil => rfl
  | cons u us ih => simp [written,ih]

/-- A text that ends, or goes on with a separator. -/
def Cut (sep : α) (text : List α) : Prop := text = [] ∨ text.head? = some sep

lemma cut_written (ws : List (List α)) : Cut sep (written sep ws) := by
  cases ws with
  | nil => exact .inl rfl
  | cons w ws => exact .inr rfl

/-- The first word ends where the first separator is. -/
lemma word_unique {u v x y : List α} (hu : sep ∉ u) (hv : sep ∉ v) (hx : Cut sep x) (hy : Cut sep y)
    (h : u++x = v++y) : u = v ∧ x = y := by
  induction u generalizing v with
  | nil =>
    cases v with
    | nil => exact ⟨rfl,h⟩
    | cons b v =>
      rcases hx with rfl | hx
      · simp at h
      simp only [nil_append] at h
      simp [h] at hx
      simp [hx] at hv
  | cons a u ih =>
    cases v with
    | nil =>
      rcases hy with rfl | hy
      · simp at h
      simp only [nil_append] at h
      simp [← h] at hy
      simp [hy] at hu
    | cons b v =>
      simp only [cons_append,cons.injEq] at h
      obtain ⟨rfl,hr⟩ := ih (by simp_all) (by simp_all) h.2
      exact ⟨by rw [h.1],hr⟩

/-- One list of words is a start of another exactly if its text is, up to a cut. -/
lemma written_start {us ws : List (List α)} (hu : ∀ u ∈ us, Word sep u) (hw : ∀ w ∈ ws, Word sep w) {rest : List α}
    (hc : Cut sep rest) (h : written sep ws = written sep us++rest) : ∃ vs, ws = us++vs ∧ rest = written sep vs := by
  induction us generalizing ws with
  | nil => exact ⟨ws,rfl,by simpa [written] using h.symm⟩
  | cons u us ih =>
    cases ws with
    | nil => simp [written] at h
    | cons w ws =>
      simp only [written,cons_append,cons.injEq,true_and,append_assoc] at h
      have ht : Cut sep (written sep us++rest) := by
        rcases cut_written us with hn | hs
        · rwa [hn,nil_append]
        cases us with
        | nil => simp [written] at hs
        | cons v us => exact .inr rfl
      obtain ⟨rfl,hr⟩ := word_unique (hw w (by simp)).free (hu u (by simp)).free (cut_written ws) ht h
      obtain ⟨vs,rfl,hvs⟩ := ih (fun v hv => hu v (by simp [hv])) (fun v hv => hw v (by simp [hv])) hr
      exact ⟨vs,rfl,hvs⟩

variable [DecidableEq α]

def wordsOf (sep : α) (text : List α) : List (List α) := (text.splitOn sep).filter (· ≠ [])

@[simp] lemma wordsOf_nil : wordsOf sep [] = [] := by simp [wordsOf,splitOn]

lemma wordsOf_sep (text : List α) : wordsOf sep (sep::text) = wordsOf sep text := by
  have hs := splitOn_append_cons_self_of_not_mem (not_mem_nil (a := sep)) text
  rw [nil_append] at hs
  simp [wordsOf,hs]

lemma wordsOf_append {w : List α} (hw : Word sep w) {rest : List α} (hc : Cut sep rest) :
    wordsOf sep (w++rest) = w::wordsOf sep rest := by
  cases rest with
  | nil => simp [wordsOf,splitOn_eq_singleton hw.free,hw.ne_nil]
  | cons x rest =>
    obtain rfl : x = sep := by simpa [Cut] using hc
    rw [wordsOf_sep]
    simp [wordsOf,splitOn_append_cons_self_of_not_mem hw.free,hw.ne_nil]

lemma splitOn_free (text : List α) : ∀ w ∈ text.splitOn sep, sep ∉ w := by
  induction text with
  | nil => simp [splitOn]
  | cons x text ih =>
    intro w hw
    rw [splitOn,splitOnP_cons_eq_if_modifyHead] at hw
    split at hw
    · rcases mem_cons.1 hw with rfl | hw
      · simp
      · exact ih w hw
    next hx =>
    have hn : sep ≠ x := by
      rintro rfl
      simp at hx
    cases hs : text.splitOnP (· == sep) with
    | nil => simp [hs] at hw
    | cons v vs =>
      simp only [hs,modifyHead_cons,mem_cons] at hw
      rcases hw with rfl | hw
      · have hv := ih v (by simp [splitOn,hs])
        simp [hn,hv]
      · exact ih w (by simp [splitOn,hs,hw])

lemma word_of_mem_wordsOf {text w : List α} (h : w ∈ wordsOf sep text) : Word sep w := by
  obtain ⟨hm,hn⟩ := mem_filter.1 h
  exact ⟨by simpa using hn,splitOn_free text w hm⟩

@[simp] lemma wordsOf_written {ws : List (List α)} (hw : ∀ w ∈ ws, Word sep w) : wordsOf sep (written sep ws) = ws := by
  induction ws with
  | nil => simp [written]
  | cons w ws ih =>
    rw [written,wordsOf_sep,wordsOf_append (hw w (by simp)) (cut_written ws),ih fun v hv => hw v (by simp [hv])]

end
end Vanta.Library
