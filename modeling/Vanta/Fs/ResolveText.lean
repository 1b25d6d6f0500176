import Vanta.Fs.Resolve

namespace Vanta.Fs
open Library List

structure Name (w : Text) : Prop where
  word : Word '/' w
  dot : w ≠ ['.']
  dots : w ≠ ['.','.']

def Tidy (w : Text) : Prop := w.getLast?.any isWhitespace = false

instance (w : Text) : Decidable (Tidy w) := inferInstanceAs (Decidable (w.getLast?.any isWhitespace = false))

lemma Tidy.last {w : Text} (h : Tidy w) {c : Char} (hc : w.getLast? = some c) : isWhitespace c = false := by
  simpa [Tidy,hc] using h

def textOf (ns : List Text) : Text := if ns = [] then ['/'] else written '/' ns

section
variable {ns ms : List Text} {c : Text}

lemma written_ne_slash (hns : ∀ w ∈ ns, Name w) : written '/' ns ≠ ['/'] := by
  cases ns with
  | nil => simp [written]
  | cons n ns =>
    have hn := (hns n (by simp)).word.ne_nil
    simp [written,hn]

@[simp] lemma textOf_nil : textOf [] = ['/'] := rfl

lemma textOf_of_ne (h : ns ≠ []) : textOf ns = written '/' ns := if_neg h

lemma textOf_eq_slash (hns : ∀ w ∈ ns, Name w) : textOf ns = ['/'] ↔ ns = [] := by
  rw [textOf]
  split
  · next h => simp [h]
  · next h => simp [h,written_ne_slash hns]

lemma components_written (hns : ∀ w ∈ ns, Name w) : components (written '/' ns) = ns := by
  rw [components,wordsOf_written fun w hw => (hns w hw).word]
  exact filter_eq_self.2 fun w hw => by simpa using (hns w hw).dot

@[simp] lemma components_slash : components ['/'] = [] := by
  rfl

section
variable (hns : ∀ w ∈ ns, Name w)
include hns

lemma components_textOf : components (textOf ns) = ns := by
  rw [textOf]
  split
  · next h => simp [h]
  · exact components_written hns

lemma textOf_injective (hm : ∀ w ∈ ms, Name w) (h : textOf ns = textOf ms) : ns = ms := by
  rw [← components_textOf hns,h,components_textOf hm]

lemma childText_textOf : childText (textOf ns) c = textOf (ns++[c]) := by
  rw [childText,textOf_of_ne (by simp : ns++[c] ≠ [])]
  by_cases h : ns = []
  · simp [h,written]
  · rw [if_neg (by simpa [textOf_eq_slash hns] using h),textOf_of_ne h]
    simp [written]

lemma parentText_textOf : parentText (textOf ns) = textOf ns.dropLast := by
  rcases eq_nil_or_concat ns with rfl | ⟨init,last,rfl⟩
  · simp [parentText]
  simp only [concat_eq_append] at hns ⊢
  have hl := (hns last (by simp)).word
  have ht : textOf (init++[last]) = written '/' init++ '/'::last := by
    rw [textOf_of_ne (by simp)]
    simp [written]
  have hs : textOf (init++[last]) ≠ ['/'] := by simp [textOf_eq_slash hns]
  have hd : (last.reverse++('/'::(written '/' init).reverse)).dropWhile (· ≠ '/') =
      '/'::(written '/' init).reverse := by
    rw [dropWhile_append_of_pos]
    · simp
    intro x hx
    simp only [ne_eq,decide_eq_true_eq]
    rintro rfl
    exact hl.free (mem_reverse.1 hx)
  have hu : (((written '/' init++ '/'::last).reverse.dropWhile (· ≠ '/')).drop 1).reverse = written '/' init := by
    simp only [reverse_append,reverse_cons,append_assoc,singleton_append]
    rw [hd]
    simp
  have hm : '/' ∈ textOf (init++[last]) := by simp [ht]
  rw [parentText,if_neg (not_or.2 ⟨hs,not_not.2 hm⟩)]
  simp only [ht,hu,dropLast_concat]
  rw [textOf]
  cases init with
  | nil | cons n init => simp [written]

end

lemma trimEnd_eq_self {p : Char → Bool} {s : Text} (h : ∀ x, s.getLast? = some x → p x = false) : trimEnd p s = s := by
  rw [trimEnd]
  cases hr : s.reverse with
  | nil => simpa using hr.symm
  | cons x xs =>
    have hl : s.getLast? = some x := by rw [← List.head?_reverse,hr,List.head?_cons]
    rw [dropWhile_cons_of_neg (by simp [h x hl]),← hr,reverse_reverse]

lemma getLast?_child (ns : List Text) (hc : Name c) : (textOf (ns++[c])).getLast? = c.getLast? := by
  rw [textOf_of_ne (by simp)]
  have hn := hc.word.ne_nil
  simp [written,List.getLast?_append,List.getLast?_cons,List.getLast?_eq_getLast_of_ne_nil hn]

lemma normalizeMountTarget_self {s : Text} (hh : s.head? = some '/') (hl : s.getLast? ≠ some '/') (ht : Tidy s) :
    normalizeMountTarget s = s := by
  obtain ⟨rest,rfl⟩ : ∃ rest, s = '/'::rest := by
    cases s with
    | nil => cases hh
    | cons x rest =>
      cases hh
      exact ⟨rest,rfl⟩
  have htr : trim ('/'::rest) = '/'::rest := by
    exact trimEnd_eq_self fun x hx => ht.last hx
  have he : trimEnd (· = '/') ('/'::rest) = '/'::rest := trimEnd_eq_self fun x hx => by
    simp only [decide_eq_false_iff_not]
    rintro rfl
    exact hl hx
  have hs : '/'::rest ≠ ['/'] := fun h => hl (by rw [h]; rfl)
  simp only [normalizeMountTarget,htr]
  rw [if_neg (not_or.2 ⟨by simp,hs⟩),he]
  rfl

lemma normalizeMountTarget_textOf (hc : Name c) (ht : Tidy c) :
    normalizeMountTarget (textOf (ns++[c])) = textOf (ns++[c]) := by
  have hl := getLast?_child ns hc
  refine normalizeMountTarget_self ?_ (fun h => ?_) (by rwa [Tidy,hl])
  · rw [textOf_of_ne (by simp)]
    cases ns <;> rfl
  · rw [hl] at h
    exact hc.word.free (mem_of_getLast? h)

end
end Vanta.Fs
