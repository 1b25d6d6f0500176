import Vanta.Fs.ResolveText

namespace Vanta.Fs
open Library List

def pushPart (parts : List Text) (part : Text) : List Text :=
  if part = [] ∨ part = ['.'] then parts else if part = ['.','.'] then parts.dropLast else parts++[part]

def partsOf (full : Text) : List Text := (full.splitOn '/').foldl pushPart []

variable (base relative : Text)

def fullText : Text :=
  if relative.head? = some '/' then relative
  else (if base.getLast? = some '/' then base else base++['/'])++relative

def canonicalizePath : Text := textOf (partsOf (fullText base relative))

variable {ns : List Text} {base relative : Text}

lemma pushPart_names (hn : ∀ w ∈ ns, Name w) {c : Text} (hc : '/' ∉ c) : ∀ w ∈ pushPart ns c, Name w := by
  intro w hw
  rw [pushPart] at hw
  split_ifs at hw with he hd
  · exact hn w hw
  · exact hn w (dropLast_subset ns hw)
  rcases mem_append.1 hw with hw | hw
  · exact hn w hw
  · obtain rfl := mem_singleton.1 hw
    rw [not_or] at he
    exact ⟨⟨he.1,hc⟩,he.2,hd⟩

lemma partsOf_names (full : Text) : ∀ w ∈ partsOf full, Name w := by
  have hp : ∀ parts : List Text, (∀ c ∈ parts, '/' ∉ c) → ∀ ns : List Text, (∀ w ∈ ns, Name w) →
      ∀ w ∈ parts.foldl pushPart ns, Name w := by
    intro parts hf
    induction parts with
    | nil => exact fun ns hn => hn
    | cons c parts ih =>
      intro ns hn
      obtain ⟨hc,hf⟩ := forall_mem_cons.1 hf
      exact ih hf _ (pushPart_names hn hc)
  exact hp _ (splitOn_free full) [] (by simp)

lemma foldl_pushPart (hns : ∀ w ∈ ns, Name w) (ms : List Text) : ns.foldl pushPart ms = ms++ns := by
  induction ns generalizing ms with
  | nil => simp
  | cons n ns ih =>
    obtain ⟨hn,hns⟩ := forall_mem_cons.1 hns
    have hp : pushPart ms n = ms++[n] := by simp [pushPart,hn.word.ne_nil,hn.dot,hn.dots]
    rw [foldl_cons,hp,ih hns]
    simp

lemma splitOn_written (hns : ∀ w ∈ ns, Name w) {c : Text} (hc : '/' ∉ c) : (c++written '/' ns).splitOn '/' = c::ns := by
  induction ns generalizing c with
  | nil =>
    rw [written,append_nil]
    exact splitOn_eq_singleton hc
  | cons n ns ih =>
    obtain ⟨hn,hns⟩ := forall_mem_cons.1 hns
    rw [written,splitOn_append_cons_self_of_not_mem hc,ih hns hn.word.free]

lemma partsOf_textOf (hn : ∀ w ∈ ns, Name w) : partsOf (textOf ns) = ns := by
  rw [textOf]
  split_ifs with h
  · rw [h]
    rfl
  · rw [← nil_append (written '/' ns),partsOf,splitOn_written hn not_mem_nil,foldl_cons,foldl_pushPart hn]
    rfl

lemma partsOf_append (a b : Text) : partsOf (a++ '/'::b) = (b.splitOn '/').foldl pushPart (partsOf a) := by
  rw [partsOf,splitOn_append_cons_self,foldl_append]
  rfl

lemma partsOf_fullText (h : relative.head? ≠ some '/') (base : Text) :
    partsOf (fullText base relative) = (relative.splitOn '/').foldl pushPart (partsOf base) := by
  rw [fullText,if_neg h]
  split_ifs with he
  · obtain ⟨init,rfl⟩ := getLast?_eq_some_iff.1 he
    have hi : partsOf (init++['/']) = partsOf init := partsOf_append init []
    rw [hi,append_assoc,singleton_append,partsOf_append]
  · rw [append_assoc,singleton_append,partsOf_append]

/-- Without a trailing slash, and without empty components and dots. -/
def IsCanonical (path : Text) : Prop :=
  path = ['/'] ∨ path.head? = some '/' ∧ path.getLast? ≠ some '/' ∧
    ∀ w ∈ path.tail.splitOn '/', w ≠ [] ∧ w ≠ ['.'] ∧ w ≠ ['.','.']

lemma textOf_isCanonical (hns : ∀ w ∈ ns, Name w) : IsCanonical (textOf ns) := by
  rcases eq_nil_or_concat ns with rfl | ⟨init,last,rfl⟩
  · exact .inl rfl
  rw [concat_eq_append] at hns ⊢
  have hl := hns last (by simp)
  refine .inr ⟨?_,fun h => ?_,?_⟩
  · rw [textOf_of_ne (by simp)]
    cases init <;> rfl
  · rw [getLast?_child init hl] at h
    exact hl.word.free (mem_of_getLast? h)
  cases hm : init++[last] with
  | nil => simp at hm
  | cons n ns =>
    rw [hm] at hns
    obtain ⟨hn,ht⟩ := forall_mem_cons.1 hns
    rw [textOf_of_ne (by simp),written,tail_cons,splitOn_written ht hn.word.free]
    exact fun w hw => ⟨(hns w hw).word.ne_nil,(hns w hw).dot,(hns w hw).dots⟩

theorem canonicalizePath_algebra (base relative : Text) :
    let path := canonicalizePath base relative
    IsCanonical path ∧ (∀ base', canonicalizePath base' path = path) ∧
      (relative.head? = some '/' → ∀ base', canonicalizePath base' relative = path) ∧
      ∀ next, relative ≠ [] → relative.head? ≠ some '/' → next.head? ≠ some '/' →
        canonicalizePath path next = canonicalizePath base (relative++ '/'::next) := by
  have hns := partsOf_names (fullText base relative)
  have hp := partsOf_textOf hns
  refine ⟨textOf_isCanonical hns,fun base' => ?_,fun h base' => ?_,fun next hne hr hn => ?_⟩
  · have hh : (canonicalizePath base relative).head? = some '/' := by
      rw [canonicalizePath,textOf]
      cases partsOf (fullText base relative) <;> rfl
    rw [canonicalizePath,fullText,if_pos hh]
    exact congrArg textOf hp
  · rw [canonicalizePath,canonicalizePath,fullText,fullText,if_pos h,if_pos h]
  · have ha : (relative++ '/'::next).head? ≠ some '/' := by
      rwa [head?_append_of_ne_nil _ hne]
    simp only [canonicalizePath]
    rw [partsOf_fullText hn,hp,partsOf_fullText ha,splitOn_append_cons_self,foldl_append,partsOf_fullText hr]

/-- A link `l` to the directory `/d/e`, and a file `x` in the root and in `/d`. -/
def linkTree : Tree where
  rootInode := 2
  lookup dir name := match dir, name with
    | 2, ['l'] => .ok 3
    | 2, ['d'] => .ok 4
    | 4, ['e'] => .ok 5
    | 4, ['x'] => .ok 6
    | 2, ['x'] => .ok 7
    | _, _ => .error .notFound
  readInode ino := .ok (if ino = 3 then 0o120777 else if ino ≤ 5 then 0o040755 else 0o100644)
  readlink _ := .ok "/d/e".toList

end Vanta.Fs
