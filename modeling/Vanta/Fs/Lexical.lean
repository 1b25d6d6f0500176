import Vanta.Fs.Canonicalize
import Vanta.Fs.ResolveRefines

/-! Normalising a path as a string, compared with walking it. -/

namespace Vanta.Fs
open Library List

section
variable (cwd : Text) (dirPath : Option Text) (dirfd : Nat)

def atFdcwd : Nat := 2^64-100

/-- `dirPath` is what `descriptor_dir_path` gives for the descriptor. -/
def startText : Text := if dirfd = atFdcwd ∨ dirfd = 0 then cwd else dirPath.getD cwd

def resolveVfsPath (path : Text) : Text :=
  if path.head? = some '/' then canonicalizePath ['/'] path else canonicalizePath (startText cwd dirPath dirfd) path

/-- Where a relative path starts: at the current directory or at the directory that the descriptor has open. -/
def startDirectory : Option Text := if dirfd = atFdcwd then some cwd else dirPath

end

/-- The path to walk from the root, name by name. -/
def physicalPath (start path : Text) : Text := if path.head? = some '/' then path else start++ '/'::path

/-- The walk gets through the components to `way'`, whatever comes after them, and expands `n` symlinks. -/
inductive Leads (t : MountTable) (follow : Bool) : List Place → List Text → Nat → List Place → Prop where
  | here (way : List Place) : Leads t follow way [] 0 way
  | move {way way' way'' : List Place} {comp : Text} {comps : List Text} {n : Nat}
      (h : ∀ rest, rest ≠ [] → walkStep t follow way comp rest = .move way') (next : Leads t follow way' comps n way'') :
      Leads t follow way (comp::comps) n way''
  | expand {way way' way'' : List Place} {comp : Text} {comps target : List Text} {n : Nat}
      (h : ∀ rest, rest ≠ [] → walkStep t follow way comp rest = .expand (.ok (way',target++rest)))
      (next : Leads t follow way' (target++comps) n way'') : Leads t follow way (comp::comps) (n+1) way''

/-- The name leads from the end of `ms` to a directory whose parent is that end; what is left of a path that stops there
is a path to that end. -/
def Returns (t : MountTable) (follow : Bool) (ms : List Text) (name : Text) (rest : List Text) : Prop :=
  ∃ n way k way', Leads t follow [] ms n way ∧ Leads t follow way [name] k way' ∧ way'.tail = way ∧
    (rest = [] → ∃ n' ≤ n+k, Walks t follow [] ms n' (walkEnd t way))

/-- Every dot-dot takes back the name before it; `ns` are the names left so far. -/
def TakesBack (t : MountTable) (follow : Bool) : List Text → List Text → Prop
  | _, [] => True
  | ns, comp::rest =>
    if comp = ['.','.'] then
      (∀ ms name, ns = ms++[name] → Returns t follow ms name rest) ∧ TakesBack t follow ns.dropLast rest
    else TakesBack t follow (ns++[comp]) rest

section
variable {t : MountTable} {follow : Bool} {way way' : List Place} {comps rest : List Text} {n m : Nat}
  {r : Except VfsError Found}

lemma Leads.walks_after (h : Leads t follow way comps n way') (hr : rest ≠ [])
    (hw : Walks t follow way (comps++rest) m r) : ∃ k, m = n+k ∧ Walks t follow way' rest k r := by
  induction h generalizing m with
  | here way => exact ⟨m,(Nat.zero_add m).symm,hw⟩
  | @move _ _ _ _ comps _ h _ ih =>
    have hs := h (comps++rest) (append_ne_nil_of_right_ne_nil comps hr)
    cases hw with
    | move h' hw =>
      obtain rfl : _ = _ := by simpa [hs] using h'
      exact ih hw
    | done h' | unreadable h' | expand h' => simp [hs] at h'
  | @expand _ _ _ _ comps _ _ h _ ih =>
    have hs := h (comps++rest) (append_ne_nil_of_right_ne_nil comps hr)
    cases hw with
    | expand h' hw =>
      have he := hs.symm.trans h'
      simp only [Next.expand.injEq,Except.ok.injEq,Prod.mk.injEq] at he
      obtain ⟨rfl,rfl⟩ := he
      rw [← append_assoc] at hw
      obtain ⟨k,rfl,hk⟩ := ih hw
      exact ⟨k,by omega,hk⟩
    | done h' | move h' | unreadable h' => simp [hs] at h'

lemma Leads.walks (h : Leads t follow way comps n way') (hr : rest ≠ []) (hw : Walks t follow way' rest m r) :
    Walks t follow way (comps++rest) (n+m) r := by
  induction h with
  | here way => rwa [Nat.zero_add]
  | move h _ ih => exact .move (h _ (append_ne_nil_of_right_ne_nil _ hr)) (ih hw)
  | expand h _ ih =>
    have hn := ih hw
    rw [append_assoc] at hn
    rw [Nat.add_right_comm]
    exact .expand (h _ (append_ne_nil_of_right_ne_nil _ hr)) hn

lemma Walks.up (hw : Walks t follow way (['.','.']::rest) m r) : Walks t follow way.tail rest m r := by
  have hup : walkStep t follow way ['.','.'] rest = .move way.tail := if_pos rfl
  cases hw with
  | move h' hw =>
    obtain rfl : _ = _ := by simpa [hup] using h'
    exact hw
  | done h' | unreadable h' | expand h' => simp [hup] at h'

/-- A name that is taken back may be left out of the walk. -/
lemma Returns.walks {ms : List Text} {name : Text} (h : Returns t follow ms name rest)
    (hw : Walks t follow [] (ms++name::['.','.']::rest) m r) : ∃ m' ≤ m, Walks t follow [] (ms++rest) m' r := by
  obtain ⟨n,way,k,way',hms,hna,htail,hend⟩ := h
  obtain ⟨j,rfl,hj⟩ := hms.walks_after (by simp) hw
  obtain ⟨i,rfl,hi⟩ : ∃ i, j = k+i ∧ Walks t follow way' (['.','.']::rest) i r := hna.walks_after (by simp) hj
  have hw := hi.up
  rw [htail] at hw
  by_cases hr : rest = []
  · subst hr
    obtain ⟨n',hn,he⟩ := hend rfl
    cases hw
    exact ⟨n',by omega,by rwa [append_nil]⟩
  · exact ⟨n+i,by omega,hms.walks hr hw⟩

lemma TakesBack.walks {ns : List Text} (h : TakesBack t follow ns rest) (hc : ∀ w ∈ rest, Component w)
    (hw : Walks t follow [] (ns++rest) m r) : ∃ m' ≤ m, Walks t follow [] (rest.foldl pushPart ns) m' r := by
  induction rest generalizing ns m with
  | nil =>
    rw [append_nil] at hw
    exact ⟨m,Nat.le_refl m,hw⟩
  | cons comp rest ih =>
    obtain ⟨hco,hre⟩ := forall_mem_cons.1 hc
    rw [TakesBack] at h
    rw [foldl_cons,pushPart,if_neg (not_or.2 ⟨hco.word.ne_nil,hco.dot⟩)]
    by_cases hd : comp = ['.','.']
    · subst hd
      rw [if_pos rfl] at h ⊢
      rcases eq_nil_or_concat ns with rfl | ⟨ms,name,rfl⟩
      · -- above the root there is the root
        exact ih h.2 hre hw.up
      · rw [concat_eq_append] at h hw ⊢
        rw [dropLast_concat] at h ⊢
        rw [append_assoc] at hw
        obtain ⟨m',hm,hw⟩ := (h.1 ms name rfl).walks hw
        obtain ⟨m'',hm',hw⟩ := ih h.2 hre hw
        exact ⟨m'',Nat.le_trans hm' hm,hw⟩
    · rw [if_neg hd] at h ⊢
      refine ih h hre ?_
      rwa [append_assoc]

end

lemma partsOf_components (full : Text) : partsOf full = (components full).foldl pushPart [] := by
  have hf : ∀ parts ns : List Text, parts.foldl pushPart ns = (parts.filter fun c => ¬(c = [] ∨ c = ['.'])).foldl pushPart ns := by
    intro parts
    induction parts with
    | nil => exact fun _ => rfl
    | cons c parts ih =>
      intro ns
      by_cases he : c = [] ∨ c = ['.']
      · rw [filter_cons_of_neg (by simp [he]),foldl_cons,pushPart,if_pos he,ih]
      · rw [filter_cons_of_pos (by simpa using he),foldl_cons,foldl_cons,ih]
  have hc : components full = (full.splitOn '/').filter fun c => ¬(c = [] ∨ c = ['.']) := by
    rw [components,wordsOf,filter_filter]
    simp [Bool.and_comm]
  rw [partsOf,hf,hc]

lemma components_append (a b : Text) : components (a++ '/'::b) = components a++components b := by
  rw [components,wordsOf,splitOn_append_cons_self,filter_append,filter_append]
  rfl

lemma components_fullText (start path : Text) : components (fullText start path) = components (physicalPath start path) := by
  rw [fullText,physicalPath]
  split_ifs with h he
  · rfl
  · obtain ⟨init,rfl⟩ := getLast?_eq_some_iff.1 he
    have hi : components (init++['/']) = components init := by
      rw [components_append]
      exact append_nil _
    rw [components_append,hi,append_assoc,singleton_append,components_append]
  · rw [append_assoc,singleton_append]

/-- The normalised path is the walked one with the names taken back that dot-dots follow. -/
lemma components_resolveVfsPath {cwd start : Text} {dirPath : Option Text} {dirfd : Nat} (path : Text)
    (hs : startDirectory cwd dirPath dirfd = some start) (h0 : path.head? ≠ some '/' → dirfd = 0 → start = cwd) :
    components (resolveVfsPath cwd dirPath dirfd path) = (components (physicalPath start path)).foldl pushPart [] := by
  have hf : ∃ base, resolveVfsPath cwd dirPath dirfd path = canonicalizePath base path ∧
      components (physicalPath base path) = components (physicalPath start path) := by
    rw [resolveVfsPath]
    split_ifs with h
    · exact ⟨_,rfl,by rw [physicalPath,physicalPath,if_pos h,if_pos h]⟩
    · refine ⟨_,rfl,?_⟩
      rw [startDirectory] at hs
      rw [startText]
      split_ifs at hs with hd
      · cases hs
        rw [if_pos (.inl hd)]
      · by_cases hz : dirfd = 0
        · rw [if_pos (.inr hz),h0 h hz]
        · rw [if_neg (not_or.2 ⟨hd,hz⟩),hs,Option.getD_some]
  obtain ⟨base,he,hb⟩ := hf
  rw [he,canonicalizePath,components_textOf (partsOf_names _),partsOf_components,components_fullText,hb]

end Vanta.Fs
