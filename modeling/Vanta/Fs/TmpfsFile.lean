import Vanta.Fs.Tmpfs

namespace Vanta.Fs
open Library List

def pageByte (pages : List Page) (i : Nat) : UInt8 :=
  match pages[i/pageBytes]? with
  | none => 0
  | some page => page (i%pageBytes)

section
variable {pages : List Page} {size : Nat} {a : ByteFile}
variable {i cur : Nat} {page : Page}

lemma pageByte_of_getElem? {k : Nat} (h : pages[k]? = some page)
    (hi : i/pageBytes = k) : pageByte pages i = page (i%pageBytes) := by
  simp [pageByte,hi,h]

lemma chunk_index (hi : i < pageBytes-cur%pageBytes) :
    (cur+i)/pageBytes = cur/pageBytes ∧ (cur+i)%pageBytes = cur%pageBytes+i := by
  simp only [pageBytes] at *
  omega

lemma window_page {chunk : Nat} (h : pages[cur/pageBytes]? = some page) (hc : chunk ≤ pageBytes-cur%pageBytes) :
    window page (cur%pageBytes) chunk = window (pageByte pages) cur chunk := by
  refine map_congr_left (fun i hi => ?_)
  have hi := mem_range.1 hi
  obtain ⟨hd,hm⟩ := chunk_index (show i < pageBytes-cur%pageBytes by omega)
  rw [pageByte_of_getElem? h hd,hm]

lemma readChunks_spec (fuel cur left : Nat) (hf : left ≤ fuel) : readChunks pages fuel cur left =
      if left = 0 ∨ cur+left ≤ pages.length*pageBytes then some (window (pageByte pages) cur left) else none := by
  induction fuel generalizing cur left with
  | zero => simp [readChunks,show left = 0 by omega]
  | succ fuel ih =>
    rw [readChunks]
    by_cases hl : left = 0
    · simp [hl]
    rw [if_neg hl]
    dsimp only
    have hpo : 0 < pageBytes-cur%pageBytes := by
      simp only [pageBytes]
      omega
    generalize hc : min left (pageBytes-cur%pageBytes) = chunk
    cases hp : pages[cur/pageBytes]? with
    | none =>
      have hle := getElem?_eq_none_iff.1 hp
      rw [if_neg]
      simp only [pageBytes] at *
      omega
    | some page =>
      obtain ⟨hle,-⟩ := List.getElem?_eq_some_iff.1 hp
      dsimp only
      rw [ih (cur+chunk) (left-chunk) (by omega),window_page hp (by omega)]
      have hs : left = chunk+(left-chunk) := by omega
      have hco : (left-chunk = 0 ∨ cur+chunk+(left-chunk) ≤ pages.length*pageBytes) ↔
          (left = 0 ∨ cur+left ≤ pages.length*pageBytes) := by
        simp only [pageBytes] at *
        omega
      simp only [hco]
      split
      · rw [Option.map_some,← window_add,← hs]
      · rfl

lemma pageByte_set {k : Nat} (hk : k < pages.length) :
    pageByte (pages.set k page) i = if i/pageBytes = k then page (i%pageBytes) else pageByte pages i := by
  simp only [pageByte,getElem?_set]
  by_cases h : i/pageBytes = k
  · subst h
    simp [hk]
  · simp [h,Ne.symm h]

lemma pageByte_overlay {buf : List UInt8}
    (h : pages[cur/pageBytes]? = some page) (hb : buf.length ≤ pageBytes-cur%pageBytes) :
    pageByte (pages.set (cur/pageBytes) (overlay page (cur%pageBytes) buf)) = overlay (pageByte pages) cur buf := by
  obtain ⟨hl,-⟩ := List.getElem?_eq_some_iff.1 h
  funext i
  rw [pageByte_set hl]
  by_cases hi : i/pageBytes = cur/pageBytes
  · rw [if_pos hi]
    simp only [overlay]
    rw [pageByte_of_getElem? h hi]
    have hr : (cur%pageBytes ≤ i%pageBytes ∧ i%pageBytes < cur%pageBytes+buf.length) ↔
        (cur ≤ i ∧ i < cur+buf.length) := by
      simp only [pageBytes] at *
      omega
    simp only [hr]
    split
    · congr 1
      simp only [pageBytes] at *
      omega
    · rfl
  · rw [if_neg hi,overlay,if_neg]
    simp only [pageBytes] at *
    omega

lemma writeChunks_some (fuel cur : Nat) (buf : List UInt8) (hf : buf.length ≤ fuel)
    (hfi : buf = [] ∨ cur+buf.length ≤ pages.length*pageBytes) :
    ∃ pages', writeChunks pages fuel cur buf = some pages' ∧ pages'.length = pages.length ∧
      pageByte pages' = overlay (pageByte pages) cur buf := by
  induction fuel generalizing pages cur buf with
  | zero =>
    have : buf = [] := eq_nil_of_length_eq_zero (by omega)
    exact ⟨pages,rfl,rfl,by simp [this]⟩
  | succ fuel ih =>
    rw [writeChunks]
    by_cases hb : buf = []
    · exact ⟨pages,by simp [hb],rfl,by simp [hb]⟩
    rw [if_neg hb]
    have hfi := hfi.resolve_left hb
    have hl := length_pos_of_ne_nil hb
    have hpo : 0 < pageBytes-cur%pageBytes := by
      simp only [pageBytes]
      omega
    dsimp only
    generalize hc : min buf.length (pageBytes-cur%pageBytes) = chunk
    cases hp : pages[cur/pageBytes]? with
    | none =>
      have := getElem?_eq_none_iff.1 hp
      simp only [pageBytes] at *
      omega
    | some page =>
      have ht : (buf.take chunk).length = chunk := by
        rw [length_take]
        omega
      have hd : (buf.drop chunk).length = buf.length-chunk := length_drop
      have hb1 := pageByte_overlay hp (show (buf.take chunk).length ≤ _ by omega)
      generalize hs : pages.set (cur/pageBytes) (overlay page (cur%pageBytes) (buf.take chunk)) = pages₁ at hb1
      have hl1 : pages₁.length = pages.length := by rw [← hs,length_set]
      have hf1 : cur+chunk+(buf.drop chunk).length ≤ pages₁.length*pageBytes := by
        rw [hd,hl1]
        omega
      obtain ⟨pages',he,hl',hby⟩ := ih (cur+chunk) (buf.drop chunk) (by omega) (.inr hf1)
      refine ⟨pages',by rw [← he,← hs],by rw [hl',hl1],?_⟩
      rw [hby,hb1]
      have := overlay_append (pageByte pages) cur (buf.take chunk) (buf.drop chunk)
      rw [take_append_drop,ht] at this
      exact this.symm

lemma writeChunks_none (fuel cur : Nat) (buf : List UInt8) (hf : buf.length ≤ fuel) (hb : buf ≠ [])
    (hfi : pages.length*pageBytes < cur+buf.length) : writeChunks pages fuel cur buf = none := by
  induction fuel generalizing pages cur buf with
  | zero => exact absurd (eq_nil_of_length_eq_zero (by omega)) hb
  | succ fuel ih =>
    rw [writeChunks,if_neg hb]
    have hpo : 0 < pageBytes-cur%pageBytes := by
      simp only [pageBytes]
      omega
    dsimp only
    generalize hc : min buf.length (pageBytes-cur%pageBytes) = chunk
    cases hp : pages[cur/pageBytes]? with
    | none => rfl
    | some page =>
      obtain ⟨hle,-⟩ := List.getElem?_eq_some_iff.1 hp
      have hd : (buf.drop chunk).length = buf.length-chunk := length_drop
      refine ih (cur+chunk) (buf.drop chunk) (by omega) ?_ (by rw [length_set]; omega)
      intro he
      rw [he] at hd
      simp only [length_nil,pageBytes] at *
      omega

lemma pageByte_append_zero (n : Nat) : pageByte (pages++replicate n (fun _ => 0)) = pageByte pages := by
  funext i
  simp only [pageByte,getElem?_append,getElem?_replicate]
  by_cases hi : i/pageBytes < pages.length
  · simp [hi]
  rw [if_neg hi,getElem?_eq_none (Nat.not_lt.1 hi)]
  by_cases hn : i/pageBytes-pages.length < n <;> simp [hn]

lemma growPages_spec (needed avail : Nat) : growPages pages needed avail =
      (pages++replicate (min (needed-pages.length) avail) (fun _ => 0), decide (needed-pages.length ≤ avail)) := by
  induction avail generalizing pages with
  | zero => simp [growPages,Nat.sub_eq_zero_iff_le]
  | succ avail ih =>
    rw [growPages]
    split
    · next hlt =>
      have hl : (pages++[fun _ => (0 : UInt8)]).length = pages.length+1 := by simp
      have hm : min (needed-pages.length) (avail+1) = min (needed-(pages.length+1)) avail+1 := by omega
      rw [ih,hl,hm,replicate_succ]
      simp only [append_assoc,singleton_append,Prod.mk.injEq,true_and,decide_eq_decide]
      omega
    · next hg =>
      have hz : needed-pages.length = 0 := by omega
      simp [hz]

/-- Every read of the file returns the bytes of `a`. -/
def FileExact (pages : List Page) (size : Nat) (a : ByteFile) : Prop :=
  ∀ off len, fileRead pages size off len = .ok (a.read off len)

lemma fileExact_iff : FileExact pages size a ↔
    size = a.size ∧ size ≤ pages.length*pageBytes ∧ ∀ i < size, pageByte pages i = a.byte i := by
  constructor
  · intro h
    have h := h 0 (size+a.size)
    simp only [fileRead,ByteFile.read,Nat.sub_zero] at h
    rw [show min (size+a.size) size = size by omega,show min (size+a.size) a.size = a.size by omega,
      readChunks_spec _ _ _ (le_refl size)] at h
    by_cases hz : size = 0
    · have hl := congrArg length (Outcome.ok.inj (by simpa [hz] using h : Outcome.ok [] = _))
      simp only [length_nil,window_length] at hl
      exact ⟨by omega,by omega,fun i hi => by omega⟩
    rw [if_neg (by omega)] at h
    by_cases hf : size ≤ pages.length*pageBytes
    · rw [if_pos (.inr (by omega))] at h
      have h := Outcome.ok.inj h
      have hs : size = a.size := by simpa using congrArg length h
      rw [← hs,window_eq_iff] at h
      exact ⟨hs,hf,fun i hi => h i (by omega) (by omega)⟩
    · rw [if_neg (by omega)] at h
      simp at h
  · rintro ⟨hs,hf,hb⟩ off len
    simp only [fileRead,ByteFile.read]
    by_cases ho : off ≥ size
    · rw [if_pos ho,show min len (a.size-off) = 0 by omega,window_zero]
    rw [if_neg ho,readChunks_spec _ _ _ (le_refl _),if_pos (by omega),← hs]
    have hw : window (pageByte pages) off (min len (size-off)) = window a.byte off (min len (size-off)) :=
      window_eq_iff.2 (fun i hi hlt => hb i (by omega))
    rw [hw]

end
end Vanta.Fs
