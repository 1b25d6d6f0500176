import Vanta.Fs.TmpfsFile

namespace Vanta.Fs
open Library List
section
variable {pages : List Page} {size off n : Nat} {buf : List UInt8} {a : ByteFile}

/-- The pages that the rounding of `neededPages` can ask for. -/
def Bounded (pages : List Page) : Prop := pages.length < 2^52

lemma neededPages_lt (stop : Nat) : neededPages stop < 2^52 := by
  have := Nat.mod_lt (stop+4095) (Nat.two_pow_pos 64)
  simp only [neededPages,pageBytes]
  omega

lemma neededPages_of_lt {stop : Nat} (h : stop+4095 < 2^64) : stop ≤ neededPages stop*pageBytes := by
  rw [neededPages,Nat.mod_eq_of_lt h]
  simp only [pageBytes]
  omega

lemma neededPages_wrap {stop : Nat} (h : stop < 2^64) (hw : 2^64 ≤ stop+4095) : neededPages stop = 0 := by
  simp only [neededPages,pageBytes]
  omega

/-- What a `write` needs: an empty one lies inside the size; another does not wrap the page count and finds the gap
before it zero. -/
def SafeWrite (pages : List Page) (size avail off : Nat) (buf : List UInt8) : Prop :=
  off+buf.length < 2^64 → neededPages (off+buf.length)-pages.length ≤ avail →
    if buf = [] then off ≤ size
    else off+buf.length+4095 < 2^64 ∧ ∀ i, size ≤ i → i < off → pageByte pages i = 0

/-- What `truncate` needs: not to grow the file, or to find pages there up to the new size and zeros
in them. -/
def SafeTruncate (pages : List Page) (size n : Nat) : Prop :=
  n ≤ size ∨ (n ≤ pages.length*pageBytes ∧ ∀ i, size ≤ i → i < n → pageByte pages i = 0)

section
variable (h : FileExact pages size a)
include h

lemma fileExact_grow (n : Nat) : FileExact (pages++List.replicate n (fun _ => 0)) size a := by
  obtain ⟨hs,hf,hb⟩ := fileExact_iff.1 h
  refine fileExact_iff.2 ⟨hs,?_,by rwa [pageByte_append_zero]⟩
  simp only [length_append,length_replicate,Nat.add_mul]
  omega

lemma fileExact_overlay_iff {pages' : List Page} (hb : buf ≠ [])
    (hf : off+buf.length ≤ pages'.length*pageBytes) (hl : pages.length ≤ pages'.length)
    (ho : pageByte pages' = overlay (pageByte pages) off buf) :
    FileExact pages' (if off+buf.length > size then off+buf.length else size) (a.write off buf) ↔
      ∀ i, size ≤ i → i < off → pageByte pages i = 0 := by
  obtain ⟨hs,hc,hby⟩ := fileExact_iff.1 h
  have hm := Nat.mul_le_mul_right pageBytes hl
  have hma : (if off+buf.length > size then off+buf.length else size) = (a.write off buf).size := by
    simp only [ByteFile.write,if_neg hb,hs]
    split <;> omega
  rw [fileExact_iff,hma,ho]
  have hw : (a.write off buf).size = max size (off+buf.length) := by
    simp [ByteFile.write,hb,hs]
  constructor
  · rintro ⟨-,-,ha⟩ i hi hlt
    have := ha i (by omega)
    rw [overlay_of_lt hlt,ByteFile.write_byte,overlay_of_lt hlt,a.zero i (by omega)] at this
    exact this
  intro hg
  refine ⟨rfl,by omega,fun i hi => ?_⟩
  simp only [ByteFile.write_byte,overlay]
  split
  · rfl
  by_cases hlt : i < size
  · exact hby i hlt
  · rw [hg i (by omega) (by omega),a.zero i (by omega)]

lemma fileWrite_iff (hbo : Bounded pages) (avail off : Nat) (buf : List UInt8) :
    (match fileWrite pages size avail off buf with
      | (_,.panic) => False
      | ((pages',size'),.err _) => FileExact pages' size' a
      | ((pages',size'),.ok _) => FileExact pages' size' (a.write off buf)) ↔
      SafeWrite pages size avail off buf := by
  unfold fileWrite SafeWrite
  dsimp only
  by_cases hs : off+buf.length < 2^64
  case neg =>
    rw [if_pos (by omega)]
    exact ⟨fun _ hlt => absurd hlt hs,fun _ => h⟩
  rw [if_neg (by omega),growPages_spec]
  by_cases ha : neededPages (off+buf.length)-pages.length ≤ avail
  case neg =>
    simp only [ha,decide_false,false_implies,implies_true,iff_true]
    exact fileExact_grow h _
  simp only [ha,hs,decide_true,true_implies]
  have hg := fileExact_grow h (neededPages (off+buf.length)-pages.length)
  have hm : min (neededPages (off+buf.length)-pages.length) avail =
      neededPages (off+buf.length)-pages.length := by omega
  rw [hm]
  by_cases hb : buf = []
  · subst hb
    obtain ⟨hsi,hf,hby⟩ := fileExact_iff.1 hg
    simp only [length_nil,Nat.add_zero,writeChunks,if_true,ByteFile.write_nil]
    constructor
    · intro hex
      have := (fileExact_iff.1 hex).1
      split at this <;> omega
    · intro hle
      rw [if_neg (by omega)]
      exact hg
  rw [if_neg hb]
  by_cases hw : off+buf.length+4095 < 2^64
  · have hn := neededPages_of_lt hw
    have hl : (pages++List.replicate (neededPages (off+buf.length)-pages.length)
        (fun _ => (0 : UInt8))).length = max pages.length (neededPages (off+buf.length)) := by
      simp only [length_append,length_replicate]
      omega
    have hf : off+buf.length ≤ (pages++List.replicate (neededPages (off+buf.length)-pages.length)
        (fun _ => (0 : UInt8))).length*pageBytes := by
      exact le_trans hn (Nat.mul_le_mul_right _ (by omega))
    obtain ⟨pages',he,hl',ho⟩ := writeChunks_some buf.length off buf (le_refl _) (.inr hf)
    rw [he]
    simp only [hw,true_and]
    rw [pageByte_append_zero] at ho
    exact fileExact_overlay_iff h hb (by rw [hl']; exact hf) (by rw [hl',hl]; omega) ho
  · have hz := neededPages_wrap hs (by omega)
    rw [hz,Nat.zero_sub,replicate_zero,append_nil,writeChunks_none buf.length off buf (le_refl _) hb ?_]
    · exact ⟨False.elim,fun hsa => absurd hsa.1 hw⟩
    · simp only [Bounded,pageBytes] at *
      omega

end

lemma fileWrite_bounded (hbo : Bounded pages) (size avail off : Nat) (buf : List UInt8) :
    Bounded (fileWrite pages size avail off buf).1.1 := by
  have hn := neededPages_lt (off+buf.length)
  have hg : ∀ m, m ≤ neededPages (off+buf.length)-pages.length →
      Bounded (pages++List.replicate m (fun _ => 0)) := by
    intro m hm
    simp only [Bounded,length_append,length_replicate] at *
    omega
  unfold fileWrite
  dsimp only
  split
  · exact hbo
  rw [growPages_spec]
  split
  · next he =>
    obtain ⟨rfl,-⟩ := Prod.mk.inj he
    exact hg _ (by omega)
  next he =>
  obtain ⟨rfl,-⟩ := Prod.mk.inj he
  split
  · exact hg _ (by omega)
  next pages' hw =>
  have hP := hg (min (neededPages (off+buf.length)-pages.length) avail) (by omega)
  by_cases hf : buf = [] ∨ off+buf.length ≤ (pages++List.replicate
      (min (neededPages (off+buf.length)-pages.length) avail) (fun _ => (0 : UInt8))).length*pageBytes
  · obtain ⟨pages'',he,hl,-⟩ := writeChunks_some buf.length off buf (le_refl _) hf
    rw [he,Option.some.injEq] at hw
    subst hw
    rwa [Bounded,hl]
  · obtain ⟨hb,hf⟩ := not_or.1 hf
    rw [writeChunks_none buf.length off buf (le_refl _) hb (by omega)] at hw
    simp at hw

lemma fileTruncate_iff (h : FileExact pages size a) (hb : Bounded pages) :
    FileExact (fileTruncate pages n).1 n (a.truncate n) ↔ SafeTruncate pages size n := by
  obtain ⟨hsi,hf,hby⟩ := fileExact_iff.1 h
  have hma : pages.length*pageBytes+4095 < 2^64 := by
    simp only [Bounded,pageBytes] at *
    omega
  have hl : (fileTruncate pages n).1.length = min pages.length (neededPages n) := by
    unfold fileTruncate
    dsimp only
    split
    · rw [length_take]
      omega
    · omega
  have hk : ∀ i, i/pageBytes < (fileTruncate pages n).1.length →
      pageByte (fileTruncate pages n).1 i = pageByte pages i := by
    intro i hi
    unfold fileTruncate
    dsimp only
    split
    · simp [pageByte,show i/pageBytes < neededPages n by omega]
    · rfl
  rw [fileExact_iff,SafeTruncate]
  -- a count that wraps leaves no page at all
  have hc : n ≤ (fileTruncate pages n).1.length*pageBytes ↔ n ≤ pages.length*pageBytes := by
    rw [hl]
    constructor
    · intro hle
      exact le_trans hle (Nat.mul_le_mul_right _ (by omega))
    intro hle
    have hne := neededPages_of_lt (show n+4095 < 2^64 by omega)
    rcases Nat.le_total pages.length (neededPages n) with hm | hm
    · rw [Nat.min_eq_left hm]
      exact hle
    · rw [Nat.min_eq_right hm]
      exact hne
  have hs : n ≤ (fileTruncate pages n).1.length*pageBytes → ∀ i < n,
      pageByte (fileTruncate pages n).1 i = pageByte pages i := by
    intro hle i hi
    exact hk i (Nat.div_lt_of_lt_mul (by rw [Nat.mul_comm]; omega))
  have ht : ∀ i < n, (a.truncate n).byte i = a.byte i := fun i hi => if_pos hi
  constructor
  · rintro ⟨-,hle,ha⟩
    by_cases hn : n ≤ size
    · exact .inl hn
    · refine .inr ⟨hc.1 hle,fun i hi hlt => ?_⟩
      rw [← hs hle i hlt,ha i hlt,ht i hlt,a.zero i (by omega)]
  intro hsa
  have hle : n ≤ pages.length*pageBytes := by
    rcases hsa with hn | ⟨hn,-⟩
    · omega
    · exact hn
  refine ⟨rfl,hc.2 hle,fun i hi => ?_⟩
  rw [hs (hc.2 hle) i hi,ht i hi]
  by_cases hlt : i < size
  · exact hby i hlt
  rcases hsa with hn | ⟨-,hz⟩
  · omega
  · rw [hz i (by omega) hi,a.zero i (by omega)]

lemma fileTruncate_bounded (hb : Bounded pages) : Bounded (fileTruncate pages n).1 := by
  unfold fileTruncate
  dsimp only
  split
  · simp only [Bounded,length_take] at *
    omega
  · exact hb

end

inductive FileOp where
  | read (offset len : Nat)
  | write (avail offset : Nat) (buf : List UInt8)
  | truncate (size : Nat)

namespace TmpFs
variable (fs : TmpFs)

def fileStep (ino : Nat) : FileOp → Option TmpFs
  | .read offset len =>
    match fs.read ino offset len with
    | .panic => none
    | _ => some fs
  | .write avail offset buf =>
    match fs.write avail ino offset buf with
    | (_,.panic) => none
    | (fs,_) => some fs
  | .truncate size => some (fs.truncate ino size).1

def arrayStep (ino : Nat) (a : ByteFile) : FileOp → ByteFile
  | .read _ _ => a
  | .write avail offset buf =>
    match (fs.write avail ino offset buf).2 with
    | .ok _ => a.write offset buf
    | _ => a
  | .truncate size => a.truncate size

def Exact (ino : Nat) (a : ByteFile) : Prop := ∀ off len, fs.read ino off len = .ok (a.read off len)

/-- No call of the run panics, and in every state of it every read returns the bytes of the array. -/
def Faithful (fs : TmpFs) (ino : Nat) (a : ByteFile) : List FileOp → Prop
  | [] => fs.Exact ino a
  | op::ops => fs.Exact ino a ∧ ∃ fs', fs.fileStep ino op = some fs' ∧ Faithful fs' ino (fs.arrayStep ino a op) ops

def Safe (ino : Nat) (op : FileOp) : Prop :=
  match fs.nodes ino with
  | some (.file pages size) =>
    match op with
    | .read _ _ => True
    | .write avail offset buf => SafeWrite pages size avail offset buf
    | .truncate n => SafeTruncate pages size n
  | _ => True

def SafeRun (fs : TmpFs) (ino : Nat) : List FileOp → Prop
  | [] => True
  | op::ops => fs.Safe ino op ∧ ∀ fs', fs.fileStep ino op = some fs' → SafeRun fs' ino ops

variable {fs : TmpFs} {ino : Nat} {a : ByteFile}
variable {pages : List Page} {size : Nat}

lemma update_exact : TmpFs.Exact ⟨Function.update fs.nodes ino (some (.file pages size))⟩ ino a ↔
      FileExact pages size a := by
  simp [Exact,FileExact,read]

lemma exact_iff (h : fs.nodes ino = some (.file pages size)) : fs.Exact ino a ↔ FileExact pages size a := by
  simp [Exact,FileExact,read,h]

lemma step_iff (hn : fs.nodes ino = some (.file pages size)) (hb : Bounded pages) (h : fs.Exact ino a) (op : FileOp) :
    ((∃ fs', fs.fileStep ino op = some fs' ∧ fs'.Exact ino (fs.arrayStep ino a op)) ↔ fs.Safe ino op) ∧
      ∀ fs', fs.fileStep ino op = some fs' →
        ∃ pages' size', fs'.nodes ino = some (.file pages' size') ∧ Bounded pages' := by
  have hf := (exact_iff hn).1 h
  cases op with
  | read offset len =>
    have hr : fs.fileStep ino (.read offset len) = some fs := by simp [fileStep,h offset len]
    simp only [hr,Safe,hn,arrayStep]
    refine ⟨by simp [h],?_⟩
    intro fs' he
    exact ⟨pages,size,by rw [← Option.some.inj he,hn],hb⟩
  | write avail offset buf =>
    have hi := fileWrite_iff hf hb avail offset buf
    have hbo := fileWrite_bounded hb size avail offset buf
    simp only [fileStep,arrayStep,write,Safe,hn]
    rw [← hi]
    generalize fileWrite pages size avail offset buf = r at hbo
    obtain ⟨⟨pages',size'⟩,out⟩ := r
    cases out with
    | panic => simp
    | err e | ok v => simpa [update_exact] using hbo
  | truncate n =>
    simp only [fileStep,arrayStep,truncate,Safe,hn]
    have hs : fileTruncate pages n = ((fileTruncate pages n).1,n) := rfl
    rw [← fileTruncate_iff hf hb,hs]
    simp [update_exact,fileTruncate_bounded hb]

lemma faithful_iff (hn : fs.nodes ino = some (.file pages size))
    (hb : Bounded pages) (h : fs.Exact ino a) (ops : List FileOp) : Faithful fs ino a ops ↔ SafeRun fs ino ops := by
  induction ops generalizing fs a pages size with
  | nil => simp [Faithful,SafeRun,h]
  | cons op ops ih =>
    obtain ⟨hi,hf⟩ := step_iff hn hb h op
    simp only [Faithful,SafeRun,h,true_and]
    constructor
    · rintro ⟨fs',hs,hr⟩
      have he : fs'.Exact ino (fs.arrayStep ino a op) := by
        cases ops with
        | nil => exact hr
        | cons op' ops => exact hr.1
      obtain ⟨pages',size',hn',hb'⟩ := hf fs' hs
      refine ⟨hi.1 ⟨fs',hs,he⟩,fun fs'' hs' => ?_⟩
      cases hs.symm.trans hs'
      exact (ih hn' hb' he).1 hr
    · rintro ⟨hsa,hru⟩
      obtain ⟨fs',hs,he⟩ := hi.2 hsa
      obtain ⟨pages',size',hn',hb'⟩ := hf fs' hs
      exact ⟨fs',hs,(ih hn' hb' he).2 (hru fs' hs)⟩

/-- A file is exact through a whole run exactly when every call of the run is safe in the state it finds. -/
theorem tmpfs_file_exact_iff_safe (fs : TmpFs) (ino : Nat) (ops : List FileOp) :
    Faithful (fs.createFile ino) ino .empty ops ↔ SafeRun (fs.createFile ino) ino ops := by
  have he : FileExact [] 0 .empty := fileExact_iff.2 ⟨rfl,Nat.zero_le _,fun i hi => by omega⟩
  have hn : (fs.createFile ino).nodes ino = some (.file [] 0) := by simp [createFile]
  exact faithful_iff hn (Nat.two_pow_pos 52) (update_exact.2 he) ops

/-- A file grown by a byte cannot be read; cut and grown again it shows its old byte; an empty write beyond the end
makes it longer. -/
theorem tmpfs_file_not_exact :
    let fs : TmpFs := TmpFs.createFile ⟨fun _ => none⟩ 2
    let two := (fs.write 1 2 0 [7,7]).1
    ¬Faithful fs 2 .empty [.truncate 1] ∧ (fs.truncate 2 1).1.read 2 0 1 = .panic ∧
      ((two.truncate 2 1).1.truncate 2 2).1.read 2 0 2 = .ok [7,7] ∧
      ((two.truncate 2 1).1.write 1 2 2 [5]).1.read 2 0 3 = .ok [7,7,5] ∧
      (fs.write 1 2 3 []).1.read 2 0 9 = .ok [0,0,0] := by
  refine ⟨?_,by decide,by decide,by decide,by decide⟩
  rintro ⟨-,fs',hs,he⟩
  have hr := he 0 1
  rw [← Option.some.inj hs] at hr
  exact absurd hr (by decide)

end TmpFs
end Vanta.Fs
