import Mathlib.Data.List.Sort
import Mathlib.Algebra.GroupWithZero.Nat
import Vanta.Fs.Canonicalize

namespace Vanta.Fs
open List

/-- `str::len` -/
def byteLength (s : Text) : Nat := (s.map Char.utf8Size).sum

structure Mounts where
  nextId : Nat
  mounts : MountTable

inductive MountCall where
  | mount (target : Text) (fs : Tree) (flags : BitVec 32)
  | umount (target : Text)

def MountCall.target : MountCall → Text
  | .mount target _ _ => target
  | .umount target => target

def Longer (a b : Mount) : Prop := byteLength b.target ≤ byteLength a.target

instance : DecidableRel Longer := fun _ _ => inferInstanceAs (Decidable (_ ≤ _))
instance : IsTrans Mount Longer := ⟨fun _ _ _ h h' => Nat.le_trans h' h⟩
instance : Std.Total Longer := ⟨fun _ _ => Nat.le_total _ _⟩

namespace Mounts
variable (s : Mounts)

def mount (target : Text) (fs : Tree) (flags : BitVec 32) : Mounts × Except VfsError Unit :=
  let norm := normalizeMountTarget target
  let m : Mount := ⟨s.nextId,norm,fs,flags⟩
  let nextId := (s.nextId+1)%2^64
  match s.mounts.findIdx? (·.target = norm) with
  | some pos =>
    if flags &&& 32 ≠ 0 ∨ norm = ['/'] then (⟨nextId,s.mounts.set pos m⟩,.ok ()) else (s,.error .alreadyExists)
  | none =>
    (⟨nextId,(s.mounts++[m]).insertionSort Longer⟩,.ok ())

def umount (target : Text) : Mounts × Except VfsError Unit :=
  let norm := normalizeMountTarget target
  if norm = ['/'] then (s,.error .invalidPath)
  else
    match s.mounts.findIdx? (·.target = norm) with
    | some pos => ({s with mounts := s.mounts.eraseIdx pos},.ok ())
    | none => (s,.error .notFound)

def call : MountCall → Mounts
  | .mount target fs flags => (s.mount target fs flags).1
  | .umount target => (s.umount target).1

def after (calls : List MountCall) : Mounts := calls.foldl call ⟨1,[]⟩

end Mounts

variable (target path : Text)

/-- The path goes on below the target at a component boundary. -/
def Below : Prop := target <+: path ∧ (path.drop target.length = [] ∨ (path.drop target.length).head? = some '/')

def Covers : Prop := target = ['/'] ∨ Below target path

def remainder : Text := (if target = ['/'] then path else path.drop target.length).dropWhile (· = '/')

/-- The mount with the longest target above the path. -/
def Selects (t : MountTable) (path : Text) : Except VfsError (Mount × Text) → Prop
  | .ok (m,rel) => m ∈ t ∧ Covers m.target path ∧ rel = remainder m.target path ∧
      ∀ m' ∈ t, Covers m'.target path → m'.target.length ≤ m.target.length
  | .error e => e = .notMounted ∧ ∀ m ∈ t, ¬Covers m.target path

structure Mounts.Sound (s : Mounts) : Prop where
  sorted : (s.mounts.map (·.target)).Pairwise fun a b => byteLength b ≤ byteLength a
  targets : (s.mounts.map (·.target)).Nodup
  written : [] ∉ s.mounts.map (·.target)
  ids : (s.mounts.map (·.id)).Nodup
  fresh : ∀ m ∈ s.mounts, m.id < s.nextId

variable {path : Text}

lemma under_eq {m : Mount} {r : Mount × Text} : MountTable.under path m = some r ↔
      m.target ≠ ['/'] ∧ Below m.target path ∧ r = (m,remainder m.target path) := by
  rw [MountTable.under,Below,remainder]
  split_ifs with hr he hp
  · simp [hr]
  · simp [he,hr,eq_comm]
  · rw [ isPrefixOf_iff_prefix] at hp
    obtain ⟨rest,rfl⟩ := hp
    have hre : rest ≠ [] := fun h => he (by simp [h])
    simp only [drop_left,prefix_append,hre]
    split_ifs with hs <;> simp [hs,hr,eq_comm]
  · rw [ isPrefixOf_iff_prefix] at hp
    simp [hp]

lemma length_le_of_byteLength {a b : Text} (ha : a <+: path) (hb : b <+: path)
    (h : byteLength b ≤ byteLength a) : b.length ≤ a.length := by
  by_contra hl
  obtain ⟨rest,rfl⟩ := prefix_of_prefix_length_le ha hb (by omega)
  cases rest with
  | nil => simp at hl
  | cons x rest =>
    have hx := x.utf8Size_pos
    simp only [byteLength,map_append,map_cons,sum_append,sum_cons] at h
    omega

lemma Mounts.Sound.selects {s : Mounts} (h : s.Sound) (hp : path ≠ []) :
    Selects s.mounts path (s.mounts.resolve path) := by
  simp only [MountTable.resolve,if_neg hp]
  cases hf : s.mounts.findSome? (MountTable.under path) with
  | some r =>
    obtain ⟨l1,m,l2,hl,hu,hn⟩ := findSome?_eq_some_iff.1 hf
    obtain ⟨hro,hb,rfl⟩ := under_eq.1 hu
    have hm : m ∈ s.mounts := by simp [hl]
    refine ⟨hm,.inr hb,rfl,fun m' hm' hc => ?_⟩
    by_cases hr : m'.target = ['/']
    · have hne : m.target ≠ [] := fun he => h.written (mem_map.2 ⟨m,hm,he⟩)
      simpa [hr,Nat.one_le_iff_ne_zero] using hne
    have hc := hc.resolve_left hr
    have hs := h.sorted
    rw [hl] at hm' hs
    rcases mem_append.1 hm' with hm' | hm'
    · have hn := hn m' hm'
      rw [under_eq.2 ⟨hr,hc,rfl⟩] at hn
      cases hn
    rcases mem_cons.1 hm' with rfl | hm'
    · exact le_rfl
    · rw [map_append,map_cons,pairwise_append,pairwise_cons] at hs
      exact length_le_of_byteLength hb.1 hc.1 (hs.2.1.1 _ (mem_map_of_mem hm'))
  | none =>
    rw [findSome?_eq_none_iff] at hf
    have hro : ∀ m ∈ s.mounts, Covers m.target path → m.target = ['/'] := by
      intro m hm hc
      by_contra hr
      have hn := hf m hm
      rw [under_eq.2 ⟨hr,hc.resolve_left hr,rfl⟩] at hn
      cases hn
    cases hr : s.mounts.find? (fun m => m.target = ['/']) with
    | none =>
      rw [find?_eq_none] at hr
      exact ⟨rfl,fun m hm hc => hr m hm (by simp [hro m hm hc])⟩
    | some m =>
      have ht : m.target = ['/'] := by simpa using find?_some hr
      refine ⟨mem_of_find?_eq_some hr,.inl ht,by simp [remainder,ht],fun m' hm' hc => ?_⟩
      rw [hro m' hm' hc,ht]

namespace Mounts
variable {s : Mounts}

lemma findIdx_target {norm : Text} {pos : Nat} (h : s.mounts.findIdx? (·.target = norm) = some pos) :
    ∃ hp : pos < s.mounts.length, s.mounts[pos].target = norm := by
  obtain ⟨hp,ht,-⟩ := findIdx?_eq_some_iff_getElem.1 h
  exact ⟨hp,by simpa using ht⟩

variable {target : Text}

lemma Sound.mount (h : s.Sound) (hid : s.nextId+1 < 2^64) (ht : target ≠ [])
    (hn : normalizeMountTarget target = target) (fs : Tree) (flags : BitVec 32) : let s' := (s.mount target fs flags).1
    s'.Sound ∧ s.nextId ≤ s'.nextId ∧ s'.nextId ≤ s.nextId+1 ∧ ∀ m ∈ s'.mounts, m ∈ s.mounts ∨ m.id = s.nextId := by
  have hne : s.nextId ∉ s.mounts.map (·.id) := fun hm => by
    obtain ⟨m,hm,he⟩ := mem_map.1 hm
    have hlt := h.fresh m hm
    omega
  simp only [Mounts.mount,hn,Nat.mod_eq_of_lt hid]
  have hf : ∀ l : List Mount, (∀ m ∈ l, m ∈ s.mounts ∨ m.id = s.nextId) → ∀ m ∈ l, m.id < s.nextId+1 := by
    intro l hl m hm
    rcases hl m hm with hm | hm
    · exact Nat.lt_succ_of_lt (h.fresh m hm)
    · omega
  split
  · next pos hpo =>
    obtain ⟨hp,hta⟩ := findIdx_target hpo
    split_ifs
    swap
    · exact ⟨h,le_rfl,Nat.le_succ _,fun m hm => .inl hm⟩
    have hme : ∀ m ∈ s.mounts.set pos ⟨s.nextId,target,fs,flags⟩, m ∈ s.mounts ∨ m.id = s.nextId := fun m hm =>
      (mem_or_eq_of_mem_set hm).imp_right fun he => by rw [he]
    have hs : (s.mounts.set pos ⟨s.nextId,target,fs,flags⟩).map (·.target) = s.mounts.map (·.target) := by
      rw [map_set]
      refine ext_getElem (by simp) fun i _ hi => ?_
      rw [getElem_set]
      split_ifs with he
      · simp [← he,hta]
      · rfl
    refine ⟨⟨hs ▸ h.sorted,hs ▸ h.targets,hs ▸ h.written,?_,hf _ hme⟩,Nat.le_succ _,le_rfl,hme⟩
    rw [map_set]
    exact h.ids.set hne
  · next hpo =>
    have hpe := (perm_insertionSort Longer _).trans (perm_append_singleton ⟨s.nextId,target,fs,flags⟩ s.mounts)
    have hme : ∀ m ∈ insertionSort Longer (s.mounts++[⟨s.nextId,target,fs,flags⟩]),
        m ∈ s.mounts ∨ m.id = s.nextId := by
      intro m hm
      rcases mem_cons.1 (hpe.mem_iff.1 hm) with rfl | hm
      · exact .inr rfl
      · exact .inl hm
    have hnot : target ∉ s.mounts.map (·.target) := fun hm => by
      obtain ⟨m,hm,he⟩ := mem_map.1 hm
      have hno := findIdx?_eq_none_iff.1 hpo m hm
      simp [he] at hno
    refine ⟨⟨?_,?_,?_,?_,hf _ hme⟩,Nat.le_succ _,le_rfl,hme⟩
    · exact pairwise_map.2 (pairwise_insertionSort Longer _)
    · rw [(hpe.map _).nodup_iff]
      exact nodup_cons.2 ⟨hnot,h.targets⟩
    · rw [(hpe.map _).mem_iff]
      exact not_mem_cons_of_ne_of_not_mem ht.symm h.written
    · rw [(hpe.map _).nodup_iff]
      exact nodup_cons.2 ⟨hne,h.ids⟩

lemma eraseP_target {l : List Mount} (h : (l.map (·.target)).Nodup) (target : Text) :
    l.eraseP (·.target = target) = l.filter (·.target ≠ target) := by
  induction l with
  | nil => rfl
  | cons m l ih =>
    obtain ⟨hm,h⟩ := nodup_cons.1 h
    by_cases he : m.target = target
    · have ha : l.filter (·.target ≠ target) = l :=
        filter_eq_self.2 fun m' hm' => by simpa [← he] using fun hs => hm (mem_map.2 ⟨m',hm',hs⟩)
      rw [eraseP_cons_of_pos (by simpa using he),filter_cons_of_neg (by simpa using he),ha]
    · rw [eraseP_cons_of_neg (by simpa using he),filter_cons_of_pos (by simpa using he),ih h]

lemma Sound.umount (h : s.Sound) (hn : normalizeMountTarget target = target) : (s.umount target).1 =
      if target = ['/'] then s else {s with mounts := s.mounts.filter (·.target ≠ target)} := by
  have he : s.mounts.eraseP (·.target = target) = _ := eraseP_eq_eraseIdx
  rw [eraseP_target h.targets] at he
  simp only [Mounts.umount,hn]
  split_ifs with hr
  · rfl
  rw [he]
  split <;> next hp => simp [hp]

lemma Sound.filter (h : s.Sound) (p : Mount → Bool) : Sound {s with mounts := s.mounts.filter p} := by
  have hs : s.mounts.filter p <+ s.mounts := filter_sublist
  exact ⟨h.sorted.sublist (hs.map _),h.targets.sublist (hs.map _),fun hm => h.written ((hs.map _).subset hm),
    h.ids.sublist (hs.map _),fun m hm => h.fresh m (hs.subset hm)⟩

def Plain (target : Text) : Prop := IsCanonical target ∧ Tidy target

lemma normalize_plain (h : Plain target) : normalizeMountTarget target = target ∧ target ≠ [] := by
  obtain ⟨rfl | ⟨hh,hl,-⟩,ht⟩ := h
  · exact ⟨by decide,by decide⟩
  · exact ⟨normalizeMountTarget_self hh hl ht,fun he => by simp [he] at hh⟩

lemma Sound.call (h : s.Sound) (hi : s.nextId+1 < 2^64) {c : MountCall} (hc : Plain c.target) :
    (s.call c).Sound ∧ s.nextId ≤ (s.call c).nextId ∧ (s.call c).nextId ≤ s.nextId+1 ∧
      ∀ m ∈ (s.call c).mounts, m ∈ s.mounts ∨ m.id = s.nextId := by
  obtain ⟨hn,hne⟩ := normalize_plain hc
  cases c with
  | mount target fs flags => exact h.mount hi hne hn fs flags
  | umount target =>
    rw [MountCall.target] at hn
    rw [Mounts.call,h.umount hn]
    split_ifs
    · exact ⟨h,le_rfl,Nat.le_succ _,fun m hm => .inl hm⟩
    · exact ⟨h.filter _,le_rfl,Nat.le_succ _,fun m hm => .inl (mem_of_mem_filter hm)⟩

lemma Sound.run {calls : List MountCall} (h : s.Sound) (hi : s.nextId+calls.length < 2^64)
    (hc : ∀ c ∈ calls, Plain c.target) : let s' := calls.foldl Mounts.call s
    s'.Sound ∧ s'.nextId ≤ s.nextId+calls.length ∧ ∀ m ∈ s'.mounts, m ∈ s.mounts ∨ s.nextId ≤ m.id := by
  induction calls generalizing s with
  | nil => exact ⟨h,le_rfl,fun m hm => .inl hm⟩
  | cons c calls ih =>
    obtain ⟨hc,hcs⟩ := forall_mem_cons.1 hc
    rw [length_cons] at hi ⊢
    obtain ⟨h',hl,hl',hs⟩ := h.call (by omega) hc
    obtain ⟨hr,hn,hre⟩ := ih h' (by omega) hcs
    refine ⟨hr,by rw [foldl_cons]; omega,fun m hm => ?_⟩
    rcases hre m hm with hm | hm
    · exact (hs m hm).imp_right fun he => he.ge
    · exact .inr (hl.trans hm)

theorem mount_selection (calls : List MountCall) (hc : ∀ c ∈ calls, Plain c.target) (hid : calls.length+1 < 2^64) :
    let s := after calls
    (∀ path, path.head? = some '/' → Selects s.mounts path (s.mounts.resolve path)) ∧
      (∀ target, Plain target → (s.umount target).1.mounts =
        if target = ['/'] then s.mounts else s.mounts.filter (·.target ≠ target)) ∧
      ∀ earlier later, calls = earlier++later → ∀ m ∈ (after earlier).mounts, ∀ m' ∈ s.mounts, m.id = m'.id → m = m' := by
  have hst : Sound ⟨1,[]⟩ := ⟨.nil,.nil,not_mem_nil,.nil,fun _ h => absurd h not_mem_nil⟩
  obtain ⟨h,-,-⟩ := hst.run (by simp only; omega) hc
  refine ⟨fun path hp => h.selects fun he => by simp [he] at hp,fun target ht => ?_,?_⟩
  · rw [after,h.umount (normalize_plain ht).1]
    split_ifs <;> rfl
  rintro earlier later rfl m hm m' hm' he
  rw [length_append] at hid
  obtain ⟨ha,hb⟩ := forall_mem_append.1 hc
  obtain ⟨hs,hn,-⟩ := hst.run (by simp only; omega) ha
  simp only at hn
  obtain ⟨-,-,hl⟩ := hs.run (by omega) hb
  rw [after,foldl_append] at hm'
  rcases hl m' hm' with ho | ho
  · exact inj_on_of_nodup_map hs.ids hm ho he
  · have hlt := hs.fresh m hm
    omega

theorem mount_selection_two : Selects (after [.mount ['/'] linkTree 0,.mount ['/','d'] linkTree 0]).mounts ['/','d']
    ((after [.mount ['/'] linkTree 0,.mount ['/','d'] linkTree 0]).mounts.resolve ['/','d']) := by
  refine (mount_selection _ ?_ (by decide)).1 _ rfl
  simp only [forall_mem_cons,MountCall.target]
  exact ⟨⟨.inl rfl,by decide⟩,⟨.inr (by decide),by decide⟩,by simp⟩

/-- A target that ends in a blank is mounted, and unmounted, without it. -/
theorem blank_target_trimmed :
    let s := after [.mount ['/'] linkTree 0,.mount ['/','d',' '] linkTree 0]
    (s.mounts.resolve ['/','d',' ']).toOption.map (·.1.id) = some 1 ∧
      ((after [.mount ['/','d'] linkTree 0]).umount ['/','d',' ']).1.mounts.map (·.target) = [] := by
  decide +kernel

end Mounts
end Vanta.Fs
