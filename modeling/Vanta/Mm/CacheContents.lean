import Vanta.Mm.PageCache
import Vanta.Mm.Reclaim

namespace Vanta.Mm
open Library Memory Fs Kernel Function List OrdMap

def PageKey.inode (key : PageKey) : Nat × Nat := (key.mountId,key.ino)

def PageKey.offset (key : PageKey) (i : Nat) : Nat := key.pageIndex*pageSize+i

lemma PageKey.eq_of_offset {a b : PageKey} {i j : Nat} (hi : i < pageSize) (hj : j < pageSize)
    (hin : a.inode = b.inode) (ho : a.offset i = b.offset j) : a = b := by
  simp only [PageKey.inode,PageKey.offset,pageSize,Prod.mk.injEq] at *
  have hp : a.pageIndex = b.pageIndex := by omega
  cases a
  cases b
  simp_all

def Kernel.Dirty (k : Kernel) (key : PageKey) : Prop := ∃ e, k.cache.entries.get key = some e ∧ e.dirty = true

/-- Cached pages hold the bytes of their file, the disk those of the pages that are not dirty, and a cached
frame has no other user. -/
structure Contents (k : Kernel) (b : Nat × Nat → Nat → UInt8) : Prop where
  cached : ∀ key e, k.cache.entries.get key = some e → ∀ i, i < pageSize → k.mem e.frame i = b key.inode (key.offset i)
  clean : ∀ key, (∀ e, k.cache.entries.get key = some e → e.dirty = false) → ∀ i, i < pageSize →
    (k.files key.inode).byte (key.offset i) = b key.inode (key.offset i)
  alone : ∀ key e, k.cache.entries.get key = some e → k.frames.refcounts e.frame ≤ 1

section
variable {c : Scope} {p : Prop} {n : Nat} {k k' : Kernel} {hand : List Nat} {b b' : Nat × Nat → Nat → UInt8}
  {key : PageKey} {e : PageEntry} {f : Nat}

lemma Contents.quiet (hb : Contents k b) (hq : Quiet c p n k k') : Contents k' b where
  cached := fun key e he => by
    rw [hq.mem]
    exact hb.cached key e (hq.cached key e he)
  clean := fun key hc => by
    rw [hq.files]
    refine hb.clean key (fun e he => ?_)
    cases hd : e.dirty with
    | false => rfl
    | true => rw [← hd,hc e (hq.dirty key e he hd)]
  alone := fun key e he => by
    have := hb.alone key e (hq.cached key e he)
    have := hq.count e.frame
    omega

lemma Contents.congr (hb : Contents k b) (hm : k'.mem = k.mem) (hfi : k'.files = k.files)
    (he : k'.cache.entries = k.cache.entries) (hf : k'.frames = k.frames) : Contents k' b where
  cached := by
    rw [he,hm]
    exact hb.cached
  clean := by
    rw [he,hfi]
    exact hb.clean
  alone := by
    rw [he,hf]
    exact hb.alone

lemma Contents.frame_inj (hb : Contents k b) (h : Owned c k hand) {key' : PageKey} {e' : PageEntry}
    (he : k.cache.entries.get key = some e) (he' : k.cache.entries.get key' = some e') (hf : e'.frame = e.frame) :
    key' = key := by
  have ho : Holds c k (.cached key) e.frame := ⟨e,he,rfl⟩
  have ho' : Holds c k (.cached key') e.frame := ⟨e',he',hf⟩
  have := h.counted.unique (hb.alone key e he) ho' ho
  simpa using this

def SameElsewhere (key : PageKey) (b b' : Nat × Nat → Nat → UInt8) : Prop :=
  ∀ key' i, key' ≠ key → i < pageSize → b' key'.inode (key'.offset i) = b key'.inode (key'.offset i)

lemma Contents.store (hb : Contents k b) (h : Owned c k hand) (he : k.cache.entries.get key = some e)
    (hd : e.dirty = true) {g : Nat → UInt8} (hg : ∀ i, i < pageSize → g i = b' key.inode (key.offset i))
    (hs : SameElsewhere key b b') : Contents {k with mem := update k.mem e.frame g} b' where
  cached := fun key' e' he' i hi => by
    by_cases hk : key' = key
    · subst hk
      rw [he] at he'
      cases he'
      simpa using hg i hi
    · have hn : e'.frame ≠ e.frame := fun hf => hk (hb.frame_inj h he he' hf)
      rw [hs key' i hk hi]
      simpa [hn] using hb.cached key' e' he' i hi
  clean := fun key' hc i hi => by
    have hk : key' ≠ key := by
      rintro rfl
      have := hc e he
      simp [hd] at this
    rw [hs key' i hk hi]
    exact hb.clean key' hc i hi
  alone := hb.alone

lemma Contents.insert (hb : Contents k b) (h : Owned c k (f::hand)) (ho : k.frames.refcounts f = 1)
    (hn : k.cache.entries.get key = none) {g : Nat → UInt8}
    (hg : ∀ i, i < pageSize → g i = b' key.inode (key.offset i)) (hs : SameElsewhere key b b') (dirty : Bool)
    (hd : dirty = false → b' = b) (valid : Nat) :
    Contents (({k with mem := update k.mem f g} : Kernel).insertPage key f dirty valid) b' where
  cached := fun key' e' he' i hi => by
    simp only [insertPage,get_insert] at he'
    split_ifs at he' with hk
    · subst hk
      cases he'
      simpa [insertPage] using hg i hi
    have hh : Holds c k (.cached key') e'.frame := ⟨e',he',rfl⟩
    have hne : e'.frame ≠ f := by
      rintro rfl
      exact h.counted.unheld (le_of_eq ho) (by simp) hh
    rw [hs key' i hk hi]
    simpa [insertPage,hne] using hb.cached key' e' he' i hi
  clean := fun key' hc i hi => by
    simp only [insertPage,get_insert] at hc
    by_cases hk : key' = key
    · subst hk
      rw [hd (hc _ (if_pos rfl))]
      exact hb.clean key' (fun e' he' => by simp [hn] at he') i hi
    · rw [hs key' i hk hi]
      exact hb.clean key' (by simpa [hk] using hc) i hi
  alone := fun key' e' he' => by
    simp only [insertPage,get_insert] at he'
    split_ifs at he' with hk
    · cases he'
      exact le_of_eq ho
    · exact hb.alone key' e' he'

variable {g : PageEntry → PageEntry}

lemma Contents.modify (hb : Contents k b) (hf : ∀ e, (g e).frame = e.frame)
    (hc : ∀ e, k.cache.entries.get key = some e → (g e).dirty = false → e.dirty = true → ∀ i, i < pageSize →
      (k.files key.inode).byte (key.offset i) = b key.inode (key.offset i)) : Contents (k.modifyEntry key g) b where
  cached := fun key' e' he' i hi => by
    simp only [modifyEntry,get_modify] at he'
    split_ifs at he' with hk
    · subst hk
      obtain ⟨e,he,rfl⟩ := Option.map_eq_some_iff.1 he'
      rw [hf e]
      exact hb.cached key' e he i hi
    · exact hb.cached key' e' he' i hi
  clean := fun key' hc' i hi => by
    simp only [modifyEntry,get_modify] at hc'
    by_cases hk : key' = key
    · subst hk
      simp only [if_true,Option.map_eq_some_iff,forall_exists_index,and_imp,forall_apply_eq_imp_iff₂] at hc'
      cases he : k.cache.entries.get key' with
      | none => exact hb.clean key' (by simp [he]) i hi
      | some e =>
        cases hd : e.dirty with
        | false => exact hb.clean key' (by simp [he,hd]) i hi
        | true => exact hc e he (hc' e he) hd i hi
    · exact hb.clean key' (by simpa [hk] using hc') i hi
  alone := fun key' e' he' => by
    simp only [modifyEntry,get_modify] at he'
    split_ifs at he' with hk
    · subst hk
      obtain ⟨e,he,rfl⟩ := Option.map_eq_some_iff.1 he'
      rw [hf e]
      exact hb.alone key' e he
    · exact hb.alone key' e' he'

lemma Quiet.dirty_of (hq : Quiet c p n k k') (hd : k'.Dirty key) : k.Dirty key := by
  obtain ⟨e,he,hd⟩ := hd
  exact ⟨e,hq.cached key e he,hd⟩

lemma Kernel.modifyEntry_dirty {key' : PageKey} (hd : (k.modifyEntry key g).Dirty key')
    (hg : ∀ e, (g e).dirty = true → e.dirty = true) : k.Dirty key' := by
  obtain ⟨e,he,hd⟩ := hd
  simp only [modifyEntry,get_modify] at he
  split_ifs at he with hk
  · obtain ⟨e0,he0,rfl⟩ := Option.map_eq_some_iff.1 he
    exact ⟨e0,hk ▸ he0,hg e0 hd⟩
  · exact ⟨e,he,hd⟩

lemma Contents.hit (hb : Contents k b) (key : PageKey)
    (hf : ∀ e, (g e).frame = e.frame) (hdi : ∀ e, e.dirty = true → (g e).dirty = true) :
    Contents (k.modifyEntry key g).countHit b := by
  have hm : Contents (k.modifyEntry key g) b := hb.modify hf (fun e _ hc hd => by
    rw [hdi e hd] at hc
    cases hc)
  exact hm.congr rfl rfl rfl rfl

lemma Owned.setMem (h : Owned c k hand) (mem : Nat → Nat → UInt8) : Owned c {k with mem := mem} hand :=
  h.congr rfl rfl (fun _ => rfl) h.tracked

lemma Owned.insertPage (h : Owned c k (f::hand)) (key : PageKey) (dirty : Bool) (valid : Nat) :
    Owned c (k.insertPage key f dirty valid) hand := by
  refine h.recache (h.counted.put (u := .cached key) (fun u g hn hu => ?_) (fun g hu => ?_))
  · cases u with
    | cached key' =>
      obtain ⟨e,he,hf⟩ := hu
      have hk : key' ≠ key := fun heq => hn (by rw [heq])
      simp only [get_insert,if_neg hk] at he
      exact ⟨e,he,hf⟩
    | table s path | page s v => exact hu
  · obtain ⟨e,he,hf⟩ := hu
    simp only [get_insert,if_true,Option.some.injEq] at he
    rw [← hf,← he]

lemma Owned.modifyEntry (h : Owned c k hand) (key : PageKey)
    (hf : ∀ e, (g e).frame = e.frame) : Owned c (k.modifyEntry key g) hand := by
  refine h.congr rfl rfl (fun key' => ?_) h.tracked
  simp only [Kernel.modifyEntry,get_modify]
  split_ifs with hk
  · subst hk
    rw [Option.map_map]
    congr 1
    funext e
    exact hf e
  · rfl

lemma Owned.hit (h : Owned c k hand) (key : PageKey)
    (hf : ∀ e, (g e).frame = e.frame) : Owned c (k.modifyEntry key g).countHit hand :=
  (h.modifyEntry key hf).congr rfl rfl (fun _ => rfl) h.tracked

end
namespace Kernel
section
variable {c : Scope} {p : Prop} {n : Nat} {k k' : Kernel} {hand batch batch' : List Nat}
  {b : Nat × Nat → Nat → UInt8} {mountId ino page : Nat}

lemma allocBatch_spec (h : Owned c k (batch++hand)) (ho : ∀ f ∈ batch, k.frames.refcounts f = 1)
    (hru : allocBatch n k batch = (k',batch')) :
    Quiet c (k.Pressed n) n k k' ∧ Owned c k' (batch'++hand) ∧ (∀ f ∈ batch', k'.frames.refcounts f = 1) ∧
      batch.length ≤ batch'.length ∧ batch'.length ≤ batch.length+n ∧
      (0 < n → batch' = [] → k.frames.freeFrames = 0) := by
  induction n generalizing k batch with
  | zero =>
    cases hru
    exact ⟨.refl _ _ _,h,ho,le_refl _,le_refl _,fun hpo => absurd hpo (by omega)⟩
  | succ n ih =>
    rw [allocBatch] at hru
    rcases ha : k.allocFrame with ⟨k1,r⟩
    obtain ⟨hq1,hr⟩ := allocFrame_spec h ha
    cases r with
    | none =>
      simp only [ha] at hru
      cases hru
      refine ⟨hq1.mono (fun hp => hp.mono (by omega)) (by omega),hr.1,fun f hf => ?_,le_refl _,by omega,fun _ _ => hr.2⟩
      have := hr.1.counted.hand_pos (mem_append_left hand hf)
      have := hq1.count f
      have := ho f hf
      omega
    | some frame =>
      simp only [ha] at hru
      obtain ⟨h1,hon⟩ := hr
      have h1' : Owned c k1 ((batch++[frame])++hand) := h1.forget (fun f => by
        simp only [count_append,count_cons,count_nil]
        omega)
      have ho1 : ∀ f ∈ batch++[frame], k1.frames.refcounts f = 1 := by
        intro f hf
        rcases mem_append.1 hf with hf | hf
        · have := h1'.counted.hand_pos (mem_append_left hand (mem_append_left [frame] hf))
          have := hq1.count f
          have := ho f hf
          omega
        · rw [mem_singleton.1 hf]
          exact hon
      obtain ⟨hq2,h2,ho2,hle,hl,-⟩ := ih h1' ho1 hru
      simp only [length_append,length_cons,length_nil] at hle hl
      refine ⟨(hq1.append hq2).mono (fun hp => hp.mono (by omega)) (by omega),h2,ho2,by omega,by omega,
        fun _ hn => ?_⟩
      rw [hn,length_nil] at hle
      omega

lemma readaheadPages_spec (k : Kernel) (mountId ino page total fuel n : Nat) :
    n ≤ k.readaheadPages mountId ino page total fuel n ∧ k.readaheadPages mountId ino page total fuel n ≤ n+fuel ∧
      ∀ i, n ≤ i → i < k.readaheadPages mountId ino page total fuel n →
        k.cache.entries.get ⟨mountId,ino,page+i⟩ = none := by
  induction fuel generalizing n with
  | zero => exact ⟨le_refl _,le_refl _,fun i hi hlt => absurd hlt (by rw [readaheadPages]; omega)⟩
  | succ fuel ih =>
    rw [readaheadPages]
    split_ifs with hm
    · obtain ⟨hle,hl,hn⟩ := ih (n+1)
      refine ⟨by omega,by omega,fun i hi hlt => ?_⟩
      rcases Nat.lt_or_ge n i with hg | hl'
      · exact hn i hg hlt
      · obtain rfl : i = n := by omega
        exact Option.isNone_iff_eq_none.1 hm.2.2
    · exact ⟨le_refl _,by omega,fun i hi hlt => absurd hlt (by omega)⟩

def batchBytes (disk : List UInt8) (i : Nat) : Nat → UInt8 :=
  overlay (fun _ => 0) 0 ((disk.drop (i*pageSize)).take pageSize)

lemma storeBatch_spec {disk : List UInt8} {frames : List Nat} {i : Nat} (h : Owned c k (frames++hand))
    (hon : ∀ f ∈ frames, k.frames.refcounts f = 1)
    (hnew : ∀ j, j < frames.length → k.cache.entries.get ⟨mountId,ino,page+(i+j)⟩ = none)
    (hr : storeBatch mountId ino page disk frames i k = k') :
    Owned c k' hand ∧ k'.frames = k.frames ∧ k'.files = k.files ∧ k'.cache.fileSizes = k.cache.fileSizes ∧
      (∀ key : PageKey, (∀ j, j < frames.length → key ≠ ⟨mountId,ino,page+(i+j)⟩) →
        k'.cache.entries.get key = k.cache.entries.get key) ∧
      (∀ f, frames.head? = some f → ∃ e, k'.cache.entries.get ⟨mountId,ino,page+i⟩ = some e ∧ e.frame = f) ∧
      (∀ key, k'.Dirty key → k.Dirty key) ∧ (Contents k b → (∀ j, j < frames.length → ∀ o, o < pageSize →
        batchBytes disk (i+j) o = b (mountId,ino) ((page+(i+j))*pageSize+o)) → Contents k' b) := by
  induction frames generalizing k i with
  | nil =>
    obtain rfl := hr
    exact ⟨h,rfl,rfl,rfl,fun _ _ => rfl,by simp,fun _ hd => hd,fun hb _ => hb⟩
  | cons f frames ih =>
    set key : PageKey := ⟨mountId,ino,page+i⟩ with hk
    set k1 := ({k with mem := update k.mem f (batchBytes disk i)} : Kernel).insertPage key f false
      ((disk.drop (i*pageSize)).take pageSize).length with hk1
    have hf : k.cache.entries.get key = none := hnew 0 (by simp)
    have ho : ∀ key', key' ≠ key → k1.cache.entries.get key' = k.cache.entries.get key' := by
      intro key' hne
      simp [hk1,insertPage,get_insert,hne]
    have h1 : Owned c k1 (frames++hand) := (h.setMem (update k.mem f (batchBytes disk i))).insertPage _ _ _
    have hn : ∀ j, (⟨mountId,ino,page+(i+1+j)⟩ : PageKey) ≠ key := by
      intro j heq
      simp only [hk,PageKey.mk.injEq] at heq
      omega
    have hs : ∀ j, i+1+j = i+(j+1) := fun j => by omega
    obtain ⟨h2,hst,hfi,hsi,hsa,-,hdi,hc⟩ := ih h1 (fun g hg => hon g (mem_cons_of_mem f hg))
      (fun j hj => (ho _ (hn j)).trans (by
        rw [hs]
        exact hnew (j+1) (by simp only [length_cons]; omega))) hr
    refine ⟨h2,hst,hfi,hsi,
      fun key' hne => ?_,fun g hg => ?_,fun key' hd => ?_,fun hb hdis => ?_⟩
    · rw [hsa key' (fun j hj => hs j ▸ hne (j+1) (by simp only [length_cons]; omega))]
      exact ho key' (hne 0 (by simp))
    · obtain rfl : f = g := by simpa using hg
      rw [hsa key (fun j _ => (hn j).symm)]
      exact ⟨_,(get_insert _ _ _ _).trans (if_pos rfl),rfl⟩
    · obtain ⟨e,he,hd⟩ := hdi key' hd
      simp only [hk1,insertPage,get_insert] at he
      split_ifs at he with hs'
      · cases he
        cases hd
      · exact ⟨e,he,hd⟩
    · refine hc ?_ (fun j hj => hs j ▸ hdis (j+1) (by simp only [length_cons]; omega))
      exact hb.insert h (hon f (by simp)) hf (hdis 0 (by simp)) (fun _ _ _ _ => rfl) false (fun _ => rfl) _

end
end Kernel
end Vanta.Mm
