import Vanta.Mm.Owned

namespace Vanta.Mm
open Library Memory
variable (rawMaxPfn : Nat)

def bootFrames (ranges : List (Nat × Nat)) : BuddyAllocator :=
  ranges.foldl (fun b r => (b.addRange r.1 r.2).1) (.empty rawMaxPfn)

def DisjointRanges (ranges : List (Nat × Nat)) : Prop :=
  ranges.Pairwise (fun x y => x.1+x.2 ≤ y.1 ∨ y.1+y.2 ≤ x.1)

instance (ranges : List (Nat × Nat)) : Decidable (DisjointRanges ranges) :=
  inferInstanceAs (Decidable (ranges.Pairwise _))

structure Kernel.Booted (k : Kernel) : Prop where
  frames : ∃ rawMaxPfn ranges, DisjointRanges ranges ∧ k.frames = bootFrames rawMaxPfn ranges
  cache : k.cache = .new
  tracked : ∀ i, k.swap.trackedPages i = none
  procs : ∀ s, k.procs s = none

def Kernel.boot (ranges : List (Nat × Nat)) (cr3 lowWatermark : Nat)
    (files : Nat × Nat → ByteFile) (swapInitialized : Bool) : Kernel where
  frames := bootFrames rawMaxPfn ranges
  mem := fun _ _ => 0
  tables := fun _ _ => 0
  cr3 := cr3
  lowWatermark := lowWatermark
  cache := .new
  files := files
  swap := .new
  swapInitialized := swapInitialized
  swapDisk := fun _ _ => 0
  procs := fun _ => none

lemma Kernel.boot_booted {ranges : List (Nat × Nat)} (hd : DisjointRanges ranges)
    (cr3 lowWatermark : Nat) (files : Nat × Nat → ByteFile) (swapInitialized : Bool) :
    (Kernel.boot rawMaxPfn ranges cr3 lowWatermark files swapInitialized).Booted :=
  ⟨⟨rawMaxPfn,ranges,hd,rfl⟩,rfl,fun _ => rfl,fun _ => rfl⟩

section
variable {b : BuddyAllocator} {area : Set Nat} {L : Nat → List Nat}

lemma frameRange_pos {base length f : Nat}
    (hf : f ∈ Set.Ico (b.frameRange base length).1 (b.frameRange base length).2) : 0 < f := by
  unfold BuddyAllocator.frameRange at hf
  split_ifs at hf with he
  · dsimp only at hf
    split_ifs at hf
    · simp at hf
    have := (Set.mem_Ico.1 hf).1
    have : 1 ≤ max (alignUp base) pageSize/pageSize := (Nat.one_le_div_iff (by decide)).2 (le_max_right _ _)
    omega
  · simp at hf

lemma addRanges_inv (ranges : List (Nat × Nat)) (hd : DisjointRanges ranges) (h : b.Inv area L [] 0) (hz : 0 ∉ area)
    (ho : ∀ f ∈ area, ∀ r ∈ ranges, ¬(r.1 ≤ f*pageSize ∧ f*pageSize < r.1+r.2)) :
    ∃ area' L', 0 ∉ area' ∧ (ranges.foldl (fun b r => (b.addRange r.1 r.2).1) b).Inv area' L' [] 0 := by
  induction ranges generalizing b area L with
  | nil => exact ⟨area,L,hz,h⟩
  | cons r ranges ih =>
    obtain ⟨hfi,hr⟩ := List.pairwise_cons.1 hd
    have hn : ∀ f ∈ Set.Ico (b.frameRange r.1 r.2).1 (b.frameRange r.1 r.2).2, f ∉ area := by
      intro f hf ha
      obtain ⟨hl,hh,-⟩ := BuddyAllocator.frameRange_mem hf
      exact ho f ha r (by simp) ⟨hl,hh⟩
    obtain ⟨L',h',-⟩ := BuddyAllocator.addRange_inv h hn
    refine ih hr h' ?_ (fun f hf r' hr' => ?_)
    · rintro (hi | hi)
      · exact hz hi
      · exact absurd (frameRange_pos hi) (by omega)
    rcases hf with hf | hf
    · exact ho f hf r' (List.mem_cons_of_mem r hr')
    obtain ⟨hl,hh,-⟩ := BuddyAllocator.frameRange_mem hf
    have := hfi r' hr'
    omega

end

lemma Kernel.Booted.owned {k : Kernel} (h : k.Booted) {c : Scope} (hl : ∀ s, ¬c.live s) : Owned c k [] := by
  obtain ⟨rawMaxPfn,ranges,hd,hf⟩ := h.frames
  obtain ⟨area,L,hz,hin⟩ := addRanges_inv ranges hd (BuddyAllocator.empty_inv rawMaxPfn) (by simp) (by simp)
  have hn : ∀ u f, ¬Holds c k u f := by
    rintro (key | ⟨s,path⟩ | ⟨s,v⟩) f hu
    · obtain ⟨e,he,-⟩ := hu
      rw [h.cache] at he
      cases he
    · exact hl s hu.1
    · exact hl s hu.1
  refine ⟨⟨area,L,hz,hf ▸ hin⟩,fun f => ⟨[],fun u hu => absurd hu (hn u f),by simp⟩,
    fun s path f hu => absurd hu (hn _ f),fun s v v' f hu => absurd hu (hn _ f),fun s _ _ _ hs => absurd hs (hl s),
    fun s _ hs => absurd hs (hl s),fun i p hi => ?_⟩
  rw [h.tracked i] at hi
  cases hi

end Vanta.Mm
