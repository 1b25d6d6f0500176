import Vanta.Memory.BuddyFrames

namespace Vanta.Memory
open Library List
variable {L L' : Nat → List Nat} {k p : Nat}

/-- A block all of whose frames are listed lies in one block of canonical lists. -/
lemma Canon.cover (hc : Canon L) (ha : ∀ k, ∀ p ∈ L k, 2^k ∣ p) (hk : k < maxOrder) (hp : 2^k ∣ p)
    (hal : ∀ f, InBlock p k f → Listed L f) : ∃ j q, k ≤ j ∧ q ∈ L j ∧ InBlock q j p := by
  induction k generalizing p with
  | zero =>
    obtain ⟨j,q,hq,hi⟩ := hal p (inBlock_head p 0)
    exact ⟨j,q,Nat.zero_le j,hq,hi⟩
  | succ k ih =>
    have hh : 2^k ∣ p := dvd_trans ⟨2,Nat.pow_succ 2 k⟩ hp
    have hu : 2^k ∣ p+2^k := Nat.dvd_add hh (dvd_refl _)
    obtain ⟨j,q,hj,hq,hi⟩ := ih (by omega) hh (fun f hf => hal f ((inBlock_split p k f).2 (.inl hf)))
    obtain ⟨j',q',hj',hq',hi'⟩ := ih (by omega) hu
      (fun f hf => hal f ((inBlock_split p k f).2 (.inr hf)))
    rcases Nat.lt_or_ge k j with hl | hg
    · exact ⟨j,q,hl,hq,hi⟩
    rcases Nat.lt_or_ge k j' with hl' | hg'
    · refine ⟨j',q',hl',hq',inBlock_trans (ha j' q' hq') hl' hi' ?_⟩
      exact ((inBlock_iff_div hp).1 ((inBlock_split p k _).2 (.inr (inBlock_head _ k)))).symm
    -- both halves are listed themselves
    obtain rfl : k = j := by omega
    obtain rfl : k = j' := by omega
    rw [eq_of_inBlock hh (ha k q hq) hi] at hq
    rw [eq_of_inBlock hu (ha k q' hq') hi'] at hq'
    exact (hc k _ hq' hk (by rwa [xor_upper hp])).elim

namespace BuddyAllocator
variable {b b' : BuddyAllocator} {area area' : Set Nat} {heads : List Nat}

lemma Inv.mem_of_canon (h : Inv b area L [] 0) (h' : Inv b' area' L' [] 0) (hc : Canon L)
    (hc' : Canon L') (hs : ∀ f, Listed L f ↔ Listed L' f) (hp : p ∈ L k) : p ∈ L' k := by
  have ha := h.sound.aligned
  have ha' := h'.sound.aligned
  obtain ⟨j,q,hj,hq,hin⟩ := hc'.cover ha' (h.threaded.order_lt hp) (ha k p hp)
    (fun f hf => (hs f).1 ⟨k,p,hp,hf⟩)
  obtain ⟨i,r,hi,hr,hi'⟩ := hc.cover ha (h'.threaded.order_lt hq) (ha' j q hq)
    (fun f hf => (hs f).2 ⟨j,q,hq,hf⟩)
  have hpr := inBlock_trans (ha i r hr) hi hi' ((inBlock_iff_div (ha' j q hq)).1 hin)
  obtain ⟨rfl,rfl⟩ := h.tiling.disjoint p k r i p (.inl (.inl hp)) (.inl (.inl hr)) (inBlock_head p k) hpr
  obtain rfl : k = j := by omega
  exact eq_of_inBlock (ha k p hp) (ha' k q hq) hin ▸ hq

def addRanges (b : BuddyAllocator) (ranges : List (Nat × Nat)) : BuddyAllocator :=
  ranges.foldl (fun b r => (b.addRange r.1 r.2).1) b

def allocNext (s : BuddyAllocator × List Nat) (order : Nat) : BuddyAllocator × List Nat :=
  match s.1.allocOrder order with
  | (b,none) => (b,s.2)
  | (b,some p) => (b,p::s.2)

def freeAll (b : BuddyAllocator) (heads : List Nat) : BuddyAllocator :=
  heads.foldl (fun b p => (b.free (p*pageSize)).1) b

def Apart (r s : Nat × Nat) : Prop := r.1+r.2 < s.1 ∨ s.1+s.2 < r.1

lemma addRanges_inv {ranges : List (Nat × Nat)} (h : Inv b area L [] 0) (hc : Canon L)
    (hz : 0 ∉ area) (hol : ∀ f ∈ area, ∀ r ∈ ranges, Apart (f*pageSize,pageSize) r) (hr : ranges.Pairwise Apart) :
    ∃ area' L', Inv (b.addRanges ranges) area' L' [] 0 ∧ Canon L' ∧ 0 ∉ area' := by
  induction ranges generalizing b area L with
  | nil => exact ⟨area,L,h,hc,hz⟩
  | cons r ranges ih =>
    obtain ⟨hfi,hr⟩ := pairwise_cons.1 hr
    have hm := @frameRange_mem b r.1 r.2
    have ho : ∀ f ∈ area, Apart (f*pageSize,pageSize) r := fun f hf => hol f hf r (by simp)
    simp only [Apart,pageSize] at hm ho hfi
    have hn : ∀ f ∈ Set.Ico (b.frameRange r.1 r.2).1 (b.frameRange r.1 r.2).2, f ∉ area := fun f hf ha => by
      have := hm hf
      have := ho f ha
      omega
    obtain ⟨L',hL',hca⟩ := addRange_inv h hn
    refine ih hL' (hca hc (fun hl f hf => ?_)) ?_ ?_ hr
    · have := hm ⟨le_refl _,hl⟩
      have := @hm ((b.frameRange r.1 r.2).2-1) ⟨by omega,by omega⟩
      have := ho f hf
      omega
    · rintro (hf | hf)
      · exact hz hf
      · have := hm hf
        omega
    rintro f (hf | hf) s hs
    · exact hol f hf s (by simp [hs])
    have := hm hf
    have := hfi s hs
    simp only [Apart,pageSize]
    omega

/-- The frames of the lists `L₀` are on the lists `L` or in the blocks at `heads`, each of which has
one owner. -/
structure Outstanding (b : BuddyAllocator) (area : Set Nat) (L₀ L : Nat → List Nat) (heads : List Nat) :
    Prop where
  inv : Inv b area L [] 0
  canon : Canon L
  nodup : heads.Nodup
  one : ∀ p ∈ heads, b.refcounts p = 1
  frames : ∀ f, Listed L₀ f ↔ Listed L f ∨ ∃ p ∈ heads, InBlock p (b.order p) f

variable {L₀ : Nat → List Nat}

lemma allocNext_outstanding (h : Outstanding b area L₀ L heads) (order : Nat) :
    ∃ L', Outstanding (allocNext (b,heads) order).1 area L₀ L' (allocNext (b,heads) order).2 := by
  rcases allocOrder_spec h.inv order with he | ⟨c,p,L',he,hi,-,hz,hc,ho,how,hf,hca⟩
  · exact ⟨L,by simpa [allocNext,he] using h⟩
  have hn : ∀ q ∈ heads, q ≠ p := by
    rintro q hq rfl
    have := h.one q hq
    omega
  have hs : ∀ q ∈ heads, c.order q = b.order q := fun q hq =>
    order_congr (how q (by have := h.one q hq; omega))
  refine ⟨L',?_⟩
  simp only [allocNext,he]
  refine ⟨hi,hca h.canon,nodup_cons.2 ⟨fun hp => hn p hp rfl,h.nodup⟩,?_,fun f => ?_⟩
  · intro q hq
    rcases mem_cons.1 hq with rfl | hq
    · simp [hc]
    · simpa [hc,hn q hq] using h.one q hq
  · have hr : (∃ q ∈ heads, InBlock q (c.order q) f) ↔ ∃ q ∈ heads, InBlock q (b.order q) f :=
      exists_congr fun q => and_congr_right fun hq => by rw [hs q hq]
    simp only [h.frames,hf,mem_cons,exists_eq_or_imp,ho,hr,or_assoc]

lemma free_outstanding (h : Outstanding b area L₀ L (p::heads)) (hz : 0 ∉ area) :
    ∃ L', Outstanding (b.free (p*pageSize)).1 area L₀ L' heads := by
  have ho := h.one p (by simp)
  obtain ⟨hno,hn⟩ := nodup_cons.1 h.nodup
  obtain ⟨c,L',hfr,hi,hf,-⟩ := free_frame_spec h.inv hz (p := p) (by omega)
  have hc : ∀ q ∈ heads, c.refcounts q = 1 := by
    intro q hq
    have hne : q ≠ p := by
      rintro rfl
      exact hno hq
    simpa [hf.counts,hne] using h.one q (by simp [hq])
  have hr : ∀ f, (∃ q ∈ heads, InBlock q (c.order q) f) ↔ ∃ q ∈ heads, InBlock q (b.order q) f :=
    fun f => exists_congr fun q => and_congr_right fun hq => by
      rw [order_congr (hf.owned q (by have := hc q hq; omega))]
  rw [hfr]
  refine ⟨L',hi,hf.canon h.canon,hn,hc,fun f => ?_⟩
  simp only [h.frames,hf.frames,mem_cons,exists_eq_or_imp,hr,ho,true_and,or_assoc]

lemma freeAll_outstanding (h : Outstanding b area L₀ L heads) (hz : 0 ∉ area) :
    ∃ L', Outstanding (b.freeAll heads) area L₀ L' [] := by
  induction heads generalizing b L with
  | nil => exact ⟨L,h⟩
  | cons p heads ih =>
    obtain ⟨L',hL'⟩ := free_outstanding h hz
    exact ih hL'

lemma allocAll_outstanding (orders : List Nat) (h : Outstanding b area L₀ L heads) :
    ∃ L', Outstanding (orders.foldl allocNext (b,heads)).1 area L₀ L' (orders.foldl allocNext (b,heads)).2 := by
  induction orders generalizing b L heads with
  | nil => exact ⟨L,h⟩
  | cons order orders ih =>
    obtain ⟨L',hL'⟩ := allocNext_outstanding h order
    exact ih hL'

/-- Allocating blocks of any orders and freeing each once, in any order, gives the free blocks of each order from
before. -/
theorem coalescing_complete (rawMaxPfn : Nat) (ranges : List (Nat × Nat)) (hr : ranges.Pairwise Apart)
    (orders frees : List Nat) (hf : frees.Perm (orders.foldl allocNext ((empty rawMaxPfn).addRanges ranges,[])).2) :
    ∃ L L', Sound ((empty rawMaxPfn).addRanges ranges) L ∧
      Sound ((orders.foldl allocNext ((empty rawMaxPfn).addRanges ranges,[])).1.freeAll frees) L' ∧
      ∀ k p, p ∈ L k ↔ p ∈ L' k := by
  obtain ⟨area,L,h,hc,hz⟩ := addRanges_inv (empty_inv rawMaxPfn) (fun _ _ hp => by simp at hp)
    (by simp) (by simp) hr
  have h0 : Outstanding _ area L L [] := ⟨h,hc,nodup_nil,by simp,by simp⟩
  obtain ⟨L1,h1⟩ := allocAll_outstanding orders h0
  have hpe : Outstanding _ area L L1 frees :=
    ⟨h1.inv,h1.canon,hf.nodup_iff.2 h1.nodup,fun p hp => h1.one p (hf.mem_iff.1 hp),
      fun f => by simpa only [hf.mem_iff] using h1.frames f⟩
  obtain ⟨L2,h2⟩ := freeAll_outstanding hpe hz
  have hs : ∀ f, Listed L f ↔ Listed L2 f := fun f => by simpa using h2.frames f
  exact ⟨L,L2,h.sound,h2.inv.sound,fun k p => ⟨h.mem_of_canon h2.inv hc h2.canon hs,
    h2.inv.mem_of_canon h h2.canon hc (fun f => (hs f).symm)⟩⟩

theorem coalescing_complete_at_two_ranges : ∃ L L', Sound ((empty 64).addRanges [(4096,40960),(53248,8192)]) L ∧
      Sound (([2,0,1].foldl allocNext ((empty 64).addRanges [(4096,40960),(53248,8192)],[])).1.freeAll
        [14,8,4]) L' ∧ ∀ k p, p ∈ L k ↔ p ∈ L' k :=
  coalescing_complete 64 [(4096,40960),(53248,8192)] (by simp [Apart]) [2,0,1] [14,8,4] (by decide +kernel)

end BuddyAllocator
end Vanta.Memory
