import Vanta.Mm.Mapping

/-! Outside of the pages `P` an operation is about, only allocations leave traces. -/

namespace Vanta.Mm
open Library Memory Kernel Function

def At (s v : Nat) : Nat → Nat → Prop := fun s' v' => s' = s ∧ v' = v

def Range (s first last : Nat) : Nat → Nat → Prop := fun s' v' => s' = s ∧ first ≤ v' ∧ v' < last

/-- Outside of the pages `P`, the user half of `k'` is what at most `n` allocations leave of that of `k`. -/
structure Around (c : Scope) (n : Nat) (P : Nat → Nat → Prop) (k k' : Kernel) : Prop where
  cr3 : k'.cr3 = k.cr3
  watermark : k'.lowWatermark = k.lowWatermark
  initialized : k'.swapInitialized = k.swapInitialized
  leaf : ∀ s v, c.live s → v < userPages → ¬P s v → Faded (k.leaf s v) (k'.leaf s v)
  touched : ∀ s v, c.live s → v < userPages → ¬P s v → k'.leaf s v ≠ k.leaf s v →
    k.Pressed n ∧ k.swapInitialized = true ∧ k.Tracks s v
  table : ∀ s path t, c.live s → UserPath path → descend k.tables nextTable s path = some t →
    descend k'.tables nextTable s path = some t
  count : ∀ f, k'.frames.refcounts f ≤ max 1 (k.frames.refcounts f)
  free : k.frames.freeFrames ≤ k'.frames.freeFrames+n
  tracked : ∀ s v, k'.Tracks s v → k.Tracks s v ∨ P s v

/-- Outside of the pages `P`, private pages hold what they held, and each slot in use has its page. -/
def SameContent (c : Scope) (P : Nat → Nat → Prop) (k k' : Kernel) : Prop :=
  Slots c k none → Slots c k' none ∧
    ∀ s v, c.live s → v < userPages → ¬P s v → ¬c.lent s v → k'.content s v = k.content s v

section
variable {c : Scope} {hand : List Nat} {n m s v t f : Nat} {P Q : Nat → Nat → Prop} {k k' k'' : Kernel} {e : Entry}
namespace Around

lemma of_allocs (h : Allocs c n k k') (P : Nat → Nat → Prop) : Around c n P k k' where
  cr3 := h.quiet.cr3
  watermark := h.quiet.watermark
  initialized := h.quiet.initialized
  leaf := fun s v hs hv _ => h.quiet.leaf s v hs hv
  touched := fun s v hs hv _ => h.quiet.touched s v hs hv
  table := h.quiet.table
  count := h.quiet.count
  free := h.quiet.free
  tracked := by
    rintro s v ⟨i,p,hi,hp⟩
    exact .inl ⟨i,p,h.quiet.tracked i p hi,hp⟩

lemma refl (c : Scope) (P : Nat → Nat → Prop) (k : Kernel) : Around c 0 P k k :=
  of_allocs (.refl c k) P

section
variable (h : Around c n P k k')
include h

lemma trans (h' : Around c m P k' k'') : Around c (n+m) P k k'' where
  cr3 := h'.cr3.trans h.cr3
  watermark := h'.watermark.trans h.watermark
  initialized := h'.initialized.trans h.initialized
  leaf := fun s v hs hv hp => (h.leaf s v hs hv hp).trans (h'.leaf s v hs hv hp)
  touched := fun s v hs hv hp hn => by
    by_cases hk : k'.leaf s v = k.leaf s v
    · obtain ⟨hpr,hin,htr⟩ := h'.touched s v hs hv hp (hk ▸ hn)
      have hf := h.free
      obtain ⟨hpo,hl⟩ := hpr
      rw [h.watermark] at hpo hl
      exact ⟨⟨hpo,by omega⟩,h.initialized ▸ hin,(h.tracked s v htr).resolve_right hp⟩
    · obtain ⟨hpr,hr⟩ := h.touched s v hs hv hp hk
      exact ⟨hpr.mono (by omega),hr⟩
  table := fun s path t hs hp ht => h'.table s path t hs hp (h.table s path t hs hp ht)
  count := fun f => by
    have := h.count f
    have := h'.count f
    omega
  free := by
    have := h.free
    have := h'.free
    omega
  tracked := fun s v ht => (h'.tracked s v ht).elim (h.tracked s v) .inr

lemma mono (hn : n ≤ m) (hP : ∀ s v, P s v → Q s v) : Around c m Q k k' :=
  {h with
    leaf := fun s v hs hv hq => h.leaf s v hs hv (fun hp => hq (hP s v hp))
    touched := fun s v hs hv hq hne => by
      obtain ⟨hpr,hr⟩ := h.touched s v hs hv (fun hp => hq (hP s v hp)) hne
      exact ⟨hpr.mono hn,hr⟩
    free := by
      have := h.free
      omega
    tracked := fun s v ht => (h.tracked s v ht).imp_right (hP s v)}

end

lemma of_eq (hc : k'.cr3 = k.cr3) (hw : k'.lowWatermark = k.lowWatermark)
    (hi : k'.swapInitialized = k.swapInitialized) (hta : k'.tables = k.tables) (hf : k'.frames = k.frames)
    (htr : ∀ s v, k'.Tracks s v → k.Tracks s v ∨ P s v) : Around c 0 P k k' where
  cr3 := hc
  watermark := hw
  initialized := hi
  leaf := fun s v _ _ _ => by
    rw [leaf_congr hta]
    exact .refl _
  touched := fun s v _ _ _ hn => absurd (leaf_congr hta s v) hn
  table := fun s path t _ _ ht => by rwa [hta]
  count := fun f => by
    rw [hf]
    exact le_max_right _ _
  free := by rw [hf,Nat.add_zero]
  tracked := htr

lemma mem (mem : Nat → Nat → UInt8) : Around c 0 P k {k with mem := mem} :=
  of_eq rfl rfl rfl rfl rfl (fun _ _ => .inl)

lemma procs (procs : Nat → Option Process) : Around c 0 P k {k with procs := procs} :=
  of_eq rfl rfl rfl rfl rfl (fun _ _ => .inl)

lemma setLeaf (h : Owned c k hand) (hs : c.live s) (hv : v < userPages) (e : Entry) :
    Around c 0 (At s v) k (k.setLeaf s v e) := by
  cases ht : k.leafTable s v with
  | none =>
    rw [show k.setLeaf s v e = k by simp [Kernel.setLeaf,ht]]
    exact .refl c _ k
  | some t =>
    rw [setLeaf_eq ht]
    have hl : ∀ s' v', c.live s' → v' < userPages → ¬At s v s' v' →
        (k.writeEntry t (v%512) e).leaf s' v' = k.leaf s' v' := fun s' v' hs' hv' hn => by
      rw [h.leaf_writeEntry hs hv ht e hs' hv']
      exact if_neg hn
    exact {
      cr3 := rfl
      watermark := rfl
      initialized := rfl
      leaf := fun s' v' hs' hv' hn => by
        rw [hl s' v' hs' hv' hn]
        exact .refl _
      touched := fun s' v' hs' hv' hn hl' => absurd (hl s' v' hs' hv' hn) hl'
      table := fun s' path x hs' hp hx => by rwa [h.descend_writeEntry hs hv ht _ e hs' hp]
      count := fun _ => le_max_right _ _
      free := le_refl _
      tracked := fun _ _ => .inl}

lemma freeFrame (h : Owned c k (f::hand)) : Around c 0 P k (k.freeFrame f).1 := by
  obtain ⟨frames,hfr,-,hl,hc⟩ := h.free
  rw [hfr]
  exact {
    cr3 := rfl
    watermark := rfl
    initialized := rfl
    leaf := fun s v _ _ _ => .refl _
    touched := fun s v _ _ _ hn => absurd rfl hn
    table := fun _ _ _ _ _ ht => ht
    count := fun g => by
      rw [hc,update_apply]
      split_ifs with hg
      · rw [hg]
        omega
      · exact le_max_right _ _
    free := hl
    tracked := fun _ _ => .inl}

end Around

lemma SwapManager.trackPage_some {m : SwapManager} {va i : Nat} {p : TrackedUserPage}
    (h : (m.trackPage s va).trackedPages i = some p) : m.trackedPages i = some p ∨ p = ⟨s,alignDown va⟩ := by
  unfold SwapManager.trackPage at h
  simp only at h
  split at h
  · exact .inl h
  split at h
  · exact .inl h
  simp only [update_apply] at h
  split_ifs at h
  · exact .inr (Option.some.inj h).symm
  · exact .inl h

lemma Around.track (va : Nat) (hP : P s (va/pageSize)) :
    Around c 0 P k {k with swap := k.swap.trackPage s va} := by
  refine .of_eq rfl rfl rfl rfl rfl ?_
  rintro s' v' ⟨i,p,hi,rfl,rfl⟩
  rcases SwapManager.trackPage_some hi with ho | rfl
  · exact .inl ⟨i,p,ho,rfl,rfl⟩
  · rw [alignDown_div]
    exact .inr hP

lemma Owned.track (h : Owned c k hand) (hs : c.live s) {va : Nat} (hv : va < userAddressLimit)
    (hl : ¬c.lent s (va/pageSize)) : Owned c {k with swap := k.swap.trackPage s va} hand := by
  refine h.congr rfl rfl (fun _ => rfl) (fun i p hi => ?_)
  rcases SwapManager.trackPage_some hi with ho | rfl
  · exact h.tracked i p ho
  · exact ⟨hs,alignDown_lt hv,by rwa [alignDown_div]⟩

lemma SwapManager.trackPage_bitmap (m : SwapManager) (s va : Nat) : (m.trackPage s va).bitmap = m.bitmap := by
  unfold SwapManager.trackPage
  simp only
  split
  · rfl
  · split <;> rfl

lemma Owned.leaf_setLeaf (h : Owned c k hand) (hs : c.live s) (hv : v < userPages) (ht : k.leafTable s v = some t)
    (e : Entry) {s' v' : Nat} (hs' : c.live s') (hv' : v' < userPages) :
    (k.setLeaf s v e).leaf s' v' = if s' = s ∧ v' = v then e else k.leaf s' v' := by
  rw [setLeaf_eq ht]
  exact h.leaf_writeEntry hs hv ht e hs' hv'

lemma Owned.leaf_setLeaf_self (h : Owned c k hand) (hs : c.live s) (hv : v < userPages)
    (ht : k.leafTable s v = some t) (e : Entry) : (k.setLeaf s v e).leaf s v = e := by
  rw [h.leaf_setLeaf hs hv ht e hs hv,if_pos ⟨rfl,rfl⟩]

namespace SameContent

lemma of_kept (h : Kept c none none k k') (P : Nat → Nat → Prop) : SameContent c P k k' := fun hsl =>
  ⟨(h hsl).1,fun s v hs hv _ _ => (h hsl).2 s v hs hv⟩

lemma of_allocs (h : Allocs c n k k') (P : Nat → Nat → Prop) : SameContent c P k k' := of_kept h.kept P

lemma refl (c : Scope) (P : Nat → Nat → Prop) (k : Kernel) : SameContent c P k k :=
  fun hs => ⟨hs,fun _ _ _ _ _ _ => rfl⟩

lemma trans (h : SameContent c P k k') (h' : SameContent c P k' k'') : SameContent c P k k'' := fun hsl => by
  obtain ⟨h1,h2⟩ := h hsl
  obtain ⟨h3,h4⟩ := h' h1
  exact ⟨h3,fun s v hs hv hp hl => (h4 s v hs hv hp hl).trans (h2 s v hs hv hp hl)⟩

lemma mono (h : SameContent c P k k') (hP : ∀ s v, P s v → Q s v) : SameContent c Q k k' := fun hsl => by
  obtain ⟨h1,h2⟩ := h hsl
  exact ⟨h1,fun s v hs hv hq hl => h2 s v hs hv (fun hp => hq (hP s v hp)) hl⟩

lemma of_eq (ht : k'.tables = k.tables) (hm : k'.mem = k.mem) (hd : k'.swapDisk = k.swapDisk)
    (hb : k'.swap.bitmap = k.swap.bitmap) : SameContent c P k k' := fun hs =>
  ⟨hs.congr ht hb,fun s v _ _ _ _ => content_congr ht hm hd s v⟩

lemma setLeaf (h : Owned c k hand) (hs : c.live s) (hv : v < userPages) (ho : ¬Swapped (k.leaf s v))
    (hn : ¬Swapped e) : SameContent c (At s v) k (k.setLeaf s v e) := by
  cases ht : k.leafTable s v with
  | none =>
    rw [show k.setLeaf s v e = k by simp [Kernel.setLeaf,ht]]
    exact .refl c _ k
  | some t =>
    rw [setLeaf_eq ht]
    refine fun hsl => ⟨Exclusive.congr hsl (fun page slot => ?_) (fun _ => Iff.rfl),fun s' v' hs' hv' hne _ => ?_⟩
    · rw [h.holdsSlot_writeLeaf hs hv ht]
      split_ifs with hp
      · subst hp
        exact iff_of_false (fun hx => hn hx.1) (fun hx => ho hx.2.2.1)
      · exact Iff.rfl
    · rw [h.content_writeLeaf hs hv ht hs' hv']
      exact if_neg hne

lemma clearSwapped (h : Owned c k hand) (hs : c.live s) (hv : v < userPages) (ho : Swapped (k.leaf s v))
    (hn : ¬Swapped e) : SameContent c (At s v) k
      {k.setLeaf s v e with swap := (k.setLeaf s v e).swap.freeSlot (slotOf (k.leaf s v))} := by
  obtain ⟨t,ht⟩ := leafTable_of_flag ho.2
  rw [setLeaf_eq ht]
  intro hsl
  have hl : Slots c (k.writeEntry t (v%512) e) (some (slotOf (k.leaf s v))) := by
    refine Exclusive.lift hsl (u := (s,v)) (fun g => ?_) (fun g hg => ?_) (fun page g hne => ?_)
    · simp [HoldsSlot,hs,hv,ho,eq_comm]
    · rw [h.holdsSlot_writeLeaf hs hv ht,if_pos rfl] at hg
      exact hn hg.1
    · rw [h.holdsSlot_writeLeaf hs hv ht,if_neg hne]
  have hc : Calm c (some (slotOf (k.leaf s v))) none (k.writeEntry t (v%512) e)
      {k.writeEntry t (v%512) e with swap := (k.writeEntry t (v%512) e).swap.freeSlot (slotOf (k.leaf s v))} :=
    .freeSlot
  refine ⟨(hc.kept hl).1,fun s' v' hs' hv' hne _ => ?_⟩
  exact (h.content_writeLeaf hs hv ht (e := e) hs' hv').trans (if_neg hne)

lemma mem (bytes : Nat → UInt8)
    (hf : ∀ s v, c.live s → v < userPages → ¬P s v → ¬c.lent s v → hasFlag (k.leaf s v) flagPresent = true →
      frameOf (k.leaf s v) ≠ f) : SameContent c P k {k with mem := update k.mem f bytes} := by
  refine fun hsl => ⟨hsl.congr rfl rfl,fun s v hs hv hp hl => ?_⟩
  change contentOf _ (k.leaf s v) = k.contentOf (k.leaf s v)
  unfold contentOf
  split_ifs with hpr hsw
  · simp [hf s v hs hv hp hl hpr]
  · rfl
  · rfl

lemma fill (h : Owned c k (f::hand)) (hf : k.frames.refcounts f = 1) (bytes : Nat → UInt8) :
    SameContent c P k {k with mem := update k.mem f bytes} :=
  .mem bytes (fun s v hs hv _ hl hp => (h.fresh_ne hf (u := .page s v) ⟨hs,hv,hl,hp,rfl⟩).symm)

end SameContent
end
end Vanta.Mm
