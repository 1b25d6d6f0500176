import Vanta.Mm.Boot
import Vanta.Mm.Ranges

namespace Vanta.Mm
open Library Memory Kernel Function

def Scope.add (c : Scope) (s : Nat) : Scope where
  live := fun x => x = s ∨ c.live x
  lent := fun x v => x ≠ s ∧ c.lent x v

section
variable {c : Scope} {hand : List Nat} {s v f : Nat} {k k' : Kernel}

lemma UserPath.nil : UserPath [] := ⟨by simp,by simp,by simp⟩

lemma Owned.fresh_not_live (h : Owned c k (f::hand)) (hf : k.frames.refcounts f = 1) : ¬c.live f :=
  fun hl => h.unheld hf (u := .table f []) ⟨hl,.nil,rfl⟩

lemma descend_empty (hl : ∀ i, i < 256 → k.tables f i = 0) {path : List Nat} (hp : UserPath path) :
    descend k.tables nextTable f path = if path = [] then some f else none := by
  cases path with
  | nil => rfl
  | cons i rest =>
    rw [descend,hl i (hp.low i rfl),nextTable_zero]
    rfl

lemma leaf_empty (hl : ∀ i, i < 256 → k.tables f i = 0) (hv : v < userPages) : k.leaf f v = 0 := by
  have ht : k.leafTable f v = none := by
    rw [leafTable,descend_empty hl (vpath_user hv)]
    simp [vpath]
  exact leaf_eq_zero ht

lemma Scope.add_own : ¬(c.add f).lent f v := fun h => h.1 rfl

lemma Owned.adopt (h : Owned c k (f::hand)) (hf : k.frames.refcounts f = 1)
    (hlo : ∀ i, i < 256 → k.tables f i = 0) : Owned (c.add f) k hand := by
  have hde := h.fresh_not_live hf
  have hne : ∀ {s}, c.live s → s ≠ f := fun hs he => hde (he ▸ hs)
  have hpa : ∀ s v g, Holds (c.add f) k (.page s v) g → Holds c k (.page s v) g := by
    rintro s v g ⟨hs | hs,hv,hl,hpr,hfr⟩
    · subst hs
      rw [leaf_empty hlo hv] at hpr
      exact absurd hpr (by decide)
    · exact ⟨hs,hv,fun hle => hl ⟨hne hs,hle⟩,hpr,hfr⟩
  exact {
    buddy := h.buddy
    counted := h.counted.put (u := .table f []) (fun u g hu ho => by
        match u, ho with
        | .cached key, ho => exact ho
        | .page s v, ho => exact hpa s v g ho
        | .table s path, ⟨hs,hp,hd⟩ =>
          rcases hs with rfl | hs
          · rw [descend_empty hlo hp] at hd
            split_ifs at hd with hn
            exact absurd (by rw [hn]) hu
          · exact ⟨hs,hp,hd⟩)
      (fun g hg => (Option.some.inj hg.2.2).symm)
    single := by
      rintro s path g ⟨hs | hs,hp,hd⟩
      · subst hs
        rw [descend_empty hlo hp] at hd
        split_ifs at hd
        rw [← Option.some.inj hd]
        exact hf
      · exact h.single s path g ⟨hs,hp,hd⟩
    once := fun s v v' g hv hv' => h.once s v v' g (hpa s v g hv) (hpa s v' g hv')
    upper := by
      rintro s path i t (rfl | hs) hp hd hpr
      · have hpat := hp.of_prefix (List.prefix_append path [i])
        rw [descend_empty hlo hpat] at hd
        split_ifs at hd with hn
        subst hn
        rw [← Option.some.inj hd,hlo i (hp.low i rfl)] at hpr
        exact absurd hpr (by decide)
      · exact h.upper s path i t hs hp hd hpr
    user := by
      rintro s v (rfl | hs) hv hpr
      · rw [leaf_empty hlo hv] at hpr
        exact absurd hpr (by decide)
      · exact h.user s v hs hv hpr
    tracked := fun i p hi => by
      obtain ⟨hs,hva,hl⟩ := h.tracked i p hi
      exact ⟨.inr hs,hva,fun hle => hl hle.2⟩}

lemma Slots.adopt {a : Option Nat} (h : Slots c k a) (hl : ∀ i, i < 256 → k.tables f i = 0) : Slots (c.add f) k a := by
  refine Exclusive.congr h (fun page slot => ⟨?_,fun hx => ⟨.inr hx.1,hx.2⟩⟩) (fun _ => Iff.rfl)
  rintro ⟨hs | hs,hv,hsw,hsl⟩
  · rw [hs,leaf_empty hl hv] at hsw
    exact absurd hsw (by decide)
  · exact ⟨hs,hv,hsw,hsl⟩

/-- A new space whose user half is empty. -/
structure Creates (c : Scope) (hand : List Nat) (s : Nat) (k k' : Kernel) : Prop where
  fresh : ¬c.live s
  owned : Owned (c.add s) k' hand
  allocs : Allocs c 1 k k'
  slots : Slots c k none → Slots (c.add s) k' none
  low : ∀ i, i < 256 → k'.tables s i = 0
  single : k'.frames.refcounts s = 1

lemma Kernel.createAddressSpace_spec (h : Owned c k hand) {r : Except MapError Nat}
    (hr : k.createAddressSpace = (k',r)) : match r with
      | .error _ => Idle c hand 1 k k' ∧ k.frames.freeFrames = 0
      | .ok s => Creates c hand s k k' := by
  rw [createAddressSpace] at hr
  rcases hall : k.allocateTable with ⟨k1,a⟩
  obtain ⟨hal,-,ha⟩ := allocateTable_spec h hall
  rw [hall] at hr
  cases a with
  | error e =>
    cases hr
    exact ⟨.of_allocs hal ha.2.1,ha.2.2⟩
  | ok s =>
    obtain ⟨ho,hon,hz⟩ := ha
    cases hr
    obtain ⟨ho',ha',-⟩ := ho.refill hon
      (fun i => if 256 ≤ i ∧ i < 512 then k1.tables k1.cr3 i else k1.tables s i)
    have hl : ∀ i, i < 256 → update k1.tables s
        (fun i => if 256 ≤ i ∧ i < 512 then k1.tables k1.cr3 i else k1.tables s i) s i = 0 := fun i hi => by
      rw [update_self,if_neg (by omega),hz]
    have hb := hal.trans (ha'.mono (le_refl 0))
    exact {
      fresh := ho.fresh_not_live hon
      owned := ho'.adopt hon hl
      allocs := hb
      slots := fun hs => ((hb.kept hs).1).adopt hl
      low := hl
      single := hon}

def Scope.empty : Scope := ⟨fun _ => False,fun _ _ => False⟩

lemma Kernel.Booted.create (h : k.Booted) (hb : ∀ i, k.swap.bitmap i = false) (hr : k.createAddressSpace = (k',.ok s)) :
    Owned (Scope.empty.add s) k' [] ∧ Slots (Scope.empty.add s) k' none ∧ (∀ v, v < userPages → k'.leaf s v = 0) ∧
      ∀ x v, ¬k'.Tracks x v := by
  have ho : Owned Scope.empty k [] := h.owned (fun _ => id)
  have hs : Slots Scope.empty k none := {
    used_iff := fun slot => by simp [Kernel.SlotUsed,hb,HoldsSlot,Scope.empty]
    unique := fun u _ _ hu => absurd hu.1 id
    unheld := fun u _ _ hu => hu.1}
  have hsp := createAddressSpace_spec ho hr
  refine ⟨hsp.owned,hsp.slots hs,fun v hv => leaf_empty hsp.low hv,?_⟩
  rintro x v ⟨i,p,hi,-⟩
  have := hsp.allocs.quiet.tracked i p hi
  rw [h.tracked i] at this
  cases this

end
end Vanta.Mm
