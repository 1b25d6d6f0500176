import Mathlib.Logic.Basic

namespace Vanta.Library
variable {U F : Type}

structure Exclusive (holds : U → F → Prop) (used : F → Prop) (hand : Option F) : Prop where
  used_iff : ∀ f, used f ↔ hand = some f ∨ ∃ u, holds u f
  unique : ∀ u v f, holds u f → holds v f → u = v
  unheld : ∀ u f, hand = some f → ¬holds u f

namespace Exclusive
variable {holds holds' : U → F → Prop} {used used' : F → Prop} {hand : Option F} {u : U} {f : F}

lemma congr (h : Exclusive holds used hand) (hh : ∀ u f, holds' u f ↔ holds u f)
    (hus : ∀ f, used' f ↔ used f) : Exclusive holds' used' hand where
  used_iff := fun f => by simp only [hus,hh,h.used_iff]
  unique := fun u v f hu hv => h.unique u v f ((hh u f).1 hu) ((hh v f).1 hv)
  unheld := fun u f hf hu => h.unheld u f hf ((hh u f).1 hu)

/-- An unused resource is taken into the hand. -/
lemma take (h : Exclusive holds used none) (hf : ¬used f) (hus : ∀ g, used' g ↔ used g ∨ g = f) :
    Exclusive holds used' (some f) where
  used_iff := fun g => by
    rw [hus,h.used_iff]
    simp [eq_comm,or_comm]
  unique := h.unique
  unheld := fun u g hg hu => by
    cases hg
    exact hf ((h.used_iff f).2 (.inr ⟨u,hu⟩))

lemma drop (h : Exclusive holds used (some f)) (hus : ∀ g, used' g ↔ used g ∧ g ≠ f) : Exclusive holds used' none where
  used_iff := fun g => by
    rw [hus,h.used_iff]
    constructor
    · rintro ⟨hg | hg,hn⟩
      · exact absurd (Option.some.inj hg).symm hn
      · exact .inr hg
    rintro (hg | ⟨u,hu⟩)
    · cases hg
    refine ⟨.inr ⟨u,hu⟩,?_⟩
    rintro rfl
    exact h.unheld u g rfl hu
  unique := h.unique
  unheld := fun _ _ hg => by cases hg

/-- A user that holds nothing takes the resource in hand. -/
lemma put (h : Exclusive holds used (some f)) (hn : ∀ g, ¬holds u g)
    (hs : ∀ g, holds' u g ↔ g = f) (ho : ∀ v g, v ≠ u → (holds' v g ↔ holds v g)) : Exclusive holds' used none where
  used_iff := fun g => by
    rw [h.used_iff]
    constructor
    · rintro (hg | ⟨v,hv⟩)
      · exact .inr ⟨u,(hs g).2 (Option.some.inj hg).symm⟩
      · have hne : v ≠ u := fun he => hn g (he ▸ hv)
        exact .inr ⟨v,(ho v g hne).2 hv⟩
    rintro (hg | ⟨v,hv⟩)
    · cases hg
    by_cases hne : v = u
    · subst hne
      exact .inl (by rw [(hs g).1 hv])
    · exact .inr ⟨v,(ho v g hne).1 hv⟩
  unique := fun v w g hv hw => by
    by_cases hvu : v = u
    · by_cases hwu : w = u
      · rw [hvu,hwu]
      subst hvu
      rw [(hs g).1 hv] at hw
      exact absurd ((ho w f hwu).1 hw) (h.unheld w f rfl)
    · by_cases hwu : w = u
      · subst hwu
        rw [(hs g).1 hw] at hv
        exact absurd ((ho v f hvu).1 hv) (h.unheld v f rfl)
      · exact h.unique v w g ((ho v g hvu).1 hv) ((ho w g hwu).1 hw)
  unheld := fun _ _ hg => by cases hg

/-- A user gives its resource back into the hand. -/
lemma lift (h : Exclusive holds used none) (hu : ∀ g, holds u g ↔ g = f) (hs : ∀ g, ¬holds' u g)
    (ho : ∀ v g, v ≠ u → (holds' v g ↔ holds v g)) : Exclusive holds' used (some f) where
  used_iff := fun g => by
    rw [h.used_iff]
    constructor
    · rintro (hg | ⟨v,hv⟩)
      · cases hg
      by_cases hn : v = u
      · subst hn
        exact .inl (by rw [(hu g).1 hv])
      · exact .inr ⟨v,(ho v g hn).2 hv⟩
    · rintro (hg | ⟨v,hv⟩)
      · exact .inr ⟨u,(hu g).2 (Option.some.inj hg).symm⟩
      · have hn : v ≠ u := fun he => hs g (he ▸ hv)
        exact .inr ⟨v,(ho v g hn).1 hv⟩
  unique := fun v w g hv hw => by
    have hvu : v ≠ u := fun he => hs g (he ▸ hv)
    have hwu : w ≠ u := fun he => hs g (he ▸ hw)
    exact h.unique v w g ((ho v g hvu).1 hv) ((ho w g hwu).1 hw)
  unheld := fun v g hg hv => by
    have hvu : v ≠ u := fun he => hs g (he ▸ hv)
    cases hg
    exact hvu (h.unique v u f ((ho v f hvu).1 hv) ((hu f).2 rfl))

end Exclusive
end Vanta.Library
