import Mathlib.Data.List.Basic

namespace Vanta.Library

inductive Party where
  | waiter
  | waker
  deriving DecidableEq

/-- The next section of each party; none if the party is through. -/
structure Race (σ : Type) where
  waiter : σ → Option σ
  waker : σ → Option σ

namespace Race
variable {σ : Type} (r : Race σ)

def step (s : σ) : Party → σ
  | .waiter => (r.waiter s).getD s
  | .waker => (r.waker s).getD s

def run (s : σ) (schedule : List Party) : σ := schedule.foldl r.step s

/-- The waker takes no step in a state in which the waiter must not be disturbed. -/
def Undisturbed (between : σ → Bool) : σ → List Party → Prop
  | _, [] => True
  | s, p::rest => (p = .waker → between s = false) ∧ Undisturbed between (r.step s p) rest

instance decidableUndisturbed (between : σ → Bool) : (s : σ) → (schedule : List Party) →
    Decidable (r.Undisturbed between s schedule)
  | _, [] => .isTrue trivial
  | s, p::rest => @instDecidableAnd _ _ _ (decidableUndisturbed between (r.step s p) rest)

variable {r} {between : σ → Bool}

lemma run_invariant (Inv : σ → Prop) (hw : ∀ s s', Inv s → r.waiter s = some s' → Inv s')
    (hwa : ∀ s s', Inv s → between s = false → r.waker s = some s' → Inv s') {s : σ} (h : Inv s)
    {schedule : List Party} (hru : r.Undisturbed between s schedule) : Inv (r.run s schedule) := by
  induction schedule generalizing s with
  | nil => exact h
  | cons p rest ih =>
    obtain ⟨hq,hr⟩ := hru
    refine ih ?_ hr
    cases p with
    | waiter =>
      rw [step]
      cases hs : r.waiter s with
      | none => exact h
      | some s' => exact hw s s' h hs
    | waker =>
      rw [step]
      cases hs : r.waker s with
      | none => exact h
      | some s' => exact hwa s s' h (hq rfl) hs

end Race
end Vanta.Library
