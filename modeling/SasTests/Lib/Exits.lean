import Mathlib.Init

/-!
# Programs that may leave early

A program works on a state and may leave with an exception at any point: `EStateM ε σ α`. What it
owes on every way out is a condition on the state alone (`Ends`), whether it returns or leaves. The
rules turn such a condition on a sequence of steps into one on the first step, as equivalences, so
that an exact condition for the whole program can be read off.
-/

namespace Exits

variable {ε σ α β : Type}

/-- Started in `s`, the program ends in a state with `Q`, whether it returns or leaves. -/
def Ends (p : EStateM ε σ α) (s : σ) (Q : σ → Prop) : Prop :=
  match p.run s with
  | .ok _ s' => Q s'
  | .error _ s' => Q s'

variable {p : EStateM ε σ α} {f : α → EStateM ε σ β} {s s' : σ} {Q : σ → Prop}

theorem ends_pure (a : α) : Ends (pure a : EStateM ε σ α) s Q ↔ Q s := Iff.rfl

/-- A step that returns: the rest goes on. -/
theorem ends_bind_of_ok {a : α} (h : p.run s = .ok a s') :
    Ends (p >>= f) s Q ↔ Ends (f a) s' Q := by
  have hrun : (p >>= f).run s = (f a).run s' := by
    rw [EStateM.run_bind, h]
  rw [Ends, Ends, hrun]

/-- A step that leaves: the rest does not matter. -/
theorem ends_bind_of_error {e : ε} (h : p.run s = .error e s') : Ends (p >>= f) s Q ↔ Q s' := by
  rw [Ends, EStateM.run_bind, h]

/-- `unless c` the program leaves: it goes on, or ends where leaving ends. -/
theorem ends_unless {c : Prop} [Decidable c] {leave : EStateM ε σ PUnit} {e : ε}
    {f : PUnit → EStateM ε σ β} (h : leave.run s = .error e s') :
    Ends ((unless c do leave) >>= f) s Q ↔ (c → Ends (f ⟨⟩) s Q) ∧ (¬ c → Q s') := by
  by_cases hc : c
  · have hok : (pure PUnit.unit : EStateM ε σ PUnit).run s = .ok ⟨⟩ s := rfl
    rw [if_pos hc, ends_bind_of_ok hok]
    simp [hc]
  · rw [if_neg hc, ends_bind_of_error h]
    simp [hc]

end Exits
