import SasTests.Lib.Run

/-!
# What a system has put out since it was last reset

A list that a system keeps often behaves like this: some labels empty it, and every other step
appends what it puts out. Then the history says what is in it: it is empty when no step since the
last reset has put out anything (`Ledger.eq_nil_iff`), and what comes first in it was put out by the
first such step (`Ledger.head?_eq_some_iff`).
-/

namespace Lts

universe u v w

variable {σ : Type u} {ℓ : Type v} {β : Type w} {step : σ → ℓ → Option σ}

/-- No step of the run of `ls` from `s₀` has put out anything since the last label that resets. -/
def Silent (step : σ → ℓ → Option σ) (out : σ → ℓ → List β) (reset : ℓ → Bool) (s₀ : σ)
    (ls : List ℓ) : Prop :=
  ∀ before l after s, ls = before ++ l :: after → after.any reset = false →
    run step s₀ before = some s → out s l = []

/-- The list `kept` starts empty; a label that resets empties it, and every other step appends what
it puts out. -/
structure Ledger (step : σ → ℓ → Option σ) (out : σ → ℓ → List β) (reset : ℓ → Bool) (s₀ : σ)
    (kept : σ → List β) : Prop where
  /-- it starts empty -/
  init : kept s₀ = []
  /-- a label that resets puts out nothing -/
  resets : ∀ s l, reset l = true → out s l = []
  /-- what one step does to it -/
  step_eq : ∀ s l s', step s l = some s' →
    kept s' = (if reset l then [] else kept s) ++ out s l

variable {out : σ → ℓ → List β} {reset : ℓ → Bool} {s₀ : σ}

theorem silent_nil : Silent step out reset s₀ [] := by
  intro before l after s h
  cases before <;> cases h

/-- A silent run goes on silently when its last step resets, or puts out nothing. -/
theorem silent_concat {ls : List ℓ} {l : ℓ} {s : σ} (h : run step s₀ ls = some s) :
    Silent step out reset s₀ (ls ++ [l]) ↔
      out s l = [] ∧ (reset l = false → Silent step out reset s₀ ls) := by
  constructor
  · intro hsilent
    refine ⟨hsilent ls l [] s rfl rfl h, fun hl before l' after s' hls hafter hs' => ?_⟩
    apply hsilent before l' (after ++ [l]) s' _ _ hs'
    · rw [hls, List.append_assoc, List.cons_append]
    · rw [List.any_append, hafter, List.any_cons, hl]
      rfl
  · rintro ⟨hl, hls⟩ before l' after s' heq hafter hs'
    rcases List.eq_nil_or_concat after with rfl | ⟨after', x, rfl⟩
    · obtain ⟨rfl, hx⟩ := List.append_inj' heq rfl
      obtain rfl : l = l' := (List.cons.inj hx).1
      obtain rfl : s = s' := Option.some.inj (h.symm.trans hs')
      exact hl
    · rw [List.concat_eq_append, ← List.cons_append, ← List.append_assoc] at heq
      obtain ⟨heq', hx⟩ := List.append_inj' heq rfl
      obtain rfl : l = x := (List.cons.inj hx).1
      rw [List.concat_eq_append, List.any_append, Bool.or_eq_false_iff, List.any_cons,
        List.any_nil, Bool.or_false] at hafter
      exact hls hafter.2 before l' after' s' heq' hafter.1 hs'

namespace Ledger

variable {kept : σ → List β} (L : Ledger step out reset s₀ kept)

include L

/-- **The list is empty when nothing has been put out since the last reset.** -/
theorem eq_nil_iff {ls : List ℓ} {s : σ} (h : run step s₀ ls = some s) :
    kept s = [] ↔ Silent step out reset s₀ ls := by
  refine run_induction (motive := fun ls s => kept s = [] ↔ Silent step out reset s₀ ls)
    (iff_of_true L.init silent_nil) ?_ h
  intro ls l s s' hs ih hl
  rw [L.step_eq s l s' hl, silent_concat hs, List.append_eq_nil_iff, and_comm, ← ih]
  cases reset l <;> simp

/-- **What comes first in the list was put out by the first step since the last reset that put out
anything.** -/
theorem head?_eq_some_iff {ls : List ℓ} {s : σ} (h : run step s₀ ls = some s) {x : β} :
    (kept s).head? = some x ↔
      ∃ before l after s₁, ls = before ++ l :: after ∧ after.any reset = false ∧
        run step s₀ before = some s₁ ∧ (out s₁ l).head? = some x ∧
        Silent step out reset s₀ before := by
  constructor
  · refine run_induction (motive := fun ls s => (kept s).head? = some x →
      ∃ before l after s₁, ls = before ++ l :: after ∧ after.any reset = false ∧
        run step s₀ before = some s₁ ∧ (out s₁ l).head? = some x ∧
        Silent step out reset s₀ before) (fun hx => by rw [L.init] at hx; cases hx) ?_ h
    intro ls l s s' hs ih hl hx
    rw [L.step_eq s l s' hl] at hx
    cases hreset : reset l
    · rw [hreset, if_neg Bool.false_ne_true, List.head?_append] at hx
      rcases hkept : (kept s).head? with _ | y
      · rw [hkept, Option.none_or] at hx
        have hnil : kept s = [] := List.head?_eq_none_iff.mp hkept
        exact ⟨ls, l, [], s, rfl, rfl, hs, hx, (L.eq_nil_iff hs).mp hnil⟩
      · rw [hkept, Option.some_or] at hx
        obtain ⟨before, l₁, after, s₁, rfl, hafter, hs₁, hout, hsilent⟩ := ih (hkept.trans hx)
        refine ⟨before, l₁, after ++ [l], s₁, ?_, ?_, hs₁, hout, hsilent⟩
        · rw [List.append_assoc, List.cons_append]
        · rw [List.any_append, hafter, List.any_cons, hreset]
          rfl
    · rw [hreset, if_pos rfl, L.resets s l hreset] at hx
      cases hx
  · rintro ⟨before, l, after, s₁, rfl, hafter, hs₁, hout, hsilent⟩
    have hcons : before ++ l :: after = before ++ [l] ++ after := by simp
    rw [hcons] at h
    obtain ⟨s₂, hs₂, hrest⟩ := run_append_eq_some h
    have hl : step s₁ l = some s₂ := by
      obtain ⟨m, hm, hl⟩ := run_concat_eq_some hs₂
      rwa [Option.some.inj (hs₁.symm.trans hm)]
    have hhead : (kept s₂).head? = some x := by
      rw [L.step_eq s₁ l s₂ hl, (L.eq_nil_iff hs₁).mpr hsilent, ite_self]
      exact hout
    -- what follows appends, so that the head stays
    clear h hcons
    revert hafter
    refine run_induction (motive := fun ls s => ls.any reset = false → (kept s).head? = some x)
      (fun _ => hhead) ?_ hrest
    intro ls l s s' _ ih hl hls
    rw [List.any_append, Bool.or_eq_false_iff, List.any_cons, List.any_nil, Bool.or_false] at hls
    rw [L.step_eq s l s' hl, hls.2, if_neg Bool.false_ne_true, List.head?_append, ih hls.1]
    rfl

end Ledger

end Lts
