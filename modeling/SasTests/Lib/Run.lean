import Mathlib.Data.List.Basic
import Mathlib.Data.List.Induction

/-!
# Runs of a labelled system

A system is a step function `step : σ → ℓ → Option σ`: from a state, a label either is not
enabled (`none`) or leads to the next state. Everything nondeterministic about a system (which
task goes next, what arrives from outside, whether a timer fires) is in the choice of labels, so
"for every interleaving" is "for every list of labels".

* `run` — follow a list of labels.
* `Along` — a condition on the state *before* each step holds at every step a run takes.
* `run_induction`, `run_invariant`, `run_invariant_along` — what one step preserves, a run does.
* `outputs` — what the steps of a run put out, one after the other.
-/

namespace Lts

universe u v

variable {σ : Type u} {ℓ : Type v} {step : σ → ℓ → Option σ}

/-- Follow a list of labels; `none` as soon as one of them is not enabled. -/
def run (step : σ → ℓ → Option σ) : σ → List ℓ → Option σ
  | s, [] => some s
  | s, l :: ls => (step s l).bind fun s' => run step s' ls

@[simp] theorem run_nil (s : σ) : run step s [] = some s := rfl

@[simp] theorem run_cons (s : σ) (l : ℓ) (ls : List ℓ) :
    run step s (l :: ls) = (step s l).bind fun s' => run step s' ls := rfl

theorem run_append (s : σ) (ls ls' : List ℓ) :
    run step s (ls ++ ls') = (run step s ls).bind fun s' => run step s' ls' := by
  induction ls generalizing s with
  | nil => rfl
  | cons l ls ih =>
    rw [List.cons_append, run_cons, run_cons, Option.bind_assoc]
    exact congrArg _ (funext ih)

/-- Inversion for a run that is cut in two. -/
theorem run_append_eq_some {s s' : σ} {ls ls' : List ℓ} (h : run step s (ls ++ ls') = some s') :
    ∃ m, run step s ls = some m ∧ run step m ls' = some s' := by
  rw [run_append] at h
  exact Option.bind_eq_some_iff.mp h

/-- Inversion for a run with a last step. -/
theorem run_concat_eq_some {s s' : σ} {ls : List ℓ} {l : ℓ}
    (h : run step s (ls ++ [l]) = some s') :
    ∃ m, run step s ls = some m ∧ step m l = some s' := by
  obtain ⟨m, hm, hl⟩ := run_append_eq_some h
  exact ⟨m, hm, by simpa using hl⟩

/-- **Induction along a run**: the motive may speak of the labels taken so far. -/
theorem run_induction {s₀ : σ} {motive : List ℓ → σ → Prop} (nil : motive [] s₀)
    (snoc : ∀ ls l s s', run step s₀ ls = some s → motive ls s → step s l = some s' →
      motive (ls ++ [l]) s') :
    ∀ {ls : List ℓ} {s : σ}, run step s₀ ls = some s → motive ls s := by
  intro ls
  induction ls using List.reverseRecOn with
  | nil =>
    intro s h
    obtain rfl : s₀ = s := Option.some.inj h
    exact nil
  | append_singleton ls l ih =>
    intro s' h
    obtain ⟨s, hs, hl⟩ := run_concat_eq_some h
    exact snoc ls l s s' hs (ih hs) hl

/-- What holds at the start and is preserved by every step holds in every state reached. -/
theorem run_invariant {I : σ → Prop} {s₀ : σ} (init : I s₀)
    (hstep : ∀ s l s', I s → step s l = some s' → I s') {ls : List ℓ} {s : σ}
    (h : run step s₀ ls = some s) : I s :=
  run_induction (motive := fun _ s => I s) init (fun _ l s s' _ hs hl => hstep s l s' hs hl) h

/-- `C` holds of the state before each step that the run of `ls` from `s₀` takes. -/
def Along (step : σ → ℓ → Option σ) (C : σ → ℓ → Prop) (s₀ : σ) (ls : List ℓ) : Prop :=
  ∀ pre l post s, ls = pre ++ l :: post → run step s₀ pre = some s → C s l

theorem along_nil {C : σ → ℓ → Prop} {s₀ : σ} : Along step C s₀ [] := by
  intro pre l post s h
  cases pre <;> cases h

/-- A condition along a run is a condition along its start and on its last step. -/
theorem along_concat {C : σ → ℓ → Prop} {s₀ : σ} {ls : List ℓ} {l : ℓ} :
    Along step C s₀ (ls ++ [l]) ↔
      Along step C s₀ ls ∧ ∀ s, run step s₀ ls = some s → C s l := by
  constructor
  · intro h
    refine ⟨fun pre l' post s hls hs => ?_, fun s hs => h ls l [] s rfl hs⟩
    refine h pre l' (post ++ [l]) s ?_ hs
    rw [hls, List.append_assoc, List.cons_append]
  · rintro ⟨hls, hl⟩ pre l' post s heq hs
    rcases List.eq_nil_or_concat post with rfl | ⟨post', x, rfl⟩
    · obtain ⟨rfl, hx⟩ := List.append_inj' heq rfl
      obtain rfl : l = l' := (List.cons.inj hx).1
      exact hl s hs
    · rw [List.concat_eq_append, ← List.cons_append, ← List.append_assoc] at heq
      obtain ⟨heq', -⟩ := List.append_inj' heq rfl
      exact hls pre l' post' s heq' hs

/-- A condition along a run is a condition along each of its starts. -/
theorem Along.left {C : σ → ℓ → Prop} {s₀ : σ} {ls ls' : List ℓ}
    (h : Along step C s₀ (ls ++ ls')) : Along step C s₀ ls := by
  intro pre l post s hls hs
  exact h pre l (post ++ ls') s (by rw [hls, List.append_assoc, List.cons_append]) hs

theorem Along.mono {C D : σ → ℓ → Prop} {s₀ : σ} {ls : List ℓ} (h : Along step C s₀ ls)
    (hCD : ∀ s l, C s l → D s l) : Along step D s₀ ls :=
  fun pre l post s hls hs => hCD s l (h pre l post s hls hs)

theorem Along.and {C D : σ → ℓ → Prop} {s₀ : σ} {ls : List ℓ} (hC : Along step C s₀ ls)
    (hD : Along step D s₀ ls) : Along step (fun s l => C s l ∧ D s l) s₀ ls :=
  fun pre l post s hls hs => ⟨hC pre l post s hls hs, hD pre l post s hls hs⟩

theorem along_cons {C : σ → ℓ → Prop} {s₀ : σ} {l : ℓ} {ls : List ℓ} :
    Along step C s₀ (l :: ls) ↔ C s₀ l ∧ ∀ s, step s₀ l = some s → Along step C s ls := by
  constructor
  · intro h
    refine ⟨h [] l ls s₀ rfl rfl, fun s hl pre l' post s' hls hs' => ?_⟩
    exact h (l :: pre) l' post s' (by rw [hls]; rfl) (by rw [run_cons, hl]; exact hs')
  · rintro ⟨hl, hls⟩ pre l' post s heq hs
    cases pre with
    | nil =>
      obtain rfl : s₀ = s := Option.some.inj hs
      obtain rfl : l = l' := (List.cons.inj heq).1
      exact hl
    | cons x pre =>
      obtain ⟨rfl, rfl⟩ := List.cons.inj heq
      obtain ⟨s₁, hs₁, hs⟩ := Option.bind_eq_some_iff.mp hs
      exact hls s₁ hs₁ pre l' post s rfl hs

/-- A run can be checked for a decidable condition. -/
instance decidableAlong {C : σ → ℓ → Prop} [∀ s l, Decidable (C s l)] :
    ∀ (s₀ : σ) (ls : List ℓ), Decidable (Along step C s₀ ls)
  | _, [] => isTrue along_nil
  | s₀, l :: ls => match hs : step s₀ l with
    | none => decidable_of_iff (C s₀ l) (by rw [along_cons, hs]; simp)
    | some s =>
      have := decidableAlong (C := C) s ls
      decidable_of_iff (C s₀ l ∧ Along step C s ls) (by rw [along_cons, hs]; simp)

/-- What holds at the start and is preserved by every step that meets `C` holds in every state
that a run meeting `C` reaches. -/
theorem run_invariant_along {I : σ → Prop} {C : σ → ℓ → Prop} {s₀ : σ} (init : I s₀)
    (hstep : ∀ s l s', I s → C s l → step s l = some s' → I s') {ls : List ℓ} {s : σ}
    (hC : Along step C s₀ ls) (h : run step s₀ ls = some s) : I s := by
  revert hC
  refine run_induction (motive := fun ls s => Along step C s₀ ls → I s) (fun _ => init) ?_ h
  intro ls l s s' hrun ih hl hC
  obtain ⟨hls, hlast⟩ := along_concat.mp hC
  exact hstep s l s' (ih hls) (hlast s hrun) hl

section Outputs

universe w

variable {β : Type w} {out : σ → ℓ → List β}

/-- What the steps of a run put out; a step puts out what `out` says of the state before it. -/
def outputs (step : σ → ℓ → Option σ) (out : σ → ℓ → List β) : σ → List ℓ → List β
  | _, [] => []
  | s, l :: ls => out s l ++ match step s l with
    | some s' => outputs step out s' ls
    | none => []

/-- The last step of a run puts out last. -/
theorem outputs_concat {s s' : σ} {ls : List ℓ} (h : run step s ls = some s') (l : ℓ) :
    outputs step out s (ls ++ [l]) = outputs step out s ls ++ out s' l := by
  induction ls generalizing s with
  | nil =>
    obtain rfl := Option.some.inj h
    simp only [List.nil_append, outputs]
    cases step s l <;> simp
  | cons x ls ih =>
    obtain ⟨s₁, hs₁, h⟩ := Option.bind_eq_some_iff.mp h
    simp only [List.cons_append, outputs, hs₁, ih h, List.append_assoc]

/-- Where a run has put something out, and what it had put out before. -/
theorem outputs_eq_append {s s' : σ} {ls : List ℓ} (h : run step s ls = some s') {pre post : List β}
    {x : β} (houtputs : outputs step out s ls = pre ++ x :: post) :
    ∃ before l after s₁ fresh rest, ls = before ++ l :: after ∧ run step s before = some s₁ ∧
      out s₁ l = fresh ++ x :: rest ∧ pre = outputs step out s before ++ fresh := by
  induction ls generalizing s pre with
  | nil => simp [outputs] at houtputs
  | cons l ls ih =>
    obtain ⟨s₁, hs₁, hrest⟩ := Option.bind_eq_some_iff.mp h
    rw [outputs, hs₁] at houtputs
    have hsplit : (∃ fresh, pre = out s l ++ fresh ∧ outputs step out s₁ ls = fresh ++ x :: post) ∨
        ∃ rest, out s l = pre ++ x :: rest := by
      rcases List.append_eq_append_iff.mp houtputs with ⟨fresh, hpre, hlater⟩ | ⟨rest, hout, hlater⟩
      · exact .inl ⟨fresh, hpre, hlater⟩
      · cases rest with
        | nil => exact .inl ⟨[], by rw [hout, List.append_nil, List.append_nil], hlater.symm⟩
        | cons y rest => exact .inr ⟨rest, (List.cons.inj hlater).1 ▸ hout⟩
    rcases hsplit with ⟨fresh, hpre, hlater⟩ | ⟨rest, hout⟩
    · obtain ⟨before, l', after, s₂, fresh', rest, rfl, hs₂, hout, hfresh⟩ := ih hrest hlater
      refine ⟨l :: before, l', after, s₂, fresh', rest, rfl, ?_, hout, ?_⟩
      · rw [run_cons, hs₁]
        exact hs₂
      · rw [hpre, hfresh, outputs, hs₁, List.append_assoc]
    · exact ⟨[], l, ls, s, pre, rest, rfl, rfl, hout, rfl⟩

end Outputs

end Lts
