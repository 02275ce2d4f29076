import Mathlib.Init

/-!
# Searches that stop early and searches that collect

A search goes through a list and looks at each element in a way that may fail: `List.flatMapM`
collects what is found at all of them, and `List.findSomeM?` stops at the first element where
something is found. How the elements are looked at may be a search again, so the rules for nested
searches are these rules, used twice.

* `findSomeM?_of_flatMapM` — where the collection succeeds, stopping early gives its head.
* `flatMapM_check` — checking while collecting is checking the collection; a check that succeeds
  everywhere filters it (`flatMapM_eq_filter`).
* `flatMapM_error` — failures are passed on.
* `exists_flatMapM_eq_ok` — a search that succeeds at every element succeeds.
-/

namespace Search

universe u

variable {ε : Type u} {α β : Type u} {f f' : α → Except ε (List β)} {g : α → Except ε (Option β)}

/-- Inversion for a collection that succeeds. -/
theorem flatMapM_cons_eq_ok {a : α} {l : List α} {found : List β}
    (h : (a :: l).flatMapM f = .ok found) :
    ∃ bs rest, f a = .ok bs ∧ l.flatMapM f = .ok rest ∧ found = bs ++ rest := by
  rw [List.flatMapM_cons] at h
  cases hbs : f a with
  | error e =>
    rw [hbs] at h
    cases h
  | ok bs =>
    cases hrest : l.flatMapM f with
    | error e =>
      rw [hbs, hrest] at h
      cases h
    | ok rest =>
      rw [hbs, hrest] at h
      cases h
      exact ⟨bs, rest, rfl, rfl, rfl⟩

/-- **Stopping early gives the head of what is collected.** -/
theorem findSomeM?_of_flatMapM (h : ∀ a bs, f a = .ok bs → g a = .ok bs.head?) {l : List α}
    {found : List β} (hl : l.flatMapM f = .ok found) : l.findSomeM? g = .ok found.head? := by
  induction l generalizing found with
  | nil =>
    cases hl
    rfl
  | cons a l ih =>
    obtain ⟨bs, rest, hbs, hrest, rfl⟩ := flatMapM_cons_eq_ok hl
    rw [List.findSomeM?_cons, h a bs hbs]
    cases bs with
    | nil => exact ih hrest
    | cons b bs => rfl

/-- A collection succeeds only if each of its elements can be looked at. -/
theorem exists_of_flatMapM {l : List α} {found : List β} (h : l.flatMapM f = .ok found) :
    ∀ a ∈ l, ∃ bs, f a = .ok bs := by
  induction l generalizing found with
  | nil => nofun
  | cons a l ih =>
    obtain ⟨bs, rest, hbs, hrest, -⟩ := flatMapM_cons_eq_ok h
    exact List.forall_mem_cons.mpr ⟨⟨bs, hbs⟩, ih hrest⟩

/-- Collecting at the elements of two lists. -/
theorem flatMapM_append (l l' : List α) :
    (l ++ l').flatMapM f = (do return (← l.flatMapM f) ++ (← l'.flatMapM f)) := by
  induction l with
  | nil => cases hl : l'.flatMapM f <;> simp [hl, bind, Except.bind, pure, Except.pure]
  | cons a l ih =>
    rw [List.cons_append, List.flatMapM_cons, ih, List.flatMapM_cons]
    cases f a with
    | error e => rfl
    | ok bs =>
      cases l.flatMapM f with
      | error e => rfl
      | ok rest =>
        cases l'.flatMapM f with
        | error e => rfl
        | ok rest' => simp [bind, Except.bind, pure, Except.pure]

variable {check : β → Except ε (List β)}

/-- **Checking while collecting is checking the collection**, where the collection succeeds. -/
theorem flatMapM_check (h : ∀ a bs, f a = .ok bs → f' a = bs.flatMapM check) {l : List α}
    {found : List β} (hl : l.flatMapM f = .ok found) : l.flatMapM f' = found.flatMapM check := by
  induction l generalizing found with
  | nil =>
    cases hl
    rfl
  | cons a l ih =>
    obtain ⟨bs, rest, hbs, hrest, rfl⟩ := flatMapM_cons_eq_ok hl
    rw [List.flatMapM_cons, h a bs hbs, ih hrest, flatMapM_append]

/-- A search that fails wherever another one does fails if that one does. -/
theorem flatMapM_error (h : ∀ a e, f a = .error e → ∃ e, f' a = .error e) {l : List α} {e : ε}
    (hl : l.flatMapM f = .error e) : ∃ e, l.flatMapM f' = .error e := by
  induction l generalizing e with
  | nil => cases hl
  | cons a l ih =>
    rw [List.flatMapM_cons] at hl ⊢
    cases hf' : f' a with
    | error e' => exact ⟨e', rfl⟩
    | ok bs' =>
      cases hf : f a with
      | error e' =>
        obtain ⟨e'', he⟩ := h a e' hf
        rw [hf'] at he
        cases he
      | ok bs =>
        cases hrest : l.flatMapM f with
        | error e' =>
          obtain ⟨e'', he⟩ := ih hrest
          rw [he]
          exact ⟨e'', rfl⟩
        | ok rest =>
          rw [hf, hrest] at hl
          cases hl

/-- A check that succeeds for every element filters the list. -/
theorem flatMapM_eq_filter {p : β → Bool} {l : List β}
    (h : ∀ b ∈ l, check b = .ok (if p b then [b] else [])) :
    l.flatMapM check = .ok (l.filter p) := by
  induction l with
  | nil => rfl
  | cons b l ih =>
    obtain ⟨hb, hl⟩ := List.forall_mem_cons.mp h
    rw [List.flatMapM_cons, hb, ih hl]
    cases hp : p b <;> simp [hp, bind, Except.bind, pure, Except.pure]

/-- A search that succeeds at every element succeeds. -/
theorem exists_flatMapM_eq_ok {l : List α} (h : ∀ a ∈ l, ∃ bs, f a = .ok bs) :
    ∃ found, l.flatMapM f = .ok found := by
  induction l with
  | nil => exact ⟨[], rfl⟩
  | cons a l ih =>
    obtain ⟨⟨bs, hbs⟩, hl⟩ := List.forall_mem_cons.mp h
    obtain ⟨rest, hrest⟩ := ih hl
    refine ⟨bs ++ rest, ?_⟩
    rw [List.flatMapM_cons, hbs, hrest]
    rfl

end Search
