import Mathlib.Data.List.Basic
import Mathlib.Logic.Function.Basic

/-!
# Tables filled from a list

A table is filled in one pass through a list. Each element goes to the entry of its key, and what
becomes of that entry depends on the element and on what the entry holds (`fill`). So an entry knows
the elements of its own key only (`fill_apply`), and it does not matter how those of different keys
are mixed (`fill_congr`).

* `fill_last` — where each element replaces the one before it, the last one of a key is left.
* `fill_prefer` — where an element only replaces one that is worse, the first good one is left, and
  without a good one the first.
-/

namespace Table

universe u v w

variable {α : Type u} {β : Type v} {κ : Type w} [DecidableEq κ]

/-- The table `t` after `a`. -/
def put (key : α → κ) (step : α → Option β → Option β) (t : κ → Option β) (a : α) : κ → Option β :=
  Function.update t (key a) (step a (t (key a)))

/-- The table that `l` fills. -/
def fill (key : α → κ) (step : α → Option β → Option β) (l : List α) : κ → Option β :=
  l.foldl (put key step) fun _ => none

variable {key : α → κ} {step : α → Option β → Option β}

theorem foldl_put_apply (t : κ → Option β) (l : List α) (k : κ) :
    l.foldl (put key step) t k =
      (l.filter fun a => key a = k).foldl (fun b a => step a b) (t k) := by
  induction l generalizing t with
  | nil => rfl
  | cons a l ih =>
    rw [List.foldl_cons, ih]
    by_cases h : key a = k
    · subst h
      rw [List.filter_cons_of_pos (by simp), List.foldl_cons, put, Function.update_self]
    · rw [List.filter_cons_of_neg (by simpa using h), put, Function.update_of_ne (Ne.symm h)]

/-- **An entry is what the elements of its key make of it.** -/
theorem fill_apply (l : List α) (k : κ) :
    fill key step l k = (l.filter fun a => key a = k).foldl (fun b a => step a b) none :=
  foldl_put_apply _ l k

/-- Lists with the same elements of a key make the same of its entry. -/
theorem fill_congr {l l' : List α} {k : κ}
    (h : (l.filter fun a => key a = k) = l'.filter fun a => key a = k) :
    fill key step l k = fill key step l' k := by
  rw [fill_apply, fill_apply, h]

/-! ## The last one -/

theorem foldl_last (value : α → β) (l : List α) (b : Option β) :
    l.foldl (fun _ a => some (value a)) b = (l.getLast?.map value).or b := by
  induction l generalizing b with
  | nil => rfl
  | cons a l ih =>
    rw [List.foldl_cons, ih, List.getLast?_cons]
    cases l.getLast? <;> rfl

/-- The last element of a key is left. -/
theorem fill_last (value : α → β) (l : List α) (k : κ) :
    fill key (fun a _ => some (value a)) l k =
      ((l.filter fun a => key a = k).getLast?).map value := by
  rw [fill_apply, foldl_last, Option.or_none]

/-! ## The first good one -/

variable (good : α → Bool)

/-- `a` replaces an element that is not good if it is good itself. -/
def prefer (a : α) : Option α → Option α
  | none => some a
  | some b => if !good b && good a then some a else some b

theorem foldl_prefer_of_good {b : α} (h : good b = true) (l : List α) :
    l.foldl (fun b a => prefer good a b) (some b) = some b := by
  induction l with
  | nil => rfl
  | cons a l ih => simpa [prefer, h] using ih

theorem foldl_prefer_of_not_good {b : α} (h : good b = false) (l : List α) :
    l.foldl (fun b a => prefer good a b) (some b) = (l.find? good).or (some b) := by
  induction l with
  | nil => rfl
  | cons a l ih =>
    rw [List.foldl_cons, prefer, h]
    cases ha : good a with
    | false => simpa [ha] using ih
    | true => simpa [ha] using foldl_prefer_of_good good ha l

/-- The first good element of a key is left, and without a good one the first. -/
theorem fill_prefer (l : List α) (k : κ) :
    fill key (prefer good) l k =
      (l.find? fun a => key a = k && good a).or (l.find? fun a => key a = k) := by
  have hgood : (l.find? fun a => key a = k && good a) =
      (l.filter fun a => key a = k).find? good := by
    simp [List.find?_filter]
  have hfirst : (l.find? fun a => key a = k) = (l.filter fun a => key a = k).head? :=
    (List.head?_filter ..).symm
  rw [fill_apply, hgood, hfirst]
  cases l.filter fun a => key a = k with
  | nil => rfl
  | cons a l =>
    rw [List.foldl_cons, List.head?_cons, prefer]
    cases ha : good a with
    | false => rw [foldl_prefer_of_not_good good ha, List.find?_cons_of_neg (by simp [ha])]
    | true => rw [foldl_prefer_of_good good ha, List.find?_cons_of_pos ha, Option.some_or]

end Table
