import Mathlib.Data.List.Basic

/-!
# Positions in a growing list

The position of the `i`-th element with some property, and of the first one behind a given position.
Both stay what they are when the list grows at its end.
-/

namespace Occurrence

universe u

variable {α : Type u} {p : α → Bool} {l : List α}

/-- There is an element with `p` at position `n`, and there are `i` of them before it. -/
def IsNth (p : α → Bool) (l : List α) (i n : ℕ) : Prop :=
  (∃ a, l[n]? = some a ∧ p a = true) ∧ (l.take n).countP p = i

/-- The first element with `p` behind position `n` is at position `m`. -/
structure IsFirstAfter (p : α → Bool) (l : List α) (n m : ℕ) : Prop where
  after : n < m
  found : ∃ a, l[m]? = some a ∧ p a = true
  first : ∀ k a, n < k → k < m → l[k]? = some a → p a = false

theorem getElem?_append {n : ℕ} {a : α} (h : l[n]? = some a) (t : List α) :
    (l ++ t)[n]? = some a := by
  obtain ⟨hn, -⟩ := List.getElem?_eq_some_iff.mp h
  rw [List.getElem?_append_left hn, h]

/-- Up to the next position there is one more, if it is one. -/
theorem countP_take_succ {n : ℕ} {a : α} (h : l[n]? = some a) :
    (l.take (n + 1)).countP p = (l.take n).countP p + if p a = true then 1 else 0 := by
  rw [List.take_add_one, h, List.countP_append]
  simp

theorem countP_take_le (n : ℕ) : (l.take n).countP p ≤ l.countP p :=
  (List.take_sublist n l).countP_le

namespace IsNth

variable {i n m : ℕ}

theorem lt_length (h : IsNth p l i n) : n < l.length := by
  obtain ⟨⟨a, ha, -⟩, -⟩ := h
  exact (List.getElem?_eq_some_iff.mp ha).1

theorem append (h : IsNth p l i n) (t : List α) : IsNth p (l ++ t) i n := by
  have hn := h.lt_length
  obtain ⟨⟨a, ha, hp⟩, hcount⟩ := h
  refine ⟨⟨a, getElem?_append ha t, hp⟩, ?_⟩
  rwa [List.take_append_of_le_length (Nat.le_of_lt hn)]

/-- There is only one `i`-th element. -/
theorem unique (h : IsNth p l i n) (h' : IsNth p l i m) : n = m := by
  -- one more is counted behind each of them
  have hlt : ∀ {n m : ℕ}, IsNth p l i n → IsNth p l i m → ¬ n < m := by
    rintro n m ⟨⟨a, ha, hp⟩, hn⟩ ⟨-, hm⟩ hlt
    have hle : (l.take (n + 1)).countP p ≤ (l.take m).countP p :=
      (List.take_prefix_take_left hlt).sublist.countP_le
    rw [countP_take_succ ha, if_pos hp] at hle
    omega
  exact Nat.le_antisymm (Nat.le_of_not_lt (hlt h' h)) (Nat.le_of_not_lt (hlt h h'))

end IsNth

theorem IsFirstAfter.append {n m : ℕ} (h : IsFirstAfter p l n m) (t : List α) :
    IsFirstAfter p (l ++ t) n m := by
  obtain ⟨a, ha, hp⟩ := h.found
  obtain ⟨hm, -⟩ := List.getElem?_eq_some_iff.mp ha
  refine ⟨h.after, ⟨a, getElem?_append ha t, hp⟩, fun k b hnk hkm hb => h.first k b hnk hkm ?_⟩
  rwa [List.getElem?_append_left (Nat.lt_trans hkm hm)] at hb

end Occurrence
