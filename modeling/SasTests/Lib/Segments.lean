import Mathlib.Data.List.Chain
import Mathlib.Data.List.SplitLengths
import Mathlib.Algebra.GroupWithZero.Nat

/-!
# Cutting a list into blocks

A list is cut wherever two neighbours are not near each other (`IsCut`). Blocks grow at the end: a
new element belongs to the last block, or starts another one. The lengths of the blocks say where
the cuts are (`IsCut.splitLengths_eq`).
-/

namespace Segments

universe u

variable {α : Type u} {near : α → α → Prop}

/-- The neighbours on both sides of each cut. -/
def joints : List (List α) → List (α × α)
  | a :: b :: rest =>
    (a.getLast?.bind fun x => b.head?.map fun y => (x, y)).toList ++ joints (b :: rest)
  | _ => []

/-- The blocks are what `l` falls into if it is cut between elements that are not near each
other. -/
structure IsCut (near : α → α → Prop) (blocks : List (List α)) (l : List α) : Prop where
  flatten : blocks.flatten = l
  nonempty : ∀ b ∈ blocks, b ≠ []
  inside : ∀ b ∈ blocks, b.IsChain near
  between : ∀ p ∈ joints blocks, ¬ near p.1 p.2

/-- A block that grows at its end has the same joints. -/
theorem joints_extend (blocks : List (List α)) {b : List α} (hb : b ≠ []) (y : α) :
    joints (blocks ++ [b ++ [y]]) = joints (blocks ++ [b]) := by
  induction blocks with
  | nil => rfl
  | cons a blocks ih =>
    cases blocks with
    | nil =>
      obtain ⟨z, b, rfl⟩ := List.exists_cons_of_ne_nil hb
      rfl
    | cons a' blocks =>
      simp only [List.cons_append, joints] at ih ⊢
      rw [ih]

/-- A new block has one joint with the blocks before it. -/
theorem joints_start (blocks : List (List α)) {b : List α} {x : α} (hx : b.getLast? = some x)
    (y : α) : joints (blocks ++ [b] ++ [[y]]) = joints (blocks ++ [b]) ++ [(x, y)] := by
  induction blocks with
  | nil => simp [joints, hx]
  | cons a blocks ih =>
    cases blocks with
    | nil => simp [joints, hx]
    | cons a' blocks =>
      simp only [List.cons_append, joints, List.append_assoc] at ih ⊢
      rw [ih]

theorem length_joints {blocks : List (List α)} (h : ∀ b ∈ blocks, b ≠ []) :
    (joints blocks).length = blocks.length - 1 := by
  induction blocks with
  | nil => rfl
  | cons a blocks ih =>
    cases blocks with
    | nil => rfl
    | cons b blocks =>
      obtain ⟨ha, h⟩ := List.forall_mem_cons.mp h
      have hb := (List.forall_mem_cons.mp h).1
      rw [joints, List.length_append, ih h, List.getLast?_eq_some_getLast ha,
        List.head?_eq_some_head hb]
      simp [Nat.add_comm]

namespace IsCut

variable {blocks : List (List α)} {b l : List α}

theorem singleton (a : α) : IsCut near ([] ++ [[a]]) [a] where
  flatten := rfl
  nonempty := by simp
  inside := by simp
  between := by simp [joints]

/-- The next element is near the last one. -/
theorem extend (h : IsCut near (blocks ++ [b]) l) {x y : α} (hx : b.getLast? = some x)
    (hxy : near x y) : IsCut near (blocks ++ [b ++ [y]]) (l ++ [y]) := by
  have hb : b ≠ [] := h.nonempty b (by simp)
  refine ⟨?_, ?_, ?_, ?_⟩
  · rw [← h.flatten]
    simp
  · intro c hc
    rcases List.mem_append.mp hc with hc | hc
    · exact h.nonempty c (List.mem_append_left _ hc)
    · rw [List.mem_singleton.mp hc]
      simp
  · intro c hc
    rcases List.mem_append.mp hc with hc | hc
    · exact h.inside c (List.mem_append_left _ hc)
    · rw [List.mem_singleton.mp hc, List.isChain_append]
      refine ⟨h.inside b (by simp), .singleton y, ?_⟩
      simp [hx, hxy]
  · rw [joints_extend blocks hb]
    exact h.between

/-- The next element is not. -/
theorem start (h : IsCut near (blocks ++ [b]) l) {x y : α} (hx : b.getLast? = some x)
    (hxy : ¬ near x y) : IsCut near (blocks ++ [b] ++ [[y]]) (l ++ [y]) := by
  refine ⟨?_, ?_, ?_, ?_⟩
  · rw [List.flatten_append, h.flatten]
    rfl
  · intro c hc
    rcases List.mem_append.mp hc with hc | hc
    · exact h.nonempty c hc
    · rw [List.mem_singleton.mp hc]
      simp
  · intro c hc
    rcases List.mem_append.mp hc with hc | hc
    · exact h.inside c hc
    · rw [List.mem_singleton.mp hc]
      exact .singleton y
  · intro p hp
    rw [joints_start blocks hx] at hp
    rcases List.mem_append.mp hp with hp | hp
    · exact h.between p hp
    · rw [List.mem_singleton.mp hp]
      exact hxy

/-- **The lengths of the blocks say where the list is cut.** -/
theorem splitLengths_eq (h : IsCut near blocks l) :
    (blocks.map List.length).splitLengths l = blocks := by
  rw [← h.flatten]
  clear h
  induction blocks with
  | nil => rfl
  | cons b blocks ih =>
    rw [List.map_cons, List.splitLengths_cons, List.flatten_cons, List.take_left, List.drop_left,
      ih]

theorem sum_length (h : IsCut near blocks l) : (blocks.map List.length).sum = l.length := by
  rw [← h.flatten, List.length_flatten]

end IsCut

end Segments
