import Mathlib.Data.List.Nodup

/-!
# Tagged elements among others

Some of the elements of a list carry a tag, and the tags come in a known order: they are the first
ones of a list without repetitions. Such an element stands at the place of its tag exactly if no
untagged element stands before it.
-/

namespace Interleave

universe u v

variable {α : Type u} {β : Type v} {tag : α → Option β} {tags : List β} {l : List α}

/-- The tag of an element stands behind as many others as there are tagged elements before it. -/
theorem getElem?_tags (h : l.filterMap tag <+: tags) {i : ℕ} {a : α} {k : β} (ha : l[i]? = some a)
    (hk : tag a = some k) : tags[((l.take i).filterMap tag).length]? = some k := by
  obtain ⟨hi, rfl⟩ := List.getElem?_eq_some_iff.mp ha
  have hcut : l.filterMap tag =
      (l.take i).filterMap tag ++ k :: (l.drop (i + 1)).filterMap tag := by
    conv_lhs => rw [← List.take_append_drop i l, List.drop_eq_getElem_cons hi]
    rw [List.filterMap_append, List.filterMap_cons_some hk]
  obtain ⟨rest, rfl⟩ := h
  rw [hcut]
  simp

/-- **An element stands at the place of its tag exactly if only tagged ones stand before it.** -/
theorem getElem?_tags_iff (hnodup : tags.Nodup) (h : l.filterMap tag <+: tags) {i : ℕ} {a : α}
    {k : β} (ha : l[i]? = some a) (hk : tag a = some k) :
    tags[i]? = some k ↔ ∀ p ∈ l.take i, (tag p).isSome := by
  have hplace := getElem?_tags h ha hk
  obtain ⟨hi, -⟩ := List.getElem?_eq_some_iff.mp ha
  obtain ⟨hlt, -⟩ := List.getElem?_eq_some_iff.mp hplace
  rw [← List.filterMap_length_eq_length, List.length_take, Nat.min_eq_left (Nat.le_of_lt hi),
    ← hplace, Eq.comm, List.getElem?_inj hlt hnodup]

/-- More tagged elements stand before a later element. -/
theorem length_take_lt {i j : ℕ} (hij : i < j) {a : α} {k : β} (ha : l[i]? = some a)
    (hk : tag a = some k) :
    ((l.take i).filterMap tag).length < ((l.take j).filterMap tag).length := by
  have hsucc : (l.take (i + 1)).filterMap tag = (l.take i).filterMap tag ++ [k] := by
    rw [List.take_add_one, ha, List.filterMap_append]
    simp [hk]
  have hle : ((l.take (i + 1)).filterMap tag).length ≤ ((l.take j).filterMap tag).length :=
    ((List.take_prefix_take_left hij).filterMap tag).length_le
  rw [hsucc, List.length_append] at hle
  exact hle

/-- **A tag occurs once.** -/
theorem eq_of_tag (hnodup : tags.Nodup) (h : l.filterMap tag <+: tags) {i j : ℕ} {a b : α} {k : β}
    (ha : l[i]? = some a) (hb : l[j]? = some b) (hka : tag a = some k) (hkb : tag b = some k) :
    i = j := by
  have hi := getElem?_tags h ha hka
  obtain ⟨hlt, -⟩ := List.getElem?_eq_some_iff.mp hi
  have hsame := (List.getElem?_inj hlt hnodup).mp (hi.trans (getElem?_tags h hb hkb).symm)
  rcases Nat.lt_trichotomy i j with hij | hij | hij
  · exact absurd hsame (Nat.ne_of_lt (length_take_lt hij ha hka))
  · exact hij
  · exact absurd hsame.symm (Nat.ne_of_lt (length_take_lt hij hb hkb))

end Interleave
