import Mathlib.Data.List.Nodup
import Mathlib.Order.Nat
import SasTests.Lib.Asyncio

/-!
# Queues that share an event loop

A waiting room: any number of queues, the tasks that have been woken and have not run yet, in the
order in which they will, and for each task the queue it is suspended on. Nothing else connects a
task that has been woken with the queue it was woken for.

`Room.Sound` is what the operations of `asyncio.Queue` keep, in whatever order they come: a task
suspended on a queue is in exactly one place, among the queue's getters or among the woken tasks,
and a queue on which somebody sleeps has no more items than there are tasks woken for it. So once
all woken tasks have run, nobody sleeps on a queue that holds an item.
-/

namespace Asyncio

universe u v w

variable {κ : Type u} {α : Type v} {ι : Type w}

/-- Queues under one event loop. -/
structure Room (κ : Type u) (α : Type v) (ι : Type w) where
  /-- the queues that exist -/
  queues : κ → Option (Queue α ι)
  /-- the tasks that have been woken and have not run yet -/
  ready : List ι
  /-- the queue a task is suspended on -/
  target : ι → Option κ

namespace Room

/-- How many of the tasks in `ready` have been woken for queue `k`. -/
def wokenIn [DecidableEq κ] (target : ι → Option κ) (ready : List ι) (k : κ) : ℕ :=
  ready.countP fun i => target i = some k

/-- How many tasks have been woken for queue `k`. -/
abbrev woken [DecidableEq κ] (r : Room κ α ι) (k : κ) : ℕ := wokenIn r.target r.ready k

/-- Every suspended task is in one place: among the woken tasks, or among the getters of the queue
it is suspended on. -/
structure Placed (r : Room κ α ι) : Prop where
  ready_nodup : r.ready.Nodup
  ready_target : ∀ i ∈ r.ready, ∃ k, r.target i = some k
  getters_nodup : ∀ k q, r.queues k = some q → q.getters.Nodup
  getters_target : ∀ k q, r.queues k = some q → ∀ i ∈ q.getters, r.target i = some k ∧ i ∉ r.ready
  placed : ∀ i k, r.target i = some k → ∃ q, r.queues k = some q ∧ (i ∈ r.ready ∨ i ∈ q.getters)

/-- Every suspended task is in one place, and nobody sleeps on an item that no woken task is there
to take. -/
structure Sound [DecidableEq κ] (r : Room κ α ι) : Prop extends Placed r where
  attended : ∀ k q, r.queues k = some q → q.getters = [] ∨ q.items.length ≤ r.woken k

/-- Nobody sleeps on an item once all woken tasks have run. -/
theorem Sound.items_eq_nil [DecidableEq κ] {r : Room κ α ι} (h : r.Sound) (hready : r.ready = [])
    {i : ι} {k : κ} {q : Queue α ι} (hi : r.target i = some k) (hq : r.queues k = some q) :
    q.items = [] := by
  obtain ⟨q', hq', hplace⟩ := h.placed i k hi
  obtain rfl : q = q' := Option.some.inj (hq.symm.trans hq')
  rcases hplace with hmem | hmem
  · rw [hready] at hmem
    cases hmem
  rcases h.attended k q hq with hnil | hle
  · rw [hnil] at hmem
    cases hmem
  · rw [woken, hready] at hle
    exact List.length_eq_zero_iff.mp (Nat.le_zero.mp hle)

/-! ## Counting the woken tasks -/

section counting

variable [DecidableEq κ] {target : ι → Option κ} {ready : List ι}

/-- One more task has been woken. -/
theorem wokenIn_concat (i : ι) (k : κ) :
    wokenIn target (ready ++ [i]) k =
      wokenIn target ready k + if target i = some k then 1 else 0 := by
  simp [wokenIn, List.countP_cons]

/-- The first of the woken tasks is one of them. -/
theorem wokenIn_cons (i : ι) (k : κ) :
    wokenIn target (i :: ready) k =
      wokenIn target ready k + if target i = some k then 1 else 0 := by
  simp [wokenIn, List.countP_cons]

variable [DecidableEq ι]

/-- What happens to a task that has not been woken does not change the count. -/
theorem wokenIn_update {i : ι} (hi : i ∉ ready) (o : Option κ) (k : κ) :
    wokenIn (Function.update target i o) ready k = wokenIn target ready k := by
  refine List.countP_congr fun j hj => ?_
  have hne : j ≠ i := fun h => hi (h ▸ hj)
  rw [Function.update_of_ne hne]

/-- A task that leaves the woken ones is one less. -/
theorem wokenIn_erase {i : ι} (hi : i ∈ ready) (k : κ) :
    wokenIn target ready k =
      wokenIn target (ready.erase i) k + if target i = some k then 1 else 0 :=
  ((List.perm_cons_erase hi).countP_eq _).trans (wokenIn_cons i k)

end counting

/-! ## Where the tasks are -/

variable {queues : κ → Option (Queue α ι)} {ready : List ι} {target : ι → Option κ} {k : κ}
  {q : Queue α ι}

/-- The queue found under a key after one queue has been replaced. -/
theorem update_queues [DecidableEq κ] {q' q'' : Queue α ι} {k' : κ}
    (h : Function.update queues k (some q') k' = some q'') :
    (k' = k ∧ q'' = q') ∨ (k' ≠ k ∧ queues k' = some q'') := by
  by_cases hk : k' = k
  · subst hk
    rw [Function.update_self] at h
    exact .inl ⟨rfl, (Option.some.inj h).symm⟩
  · rw [Function.update_of_ne hk] at h
    exact .inr ⟨hk, h⟩

namespace Placed

/-- A task that is not suspended is in no queue, and has not been woken. -/
theorem not_mem_getters (h : Placed ⟨queues, ready, target⟩) {i : ι} (hi : target i = none)
    (hq : queues k = some q) : i ∉ q.getters := by
  intro hmem
  cases hi.symm.trans (h.getters_target k q hq i hmem).1

theorem not_mem_ready (h : Placed ⟨queues, ready, target⟩) {i : ι} (hi : target i = none) :
    i ∉ ready := by
  intro hmem
  obtain ⟨k, hk⟩ := h.ready_target i hmem
  cases hi.symm.trans hk

/-- The items of a queue are of no account. -/
theorem setItems [DecidableEq κ] (h : Placed ⟨queues, ready, target⟩) (hq : queues k = some q)
    (items : List α) :
    Placed ⟨Function.update queues k (some ⟨items, q.getters⟩), ready, target⟩ where
  ready_nodup := h.ready_nodup
  ready_target := h.ready_target
  getters_nodup k' q' hq' := by
    rcases update_queues hq' with ⟨rfl, rfl⟩ | ⟨-, hq'⟩
    · exact h.getters_nodup k' q hq
    · exact h.getters_nodup k' q' hq'
  getters_target k' q' hq' := by
    rcases update_queues hq' with ⟨rfl, rfl⟩ | ⟨-, hq'⟩
    · exact h.getters_target k' q hq
    · exact h.getters_target k' q' hq'
  placed i k' hi := by
    obtain ⟨q₀, hq₀, hplace⟩ := h.placed i k' hi
    by_cases hk : k' = k
    · subst hk
      obtain rfl : q = q₀ := Option.some.inj (hq.symm.trans hq₀)
      exact ⟨_, Function.update_self .., hplace⟩
    · exact ⟨q₀, (Function.update_of_ne hk ..).trans hq₀, hplace⟩

/-- The oldest getter of queue `k` is woken. -/
theorem wakeNext [DecidableEq κ] (h : Placed ⟨queues, ready, target⟩) (hq : queues k = some q)
    (items : List α) :
    Placed ⟨Function.update queues k (some ⟨items, q.getters.tail⟩),
      ready ++ q.getters.head?.toList, target⟩ := by
  rcases hgetters : q.getters with _ | ⟨j, rest⟩
  · rw [List.tail_nil, List.head?_nil, Option.toList_none, List.append_nil, ← hgetters]
    exact h.setItems hq items
  rw [List.tail_cons, List.head?_cons, Option.toList_some]
  have hnodup : (j :: rest).Nodup := hgetters ▸ h.getters_nodup k q hq
  have hmem : ∀ i ∈ j :: rest, target i = some k ∧ i ∉ ready :=
    fun i hi => h.getters_target k q hq i (hgetters ▸ hi)
  obtain ⟨hj, hjready⟩ := hmem j List.mem_cons_self
  refine ⟨?_, fun i hi => ?_, fun k' q' hq' => ?_, fun k' q' hq' i hi => ?_, fun i k' hi => ?_⟩
  · exact h.ready_nodup.append (List.nodup_singleton j) (List.disjoint_singleton.mpr hjready)
  · rcases List.mem_append.mp hi with hi | hi
    · exact h.ready_target i hi
    · exact ⟨k, (List.mem_singleton.mp hi) ▸ hj⟩
  · rcases update_queues hq' with ⟨-, rfl⟩ | ⟨-, hq'⟩
    · exact hnodup.of_cons
    · exact h.getters_nodup k' q' hq'
  · -- `j` was in queue `k` only, and there once
    rcases update_queues hq' with ⟨rfl, rfl⟩ | ⟨hk, hq'⟩
    · obtain ⟨hi', hready⟩ := hmem i (List.mem_cons_of_mem j hi)
      refine ⟨hi', List.not_mem_append hready fun hij => ?_⟩
      rw [List.mem_singleton.mp hij] at hi
      exact (List.nodup_cons.mp hnodup).1 hi
    · obtain ⟨hi', hready⟩ := h.getters_target k' q' hq' i hi
      refine ⟨hi', List.not_mem_append hready fun hij => ?_⟩
      rw [List.mem_singleton.mp hij] at hi'
      exact hk (Option.some.inj (hi'.symm.trans hj))
  · obtain ⟨q₀, hq₀, hplace⟩ := h.placed i k' hi
    by_cases hk : k' = k
    · subst hk
      obtain rfl : q = q₀ := Option.some.inj (hq.symm.trans hq₀)
      refine ⟨_, Function.update_self .., ?_⟩
      rw [hgetters] at hplace
      rcases hplace with hplace | hplace
      · exact .inl (List.mem_append_left _ hplace)
      rcases List.mem_cons.mp hplace with rfl | hplace
      · exact .inl (List.mem_append_right _ List.mem_cons_self)
      · exact .inr hplace
    · refine ⟨q₀, (Function.update_of_ne hk ..).trans hq₀, ?_⟩
      exact hplace.imp_left fun hmem => List.mem_append_left _ hmem

variable [DecidableEq ι] {i : ι}

/-- Task `i` goes to sleep on queue `k`. -/
theorem suspend [DecidableEq κ] (h : Placed ⟨queues, ready, target⟩) (hi : target i = none)
    (hq : queues k = some q) :
    Placed ⟨Function.update queues k (some { q with getters := q.getters ++ [i] }), ready,
      Function.update target i (some k)⟩ := by
  have hready : i ∉ ready := h.not_mem_ready hi
  have hkeep : ∀ {j : ι} {k' : κ}, target j = some k' →
      Function.update target i (some k) j = some k' := by
    intro j k' hj
    refine (Function.update_of_ne ?_ ..).trans hj
    rintro rfl
    cases hi.symm.trans hj
  have hold : ∀ k' q₀, queues k' = some q₀ → ∀ j ∈ q₀.getters,
      Function.update target i (some k) j = some k' ∧ j ∉ ready := by
    intro k' q₀ hq₀ j hmem
    exact (h.getters_target k' q₀ hq₀ j hmem).imp_left hkeep
  refine ⟨h.ready_nodup, fun j hj => ?_, fun k' q' hq' => ?_, fun k' q' hq' j hj => ?_,
    fun j k' hj => ?_⟩
  · obtain ⟨k', hk'⟩ := h.ready_target j hj
    exact ⟨k', hkeep hk'⟩
  · rcases update_queues hq' with ⟨rfl, rfl⟩ | ⟨-, hq'⟩
    · refine (h.getters_nodup k' q hq).append (List.nodup_singleton i) ?_
      exact List.disjoint_singleton.mpr (h.not_mem_getters hi hq)
    · exact h.getters_nodup k' q' hq'
  · rcases update_queues hq' with ⟨rfl, rfl⟩ | ⟨-, hq'⟩
    · rcases List.mem_append.mp hj with hj | hj
      · exact hold k' q hq j hj
      · rw [List.mem_singleton.mp hj]
        exact ⟨Function.update_self .., hready⟩
    · exact hold k' q' hq' j hj
  · by_cases hji : j = i
    · subst hji
      change Function.update target j (some k) j = some k' at hj
      rw [Function.update_self] at hj
      obtain rfl := Option.some.inj hj
      exact ⟨_, Function.update_self .., .inr (List.mem_append_right _ List.mem_cons_self)⟩
    obtain ⟨q₀, hq₀, hplace⟩ := h.placed j k' ((Function.update_of_ne hji ..).symm.trans hj)
    by_cases hk : k' = k
    · subst hk
      obtain rfl : q = q₀ := Option.some.inj (hq.symm.trans hq₀)
      exact ⟨_, Function.update_self .., hplace.imp_right (List.mem_append_left _)⟩
    · exact ⟨q₀, (Function.update_of_ne hk ..).trans hq₀, hplace⟩

/-- Task `i`, which has been woken, is no longer suspended. -/
theorem leaveReady (h : Placed ⟨queues, ready, target⟩) (hi : i ∈ ready) :
    Placed ⟨queues, ready.erase i, Function.update target i none⟩ := by
  have hkeep : ∀ {j : ι} {k' : κ}, j ≠ i → target j = some k' →
      Function.update target i none j = some k' :=
    fun hji hj => (Function.update_of_ne hji ..).trans hj
  have hne : ∀ j ∈ ready.erase i, j ≠ i := fun j hj => (h.ready_nodup.mem_erase_iff.mp hj).1
  refine ⟨h.ready_nodup.erase i, fun j hj => ?_, h.getters_nodup, fun k' q' hq' j hj => ?_,
    fun j k' hj => ?_⟩
  · obtain ⟨k', hk'⟩ := h.ready_target j (List.mem_of_mem_erase hj)
    exact ⟨k', hkeep (hne j hj) hk'⟩
  · obtain ⟨hj', hjready⟩ := h.getters_target k' q' hq' j hj
    have hji : j ≠ i := fun heq => hjready (heq ▸ hi)
    exact ⟨hkeep hji hj', fun hmem => hjready (List.mem_of_mem_erase hmem)⟩
  · have hji : j ≠ i := by
      rintro rfl
      cases (Function.update_self ..).symm.trans hj
    obtain ⟨q', hq', hplace⟩ := h.placed j k' ((Function.update_of_ne hji ..).symm.trans hj)
    exact ⟨q', hq', hplace.imp_left fun hmem => (List.mem_erase_of_ne hji).mpr hmem⟩

/-- Task `i`, which sleeps on queue `k`, is no longer suspended. -/
theorem leaveGetters [DecidableEq κ] (h : Placed ⟨queues, ready, target⟩) (hi : i ∉ ready)
    (htarget : target i = some k) (hq : queues k = some q) :
    Placed ⟨Function.update queues k (some { q with getters := q.getters.erase i }), ready,
      Function.update target i none⟩ := by
  have hkeep : ∀ {j : ι} {k' : κ}, j ≠ i → target j = some k' →
      Function.update target i none j = some k' :=
    fun hji hj => (Function.update_of_ne hji ..).trans hj
  refine ⟨h.ready_nodup, fun j hj => ?_, fun k' q' hq' => ?_, fun k' q' hq' j hj => ?_,
    fun j k' hj => ?_⟩
  · obtain ⟨k', hk'⟩ := h.ready_target j hj
    exact ⟨k', hkeep (fun heq => hi (heq ▸ hj)) hk'⟩
  · rcases update_queues hq' with ⟨rfl, rfl⟩ | ⟨-, hq'⟩
    · exact (h.getters_nodup k' q hq).erase i
    · exact h.getters_nodup k' q' hq'
  · rcases update_queues hq' with ⟨rfl, rfl⟩ | ⟨hk, hq'⟩
    · have hji := ((h.getters_nodup k' q hq).mem_erase_iff.mp hj).1
      exact (h.getters_target k' q hq j (List.mem_of_mem_erase hj)).imp_left (hkeep hji)
    · obtain ⟨hj', hjready⟩ := h.getters_target k' q' hq' j hj
      have hji : j ≠ i := by
        rintro rfl
        exact hk (Option.some.inj (hj'.symm.trans htarget))
      exact ⟨hkeep hji hj', hjready⟩
  · have hji : j ≠ i := by
      rintro rfl
      cases (Function.update_self ..).symm.trans hj
    obtain ⟨q₀, hq₀, hplace⟩ := h.placed j k' ((Function.update_of_ne hji ..).symm.trans hj)
    by_cases hk : k' = k
    · subst hk
      obtain rfl : q = q₀ := Option.some.inj (hq.symm.trans hq₀)
      refine ⟨_, Function.update_self .., hplace.imp_right fun hmem => ?_⟩
      exact (List.mem_erase_of_ne hji).mpr hmem
    · exact ⟨q₀, (Function.update_of_ne hk ..).trans hq₀, hplace⟩

end Placed

/-! ## The operations -/

namespace Sound

variable [DecidableEq κ]

/-- No queues, and nobody is suspended. -/
theorem empty (hqueues : ∀ k, queues k = none) (htarget : ∀ i, target i = none) :
    Sound ⟨queues, [], target⟩ where
  ready_nodup := List.nodup_nil
  ready_target i hi := (List.not_mem_nil hi).elim
  getters_nodup k q hq := by cases (hqueues k).symm.trans hq
  getters_target k q hq := by cases (hqueues k).symm.trans hq
  placed i k hi := by cases (htarget i).symm.trans hi
  attended k q hq := by cases (hqueues k).symm.trans hq

/-- New queues are created. -/
theorem create {queues' : κ → Option (Queue α ι)} (h : Sound ⟨queues, ready, target⟩)
    (hold : ∀ k q, queues k = some q → queues' k = some q)
    (hnew : ∀ k q, queues' k = some q → queues k = some q ∨ q = .empty) :
    Sound ⟨queues', ready, target⟩ where
  ready_nodup := h.ready_nodup
  ready_target := h.ready_target
  getters_nodup k q hq := by
    rcases hnew k q hq with hq | rfl
    · exact h.getters_nodup k q hq
    · exact List.nodup_nil
  getters_target k q hq := by
    rcases hnew k q hq with hq | rfl
    · exact h.getters_target k q hq
    · exact fun i hi => (List.not_mem_nil hi).elim
  placed i k hi := by
    obtain ⟨q, hq, hplace⟩ := h.placed i k hi
    exact ⟨q, hold k q hq, hplace⟩
  attended k q hq := by
    rcases hnew k q hq with hq | rfl
    · exact h.attended k q hq
    · exact .inl rfl

/-- Everybody keeps their place, and the queues other than `k` their items: that nobody sleeps on
an item is to be shown for `k`. -/
theorem of_placed {q' : Queue α ι} {ready' : List ι} {target' : ι → Option κ}
    (h : Sound ⟨queues, ready, target⟩)
    (hplaced : Placed ⟨Function.update queues k (some q'), ready', target'⟩)
    (hk : q'.getters = [] ∨ q'.items.length ≤ wokenIn target' ready' k)
    (hother : ∀ k', k' ≠ k → wokenIn target ready k' ≤ wokenIn target' ready' k') :
    Sound ⟨Function.update queues k (some q'), ready', target'⟩ where
  toPlaced := hplaced
  attended k' q'' hq'' := by
    rcases update_queues hq'' with ⟨rfl, rfl⟩ | ⟨hne, hq''⟩
    · exact hk
    · exact (h.attended k' q'' hq'').imp_right fun hle => hle.trans (hother k' hne)

/-- `put`: the oldest getter is woken. -/
theorem put (h : Sound ⟨queues, ready, target⟩) (hq : queues k = some q) (a : α) :
    Sound ⟨Function.update queues k (some (q.put a).1), ready ++ (q.put a).2.toList, target⟩ := by
  refine h.of_placed (h.wakeNext hq _) ?_ fun k' _ => ?_
  · rcases hgetters : q.getters with _ | ⟨j, rest⟩
    · left
      rw [Queue.put_getters, hgetters, List.tail_nil]
    · right
      have hj : target j = some k :=
        (h.getters_target k q hq j (hgetters ▸ List.mem_cons_self)).1
      have hle := (h.attended k q hq).resolve_left (hgetters ▸ List.cons_ne_nil j rest)
      rw [Queue.put_woken, hgetters, List.head?_cons, Option.toList_some, wokenIn_concat, if_pos hj,
        Queue.put_items, List.length_append]
      exact Nat.add_le_add_right hle 1
  · rw [wokenIn, wokenIn, List.countP_append]
    exact Nat.le_add_right ..

/-- A task takes an item without having waited. -/
theorem take {a : α} {rest : List α} (h : Sound ⟨queues, ready, target⟩) (hq : queues k = some q)
    (hitems : q.items = a :: rest) :
    Sound ⟨Function.update queues k (some { q with items := rest }), ready, target⟩ := by
  refine h.of_placed (h.setItems hq rest) ?_ fun k' _ => le_rfl
  refine (h.attended k q hq).imp_right fun hle => ?_
  rw [hitems] at hle
  exact (Nat.le_succ _).trans hle

variable [DecidableEq ι] {i : ι}

/-- A task that is not suspended finds queue `k` empty. -/
theorem suspend (h : Sound ⟨queues, ready, target⟩) (hi : target i = none)
    (hq : queues k = some q) (hitems : q.items = []) :
    Sound ⟨Function.update queues k (some { q with getters := q.getters ++ [i] }), ready,
      Function.update target i (some k)⟩ := by
  refine h.of_placed (h.toPlaced.suspend hi hq) (.inr ?_) fun k' _ => ?_
  · rw [hitems]
    exact Nat.zero_le _
  · exact (wokenIn_update (h.not_mem_ready hi) _ _).ge

/-- Task `i`, the first of the woken ones, takes an item from the queue it was woken for. -/
theorem wokenTakes {a : α} {rest : List α} (h : Sound ⟨queues, i :: ready, target⟩)
    (hi : target i = some k) (hq : queues k = some q) (hitems : q.items = a :: rest) :
    Sound ⟨Function.update queues k (some { q with items := rest }), ready,
      Function.update target i none⟩ := by
  have hready : i ∉ ready := (List.nodup_cons.mp h.ready_nodup).1
  have hplaced := h.leaveReady List.mem_cons_self
  rw [List.erase_cons_head] at hplaced
  refine h.of_placed (hplaced.setItems hq rest) ?_ fun k' hk' => ?_
  · refine (h.attended k q hq).imp_right fun hle => ?_
    change _ ≤ wokenIn target (i :: ready) k at hle
    rw [wokenIn_cons, if_pos hi, hitems, List.length_cons] at hle
    rw [wokenIn_update hready]
    exact Nat.le_of_succ_le_succ hle
  · rw [wokenIn_update hready, wokenIn_cons, if_neg, Nat.add_zero]
    exact fun (heq : target i = some k') => hk' (Option.some.inj (heq.symm.trans hi))

/-- Task `i`, the first of the woken ones, finds the queue it was woken for empty. -/
theorem suspendAgain (h : Sound ⟨queues, i :: ready, target⟩) (hi : target i = some k)
    (hq : queues k = some q) (hitems : q.items = []) :
    Sound ⟨Function.update queues k (some { q with getters := q.getters ++ [i] }), ready,
      target⟩ := by
  have hready : i ∉ ready := (List.nodup_cons.mp h.ready_nodup).1
  have hplaced := h.leaveReady List.mem_cons_self
  rw [List.erase_cons_head] at hplaced
  have hplaced := hplaced.suspend (Function.update_self ..) hq
  rw [Function.update_idem, show Function.update target i (some k) = target from
    Function.update_eq_self_iff.mpr hi.symm] at hplaced
  refine h.of_placed hplaced (.inr ?_) fun k' hk' => ?_
  · rw [hitems]
    exact Nat.zero_le _
  · rw [wokenIn_cons, if_neg, Nat.add_zero]
    exact fun (heq : target i = some k') => hk' (Option.some.inj (heq.symm.trans hi))

/-- `get` is cancelled in task `i`: if it had been woken, it passes the wake-up on. -/
theorem cancel {woken : Bool} (h : Sound ⟨queues, ready, target⟩) (hi : target i = some k)
    (hq : queues k = some q) (hwoken : woken = true ↔ i ∈ ready) :
    Sound ⟨Function.update queues k (some (q.cancel i woken).1),
      ready.erase i ++ (q.cancel i woken).2.toList, Function.update target i none⟩ := by
  have hother : ∀ k', k' ≠ k →
      wokenIn target ready k' ≤ wokenIn (Function.update target i none) (ready.erase i) k' := by
    intro k' hk'
    rw [wokenIn_update h.ready_nodup.not_mem_erase]
    by_cases hready : i ∈ ready
    · rw [wokenIn_erase hready, if_neg, Nat.add_zero]
      exact fun (heq : target i = some k') => hk' (Option.some.inj (heq.symm.trans hi))
    · rw [List.erase_of_not_mem hready]
  by_cases hready : i ∈ ready
  · have hgetters : q.getters.erase i = q.getters :=
      List.erase_of_not_mem fun hmem => (h.getters_target k q hq i hmem).2 hready
    have hplaced := h.leaveReady hready
    have hcount : wokenIn target ready k = wokenIn target (ready.erase i) k + 1 := by
      rw [wokenIn_erase hready, if_pos hi]
    rcases hitems : q.items with _ | ⟨a, rest⟩
    · have hcancel : q.cancel i woken = (⟨[], q.getters⟩, none) := by
        simp [Queue.cancel, hitems, hgetters]
      rw [hcancel, Option.toList_none, List.append_nil]
      exact h.of_placed (hplaced.setItems hq []) (.inr (Nat.zero_le _)) hother
    · have hcancel : q.cancel i woken = (⟨q.items, q.getters.tail⟩, q.getters.head?) := by
        simp [Queue.cancel, Queue.wakeupNext, hitems, hgetters, hwoken.mpr hready]
      rw [hcancel]
      refine h.of_placed (hplaced.wakeNext hq q.items) ?_ fun k' hk' => ?_
      · -- one of the woken tasks has gone and another has come
        rcases hgetters' : q.getters with _ | ⟨j, rest'⟩
        · exact .inl rfl
        right
        obtain ⟨hj, hjready⟩ := h.getters_target k q hq j (hgetters' ▸ List.mem_cons_self)
        have hji : j ≠ i := fun heq => hjready (heq ▸ hready)
        have hle := (h.attended k q hq).resolve_left (hgetters' ▸ List.cons_ne_nil j rest')
        rw [List.head?_cons, Option.toList_some, wokenIn_concat, Function.update_of_ne hji,
          if_pos hj, wokenIn_update h.ready_nodup.not_mem_erase, ← hcount]
        exact hle
      · refine (hother k' hk').trans ?_
        rw [wokenIn, wokenIn, List.countP_append]
        exact Nat.le_add_right ..
  · have hcancel : q.cancel i woken = ({ q with getters := q.getters.erase i }, none) := by
      simp [Queue.cancel, Bool.eq_false_iff.mpr fun h => hready (hwoken.mp h)]
    rw [hcancel, Option.toList_none, List.append_nil]
    rw [List.erase_of_not_mem hready] at hother ⊢
    refine h.of_placed (h.leaveGetters hready hi hq) ?_ hother
    rcases h.attended k q hq with hnil | hle
    · left
      rw [hnil, List.erase_nil]
    · right
      rw [wokenIn_update hready]
      exact hle

end Sound

end Room

end Asyncio
