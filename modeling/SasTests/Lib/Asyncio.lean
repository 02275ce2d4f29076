import Mathlib.Data.List.Basic

/-!
# `asyncio.Queue` and `asyncio.Event`

The two synchronization primitives of Python's event loop, as of Python 3.12. Tasks switch only
where they suspend, so each operation below is one atomic step; a suspended task is named by an
element of `ι`, and an operation that resolves a task's future returns the task's name.

* `Queue` — an unbounded FIFO queue. `put` never suspends; `get` suspends on an empty queue and
  looks again each time it is woken. Being woken is not yet having an item: another task may take
  it first, and a `get` cancelled in between passes its wake-up on and takes nothing.
* `Event` — a flag with waiters. `set` resolves every registered waiter. `Unmissed` is the
  invariant of the scan–clear–wait loop: whoever still sleeps has nothing to wake up for.
-/

namespace Asyncio

universe u v w

/-! ## Queues -/

/-- `asyncio.Queue()`: the items, oldest first, and the tasks suspended in `get`, in the order in
which they will be woken. -/
structure Queue (α : Type u) (ι : Type v) where
  /-- the items, oldest first -/
  items : List α
  /-- the tasks suspended in `get`, oldest first -/
  getters : List ι

namespace Queue

variable {α : Type u} {ι : Type v}

/-- A new queue. -/
def empty : Queue α ι := ⟨[], []⟩

/-- `_wakeup_next(self._getters)`: resolve the future of the oldest getter, if there is one. -/
def wakeupNext (q : Queue α ι) : Queue α ι × Option ι :=
  ({ q with getters := q.getters.tail }, q.getters.head?)

/-- `put` on an unbounded queue. -/
def put (q : Queue α ι) (a : α) : Queue α ι × Option ι :=
  { q with items := q.items ++ [a] }.wakeupNext

/-- One pass of `while self.empty()` in the `get` of task `i`: take the oldest item, or register
and suspend. -/
def get (q : Queue α ι) (i : ι) : Queue α ι × Option α :=
  match q.items with
  | [] => ({ q with getters := q.getters ++ [i] }, none)
  | a :: rest => ({ q with items := rest }, some a)

/-- The `except` clause of `get`, when task `i` is cancelled while suspended there: `i` leaves the
getters, and if it had been woken already, it passes the wake-up on. -/
def cancel [DecidableEq ι] (q : Queue α ι) (i : ι) (woken : Bool) : Queue α ι × Option ι :=
  let q := { q with getters := q.getters.erase i }
  if woken && !q.items.isEmpty then q.wakeupNext else (q, none)

@[simp] theorem empty_items : (empty : Queue α ι).items = [] := rfl

@[simp] theorem put_items (q : Queue α ι) (a : α) : (q.put a).1.items = q.items ++ [a] := rfl

@[simp] theorem put_getters (q : Queue α ι) (a : α) : (q.put a).1.getters = q.getters.tail := rfl

@[simp] theorem put_woken (q : Queue α ι) (a : α) : (q.put a).2 = q.getters.head? := rfl

/-- What one pass of `get` does: on an empty queue the task suspends and the items stay, otherwise
it takes the oldest item and the others stay in their order. -/
theorem get_cases (q : Queue α ι) (i : ι) :
    (q.items = [] ∧ q.get i = ({ q with getters := q.getters ++ [i] }, none)) ∨
      ∃ a rest, q.items = a :: rest ∧ q.get i = ({ q with items := rest }, some a) := by
  rcases h : q.items with _ | ⟨a, rest⟩
  · exact .inl ⟨rfl, by simp only [get, h]⟩
  · exact .inr ⟨a, rest, rfl, by simp only [get, h]⟩

/-- A cancelled `get` loses nothing. -/
@[simp] theorem cancel_items [DecidableEq ι] (q : Queue α ι) (i : ι) (woken : Bool) :
    (q.cancel i woken).1.items = q.items := by
  simp only [cancel]
  split <;> rfl

/-- Cancelling a `get` brings nobody new to the queue: who waits afterwards, or has been woken, was
suspended before. -/
theorem mem_cancel [DecidableEq ι] {q : Queue α ι} {i j : ι} {woken : Bool}
    (h : j ∈ (q.cancel i woken).1.getters ∨ j ∈ (q.cancel i woken).2) : j ∈ q.getters := by
  simp only [cancel] at h
  split at h
  · rcases h with h | h
    · exact List.mem_of_mem_erase (List.mem_of_mem_tail h)
    · exact List.mem_of_mem_erase (List.mem_of_head? h)
  · rcases h with h | h
    · exact List.mem_of_mem_erase h
    · cases h

end Queue

/-! ## Events -/

/-- `asyncio.Event()`: the flag, and the future of each waiter with whether it is resolved. -/
structure Event (ι : Type v) where
  /-- the flag -/
  value : Bool
  /-- the waiters in order of registration, each with whether `set` has resolved its future -/
  waiters : List (ι × Bool)

namespace Event

variable {ι : Type v} {δ : Type w}

/-- A new event: the flag is down. -/
def new : Event ι := ⟨false, []⟩

/-- `set()`: raise the flag and resolve the future of every waiter. -/
def set (e : Event ι) : Event ι := ⟨true, e.waiters.map fun p => (p.1, true)⟩

/-- `clear()`: lower the flag. The waiters are left alone. -/
def clear (e : Event ι) : Event ι := { e with value := false }

/-- `wait()` on a lowered flag: register a fresh future and suspend. -/
def wait (e : Event ι) (i : ι) : Event ι := { e with waiters := e.waiters ++ [(i, false)] }

/-- The `finally` clause of `wait()`: the future of `i` is removed, whether it was resolved or
cancelled. -/
def leave [DecidableEq ι] (e : Event ι) (i : ι) : Event ι :=
  { e with waiters := e.waiters.filter fun p => p.1 ≠ i }

/-- Task `i` is suspended in `wait()` and has not been woken. -/
def Asleep (e : Event ι) (i : ι) : Prop := (i, false) ∈ e.waiters

/-- Task `i` is suspended in `wait()` and its future is resolved: it will run again. -/
def Woken (e : Event ι) (i : ι) : Prop := (i, true) ∈ e.waiters

instance [DecidableEq ι] (e : Event ι) (i : ι) : Decidable (e.Asleep i) :=
  inferInstanceAs (Decidable ((i, false) ∈ e.waiters))

instance [DecidableEq ι] (e : Event ι) (i : ι) : Decidable (e.Woken i) :=
  inferInstanceAs (Decidable ((i, true) ∈ e.waiters))

/-- Task `i` is suspended in `wait()`. -/
def Registered (e : Event ι) (i : ι) : Prop := e.Asleep i ∨ e.Woken i

theorem registered_iff (e : Event ι) (i : ι) : e.Registered i ↔ ∃ b, (i, b) ∈ e.waiters := by
  constructor
  · rintro (h | h)
    · exact ⟨false, h⟩
    · exact ⟨true, h⟩
  · rintro ⟨_ | _, h⟩
    · exact .inl h
    · exact .inr h

/-- `set()` wakes the waiters, but they stay registered until they run. -/
@[simp] theorem registered_set (e : Event ι) (i : ι) : e.set.Registered i ↔ e.Registered i := by
  simp [registered_iff, set]

@[simp] theorem registered_clear (e : Event ι) (i : ι) : e.clear.Registered i ↔ e.Registered i :=
  Iff.rfl

theorem registered_wait (e : Event ι) (i j : ι) :
    (e.wait i).Registered j ↔ e.Registered j ∨ j = i := by
  simp [registered_iff, wait, exists_or]

theorem registered_leave [DecidableEq ι] (e : Event ι) (i j : ι) :
    (e.leave i).Registered j ↔ e.Registered j ∧ j ≠ i := by
  simp [registered_iff, leave]

theorem not_asleep_new (i : ι) : ¬ (new : Event ι).Asleep i := List.not_mem_nil

/-- After `set()` nobody sleeps. -/
theorem not_asleep_set (e : Event ι) (i : ι) : ¬ e.set.Asleep i := by
  intro h
  obtain ⟨p, -, hp⟩ := List.mem_map.mp h
  cases hp

@[simp] theorem asleep_clear (e : Event ι) (i : ι) : e.clear.Asleep i ↔ e.Asleep i := Iff.rfl

theorem asleep_wait (e : Event ι) (i j : ι) : (e.wait i).Asleep j ↔ e.Asleep j ∨ j = i := by
  simp [Asleep, wait]

theorem asleep_leave [DecidableEq ι] (e : Event ι) (i j : ι) :
    (e.leave i).Asleep j ↔ e.Asleep j ∧ j ≠ i := by
  simp [Asleep, leave]

/-- **No lost wake-up**: of the tasks that sleep on `e`, none has what it waits for in `d`.
`P i d` says that `d` holds what task `i` waits for. -/
def Unmissed (P : ι → δ → Prop) (e : Event ι) (d : δ) : Prop := ∀ i, e.Asleep i → ¬ P i d

namespace Unmissed

variable {P : ι → δ → Prop} {e : Event ι} {d d' : δ}

theorem new : Unmissed P (Event.new : Event ι) d := fun i h => absurd h (not_asleep_new i)

/-- Whatever has been added, `set()` wakes everyone who might want it. -/
theorem set : Unmissed P e.set d := fun i h => absurd h (not_asleep_set e i)

/-- Lowering the flag does not put anyone to sleep. -/
theorem clear (h : Unmissed P e d) : Unmissed P e.clear d := h

/-- A change that adds nothing a sleeper waits for needs no `set()`. -/
theorem mono (h : Unmissed P e d) (hP : ∀ i, e.Asleep i → P i d' → P i d) :
    Unmissed P e d' :=
  fun i hi hp => h i hi (hP i hi hp)

/-- A task may go to sleep once it has seen that what it waits for is not there. -/
theorem wait {i : ι} (h : Unmissed P e d) (hi : ¬ P i d) : Unmissed P (e.wait i) d := by
  intro j hj
  rcases (asleep_wait e i j).mp hj with hj | rfl
  · exact h j hj
  · exact hi

theorem leave [DecidableEq ι] (i : ι) (h : Unmissed P e d) : Unmissed P (e.leave i) d :=
  fun j hj => h j ((asleep_leave e i j).mp hj).1

end Unmissed

end Event

end Asyncio
