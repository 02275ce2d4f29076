import SasTests.Lib.Asyncio
import SasTests.Lib.Run
import SasTests.Python.Format
import SasTests.Python.Json
import Mathlib.Logic.Function.Basic

/-!
# The event accumulator

`EventAccumulator` keeps, in order of arrival, the messages that no response queue takes. Readers
either take a snapshot (`get_all`) or wait for a matching event (`wait_for_event`), which scans the
list, lowers the shared flag `_new_event` and sleeps on it, again and again.

No section under `_lock` suspends, so whenever a task runs the lock is free and `async with` never
waits: `push`, `clear`, `get_all` and one scan of `wait_for_event` are atomic. The calls of
`wait_for_event` in flight and the accumulator they share are a labelled system (`Waiting`), whose
labels are the moments at which a task can go on.

* `Waiting.no_lost_wakeup` — a sleeping waiter has no matching event in the list, whatever the
  other waiters, pushes and clears have done to the flag.
-/

namespace SasTests

open Python Asyncio

/-- A JSON object that the client received. Python tells objects apart by identity; here `idx`
does: it is the place of the object in the history of the client. -/
structure Received where
  /-- the place in the history -/
  idx : ℕ
  /-- the content -/
  body : Json

namespace Received

/-- `ev.get("type") == t`; what is received and kept is always a dictionary. -/
def typeIs (m : Received) (t : String) : Bool :=
  match m.body with
  | .obj fields => (Json.field fields "type").eqStr t
  | _ => false

/-- `message["_received_at"] = now`. -/
def stamp (m : Received) (now : ℚ) : Received :=
  match m.body with
  | .obj fields => { m with body := .obj (Json.assign "_received_at" (.num now) fields) }
  | _ => m

@[simp] theorem stamp_idx (m : Received) (now : ℚ) : (m.stamp now).idx = m.idx := by
  rw [stamp]
  split <;> rfl

end Received

/-- The object: `_events` and `_new_event`. -/
structure EventAccumulator where
  /-- `_events`, oldest first -/
  events : List Received
  /-- `_new_event`; its waiters are the calls of `wait_for_event` that sleep on it -/
  newEvent : Event ℕ

namespace EventAccumulator

/-- `__init__`. -/
def new : EventAccumulator := ⟨[], .new⟩

/-- `push`. -/
def push (a : EventAccumulator) (message : Received) (now : ℚ) : EventAccumulator :=
  { events := a.events ++ [message.stamp now], newEvent := a.newEvent.set }

/-- `clear`. -/
def clear (a : EventAccumulator) : EventAccumulator :=
  { events := [], newEvent := a.newEvent.clear }

/-- `get_all`. -/
def getAll (a : EventAccumulator) (typeFilter : Option String) : List Received :=
  match typeFilter with
  | none => a.events
  | some t => a.events.filter fun e => e.typeIs t

/-- `count`. -/
def count (a : EventAccumulator) : ℕ := a.events.length

end EventAccumulator

/-! ## Calls of `wait_for_event` -/

/-- The arguments of a call of `wait_for_event`, and the deadline it computed. -/
structure WaitForEvent where
  /-- `event_type` -/
  eventType : String
  /-- `timeout` -/
  timeout : ℚ
  /-- `predicate` -/
  predicate : Option (Json → Bool)
  /-- `deadline` -/
  deadline : ℚ

namespace WaitForEvent

/-- Is `ev` an event this call returns? -/
def wants (w : WaitForEvent) (ev : Received) : Bool :=
  ev.typeIs w.eventType && match w.predicate with
    | none => true
    | some p => p ev.body

/-- The message of its `TimeoutError`. -/
def timeoutText (w : WaitForEvent) : String :=
  "Timed out waiting for event '" ++ w.eventType ++ "' after " ++ fixed1 w.timeout ++ "s"

end WaitForEvent

/-- Where a call of `wait_for_event` is. -/
inductive WaitFrame
  /-- suspended in `_new_event.wait()` -/
  | waiting (w : WaitForEvent)
  /-- it returned `ev` -/
  | returned (ev : Received)
  /-- it raised -/
  | raised (e : PyError)

/-- One accumulator and the calls of `wait_for_event` on it, by number. -/
structure Waiting where
  /-- the accumulator -/
  acc : EventAccumulator
  /-- the calls made so far -/
  calls : ℕ → Option WaitFrame

namespace Waiting

/-- A new accumulator that nobody has called yet. -/
def new : Waiting := ⟨.new, fun _ => none⟩

/-- Put call `i` in frame `f`. -/
def setCall (s : Waiting) (i : ℕ) (f : WaitFrame) : Waiting :=
  { s with calls := Function.update s.calls i (some f) }

/-- The loop body of `wait_for_event`, from the scan to the next suspension: return the first
wanted event, or give up at the deadline, or lower the flag and sleep on it. -/
def scan (s : Waiting) (i : ℕ) (w : WaitForEvent) (now : ℚ) : Waiting :=
  match s.acc.events.find? w.wants with
  | some ev => s.setCall i (.returned ev)
  | none =>
    if w.deadline - now ≤ 0 then s.setCall i (.raised (.timeoutError w.timeoutText))
    else
      { s with acc := { s.acc with newEvent := s.acc.newEvent.clear.wait i } }.setCall i (.waiting w)

/-- Call `i` leaves `_new_event.wait()`. -/
def leave (s : Waiting) (i : ℕ) : Waiting :=
  { s with acc := { s.acc with newEvent := s.acc.newEvent.leave i } }

/-- What can happen next on an accumulator. -/
inductive Label
  /-- a message is pushed at time `now` -/
  | push (message : Received) (now : ℚ)
  /-- somebody clears the accumulator -/
  | clear
  /-- somebody takes a snapshot -/
  | getAll (typeFilter : Option String)
  /-- call number `i` of `wait_for_event` begins -/
  | waitForEvent (i : ℕ) (eventType : String) (timeout : ℚ) (predicate : Option (Json → Bool))
      (now : ℚ)
  /-- the suspended call `i`, whose future is resolved, goes on -/
  | wake (i : ℕ) (now : ℚ)
  /-- the timeout of the suspended call `i` fires, be its future resolved by then or not -/
  | expire (i : ℕ)

/-- One atomic step. -/
def step (s : Waiting) : Label → Option Waiting
  | .push message now => some { s with acc := s.acc.push message now }
  | .clear => some { s with acc := s.acc.clear }
  | .getAll _ => some s
  | .waitForEvent i eventType timeout predicate now =>
    match s.calls i with
    | none => some (s.scan i ⟨eventType, timeout, predicate, now + timeout⟩ now)
    | some _ => none
  | .wake i now =>
    match s.calls i with
    | some (.waiting w) => if s.acc.newEvent.Woken i then some ((s.leave i).scan i w now) else none
    | _ => none
  | .expire i =>
    match s.calls i with
    | some (.waiting w) =>
      some ((s.leave i).setCall i (.raised (.timeoutError w.timeoutText)))
    | _ => none

/-- What must have been the case for a step to be taken, and where it leads. -/
inductive Stepped (s : Waiting) : Label → Waiting → Prop
  | push {message : Received} {now : ℚ} :
      Stepped s (.push message now) { s with acc := s.acc.push message now }
  | clear : Stepped s .clear { s with acc := s.acc.clear }
  | getAll {typeFilter : Option String} : Stepped s (.getAll typeFilter) s
  | waitForEvent {i : ℕ} {eventType : String} {timeout : ℚ} {predicate : Option (Json → Bool)}
      {now : ℚ} : s.calls i = none →
      Stepped s (.waitForEvent i eventType timeout predicate now)
        (s.scan i ⟨eventType, timeout, predicate, now + timeout⟩ now)
  | wake {i : ℕ} {w : WaitForEvent} {now : ℚ} : s.calls i = some (.waiting w) →
      s.acc.newEvent.Woken i → Stepped s (.wake i now) ((s.leave i).scan i w now)
  | expire {i : ℕ} {w : WaitForEvent} : s.calls i = some (.waiting w) →
      Stepped s (.expire i) ((s.leave i).setCall i (.raised (.timeoutError w.timeoutText)))

/-- Inversion of a step. -/
theorem step_cases {s s' : Waiting} {l : Label} (h : s.step l = some s') : Stepped s l s' := by
  cases l with
  | push message now =>
    obtain rfl := Option.some.inj h
    exact .push
  | clear =>
    obtain rfl := Option.some.inj h
    exact .clear
  | getAll typeFilter =>
    obtain rfl := Option.some.inj h
    exact .getAll
  | waitForEvent i eventType timeout predicate now =>
    simp only [step] at h
    split at h
    · rename_i hi
      obtain rfl := Option.some.inj h
      exact .waitForEvent hi
    · cases h
  | wake i now =>
    simp only [step] at h
    split at h
    · rename_i hi
      split at h
      · rename_i hwoken
        obtain rfl := Option.some.inj h
        exact .wake hi hwoken
      · cases h
    · cases h
  | expire i =>
    simp only [step] at h
    split at h
    · rename_i hi
      obtain rfl := Option.some.inj h
      exact .expire hi
    · cases h

@[simp] theorem scan_events (s : Waiting) (i : ℕ) (w : WaitForEvent) (now : ℚ) :
    (s.scan i w now).acc.events = s.acc.events := by
  rw [scan]
  split
  · rfl
  · split <;> rfl

/-- The calls of `wait_for_event` only read the list. -/
theorem step_events {s s' : Waiting} {l : Label} (h : s.step l = some s')
    (hpush : ∀ message now, l ≠ .push message now) (hclear : l ≠ .clear) :
    s'.acc.events = s.acc.events := by
  cases step_cases h with
  | push => exact absurd rfl (hpush _ _)
  | clear => exact absurd rfl hclear
  | getAll | expire => rfl
  | waitForEvent => exact s.scan_events ..
  | wake => exact (s.leave _).scan_events ..

/-! ## No lost wake-up -/

/-- What call `i` waits for is in the list. -/
def Satisfied (i : ℕ) (s : (ℕ → Option WaitFrame) × List Received) : Prop :=
  ∃ w, s.1 i = some (.waiting w) ∧ ∃ ev ∈ s.2, w.wants ev = true

/-- No sleeping call has what it waits for. -/
def Unmissed (s : Waiting) : Prop :=
  Event.Unmissed Satisfied s.acc.newEvent (s.calls, s.acc.events)

theorem unmissed_new : new.Unmissed := Event.Unmissed.new

/-- A call whose frame is replaced by one that waits for nothing in the list is not missed, and
the other calls are as they were. -/
theorem satisfied_setCall {s : Waiting} {i j : ℕ} {f : WaitFrame}
    (hf : ∀ w, f = .waiting w → ∀ ev ∈ s.acc.events, w.wants ev = false)
    (h : Satisfied j ((s.setCall i f).calls, s.acc.events)) :
    Satisfied j (s.calls, s.acc.events) := by
  obtain ⟨w, hw, ev, hev, hwants⟩ := h
  by_cases hj : j = i
  · subst hj
    simp only [setCall, Function.update_self, Option.some.injEq] at hw
    rw [hf w hw ev hev] at hwants
    cases hwants
  · simp only [setCall, Function.update_of_ne hj] at hw
    exact ⟨w, hw, ev, hev, hwants⟩

theorem Unmissed.setCall {s : Waiting} (h : s.Unmissed) {i : ℕ} {f : WaitFrame}
    (hf : ∀ w, f = .waiting w → ∀ ev ∈ s.acc.events, w.wants ev = false) :
    (s.setCall i f).Unmissed :=
  Event.Unmissed.mono h fun _ _ hp => satisfied_setCall hf hp

theorem Unmissed.leave {s : Waiting} (h : s.Unmissed) (i : ℕ) : (s.leave i).Unmissed :=
  Event.Unmissed.leave i h

/-- One scan keeps the invariant: a call goes to sleep only after it has seen that no event in the
list is one it wants, and its lowering the flag wakes or hides nothing. -/
theorem Unmissed.scan {s : Waiting} (h : s.Unmissed) (i : ℕ) (w : WaitForEvent) (now : ℚ) :
    (s.scan i w now).Unmissed := by
  rw [Waiting.scan]
  rcases hfind : s.acc.events.find? w.wants with _ | ev
  · have hnone : ∀ ev ∈ s.acc.events, w.wants ev = false := by
      intro ev hev
      simpa using List.find?_eq_none.mp hfind ev hev
    have hf : ∀ w', WaitFrame.waiting w = .waiting w' →
        ∀ ev ∈ s.acc.events, w'.wants ev = false := by
      rintro w' ⟨⟩
      exact hnone
    simp only
    split
    · exact h.setCall (fun _ hw => by cases hw)
    · apply Event.Unmissed.wait (h.setCall hf).clear
      rintro ⟨w', hw', ev, hev, hwants⟩
      simp only [Waiting.setCall, Function.update_self, Option.some.injEq] at hw'
      rw [hf w' hw' ev hev] at hwants
      cases hwants
  · exact h.setCall (fun _ hw => by cases hw)

/-- **Every step keeps the invariant.** -/
theorem step_unmissed {s s' : Waiting} {l : Label} (h : s.Unmissed) (hl : s.step l = some s') :
    s'.Unmissed := by
  cases step_cases hl with
  | push =>
    -- `set` wakes whoever waits
    exact Event.Unmissed.set
  | clear =>
    -- the flag goes down, but so does the list
    apply Event.Unmissed.mono h.clear
    rintro i - ⟨w, -, ev, hev, -⟩
    cases hev
  | getAll => exact h
  | waitForEvent => exact h.scan _ _ _
  | wake =>
    -- the call leaves the flag before it scans again, so it cannot be its own witness
    exact (h.leave _).scan _ _ _
  | expire => exact (h.leave _).setCall fun _ hw => by cases hw

/-- Every call that waits is registered with the flag. -/
def Registered (s : Waiting) : Prop :=
  ∀ i w, s.calls i = some (.waiting w) → s.acc.newEvent.Registered i

/-- Call `i` leaves the flag and goes on to a frame in which it does not wait. -/
theorem Registered.stop {s : Waiting} (h : s.Registered) {i : ℕ} {f : WaitFrame}
    (hf : ∀ w, f ≠ .waiting w) : ((s.leave i).setCall i f).Registered := by
  intro j w hj
  by_cases hji : j = i
  · subst hji
    simp only [setCall, Function.update_self, Option.some.injEq] at hj
    exact absurd hj (hf w)
  · simp only [setCall, Function.update_of_ne hji] at hj
    exact (Event.registered_leave ..).mpr ⟨h j w hj, hji⟩

/-- A scan registers the call again, unless it ends it. -/
theorem registered_scan {s : Waiting} {i : ℕ} (w : WaitForEvent) (now : ℚ)
    (h : ∀ j w', j ≠ i → s.calls j = some (.waiting w') → s.acc.newEvent.Registered j) :
    (s.scan i w now).Registered := by
  have done : ∀ f, (∀ w', f ≠ .waiting w') → (s.setCall i f).Registered := by
    intro f hf j w' hj
    by_cases hji : j = i
    · subst hji
      simp only [setCall, Function.update_self, Option.some.injEq] at hj
      exact absurd hj (hf w')
    · simp only [setCall, Function.update_of_ne hji] at hj
      exact h j w' hji hj
  rw [scan]
  split
  · exact done _ fun _ hw => by cases hw
  · split
    · exact done _ fun _ hw => by cases hw
    · intro j w' hj
      apply (Event.registered_wait ..).mpr
      by_cases hji : j = i
      · exact .inr hji
      · simp only [setCall, Function.update_of_ne hji] at hj
        exact .inl (h j w' hji hj)

theorem step_registered {s s' : Waiting} {l : Label} (h : s.Registered)
    (hl : s.step l = some s') : s'.Registered := by
  cases step_cases hl with
  | push => exact fun i w hi => (Event.registered_set ..).mpr (h i w hi)
  | clear | getAll => exact h
  | waitForEvent => exact registered_scan _ _ fun j w _ hj => h j w hj
  | wake =>
    apply registered_scan
    exact fun j w hji hj => (Event.registered_leave ..).mpr ⟨h j w hj, hji⟩
  | expire => exact h.stop fun _ hw => by cases hw

/-- **No lost wake-up.** In every reachable state, a call that is suspended on the shared flag and
has not been woken has no event in the list that it wants.

A call lowers the flag for all, also for those that have not looked yet. They are woken none the
less: raising the flag wakes everybody who is suspended, and whoever is not scans the list again
before it goes to sleep. -/
theorem no_lost_wakeup {ls : List Label} {s : Waiting} (h : Lts.run step new ls = some s)
    {i : ℕ} {w : WaitForEvent} (hw : s.calls i = some (.waiting w))
    (hi : ¬ s.acc.newEvent.Woken i) : ∀ ev ∈ s.acc.events, w.wants ev = false := by
  intro ev hev
  have hs : s.Unmissed := Lts.run_invariant unmissed_new (fun _ _ _ => step_unmissed) h
  have hr : s.Registered :=
    Lts.run_invariant (fun _ _ h => by cases h) (fun _ _ _ => step_registered) h
  cases hwants : w.wants ev
  · rfl
  · exact absurd ⟨w, hw, ev, hev, hwants⟩ (hs i ((hr i w hw).resolve_right hi))

/-- Call `1` wants events of type `b`; it sleeps again after an event of type `a`, for which call
`0` has been waiting, has woken both. -/
def twoWaiters : List Label :=
  [.waitForEvent 0 "a" 5 none 0, .waitForEvent 1 "b" 5 none 0,
    .push ⟨0, .obj [("type", .str "a")]⟩ 1, .wake 1 1, .wake 0 1]

theorem no_lost_wakeup_twoWaiters :
    ∃ s w, Lts.run step new twoWaiters = some s ∧ s.calls 1 = some (.waiting w) ∧
      s.acc.events.length = 1 ∧ ∀ ev ∈ s.acc.events, w.wants ev = false := by
  have hrun : ((Lts.run step new twoWaiters).any fun s =>
      s.acc.events.length == 1 && !decide (s.acc.newEvent.Woken 1) && match s.calls 1 with
        | some (.waiting _) => true
        | _ => false) = true := by decide +kernel
  obtain ⟨s, hs, hlast⟩ := (Option.any_eq_true ..).mp hrun
  simp only [Bool.and_eq_true, beq_iff_eq, Bool.not_eq_true', decide_eq_false_iff_not] at hlast
  obtain ⟨⟨hlen, hwoken⟩, hframe⟩ := hlast
  split at hframe
  · rename_i w hw
    exact ⟨s, w, hs, hw, hlen, no_lost_wakeup hs hw hwoken⟩
  · cases hframe

end Waiting

end SasTests
