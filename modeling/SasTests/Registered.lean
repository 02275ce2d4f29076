import SasTests.Delivery

/-!
# The accumulator of a client

Seen from its accumulator, a client does nothing but push messages and serve the calls of
`wait_for_event`: every run of `Loop` is a run of `Waiting` (`run_waiting`), so no wake-up is lost
in a client either (`client_no_lost_wakeup`).

Registering a response queue for a type is for ever, and it shuts the accumulator: from then on no
event of that type comes in, whatever happens, and a later `wait_for_event` for it can only time
out (`registered_frozen`).
-/

namespace SasTests

open Python Asyncio

namespace Received

theorem typeIs_iff (m : Received) (t : String) : m.typeIs t = true ↔ m.typeStr = some t := by
  rw [typeIs, typeStr]
  cases m.body with
  | obj fields =>
    simp only [Json.eqStr]
    cases Json.field fields "type" <;> simp
  | _ => simp

@[simp] theorem typeIs_stamp (m : Received) (now : ℚ) (t : String) :
    (m.stamp now).typeIs t = m.typeIs t := by
  obtain ⟨idx, body⟩ := m
  cases body with
  | obj fields =>
    simp only [stamp, typeIs]
    rw [Json.field_assign_of_ne _ _ _ (by decide)]
  | _ => rfl

end Received

/-- A call of `wait_for_event` that returns, returns an event from the accumulator. -/
theorem Waiting.returned_of_step {s s' : Waiting} {wl : Waiting.Label} (h : s.step wl = some s')
    {i : ℕ} {ev : Received} (hi : s'.calls i = some (.returned ev)) :
    s.calls i = some (.returned ev) ∨ ev ∈ s.acc.events := by
  have hset : ∀ {s : Waiting} {j f}, (s.setCall j f).calls i = some (.returned ev) →
      f = .returned ev ∨ s.calls i = some (.returned ev) := by
    intro s j f h
    by_cases hij : i = j
    · subst hij
      simp only [Waiting.setCall, Function.update_self, Option.some.injEq] at h
      exact .inl h
    · simp only [Waiting.setCall, Function.update_of_ne hij] at h
      exact .inr h
  have hscan : ∀ {s : Waiting} {j w now}, (s.scan j w now).calls i = some (.returned ev) →
      s.calls i = some (.returned ev) ∨ ev ∈ s.acc.events := by
    intro s j w now h
    rw [Waiting.scan] at h
    split at h
    next hfind =>
      rcases hset h with heq | h
      · cases heq
        exact .inr (List.mem_of_find?_eq_some hfind)
      · exact .inl h
    next =>
      split at h
      · exact .inl ((hset h).resolve_left fun h => by cases h)
      · exact .inl ((hset h).resolve_left fun h => by cases h)
  cases Waiting.step_cases h with
  | push => exact .inl hi
  | clear => exact .inl hi
  | getAll => exact .inl hi
  | waitForEvent => exact hscan hi
  | wake =>
    have hleft := hscan hi
    exact hleft
  | expire => exact .inl ((hset hi).resolve_left fun h => by cases h)

/-- The call is suspended. -/
def WaitFrame.isWaiting : WaitFrame → Bool
  | .waiting _ => true
  | _ => false

namespace Loop

variable {s s' : Loop} {l : Label}

/-- The accumulator of the client, and the calls that wait on it. -/
def waiting (s : Loop) : Waiting := ⟨s.client.events, s.eventCalls⟩

/-! ## What the steps do to it -/

theorem getPass_waiting (s : Loop) (w : Waiter) (t : String) :
    (s.getPass w t).1.waiting = s.waiting := by
  rw [getPass]
  split
  · rfl
  · split <;> rfl

theorem getPass_waiting_eq {s₁ : Loop} {w : Waiter} {t : String} {o : Option Received}
    (h : s.getPass w t = (s₁, o)) : s₁.waiting = s.waiting := by
  have hwaiting := s.getPass_waiting w t
  rwa [h] at hwaiting

theorem cancelGetter_waiting (s : Loop) (w : Waiter) (t : String) :
    (s.cancelGetter w t).waiting = s.waiting := by
  rw [cancelGetter]
  split <;> rfl

theorem cancelGetters_waiting (s : Loop) (i j : ℕ) (ts : List String)
    (got : List (Option Received)) : (s.cancelGetters i j ts got).waiting = s.waiting := by
  induction ts generalizing s j got with
  | nil => cases got <;> rfl
  | cons t ts ih =>
    rcases got with _ | ⟨_ | m, got⟩
    · rfl
    · exact (ih _ _ _).trans (s.cancelGetter_waiting (i, j) t)
    · exact ih s (j + 1) got

theorem runGetters_waiting (s : Loop) (i j : ℕ) (ts : List String) :
    (s.runGetters i j ts).1.waiting = s.waiting := by
  induction ts generalizing s j with
  | nil => rfl
  | cons t ts ih => exact (ih _ _).trans (s.getPass_waiting (i, j) t)

theorem runGetter_waiting (s : Loop) (i j : ℕ) : (s.runGetter i j).waiting = s.waiting := by
  rw [runGetter]
  split
  · split
    next hget => exact getPass_waiting_eq hget
    next s₁ _ hget => exact (getPass_waiting_eq hget : s₁.waiting = s.waiting)
  · split
    · split
      next hget => exact getPass_waiting_eq hget
      next s₁ _ hget => exact (getPass_waiting_eq hget : s₁.waiting = s.waiting)
    · rfl
  · rfl

theorem poll_waiting (s : Loop) (i : ℕ) (c : Call) (deadline now : ℚ) :
    (s.poll i c deadline now).waiting = s.waiting := by
  rw [poll]
  split
  · rfl
  · split <;> rfl
  · split <;> rfl

/-- What a step does to the accumulator and the calls that wait on it. -/
inductive WaitEffect (s : Loop) : Label → Waiting → Prop
  /-- they are left alone -/
  | quiet {l : Label} : (∀ wl, l ≠ .events wl) → WaitEffect s l s.waiting
  /-- an object is pushed -/
  | push {msg : Json} {now : ℚ} :
      destination (fun t => (s.items t).isSome) ⟨s.log.length, msg⟩ = .accumulator →
      WaitEffect s (.receive (.ok msg) now)
        { s.waiting with acc := s.waiting.acc.push ⟨s.log.length, msg⟩ now }
  /-- somebody clears the accumulator, or reads it, or waits -/
  | event {wl : Waiting.Label} {w : Waiting} : (∀ message now, wl ≠ .push message now) →
      s.waiting.step wl = some w → WaitEffect s (.events wl) w

theorem receive_waitEffect (s : Loop) (loaded : Except PyError Json) (now : ℚ) :
    WaitEffect s (.receive loaded now) (s.receive loaded now).waiting := by
  have hquiet : ∀ w, w = s.waiting → WaitEffect s (.receive loaded now) w := by
    rintro w rfl
    exact .quiet fun wl h => by cases h
  rcases hd : s.client.dispatch loaded s.log.length now with e | ⟨c, woken⟩
  · apply hquiet
    simp only [receive, hd]
    rfl
  have hwaiting : (s.receive loaded now).waiting = ⟨c.events, s.eventCalls⟩ := by
    simp only [receive, hd]
    rfl
  rw [hwaiting]
  rcases loaded with e | msg
  · apply hquiet
    cases e <;> simp only [WSClient.dispatch, Except.ok.injEq, Prod.mk.injEq, reduceCtorEq] at hd
    all_goals
      obtain ⟨rfl, -⟩ := hd
      rfl
  · have hdelivered := WSClient.dispatch_ok hd
    have hreg : (fun t => (s.client.pendingResponses t).isSome) = fun t => (s.items t).isSome := by
      funext t
      rw [items, Option.isSome_map]
    rw [hreg] at hdelivered
    rcases hdest : destination (fun t => (s.items t).isSome) ⟨s.log.length, msg⟩ with _ | t | _ <;>
      rw [hdest] at hdelivered
    · obtain ⟨rfl, -⟩ := hdelivered
      exact hquiet _ rfl
    · obtain ⟨q, -, rfl, -⟩ := hdelivered
      exact hquiet _ rfl
    · obtain ⟨rfl, -⟩ := hdelivered
      exact .push hdest

/-- **What every step does to the accumulator.** -/
theorem step_waitEffect (h : s.step l = some s') : WaitEffect s l s'.waiting := by
  have quiet : ∀ w, (∀ wl, l ≠ .events wl) → w = s.waiting → WaitEffect s l w := by
    rintro w hl rfl
    exact .quiet hl
  cases step_cases h with
  | receive => exact receive_waitEffect ..
  | events hpush hw => exact .event hpush hw
  | disconnect =>
    refine quiet _ (fun wl h => by cases h) ?_
    simp only [waiting, WSClient.disconnect]
    split <;> rfl
  | start =>
    refine quiet _ (fun wl h => by cases h) ?_
    simp only [waiting, setFrame_client, setFrame_eventCalls, WSClient.ensureQueues_events]
  | @suspend _ _ _ _ _ _ s₁ _ hget =>
    have hsame : s₁.waiting = s.waiting := getPass_waiting_eq hget
    exact quiet _ (fun wl h => by cases h) hsame
  | @take _ _ _ _ _ _ s₁ _ _ hget =>
    have hsame : s₁.waiting = s.waiting := getPass_waiting_eq hget
    exact quiet _ (fun wl h => by cases h) hsame
  | run => exact quiet _ (fun wl h => by cases h) (runGetter_waiting ..)
  | getters => exact quiet _ (fun wl h => by cases h) (runGetters_waiting ..)
  | wake => exact quiet _ (fun wl h => by cases h) (cancelGetters_waiting ..)
  | timeout => exact quiet _ (fun wl h => by cases h) (cancelGetter_waiting ..)
  | timeoutAny => exact quiet _ (fun wl h => by cases h) (cancelGetters_waiting ..)
  | poll => exact quiet _ (fun wl h => by cases h) (poll_waiting ..)
  | _ => exact quiet _ (fun wl h => by cases h) rfl

/-! ## The client refines the accumulator -/

/-- **A client is an accumulator at work**: whatever a client does, its accumulator and the calls of
`wait_for_event` on it are in a state that an accumulator alone can reach. -/
theorem run_waiting {ls : List Label} (h : Lts.run step new ls = some s) :
    ∃ wls, Lts.run Waiting.step .new wls = some s.waiting := by
  refine Lts.run_invariant (I := fun s => ∃ wls, Lts.run Waiting.step .new wls = some s.waiting)
    ⟨[], rfl⟩ (fun s l s' hs hl => ?_) h
  obtain ⟨wls, hwls⟩ := hs
  have hconcat : ∀ wl {w}, s.waiting.step wl = some w →
      Lts.run Waiting.step .new (wls ++ [wl]) = some w := by
    intro wl w hw
    rw [Lts.run_append, hwls, Option.bind_some, Lts.run_cons, hw]
    rfl
  have heff := step_waitEffect hl
  generalize s'.waiting = w at heff
  cases heff with
  | quiet => exact ⟨wls, hwls⟩
  | push => exact ⟨_, hconcat (.push ..) rfl⟩
  | event _ hw => exact ⟨_, hconcat _ hw⟩

/-- **No lost wake-up in a client.** In every state of a client that can be reached, a call of
`wait_for_event` that is suspended and has not been woken has nothing in the accumulator that it
wants, however many other calls, of `wait_for_event` or of the client's own methods, have run. -/
theorem client_no_lost_wakeup {ls : List Label} (h : Lts.run step new ls = some s) {i : ℕ}
    {w : WaitForEvent} (hw : s.eventCalls i = some (.waiting w))
    (hi : ¬ s.client.events.newEvent.Woken i) :
    ∀ ev ∈ s.client.events.events, w.wants ev = false := by
  obtain ⟨wls, hwls⟩ := run_waiting h
  have hunmissed : s.waiting.Unmissed :=
    Lts.run_invariant Waiting.unmissed_new (fun _ _ _ => Waiting.step_unmissed) hwls
  have hregistered : s.waiting.Registered :=
    Lts.run_invariant (fun _ _ h => by cases h) (fun _ _ _ => Waiting.step_registered) hwls
  intro ev hev
  cases hwants : w.wants ev
  · rfl
  · exact absurd ⟨w, hw, ev, hev, hwants⟩ (hunmissed i ((hregistered i w hw).resolve_right hi))

/-- Two calls wait for events; the one whose event comes has been woken, and the other one sleeps
again. -/
def sleepsAgain : List Label :=
  [.connect 0, .events (.waitForEvent 0 "a" 5 none 0), .events (.waitForEvent 1 "b" 5 none 0),
    .receive (.ok (.obj [("type", .str "a")])) 1, .events (.wake 1 1), .events (.wake 0 1)]

theorem client_no_lost_wakeup_sleepsAgain :
    ∃ s w, Lts.run step new sleepsAgain = some s ∧ s.eventCalls 1 = some (.waiting w) ∧
      s.client.events.count = 1 ∧ ∀ ev ∈ s.client.events.events, w.wants ev = false := by
  have hrun : ((Lts.run step new sleepsAgain).any fun s =>
      s.client.events.count == 1 && !decide (s.client.events.newEvent.Woken 1) &&
        (s.eventCalls 1).any WaitFrame.isWaiting) = true := by decide +kernel
  obtain ⟨s, hs, hlast⟩ := (Option.any_eq_true ..).mp hrun
  simp only [Bool.and_eq_true, beq_iff_eq, Bool.not_eq_true', decide_eq_false_iff_not] at hlast
  obtain ⟨⟨hcount, hwoken⟩, hframe⟩ := hlast
  obtain ⟨f, hf, hwaiting⟩ := (Option.any_eq_true ..).mp hframe
  cases f with
  | waiting w => exact ⟨s, w, hs, hf, hcount, client_no_lost_wakeup hs hf hwoken⟩
  | _ => cases hwaiting

/-! ## A registered type -/

/-- The label clears the accumulator. -/
def Label.clears : Label → Bool
  | .events .clear => true
  | _ => false

/-- The events of type `t` in the accumulator. -/
def eventsOf (s : Loop) (t : String) : List Received := s.client.events.getAll (some t)

/-- No object of a registered type is pushed. -/
theorem not_typeIs_of_accumulator {registered : String → Bool} {x : Received} {t : String}
    (ht : Regular t) (hreg : registered t = true)
    (hx : destination registered x = .accumulator) : x.typeIs t = false := by
  cases htype : x.typeIs t
  · rfl
  · rw [destination_of_regular ht ((x.typeIs_iff t).mp htype) hreg] at hx
    cases hx

theorem step_eventsOf {t : String} (ht : Regular t) (hreg : (s.items t).isSome = true)
    (hl : s.step l = some s') :
    s'.eventsOf t = if l.clears then [] else s.eventsOf t := by
  have hof : ∀ s : Loop, s.eventsOf t = s.waiting.acc.getAll (some t) := fun _ => rfl
  rw [hof, hof]
  have heff := step_waitEffect hl
  generalize s'.waiting = w at heff
  cases heff with
  | quiet hquiet =>
    have hclears : l.clears = false := by
      rcases hl' : l with _ | _ | _ | _ | _ | _ | _ | _ | _ | _ | _ | _ | _ | wl
      case events => exact absurd hl' (hquiet wl)
      all_goals rfl
    rw [hclears]
    rfl
  | push hdest =>
    have hnot := not_typeIs_of_accumulator ht hreg hdest
    simp only [EventAccumulator.getAll, EventAccumulator.push, List.filter_append,
      List.filter_singleton, Received.typeIs_stamp, hnot, cond_false, List.append_nil]
    rfl
  | @event wl w hpush hw =>
    cases wl with
    | clear =>
      cases hw
      rfl
    | _ =>
      have hevents := Waiting.step_events hw hpush (by simp)
      simp only [EventAccumulator.getAll, hevents]
      rfl

/-- **A registered type is shut out of the accumulator for good.** Once some call has registered a
queue for a type, whatever runs afterwards leaves the events of that type in the accumulator as they
are, or clears them with the rest; and if there are none, no call of `wait_for_event` ever returns
an event of that type again. -/
theorem registered_frozen {t : String} (ht : Regular t) (hreg : (s.items t).isSome = true)
    {ls : List Label} (h : Lts.run step s ls = some s') :
    (s'.eventsOf t = if ls.any Label.clears then [] else s.eventsOf t) ∧
      (s.eventsOf t = [] → ∀ i ev, s'.eventCalls i = some (.returned ev) → ev.typeIs t = true →
        s.eventCalls i = some (.returned ev)) := by
  -- the queue stays registered, so that every step freezes the events
  have hboth : (s'.items t).isSome = true ∧
      (s'.eventsOf t = if ls.any Label.clears then [] else s.eventsOf t) ∧
      (s.eventsOf t = [] → ∀ i ev, s'.eventCalls i = some (.returned ev) → ev.typeIs t = true →
        s.eventCalls i = some (.returned ev)) := by
    refine Lts.run_induction (motive := fun ls s' => (s'.items t).isSome = true ∧
      (s'.eventsOf t = if ls.any Label.clears then [] else s.eventsOf t) ∧
      (s.eventsOf t = [] → ∀ i ev, s'.eventCalls i = some (.returned ev) → ev.typeIs t = true →
        s.eventCalls i = some (.returned ev))) ⟨hreg, rfl, fun _ _ _ hi _ => hi⟩ ?_ h
    rintro ls l s₁ s₂ - ⟨hreg₁, hevents, hreturned⟩ hl
    refine ⟨(step_effect hl).registered hreg₁, ?_, fun hnil i ev hi htype => ?_⟩
    · rw [step_eventsOf ht hreg₁ hl, hevents, List.any_append]
      cases hclears : l.clears <;> simp [hclears]
    · have hnil₁ : s₁.eventsOf t = [] := by
        rw [hevents, hnil, ite_self]
      apply hreturned hnil i ev _ htype
      have heff := step_waitEffect hl
      change s₂.waiting.calls i = _ at hi
      generalize s₂.waiting = w at heff hi
      cases heff with
      | quiet => exact hi
      | push => exact hi
      | event _ hw =>
        refine (Waiting.returned_of_step hw hi).resolve_right fun hmem => ?_
        have hof : ev ∈ s₁.eventsOf t := List.mem_filter.mpr ⟨hmem, htype⟩
        rw [hnil₁] at hof
        cases hof
  exact hboth.2

/-- `wait_for_event` for a type that a call has awaited: the object goes to the queue, and the wait
times out. -/
def shutOutRun : List Label :=
  [.receive (.ok (.obj [("type", .str "a")])) 1, .events (.waitForEvent 0 "a" 5 none 1),
    .receive (.ok (.obj [("type", .str "a")])) 2, .events (.expire 0)]

theorem registered_frozen_shutOutRun :
    ∃ s s', Lts.run step new [.connect 0, .start 0 (.waitFor "a" 5) 0] = some s ∧
      Lts.run step s shutOutRun = some s' ∧ s'.eventsOf "a" = [] ∧
      ∀ i ev, s'.eventCalls i = some (.returned ev) → ev.typeIs "a" = true →
        s.eventCalls i = some (.returned ev) := by
  have hrun : ((Lts.run step new [.connect 0, .start 0 (.waitFor "a" 5) 0]).any fun s =>
      (s.items "a").isSome && (s.eventsOf "a").isEmpty && (Lts.run step s shutOutRun).isSome) =
        true := by decide +kernel
  obtain ⟨s, hs, hlast⟩ := (Option.any_eq_true ..).mp hrun
  simp only [Bool.and_eq_true, List.isEmpty_iff] at hlast
  obtain ⟨⟨hreg, hnil⟩, hsome⟩ := hlast
  obtain ⟨s', hs'⟩ := Option.isSome_iff_exists.mp hsome
  obtain ⟨hevents, hreturned⟩ :=
    registered_frozen ⟨by decide, by decide, by decide⟩ hreg hs'
  rw [hnil, ite_self] at hevents
  exact ⟨s, s', hs, hs', hevents, hreturned hnil⟩

end Loop

end SasTests
