import SasTests.Returns
import SasTests.Registered

/-!
# No call hangs

A client waits for what the server sends, and the server may send nothing. `comes_to_rest` says that
no call waits for ever: from every state that can be reached, with nothing more arriving, the calls
in flight can all be brought to their ends by steps of their own and by their time-outs.

Each step of a call brings it nearer to its end: `Frame.toGo` counts the steps that it needs at most
if nothing arrives.
-/

namespace SasTests

open Python Asyncio

/-- How many steps a call needs at most to its end if nothing arrives. -/
def Frame.toGo (c : Call) : Frame → ℕ
  | .sending todo _ => todo.length + c.wanted + 4
  | .collecting left _ _ => left + 1
  | .getting _ _ _ => 1
  | .created _ => 2
  | .waiting _ _ => 1
  | .polling _ => 1
  | .returned _ => 0
  | .raised _ => 0

namespace Call

/-- After its sends a call wants as many messages as it ever will. -/
theorem toGo_afterSend (c : Call) (t0 now : ℚ) : (c.afterSend t0 now).toGo c < c.wanted + 4 := by
  cases c with
  | requestAny message responseTypes timeout =>
    simp only [afterSend]
    split
    · exact Nat.succ_pos _
    · simp [Frame.toGo]
  | _ =>
    simp only [afterSend, Frame.toGo, wanted]
    omega

theorem toGo_onTimeout (c : Call) : c.onTimeout.toGo c = 0 := by
  cases c <;> rfl

end Call

namespace Loop

variable {s s' : Loop} {i : ℕ} {c : Call} {f : Frame}

/-- The last reading of the clock after a step, if it was `t` before. -/
def Label.clock (l : Label) (t : ℚ) : ℚ :=
  match l with
  | .receive _ now => now
  | .start _ _ now => now
  | .resume _ now => now
  | .wake _ _ now => now
  | .poll _ now => now
  | .events (.push _ now) => now
  | .events (.waitForEvent _ _ _ _ now) => now
  | .events (.wake _ now) => now
  | _ => t

/-- From time `t` on, the clock does not go backwards. -/
def Timed : ℚ → List Label → Prop
  | _, [] => True
  | t, l :: ls => t ≤ l.clock t ∧ Timed (l.clock t) ls

theorem timed_append {t : ℚ} {ls ls' : List Label} :
    Timed t (ls ++ ls') ↔ Timed t ls ∧ Timed (ls.foldl (fun t l => l.clock t) t) ls' := by
  induction ls generalizing t with
  | nil => exact ⟨fun h => ⟨trivial, h⟩, And.right⟩
  | cons l ls ih =>
    rw [List.cons_append, Timed, Timed, ih, List.foldl_cons, and_assoc]

/-- The step is one of a call in flight, or its time-out. -/
def Label.ofCall : Label → Bool
  | .sent _ => true
  | .resume _ _ => true
  | .getters _ => true
  | .wake _ _ _ => true
  | .timeout _ => true
  | .poll _ _ => true
  | _ => false

/-- Such a step does not touch the accumulator or the calls that wait on it. -/
theorem waiting_of_ofCall {l : Label} (hl : l.ofCall = true) (h : s.step l = some s') :
    s'.waiting = s.waiting := by
  have heff := step_waitEffect h
  generalize s'.waiting = w at heff ⊢
  cases heff with
  | quiet => rfl
  | push | event => cases hl

/-- From time `t` on, call `i` takes the step `l`, which moves it and nothing else that waits. -/
structure Advances (s : Loop) (i : ℕ) (c : Call) (f : Frame) (t : ℚ) (l : Label) (s' : Loop)
    (f' : Frame) : Prop where
  step : s.step l = some s'
  ofCall : l.ofCall = true
  time : t ≤ l.clock t
  calls : s'.calls = Function.update s.calls i (some ⟨c, f'⟩)
  toGo : f'.toGo c < f.toGo c

/-- **A call that has not ended can go on**, at any time, and is then nearer to its end. -/
theorem exists_advances (hi : s.calls i = some ⟨c, f⟩) (hf : f.ended = false) (t : ℚ) :
    ∃ l s' f', Advances s i c f t l s' f' := by
  cases f with
  | sending todo t0 =>
    rcases todo with _ | ⟨w, todo⟩
    · have hstep : s.step (.resume i t) = some (s.setFrame i c (c.afterSend t0 t)) := by
        simp only [step, hi]
      refine ⟨_, _, _, hstep, rfl, le_rfl, rfl, (c.toGo_afterSend t0 t).trans_le ?_⟩
      simp [Frame.toGo]
    · rcases hws : s.client.ws with _ | conn
      · have hstep : s.step (.sent i) =
            some (s.setFrame i c (.raised (.assertionError "Not connected"))) := by
          simp only [step, hi, hws]
        exact ⟨_, _, _, hstep, rfl, le_rfl, rfl, Nat.succ_pos _⟩
      · have hstep : s.step (.sent i) = some ({ s with log := s.log ++ [Obs.sent i w] }.setFrame i c
            (.sending todo t0)) := by
          simp only [step, hi, hws]
        refine ⟨_, _, _, hstep, rfl, le_rfl, rfl, ?_⟩
        simp [Frame.toGo]
  | collecting left out t0 =>
    rcases left with _ | left
    · have hstep : s.step (.resume i t) = some ({ s with client := { s.client with
          lastElapsedMs := c.elapsed t0 t s.client.lastElapsedMs } }.setFrame i c
            (.returned (c.result out))) := by
        simp only [step, hi]
      exact ⟨_, _, _, hstep, rfl, le_rfl, rfl, Nat.one_pos⟩
    · rcases hget : s.getPass (i, 0) c.queueType with ⟨s₁, _ | m⟩
      · have hstep : s.step (.resume i t) = some (s₁.setFrame i c (.getting left out t0)) := by
          simp only [step, hi, hget]
        refine ⟨_, _, _, hstep, rfl, le_rfl, calls_setFrame (getPass_none hget).1 i c _, ?_⟩
        simp [Frame.toGo]
      · have hstep : s.step (.resume i t) =
            some (s₁.setFrame i c (.collecting left (out ++ [m]) t0)) := by
          simp only [step, hi, hget]
        exact ⟨_, _, _, hstep, rfl, le_rfl, calls_setFrame (getPass_some hget).1 i c _,
          Nat.lt_succ_self _⟩
  | getting left out t0 =>
    have hstep : s.step (.timeout i) =
        some ((s.cancelGetter (i, 0) c.queueType).setFrame i c c.onTimeout) := by
      simp only [step, hi]
    refine ⟨_, _, _, hstep, rfl, le_rfl, calls_setFrame (s.cancelGetter_calls _ _) i c _, ?_⟩
    rw [c.toGo_onTimeout]
    exact Nat.one_pos
  | created t0 =>
    have hstep : s.step (.getters i) = some ((s.runGetters i 0 c.responseTypes).1.setFrame i c
        (.waiting (s.runGetters i 0 c.responseTypes).2 t0)) := by
      simp only [step, hi]
    exact ⟨_, _, _, hstep, rfl, le_rfl,
      calls_setFrame (s.runGetters_mail i 0 c.responseTypes).1 i c _, Nat.one_lt_two⟩
  | waiting got t0 =>
    by_cases hgot : got.all Option.isNone = true
    · have hstep : s.step (.timeout i) =
          some ((s.cancelGetters i 0 c.responseTypes got).setFrame i c c.onTimeout) := by
        simp only [step, hi, hgot, if_true]
      refine ⟨_, _, _, hstep, rfl, le_rfl,
        calls_setFrame (s.cancelGetters_calls i 0 _ _) i c _, ?_⟩
      rw [c.toGo_onTimeout]
      exact Nat.one_pos
    · -- one of the getters has taken something, which the call can return
      simp only [List.all_eq_true, not_forall, Bool.not_eq_true] at hgot
      obtain ⟨x, hx, hsome⟩ := hgot
      obtain ⟨m, rfl⟩ := Option.isSome_iff_exists.mp (Option.isNone_eq_false_iff.mp hsome)
      obtain ⟨pick, hpick⟩ := List.mem_iff_getElem?.mp hx
      have hstep : s.step (.wake i pick t) = some ({ s.cancelGetters i 0 c.responseTypes got with
          client := { (s.cancelGetters i 0 c.responseTypes got).client with
            lastElapsedMs := c.elapsed t0 t
              (s.cancelGetters i 0 c.responseTypes got).client.lastElapsedMs } }.setFrame i c
                (.returned (.message m))) := by
        simp only [step, hi, hpick]
      exact ⟨_, _, _, hstep, rfl, le_rfl, calls_setFrame (s.cancelGetters_calls i 0 _ _) i c _,
        Nat.one_pos⟩
  | polling deadline =>
    have hlate : deadline - max t deadline ≤ 0 := by
      rw [sub_nonpos]
      exact le_max_right _ _
    have hpoll : ∃ f', s.poll i c deadline (max t deadline) = s.setFrame i c f' ∧
        f'.toGo c = 0 := by
      rw [poll]
      split
      · exact ⟨_, rfl, rfl⟩
      · split <;> exact ⟨_, rfl, rfl⟩
      · rw [if_pos hlate]
        exact ⟨_, rfl, c.toGo_onTimeout⟩
    obtain ⟨f', heq, hto⟩ := hpoll
    have hstep : s.step (.poll i (max t deadline)) = some (s.setFrame i c f') := by
      simp only [step, hi, heq]
    exact ⟨_, _, _, hstep, rfl, le_max_left _ _, rfl, hto.trans_lt Nat.one_pos⟩
  | returned | raised => cases hf

/-- **A call can be brought to its end**, whatever the server does not send, in no more steps than
it has to go. -/
theorem exists_run_ended (hi : s.calls i = some ⟨c, f⟩) (t : ℚ) :
    ∃ ls s' f', Lts.run step s ls = some s' ∧ ls.length ≤ f.toGo c ∧
      (∀ l ∈ ls, l.ofCall = true) ∧ Timed t ls ∧
      s'.calls = Function.update s.calls i (some ⟨c, f'⟩) ∧ f'.ended = true ∧
      s'.waiting = s.waiting := by
  induction hn : f.toGo c using Nat.strong_induction_on generalizing s f t with
  | _ n ih =>
    cases hf : f.ended with
    | true =>
      have hself : s.calls = Function.update s.calls i (some ⟨c, f⟩) := by
        rw [← hi, Function.update_eq_self]
      exact ⟨[], s, f, rfl, Nat.zero_le _, by simp, trivial, hself, hf, rfl⟩
    | false =>
      obtain ⟨l, s₁, f₁, h₁⟩ := exists_advances hi hf t
      have hi₁ : s₁.calls i = some ⟨c, f₁⟩ := by rw [h₁.calls, Function.update_self]
      obtain ⟨ls, s', f', hrun, hlength, hof, htimed, hcalls, hended, hwaiting⟩ :=
        ih (f₁.toGo c) (hn ▸ h₁.toGo) hi₁ (l.clock t) rfl
      refine ⟨l :: ls, s', f', ?_, ?_, List.forall_mem_cons.mpr ⟨h₁.ofCall, hof⟩,
        ⟨h₁.time, htimed⟩, ?_, hended, hwaiting.trans (waiting_of_ofCall h₁.ofCall h₁.step)⟩
      · rw [Lts.run_cons, h₁.step, Option.bind_some, hrun]
      · rw [List.length_cons, ← hn]
        exact (Nat.succ_le_succ hlength).trans h₁.toGo
      · rw [hcalls, h₁.calls, Function.update_idem]

/-- A suspended call of `wait_for_event` can time out. -/
theorem exists_expires {w : WaitForEvent} (hi : s.eventCalls i = some (.waiting w)) :
    ∃ s', s.step (.events (.expire i)) = some s' ∧ s'.calls = s.calls ∧
      s'.eventCalls =
        Function.update s.eventCalls i (some (.raised (.timeoutError w.timeoutText))) := by
  have hstep : s.step (.events (.expire i)) = some { s with
      client := { s.client with events := (s.waiting.leave i).acc }
      eventCalls := ((s.waiting.leave i).setCall i
        (.raised (.timeoutError w.timeoutText))).calls } := by
    simp only [step, Waiting.step, hi]
    rfl
  exact ⟨_, hstep, rfl, rfl⟩

/-! ## All calls -/

/-- No call is in flight. -/
structure AtRest (s : Loop) : Prop where
  calls : ∀ i task, s.calls i = some task → task.frame.ended = true
  eventCalls : ∀ i f, s.eventCalls i = some f → f.isWaiting = false

/-- The calls of `s` are those of `s'`, and those that have ended are where they were. -/
structure Continues (s s' : Loop) : Prop where
  calls : ∀ i, s'.calls i = s.calls i ∨
    ∃ c f f', s.calls i = some ⟨c, f⟩ ∧ f.ended = false ∧ s'.calls i = some ⟨c, f'⟩
  eventCalls : ∀ i, s'.eventCalls i = s.eventCalls i ∨
    ∃ w f', s.eventCalls i = some (.waiting w) ∧ s'.eventCalls i = some f'

theorem Continues.refl (s : Loop) : Continues s s := ⟨fun _ => .inl rfl, fun _ => .inl rfl⟩

theorem Continues.trans {s'' : Loop} (h : Continues s s') (h' : Continues s' s'') :
    Continues s s'' where
  calls i := by
    rcases h'.calls i with heq' | ⟨c, f', f'', hi', hf', hi''⟩
    · rw [heq']
      exact h.calls i
    · rcases h.calls i with heq | ⟨c₁, f, f₁, hi, hf, hi₁⟩
      · exact .inr ⟨c, f', f'', heq.symm.trans hi', hf', hi''⟩
      · obtain ⟨rfl, rfl⟩ := Task.mk.inj (Option.some.inj (hi₁.symm.trans hi'))
        exact .inr ⟨c₁, f, f'', hi, hf, hi''⟩
  eventCalls i := by
    rcases h'.eventCalls i with heq' | ⟨w, f'', hi', hi''⟩
    · rw [heq']
      exact h.eventCalls i
    · rcases h.eventCalls i with heq | ⟨w₁, f', hi, -⟩
      · exact .inr ⟨w, f'', heq.symm.trans hi', hi''⟩
      · exact .inr ⟨w₁, f'', hi, hi''⟩

/-- What has come to rest stays so when the others go on. -/
theorem Continues.ended (h : Continues s s') {task : Task}
    (hs : ∀ task, s.calls i = some task → task.frame.ended = true) (hi : s'.calls i = some task) :
    task.frame.ended = true := by
  rcases h.calls i with heq | ⟨c, f, f', hi', hf, -⟩
  · exact hs task (heq ▸ hi)
  · rw [hs _ hi'] at hf
    cases hf

theorem Continues.not_isWaiting (h : Continues s s') {f : WaitFrame}
    (hs : ∀ f, s.eventCalls i = some f → f.isWaiting = false) (hi : s'.eventCalls i = some f) :
    f.isWaiting = false := by
  rcases h.eventCalls i with heq | ⟨w, f', hi', -⟩
  · exact hs f (heq ▸ hi)
  · cases hs _ hi'

/-- The steps of calls in flight and their time-outs. -/
def Label.ofCalls (l : Label) : Prop := l.ofCall = true ∨ ∃ i, l = .events (.expire i)

/-- The calls under number `i` can be brought to their ends. -/
theorem exists_run_rest (s : Loop) (i : ℕ) (t : ℚ) :
    ∃ ls s', Lts.run step s ls = some s' ∧ (∀ l ∈ ls, l.ofCalls) ∧ Timed t ls ∧ Continues s s' ∧
      (∀ task, s'.calls i = some task → task.frame.ended = true) ∧
      ∀ f, s'.eventCalls i = some f → f.isWaiting = false := by
  -- first the call of a method, then the call of `wait_for_event`
  obtain ⟨ls, s₁, hrun, hof, htimed, hcontinues, hended⟩ : ∃ ls s₁, Lts.run step s ls = some s₁ ∧
      (∀ l ∈ ls, l.ofCalls) ∧ Timed t ls ∧ Continues s s₁ ∧
      ∀ task, s₁.calls i = some task → task.frame.ended = true := by
    rcases hi : s.calls i with _ | ⟨c, f⟩
    · refine ⟨[], s, rfl, by simp, trivial, .refl s, fun task htask => ?_⟩
      rw [hi] at htask
      cases htask
    · cases hf : f.ended with
      | true =>
        refine ⟨[], s, rfl, by simp, trivial, .refl s, fun task htask => ?_⟩
        rw [hi] at htask
        cases htask
        exact hf
      | false =>
        obtain ⟨ls, s₁, f', hrun, -, hof, htimed, hcalls, hended, hwaiting⟩ :=
          exists_run_ended hi t
        refine ⟨ls, s₁, hrun, fun l hl => .inl (hof l hl), htimed, ⟨fun j => ?_, fun j => .inl ?_⟩,
          fun task htask => ?_⟩
        · by_cases hj : j = i
          · subst hj
            exact .inr ⟨c, f, f', hi, hf, by rw [hcalls, Function.update_self]⟩
          · exact .inl (by rw [hcalls, Function.update_of_ne hj])
        · exact congrFun (congrArg Waiting.calls hwaiting) j
        · rw [hcalls, Function.update_self] at htask
          cases htask
          exact hended
  rcases hi : s₁.eventCalls i with _ | f
  · refine ⟨ls, s₁, hrun, hof, htimed, hcontinues, hended, fun f hf => ?_⟩
    rw [hi] at hf
    cases hf
  · cases f with
    | waiting w =>
      obtain ⟨s₂, hstep, hcalls, heventCalls⟩ := exists_expires hi
      refine ⟨ls ++ [.events (.expire i)], s₂, ?_, ?_, ?_, hcontinues.trans ⟨fun j => .inl ?_,
        fun j => ?_⟩, ?_, fun f hf => ?_⟩
      · rw [Lts.run_append, hrun, Option.bind_some, Lts.run_cons, hstep]
        rfl
      · intro l hl
        rcases List.mem_append.mp hl with hl | hl
        · exact hof l hl
        · exact .inr ⟨i, List.mem_singleton.mp hl⟩
      · exact timed_append.mpr ⟨htimed, le_rfl, trivial⟩
      · rw [hcalls]
      · by_cases hj : j = i
        · subst hj
          exact .inr ⟨w, _, hi, by rw [heventCalls, Function.update_self]⟩
        · exact .inl (by rw [heventCalls, Function.update_of_ne hj])
      · rw [hcalls]
        exact hended
      · rw [heventCalls, Function.update_self] at hf
        cases hf
        rfl
    | returned | raised =>
      refine ⟨ls, s₁, hrun, hof, htimed, hcontinues, hended, fun f hf => ?_⟩
      rw [hi] at hf
      cases hf
      rfl

/-- So can the calls under all numbers below `n`. -/
theorem exists_run_rest_below (s : Loop) (n : ℕ) (t : ℚ) :
    ∃ ls s', Lts.run step s ls = some s' ∧ (∀ l ∈ ls, l.ofCalls) ∧ Timed t ls ∧ Continues s s' ∧
      ∀ i < n, (∀ task, s'.calls i = some task → task.frame.ended = true) ∧
        ∀ f, s'.eventCalls i = some f → f.isWaiting = false := by
  induction n with
  | zero => exact ⟨[], s, rfl, by simp, trivial, .refl s, fun i hi => absurd hi (Nat.not_lt_zero i)⟩
  | succ n ih =>
    obtain ⟨ls, s₁, hrun, hof, htimed, hcontinues, hrest⟩ := ih
    obtain ⟨ls', s', hrun', hof', htimed', hcontinues', hended, hwaiting⟩ :=
      exists_run_rest s₁ n (ls.foldl (fun t l => l.clock t) t)
    refine ⟨ls ++ ls', s', ?_, ?_, timed_append.mpr ⟨htimed, htimed'⟩,
      hcontinues.trans hcontinues', fun i hi => ?_⟩
    · rw [Lts.run_append, hrun, Option.bind_some, hrun']
    · intro l hl
      rcases List.mem_append.mp hl with hl | hl
      · exact hof l hl
      · exact hof' l hl
    · rcases Nat.lt_succ_iff_lt_or_eq.mp hi with hi | rfl
      · obtain ⟨hended₁, hwaiting₁⟩ := hrest i hi
        exact ⟨fun task => hcontinues'.ended hended₁, fun f => hcontinues'.not_isWaiting hwaiting₁⟩
      · exact ⟨hended, hwaiting⟩

/-! ## Finitely many calls -/

/-- No call has a number from `n` on. -/
def Below (n : ℕ) (s : Loop) : Prop := ∀ i, n ≤ i → s.calls i = none ∧ s.eventCalls i = none

/-- A step touches at most one call of a method. -/
theorem step_calls_of_ne {l : Label} (h : s.step l = some s') :
    ∃ i, ∀ j, j ≠ i → s'.calls j = s.calls j := by
  have update : ∀ {i task}, s'.calls = Function.update s.calls i task →
      ∃ i, ∀ j, j ≠ i → s'.calls j = s.calls j :=
    fun hcalls => ⟨_, fun j hj => by rw [hcalls, Function.update_of_ne hj]⟩
  cases step_effect h with
  | quiet hcalls | received hcalls | cleared hcalls => exact ⟨0, fun j _ => by rw [hcalls]⟩
  | started _ hcalls | sent _ hcalls | «local» _ _ hcalls | polled _ _ hcalls
  | handed _ _ _ hcalls | getters _ _ hcalls => exact update hcalls

end Loop

/-- So does a step of the accumulator. -/
theorem Waiting.step_calls_of_ne {s s' : Waiting} {l : Waiting.Label} (h : s.step l = some s') :
    ∃ i, ∀ j, j ≠ i → s'.calls j = s.calls j := by
  have scan : ∀ (s₁ : Waiting) (i : ℕ) (w : WaitForEvent) (now : ℚ) (j : ℕ), j ≠ i →
      (s₁.scan i w now).calls j = s₁.calls j := by
    intro s₁ i w now j hj
    rw [Waiting.scan]
    split
    · exact Function.update_of_ne hj ..
    · split <;> exact Function.update_of_ne hj ..
  cases Waiting.step_cases h with
  | push | clear | getAll => exact ⟨0, fun _ _ => rfl⟩
  | waitForEvent | wake => exact ⟨_, fun j hj => scan _ _ _ _ j hj⟩
  | expire => exact ⟨_, fun j hj => Function.update_of_ne hj ..⟩

namespace Loop

variable {s s' : Loop}

theorem step_eventCalls_of_ne {l : Label} (h : s.step l = some s') :
    ∃ i, ∀ j, j ≠ i → s'.eventCalls j = s.eventCalls j := by
  have hof : ∀ s : Loop, s.eventCalls = s.waiting.calls := fun _ => rfl
  rw [hof, hof]
  have heff := step_waitEffect h
  generalize s'.waiting = w at heff ⊢
  cases heff with
  | quiet | push => exact ⟨0, fun _ _ => rfl⟩
  | event _ hw => exact Waiting.step_calls_of_ne hw

theorem run_below {ls : List Label} (h : Lts.run step new ls = some s) : ∃ n, Below n s := by
  refine Lts.run_invariant (I := fun s => ∃ n, Below n s) ⟨0, fun _ _ => ⟨rfl, rfl⟩⟩ ?_ h
  rintro s l s' ⟨n, hn⟩ hl
  obtain ⟨i, hi⟩ := step_calls_of_ne hl
  obtain ⟨i', hi'⟩ := step_eventCalls_of_ne hl
  refine ⟨max n (max i i' + 1), fun j hj => ?_⟩
  obtain ⟨hcalls, heventCalls⟩ := hn j (by omega)
  exact ⟨(hi j (by omega)).trans hcalls, (hi' j (by omega)).trans heventCalls⟩

/-- **No call hangs.** From every state that can be reached, at any time, the calls in flight can
all be brought to their ends by their own steps and their time-outs alone: nothing needs to arrive,
and no other call needs to be made. The calls that had ended before stay as they were. -/
theorem comes_to_rest {ls : List Label} (h : Lts.run step new ls = some s) (t : ℚ) :
    ∃ ls' s', Lts.run step s ls' = some s' ∧ (∀ l ∈ ls', l.ofCalls) ∧ Timed t ls' ∧
      Continues s s' ∧ AtRest s' := by
  obtain ⟨n, hn⟩ := run_below h
  obtain ⟨ls', s', hrun, hof, htimed, hcontinues, hrest⟩ := exists_run_rest_below s n t
  refine ⟨ls', s', hrun, hof, htimed, hcontinues, fun i task hi => ?_, fun i f hi => ?_⟩
  · rcases lt_or_ge i n with hlt | hge
    · exact (hrest i hlt).1 task hi
    · refine hcontinues.ended (fun task htask => ?_) hi
      rw [(hn i hge).1] at htask
      cases htask
  · rcases lt_or_ge i n with hlt | hge
    · exact (hrest i hlt).2 f hi
    · refine hcontinues.not_isWaiting (fun f hf => ?_) hi
      rw [(hn i hge).2] at hf
      cases hf

/-- A request that has been sent, a burst, and a call of `wait_for_event` are in flight. -/
def inFlight : List Label :=
  [.connect 0, .start 0 (.request (.obj []) "a" 5) 0, .sent 0, .resume 0 0, .resume 0 0,
    .start 1 (.burstSameResponse [.obj [], .obj []] "b" 5) 1, .sent 1,
    .events (.waitForEvent 0 "c" 5 none 1)]

theorem comes_to_rest_inFlight :
    ∃ s, Lts.run step new inFlight = some s ∧ (s.calls 0).isSome = true ∧
      ∃ ls' s', Lts.run step s ls' = some s' ∧ (∀ l ∈ ls', l.ofCalls) ∧ Timed 2 ls' ∧
        Continues s s' ∧ AtRest s' := by
  have hrun : ((Lts.run step new inFlight).any fun s => (s.calls 0).isSome) = true := by
    decide +kernel
  obtain ⟨s, hs, hsome⟩ := (Option.any_eq_true ..).mp hrun
  exact ⟨s, hs, hsome, comes_to_rest hs 2⟩

end Loop

end SasTests
