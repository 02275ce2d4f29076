import SasTests.Delivery

/-!
# Current data from the accumulator

`get_system_params` asks the server for the parameters and then polls the accumulator for an object
that looks like the answer; `get_work_mode_from_status` just polls. The accumulator never forgets,
so an object that has been there before the call began is returned at once, however old it is; and
once anybody has registered a queue for `data_response`, the answers do not come to the accumulator
at all.

`answers` says which request a received object answers. `Undisturbed` is what must be the case when
a call begins, and while it waits, for it to get its own answer; `AwaitsAnswer` is the invariant of
a call that waits.
-/

namespace SasTests

open Python

/-- The text that asks for the system parameters. -/
def dataRequest : Wire := .text "data:request:system_params"

namespace Call

/-- Only `get_system_params` asks for them. -/
theorem eq_getSystemParams {c : Call} (h : dataRequest ∈ c.outgoing) : c = .getSystemParams := by
  cases c with
  | getSystemParams => rfl
  | burstSameResponse messages t timeout =>
    obtain ⟨m, -, hm⟩ := List.mem_map.mp h
    cases hm
  | _ => simp [outgoing, dataRequest] at h

/-- The stamp does not make an object an answer. -/
theorem isSystemParams_stamp (x : Received) (now : ℚ) :
    isSystemParams (x.stamp now).body = isSystemParams x.body := by
  obtain ⟨idx, body⟩ := x
  cases body with
  | obj fields =>
    simp only [isSystemParams, Received.stamp, Json.get_obj]
    rw [Json.field_assign_of_ne (h := by decide), Json.field_assign_of_ne (h := by decide)]
  | _ => rfl

theorem typeStr_of_isSystemParams {x : Received} (h : isSystemParams x.body = .ok true) :
    x.typeStr = some MsgType.dataResponse := by
  obtain ⟨idx, body⟩ := x
  cases body with
  | obj fields =>
    simp only [isSystemParams, Json.get_obj, bind, Except.bind] at h
    split at h
    · rename_i htype
      simp only [Received.typeStr, Json.eqStr_iff.mp htype]
    · cases h
  | _ => cases h

/-- On an object the predicate does not raise. -/
theorem isSystemParams_obj (fields : List (String × Json)) :
    ∃ b, isSystemParams (.obj fields) = .ok b := by
  simp only [isSystemParams, Json.get_obj, bind, Except.bind]
  split <;> exact ⟨_, rfl⟩

/-- After its sends a call wants messages, polls, or has failed. -/
theorem afterSend_cases (c : Call) (t0 now : ℚ) :
    (∃ left t, c.afterSend t0 now = .collecting left [] t) ∨ c.afterSend t0 now = .created t0 ∨
      (∃ deadline, c.afterSend t0 now = .polling deadline) ∨
        c.afterSend t0 now = .raised .valueError := by
  cases c with
  | requestAny message ts timeout =>
    simp only [afterSend]
    split <;> simp
  | _ => simp [afterSend]

/-- A call that times out has ended, without an event. -/
theorem onTimeout_cases (c : Call) :
    c.onTimeout = .returned .none ∨ ∃ e, c.onTimeout = .raised e := by
  cases c <;> simp [onTimeout]

/-- A call that finds an event in the accumulator finds one that meets its predicate. -/
theorem firstMatch_some {p : Json → Except PyError Bool} {events : List Received} {ev : Received}
    (h : Loop.firstMatch p events = .ok (some ev)) : ev ∈ events ∧ p ev.body = .ok true := by
  induction events with
  | nil => cases h
  | cons e events ih =>
    simp only [Loop.firstMatch, bind, Except.bind] at h
    rcases hp : p e.body with err | b
    · rw [hp] at h
      cases h
    · rw [hp] at h
      cases b with
      | true =>
        cases h
        exact ⟨List.mem_cons_self .., hp⟩
      | false =>
        obtain ⟨hmem, hev⟩ := ih h
        exact ⟨List.mem_cons_of_mem _ hmem, hev⟩

/-- A predicate that raises on no event, and holds of one of them, finds one. -/
theorem exists_firstMatch {p : Json → Except PyError Bool} {events : List Received}
    (htotal : ∀ ev ∈ events, ∃ b, p ev.body = .ok b)
    (hmatch : ∃ ev ∈ events, p ev.body = .ok true) :
    ∃ ev, Loop.firstMatch p events = .ok (some ev) := by
  induction events with
  | nil =>
    obtain ⟨ev, hev, -⟩ := hmatch
    cases hev
  | cons e events ih =>
    simp only [Loop.firstMatch, bind, Except.bind]
    obtain ⟨b, hb⟩ := htotal e (List.mem_cons_self ..)
    rw [hb]
    cases b with
    | true => exact ⟨e, rfl⟩
    | false =>
      refine ih (fun ev hev => htotal ev (List.mem_cons_of_mem _ hev)) ?_
      obtain ⟨ev, hev, hp⟩ := hmatch
      rcases List.mem_cons.mp hev with rfl | hev
      · rw [hb] at hp
        cases hp
      · exact ⟨ev, hev, hp⟩

end Call

/-- The getter tasks leave the accumulator alone. -/
theorem Mail.Getters.events_eq {i : ℕ} {ts : List String} {m m' : Mail}
    {got : List (Option Received)} (h : Mail.Getters i ts m got m') : m'.events = m.events := by
  induction h with
  | nil m => rfl
  | suspend _ _ ih => exact ih
  | take _ _ ih => exact ih

/-- Nor do they write anything. -/
theorem Mail.Getters.sent {i : ℕ} {ts : List String} {m m' : Mail}
    {got : List (Option Received)} (h : Mail.Getters i ts m got m') {k j : ℕ} {w : Wire}
    (hk : m'.log[k]? = some (.sent j w)) : m.log[k]? = some (.sent j w) := by
  induction h with
  | nil m => exact hk
  | suspend _ _ ih => exact ih hk
  | @take t _ m _ _ x _ _ _ ih =>
    have hk' : (m.log ++ [Obs.handed i t x])[k]? = some (.sent j w) := ih hk
    exact (Mail.entry_of_concat hk').resolve_right fun h => by cases h.1

namespace WSClient

/-- Only objects get past `msg.get`. -/
theorem obj_of_dispatch {c c' : WSClient} {msg : Json} {idx : ℕ} {now : ℚ} {woken : Option Waiter}
    (h : c.dispatch (.ok msg) idx now = .ok (c', woken)) : ∃ fields, msg = .obj fields := by
  cases msg with
  | obj fields => exact ⟨fields, rfl⟩
  | _ => cases h

end WSClient

namespace Loop

/-! ## Calls that end -/

/-- `get_system_params` number `i` has neither returned nor raised. -/
def InFlight (s : Loop) (i : ℕ) : Prop :=
  ∃ f, s.calls i = some ⟨.getSystemParams, f⟩ ∧ f.ended = false

/-- A call that does not poll returns no event. -/
theorem Local.ne_event {s : Loop} {c : Call} {l : Label} {f : Frame} {ev : Received} {v : Json} :
    ¬ s.Local c l f (.returned (.event ev v)) := by
  intro h
  generalize hf' : Frame.returned (.event ev v) = f' at h
  cases h with
  | afterSend =>
    rename_i t0 now
    rcases c.afterSend_cases t0 now with ⟨_, _, h⟩ | h | ⟨_, h⟩ | h <;> rw [h] at hf' <;> cases hf'
  | «return» =>
    rename_i out t0 now
    have hr : Result.event ev v = c.result out := Frame.returned.inj hf'
    cases c with
    | burstSameResponse => cases hr
    | _ => cases out <;> cases hr
  | timeout => rcases c.onTimeout_cases with h | ⟨e, h⟩ <;> rw [h] at hf' <;> cases hf'
  | timeoutAny _ => rcases c.onTimeout_cases with h | ⟨e, h⟩ <;> rw [h] at hf' <;> cases hf'
  | _ => cases hf'

/-- Nor does any call go back to sending. -/
theorem Local.ne_sending {s : Loop} {c : Call} {l : Label} {f : Frame} {todo : List Wire} {t0 : ℚ} :
    ¬ s.Local c l f (.sending todo t0) := by
  intro h
  generalize hf' : Frame.sending todo t0 = f' at h
  cases h with
  | afterSend =>
    rename_i t0 now
    rcases c.afterSend_cases t0 now with ⟨_, _, h⟩ | h | ⟨_, h⟩ | h <;> rw [h] at hf' <;> cases hf'
  | timeout => rcases c.onTimeout_cases with h | ⟨e, h⟩ <;> rw [h] at hf' <;> cases hf'
  | timeoutAny _ => rcases c.onTimeout_cases with h | ⟨e, h⟩ <;> rw [h] at hf' <;> cases hf'
  | _ => cases hf'

theorem Polls.ne_sending {c : Call} {events : List Received} {f : Frame} {todo : List Wire}
    {t0 : ℚ} : ¬ Polls c events f (.sending todo t0) := by
  intro h
  generalize hf' : Frame.sending todo t0 = f' at h
  cases h with
  | timeout _ => rcases c.onTimeout_cases with h | ⟨e, h⟩ <;> rw [h] at hf' <;> cases hf'
  | _ => cases hf'

/-- A call that has not ended has not ended before, or has just begun. -/
theorem Effect.active {s s' : Loop} {l : Label} (h : Effect s l s') {j : ℕ} {c : Call} {g : Frame}
    (hg : s'.calls j = some ⟨c, g⟩) (hended : g.ended = false) :
    (∃ f, s.calls j = some ⟨c, f⟩ ∧ f.ended = false) ∨
      (∃ now, l = .start j c now) ∧ s.calls j = none ∧ s'.mail = s.mail.start j c := by
  have moved : ∀ {i c' f f'}, s.calls i = some ⟨c', f⟩ → f.ended = false →
      s'.calls = Function.update s.calls i (some ⟨c', f'⟩) →
      ∃ f, s.calls j = some ⟨c, f⟩ ∧ f.ended = false := by
    intro i c' f f' hi hf hcalls
    rcases calls_cases hcalls hg with ⟨rfl, heq⟩ | hg
    · cases heq
      exact ⟨f, hi, hf⟩
    · exact ⟨g, hg, hended⟩
  cases h with
  | quiet hcalls _ => exact .inl ⟨g, hcalls ▸ hg, hended⟩
  | received hcalls _ => exact .inl ⟨g, hcalls ▸ hg, hended⟩
  | cleared hcalls _ => exact .inl ⟨g, hcalls ▸ hg, hended⟩
  | started hi hcalls hm =>
    rcases calls_cases hcalls hg with ⟨rfl, heq⟩ | hg
    · cases heq
      exact .inr ⟨⟨_, rfl⟩, hi, hm⟩
    · exact .inl ⟨g, hg, hended⟩
  | sent hi hcalls _ => exact .inl (moved hi rfl hcalls)
  | «local» hi hl hcalls _ => exact .inl (moved hi hl.not_ended hcalls)
  | polled hi hp hcalls _ => exact .inl (moved hi hp.not_ended hcalls)
  | handed hi ht _ hcalls _ => exact .inl (moved hi ht.not_ended hcalls)
  | getters hi _ hcalls => exact .inl (moved hi rfl hcalls)

/-- An object in the history was there before, or has just been received. -/
theorem Effect.real {s s' : Loop} {l : Label} (h : Effect s l s') {x : Received}
    (hx : s'.mail.Real x) :
    s.mail.Real x ∨ ∃ msg now, l = .receive (.ok msg) now ∧ x = ⟨s.log.length, msg⟩ := by
  cases h with
  | quiet _ hm => exact .inl (hm ▸ hx)
  | received hcalls hm =>
    rename_i msg now
    rw [hm, Mail.Real, Mail.receive_log] at hx
    rcases Mail.entry_of_concat hx with hx | ⟨heq, -⟩
    · exact .inl hx
    · exact .inr ⟨msg, now, rfl, (Obs.received.inj heq).symm⟩
  | cleared _ hm =>
    rw [hm] at hx
    exact .inl ((Mail.entry_of_concat hx).resolve_right fun h => by cases h.1)
  | started _ _ hm =>
    rw [hm] at hx
    exact .inl ((Mail.entry_of_concat hx).resolve_right fun h => by cases h.1)
  | sent _ _ hm =>
    rw [hm] at hx
    exact .inl ((Mail.entry_of_concat hx).resolve_right fun h => by cases h.1)
  | «local» _ _ _ hm => exact .inl (hm ▸ hx)
  | polled _ _ _ hm => exact .inl (hm ▸ hx)
  | handed _ _ _ _ hm =>
    rw [hm] at hx
    exact .inl ((Mail.entry_of_concat hx).resolve_right fun h => by cases h.1)
  | getters _ hg _ => exact .inl (hg.real hx)

/-- A request that is in the history was there before, or has just been written by its call. -/
theorem Effect.sent_entry {s s' : Loop} {l : Label} (h : Effect s l s') {k i : ℕ} {w : Wire}
    (hk : s'.log[k]? = some (.sent i w)) :
    s.log[k]? = some (.sent i w) ∨ k = s.log.length ∧
      ∃ c todo t0, s.calls i = some ⟨c, .sending (w :: todo) t0⟩ ∧
        s'.calls i = some ⟨c, .sending todo t0⟩ := by
  have hk : s'.mail.log[k]? = some (.sent i w) := hk
  cases h with
  | quiet _ hm | «local» _ _ _ hm | polled _ _ _ hm =>
    rw [hm] at hk
    exact .inl hk
  | received _ hm =>
    rw [hm, Mail.receive_log] at hk
    exact .inl ((Mail.entry_of_concat hk).resolve_right fun h => by cases h.1)
  | cleared _ hm | started _ _ hm | handed _ _ _ _ hm =>
    rw [hm] at hk
    exact .inl ((Mail.entry_of_concat hk).resolve_right fun h => by cases h.1)
  | sent hi hcalls hm =>
    rw [hm] at hk
    rcases Mail.entry_of_concat hk with hk | ⟨heq, hlen⟩
    · exact .inl hk
    · cases heq
      exact .inr ⟨hlen, _, _, _, hi, by rw [hcalls, Function.update_self]⟩
  | getters _ hg _ => exact .inl (hg.sent hk)

/-- Calls do not disappear. -/
theorem Effect.absent {s s' : Loop} {l : Label} (h : Effect s l s') {i : ℕ}
    (hi : s'.calls i = none) : s.calls i = none := by
  have moved : ∀ {j task}, s'.calls = Function.update s.calls j (some task) →
      s.calls i = none := by
    intro j task hcalls
    rw [hcalls] at hi
    by_cases hij : i = j
    · rw [hij, Function.update_self] at hi
      cases hi
    · rwa [Function.update_of_ne hij] at hi
  cases h with
  | quiet hcalls _ | received hcalls _ | cleared hcalls _ => exact hcalls ▸ hi
  | started _ hcalls _ | sent _ hcalls _ | «local» _ _ hcalls _ | polled _ _ hcalls _ =>
    exact moved hcalls
  | handed _ _ _ hcalls _ | getters _ _ hcalls => exact moved hcalls

/-- A call that still has to write has had to before, has just begun, or has just written
something else. -/
theorem Effect.still_sending {s s' : Loop} {l : Label} (h : Effect s l s') {j : ℕ} {c : Call}
    {todo : List Wire} {t0 : ℚ} (hj : s'.calls j = some ⟨c, .sending todo t0⟩) :
    s.calls j = some ⟨c, .sending todo t0⟩ ∨ s.calls j = none ∨
      ∃ w, s.calls j = some ⟨c, .sending (w :: todo) t0⟩ := by
  cases h with
  | quiet hcalls _ | received hcalls _ | cleared hcalls _ => exact .inl (hcalls ▸ hj)
  | started hi hcalls _ =>
    rcases calls_cases hcalls hj with ⟨rfl, -⟩ | hj
    · exact .inr (.inl hi)
    · exact .inl hj
  | sent hi hcalls _ =>
    rcases calls_cases hcalls hj with ⟨rfl, heq⟩ | hj
    · cases heq
      exact .inr (.inr ⟨_, hi⟩)
    · exact .inl hj
  | «local» _ hl hcalls _ =>
    rcases calls_cases hcalls hj with ⟨rfl, heq⟩ | hj
    · cases heq
      exact absurd hl Local.ne_sending
    · exact .inl hj
  | polled _ hp hcalls _ =>
    rcases calls_cases hcalls hj with ⟨rfl, heq⟩ | hj
    · cases heq
      exact absurd hp Polls.ne_sending
    · exact .inl hj
  | handed _ ht _ hcalls _ =>
    rcases calls_cases hcalls hj with ⟨rfl, heq⟩ | hj
    · cases heq
      cases ht
    · exact .inl hj
  | getters _ _ hcalls =>
    rcases calls_cases hcalls hj with ⟨rfl, heq⟩ | hj
    · cases heq
    · exact .inl hj

/-- Whatever comes into the accumulator is an object. -/
theorem step_objects {s s' : Loop} {l : Label} (h : s.step l = some s') {ev : Received}
    (hev : ev ∈ s'.mail.events) : ev ∈ s.mail.events ∨ ∃ fields, ev.body = .obj fields := by
  cases step_effect h with
  | quiet _ hm | «local» _ _ _ hm | polled _ _ _ hm => exact .inl (hm ▸ hev)
  | cleared _ hm =>
    rw [hm] at hev
    cases hev
  | started _ _ hm | sent _ _ hm =>
    rw [hm] at hev
    exact .inl hev
  | handed _ _ _ _ hm =>
    rw [hm] at hev
    exact .inl hev
  | getters _ hg _ => exact .inl (hg.events_eq ▸ hev)
  | received _ hm =>
    rename_i msg now _
    cases step_cases h with
    | receive =>
      rcases hd : s.client.dispatch (.ok msg) s.log.length now with e | ⟨c, woken⟩
      · rw [receive, hd] at hev
        exact .inl hev
      · rw [hm, Mail.receive_events] at hev
        split at hev
        · rcases List.mem_append.mp hev with hev | hev
          · exact .inl hev
          · obtain ⟨fields, rfl⟩ := WSClient.obj_of_dispatch hd
            obtain rfl := List.mem_singleton.mp hev
            exact .inr ⟨_, rfl⟩
        · exact .inl hev

/-- A call returns an event only by finding it in the accumulator; the value is what it makes of the
event. -/
theorem Effect.event_returned {s s' : Loop} {l : Label} (h : Effect s l s') {j : ℕ} {c : Call}
    {ev : Received} {v : Json} (hj : s'.calls j = some ⟨c, .returned (.event ev v)⟩) :
    s.calls j = some ⟨c, .returned (.event ev v)⟩ ∨
      (∃ f, s.calls j = some ⟨c, f⟩ ∧ f.ended = false) ∧ s'.mail = s.mail ∧
        ev ∈ s.mail.events ∧ c.predicate ev.body = .ok true ∧ c.finish ev.body = .ok v := by
  have moved : ∀ {i c' f'}, s'.calls = Function.update s.calls i (some ⟨c', f'⟩) →
      (∀ ev v, f' ≠ .returned (.event ev v)) → s.calls j = some ⟨c, .returned (.event ev v)⟩ := by
    intro i c' f' hcalls hf'
    rcases calls_cases hcalls hj with ⟨rfl, heq⟩ | hj
    · cases heq
      exact absurd rfl (hf' _ _)
    · exact hj
  cases h with
  | quiet hcalls _ => exact .inl (hcalls ▸ hj)
  | received hcalls _ => exact .inl (hcalls ▸ hj)
  | cleared hcalls _ => exact .inl (hcalls ▸ hj)
  | started _ hcalls _ => exact .inl (moved hcalls fun _ _ => by simp)
  | sent _ hcalls _ => exact .inl (moved hcalls fun _ _ => by simp)
  | «local» _ hl hcalls _ =>
    exact .inl (moved hcalls fun ev v hf' => Local.ne_event (hf' ▸ hl))
  | polled hi hp hcalls hm =>
    rename_i i c' f f' now
    rcases calls_cases hcalls hj with ⟨rfl, heq⟩ | hj
    · cases heq
      refine .inr ⟨⟨f, hi, hp.not_ended⟩, hm, ?_⟩
      generalize hf' : Frame.returned (.event ev v) = f' at hp
      cases hp with
      | raises => cases hf'
      | found hfirst hv =>
        cases hf'
        exact ⟨(Call.firstMatch_some hfirst).1, (Call.firstMatch_some hfirst).2, hv⟩
      | timeout _ => cases c <;> cases hf'
    · exact .inl hj
  | handed _ ht _ hcalls _ =>
    exact .inl (moved hcalls fun ev v hf' => by cases ht <;> cases hf')
  | getters _ _ hcalls => exact .inl (moved hcalls fun _ _ => by simp)

end Loop

/-! ## Waiting for the answer -/

/-- As long as nobody has registered their type, what looks like an answer goes to the
accumulator. -/
theorem destination_isSystemParams {registered : String → Bool} {x : Received}
    (h : Call.isSystemParams x.body = .ok true) (hreg : registered MsgType.dataResponse = false) :
    destination registered x = .accumulator := by
  have hspecial : ¬ (MsgType.dataResponse = MsgType.ping ∨ MsgType.dataResponse = MsgType.pong) := by
    decide
  simp [destination, Call.typeStr_of_isSystemParams h, hspecial, hreg]

/-- Nobody has asked for the parameters since place `p` of the history. -/
def NotAsked (m : Mail) (p : ℕ) : Prop :=
  ∀ k j, p < k → m.log[k]? ≠ some (.sent j dataRequest)

/-- What is known while call number `i` of `get_system_params`, which began at place `p` of the
history, waits for its answer. -/
structure AwaitsAnswer (answers : ℕ → Option ℕ) (m : Mail) (i p : ℕ) : Prop where
  /-- it began at `p` -/
  started : m.log[p]? = some (.started i .getSystemParams)
  /-- nobody else takes the answers -/
  unregistered : m.items MsgType.dataResponse = none
  /-- what looks like an answer has come since then, and is one -/
  pending : ∀ ev ∈ m.events, Call.isSystemParams ev.body = .ok true →
    p < ev.idx ∧ m.Stamped ev ∧ (answers ev.idx).isSome = true
  /-- whatever has come since then and looks like an answer is still there -/
  kept : ∀ x, m.Real x → p < x.idx → Call.isSystemParams x.body = .ok true →
    ∃ now, x.stamp now ∈ m.events
  /-- the earlier requests have had their answers -/
  answered : ∀ k j, k < p → m.log[k]? = some (.sent j dataRequest) → ∃ n < p, answers n = some k
  /-- nobody else has asked since then -/
  own : ∀ k j, p < k → m.log[k]? = some (.sent j dataRequest) → j = i
  /-- and the call has not asked before it began -/
  mine : ∀ k, m.log[k]? = some (.sent i dataRequest) → p < k
  /-- nor twice -/
  once : ∀ k k' : ℕ, m.log[k]? = some (.sent i dataRequest) →
    m.log[k']? = some (.sent i dataRequest) → k = k'

namespace AwaitsAnswer

variable {answers : ℕ → Option ℕ} {m m' : Mail} {i p : ℕ}

/-- It stays so as long as the type stays unregistered, no event goes, the new objects that look
like answers are answers and come to the accumulator, and the only new request is the first one of
the call itself. -/
theorem extend (h : AwaitsAnswer answers m i p) (he : Mail.Extends m m')
    (hitems : m'.items MsgType.dataResponse = none) (hold : ∀ ev ∈ m.events, ev ∈ m'.events)
    (hev : ∀ ev ∈ m'.events, ev ∉ m.events → Call.isSystemParams ev.body = .ok true →
      (answers ev.idx).isSome = true)
    (hreal : ∀ x, m'.Real x → Call.isSystemParams x.body = .ok true →
      m.Real x ∨ ∃ now, x.stamp now ∈ m'.events)
    (hsent : ∀ k j, m'.log[k]? = some (.sent j dataRequest) →
      m.log[k]? = some (.sent j dataRequest) ∨ k = m.log.length ∧ j = i ∧ NotAsked m p) :
    AwaitsAnswer answers m' i p := by
  have hp : p < m.log.length := (List.getElem?_eq_some_iff.mp h.started).1
  refine ⟨he.log_eq h.started, hitems, fun ev hev' hmatch => ?_, fun x hx hlt hmatch => ?_,
    fun k j hk hkj => ?_, fun k j hk hkj => ?_, fun k hk => ?_, fun k k' hk hk' => ?_⟩
  · by_cases hmem : ev ∈ m.events
    · obtain ⟨hlt, hstamped, hans⟩ := h.pending ev hmem hmatch
      exact ⟨hlt, he.stamped hstamped, hans⟩
    · obtain ⟨hle, hstamped⟩ := (he.events ev hev').resolve_right hmem
      exact ⟨hp.trans_le hle, hstamped, hev ev hev' hmem hmatch⟩
  · rcases hreal x hx hmatch with hx | hnew
    · exact (h.kept x hx hlt hmatch).imp fun now hmem => hold _ hmem
    · exact hnew
  · rcases hsent k j hkj with hkj | ⟨rfl, -⟩
    · exact h.answered k j hk hkj
    · omega
  · rcases hsent k j hkj with hkj | ⟨-, rfl, -⟩
    · exact h.own k j hk hkj
    · rfl
  · rcases hsent k i hk with hk | ⟨rfl, -⟩
    · exact h.mine k hk
    · exact hp
  · rcases hsent k i hk with hk | ⟨rfl, -, hnot⟩ <;> rcases hsent k' i hk' with hk' | ⟨rfl, -, hnot'⟩
    · exact h.once k k' hk hk'
    · exact absurd hk (hnot' k i (h.mine k hk))
    · exact absurd hk' (hnot k' i (h.mine k' hk'))
    · rfl

/-- So it does when the history gets an entry that is neither an object nor a request, and the
accumulator is left alone. -/
theorem grow (h : AwaitsAnswer answers m i p) (he : Mail.Extends m m') {o : Obs}
    (hlog : m'.log = m.log ++ [o]) (hitems : m'.items MsgType.dataResponse = none)
    (hevents : m'.events = m.events) (hreceived : ∀ x, o ≠ .received x)
    (hsent : ∀ j, o ≠ .sent j dataRequest) : AwaitsAnswer answers m' i p := by
  refine h.extend he hitems (fun _ hev => hevents ▸ hev)
    (fun _ hev hmem => absurd (hevents ▸ hev) hmem) (fun x hx _ => ?_) (fun k j hk => ?_)
  · rw [Mail.Real, hlog] at hx
    exact .inl ((Mail.entry_of_concat hx).resolve_right fun h => hreceived x h.1)
  · rw [hlog] at hk
    exact .inl ((Mail.entry_of_concat hk).resolve_right fun h => hsent j h.1)

/-- What looks like an answer comes to the accumulator, since nobody has registered its type. -/
theorem receive (h : AwaitsAnswer answers m i p) {msg : Json} (now : ℚ)
    (hans : Call.isSystemParams msg = .ok true → (answers m.log.length).isSome = true) :
    AwaitsAnswer answers (m.receive msg now) i p := by
  refine h.extend (.receive m msg now) ?_ (fun ev hev => ?_) (fun ev hev hmem hmatch => ?_)
    (fun x hx hmatch => ?_) (fun k j hkj => ?_)
  · rw [Mail.receive_items]
    split
    · rename_i hd
      have hreg := (of_destination_queue hd).2.2
      rw [h.unregistered] at hreg
      cases hreg
    · exact h.unregistered
  · rw [Mail.receive_events]
    split
    · exact List.mem_append_left _ hev
    · exact hev
  · rw [Mail.receive_events] at hev
    split at hev
    · rcases List.mem_append.mp hev with hev | hev
      · exact absurd hev hmem
      · obtain rfl := List.mem_singleton.mp hev
        rw [Received.stamp_idx]
        exact hans ((Call.isSystemParams_stamp ..).symm.trans hmatch)
    · exact absurd hev hmem
  · rw [Mail.Real, Mail.receive_log] at hx
    rcases Mail.entry_of_concat hx with hx | ⟨heq, -⟩
    · exact .inl hx
    · obtain rfl := Obs.received.inj heq
      have hreg : (m.items MsgType.dataResponse).isSome = false := by
        rw [h.unregistered]
        rfl
      refine .inr ⟨now, ?_⟩
      rw [Mail.receive_events, if_pos (destination_isSystemParams hmatch hreg)]
      exact List.mem_append_right _ (List.mem_singleton_self _)
  · rw [Mail.receive_log] at hkj
    exact .inl ((Mail.entry_of_concat hkj).resolve_right fun h => by cases h.1)

theorem start (h : AwaitsAnswer answers m i p) (j : ℕ) {c : Call}
    (hc : MsgType.dataResponse ∉ c.responseTypes) : AwaitsAnswer answers (m.start j c) i p := by
  refine h.grow (.start m j c) rfl ?_ rfl (fun _ => by simp) (fun _ => by simp)
  simp only [Mail.start, if_neg hc, h.unregistered]

/-- The request of the call itself is the first since it began. -/
theorem send (h : AwaitsAnswer answers m i p) {j : ℕ} {w : Wire}
    (hw : w = dataRequest → j = i ∧ NotAsked m p) : AwaitsAnswer answers (m.send j w) i p := by
  refine h.extend (.send m j w) h.unregistered (fun _ hev => hev)
    (fun _ hev hmem => absurd hev hmem) (fun x hx _ => ?_) (fun k j' hkj => ?_)
  · exact .inl ((Mail.entry_of_concat hx).resolve_right fun h => by cases h.1)
  · rcases Mail.entry_of_concat hkj with hkj | ⟨heq, hk⟩
    · exact .inl hkj
    · cases heq
      exact .inr ⟨hk, hw rfl⟩

theorem hand (h : AwaitsAnswer answers m i p) {j : ℕ} {t : String} {x : Received}
    {rest : List Received} (ht : m.items t = some (x :: rest)) :
    AwaitsAnswer answers (m.hand j t x rest) i p := by
  refine h.grow (.hand j ht) rfl ?_ rfl (fun _ => by simp) (fun _ => by simp)
  have hne : MsgType.dataResponse ≠ t := by
    rintro rfl
    rw [h.unregistered] at ht
    cases ht
  simp only [Mail.hand, Function.update_of_ne hne, h.unregistered]

theorem getters {j : ℕ} {ts : List String} {got : List (Option Received)}
    (hg : Mail.Getters j ts m got m') (h : AwaitsAnswer answers m i p) :
    AwaitsAnswer answers m' i p := by
  induction hg with
  | nil m => exact h
  | suspend _ _ ih => exact ih h
  | take ht _ ih => exact ih (h.hand ht)

/-- What the call finds is the answer to its own request: an answer to an earlier request would be
the second one. -/
theorem own_answer (h : AwaitsAnswer answers m i p)
    (hone : ∀ n n' k, answers n = some k → answers n' = some k → n = n')
    (hsound : ∀ x k, m.Real x → answers x.idx = some k → ∃ j, m.log[k]? = some (.sent j dataRequest))
    {ev : Received} (hev : ev ∈ m.events) (hmatch : Call.isSystemParams ev.body = .ok true) :
    m.Stamped ev ∧
      ∃ k, answers ev.idx = some k ∧ m.log[k]? = some (.sent i dataRequest) := by
  obtain ⟨hlt, hstamped, hans⟩ := h.pending ev hev hmatch
  refine ⟨hstamped, ?_⟩
  obtain ⟨x, now, hx, hstamp⟩ := hstamped
  obtain ⟨k, hk⟩ := Option.isSome_iff_exists.mp hans
  have hidx : ev.idx = x.idx := by rw [hstamp, Received.stamp_idx]
  obtain ⟨j, hj⟩ := hsound x k hx (hidx ▸ hk)
  rcases lt_trichotomy k p with hkp | rfl | hpk
  · obtain ⟨n, hn, hnk⟩ := h.answered k j hkp hj
    have := hone n ev.idx k hnk hk
    omega
  · rw [h.started] at hj
    cases hj
  · obtain rfl := h.own k j hpk hj
    exact ⟨k, hk, hj⟩

/-- Once the answer to its request has been received, what the call finds in the accumulator is that
very answer. -/
theorem finds_answer (h : AwaitsAnswer answers m i p)
    (hone : ∀ n n' k, answers n = some k → answers n' = some k → n = n')
    (hsound : ∀ x k, m.Real x → answers x.idx = some k → Call.isSystemParams x.body = .ok true ∧
      k < x.idx ∧ ∃ j, m.log[k]? = some (.sent j dataRequest))
    (hobj : ∀ ev ∈ m.events, ∃ fields, ev.body = .obj fields)
    {x : Received} {k : ℕ} (hx : m.Real x) (hk : answers x.idx = some k)
    (hki : m.log[k]? = some (.sent i dataRequest)) :
    ∃ now, Loop.firstMatch Call.isSystemParams m.events = .ok (some (x.stamp now)) := by
  obtain ⟨hmatch, hlt, -⟩ := hsound x k hx hk
  obtain ⟨now, hmem⟩ := h.kept x hx ((h.mine k hki).trans hlt) hmatch
  have htotal : ∀ ev ∈ m.events, ∃ b, Call.isSystemParams ev.body = .ok b := by
    intro ev hev
    obtain ⟨fields, hfields⟩ := hobj ev hev
    rw [hfields]
    exact Call.isSystemParams_obj fields
  obtain ⟨ev, hfirst⟩ := Call.exists_firstMatch htotal
    ⟨_, hmem, (Call.isSystemParams_stamp x now).trans hmatch⟩
  obtain ⟨hev, hevmatch⟩ := Call.firstMatch_some hfirst
  -- it is an answer to the request of the call, of which there is one, and so is `x`
  obtain ⟨⟨x', now', hx', rfl⟩, k', hk', hki'⟩ :=
    h.own_answer hone (fun x k hx hk => (hsound x k hx hk).2.2) hev hevmatch
  obtain rfl := h.once k k' hki hki'
  rw [Received.stamp_idx] at hk'
  have hidx : x'.idx = x.idx := hone _ _ _ hk' hk
  have hxx : some (Obs.received x') = some (.received x) := by
    rw [← show m.log[x'.idx]? = _ from hx', hidx, show m.log[x.idx]? = _ from hx]
  obtain rfl := Obs.received.inj (Option.some.inj hxx)
  exact ⟨now', hfirst⟩

end AwaitsAnswer

/-- What is known of a call of `get_work_mode_from_status`: as long as it polls, every status in the
accumulator is newer than the call, and so is the status it returns. -/
structure StatusFrame (m : Mail) (i : ℕ) (c : Call) (f : Frame) : Prop where
  /-- while it polls -/
  polling : f.ended = false → ∃ p, m.log[p]? = some (.started i c) ∧
    ∀ ev ∈ m.events, Call.hasJobStatistics ev.body = .ok true → p < ev.idx ∧ m.Stamped ev
  /-- when it has returned -/
  returned : ∀ ev v, f = .returned (.event ev v) → ∃ p, m.log[p]? = some (.started i c) ∧
    p < ev.idx ∧ m.Stamped ev ∧ c.finish ev.body = .ok v

namespace StatusFrame

variable {m m' : Mail} {i : ℕ} {c : Call} {f f' : Frame}

theorem mono (he : Mail.Extends m m') (h : StatusFrame m i c f) : StatusFrame m' i c f where
  polling hf := by
    obtain ⟨p, hp, hev⟩ := h.polling hf
    refine ⟨p, he.log_eq hp, fun ev hmem hmatch => ?_⟩
    rcases he.events ev hmem with ⟨hle, hstamped⟩ | hold
    · exact ⟨(List.getElem?_eq_some_iff.mp hp).1.trans_le hle, hstamped⟩
    · exact ⟨(hev ev hold hmatch).1, he.stamped (hev ev hold hmatch).2⟩
  returned ev v hf :=
    let ⟨p, hp, hlt, hstamped, hv⟩ := h.returned ev v hf
    ⟨p, he.log_eq hp, hlt, he.stamped hstamped, hv⟩

/-- The call goes on without polling. -/
theorem move (h : StatusFrame m i c f) (hf : f.ended = false)
    (hf' : ∀ ev v, f' ≠ .returned (.event ev v)) : StatusFrame m i c f' :=
  ⟨fun _ => h.polling hf, fun ev v heq => absurd heq (hf' ev v)⟩

end StatusFrame

namespace Loop

/-- The server: an object that answers a request for the parameters comes after that request, and
looks like an answer. -/
def AnswersRequests (answers : ℕ → Option ℕ) (s : Loop) : Label → Prop
  | .receive (.ok msg) _ => ∀ k, answers s.log.length = some k →
      Call.isSystemParams msg = .ok true ∧ ∃ j, s.log[k]? = some (.sent j dataRequest)
  | _ => True

/-- When `get_system_params` begins, no queue for `data_response` is registered, nothing in the
accumulator looks like an answer, all earlier requests have been answered, and no other call of it
is in flight; while it is in flight, nobody registers that queue or clears the accumulator, and what
looks like an answer is one. When `get_work_mode_from_status` begins, there is no status in the
accumulator. -/
def Undisturbed (answers : ℕ → Option ℕ) (s : Loop) : Label → Prop
  | .start _ c _ => match c with
    | .getSystemParams => s.items MsgType.dataResponse = none ∧
        (∀ ev ∈ s.client.events.events, Call.isSystemParams ev.body ≠ .ok true) ∧
        (∀ k j, s.log[k]? = some (.sent j dataRequest) → ∃ n < s.log.length, answers n = some k) ∧
        ∀ j, ¬ s.InFlight j
    | .getWorkModeFromStatus _ =>
      ∀ ev ∈ s.client.events.events, Call.hasJobStatistics ev.body ≠ .ok true
    | c => MsgType.dataResponse ∈ c.responseTypes → ∀ j, ¬ s.InFlight j
  | .receive (.ok msg) _ => Call.isSystemParams msg = .ok true → (∃ j, s.InFlight j) →
      (answers s.log.length).isSome = true
  | .events .clear => ∀ j, ¬ s.InFlight j
  | _ => True

/-- The invariant of a run in which the calls are undisturbed. -/
structure Current (answers : ℕ → Option ℕ) (s : Loop) : Prop where
  /-- answers are answers, and come after their requests -/
  sound : ∀ x k, s.mail.Real x → answers x.idx = some k →
    Call.isSystemParams x.body = .ok true ∧ k < x.idx ∧ ∃ j, s.log[k]? = some (.sent j dataRequest)
  /-- the accumulator holds objects -/
  objects : ∀ ev ∈ s.mail.events, ∃ fields, ev.body = .obj fields
  /-- what a call still has to write is from its own messages -/
  sending : AllCalls (fun _ _ c f => ∀ todo t0, f = .sending todo t0 → todo <:+ c.outgoing) s
  /-- a call that has not begun has written nothing -/
  unsent : ∀ i, s.calls i = none → ∀ (k : ℕ) w, s.log[k]? ≠ some (.sent i w)
  /-- at most one call waits, and waits well; it asks once -/
  awaits : ∀ i, s.InFlight i → (∃ p, AwaitsAnswer answers s.mail i p ∧ ∀ w todo t0,
      s.calls i = some ⟨.getSystemParams, .sending (w :: todo) t0⟩ → NotAsked s.mail p) ∧
    ∀ j, s.InFlight j → j = i
  /-- what a call has returned is its own answer -/
  returned : AllCalls (fun m i c f => ∀ ev v, c = .getSystemParams →
    f = .returned (.event ev v) → v = ev.body ∧ m.Stamped ev ∧
      ∃ k, answers ev.idx = some k ∧ m.log[k]? = some (.sent i dataRequest)) s
  /-- the calls of `get_work_mode_from_status` -/
  status : AllCalls (fun m i c f => ∀ timeout, c = .getWorkModeFromStatus timeout →
    StatusFrame m i c f) s

theorem current_new (answers : ℕ → Option ℕ) : Current answers new where
  sound x k hx := by cases hx
  objects ev hev := by cases hev
  sending := AllCalls.new
  unsent i hi k w hk := by cases hk
  awaits i h := by obtain ⟨f, hf, -⟩ := h; cases hf
  returned := AllCalls.new
  status := AllCalls.new

section step

variable {answers : ℕ → Option ℕ} {s s' : Loop} {l : Label}

theorem step_sending (h : Current answers s) (hl : Effect s l s') :
    AllCalls (fun _ _ c f => ∀ todo t0, f = .sending todo t0 → todo <:+ c.outgoing) s' := by
  cases hl with
  | quiet hcalls _ => exact h.sending.same id hcalls
  | received hcalls _ => exact h.sending.same id hcalls
  | cleared hcalls _ => exact h.sending.same id hcalls
  | started _ hcalls _ =>
    refine h.sending.update id hcalls fun todo t0 heq => ?_
    cases heq
    exact List.suffix_rfl
  | sent hi hcalls _ =>
    refine h.sending.update id hcalls fun todo t0 heq => ?_
    cases heq
    exact (List.suffix_cons ..).trans (h.sending _ _ _ hi _ _ rfl)
  | «local» _ hlocal hcalls _ =>
    exact h.sending.update id hcalls fun todo t0 heq => absurd (heq ▸ hlocal) Local.ne_sending
  | polled _ hp hcalls _ =>
    exact h.sending.update id hcalls fun todo t0 heq => absurd (heq ▸ hp) Polls.ne_sending
  | handed _ ht _ hcalls _ =>
    exact h.sending.update id hcalls fun todo t0 heq => by cases ht <;> cases heq
  | getters _ _ hcalls =>
    exact h.sending.update id hcalls fun todo t0 heq => by cases heq

/-- Whoever asks for the parameters is a call of `get_system_params`, which has then written all it
has to write. -/
theorem Current.asks (h : Current answers s) {j : ℕ} {c : Call} {todo : List Wire} {t0 : ℚ}
    (hj : s.calls j = some ⟨c, .sending (dataRequest :: todo) t0⟩) :
    c = .getSystemParams ∧ todo = [] := by
  have hsuffix := h.sending _ _ _ hj _ _ rfl
  obtain rfl := Call.eq_getSystemParams (hsuffix.subset (List.mem_cons_self ..))
  exact ⟨rfl, List.length_eq_zero_iff.mp (Nat.le_zero.mp (Nat.le_of_succ_le_succ hsuffix.length_le))⟩

/-- A call in flight that has not asked yet has not asked before either. -/
theorem step_notAsked (h : Current answers s) (hl : Effect s l s') {i p : ℕ} (hi : s.InFlight i)
    (hone : ∀ j, s.InFlight j → j = i)
    (hnot : ∀ w todo t0,
      s.calls i = some ⟨.getSystemParams, .sending (w :: todo) t0⟩ → NotAsked s.mail p)
    {w : Wire} {todo : List Wire} {t0 : ℚ}
    (hi' : s'.calls i = some ⟨.getSystemParams, .sending (w :: todo) t0⟩) :
    NotAsked s'.mail p := by
  rcases hl.still_sending hi' with hsame | hnone | ⟨w', hlonger⟩
  · intro k j hk hkj
    rcases hl.sent_entry hkj with hkj | ⟨-, c, todo', t0', hj, hj'⟩
    · exact hnot _ _ _ hsame k j hk hkj
    · -- the call that has just asked is this one, and it has nothing left to write
      obtain ⟨rfl, rfl⟩ := h.asks hj
      obtain rfl := hone j ⟨_, hj, rfl⟩
      rw [hi'] at hj'
      cases hj'
  · obtain ⟨f, hf, -⟩ := hi
    rw [hnone] at hf
    cases hf
  · have hlen := (h.sending _ _ _ hlonger _ _ rfl).length_le
    simp only [Call.outgoing, List.length_cons, List.length_nil] at hlen
    omega

/-- A call that has just begun waits well. -/
theorem started_awaits (h : Current answers s) {i : ℕ} {now : ℚ}
    (hC : s.Undisturbed answers (.start i .getSystemParams now)) (hi : s.calls i = none) :
    AwaitsAnswer answers (s.mail.start i .getSystemParams) i s.mail.log.length ∧
      NotAsked (s.mail.start i .getSystemParams) s.mail.log.length := by
  obtain ⟨hitems, hevents, hanswered, -⟩ := hC
  have hold : ∀ {k o}, (s.mail.start i .getSystemParams).log[k]? = some o →
      o ≠ .started i .getSystemParams → s.log[k]? = some o ∧ k < s.mail.log.length := by
    intro k o hk ho
    have hk' := (Mail.entry_of_concat hk).resolve_right fun h => ho h.1.symm
    exact ⟨hk', (List.getElem?_eq_some_iff.mp hk').1⟩
  refine ⟨⟨List.getElem?_concat_length, hitems, fun ev hev hmatch => ?_, fun x hx hlt _ => ?_,
    fun k j hk hkj => ?_, fun k j hk hkj => ?_, fun k hk => ?_, fun k k' hk _ => ?_⟩,
    fun k j hk hkj => ?_⟩
  · exact absurd hmatch (hevents ev hev)
  · exact absurd (hold hx (by simp)).2 (not_lt.mpr hlt.le)
  · exact hanswered k j (hold hkj (by simp)).1
  · exact absurd (hold hkj (by simp)).2 (not_lt.mpr hk.le)
  · exact absurd (hold hk (by simp)).1 (h.unsent i hi k _)
  · exact absurd (hold hk (by simp)).1 (h.unsent i hi k _)
  · exact absurd (hold hkj (by simp)).2 (not_lt.mpr hk.le)

theorem step_awaits (h : Current answers s) (hC : s.Undisturbed answers l)
    (hl : Effect s l s') {i : ℕ} (hi : s'.InFlight i) :
    (∃ p, AwaitsAnswer answers s'.mail i p ∧ ∀ w todo t0,
      s'.calls i = some ⟨.getSystemParams, .sending (w :: todo) t0⟩ → NotAsked s'.mail p) ∧
      ∀ j, s'.InFlight j → j = i := by
  obtain ⟨f, hf, hended⟩ := hi
  rcases hl.active hf hended with ⟨g, hg⟩ | ⟨⟨now, rfl⟩, hnone, hm⟩
  · -- the call has been in flight before
    have hbusy : s.InFlight i := ⟨g, hg⟩
    obtain ⟨⟨p, hp, hnot⟩, hone⟩ := h.awaits i hbusy
    refine ⟨⟨p, ?_, fun w todo t0 => step_notAsked h hl hbusy hone hnot⟩, fun j hj => ?_⟩
    · cases hl with
      | quiet _ hm => exact hm ▸ hp
      | received _ hm => exact hm ▸ hp.receive _ fun hmatch => hC hmatch ⟨i, hbusy⟩
      | cleared _ hm => exact absurd hbusy (hC i)
      | started _ _ hm =>
        rename_i j c now _ _
        -- a call that names the type of the answers would register its queue
        refine hm ▸ hp.start j fun hmem => ?_
        cases c with
        | getSystemParams => cases hmem
        | getWorkModeFromStatus => cases hmem
        | waitForCondition => cases hmem
        | _ => exact hC hmem i hbusy
      | sent hj _ hm =>
        -- whoever asks for the parameters is in flight, so it is this call
        refine hm ▸ hp.send fun hw => ?_
        subst hw
        obtain ⟨rfl, -⟩ := h.asks hj
        obtain rfl := hone _ ⟨_, hj, rfl⟩
        exact ⟨rfl, hnot _ _ _ hj⟩
      | «local» _ _ _ hm => exact hm ▸ hp
      | polled _ _ _ hm => exact hm ▸ hp
      | handed _ _ hitems _ hm => exact hm ▸ hp.hand hitems
      | getters _ hget _ => exact hp.getters hget
    · obtain ⟨f', hf', hended'⟩ := hj
      rcases hl.active hf' hended' with hj | ⟨⟨now, rfl⟩, -⟩
      · exact hone j hj
      · exact absurd hbusy (hC.2.2.2 i)
  · -- it has just begun
    obtain ⟨hawaits, hnot⟩ := started_awaits h hC hnone
    refine ⟨⟨s.mail.log.length, hm ▸ hawaits, fun _ _ _ _ => hm ▸ hnot⟩, fun j hj => ?_⟩
    obtain ⟨f', hf', hended'⟩ := hj
    rcases hl.active hf' hended' with hj | ⟨⟨now', heq⟩, -⟩
    · exact absurd hj (hC.2.2.2 j)
    · cases heq
      rfl

/-- **Every undisturbed step keeps the data current.** -/
theorem step_current (hone : ∀ n n' k, answers n = some k → answers n' = some k → n = n')
    (h : Current answers s) (hserver : s.AnswersRequests answers l)
    (hC : s.Undisturbed answers l) (hl : s.step l = some s') : Current answers s' := by
  have he := step_extends hl
  have heff := step_effect hl
  refine ⟨fun x k hx hk => ?_, fun ev hev => ?_, step_sending h heff, fun i hi k w hk => ?_,
    fun i => step_awaits h hC heff, ?_, ?_⟩
  · rcases heff.real hx with hx | ⟨msg, now, rfl, rfl⟩
    · obtain ⟨hmatch, hlt, j, hj⟩ := h.sound x k hx hk
      exact ⟨hmatch, hlt, j, he.log_eq hj⟩
    · obtain ⟨hmatch, j, hj⟩ := hserver k hk
      exact ⟨hmatch, (List.getElem?_eq_some_iff.mp hj).1, j, he.log_eq hj⟩
  · exact (step_objects hl hev).elim (h.objects ev) id
  · rcases heff.sent_entry hk with hk | ⟨-, c, todo, t0, hj, -⟩
    · exact h.unsent i (heff.absent hi) k w hk
    · rw [heff.absent hi] at hj
      cases hj
  · rintro i c f hi ev v rfl rfl
    rcases heff.event_returned hi with hi | ⟨hactive, hm, hev, hmatch, hv⟩
    · obtain ⟨hv, hstamped, k, hk, hkj⟩ := h.returned i _ _ hi ev v rfl rfl
      exact ⟨hv, he.stamped hstamped, k, hk, he.log_eq hkj⟩
    · obtain ⟨⟨p, hp, -⟩, -⟩ := h.awaits i hactive
      obtain ⟨hstamped, k, hk, hkj⟩ :=
        hp.own_answer hone (fun x k hx hk => (h.sound x k hx hk).2.2) hev hmatch
      exact ⟨(Except.ok.inj hv).symm, he.stamped hstamped, k, hk, he.log_eq hkj⟩
  · rintro i c f hi timeout rfl
    refine ⟨fun hended => ?_, fun ev v heq => ?_⟩
    · rcases heff.active hi hended with ⟨g, hg, hgended⟩ | ⟨⟨now, rfl⟩, -, hm⟩
      · exact ((h.status i _ g hg timeout rfl).mono he).polling hgended
      · rw [hm]
        exact ⟨s.log.length, List.getElem?_concat_length,
          fun ev hev hmatch => absurd hmatch (hC ev hev)⟩
    · subst heq
      rcases heff.event_returned hi with hi | ⟨⟨g, hg, hgended⟩, hm, hev, hmatch, hv⟩
      · exact ((h.status i _ _ hi timeout rfl).mono he).returned ev v rfl
      · obtain ⟨p, hp, hpolling⟩ := (h.status i _ g hg timeout rfl).polling hgended
        obtain ⟨hlt, hstamped⟩ := hpolling ev hev hmatch
        exact ⟨p, he.log_eq hp, hlt, he.stamped hstamped, hv⟩

end step

/-- A call whose answer has been received returns it at its next poll, at whatever time that is: the
accumulator is scanned before the deadline is looked at. -/
theorem Current.poll_answered {answers : ℕ → Option ℕ} {s : Loop} (h : Current answers s)
    (hone : ∀ n n' k, answers n = some k → answers n' = some k → n = n') {i k : ℕ} {deadline : ℚ}
    {x : Received} (hi : s.calls i = some ⟨.getSystemParams, .polling deadline⟩)
    (hx : s.mail.Real x) (hk : answers x.idx = some k)
    (hki : s.log[k]? = some (.sent i dataRequest)) (now : ℚ) :
    ∃ t s', s.step (.poll i now) = some s' ∧
      s'.calls i = some ⟨.getSystemParams, .returned (.event (x.stamp t) (x.stamp t).body)⟩ := by
  obtain ⟨⟨p, hp, -⟩, -⟩ := h.awaits i ⟨_, hi, rfl⟩
  obtain ⟨t, hfirst⟩ := hp.finds_answer hone h.sound h.objects hx hk hki
  have hfirst : firstMatch Call.getSystemParams.predicate (s.client.events.getAll none) =
      .ok (some (x.stamp t)) := hfirst
  refine ⟨t, s.setFrame i .getSystemParams (.returned (.event (x.stamp t) (x.stamp t).body)), ?_,
    Function.update_self ..⟩
  simp only [step, hi, poll, hfirst, Call.finish]

/-- **Current data**, for every run in which the calls are undisturbed and the server answers each
request at most once. What `get_system_params` returns is the answer to its own request. As soon as
that answer has been received it is in the accumulator, where the call looks for it, and the next
poll of the call returns it, even if the deadline has passed: there is no `TimeoutError` for an
answer that came while the call was waiting. A work mode comes from a status received after the call
began. -/
theorem current_data {answers : ℕ → Option ℕ}
    (hone : ∀ n n' k, answers n = some k → answers n' = some k → n = n') {ls : List Label} {s : Loop}
    (hserver : Lts.Along step (AnswersRequests answers) new ls)
    (hC : Lts.Along step (Undisturbed answers) new ls) (h : Lts.run step new ls = some s) :
    (∀ i ev v, s.calls i = some ⟨.getSystemParams, .returned (.event ev v)⟩ →
        v = ev.body ∧ s.mail.Stamped ev ∧
          ∃ k, answers ev.idx = some k ∧ s.log[k]? = some (.sent i dataRequest)) ∧
      (∀ i deadline x k, s.calls i = some ⟨.getSystemParams, .polling deadline⟩ →
        s.log[x.idx]? = some (.received x) → answers x.idx = some k →
        s.log[k]? = some (.sent i dataRequest) →
          destination (registeredIn (s.log.take x.idx)) x = .accumulator ∧
            ∀ now, ∃ t s', s.step (.poll i now) = some s' ∧ s'.calls i =
              some ⟨.getSystemParams, .returned (.event (x.stamp t) (x.stamp t).body)⟩) ∧
      ∀ i timeout ev v, s.calls i = some ⟨.getWorkModeFromStatus timeout, .returned (.event ev v)⟩ →
        Call.workModeOf ev.body = .ok v ∧
          ∃ p, s.log[p]? = some (.started i (.getWorkModeFromStatus timeout)) ∧ p < ev.idx ∧
            s.mail.Stamped ev := by
  have hs : Current answers s :=
    Lts.run_invariant_along (current_new answers)
      (fun _ _ _ h hC hl => step_current hone h hC.1 hC.2 hl) (hserver.and hC) h
  refine ⟨fun i ev v hi => hs.returned i _ _ hi ev v rfl rfl, ?_, fun i timeout ev v hi => ?_⟩
  · intro i deadline x k hi hx hk hkj
    refine ⟨?_, hs.poll_answered hone hi hx hk hkj⟩
    obtain ⟨⟨p, hp, -⟩, -⟩ := hs.awaits i ⟨_, hi, rfl⟩
    have hreg : registeredIn s.log MsgType.dataResponse = false := by
      rw [show s.log = s.mail.log from rfl, ← (run_conserved h).registered, hp.unregistered]
      rfl
    have htake : registeredIn (s.log.take x.idx) MsgType.dataResponse = false := by
      rw [← List.take_append_drop x.idx s.log, registeredIn, List.any_append,
        Bool.or_eq_false_iff] at hreg
      exact hreg.1
    exact destination_isSystemParams (hs.sound x k hx hk).1 htake
  · obtain ⟨p, hp, hlt, hstamped, hv⟩ := (hs.status i _ _ hi timeout rfl).returned ev v rfl
    exact ⟨hv, p, hp, hlt, hstamped⟩

/-- An answer to a request for the parameters. -/
def paramsAnswer (n : ℕ) : Json :=
  .obj [("type", .str "data_response"), ("data_type", .str "system_params"), ("data", .num n)]

/-- One call of `get_system_params`, and its answer. -/
def oneParamsCall : List Label :=
  [.connect 0, .start 0 .getSystemParams 0, .sent 0, .resume 0 0,
    .receive (.ok (paramsAnswer 1)) 1, .poll 0 1]

theorem current_data_oneParamsCall :
    ∃ s ev v, Lts.run step new oneParamsCall = some s ∧
      s.calls 0 = some ⟨.getSystemParams, .returned (.event ev v)⟩ ∧
      s.log[1]? = some (.sent 0 dataRequest) ∧ (if ev.idx = 2 then some 1 else none) = some 1 := by
  have h : Lts.run step new oneParamsCall = some _ := rfl
  have hserver :
      Lts.Along step (AnswersRequests fun n => if n = 2 then some 1 else none) new oneParamsCall := by
    refine Lts.along_cons.mpr ⟨trivial, fun s hs => ?_⟩
    cases hs
    refine Lts.along_cons.mpr ⟨trivial, fun s hs => ?_⟩
    cases hs
    refine Lts.along_cons.mpr ⟨trivial, fun s hs => ?_⟩
    cases hs
    refine Lts.along_cons.mpr ⟨trivial, fun s hs => ?_⟩
    cases hs
    refine Lts.along_cons.mpr ⟨fun k hk => ?_, fun s hs => ?_⟩
    · cases hk
      exact ⟨rfl, 0, rfl⟩
    · cases hs
      exact Lts.along_cons.mpr ⟨trivial, fun s hs => Lts.along_nil⟩
  have hC :
      Lts.Along step (Undisturbed fun n => if n = 2 then some 1 else none) new oneParamsCall := by
    refine Lts.along_cons.mpr ⟨trivial, fun s hs => ?_⟩
    cases hs
    refine Lts.along_cons.mpr ⟨⟨rfl, nofun, nofun, nofun⟩, fun s hs => ?_⟩
    cases hs
    refine Lts.along_cons.mpr ⟨trivial, fun s hs => ?_⟩
    cases hs
    refine Lts.along_cons.mpr ⟨trivial, fun s hs => ?_⟩
    cases hs
    refine Lts.along_cons.mpr ⟨fun _ _ => rfl, fun s hs => ?_⟩
    cases hs
    exact Lts.along_cons.mpr ⟨trivial, fun s hs => Lts.along_nil⟩
  have hone : ∀ n n' k : ℕ, (if n = 2 then some 1 else none) = some k →
      (if n' = 2 then some 1 else none) = some k → n = n' := by
    intro n n' k hn hn'
    split at hn <;> split at hn' <;> simp_all
  obtain ⟨-, -, k, hk, hkj⟩ := (current_data hone hserver hC h).1 0 _ _ rfl
  obtain rfl : 1 = k := Option.some.inj hk
  exact ⟨_, _, _, h, rfl, hkj, hk⟩

/-- The second call of `get_system_params` finds the answer to the first one in the accumulator,
and returns it: it was received before the second request was sent. -/
theorem params_stale :
    ∃ s ev v, Lts.run step new
        [.connect 0, .start 0 .getSystemParams 0, .sent 0, .resume 0 0,
          .receive (.ok (paramsAnswer 1)) 1, .poll 0 1, .start 1 .getSystemParams 2, .sent 1,
          .resume 1 2, .poll 1 2, .receive (.ok (paramsAnswer 2)) 3] = some s ∧
      s.calls 1 = some ⟨.getSystemParams, .returned (.event ev v)⟩ ∧
      ¬ ∃ k, s.log[k]? = some (.sent 1 dataRequest) ∧ k < ev.idx := by
  refine ⟨_, _, _, rfl, rfl, ?_⟩
  rintro ⟨k, hk, hlt⟩
  have hlt : k < 2 := hlt
  match k, hlt with
  | 0, _ => cases hk
  | 1, _ => cases hk

end Loop

end SasTests
