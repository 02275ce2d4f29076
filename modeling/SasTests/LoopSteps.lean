import SasTests.WSClient

/-!
# What each step of the client can do

One lemma for each operation of `Loop`, and one inversion lemma for each label: what must have
been the case for the step to be taken, and what the state is afterwards. The invariants of the
other modules are derived from these, and do not unfold `step` again.

`Loop.mail` is the part of the state that the messages travel through: the items of the queues, the
content of the accumulator, and the history.
-/

namespace SasTests

open Python Asyncio

/-! ## Queues and routing -/

namespace WSClient

/-- The connection and the task that reads it. -/
def connection (c : WSClient) : Option ℕ × Option RecvTask := (c.ws, c.recvTask)

theorem ensureQueue_self (c : WSClient) (t : String) :
    (c.ensureQueue t).pendingResponses t = some ((c.pendingResponses t).getD .empty) := by
  rw [ensureQueue]
  rcases h : c.pendingResponses t with _ | q
  · simp
  · simp [h]

theorem ensureQueue_of_ne (c : WSClient) {t t' : String} (h : t' ≠ t) :
    (c.ensureQueue t).pendingResponses t' = c.pendingResponses t' := by
  rw [ensureQueue]
  split
  · rfl
  · exact Function.update_of_ne h ..

/-- Registering several types gives each of them a queue, new and empty unless it had one. -/
theorem ensureQueues_pendingResponses (c : WSClient) (ts : List String) (t : String) :
    (c.ensureQueues ts).pendingResponses t =
      if t ∈ ts then some ((c.pendingResponses t).getD .empty) else c.pendingResponses t := by
  induction ts generalizing c with
  | nil => rfl
  | cons t' ts ih =>
    rw [ensureQueues, List.foldl_cons, ← ensureQueues, ih (c.ensureQueue t')]
    by_cases ht : t = t'
    · subst ht
      simp [ensureQueue_self]
    · simp [ensureQueue_of_ne c ht, ht]

theorem ensureQueue_fields (c : WSClient) (t : String) :
    (c.ensureQueue t).ws = c.ws ∧ (c.ensureQueue t).recvTask = c.recvTask ∧
      (c.ensureQueue t).events = c.events := by
  rw [ensureQueue]
  split <;> exact ⟨rfl, rfl, rfl⟩

theorem ensureQueues_fields (c : WSClient) (ts : List String) :
    (c.ensureQueues ts).ws = c.ws ∧ (c.ensureQueues ts).recvTask = c.recvTask ∧
      (c.ensureQueues ts).events = c.events := by
  induction ts generalizing c with
  | nil => exact ⟨rfl, rfl, rfl⟩
  | cons t ts ih =>
    obtain ⟨h₁, h₂, h₃⟩ := ih (c.ensureQueue t)
    obtain ⟨h₁', h₂', h₃'⟩ := ensureQueue_fields c t
    exact ⟨h₁.trans h₁', h₂.trans h₂', h₃.trans h₃'⟩


theorem ensureQueues_connection (c : WSClient) (ts : List String) :
    (c.ensureQueues ts).connection = c.connection :=
  Prod.ext (c.ensureQueues_fields ts).1 (c.ensureQueues_fields ts).2.1

@[simp] theorem ensureQueues_events (c : WSClient) (ts : List String) :
    (c.ensureQueues ts).events = c.events := (c.ensureQueues_fields ts).2.2

end WSClient

/-- Where the receive loop puts an object. -/
inductive Destination
  /-- nowhere: the type is one of `_IGNORED_TYPES` -/
  | ignored
  /-- the queue of type `t` -/
  | queue (t : String)
  /-- the accumulator -/
  | accumulator
  deriving DecidableEq

/-- The type of an object, as far as it is a string. -/
def Received.typeStr (m : Received) : Option String :=
  match m.body with
  | .obj fields => match Json.field fields "type" with
    | .str t => some t
    | _ => none
  | _ => none

/-- The destination of an object, given which types are registered: `ping` and `pong` are ignored,
a non-empty registered type has its queue, everything else goes to the accumulator. -/
def destination (registered : String → Bool) (m : Received) : Destination :=
  match m.typeStr with
  | some t =>
    if t = MsgType.ping ∨ t = MsgType.pong then .ignored
    else if t ≠ "" ∧ registered t then .queue t
    else .accumulator
  | none => .accumulator

namespace WSClient

/-- The loop does not choke on an object whose type has a hash. -/
theorem dispatch_hashable (c : WSClient) (idx : ℕ) (now : ℚ) {fields : List (String × Json)}
    (h : (Json.field fields "type").hashable = true) :
    ∃ c' woken, c.dispatch (.ok (.obj fields)) idx now = .ok (c', woken) := by
  simp only [dispatch, Json.get_obj, bind, Except.bind, inIgnoredTypes, h, if_true]
  split
  · exact ⟨_, _, rfl⟩
  · split <;> exact ⟨_, _, rfl⟩

/-- The object `x` has gone to destination `d`: `c'` is the client afterwards, and `woken` the
getter that has been woken. -/
def Delivered (c : WSClient) (x : Received) (now : ℚ) (c' : WSClient) (woken : Option Waiter) :
    Destination → Prop
  | .ignored => c' = c ∧ woken = none
  | .queue t => ∃ q, c.pendingResponses t = some q ∧ c' = c.setQueue t (q.put x).1 ∧
      woken = (q.put x).2
  | .accumulator => c' = { c with events := c.events.push x now } ∧ woken = none

/-- **What one pass of the receive loop does with an object it does not choke on**: the object goes
to its destination, and nothing else in the client changes. -/
theorem dispatch_ok {c c' : WSClient} {msg : Json} {idx : ℕ} {now : ℚ} {woken : Option Waiter}
    (h : c.dispatch (.ok msg) idx now = .ok (c', woken)) :
    c.Delivered ⟨idx, msg⟩ now c' woken
      (destination (fun t => (c.pendingResponses t).isSome) ⟨idx, msg⟩) := by
  cases msg with
  | obj fields =>
    simp only [dispatch, Json.get_obj, bind, Except.bind, inIgnoredTypes] at h
    simp only [destination, Received.typeStr]
    cases htype : Json.field fields "type" <;> rw [htype] at h <;>
      simp only [Json.hashable, Json.eqStr, pendingQueue, Bool.or_self, if_true, if_false,
        Bool.false_eq_true, reduceCtorEq] at h
    case str t =>
      by_cases hi : t = MsgType.ping ∨ t = MsgType.pong
      · have : (t == MsgType.ping || t == MsgType.pong) = true := by simpa using hi
        rw [this] at h
        simp only [hi, if_true]
        obtain ⟨rfl, rfl⟩ := Prod.mk.inj (Except.ok.inj h)
        exact ⟨rfl, rfl⟩
      · have : (t == MsgType.ping || t == MsgType.pong) = false := by simpa using hi
        rw [this] at h
        by_cases he : t = ""
        · simp only [he, Bool.false_eq_true, if_false, if_true] at h
          have hi' : ¬ ("" = MsgType.ping ∨ "" = MsgType.pong) := by decide
          simp only [he, hi', if_false, ne_eq, not_true_eq_false, false_and]
          obtain ⟨rfl, rfl⟩ := Prod.mk.inj (Except.ok.inj h)
          exact ⟨rfl, rfl⟩
        · simp only [he, Bool.false_eq_true, if_false] at h
          rcases hq : c.pendingResponses t with _ | q <;>
            simp only [hq, Option.map_none, Option.map_some] at h <;>
            obtain ⟨rfl, rfl⟩ := Prod.mk.inj (Except.ok.inj h)
          · simp [hi, he, hq, Delivered]
          · simp [hi, he, hq, Delivered]
    all_goals
      obtain ⟨rfl, rfl⟩ := Prod.mk.inj (Except.ok.inj h)
      exact ⟨rfl, rfl⟩
  | _ => cases h

end WSClient

/-- The call has returned or raised. -/
def Frame.ended : Frame → Bool
  | .returned _ => true
  | .raised _ => true
  | _ => false

/-! ## Operations of the loop -/

/-- What the messages travel through: a FIFO channel for each registered type, the accumulator,
and the history. -/
@[ext]
structure Mail where
  /-- the items of each registered queue -/
  items : String → Option (List Received)
  /-- the content of the accumulator -/
  events : List Received
  /-- the history -/
  log : List Obs

namespace Mail

/-- Call `i` begins: its queues are registered. -/
def start (m : Mail) (i : ℕ) (c : Call) : Mail :=
  { m with
    items := fun t =>
      if t ∈ c.responseTypes then some ((m.items t).getD []) else m.items t
    log := m.log ++ [.started i c] }

/-- Call `i` writes a message. -/
def send (m : Mail) (i : ℕ) (w : Wire) : Mail := { m with log := m.log ++ [.sent i w] }

/-- Object `x` goes to destination `d`. -/
def deliver (m : Mail) (d : Destination) (x : Received) (now : ℚ) : Mail :=
  match d with
  | .ignored => m
  | .queue t => { m with items := Function.update m.items t (some ((m.items t).getD [] ++ [x])) }
  | .accumulator => { m with events := m.events ++ [x.stamp now] }

/-- An object arrives, and goes to its destination. -/
def receive (m : Mail) (msg : Json) (now : ℚ) : Mail :=
  { m with log := m.log ++ [Obs.received ⟨m.log.length, msg⟩] }.deliver
    (destination (fun t => (m.items t).isSome) ⟨m.log.length, msg⟩) ⟨m.log.length, msg⟩ now

@[simp] theorem receive_log (m : Mail) (msg : Json) (now : ℚ) :
    (m.receive msg now).log = m.log ++ [.received ⟨m.log.length, msg⟩] := by
  simp only [receive, deliver]
  split <;> rfl

theorem receive_items (m : Mail) (msg : Json) (now : ℚ) (t : String) :
    (m.receive msg now).items t =
      if destination (fun t => (m.items t).isSome) ⟨m.log.length, msg⟩ = .queue t then
        some ((m.items t).getD [] ++ [⟨m.log.length, msg⟩])
      else m.items t := by
  rw [receive]
  cases destination (fun t => (m.items t).isSome) ⟨m.log.length, msg⟩ with
  | queue t' =>
    by_cases ht : t' = t
    · subst ht
      simp [deliver]
    · simp [deliver, ht, Ne.symm ht]
  | _ => simp [deliver]

theorem receive_events (m : Mail) (msg : Json) (now : ℚ) :
    (m.receive msg now).events =
      if destination (fun t => (m.items t).isSome) ⟨m.log.length, msg⟩ = .accumulator then
        m.events ++ [(⟨m.log.length, msg⟩ : Received).stamp now]
      else m.events := by
  rw [receive]
  cases destination (fun t => (m.items t).isSome) ⟨m.log.length, msg⟩ <;> simp [deliver]

/-- Call `i` takes `x` from the queue of type `t`, which leaves `rest`. -/
def hand (m : Mail) (i : ℕ) (t : String) (x : Received) (rest : List Received) : Mail :=
  { m with
    items := Function.update m.items t (some rest)
    log := m.log ++ [.handed i t x] }

/-- The accumulator is cleared. -/
def clear (m : Mail) : Mail := { m with events := [], log := m.log ++ [.cleared] }

/-- The getter tasks of call `i` run in a row, on the queues of the types `ts`: `got` is what each
of them has taken. -/
inductive Getters (i : ℕ) : List String → Mail → List (Option Received) → Mail → Prop
  | nil (m : Mail) : Getters i [] m [] m
  | suspend {t : String} {ts : List String} {m m' : Mail} {got : List (Option Received)} :
      (∀ xs, m.items t = some xs → xs = []) → Getters i ts m got m' →
        Getters i (t :: ts) m (none :: got) m'
  | take {t : String} {ts : List String} {m m' : Mail} {got : List (Option Received)}
      {x : Received} {rest : List Received} :
      m.items t = some (x :: rest) → Getters i ts (m.hand i t x rest) got m' →
        Getters i (t :: ts) m (some x :: got) m'

/-- `x` is the object that was received at its place in the history. -/
def Real (m : Mail) (x : Received) : Prop := m.log[x.idx]? = some (.received x)

/-- An entry of a history with one more entry is an old one, or the new one. -/
theorem entry_of_concat {log : List Obs} {o o' : Obs} {k : ℕ} (h : (log ++ [o])[k]? = some o') :
    log[k]? = some o' ∨ o = o' ∧ k = log.length := by
  by_cases hlt : k < log.length
  · rw [List.getElem?_append_left hlt] at h
    exact .inl h
  · rw [List.getElem?_append_right (not_lt.mp hlt), List.getElem?_singleton] at h
    split at h
    · exact .inr ⟨Option.some.inj h, by omega⟩
    · cases h

/-- The getter tasks receive nothing. -/
theorem Getters.real {i : ℕ} {ts : List String} {m m' : Mail} {got : List (Option Received)}
    (h : Getters i ts m got m') {x : Received} (hx : m'.Real x) : m.Real x := by
  induction h with
  | nil m => exact hx
  | suspend _ _ ih => exact ih hx
  | take _ _ ih => exact (entry_of_concat (ih hx)).resolve_right fun h => by cases h.1

/-- A queue stays when something is taken from one. -/
theorem isSome_items_hand {m : Mail} {i : ℕ} {t t' : String} {x : Received} {rest : List Received}
    (h : (m.items t).isSome = true) : ((m.hand i t' x rest).items t).isSome = true := by
  simp only [Mail.hand]
  by_cases ht : t = t'
  · subst ht
    rw [Function.update_self]
    rfl
  · rwa [Function.update_of_ne ht]

/-- So it does when the getter tasks run. -/
theorem Getters.isSome_items {i : ℕ} {ts : List String} {m m' : Mail}
    {got : List (Option Received)} (h : Getters i ts m got m') {t : String}
    (ht : (m.items t).isSome = true) : (m'.items t).isSome = true := by
  induction h with
  | nil m => exact ht
  | suspend _ _ ih => exact ih ht
  | take _ _ ih => exact ih (isSome_items_hand ht)

/-- An object that has just been received is the last entry of the history. -/
theorem real_receive (m : Mail) (msg : Json) (now : ℚ) :
    (m.receive msg now).Real ⟨m.log.length, msg⟩ := by
  rw [Real, receive_log, List.getElem?_append_right le_rfl, Nat.sub_self]
  rfl

/-- `ev` is the stamped object that was received at its place in the history. -/
def Stamped (m : Mail) (ev : Received) : Prop := ∃ x now, m.Real x ∧ ev = x.stamp now

/-- How the messages move on: the history is only appended to, and whatever is in a queue or in the
accumulator was there before or is a newly received object. -/
structure Extends (m m' : Mail) : Prop where
  /-- the history grows -/
  log : m.log <+: m'.log
  /-- the items of the queues are old ones or new ones -/
  items : ∀ t xs', m'.items t = some xs' → ∀ x ∈ xs',
    (m.log.length ≤ x.idx ∧ m'.Real x) ∨ ∃ xs, m.items t = some xs ∧ x ∈ xs
  /-- so are the events -/
  events : ∀ ev ∈ m'.events, (m.log.length ≤ ev.idx ∧ m'.Stamped ev) ∨ ev ∈ m.events

namespace Extends

variable {m m' m'' : Mail}

/-- The entries of the history stay where they are. -/
theorem log_eq (h : Extends m m') {k : ℕ} {o : Obs} (hk : m.log[k]? = some o) :
    m'.log[k]? = some o := by
  obtain ⟨tail, htail⟩ := h.log
  rw [← htail, List.getElem?_append_left (List.getElem?_eq_some_iff.mp hk).1, hk]

theorem real (h : Extends m m') {x : Received} (hx : m.Real x) : m'.Real x := h.log_eq hx

theorem stamped (h : Extends m m') {ev : Received} (hev : m.Stamped ev) : m'.Stamped ev :=
  let ⟨x, now, hx, hstamp⟩ := hev
  ⟨x, now, h.real hx, hstamp⟩

theorem refl (m : Mail) : Extends m m :=
  ⟨List.prefix_rfl, fun _ xs' h _ hx => .inr ⟨xs', h, hx⟩, fun _ h => .inr h⟩

theorem trans (h : Extends m m') (h' : Extends m' m'') : Extends m m'' where
  log := h.log.trans h'.log
  items t xs'' hxs'' x hx := by
    rcases h'.items t xs'' hxs'' x hx with ⟨hle, hreal⟩ | ⟨xs', hxs', hx'⟩
    · exact .inl ⟨h.log.length_le.trans hle, hreal⟩
    · rcases h.items t xs' hxs' x hx' with ⟨hle, hreal⟩ | hold
      · exact .inl ⟨hle, h'.real hreal⟩
      · exact .inr hold
  events ev hev := by
    rcases h'.events ev hev with ⟨hle, hreal⟩ | hev
    · exact .inl ⟨h.log.length_le.trans hle, hreal⟩
    · rcases h.events ev hev with ⟨hle, hreal⟩ | hold
      · exact .inl ⟨hle, h'.stamped hreal⟩
      · exact .inr hold

theorem start (m : Mail) (i : ℕ) (c : Call) : Extends m (m.start i c) where
  log := List.prefix_append ..
  events _ h := .inr h
  items t xs' h x hx := by
    simp only [Mail.start] at h
    split at h
    · cases h
      rcases hxs : m.items t with _ | xs
      · rw [hxs] at hx
        cases hx
      · rw [hxs] at hx
        exact .inr ⟨xs, rfl, hx⟩
    · exact .inr ⟨xs', h, hx⟩

theorem send (m : Mail) (i : ℕ) (w : Wire) : Extends m (m.send i w) :=
  ⟨List.prefix_append .., fun _ xs' h _ hx => .inr ⟨xs', h, hx⟩, fun _ h => .inr h⟩

theorem receive (m : Mail) (msg : Json) (now : ℚ) : Extends m (m.receive msg now) where
  log := by rw [receive_log]; exact List.prefix_append ..
  events ev h := by
    rw [receive_events] at h
    split at h
    · rcases List.mem_append.mp h with h | h
      · exact .inr h
      · obtain rfl := List.mem_singleton.mp h
        refine .inl ⟨?_, _, now, m.real_receive msg now, rfl⟩
        rw [Received.stamp_idx]
    · exact .inr h
  items t xs' h x hx := by
    rw [receive_items] at h
    split at h
    · obtain rfl := Option.some.inj h
      rcases List.mem_append.mp hx with hx | hx
      · rcases hxs : m.items t with _ | xs
        · rw [hxs] at hx
          cases hx
        · rw [hxs] at hx
          exact .inr ⟨xs, rfl, hx⟩
      · obtain rfl := List.mem_singleton.mp hx
        exact .inl ⟨le_rfl, m.real_receive msg now⟩
    · exact .inr ⟨xs', h, hx⟩

theorem hand (i : ℕ) {t : String} {x : Received} {rest : List Received}
    (ht : m.items t = some (x :: rest)) : Extends m (m.hand i t x rest) where
  log := List.prefix_append ..
  events _ h := .inr h
  items t' xs' h y hy := by
    by_cases ht' : t' = t
    · subst ht'
      simp only [Mail.hand, Function.update_self, Option.some.injEq] at h
      exact .inr ⟨_, ht, List.mem_cons_of_mem _ (h ▸ hy)⟩
    · simp only [Mail.hand, Function.update_of_ne ht'] at h
      exact .inr ⟨xs', h, hy⟩

theorem clear (m : Mail) : Extends m m.clear :=
  ⟨List.prefix_append .., fun _ xs' h _ hx => .inr ⟨xs', h, hx⟩, fun _ h => nomatch h⟩

theorem getters {i : ℕ} {ts : List String} {got : List (Option Received)}
    (h : Getters i ts m got m') : Extends m m' := by
  induction h with
  | nil m => exact refl m
  | suspend _ _ ih => exact ih
  | take ht _ ih => exact (hand i ht).trans ih

end Extends

end Mail

namespace Loop

/-- The items of the queue of type `t`, if it is registered. -/
def items (s : Loop) (t : String) : Option (List Received) :=
  (s.client.pendingResponses t).map Queue.items

/-- What the messages of the loop travel through. -/
def mail (s : Loop) : Mail := ⟨s.items, s.client.events.events, s.log⟩

section setFrame

variable (s : Loop) (i : ℕ) (c : Call) (f : Frame)

@[simp] theorem setFrame_client : (s.setFrame i c f).client = s.client := rfl

@[simp] theorem setFrame_eventCalls : (s.setFrame i c f).eventCalls = s.eventCalls := rfl

@[simp] theorem setFrame_ready : (s.setFrame i c f).ready = s.ready := rfl

@[simp] theorem setFrame_log : (s.setFrame i c f).log = s.log := rfl

@[simp] theorem setFrame_items : (s.setFrame i c f).items = s.items := rfl

@[simp] theorem setFrame_mail : (s.setFrame i c f).mail = s.mail := rfl

@[simp] theorem setFrame_calls_self : (s.setFrame i c f).calls i = some ⟨c, f⟩ :=
  Function.update_self ..

@[simp] theorem setFrame_calls_of_ne {j : ℕ} (h : j ≠ i) :
    (s.setFrame i c f).calls j = s.calls j := Function.update_of_ne h ..

end setFrame

/-- Giving a queue back with the items it had changes no items. -/
theorem items_setQueue (s : Loop) (t : String) (q : Queue Received Waiter) :
    (fun t' => ((s.client.setQueue t q).pendingResponses t').map Queue.items) =
      Function.update s.items t (some q.items) := by
  funext t'
  by_cases h : t' = t
  · subst h
    simp [WSClient.setQueue]
  · simp [WSClient.setQueue, items, h]

theorem update_items_self (s : Loop) {t : String} {q : Queue Received Waiter}
    {xs : List Received} (h : s.client.pendingResponses t = some q) (hxs : q.items = xs) :
    Function.update s.items t (some xs) = s.items := by
  rw [Function.update_eq_self_iff, items, h, ← hxs]
  rfl

/-- `get` on an empty queue suspends the getter. -/
theorem getPass_of_empty {s : Loop} {w : Waiter} {t : String} {q : Queue Received Waiter}
    (hq : s.client.pendingResponses t = some q) (h : q.items = []) :
    s.getPass w t =
      ({ s with client := s.client.setQueue t { q with getters := q.getters ++ [w] } }, none) := by
  simp only [getPass, hq, Queue.get, h]

/-- `get` on a queue with items takes the first one. -/
theorem getPass_of_cons {s : Loop} {w : Waiter} {t : String} {q : Queue Received Waiter}
    {x : Received} {rest : List Received} (hq : s.client.pendingResponses t = some q)
    (h : q.items = x :: rest) :
    s.getPass w t = ({ s with
        client := s.client.setQueue t { q with items := rest }
        log := s.log ++ [.handed w.1 t x] }, some x) := by
  simp only [getPass, hq, Queue.get, h]

section getPass

variable (s : Loop) (w : Waiter) (t : String)

theorem getPass_fields :
    (s.getPass w t).1.calls = s.calls ∧
      (s.getPass w t).1.client.connection = s.client.connection := by
  rw [getPass]
  rcases s.client.pendingResponses t with _ | q
  · exact ⟨rfl, rfl⟩
  · rcases q.get_cases w with ⟨-, hget⟩ | ⟨m, rest, -, hget⟩ <;>
      simp [hget, WSClient.setQueue, WSClient.connection]

variable {s w t}

/-- A `get` that takes nothing has found no item, and leaves the messages alone. -/
theorem getPass_none {s' : Loop} (h : s.getPass w t = (s', none)) :
    s'.calls = s.calls ∧ s'.mail = s.mail ∧ ∀ xs, s.items t = some xs → xs = [] := by
  refine ⟨by rw [← (s.getPass_fields w t).1, h], ?_⟩
  rw [getPass] at h
  rcases hq : s.client.pendingResponses t with _ | q
  · rw [hq] at h
    obtain ⟨rfl, -⟩ := Prod.mk.inj h
    exact ⟨rfl, fun xs hxs => by simp [items, hq] at hxs⟩
  · rcases q.get_cases w with ⟨hitems, hget⟩ | ⟨m, rest, -, hget⟩
    · simp only [hq, hget, Prod.mk.injEq, and_true] at h
      subst h
      refine ⟨?_, fun xs hxs => ?_⟩
      · exact Mail.ext ((s.items_setQueue t _).trans (s.update_items_self hq rfl)) rfl rfl
      · simp only [items, hq, Option.map_some, Option.some.injEq] at hxs
        rw [← hxs, hitems]
    · simp [hq, hget] at h

/-- A `get` that takes `m` has taken the oldest item. -/
theorem getPass_some {s' : Loop} {m : Received} (h : s.getPass w t = (s', some m)) :
    s'.calls = s.calls ∧
      ∃ rest, s.items t = some (m :: rest) ∧ s'.mail = s.mail.hand w.1 t m rest := by
  refine ⟨by rw [← (s.getPass_fields w t).1, h], ?_⟩
  rw [getPass] at h
  rcases hq : s.client.pendingResponses t with _ | q
  · simp [hq] at h
  · rcases q.get_cases w with ⟨-, hget⟩ | ⟨m', rest, hitems, hget⟩
    · simp [hq, hget] at h
    · simp only [hq, hget, Prod.mk.injEq, Option.some.injEq] at h
      obtain ⟨rfl, rfl⟩ := h
      refine ⟨rest, by simp [items, hq, hitems], ?_⟩
      exact Mail.ext (s.items_setQueue t _) rfl rfl

variable (s w t)

/-- Cancelling a waiter changes neither the messages nor the calls. -/
theorem cancelGetter_fields :
    (s.cancelGetter w t).mail = s.mail ∧ (s.cancelGetter w t).calls = s.calls ∧
      (s.cancelGetter w t).client.connection = s.client.connection := by
  rw [cancelGetter]
  rcases hq : s.client.pendingResponses t with _ | q
  · exact ⟨rfl, rfl, rfl⟩
  · refine ⟨Mail.ext ((s.items_setQueue t _).trans ?_) rfl rfl, rfl, rfl⟩
    rw [Queue.cancel_items]
    exact s.update_items_self hq rfl

@[simp] theorem cancelGetter_mail : (s.cancelGetter w t).mail = s.mail :=
  (s.cancelGetter_fields w t).1

@[simp] theorem cancelGetter_calls : (s.cancelGetter w t).calls = s.calls :=
  (s.cancelGetter_fields w t).2.1

end getPass

theorem cancelGetters_fields (s : Loop) (i j : ℕ) (ts : List String)
    (got : List (Option Received)) :
    (s.cancelGetters i j ts got).mail = s.mail ∧ (s.cancelGetters i j ts got).calls = s.calls ∧
      (s.cancelGetters i j ts got).client.connection = s.client.connection := by
  induction ts generalizing s j got with
  | nil => cases got <;> exact ⟨rfl, rfl, rfl⟩
  | cons t ts ih =>
    rcases got with _ | ⟨_ | m, got⟩
    · exact ⟨rfl, rfl, rfl⟩
    · obtain ⟨h₁, h₂, h₃⟩ := ih (s.cancelGetter (i, j) t) (j + 1) got
      obtain ⟨h₁', h₂', h₃'⟩ := s.cancelGetter_fields (i, j) t
      exact ⟨h₁.trans h₁', h₂.trans h₂', h₃.trans h₃'⟩
    · exact ih s (j + 1) got

@[simp] theorem cancelGetters_mail (s : Loop) (i j : ℕ) (ts : List String)
    (got : List (Option Received)) : (s.cancelGetters i j ts got).mail = s.mail :=
  (s.cancelGetters_fields i j ts got).1

@[simp] theorem cancelGetters_calls (s : Loop) (i j : ℕ) (ts : List String)
    (got : List (Option Received)) : (s.cancelGetters i j ts got).calls = s.calls :=
  (s.cancelGetters_fields i j ts got).2.1

/-- The first runs of the getter tasks, seen from the messages. -/
theorem runGetters_mail (s : Loop) (i j : ℕ) (ts : List String) :
    (s.runGetters i j ts).1.calls = s.calls ∧
      Mail.Getters i ts s.mail (s.runGetters i j ts).2 (s.runGetters i j ts).1.mail := by
  induction ts generalizing s j with
  | nil => exact ⟨rfl, .nil _⟩
  | cons t ts ih =>
    simp only [runGetters]
    rcases hget : s.getPass (i, j) t with ⟨s₁, _ | m⟩
    · obtain ⟨hcalls, hmail, hempty⟩ := getPass_none hget
      obtain ⟨hc, hg⟩ := ih s₁ (j + 1)
      rw [hmail] at hg
      exact ⟨hc.trans hcalls, .suspend hempty hg⟩
    · obtain ⟨hcalls, rest, hitems, hmail⟩ := getPass_some hget
      obtain ⟨hc, hg⟩ := ih s₁ (j + 1)
      rw [hmail] at hg
      exact ⟨hc.trans hcalls, .take hitems hg⟩

/-- The receive task handles an object on which the loop does not choke. -/
theorem receive_mail {s : Loop} {msg : Json} {now : ℚ} {c : WSClient} {woken : Option Waiter}
    (hd : s.client.dispatch (.ok msg) s.log.length now = .ok (c, woken)) :
    (s.receive (.ok msg) now).mail = s.mail.receive msg now := by
  have hreg : (fun t => (s.mail.items t).isSome) =
      fun t => (s.client.pendingResponses t).isSome := by
    funext t
    simp [mail, items]
  have h := WSClient.dispatch_ok hd
  rw [receive, hd, Mail.receive, hreg, show s.mail.log = s.log from rfl]
  generalize destination (fun t => (s.client.pendingResponses t).isSome)
    ⟨s.log.length, msg⟩ = d at h ⊢
  cases d with
  | ignored =>
    obtain ⟨rfl, -⟩ := h
    rfl
  | queue t =>
    obtain ⟨q, hq, rfl, -⟩ := h
    refine Mail.ext ((s.items_setQueue t _).trans ?_) rfl rfl
    simp [items, hq, Mail.deliver, mail]
  | accumulator =>
    obtain ⟨rfl, -⟩ := h
    rfl

/-- The receive task handles a frame: the calls are as before, and the messages too unless the
frame is an object on which the loop does not choke. -/
theorem receive_cases (s : Loop) (loaded : Except PyError Json) (now : ℚ) :
    (s.receive loaded now).calls = s.calls ∧
      ((s.receive loaded now).mail = s.mail ∨
        ∃ msg, loaded = .ok msg ∧ (s.receive loaded now).mail = s.mail.receive msg now) := by
  rcases hd : s.client.dispatch loaded s.log.length now with e | ⟨c, woken⟩
  · simp only [receive]
    rw [hd]
    exact ⟨rfl, .inl rfl⟩
  · refine ⟨by unfold receive; rw [hd], ?_⟩
    rcases loaded with e | msg
    · have hc : c = s.client := by
        cases e <;> simp only [WSClient.dispatch, Except.ok.injEq, Prod.mk.injEq, reduceCtorEq] at hd
        all_goals exact hd.1.symm
      subst hc
      rw [receive]
      rw [hd]
      exact .inl rfl
    · exact .inr ⟨msg, rfl, receive_mail hd⟩

/-- Object `x` has been put into the queue `q` of type `t`. -/
structure Put (t : String) (q : Queue Received Waiter) (x : Received) (s s' : Loop) : Prop where
  /-- the queue before -/
  found : s.client.pendingResponses t = some q
  /-- the object is new -/
  idx : x.idx = s.log.length
  /-- the queues after -/
  pending : s'.client.pendingResponses =
    Function.update s.client.pendingResponses t (some (q.put x).1)
  /-- its oldest getter has been woken -/
  ready : s'.ready = s.ready ++ q.getters.head?.toList

namespace Put

variable {s s' : Loop} {t : String} {q : Queue Received Waiter} {x : Received}

theorem pending_self (h : Put t q x s s') :
    s'.client.pendingResponses t = some (q.put x).1 := by
  rw [h.pending]
  exact Function.update_self ..

theorem pending_of_ne (h : Put t q x s s') {t' : String} (ht' : t' ≠ t) :
    s'.client.pendingResponses t' = s.client.pendingResponses t' := by
  rw [h.pending]
  exact Function.update_of_ne ht' ..

end Put

/-- What the receive task does to the queues and to the getters: nothing, or it puts an object into a
queue. -/
theorem receive_put (s : Loop) (loaded : Except PyError Json) (now : ℚ) :
    ((s.receive loaded now).client.pendingResponses = s.client.pendingResponses ∧
        (s.receive loaded now).ready = s.ready) ∨
      ∃ t q x, Put t q x s (s.receive loaded now) := by
  rcases hd : s.client.dispatch loaded s.log.length now with e | ⟨c, woken⟩
  · have hs : s.receive loaded now =
        { s with client := { s.client with recvTask := some (.failed e) } } := by
      simp only [receive]
      rw [hd]
    rw [hs]
    exact .inl ⟨rfl, rfl⟩
  rcases loaded with e | msg
  · have hc : c = s.client ∧ woken = none := by
      cases e <;> simp only [WSClient.dispatch, Except.ok.injEq, Prod.mk.injEq, reduceCtorEq] at hd
      all_goals exact ⟨hd.1.symm, hd.2.symm⟩
    obtain ⟨rfl, rfl⟩ := hc
    have hs : s.receive (.error e) now = { s with ready := s.ready ++ [] } := by
      rw [receive]
      rw [hd]
      rfl
    rw [hs]
    exact .inl ⟨rfl, List.append_nil _⟩
  · have hs : s.receive (.ok msg) now = { s with
        client := c
        ready := s.ready ++ woken.toList
        log := s.log ++ [Obs.received ⟨s.log.length, msg⟩] } := by
      rw [receive]
      rw [hd]
    rw [hs]
    have hdel := WSClient.dispatch_ok hd
    generalize destination _ _ = d at hdel
    cases d with
    | ignored =>
      obtain ⟨rfl, rfl⟩ := hdel
      exact .inl ⟨rfl, List.append_nil _⟩
    | queue t =>
      obtain ⟨q, hq, rfl, rfl⟩ := hdel
      exact .inr ⟨t, q, _, hq, rfl, rfl, rfl⟩
    | accumulator =>
      obtain ⟨rfl, rfl⟩ := hdel
      exact .inl ⟨rfl, List.append_nil _⟩

/-! ## Steps -/

/-- What must have been the case for a step to be taken, and where it leads. -/
inductive Stepped (s : Loop) : Label → Loop → Prop
  | connect {conn : ℕ} : s.client.recvTask ≠ some .running →
      Stepped s (.connect conn) { s with client := s.client.connect conn }
  | disconnect : Stepped s .disconnect { s with client := s.client.disconnect.client }
  | peerClosed : s.client.recvTask = some .running →
      Stepped s .peerClosed { s with client := { s.client with recvTask := some .finished } }
  | receive {loaded : Except PyError Json} {now : ℚ} : s.client.recvTask = some .running →
      Stepped s (.receive loaded now) (s.receive loaded now)
  | start {i : ℕ} {c : Call} {now : ℚ} : s.calls i = none →
      Stepped s (.start i c now) ({ s with
        client := s.client.ensureQueues c.responseTypes
        log := s.log ++ [Obs.started i c] }.setFrame i c (.sending c.outgoing now))
  | notConnected {i : ℕ} {c : Call} {w : Wire} {todo : List Wire} {t0 : ℚ} :
      s.calls i = some ⟨c, .sending (w :: todo) t0⟩ → s.client.ws = none →
      Stepped s (.sent i) (s.setFrame i c (.raised (.assertionError "Not connected")))
  | sent {i : ℕ} {c : Call} {w : Wire} {todo : List Wire} {t0 : ℚ} {conn : ℕ} :
      s.calls i = some ⟨c, .sending (w :: todo) t0⟩ → s.client.ws = some conn →
      Stepped s (.sent i) ({ s with log := s.log ++ [Obs.sent i w] }.setFrame i c (.sending todo t0))
  | sendFails {i : ℕ} {c : Call} {w : Wire} {todo : List Wire} {t0 : ℚ} :
      s.calls i = some ⟨c, .sending (w :: todo) t0⟩ →
      Stepped s (.sendFails i) (s.setFrame i c (.raised .connectionClosed))
  | afterSend {i : ℕ} {c : Call} {t0 now : ℚ} : s.calls i = some ⟨c, .sending [] t0⟩ →
      Stepped s (.resume i now) (s.setFrame i c (c.afterSend t0 now))
  | return {i : ℕ} {c : Call} {out : List Received} {t0 now : ℚ} :
      s.calls i = some ⟨c, .collecting 0 out t0⟩ →
      Stepped s (.resume i now) ({ s with client := { s.client with
        lastElapsedMs := c.elapsed t0 now s.client.lastElapsedMs } }.setFrame i c
          (.returned (c.result out)))
  | suspend {i left : ℕ} {c : Call} {out : List Received} {t0 now : ℚ} {s₁ : Loop} :
      s.calls i = some ⟨c, .collecting (left + 1) out t0⟩ →
      s.getPass (i, 0) c.queueType = (s₁, none) →
      Stepped s (.resume i now) (s₁.setFrame i c (.getting left out t0))
  | take {i left : ℕ} {c : Call} {out : List Received} {t0 now : ℚ} {s₁ : Loop} {m : Received} :
      s.calls i = some ⟨c, .collecting (left + 1) out t0⟩ →
      s.getPass (i, 0) c.queueType = (s₁, some m) →
      Stepped s (.resume i now) (s₁.setFrame i c (.collecting left (out ++ [m]) t0))
  | run {i j : ℕ} {rest : List Waiter} : s.ready = (i, j) :: rest →
      Stepped s .run ({ s with ready := rest }.runGetter i j)
  | getters {i : ℕ} {c : Call} {t0 : ℚ} : s.calls i = some ⟨c, .created t0⟩ →
      Stepped s (.getters i) ((s.runGetters i 0 c.responseTypes).1.setFrame i c
        (.waiting (s.runGetters i 0 c.responseTypes).2 t0))
  | wake {i pick : ℕ} {c : Call} {got : List (Option Received)} {t0 now : ℚ} {m : Received} :
      s.calls i = some ⟨c, .waiting got t0⟩ → some m ∈ got →
      Stepped s (.wake i pick now) ({ s.cancelGetters i 0 c.responseTypes got with
        client := { (s.cancelGetters i 0 c.responseTypes got).client with
          lastElapsedMs := c.elapsed t0 now
            (s.cancelGetters i 0 c.responseTypes got).client.lastElapsedMs } }.setFrame i c
              (.returned (.message m)))
  | timeout {i left : ℕ} {c : Call} {out : List Received} {t0 : ℚ} :
      s.calls i = some ⟨c, .getting left out t0⟩ →
      Stepped s (.timeout i) ((s.cancelGetter (i, 0) c.queueType).setFrame i c c.onTimeout)
  | timeoutAny {i : ℕ} {c : Call} {got : List (Option Received)} {t0 : ℚ} :
      s.calls i = some ⟨c, .waiting got t0⟩ → (∀ x ∈ got, x = none) →
      Stepped s (.timeout i) ((s.cancelGetters i 0 c.responseTypes got).setFrame i c c.onTimeout)
  | poll {i : ℕ} {c : Call} {deadline now : ℚ} : s.calls i = some ⟨c, .polling deadline⟩ →
      Stepped s (.poll i now) (s.poll i c deadline now)
  | events {l : Waiting.Label} {w : Waiting} : (∀ message now, l ≠ .push message now) →
      Waiting.step ⟨s.client.events, s.eventCalls⟩ l = some w →
      Stepped s (.events l) { s with
        client := { s.client with events := w.acc }
        eventCalls := w.calls
        log := match l with
          | .clear => s.log ++ [.cleared]
          | _ => s.log }

/-- **Inversion of a step.** -/
theorem step_cases {s s' : Loop} {l : Label} (h : s.step l = some s') : Stepped s l s' := by
  cases l with
  | connect conn =>
    simp only [step] at h
    split at h
    · cases h
    next hrunning =>
      obtain rfl := Option.some.inj h
      exact .connect hrunning
  | disconnect =>
    obtain rfl := Option.some.inj h
    exact .disconnect
  | peerClosed =>
    simp only [step] at h
    split at h
    next hrunning =>
      obtain rfl := Option.some.inj h
      exact .peerClosed hrunning
    · cases h
  | receive loaded now =>
    simp only [step] at h
    split at h
    next hrunning =>
      obtain rfl := Option.some.inj h
      exact .receive hrunning
    · cases h
  | start i c now =>
    simp only [step] at h
    split at h
    next hi =>
      obtain rfl := Option.some.inj h
      exact .start hi
    · cases h
  | sent i =>
    simp only [step] at h
    split at h
    next hi =>
      split at h <;> rename_i hws <;> obtain rfl := Option.some.inj h
      · exact .notConnected hi hws
      · exact .sent hi hws
    · cases h
  | sendFails i =>
    simp only [step] at h
    split at h
    next hi =>
      obtain rfl := Option.some.inj h
      exact .sendFails hi
    · cases h
  | resume i now =>
    simp only [step] at h
    split at h
    next hi =>
      obtain rfl := Option.some.inj h
      exact .afterSend hi
    next hi =>
      obtain rfl := Option.some.inj h
      exact .return hi
    next hi =>
      split at h <;> rename_i hget <;> obtain rfl := Option.some.inj h
      · exact .suspend hi hget
      · exact .take hi hget
    · cases h
  | run =>
    simp only [step] at h
    split at h
    next hready =>
      obtain rfl := Option.some.inj h
      exact .run hready
    · cases h
  | getters i =>
    simp only [step] at h
    split at h
    next hi =>
      obtain rfl := Option.some.inj h
      exact .getters hi
    · cases h
  | wake i pick now =>
    simp only [step] at h
    split at h
    next hi =>
      split at h
      next hm =>
        obtain rfl := Option.some.inj h
        exact .wake hi (List.mem_of_getElem? hm)
      · cases h
    · cases h
  | timeout i =>
    simp only [step] at h
    split at h
    next hi =>
      obtain rfl := Option.some.inj h
      exact .timeout hi
    next hi =>
      split at h
      next hall =>
        obtain rfl := Option.some.inj h
        exact .timeoutAny hi fun x hx => by simpa using List.all_eq_true.mp hall x hx
      · cases h
    · cases h
  | poll i now =>
    simp only [step] at h
    split at h
    next hi =>
      obtain rfl := Option.some.inj h
      exact .poll hi
    · cases h
  | events l =>
    cases l with
    | push message now => cases h
    | _ =>
      simp only [step] at h
      obtain ⟨w, hw, rfl⟩ := Option.map_eq_some_iff.mp h
      exact .events (by simp) hw

/-! ## What a step does -/

/-- A step in which a call begins. -/
def Label.starts : Label → Bool
  | .start _ _ _ => true
  | _ => false

/-- The moves of a call that leave the messages alone: it fails to send, goes on after its sends,
returns what it has taken, suspends in `get`, times out, or is resumed by `asyncio.wait`. -/
inductive Local (s : Loop) (c : Call) : Label → Frame → Frame → Prop
  | notConnected {i : ℕ} {todo : List Wire} {t0 : ℚ} : s.client.ws = none →
      Local s c (.sent i) (.sending todo t0) (.raised (.assertionError "Not connected"))
  | sendFails {i : ℕ} {todo : List Wire} {t0 : ℚ} :
      Local s c (.sendFails i) (.sending todo t0) (.raised .connectionClosed)
  | afterSend {i : ℕ} {t0 now : ℚ} :
      Local s c (.resume i now) (.sending [] t0) (c.afterSend t0 now)
  | suspend {i left : ℕ} {out : List Received} {t0 now : ℚ} :
      Local s c (.resume i now) (.collecting (left + 1) out t0) (.getting left out t0)
  | return {i : ℕ} {out : List Received} {t0 now : ℚ} :
      Local s c (.resume i now) (.collecting 0 out t0) (.returned (c.result out))
  | timeout {i left : ℕ} {out : List Received} {t0 : ℚ} :
      Local s c (.timeout i) (.getting left out t0) c.onTimeout
  | wake {i pick : ℕ} {got : List (Option Received)} {t0 now : ℚ} {m : Received} :
      some m ∈ got → Local s c (.wake i pick now) (.waiting got t0) (.returned (.message m))
  | timeoutAny {i : ℕ} {got : List (Option Received)} {t0 : ℚ} :
      (∀ x ∈ got, x = none) → Local s c (.timeout i) (.waiting got t0) c.onTimeout

/-- The moves of a call that take message `m` from the queue of type `t`. -/
inductive Takes (c : Call) (m : Received) : Frame → String → Frame → Prop
  | resume {left : ℕ} {out : List Received} {t0 : ℚ} :
      Takes c m (.collecting (left + 1) out t0) c.queueType (.collecting left (out ++ [m]) t0)
  | run {left : ℕ} {out : List Received} {t0 : ℚ} :
      Takes c m (.getting left out t0) c.queueType (.collecting left (out ++ [m]) t0)
  | runAny {got : List (Option Received)} {t0 : ℚ} {j : ℕ} {t : String} :
      c.responseTypes[j]? = some t → got[j]? = some none →
        Takes c m (.waiting got t0) t (.waiting (got.set j (some m)) t0)

/-- The moves of a call that polls the accumulator, whose content is `events`. -/
inductive Polls (c : Call) (events : List Received) : Frame → Frame → Prop
  | raises {deadline : ℚ} {e : PyError} : Polls c events (.polling deadline) (.raised e)
  | found {deadline : ℚ} {ev : Received} {v : Json} :
      firstMatch c.predicate events = .ok (some ev) → c.finish ev.body = .ok v →
        Polls c events (.polling deadline) (.returned (.event ev v))
  | timeout {deadline : ℚ} :
      firstMatch c.predicate events = .ok none → Polls c events (.polling deadline) c.onTimeout

theorem Local.not_ended {s : Loop} {c : Call} {l : Label} {f f' : Frame} (h : s.Local c l f f') :
    f.ended = false := by
  cases h <;> rfl

theorem Takes.not_ended {c : Call} {m : Received} {f f' : Frame} {t : String}
    (h : Takes c m f t f') : f.ended = false := by
  cases h <;> rfl

theorem Polls.not_ended {c : Call} {events : List Received} {f f' : Frame}
    (h : Polls c events f f') : f.ended = false := by
  cases h <;> rfl

/-- What a step does to the calls and to the messages. -/
inductive Effect (s : Loop) : Label → Loop → Prop
  /-- the calls and the messages are as before -/
  | quiet {l : Label} {s' : Loop} : s'.calls = s.calls → s'.mail = s.mail → Effect s l s'
  | received {msg : Json} {now : ℚ} {s' : Loop} : s'.calls = s.calls →
      s'.mail = s.mail.receive msg now → Effect s (.receive (.ok msg) now) s'
  | cleared {s' : Loop} : s'.calls = s.calls → s'.mail = s.mail.clear →
      Effect s (.events .clear) s'
  | started {i : ℕ} {c : Call} {now : ℚ} {s' : Loop} : s.calls i = none →
      s'.calls = Function.update s.calls i (some ⟨c, .sending c.outgoing now⟩) →
      s'.mail = s.mail.start i c → Effect s (.start i c now) s'
  | sent {i : ℕ} {c : Call} {w : Wire} {todo : List Wire} {t0 : ℚ} {s' : Loop} :
      s.calls i = some ⟨c, .sending (w :: todo) t0⟩ →
      s'.calls = Function.update s.calls i (some ⟨c, .sending todo t0⟩) →
      s'.mail = s.mail.send i w → Effect s (.sent i) s'
  | «local» {i : ℕ} {c : Call} {f f' : Frame} {l : Label} {s' : Loop} :
      s.calls i = some ⟨c, f⟩ → Local s c l f f' →
      s'.calls = Function.update s.calls i (some ⟨c, f'⟩) → s'.mail = s.mail → Effect s l s'
  | polled {i : ℕ} {c : Call} {f f' : Frame} {now : ℚ} {s' : Loop} :
      s.calls i = some ⟨c, f⟩ → Polls c s.mail.events f f' →
      s'.calls = Function.update s.calls i (some ⟨c, f'⟩) → s'.mail = s.mail →
      Effect s (.poll i now) s'
  | handed {i : ℕ} {c : Call} {f f' : Frame} {t : String} {m : Received} {rest : List Received}
      {l : Label} {s' : Loop} :
      s.calls i = some ⟨c, f⟩ → Takes c m f t f' → s.mail.items t = some (m :: rest) →
      s'.calls = Function.update s.calls i (some ⟨c, f'⟩) → s'.mail = s.mail.hand i t m rest →
      Effect s l s'
  | getters {i : ℕ} {c : Call} {t0 : ℚ} {got : List (Option Received)} {s' : Loop} :
      s.calls i = some ⟨c, .created t0⟩ → Mail.Getters i c.responseTypes s.mail got s'.mail →
      s'.calls = Function.update s.calls i (some ⟨c, .waiting got t0⟩) →
      Effect s (.getters i) s'

/-- A step that puts call `i` in frame `f'`, in a state with the calls of `s`. -/
theorem calls_setFrame {s s₁ : Loop} (h : s₁.calls = s.calls) (i : ℕ) (c : Call) (f : Frame) :
    (s₁.setFrame i c f).calls = Function.update s.calls i (some ⟨c, f⟩) := by
  rw [← h]
  rfl

/-- A woken getter runs: it suspends again, or takes a message. `s` is `s₀` with the getter off the
ready list. -/
theorem runGetter_effect {s s₀ : Loop} (hc : s.calls = s₀.calls) (hm : s.mail = s₀.mail)
    (i j : ℕ) (l : Label) : Effect s₀ l (s.runGetter i j) := by
  have hitems : s.items = s₀.mail.items := congrArg Mail.items hm
  rw [runGetter]
  split
  · rename_i c left out t0 hi
    rw [hc] at hi
    rcases hget : s.getPass (i, j) c.queueType with ⟨s₁, _ | m⟩
    · obtain ⟨hcalls, hmail, -⟩ := getPass_none hget
      exact .quiet (hcalls.trans hc) (hmail.trans hm)
    · obtain ⟨hcalls, rest, hrest, hmail⟩ := getPass_some hget
      rw [hm] at hmail
      exact .handed hi .run (hitems ▸ hrest) (calls_setFrame (hcalls.trans hc) i c _) hmail
  · rename_i c got t0 hi
    rw [hc] at hi
    split
    · rename_i t ht hgot
      rcases hget : s.getPass (i, j) t with ⟨s₁, _ | m⟩
      · obtain ⟨hcalls, hmail, -⟩ := getPass_none hget
        exact .quiet (hcalls.trans hc) (hmail.trans hm)
      · obtain ⟨hcalls, rest, hrest, hmail⟩ := getPass_some hget
        rw [hm] at hmail
        exact .handed hi (.runAny ht hgot) (hitems ▸ hrest)
          (calls_setFrame (hcalls.trans hc) i c _) hmail
    · exact .quiet hc hm
  · exact .quiet hc hm

theorem poll_effect (s : Loop) {i : ℕ} {c : Call} {deadline : ℚ} (now : ℚ)
    (hi : s.calls i = some ⟨c, .polling deadline⟩) :
    Effect s (.poll i now) (s.poll i c deadline now) := by
  rw [poll]
  split
  · exact .polled hi .raises rfl rfl
  · rename_i ev hf
    split
    · rename_i v hv
      exact .polled hi (.found hf hv) rfl rfl
    · exact .polled hi .raises rfl rfl
  · rename_i hf
    split
    · exact .polled hi (.timeout hf) rfl rfl
    · exact .quiet rfl rfl

theorem events_effect {s s' : Loop} {l : Waiting.Label} (h : s.step (.events l) = some s') :
    Effect s (.events l) s' := by
  cases step_cases h with
  | events hpush hw =>
    cases l with
    | push message now => exact absurd rfl (hpush message now)
    | clear =>
      obtain rfl := Option.some.inj hw
      exact .cleared rfl rfl
    | _ => exact .quiet rfl (Mail.ext rfl (Waiting.step_events hw hpush (by simp)) rfl)

/-- The messages when a call begins. -/
theorem start_mail (s : Loop) (i : ℕ) (c : Call) (f : Frame) : ({ s with
    client := s.client.ensureQueues c.responseTypes
    log := s.log ++ [Obs.started i c] }.setFrame i c f).mail = s.mail.start i c := by
  refine Mail.ext (funext fun t => ?_) ?_ rfl
  · change ((s.client.ensureQueues c.responseTypes).pendingResponses t).map Queue.items =
      if t ∈ c.responseTypes then some ((s.items t).getD []) else s.items t
    rw [WSClient.ensureQueues_pendingResponses]
    split
    · rw [items]
      rcases s.client.pendingResponses t with _ | q <;> rfl
    · rfl
  · exact congrArg EventAccumulator.events (s.client.ensureQueues_events c.responseTypes)

/-- A call begins. -/
theorem start_cases {s s' : Loop} {i : ℕ} {c : Call} {now : ℚ}
    (h : s.step (.start i c now) = some s') :
    s.calls i = none ∧
      s'.calls = Function.update s.calls i (some ⟨c, .sending c.outgoing now⟩) ∧
      s'.mail = s.mail.start i c := by
  cases step_cases h with
  | start hi => exact ⟨hi, rfl, s.start_mail i c _⟩

/-- **What every step does.** -/
theorem step_effect {s s' : Loop} {l : Label} (h : s.step l = some s') : Effect s l s' := by
  cases step_cases h with
  | connect | peerClosed => exact .quiet rfl rfl
  | disconnect =>
    refine .quiet rfl ?_
    simp only [mail, WSClient.disconnect]
    split <;> rfl
  | @receive loaded now =>
    -- a frame that is no object changes at most the receive task
    obtain ⟨hc, hm | ⟨msg, rfl, hm⟩⟩ := s.receive_cases loaded now
    · exact .quiet hc hm
    · exact .received hc hm
  | start hi => exact .started hi rfl (s.start_mail ..)
  | notConnected hi hws => exact .local hi (.notConnected hws) rfl rfl
  | sent hi => exact .sent hi rfl rfl
  | sendFails hi => exact .local hi .sendFails rfl rfl
  | afterSend hi => exact .local hi .afterSend rfl rfl
  | «return» hi => exact .local hi .return rfl rfl
  | suspend hi hget =>
    obtain ⟨hcalls, hmail, -⟩ := getPass_none hget
    exact .local hi .suspend (calls_setFrame hcalls ..) hmail
  | take hi hget =>
    obtain ⟨hcalls, rest, hrest, hmail⟩ := getPass_some hget
    exact .handed hi .resume hrest (calls_setFrame hcalls ..) hmail
  | @run i j rest hready =>
    have hcalls : ({ s with ready := rest } : Loop).calls = s.calls := rfl
    have hmail : ({ s with ready := rest } : Loop).mail = s.mail := rfl
    exact runGetter_effect hcalls hmail i j _
  | getters hi =>
    obtain ⟨hcalls, hg⟩ := s.runGetters_mail _ 0 _
    exact .getters hi hg (calls_setFrame hcalls ..)
  | wake hi hm =>
    exact .local hi (.wake hm) (calls_setFrame (s.cancelGetters_calls ..) ..)
      (s.cancelGetters_mail ..)
  | timeout hi =>
    exact .local hi .timeout (calls_setFrame (s.cancelGetter_calls ..) ..) (s.cancelGetter_mail ..)
  | timeoutAny hi hall =>
    exact .local hi (.timeoutAny hall) (calls_setFrame (s.cancelGetters_calls ..) ..)
      (s.cancelGetters_mail ..)
  | poll hi => exact s.poll_effect _ hi
  | events => exact events_effect h

/-- A registered queue stays. -/
theorem Effect.registered {s s' : Loop} {l : Label} (h : Effect s l s') {t : String}
    (ht : (s.mail.items t).isSome = true) : (s'.mail.items t).isSome = true := by
  cases h with
  | quiet _ hm => exact hm ▸ ht
  | received _ hm =>
    rw [hm, Mail.receive_items]
    split
    · rfl
    · exact ht
  | cleared _ hm => exact hm ▸ ht
  | started _ _ hm =>
    rw [hm]
    simp only [Mail.start]
    split
    · rfl
    · exact ht
  | sent _ _ hm => exact hm ▸ ht
  | «local» _ _ _ hm => exact hm ▸ ht
  | polled _ _ _ hm => exact hm ▸ ht
  | handed _ _ _ _ hm => exact hm ▸ Mail.isSome_items_hand ht
  | getters _ hg _ => exact hg.isSome_items ht

/-- A call after a step that puts call `i` in a new frame is call `i`, or as it was. -/
theorem calls_cases {s s' : Loop} {i j : ℕ} {task task' : Task}
    (h : s'.calls = Function.update s.calls i (some task)) (hj : s'.calls j = some task') :
    (j = i ∧ task' = task) ∨ s.calls j = some task' := by
  rw [h] at hj
  by_cases hji : j = i
  · subst hji
    rw [Function.update_self] at hj
    exact .inl ⟨rfl, (Option.some.inj hj).symm⟩
  · rw [Function.update_of_ne hji] at hj
    exact .inr hj

/-- Of every call, what is known of its frame and the messages is `P`. -/
def AllCalls (P : Mail → ℕ → Call → Frame → Prop) (s : Loop) : Prop :=
  ∀ i c f, s.calls i = some ⟨c, f⟩ → P s.mail i c f

namespace AllCalls

variable {P : Mail → ℕ → Call → Frame → Prop} {s s' : Loop}

theorem new : AllCalls P new := by
  intro i c f h
  cases h

/-- A step that changes no frame. -/
theorem same (h : AllCalls P s)
    (mono : ∀ {i c f}, P s.mail i c f → P s'.mail i c f) (hcalls : s'.calls = s.calls) :
    AllCalls P s' := fun i c f hi => mono (h i c f (hcalls ▸ hi))

/-- A step that puts call `i` in a new frame: the other calls are as they were. -/
theorem update {i : ℕ} {c : Call} {f' : Frame} (h : AllCalls P s)
    (mono : ∀ {i c f}, P s.mail i c f → P s'.mail i c f)
    (hcalls : s'.calls = Function.update s.calls i (some ⟨c, f'⟩)) (hi : P s'.mail i c f') :
    AllCalls P s' := by
  intro j c' g hj
  rcases calls_cases hcalls hj with ⟨rfl, heq⟩ | hj
  · cases heq
    exact hi
  · exact mono (h j c' g hj)

end AllCalls

/-- Every step moves the messages on. -/
theorem step_extends {s s' : Loop} {l : Label} (h : s.step l = some s') :
    Mail.Extends s.mail s'.mail := by
  cases step_effect h with
  | quiet _ hm => exact hm ▸ .refl _
  | received _ hm => exact hm ▸ .receive ..
  | cleared _ hm => exact hm ▸ .clear _
  | started _ _ hm => exact hm ▸ .start ..
  | sent _ _ hm => exact hm ▸ .send ..
  | «local» _ _ _ hm => exact hm ▸ .refl _
  | polled _ _ _ hm => exact hm ▸ .refl _
  | handed _ _ hitems _ hm => exact hm ▸ .hand _ hitems
  | getters _ hg _ => exact .getters hg

end Loop

end SasTests
