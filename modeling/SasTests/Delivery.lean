import SasTests.LoopSteps
import Mathlib.Data.List.TakeWhile

/-!
# Delivery: nothing is lost, duplicated or reordered

The history of a client determines what is where. For every registered type the messages handed
out so far, followed by what is in the queue, are the messages of that type that have arrived since
the type was registered, in the order of their arrival (`Conserved.queues`); and the accumulator
holds the messages that were routed to it since it was last cleared (`Conserved.events`).

`Mail` is the abstract view of the client that this is about: a FIFO channel for each type, and
one log. Each operation on it keeps `Conserved`; `Loop.step_effect` says that the client does
nothing else.

Three types are special. `ping` and `pong` objects are thrown away, and an object of the empty type
goes to the accumulator, even when somebody has registered a queue for these types.
-/

namespace SasTests

open Python Asyncio

/-! ## Reading the history -/

/-- Does this entry register type `t`? -/
def Obs.registers (t : String) : Obs → Bool
  | .started _ c => t ∈ c.responseTypes
  | _ => false

/-- The type `t` has been registered. -/
def registeredIn (log : List Obs) (t : String) : Bool := log.any fun o => o.registers t

/-- The messages handed out from the queue of type `t`. -/
def handedOf (t : String) (log : List Obs) : List Received :=
  log.filterMap fun o => match o with
    | .handed _ t' m => if t' = t then some m else none
    | _ => none

/-- The objects of type `t` received. -/
def receivedOf (t : String) (log : List Obs) : List Received :=
  log.filterMap fun o => match o with
    | .received m => if m.typeStr = some t then some m else none
    | _ => none

/-- The objects of type `t` received since the type was registered. -/
def arrivedSince (t : String) (log : List Obs) : List Received :=
  receivedOf t (log.dropWhile fun o => !o.registers t)

/-- One entry of the history, for `accumulated`: the history up to it, and what had been routed to
the accumulator since it was last cleared. -/
def accumulate (st : List Obs × List Received) (o : Obs) : List Obs × List Received :=
  (st.1 ++ [o], match o with
    | .received m =>
      if destination (registeredIn st.1) m = .accumulator then st.2 ++ [m] else st.2
    | .cleared => []
    | _ => st.2)

/-- What has been routed to the accumulator since it was last cleared. -/
def accumulated (log : List Obs) : List Received := (log.foldl accumulate ([], [])).2

/-- A type whose objects go to its queue once it is registered. -/
def Regular (t : String) : Prop := t ≠ "" ∧ t ≠ MsgType.ping ∧ t ≠ MsgType.pong

/-- The message without the stamp `_received_at`. -/
def Received.unstamp (m : Received) : Received :=
  match m.body with
  | .obj fields => { m with body := .obj (fields.filter fun p => p.1 ≠ "_received_at") }
  | _ => m

@[simp] theorem Received.unstamp_stamp (m : Received) (now : ℚ) :
    (m.stamp now).unstamp = m.unstamp := by
  obtain ⟨idx, body⟩ := m
  have key : ∀ fields : List (String × Json),
      (Json.assign "_received_at" (.num now) fields).filter (fun p => p.1 ≠ "_received_at") =
        fields.filter fun p => p.1 ≠ "_received_at" := by
    intro fields
    induction fields with
    | nil => simp [Json.assign]
    | cons p rest ih =>
      obtain ⟨k, v⟩ := p
      by_cases hk : k = "_received_at"
      · simp [Json.assign, hk]
      · simp only [Json.assign, if_neg hk, List.filter_cons, ih]
  cases body <;> simp only [Received.stamp, Received.unstamp]
  rw [key]

section concat

variable (log : List Obs) (o : Obs) (t : String)

@[simp] theorem registeredIn_concat :
    registeredIn (log ++ [o]) t = (registeredIn log t || o.registers t) := by
  simp [registeredIn]

theorem handedOf_concat : handedOf t (log ++ [o]) = handedOf t log ++ handedOf t [o] :=
  List.filterMap_append ..

/-- Before its registration a type has no arrivals, and after it every object of the type is one. -/
theorem arrivedSince_concat :
    arrivedSince t (log ++ [o]) =
      arrivedSince t log ++ if registeredIn log t then receivedOf t [o] else [] := by
  simp only [arrivedSince, receivedOf]
  rw [List.dropWhile_append]
  by_cases hreg : registeredIn log t = true
  · have hne : (log.dropWhile fun o => !o.registers t).isEmpty = false := by
      rw [List.isEmpty_eq_false_iff, ne_eq, List.dropWhile_eq_nil_iff]
      obtain ⟨x, hx, hxt⟩ := List.any_eq_true.mp hreg
      exact fun h => by simpa [hxt] using h x hx
    rw [hne, if_pos hreg]
    exact List.filterMap_append ..
  · have hnil : log.dropWhile (fun o => !o.registers t) = [] := by
      rw [List.dropWhile_eq_nil_iff]
      intro x hx
      by_contra hxt
      exact hreg (List.any_eq_true.mpr ⟨x, hx, by simpa using hxt⟩)
    rw [hnil, if_neg hreg]
    cases o with
    | received m => simp [Obs.registers]
    | started i c => by_cases ht : t ∈ c.responseTypes <;> simp [Obs.registers, ht]
    | _ => simp [Obs.registers]

theorem arrivedSince_of_unregistered (h : registeredIn log t = false) : arrivedSince t log = [] := by
  have hnil : log.dropWhile (fun o => !o.registers t) = [] := by
    rw [List.dropWhile_eq_nil_iff]
    intro x hx
    by_contra hxt
    have hreg : registeredIn log t = true := List.any_eq_true.mpr ⟨x, hx, by simpa using hxt⟩
    rw [hreg] at h
    cases h
  rw [arrivedSince, hnil]
  rfl

/-- An entry that registers the type: everything of the type that comes after it is an arrival. -/
theorem arrivedSince_append {o : Obs} (h : o.registers t = true) (log' : List Obs) :
    arrivedSince t (log ++ o :: log') = arrivedSince t log ++ receivedOf t (o :: log') := by
  simp only [arrivedSince]
  rw [List.dropWhile_append]
  split
  · rename_i hempty
    rw [List.isEmpty_iff.mp hempty, List.dropWhile_cons_of_neg (by simp [h])]
    rfl
  · exact List.filterMap_append ..

theorem foldl_accumulate_fst (st : List Obs × List Received) :
    (log.foldl accumulate st).1 = st.1 ++ log := by
  induction log generalizing st with
  | nil => simp
  | cons o log ih => rw [List.foldl_cons, ih]; simp [accumulate]

theorem accumulated_concat :
    accumulated (log ++ [o]) = match o with
      | .received m =>
        if destination (registeredIn log) m = .accumulator then accumulated log ++ [m]
        else accumulated log
      | .cleared => []
      | _ => accumulated log := by
  have hfst : (log.foldl accumulate ([], [])).1 = log := by
    simpa using foldl_accumulate_fst log ([], [])
  simp only [accumulated]
  rw [List.foldl_append, List.foldl_cons, List.foldl_nil]
  cases o <;> simp only [accumulate, hfst]

end concat

/-! ## The invariant -/

/-- What is where, according to the history. -/
structure Conserved (m : Mail) : Prop where
  /-- the queues are those of the registered types -/
  registered : ∀ t, (m.items t).isSome = registeredIn m.log t
  /-- handed out plus queued is arrived, in order -/
  queues : ∀ t xs, m.items t = some xs → Regular t →
    handedOf t m.log ++ xs = arrivedSince t m.log
  /-- nothing is ever queued for the other types -/
  irregular : ∀ t xs, m.items t = some xs → ¬ Regular t → xs = []
  /-- nothing has been handed out before a type is registered -/
  unregistered : ∀ t, m.items t = none → handedOf t m.log = []
  /-- the accumulator holds what was routed to it -/
  events : m.events.map Received.unstamp = (accumulated m.log).map Received.unstamp

theorem of_destination_queue {registered : String → Bool} {x : Received} {t : String}
    (h : destination registered x = .queue t) :
    Regular t ∧ x.typeStr = some t ∧ registered t = true := by
  rw [destination] at h
  split at h
  · rename_i t' ht'
    split at h
    · cases h
    · rename_i hi
      split at h
      · rename_i hq
        obtain rfl := Destination.queue.inj h
        exact ⟨⟨hq.1, fun hp => hi (.inl hp), fun hp => hi (.inr hp)⟩, ht', hq.2⟩
      · cases h
  · cases h

theorem destination_of_regular {registered : String → Bool} {x : Received} {t : String}
    (ht : Regular t) (hx : x.typeStr = some t) (hr : registered t = true) :
    destination registered x = .queue t := by
  have hi : ¬ (t = MsgType.ping ∨ t = MsgType.pong) := fun h => h.elim ht.2.1 ht.2.2
  simp only [destination, hx, if_neg hi, ne_eq, ht.1, not_false_eq_true, hr, and_self, if_true]

namespace Conserved

theorem new : Conserved Loop.new.mail where
  registered _ := rfl
  queues _ _ h := by cases h
  irregular _ _ h := by cases h
  unregistered _ _ := rfl
  events := rfl

variable {m : Mail}

theorem start (h : Conserved m) (i : ℕ) (c : Call) : Conserved (m.start i c) where
  registered t := by
    simp only [Mail.start, registeredIn_concat, Obs.registers, ← h.registered t]
    by_cases ht : t ∈ c.responseTypes <;> simp [ht]
  queues t xs hxs ht := by
    simp only [Mail.start] at hxs ⊢
    rw [handedOf_concat, arrivedSince_concat, show handedOf t [.started i c] = [] from rfl,
      List.append_nil, show receivedOf t [.started i c] = [] from rfl, ite_self, List.append_nil]
    rcases hitems : m.items t with _ | ys
    · -- a type registered just now, or not at all
      have hreg : registeredIn m.log t = false := by rw [← h.registered t, hitems]; rfl
      rw [h.unregistered t hitems, arrivedSince_of_unregistered m.log t hreg]
      rw [hitems] at hxs
      split at hxs <;> cases hxs
      rfl
    · have hys : xs = ys := by
        rw [hitems] at hxs
        split at hxs <;> cases hxs <;> rfl
      rw [hys]
      exact h.queues t ys hitems ht
  irregular t xs hxs ht := by
    simp only [Mail.start] at hxs
    rcases hitems : m.items t with _ | ys <;> rw [hitems] at hxs
    · split at hxs <;> cases hxs
      rfl
    · have hys : xs = ys := by split at hxs <;> cases hxs <;> rfl
      rw [hys]
      exact h.irregular t ys hitems ht
  unregistered t ht := by
    simp only [Mail.start] at ht ⊢
    rw [handedOf_concat, show handedOf t [.started i c] = [] from rfl, List.append_nil]
    split at ht
    · cases ht
    · exact h.unregistered t ht
  events := by
    simp only [Mail.start]
    rw [accumulated_concat]
    exact h.events

theorem send (h : Conserved m) (i : ℕ) (w : Wire) : Conserved (m.send i w) where
  registered t := by simpa [Mail.send, Obs.registers] using h.registered t
  queues t xs hxs ht := by
    simp only [Mail.send]
    rw [handedOf_concat, arrivedSince_concat, show handedOf t [.sent i w] = [] from rfl,
      List.append_nil, show receivedOf t [.sent i w] = [] from rfl, ite_self, List.append_nil]
    exact h.queues t xs hxs ht
  irregular := h.irregular
  unregistered t ht := by
    simp only [Mail.send]
    rw [handedOf_concat, show handedOf t [.sent i w] = [] from rfl, List.append_nil]
    exact h.unregistered t ht
  events := by
    simp only [Mail.send]
    rw [accumulated_concat]
    exact h.events

theorem receive (h : Conserved m) (msg : Json) (now : ℚ) : Conserved (m.receive msg now) := by
  have hreg : (fun t => (m.items t).isSome) = registeredIn m.log := funext h.registered
  set x : Received := ⟨m.log.length, msg⟩ with hx
  have hitems := m.receive_items msg now
  have hevents := m.receive_events msg now
  have hlog := m.receive_log msg now
  rw [hreg, ← hx] at hitems hevents
  rw [← hx] at hlog
  refine ⟨fun t => ?_, fun t xs hxs ht => ?_, fun t xs hxs ht => ?_, fun t ht => ?_, ?_⟩
  -- receiving registers nothing; only the queue of the object's type changes
  · rw [hitems, hlog, registeredIn_concat, show (Obs.received x).registers t = false from rfl,
      Bool.or_false, ← h.registered t]
    split
    · rename_i hd
      have := (of_destination_queue hd).2.2
      rw [h.registered t, this]
      rfl
    · rfl
  · rw [hlog, handedOf_concat, arrivedSince_concat, show handedOf t [.received x] = [] from rfl,
      List.append_nil]
    rw [hitems] at hxs
    by_cases hr : registeredIn m.log t = true ∧ x.typeStr = some t
    · -- an object of this type, which is registered: it goes to the end of the queue
      rw [if_pos (destination_of_regular ht hr.2 hr.1)] at hxs
      obtain ⟨ys, hys⟩ := Option.isSome_iff_exists.mp ((h.registered t).trans hr.1)
      rw [hys] at hxs
      cases hxs
      rw [if_pos hr.1, Option.getD_some, ← List.append_assoc, h.queues t ys hys ht]
      simp [receivedOf, hr.2]
    · have hd : destination (registeredIn m.log) x ≠ .queue t := fun hd =>
        hr ⟨(of_destination_queue hd).2.2, (of_destination_queue hd).2.1⟩
      rw [if_neg hd] at hxs
      rw [h.queues t xs hxs ht]
      split
      · rename_i hrt
        have hty : x.typeStr ≠ some t := fun hty => hr ⟨hrt, hty⟩
        simp [receivedOf, hty]
      · rw [List.append_nil]
  · rw [hitems] at hxs
    split at hxs
    · rename_i hd
      exact absurd (of_destination_queue hd).1 ht
    · exact h.irregular t xs hxs ht
  · rw [hitems] at ht
    rw [hlog, handedOf_concat, show handedOf t [.received x] = [] from rfl, List.append_nil]
    split at ht
    · cases ht
    · exact h.unregistered t ht
  · rw [hlog, accumulated_concat, hevents]
    simp only
    split
    · rw [List.map_append, List.map_append, h.events, List.map_singleton, List.map_singleton,
        Received.unstamp_stamp]
    · exact h.events

theorem hand (h : Conserved m) (i : ℕ) {t : String} {x : Received} {rest : List Received}
    (ht : m.items t = some (x :: rest)) : Conserved (m.hand i t x rest) where
  registered t' := by
    simp only [Mail.hand, registeredIn_concat, Obs.registers, Bool.or_false, ← h.registered t']
    by_cases h' : t' = t
    · subst h'
      simp [ht]
    · simp [h']
  queues t' xs hxs hreg := by
    simp only [Mail.hand] at hxs ⊢
    rw [handedOf_concat, arrivedSince_concat, show receivedOf t' [.handed i t x] = [] from rfl,
      ite_self, List.append_nil]
    by_cases h' : t' = t
    · subst h'
      rw [Function.update_self] at hxs
      cases hxs
      rw [← h.queues t' _ ht hreg]
      simp [handedOf]
    · rw [Function.update_of_ne h'] at hxs
      rw [← h.queues t' xs hxs hreg]
      simp [handedOf, Ne.symm h']
  irregular t' xs hxs hreg := by
    simp only [Mail.hand] at hxs
    by_cases h' : t' = t
    · subst h'
      cases h.irregular t' _ ht hreg
    · rw [Function.update_of_ne h'] at hxs
      exact h.irregular t' xs hxs hreg
  unregistered t' ht' := by
    simp only [Mail.hand] at ht' ⊢
    by_cases h' : t' = t
    · subst h'
      rw [Function.update_self] at ht'
      cases ht'
    · rw [Function.update_of_ne h'] at ht'
      rw [handedOf_concat, h.unregistered t' ht']
      simp [handedOf, Ne.symm h']
  events := by
    simp only [Mail.hand]
    rw [accumulated_concat]
    exact h.events

theorem clear (h : Conserved m) : Conserved m.clear where
  registered t := by simpa [Mail.clear, Obs.registers] using h.registered t
  queues t xs hxs ht := by
    simp only [Mail.clear]
    rw [handedOf_concat, arrivedSince_concat, show handedOf t [.cleared] = [] from rfl,
      List.append_nil, show receivedOf t [.cleared] = [] from rfl, ite_self, List.append_nil]
    exact h.queues t xs hxs ht
  irregular := h.irregular
  unregistered t ht := by
    simp only [Mail.clear]
    rw [handedOf_concat, show handedOf t [.cleared] = [] from rfl, List.append_nil]
    exact h.unregistered t ht
  events := by
    simp only [Mail.clear]
    rw [accumulated_concat]

theorem getters {i : ℕ} {ts : List String} {m m' : Mail} {got : List (Option Received)}
    (hg : Mail.Getters i ts m got m') (h : Conserved m) : Conserved m' := by
  induction hg with
  | nil m => exact h
  | suspend _ _ ih => exact ih h
  | take hitems _ ih => exact ih (h.hand i hitems)

end Conserved

namespace Loop

/-- **Every step keeps the invariant.** -/
theorem step_conserved {s s' : Loop} {l : Label} (h : Conserved s.mail) (hl : s.step l = some s') :
    Conserved s'.mail := by
  cases step_effect hl with
  | quiet _ hm => exact hm ▸ h
  | received _ hm => exact hm ▸ h.receive ..
  | cleared _ hm => exact hm ▸ h.clear
  | started _ _ hm => exact hm ▸ h.start ..
  | sent _ _ hm => exact hm ▸ h.send ..
  | «local» _ _ _ hm => exact hm ▸ h
  | polled _ _ _ hm => exact hm ▸ h
  | handed _ _ hitems _ hm => exact hm ▸ h.hand _ hitems
  | getters _ hg _ => exact h.getters hg

theorem run_conserved {ls : List Label} {s : Loop} (h : Lts.run step new ls = some s) :
    Conserved s.mail :=
  Lts.run_invariant (I := fun s => Conserved s.mail) Conserved.new
    (fun _ _ _ => step_conserved) h

/-- **Delivery**, for every run of a client. The queues are those of the registered types. For each
registered type that is not special, the messages handed out, followed by the queue, are the
messages of the type received since its registration, in order; the accumulator is, up to its
stamps, what was routed to it since it was last cleared; and the next object received, if its type
is absent, `None` or a string, goes to its one destination and changes nothing else. -/
theorem delivery {ls : List Label} {s : Loop} (h : Lts.run step new ls = some s) :
    (∀ t, (s.items t).isSome = registeredIn s.log t) ∧
      (∀ t xs, s.items t = some xs → Regular t →
        handedOf t s.log ++ xs = arrivedSince t s.log) ∧
      s.client.events.events.map Received.unstamp = (accumulated s.log).map Received.unstamp ∧
      ∀ fields now s', (Json.field fields "type" = .null ∨ ∃ t, Json.field fields "type" = .str t) →
        s.step (.receive (.ok (.obj fields)) now) = some s' →
          s'.mail = s.mail.receive (.obj fields) now ∧ s'.calls = s.calls := by
  have hc := run_conserved h
  refine ⟨hc.registered, hc.queues, hc.events, fun fields now s' htype hs' => ?_⟩
  cases step_cases hs' with
  | receive =>
    refine ⟨?_, (s.receive_cases _ _).1⟩
    have hhash : (Json.field fields "type").hashable = true := by
      rcases htype with h | ⟨t, h⟩ <;> rw [h] <;> rfl
    obtain ⟨c, woken, hd⟩ := s.client.dispatch_hashable s.log.length now hhash
    exact receive_mail hd

/-- Two objects of a registered type arrive, and one of them is handed out. -/
def twoArrivals : List Label :=
  [.connect 0, .receive (.ok (.obj [("type", .str "a")])) 0, .start 0 (.waitFor "a" 5) 1,
    .receive (.ok (.obj [("type", .str "a")])) 2, .receive (.ok (.obj [("type", .str "a")])) 3,
    .resume 0 4, .resume 0 4]

theorem delivery_twoArrivals :
    ∃ s xs, Lts.run step new twoArrivals = some s ∧ s.items "a" = some xs ∧
      (handedOf "a" s.log).length = 1 ∧ xs.length = 1 ∧
      handedOf "a" s.log ++ xs = arrivedSince "a" s.log := by
  have h : Lts.run step new twoArrivals = some _ := rfl
  exact ⟨_, _, h, rfl, rfl, rfl, (delivery h).2.1 "a" _ rfl ⟨by decide, by decide, by decide⟩⟩

/-- Type `t` is registered and an object of the type arrives, but it is neither queued nor handed
out. -/
def Undelivered (t : String) : Prop :=
  ∃ s xs, Lts.run step new
      [.connect 0, .start 0 (.waitFor t 5) 0, .receive (.ok (.obj [("type", .str t)])) 1] = some s ∧
    s.items t = some xs ∧ handedOf t s.log ++ xs ≠ arrivedSince t s.log

/-- Registering one of the special types has no effect. -/
theorem special_undelivered :
    Undelivered "" ∧ Undelivered MsgType.ping ∧ Undelivered MsgType.pong :=
  ⟨⟨_, _, rfl, rfl, fun h => by cases h⟩, ⟨_, _, rfl, rfl, fun h => by cases h⟩,
    ⟨_, _, rfl, rfl, fun h => by cases h⟩⟩

end Loop

end SasTests
