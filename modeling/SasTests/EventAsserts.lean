import SasTests.Registered
import SasTests.Lib.Since

/-!
# Asserting that an event came

`assert_event_occurred` and `assert_no_event` search what is in the accumulator at that moment.
What they can see is decided by the history of the client: an event counts if it came since the
accumulator was last cleared, at a moment when no call had registered a queue for its type
(`unclaimed`). `assertions_exact` says in every state of every run which of the two assertions
passes, which event the first one returns and which time the second one reports.

So `assert_no_event` is blind to a type from the moment at which some call has awaited it, and
always for `ping` and `pong`.
-/

namespace SasTests

open Python Asyncio

namespace EventAccumulator

/-- `assert_event_occurred`. -/
def assertEventOccurred (a : EventAccumulator) (eventType : String) : Except PyError Received :=
  match a.events.find? fun ev => ev.typeIs eventType with
  | some ev => .ok ev
  | none => .error (.assertionError ("Expected event '" ++ eventType ++ "' was never received"))

/-- The message of the `AssertionError` of `assert_no_event`; `str` is `str`. -/
def receivedText (str : Json → String) (eventType : String) (receivedAt : Json) : String :=
  "Event '" ++ eventType ++ "' should not have occurred, but was received at " ++ str receivedAt

/-- `ev.get("_received_at")`; what is kept is always a dictionary. -/
def receivedAt (ev : Received) : Json :=
  match ev.body with
  | .obj fields => Json.field fields "_received_at"
  | _ => .null

/-- `assert_no_event`. -/
def assertNoEvent (str : Json → String) (a : EventAccumulator) (eventType : String) :
    Except PyError Unit :=
  match a.events.find? fun ev => ev.typeIs eventType with
  | some ev => .error (.assertionError (receivedText str eventType (receivedAt ev)))
  | none => .ok ()

/-- The stamp is what is reported, whatever the message says itself. -/
theorem receivedAt_stamp {m : Received} {t : String} (h : m.typeIs t = true) (now : ℚ) :
    receivedAt (m.stamp now) = .num now := by
  obtain ⟨idx, body⟩ := m
  cases body with
  | obj fields => exact Json.field_of_lookup (Json.lookup_assign_self ..) _
  | _ => cases h

/-- Both search for the first event of the type. -/
theorem find?_eq_head? (a : EventAccumulator) (t : String) :
    (a.events.find? fun ev => ev.typeIs t) = (a.getAll (some t)).head? :=
  List.head?_filter.symm

variable {a : EventAccumulator} {t : String}

theorem assertEventOccurred_eq_ok {ev : Received} :
    a.assertEventOccurred t = .ok ev ↔ (a.getAll (some t)).head? = some ev := by
  rw [assertEventOccurred, find?_eq_head?]
  cases (a.getAll (some t)).head? <;> simp

theorem assertNoEvent_eq_ok {str : Json → String} :
    a.assertNoEvent str t = .ok () ↔ a.getAll (some t) = [] := by
  rw [assertNoEvent, find?_eq_head?]
  cases a.getAll (some t) <;> simp

theorem assertNoEvent_of_head? {str : Json → String} {ev : Received}
    (h : (a.getAll (some t)).head? = some ev) :
    a.assertNoEvent str t = .error (.assertionError (receivedText str t (receivedAt ev))) := by
  rw [assertNoEvent, find?_eq_head?, h]

end EventAccumulator

namespace Loop

variable {s s' : Loop} {l : Label} {t : String}

/-! ## What a step leaves in the accumulator -/

/-- The event that a step leaves in the accumulator: the object that it receives, if the receive
loop does not choke on it and the accumulator is where it goes. -/
def leaves (s : Loop) : Label → List Received
  | .receive (.ok (.obj fields)) now =>
    if (Json.field fields "type").hashable ∧ destination (fun t => (s.items t).isSome)
        ⟨s.log.length, .obj fields⟩ = .accumulator then
      [Received.stamp ⟨s.log.length, .obj fields⟩ now]
    else []
  | _ => []

/-- The event of type `t` that a step leaves in the accumulator: the object that it receives, if it
is of that type and nobody has registered a queue for the type. An object of the empty type is never
claimed, and `ping` and `pong` are thrown away. -/
def unclaimed (t : String) (s : Loop) : Label → List Received
  | .receive (.ok msg) now =>
    if Received.typeIs ⟨s.log.length, msg⟩ t ∧ t ≠ MsgType.ping ∧ t ≠ MsgType.pong ∧
        (t = "" ∨ (s.items t).isNone) then
      [Received.stamp ⟨s.log.length, msg⟩ now]
    else []
  | _ => []

theorem eqStr_of_typeIs {fields : List (String × Json)} {idx : ℕ}
    (h : Received.typeIs ⟨idx, .obj fields⟩ t = true) : Json.field fields "type" = .str t :=
  Json.eqStr_iff.mp h

theorem destination_eq_accumulator (registered : String → Bool) {x : Received}
    (hx : x.typeIs t = true) :
    destination registered x = .accumulator ↔
      t ≠ MsgType.ping ∧ t ≠ MsgType.pong ∧ (t = "" ∨ registered t = false) := by
  simp only [destination, (x.typeIs_iff t).mp hx]
  by_cases hi : t = MsgType.ping ∨ t = MsgType.pong
  · rw [if_pos hi]
    refine iff_of_false Destination.noConfusion fun h => ?_
    exact hi.elim h.1 h.2.1
  · rw [if_neg hi]
    obtain ⟨hping, hpong⟩ := not_or.mp hi
    by_cases hq : t ≠ "" ∧ registered t = true
    · rw [if_pos hq]
      refine iff_of_false Destination.noConfusion fun h => ?_
      rcases h.2.2 with h | h
      · exact hq.1 h
      · rw [hq.2] at h
        cases h
    · rw [if_neg hq]
      refine iff_of_true rfl ⟨hping, hpong, ?_⟩
      by_cases he : t = ""
      · exact .inl he
      · exact .inr (Bool.eq_false_iff.mpr fun h => hq ⟨he, h⟩)

/-- What the receive task adds to the accumulator. -/
theorem receive_leaves (s : Loop) (loaded : Except PyError Json) (now : ℚ) :
    (s.receive loaded now).client.events.events =
      s.client.events.events ++ s.leaves (.receive loaded now) := by
  -- a frame on which the loop chokes, or that it skips
  have quiet : s.leaves (.receive loaded now) = [] →
      (s.receive loaded now).waiting = s.waiting →
      (s.receive loaded now).client.events.events =
        s.client.events.events ++ s.leaves (.receive loaded now) := by
    intro hnone hsame
    rw [hnone, List.append_nil]
    exact congrArg (fun w => w.acc.events) hsame
  rcases loaded with e | msg
  · have heff := receive_waitEffect s (.error e) now
    refine quiet rfl ?_
    generalize (s.receive (.error e) now).waiting = w at heff
    cases heff
    rfl
  cases msg with
  | obj fields =>
    by_cases hhash : (Json.field fields "type").hashable = true
    · obtain ⟨c, woken, hd⟩ := s.client.dispatch_hashable s.log.length now hhash
      have hmail := congrArg Mail.events (receive_mail hd)
      rw [leaves]
      simp only [hhash, true_and]
      refine hmail.trans ?_
      change (Mail.deliver _ (destination (fun t => (s.items t).isSome)
        ⟨s.log.length, .obj fields⟩) ⟨s.log.length, .obj fields⟩ now).events = _
      cases destination (fun t => (s.items t).isSome) ⟨s.log.length, .obj fields⟩ with
      | accumulator => rfl
      | _ => exact (List.append_nil _).symm
    · have hd : s.client.dispatch (.ok (.obj fields)) s.log.length now = .error .typeError := by
        simp only [WSClient.dispatch, Json.get_obj, bind, Except.bind, WSClient.inIgnoredTypes,
          if_neg hhash]
      refine quiet (if_neg fun h => hhash h.1) ?_
      rw [receive, hd]
      rfl
  | _ => exact quiet rfl rfl

/-- **What a step adds to the accumulator**, unless it clears it. -/
theorem step_leaves (hl : s.step l = some s') :
    s'.client.events.events =
      (if l.clears then [] else s.client.events.events) ++ s.leaves l := by
  by_cases hreceive : ∃ loaded now, l = .receive loaded now
  · obtain ⟨loaded, now, rfl⟩ := hreceive
    cases step_cases hl with
    | receive => exact receive_leaves ..
  · have hnone : s.leaves l = [] := by
      cases l with
      | receive loaded now => exact absurd ⟨loaded, now, rfl⟩ hreceive
      | _ => rfl
    have heff := step_waitEffect hl
    have hof : s'.client.events.events = s'.waiting.acc.events := rfl
    rw [hnone, List.append_nil, hof]
    generalize s'.waiting = w at heff
    cases heff with
    | quiet hquiet =>
      have hclears : l.clears = false := by
        cases l with
        | events wl => exact absurd rfl (hquiet wl)
        | _ => rfl
      rw [hclears]
      rfl
    | push => exact absurd ⟨_, _, rfl⟩ hreceive
    | @event wl w hpush hw =>
      cases wl with
      | clear =>
        cases hw
        rfl
      | _ => exact Waiting.step_events hw hpush (by simp)

/-- The events of a type among them. -/
theorem filter_leaves (s : Loop) (l : Label) (t : String) :
    ((s.leaves l).filter fun ev => ev.typeIs t) = unclaimed t s l := by
  cases l with
  | receive loaded now =>
    rcases loaded with e | msg
    · rfl
    cases msg with
    | obj fields =>
      cases htype : Received.typeIs ⟨s.log.length, .obj fields⟩ t
      · have hnone : unclaimed t s (.receive (.ok (.obj fields)) now) = [] := by
          rw [unclaimed, htype]
          exact if_neg fun h => Bool.false_ne_true h.1
        rw [hnone, leaves]
        split
        · rw [List.filter_singleton, Received.typeIs_stamp, htype, cond_false]
        · rfl
      · have hhash : (Json.field fields "type").hashable = true := by
          rw [eqStr_of_typeIs htype]
          rfl
        rw [leaves, unclaimed, htype]
        simp only [hhash, true_and, destination_eq_accumulator _ htype, Bool.eq_false_iff, ne_eq,
          Option.not_isSome_iff_eq_none, Option.isNone_iff_eq_none]
        split
        · rw [List.filter_singleton, Received.typeIs_stamp, htype, cond_true]
        · rfl
    | _ => rfl
  | _ => rfl

/-- What a step adds to the events of a type, unless it clears them. -/
theorem step_eventsOf_eq (hl : s.step l = some s') (t : String) :
    s'.eventsOf t = (if l.clears then [] else s.eventsOf t) ++ unclaimed t s l := by
  have hof : ∀ s : Loop, s.eventsOf t = s.client.events.events.filter fun e => e.typeIs t :=
    fun _ => rfl
  rw [hof, hof, step_leaves hl, List.filter_append, filter_leaves]
  cases l.clears <;> rfl

/-- **The events of a type are a ledger**: clearing empties them, and every other step appends the
object that it leaves unclaimed. -/
theorem eventsOf_ledger (t : String) :
    Lts.Ledger step (unclaimed t) Label.clears new (fun s => s.eventsOf t) where
  init := rfl
  resets s l hl := by
    cases l with
    | events => rfl
    | _ => cases hl
  step_eq s l s' hl := step_eventsOf_eq hl t

/-- No object of type `t` has been left unclaimed since the accumulator was last cleared. -/
def NoneCame (t : String) (ls : List Label) : Prop :=
  Lts.Silent step (unclaimed t) Label.clears new ls

/-- A step that leaves an event unclaimed is the arrival of that event. -/
theorem of_unclaimed {ev : Received} (h : ev ∈ unclaimed t s l) :
    ∃ msg now, l = .receive (.ok msg) now ∧ unclaimed t s l = [ev] ∧
      ev = Received.stamp ⟨s.log.length, msg⟩ now ∧
      EventAccumulator.receivedAt ev = .num now := by
  cases l with
  | receive loaded now =>
    rcases loaded with e | msg
    · cases h
    · rw [unclaimed] at h ⊢
      split at h
      · rename_i hcond
        obtain rfl := List.mem_singleton.mp h
        rw [if_pos hcond]
        exact ⟨msg, now, rfl, rfl, rfl, EventAccumulator.receivedAt_stamp hcond.1 now⟩
      · cases h
  | _ => cases h

/-- **The assertions are exact**, in every state of every run. Either no object of the type has
come unclaimed since the accumulator was last cleared, and `assert_no_event` passes while
`assert_event_occurred` fails; or the first of those that have is what `assert_event_occurred`
returns, and the time at which it came is what `assert_no_event` reports.

An object has come unclaimed if no call had registered a queue for its type when it came. The empty
type is never claimed: its objects go to the accumulator although a queue may be registered for
it. -/
theorem assertions_exact {ls : List Label} (h : Lts.run step new ls = some s) (t : String)
    (str : Json → String) :
    (NoneCame t ls ∧ s.client.events.assertNoEvent str t = .ok () ∧
      s.client.events.assertEventOccurred t =
        .error (.assertionError ("Expected event '" ++ t ++ "' was never received"))) ∨
    ∃ before msg now after s₁, ls = before ++ .receive (.ok msg) now :: after ∧
      Lts.run step new before = some s₁ ∧ NoneCame t before ∧ after.any Label.clears = false ∧
      unclaimed t s₁ (.receive (.ok msg) now) = [Received.stamp ⟨s₁.log.length, msg⟩ now] ∧
      s.client.events.assertEventOccurred t = .ok (Received.stamp ⟨s₁.log.length, msg⟩ now) ∧
      s.client.events.assertNoEvent str t =
        .error (.assertionError (EventAccumulator.receivedText str t (.num now))) := by
  have L := eventsOf_ledger t
  rcases hhead : (s.eventsOf t).head? with _ | ev
  · left
    have hnil : s.eventsOf t = [] := List.head?_eq_none_iff.mp hhead
    refine ⟨(L.eq_nil_iff h).mp hnil, EventAccumulator.assertNoEvent_eq_ok.mpr hnil, ?_⟩
    rw [EventAccumulator.assertEventOccurred, EventAccumulator.find?_eq_head?]
    change (s.client.events.getAll (some t)).head? = none at hhead
    rw [hhead]
  · right
    obtain ⟨before, l, after, s₁, hls, hafter, hs₁, hout, hnone⟩ :=
      (L.head?_eq_some_iff h).mp hhead
    obtain ⟨msg, now, rfl, hsingle, rfl, hat⟩ := of_unclaimed (List.mem_of_mem_head? hout)
    refine ⟨before, msg, now, after, s₁, hls, hs₁, hnone, hafter, hsingle,
      EventAccumulator.assertEventOccurred_eq_ok.mpr hhead, ?_⟩
    rw [EventAccumulator.assertNoEvent_of_head? hhead, hat]

/-- A type that a call has awaited: its objects are no events any more. -/
def claimedRun : List Label :=
  [.connect 0, .receive (.ok (.obj [("type", .str "a")])) 1, .events .clear,
    .start 0 (.waitFor "a" 5) 2, .receive (.ok (.obj [("type", .str "a")])) 3,
    .receive (.ok (.obj [("type", .str "b")])) 4]

/-- The object of type `a` that came after the clearing does not count; that of type `b` does. -/
theorem assertions_exact_claimedRun :
    ∃ s, Lts.run step new claimedRun = some s ∧ NoneCame "a" claimedRun ∧
      s.client.events.assertNoEvent (fun _ => "4.0") "b" = .error (.assertionError
        "Event 'b' should not have occurred, but was received at 4.0") := by
  have h : Lts.run step new claimedRun = some _ := rfl
  refine ⟨_, h, ?_, rfl⟩
  rcases assertions_exact h "a" fun _ => "" with hnone | ⟨_, _, _, _, _, _, _, _, _, _, _, herror⟩
  · exact hnone.1
  · cases herror

end Loop

end SasTests
