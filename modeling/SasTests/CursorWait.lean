import SasTests.WSClient

/-!
# Waiting with a cursor

Three helpers of the tests wait for a push that a command causes: `_wait_compliance_event`,
`_wait_status_after` and `_wait_work_mode_after`. The caller takes a timestamp `send_ts`, sends the
command, awaits its reply, and then calls the helper, which polls the accumulator. Its cursor
`next_idx` starts at the end of the accumulator, so a push that comes before the call is skipped
although it is later than `send_ts`; and the loop ends with a sleep, so a push that comes during the
last one is not looked at.

The three are instances of one loop (`CursorLoop`). A run of `Watch` is the pattern around a call,
with pushes at any point. `Prompt` says when the helpers do what they are for: what they wait for is
then found, the earliest first (`served_of_prompt`).
-/

namespace SasTests

open Python

/-! ## The loop -/

/-- What the body of the loop makes of one event. -/
inductive Verdict
  /-- `continue` -/
  | skip
  /-- it keeps `v` in `last_mode`, and goes on -/
  | note (v : Json)
  /-- it returns `v` -/
  | found (v : Json)

/-- What the three loops differ in. -/
structure CursorLoop where
  /-- the body of the `for` loop, given `send_ts` and the event -/
  examine : ℚ → Json → Except PyError Verdict
  /-- `timeout` -/
  timeout : ℚ
  /-- whether the loop is left when no time remains after a scan -/
  breaks : Bool
  /-- what comes after the loop, given `last_mode` -/
  after : Option Json → Except PyError Json

/-- `ev.get("_received_at", 0) <= send_ts` is false. -/
def isLater (sendTs : ℚ) (ev : Json) : Except PyError Bool := do
  let receivedAt ← ev.get "_received_at" (.num 0)
  return !(← receivedAt.leNum sendTs)

/-- `ev.get("type") in _COMPLIANCE_EVENT_TYPES`, which is a set. -/
def isComplianceEvent (ev : Json) : Except PyError Bool := do
  let type ← ev.get "type"
  if type.hashable then
    return type.eqStr "spec_compliance_update" || type.eqStr "spec_compliance_query_response"
  throw .typeError

/-- `ev.get("type") == MsgType.HARDWARE_STATUS_UPDATE` -/
def isStatus (ev : Json) : Except PyError Bool := do
  let type ← ev.get "type"
  return type.eqStr MsgType.hardwareStatusUpdate

/-- `stats["work_mode"]` for `stats = ev.get("data", {}).get("job_statistics", {})`, or nothing if
`"work_mode" not in stats`. -/
def workModeIn (ev : Json) : Except PyError (Option Json) := do
  let data ← ev.get "data" (.obj [])
  let stats ← data.get "job_statistics" (.obj [])
  if ← stats.contains "work_mode" then
    return some (← stats.getItem "work_mode")
  return none

/-- `_wait_compliance_event`. -/
def waitComplianceEvent (timeout : ℚ) : CursorLoop where
  examine sendTs ev := do
    if ← isComplianceEvent ev then
      if ← isLater sendTs ev then return .found ev
    return .skip
  timeout := timeout
  breaks := false
  after _ := .error (.timeoutError
    ("No compliance event received within " ++ fixed1 timeout ++ "s"))

/-- `_wait_status_after`. -/
def waitStatusAfter (timeout : ℚ) (predicate : Option (Json → Except PyError Bool)) :
    CursorLoop where
  examine sendTs ev := do
    if ← isStatus ev then
      if ← isLater sendTs ev then
        match predicate with
        | none => return .found ev
        | some p => if ← p ev then return .found ev
    return .skip
  timeout := timeout
  breaks := false
  after _ := .error (.timeoutError
    ("No matching hardware_status_update within " ++ fixed1 timeout ++ "s"))

/-- `_wait_work_mode_after`. -/
def waitWorkModeAfter (expected : String) (timeout : ℚ) : CursorLoop where
  examine sendTs ev := do
    if ← isStatus ev then
      if ← isLater sendTs ev then
        if let some mode ← workModeIn ev then
          return if mode.eqStr expected then .found mode else .note mode
    return .skip
  timeout := timeout
  breaks := true
  after lastMode := match lastMode with
    | some mode => .ok (if mode.truthy then mode else .str "")
    | none => .ok (.str "")

/-- How one pass of the `for` loop ends. -/
inductive Scan
  /-- it returned `v` on account of `ev` -/
  | found (ev : Received) (v : Json)
  /-- it raised -/
  | raised (e : PyError)
  /-- it has examined everything -/
  | done (nextIdx : ℕ) (last : Option Json)

/-- `for ev in events[next_idx:]` -/
def scan (examine : Json → Except PyError Verdict) :
    List Received → ℕ → Option Json → Scan
  | [], nextIdx, last => .done nextIdx last
  | ev :: evs, nextIdx, last => match examine ev.body with
    | .error e => .raised e
    | .ok .skip => scan examine evs (nextIdx + 1) last
    | .ok (.note v) => scan examine evs (nextIdx + 1) (some v)
    | .ok (.found v) => .found ev v

/-! ## The pattern around a call -/

/-- How a call of a helper ends. -/
inductive Outcome
  /-- it returned `v` from the loop, on account of `ev` -/
  | found (ev : Received) (v : Json)
  /-- it came to the end of the loop -/
  | gaveUp (r : Except PyError Json)
  /-- an exception left the loop -/
  | raised (e : PyError)

/-- Where the caller is. -/
inductive WatchFrame
  /-- before the command -/
  | before
  /-- `send_ts` has been taken; the command is sent, and its reply awaited -/
  | commanding (sendTs : ℚ)
  /-- in the helper, about to test the deadline -/
  | waiting (sendTs deadline : ℚ) (nextIdx : ℕ) (last : Option Json)
  /-- the helper has ended -/
  | ended (sendTs : ℚ) (o : Outcome)

/-- An accumulator, and a caller that commands and waits. -/
structure Watch where
  /-- the accumulator -/
  acc : EventAccumulator
  /-- where the caller is -/
  frame : WatchFrame

namespace Watch

/-- What can happen next. -/
inductive Label
  /-- a message is pushed -/
  | push (message : Received) (now : ℚ)
  /-- the caller takes `send_ts`, and sends the command -/
  | command (now : ℚ)
  /-- the reply is there, and the helper is called -/
  | call (now : ℚ)
  /-- the helper tests the deadline at `now`, and scans what is new; `after` is the time when it
  has -/
  | poll (now after : ℚ)

/-- One atomic step. Nothing happens any more when the helper has ended. -/
def step (w : CursorLoop) (s : Watch) : Label → Option Watch
  | .push message now =>
    match s.frame with
    | .ended _ _ => none
    | _ => some { s with acc := s.acc.push message now }
  | .command now =>
    match s.frame with
    | .before => some { s with frame := .commanding now }
    | _ => none
  | .call now =>
    match s.frame with
    | .commanding sendTs =>
      some { s with frame := .waiting sendTs (now + w.timeout) s.acc.count none }
    | _ => none
  | .poll now after =>
    match s.frame with
    | .waiting sendTs deadline nextIdx last =>
      if now < deadline then
        match scan (w.examine sendTs) ((s.acc.getAll none).drop nextIdx) nextIdx last with
        | .found ev v => some { s with frame := .ended sendTs (.found ev v) }
        | .raised e => some { s with frame := .ended sendTs (.raised e) }
        | .done nextIdx last =>
          if w.breaks ∧ deadline - after ≤ 0 then
            some { s with frame := .ended sendTs (.gaveUp (w.after last)) }
          else some { s with frame := .waiting sendTs deadline nextIdx last }
      else some { s with frame := .ended sendTs (.gaveUp (w.after last)) }
    | _ => none

end Watch

/-! ## What the helpers are for -/

/-- A call of one of the three helpers. -/
inductive CursorWait
  | complianceEvent (timeout : ℚ)
  | statusAfter (timeout : ℚ) (predicate : Option (Json → Except PyError Bool))
  | workModeAfter (expected : String) (timeout : ℚ)

namespace CursorWait

/-- The loop it runs. -/
def loop : CursorWait → CursorLoop
  | complianceEvent timeout => waitComplianceEvent timeout
  | statusAfter timeout predicate => waitStatusAfter timeout predicate
  | workModeAfter expected timeout => waitWorkModeAfter expected timeout

/-- The event has a type the helper waits for. -/
def hasType : CursorWait → Json → Bool
  | complianceEvent _, ev => match isComplianceEvent ev with
    | .ok b => b
    | .error _ => false
  | _, ev => match isStatus ev with
    | .ok b => b
    | .error _ => false

/-- The event meets the predicate, or carries the work mode, that the helper waits for. -/
def accepts : CursorWait → Json → Bool
  | complianceEvent _, _ => true
  | statusAfter _ none, _ => true
  | statusAfter _ (some p), ev => match p ev with
    | .ok b => b
    | .error _ => false
  | workModeAfter expected _, ev => match workModeIn ev with
    | .ok (some mode) => mode.eqStr expected
    | _ => false

/-- The helper waits for this event: it has the type, was received later than `send_ts`, and is
accepted. -/
def wants (w : CursorWait) (sendTs : ℚ) (ev : Json) : Bool :=
  w.hasType ev && (match isLater sendTs ev with
    | .ok b => b
    | .error _ => false) && w.accepts ev

/-- The loop of `_wait_work_mode_after` raises an exception on this event. -/
def chokes (w : CursorWait) (sendTs : ℚ) (ev : Json) : Bool :=
  match w with
  | workModeAfter _ _ => match w.loop.examine sendTs ev with
    | .error _ => true
    | .ok _ => false
  | _ => false

/-- No wanted event comes after one on which the loop chokes. -/
def unobstructed (w : CursorWait) (sendTs : ℚ) : List Received → Bool
  | [] => true
  | ev :: evs =>
    if w.chokes sendTs ev.body then evs.all fun ev => !w.wants sendTs ev.body
    else w.unobstructed sendTs evs

end CursorWait

/-- The accumulator holds nothing that the helper wants. -/
def NoneWanted (w : CursorWait) (sendTs : ℚ) (events : List Received) : Prop :=
  ∀ ev ∈ events, w.wants sendTs ev.body = false

/-- What a helper should have done when it ends, with the accumulator holding `events`: what it
returns is the earliest event it wants, and it does not give up while there is one. -/
def Served (w : CursorWait) (sendTs : ℚ) (events : List Received) : Outcome → Prop
  | .found ev v => match w with
    | .workModeAfter expected _ => v = .str expected
    | _ => v = ev.body ∧ events.find? (fun ev => w.wants sendTs ev.body) = some ev
  | .gaveUp _ => NoneWanted w sendTs events
  | .raised _ => match w with
    | .workModeAfter _ _ => NoneWanted w sendTs events
    | _ => True

/-- The pushes keep clear of the gaps. When the helper is called, the accumulator holds nothing that
it wants; when it gives up, nothing that it has not examined; and no event on which
`_wait_work_mode_after` chokes hides one that it wants. -/
def Prompt (w : CursorWait) (s : Watch) : Watch.Label → Prop
  | .call _ => match s.frame with
    | .commanding sendTs => NoneWanted w sendTs s.acc.events
    | _ => True
  | .poll now _ => match s.frame with
    | .waiting sendTs deadline nextIdx _ =>
      if now < deadline then w.unobstructed sendTs (s.acc.events.drop nextIdx) = true
      else NoneWanted w sendTs (s.acc.events.drop nextIdx)
    | _ => True
  | _ => True

instance (w : CursorWait) (sendTs : ℚ) (events : List Received) :
    Decidable (NoneWanted w sendTs events) :=
  inferInstanceAs (Decidable (∀ ev ∈ events, _))

instance (w : CursorWait) : ∀ s l, Decidable (Prompt w s l)
  | _, .push _ _ | _, .command _ => isTrue trivial
  | ⟨acc, frame⟩, .call _ => match frame with
    | .commanding sendTs => inferInstanceAs (Decidable (NoneWanted w sendTs acc.events))
    | .before | .waiting _ _ _ _ | .ended _ _ => isTrue trivial
  | ⟨acc, frame⟩, .poll now _ => match frame with
    | .waiting sendTs deadline nextIdx _ =>
      inferInstanceAs (Decidable (if now < deadline then
        w.unobstructed sendTs (acc.events.drop nextIdx) = true
        else NoneWanted w sendTs (acc.events.drop nextIdx)))
    | .before | .commanding _ | .ended _ _ => isTrue trivial

/-! ## What the loop finds -/

namespace CursorWait

variable {w : CursorWait} {sendTs : ℚ} {ev : Json}

/-- What one pass of the body makes of an event. -/
theorem examine_cases (w : CursorWait) (sendTs : ℚ) (ev : Json) :
    (w.wants sendTs ev = true ∧ ∃ v, w.loop.examine sendTs ev = .ok (.found v) ∧
        match w with
        | .workModeAfter expected _ => v = .str expected
        | _ => v = ev) ∨
      w.wants sendTs ev = false ∧
        (w.loop.examine sendTs ev = .ok .skip ∨ (∃ v, w.loop.examine sendTs ev = .ok (.note v)) ∨
          ∃ e, w.loop.examine sendTs ev = .error e) := by
  cases w with
  | complianceEvent timeout =>
    simp only [wants, hasType, accepts, loop, waitComplianceEvent, bind, Except.bind]
    rcases isComplianceEvent ev with e | _ | _
    · simp
    · simp [pure, Except.pure]
    · rcases isLater sendTs ev with e | _ | _ <;> simp [pure, Except.pure]
  | statusAfter timeout predicate =>
    simp only [wants, hasType, loop, waitStatusAfter, bind, Except.bind]
    rcases isStatus ev with e | _ | _
    · simp
    · simp [pure, Except.pure]
    rcases isLater sendTs ev with e | _ | _
    · simp
    · simp [pure, Except.pure]
    rcases predicate with _ | p
    · simp [accepts, pure, Except.pure]
    · simp only [accepts]
      rcases p ev with e | _ | _ <;> simp [pure, Except.pure]
  | workModeAfter expected timeout =>
    simp only [wants, hasType, accepts, loop, waitWorkModeAfter, bind, Except.bind]
    rcases isStatus ev with e | _ | _
    · simp
    · simp [pure, Except.pure]
    rcases isLater sendTs ev with e | _ | _
    · simp
    · simp [pure, Except.pure]
    rcases workModeIn ev with e | _ | mode
    · simp
    · simp [pure, Except.pure]
    · cases hmode : mode.eqStr expected
      · simp [hmode, pure, Except.pure]
      · simp [pure, Except.pure, Json.eqStr_iff.mp hmode]

end CursorWait

/-- What one pass of the `for` loop over the new events `evs` comes to. -/
def Scanned (w : CursorWait) (sendTs : ℚ) (evs : List Received) (nextIdx : ℕ) : Scan → Prop
  | .found ev v => ∃ pre post, evs = pre ++ ev :: post ∧ NoneWanted w sendTs pre ∧
      w.wants sendTs ev.body = true ∧ match w with
        | .workModeAfter expected _ => v = .str expected
        | _ => v = ev.body
  | .raised _ => w.unobstructed sendTs evs = true → match w with
      | .workModeAfter _ _ => NoneWanted w sendTs evs
      | _ => True
  | .done nextIdx' _ => nextIdx' = nextIdx + evs.length ∧ NoneWanted w sendTs evs

theorem noneWanted_append {w : CursorWait} {sendTs : ℚ} {evs evs' : List Received} :
    NoneWanted w sendTs (evs ++ evs') ↔ NoneWanted w sendTs evs ∧ NoneWanted w sendTs evs' :=
  List.forall_mem_append

/-- Nothing before the cursor is wanted, and nothing behind it. -/
theorem noneWanted_of_drop {w : CursorWait} {sendTs : ℚ} {events : List Received} {n : ℕ}
    (hold : NoneWanted w sendTs (events.take n)) (hnew : NoneWanted w sendTs (events.drop n)) :
    NoneWanted w sendTs events := by
  have h := noneWanted_append.mpr ⟨hold, hnew⟩
  rwa [List.take_append_drop] at h

theorem noneWanted_cons {w : CursorWait} {sendTs : ℚ} {ev : Received} {evs : List Received} :
    NoneWanted w sendTs (ev :: evs) ↔
      w.wants sendTs ev.body = false ∧ NoneWanted w sendTs evs :=
  List.forall_mem_cons

/-- An event that is not wanted and does not stop the loop is passed over. -/
theorem Scanned.cons {w : CursorWait} {sendTs : ℚ} {ev : Received} {evs : List Received}
    {nextIdx : ℕ} {r : Scan} (hev : w.wants sendTs ev.body = false)
    (hok : w.chokes sendTs ev.body = false) (h : Scanned w sendTs evs (nextIdx + 1) r) :
    Scanned w sendTs (ev :: evs) nextIdx r := by
  cases r with
  | found x v =>
    obtain ⟨pre, post, rfl, hpre, hx⟩ := h
    exact ⟨ev :: pre, post, rfl, noneWanted_cons.mpr ⟨hev, hpre⟩, hx⟩
  | raised e =>
    intro hun
    simp only [CursorWait.unobstructed, hok, Bool.false_eq_true, if_false] at hun
    have := h hun
    cases w with
    | workModeAfter => exact noneWanted_cons.mpr ⟨hev, this⟩
    | _ => trivial
  | done nextIdx' last =>
    obtain ⟨rfl, hevs⟩ := h
    exact ⟨by rw [List.length_cons]; omega, noneWanted_cons.mpr ⟨hev, hevs⟩⟩

/-- **One pass of the `for` loop.** -/
theorem scan_scanned (w : CursorWait) (sendTs : ℚ) (evs : List Received) (nextIdx : ℕ)
    (last : Option Json) :
    Scanned w sendTs evs nextIdx (scan (w.loop.examine sendTs) evs nextIdx last) := by
  induction evs generalizing nextIdx last with
  | nil => exact ⟨rfl, fun _ h => (List.not_mem_nil h).elim⟩
  | cons ev evs ih =>
    have passed : ∀ {verdict}, w.loop.examine sendTs ev.body = .ok verdict →
        w.chokes sendTs ev.body = false := by
      intro verdict hex
      cases w with
      | workModeAfter => simp only [CursorWait.chokes, hex]
      | _ => rfl
    rw [scan]
    rcases w.examine_cases sendTs ev.body with ⟨hev, v, hex, hv⟩ | ⟨hev, hex | ⟨v, hex⟩ | ⟨e, hex⟩⟩
    · rw [hex]
      refine ⟨[], evs, rfl, fun _ h => (List.not_mem_nil h).elim, hev, ?_⟩
      cases w <;> exact hv
    · rw [hex]
      exact (ih (nextIdx + 1) last).cons hev (passed hex)
    · rw [hex]
      exact (ih (nextIdx + 1) (some v)).cons hev (passed hex)
    · rw [hex]
      intro hun
      cases w with
      | workModeAfter expected timeout =>
        have hchokes : (CursorWait.workModeAfter expected timeout).chokes sendTs ev.body = true := by
          simp only [CursorWait.chokes, hex]
        simp only [CursorWait.unobstructed, hchokes, if_true, List.all_eq_true] at hun
        exact noneWanted_cons.mpr ⟨hev, fun x hx => by simpa using hun x hx⟩
      | _ => trivial

/-! ## Runs -/

namespace Watch

/-- What must have been the case for a step to be taken, and where it leads. -/
inductive Stepped (w : CursorLoop) (s : Watch) : Label → Watch → Prop
  | push {message : Received} {now : ℚ} : (∀ sendTs o, s.frame ≠ .ended sendTs o) →
      Stepped w s (.push message now) { s with acc := s.acc.push message now }
  | command {now : ℚ} : s.frame = .before →
      Stepped w s (.command now) { s with frame := .commanding now }
  | call {now sendTs : ℚ} : s.frame = .commanding sendTs →
      Stepped w s (.call now) { s with
        frame := .waiting sendTs (now + w.timeout) s.acc.count none }
  | found {now after sendTs deadline : ℚ} {nextIdx : ℕ} {last : Option Json} {ev : Received}
      {v : Json} : s.frame = .waiting sendTs deadline nextIdx last → now < deadline →
      scan (w.examine sendTs) ((s.acc.getAll none).drop nextIdx) nextIdx last = .found ev v →
      Stepped w s (.poll now after) { s with frame := .ended sendTs (.found ev v) }
  | raised {now after sendTs deadline : ℚ} {nextIdx : ℕ} {last : Option Json} {e : PyError} :
      s.frame = .waiting sendTs deadline nextIdx last → now < deadline →
      scan (w.examine sendTs) ((s.acc.getAll none).drop nextIdx) nextIdx last = .raised e →
      Stepped w s (.poll now after) { s with frame := .ended sendTs (.raised e) }
  /-- the loop is left behind the events -/
  | breaks {now after sendTs deadline : ℚ} {nextIdx nextIdx' : ℕ} {last last' : Option Json} :
      s.frame = .waiting sendTs deadline nextIdx last → now < deadline →
      scan (w.examine sendTs) ((s.acc.getAll none).drop nextIdx) nextIdx last =
        .done nextIdx' last' → w.breaks ∧ deadline - after ≤ 0 →
      Stepped w s (.poll now after) { s with frame := .ended sendTs (.gaveUp (w.after last')) }
  | goesOn {now after sendTs deadline : ℚ} {nextIdx nextIdx' : ℕ} {last last' : Option Json} :
      s.frame = .waiting sendTs deadline nextIdx last → now < deadline →
      scan (w.examine sendTs) ((s.acc.getAll none).drop nextIdx) nextIdx last =
        .done nextIdx' last' → ¬(w.breaks ∧ deadline - after ≤ 0) →
      Stepped w s (.poll now after) { s with frame := .waiting sendTs deadline nextIdx' last' }
  /-- the deadline has passed -/
  | expires {now after sendTs deadline : ℚ} {nextIdx : ℕ} {last : Option Json} :
      s.frame = .waiting sendTs deadline nextIdx last → ¬ now < deadline →
      Stepped w s (.poll now after) { s with frame := .ended sendTs (.gaveUp (w.after last)) }

/-- Inversion of a step. -/
theorem step_cases {w : CursorLoop} {s s' : Watch} {l : Label} (h : s.step w l = some s') :
    Stepped w s l s' := by
  cases l with
  | push message now =>
    simp only [step] at h
    split at h
    · cases h
    · rename_i hframe
      obtain rfl := Option.some.inj h
      exact .push hframe
  | command now =>
    simp only [step] at h
    split at h
    · rename_i hframe
      obtain rfl := Option.some.inj h
      exact .command hframe
    · cases h
  | call now =>
    simp only [step] at h
    split at h
    · rename_i hframe
      obtain rfl := Option.some.inj h
      exact .call hframe
    · cases h
  | poll now after =>
    simp only [step] at h
    split at h
    · rename_i hframe
      split at h
      · rename_i hnow
        split at h
        · rename_i hscan
          obtain rfl := Option.some.inj h
          exact .found hframe hnow hscan
        · rename_i hscan
          obtain rfl := Option.some.inj h
          exact .raised hframe hnow hscan
        · rename_i hscan
          split at h
          · rename_i hbreaks
            obtain rfl := Option.some.inj h
            exact .breaks hframe hnow hscan hbreaks
          · rename_i hbreaks
            obtain rfl := Option.some.inj h
            exact .goesOn hframe hnow hscan hbreaks
      · rename_i hnow
        obtain rfl := Option.some.inj h
        exact .expires hframe hnow
    · cases h

/-- What is known of a call in progress, and of one that has ended. -/
def Tracked (w : CursorWait) (s : Watch) : Prop :=
  match s.frame with
  | .waiting sendTs _ nextIdx _ => nextIdx ≤ s.acc.events.length ∧
      NoneWanted w sendTs (s.acc.events.take nextIdx)
  | .ended sendTs o => Served w sendTs s.acc.events o
  | _ => True

/-- A pass over the new events, when nothing before them is wanted. -/
theorem served_of_scanned {w : CursorWait} {sendTs : ℚ} {events : List Received} {nextIdx : ℕ}
    {ev : Received} {v : Json} (hold : NoneWanted w sendTs (events.take nextIdx))
    (h : Scanned w sendTs (events.drop nextIdx) nextIdx (.found ev v)) :
    Served w sendTs events (.found ev v) := by
  obtain ⟨pre, post, hdrop, hpre, hev, hv⟩ := h
  have hfind : events.find? (fun ev => w.wants sendTs ev.body) = some ev := by
    refine List.find?_eq_some_iff_append.mpr ⟨hev, events.take nextIdx ++ pre, post, ?_, ?_⟩
    · rw [List.append_assoc, ← hdrop, List.take_append_drop]
    · intro x hx
      simpa using noneWanted_append.mpr ⟨hold, hpre⟩ x hx
  cases w with
  | workModeAfter => exact hv
  | _ => exact ⟨hv, hfind⟩

/-- A pass that comes to the end, when nothing before the new events is wanted. -/
theorem noneWanted_of_scanned {w : CursorWait} {sendTs : ℚ} {events : List Received}
    {nextIdx nextIdx' : ℕ} {last : Option Json} (hle : nextIdx ≤ events.length)
    (hold : NoneWanted w sendTs (events.take nextIdx))
    (h : Scanned w sendTs (events.drop nextIdx) nextIdx (.done nextIdx' last)) :
    nextIdx' = events.length ∧ NoneWanted w sendTs events := by
  obtain ⟨rfl, hnew⟩ := h
  exact ⟨by rw [List.length_drop]; omega, noneWanted_of_drop hold hnew⟩

/-- A push comes behind the cursor. -/
theorem Tracked.push {w : CursorWait} {s : Watch} (h : s.Tracked w)
    (hframe : ∀ sendTs o, s.frame ≠ .ended sendTs o) (message : Received) (now : ℚ) :
    Tracked w { s with acc := s.acc.push message now } := by
  obtain ⟨acc, frame⟩ := s
  cases frame with
  | ended sendTs o => exact absurd rfl (hframe sendTs o)
  | waiting sendTs deadline nextIdx last =>
    obtain ⟨hle, hold⟩ : nextIdx ≤ acc.events.length ∧
      NoneWanted w sendTs (acc.events.take nextIdx) := h
    refine ⟨?_, ?_⟩
    · simp only [EventAccumulator.push, List.length_append]
      exact hle.trans (Nat.le_add_right ..)
    · simp only [EventAccumulator.push]
      rwa [List.take_append_of_le_length hle]
  | before | commanding => trivial

/-- **Every prompt step keeps track.** -/
theorem step_tracked {w : CursorWait} {s s' : Watch} {l : Label} (h : s.Tracked w)
    (hC : Prompt w s l) (hl : s.step w.loop l = some s') : s'.Tracked w := by
  have scanned : ∀ {sendTs nextIdx last r}, scan (w.loop.examine sendTs)
      ((s.acc.getAll none).drop nextIdx) nextIdx last = r →
        Scanned w sendTs (s.acc.events.drop nextIdx) nextIdx r := by
    rintro sendTs nextIdx last _ rfl
    exact scan_scanned w sendTs (s.acc.events.drop nextIdx) nextIdx last
  have waiting : ∀ {sendTs deadline nextIdx last},
      s.frame = .waiting sendTs deadline nextIdx last →
        nextIdx ≤ s.acc.events.length ∧ NoneWanted w sendTs (s.acc.events.take nextIdx) := by
    intro sendTs deadline nextIdx last hframe
    simpa only [Tracked, hframe] using h
  cases step_cases hl with
  | push hframe => exact h.push hframe _ _
  | command => trivial
  | call hframe =>
    simp only [Prompt, hframe] at hC
    -- the cursor starts at the end, so all that is there must be unwanted
    refine ⟨le_rfl, ?_⟩
    rw [EventAccumulator.count, List.take_length]
    exact hC
  | found hframe _ hscan => exact served_of_scanned (waiting hframe).2 (scanned hscan)
  | raised hframe hnow hscan =>
    simp only [Prompt, hframe, if_pos hnow] at hC
    have hraised := scanned hscan hC
    cases w with
    | workModeAfter => exact noneWanted_of_drop (waiting hframe).2 hraised
    | _ => trivial
  | breaks hframe _ hscan =>
    obtain ⟨hle, hold⟩ := waiting hframe
    exact (noneWanted_of_scanned hle hold (scanned hscan)).2
  | goesOn hframe _ hscan =>
    obtain ⟨hle, hold⟩ := waiting hframe
    obtain ⟨hidx, hnone⟩ := noneWanted_of_scanned hle hold (scanned hscan)
    refine ⟨hidx.le, ?_⟩
    rw [hidx, List.take_length]
    exact hnone
  | expires hframe hnow =>
    -- the deadline is tested before the new events are looked at
    simp only [Prompt, hframe, if_neg hnow] at hC
    exact noneWanted_of_drop (waiting hframe).2 hC

/-- **No push after the command is missed**, in every run in which the pushes keep clear of the
gaps: a helper that returns an event returns the earliest one it wants, and it does not give up
while the accumulator holds one. -/
theorem served_of_prompt {w : CursorWait} {acc : EventAccumulator} {ls : List Label} {s : Watch}
    (hC : Lts.Along (step w.loop) (Prompt w) ⟨acc, .before⟩ ls)
    (h : Lts.run (step w.loop) ⟨acc, .before⟩ ls = some s) {sendTs : ℚ} {o : Outcome}
    (ho : s.frame = .ended sendTs o) : Served w sendTs s.acc.events o := by
  have hs : s.Tracked w :=
    Lts.run_invariant_along (show Tracked w ⟨acc, .before⟩ from trivial)
      (fun _ _ _ => step_tracked) hC h
  simpa only [Tracked, ho] using hs

/-- A push that comes after the helper has been called, in time for its next poll. -/
def promptPush : List Label :=
  [.command 0, .call 1, .poll 1 1, .push ⟨0, .obj [("type", .str "spec_compliance_update")]⟩ 2,
    .poll 3 3]

theorem served_of_prompt_promptPush :
    ∃ s sendTs ev v,
      Lts.run (step (CursorWait.complianceEvent 6).loop) ⟨.new, .before⟩ promptPush = some s ∧
      s.frame = .ended sendTs (.found ev v) ∧
      Served (.complianceEvent 6) sendTs s.acc.events (.found ev v) := by
  have hrun : ((Lts.run (step (CursorWait.complianceEvent 6).loop) ⟨.new, .before⟩
      promptPush).any fun s => match s.frame with
        | .ended _ (.found _ _) => true
        | _ => false) = true := by decide +kernel
  have hC : Lts.Along (step (CursorWait.complianceEvent 6).loop) (Prompt (.complianceEvent 6))
      ⟨.new, .before⟩ promptPush := by decide +kernel
  obtain ⟨s, hs, hlast⟩ := (Option.any_eq_true ..).mp hrun
  split at hlast
  · rename_i sendTs ev v hframe
    exact ⟨s, sendTs, ev, v, hs, hframe, served_of_prompt hC hs hframe⟩
  · cases hlast

/-- The event comes after the command and before the helper is called, and the helper gives up
while the accumulator holds it. -/
def MissesEarly (w : CursorWait) (ev : Received) : Prop :=
  ∃ s sendTs r, Lts.run (step w.loop) ⟨.new, .before⟩
      [.command 0, .push ev 1, .call 2, .poll 2 2, .poll 8 8] = some s ∧
    s.frame = .ended sendTs (.gaveUp r) ∧ ¬ Served w sendTs s.acc.events (.gaveUp r)

theorem MissesEarly.of_run {w : CursorWait} {ev : Received}
    (h : ((Lts.run (step w.loop) ⟨.new, .before⟩
      [.command 0, .push ev 1, .call 2, .poll 2 2, .poll 8 8]).any fun s => match s.frame with
        | .ended sendTs (.gaveUp _) => s.acc.events.any fun ev => w.wants sendTs ev.body
        | _ => false) = true) : MissesEarly w ev := by
  obtain ⟨s, hs, hlast⟩ := (Option.any_eq_true ..).mp h
  split at hlast
  · rename_i sendTs r hframe
    refine ⟨s, sendTs, r, hs, hframe, fun hnone => ?_⟩
    obtain ⟨x, hx, hwants⟩ := List.any_eq_true.mp hlast
    rw [hnone x hx] at hwants
    cases hwants
  · cases hlast

/-- All three helpers miss a push that comes while the reply is awaited. -/
theorem early_push_missed :
    MissesEarly (.complianceEvent 6) ⟨0, .obj [("type", .str "spec_compliance_update")]⟩ ∧
      MissesEarly (.statusAfter 6 none) ⟨0, .obj [("type", .str "hardware_status_update")]⟩ ∧
      MissesEarly (.workModeAfter "screw" 6) ⟨0, .obj [("type", .str "hardware_status_update"),
        ("data", .obj [("job_statistics", .obj [("work_mode", .str "screw")])])]⟩ :=
  ⟨.of_run (by decide +kernel), .of_run (by decide +kernel), .of_run (by decide +kernel)⟩

end Watch

end SasTests
