import SasTests.CheckTorqueConstraints
import SasTests.PfopEnv

/-!
# Reading settings, changing them, and putting them back

The tests of the peripherals have one shape. They read the settings of a subsystem, write changed
settings, read again and compare, and at last write back what they had read first. There is no
`finally`: whatever goes wrong on the way leaves the changed settings on the device.

`Roundtrip.test` is this shape, and each test is an instance of it. The device is a store (`Device`)
with an answer to each of the four requests (`Answers`).

* `ends_eq_iff` — exactly when the settings are afterwards what they were.
* `passes_iff` — what a test comes down to on a device that reports success at every request.
* `Fits.run_eq_ok` — it passes on a device that works, if the settings are those that it is about.
-/

namespace SasTests

open Python Python.Json Exits
open PfopEnv (Fields Answer)
open CheckTorqueConstraints (iterate)

namespace ConfigRoundtrip

/-! ## The device -/

/-- A device that stores settings: it reports what is stored under the names that it knows, and
storing what it reported undoes any change. -/
structure Device (σ : Type) where
  /-- the settings that it reports -/
  report : σ → Fields
  /-- its state after it has stored settings -/
  store : Fields → σ → σ
  lookup_store : ∀ fields s key value, fields.lookup key = some value →
    ((report s).lookup key).isSome = true → (report (store fields s)).lookup key = some value
  store_report : ∀ fields s, (∀ key, (fields.lookup key).isSome = true →
    ((report s).lookup key).isSome = true) → store (report s) (store fields s) = s

/-- A device that keeps what was written last. -/
def Device.replacing : Device Fields where
  report s := s
  store fields _ := fields
  lookup_store _ _ _ _ h _ := h
  store_report _ _ _ := rfl

/-- What the device does with each of the requests in each of its states. -/
structure Answers (σ : Type) where
  /-- with the first reading -/
  base : σ → Answer
  /-- with the changed settings -/
  save : σ → Answer
  /-- with the second reading -/
  after : σ → Answer
  /-- with the settings that are put back -/
  restore : σ → Answer

/-- The reply with the settings. -/
def reading (fields : Fields) : Fields := [("success", .bool true), ("data", .obj fields)]

/-- A device that reports success at every request. -/
def honest {σ : Type} (report : σ → Fields) : Answers σ where
  base s := .reply (reading (report s))
  save _ := .reply [("success", .bool true)]
  after s := .reply (reading (report s))
  restore _ := .reply [("success", .bool true)]

/-! ## The tests -/

/-- How a test ends early. -/
inductive Exit
  /-- `pytest.skip`, with what is not available and the error reported -/
  | skipped (action : String) (error : Json)
  /-- `pytest.skip`, because there is nothing to change -/
  | nothing
  /-- an `assert` fails -/
  | failed
  /-- an exception comes out of it -/
  | raised (e : PyError)

/-- A part of a test on a device with states in `σ`. -/
abbrev Test (σ α : Type) : Type := EStateM Exit σ α

/-- `x is True` -/
def isTrue : Json → Bool
  | .bool b => b
  | _ => false

/-- `x is False` -/
def isFalse : Json → Bool
  | .bool b => !b
  | _ => false

/-- `resp.get("success") is True` -/
def succeeded (resp : Fields) : Bool := isTrue (field resp "success")

/-- `resp.get("success") is False` -/
def refused (resp : Fields) : Bool := isFalse (field resp "success")

section

variable {σ α : Type}

/-- An operation that may end the test. -/
def exiting : Except Exit α → Test σ α
  | .ok a => pure a
  | .error e => throw e

/-- An operation that may raise. -/
def raising : Except PyError α → Except Exit α
  | .ok a => .ok a
  | .error e => .error (.raised e)

/-- What comes out of waiting for the reply. -/
def received (responseType : String) : Answer → Except Exit Fields
  | .reply fields => .ok fields
  | .silence _ => .error (.raised (.timeoutError
      ("No '" ++ responseType ++ "' response within " ++ fixed1 defaultWsTimeout ++ "s")))

/-- The device handles the request: it changes its state if it carries the request out. -/
def handle (answers : σ → Answer) (change : σ → σ) (s : σ) : σ :=
  if (answers s).done then change s else s

/-- `await ws.request(message, response_type)`, for a request that changes the state by `change`. -/
def request (responseType : String) (answers : σ → Answer) (change : σ → σ) : Test σ Fields := do
  let s ← get
  set (handle answers change s)
  exiting (received responseType (answers s))

/-- `_ensure_success_or_skip` -/
def ensureSuccessOrSkip (resp : Fields) (action : String) : Except Exit Unit :=
  if refused resp then .error (.skipped action (field resp "error")) else .ok ()

/-- `assert c` -/
def assert (c : Bool) : Except Exit Unit := if c then .ok () else .error .failed

end

/-- A dictionary; nothing else has a `get`. -/
def asFields : Json → Except PyError Fields
  | .obj fields => .ok fields
  | _ => .error .attributeError

/-- The changed settings of a test. -/
structure Change where
  /-- what it writes: `target` -/
  target : Fields
  /-- what it asserts of the second reply -/
  check : Fields → Except PyError Bool

/-- What one of the tests reads, writes and compares. -/
structure Roundtrip where
  /-- the type of the request that reads -/
  get : String
  /-- the type of the request that writes -/
  set : String
  /-- Does a refused request fail the test once the first reading is there? Else it skips it. -/
  strict : Bool
  /-- the settings in the first reply: `before` -/
  before : Fields → Except PyError Fields
  /-- what it makes of them -/
  change : Fields → Except Exit Change

namespace Roundtrip

variable {σ : Type} (r : Roundtrip)

/-- What is asserted of the reply to the changed settings. -/
def saved (resp : Fields) : Except Exit Unit := do
  unless r.strict do ensureSuccessOrSkip resp r.set
  assert (succeeded resp)

/-- What is asserted of the second reading before it is compared. -/
def reread (resp : Fields) : Except Exit Unit :=
  if r.strict then assert (succeeded resp) else ensureSuccessOrSkip resp r.get

/-- The test from the second reading on. -/
def compare (store : Fields → σ → σ) (answers : Answers σ) (before : Fields) (change : Change) :
    Test σ Unit := do
  let after ← request (r.get ++ "_response") answers.after id
  exiting (r.reread after)
  let agreed ← exiting (raising (change.check after))
  exiting (assert agreed)
  discard <| request (r.set ++ "_response") answers.restore (store before)

/-- The test from the changed settings on. -/
def write (store : Fields → σ → σ) (answers : Answers σ) (before : Fields) (change : Change) :
    Test σ Unit := do
  let save ← request (r.set ++ "_response") answers.save (store change.target)
  exiting (r.saved save)
  r.compare store answers before change

/-- The test. -/
def test (store : Fields → σ → σ) (answers : Answers σ) : Test σ Unit := do
  let base ← request (r.get ++ "_response") answers.base id
  exiting (ensureSuccessOrSkip base r.get)
  let before ← exiting (raising (r.before base))
  let change ← exiting (r.change before)
  r.write store answers before change

end Roundtrip

/-! ## Ways out -/

section

variable {σ α β : Type} {s : σ} {Q : σ → Prop} {f : α → Test σ β} {x : Except Exit α}

theorem ends_exiting_ok {a : α} (h : x = .ok a) : Ends (exiting x >>= f) s Q ↔ Ends (f a) s Q := by
  apply ends_bind_of_ok
  rw [h]
  rfl

theorem ends_exiting_error {e : Exit} (h : x = .error e) : Ends (exiting x >>= f) s Q ↔ Q s := by
  apply ends_bind_of_error
  rw [h]
  rfl

/-- Where leaving is as good as going on, only going on has to be looked at. -/
theorem ends_exiting_of_holds (h : Q s) :
    Ends (exiting x >>= f) s Q ↔ ∀ a, x = .ok a → Ends (f a) s Q := by
  rcases hx : x with e | a
  · rw [← hx, ends_exiting_error hx, hx]
    exact iff_of_true h fun a ha => by cases ha
  · rw [← hx, ends_exiting_ok hx, hx]
    exact ⟨fun hf b hb => Except.ok.inj hb ▸ hf, fun hf => hf a rfl⟩

/-- Where leaving is wrong the step has to go on. -/
theorem ends_exiting_of_not (h : ¬Q s) :
    Ends (exiting x >>= f) s Q ↔ ∃ a, x = .ok a ∧ Ends (f a) s Q := by
  rcases hx : x with e | a
  · rw [← hx, ends_exiting_error hx, hx]
    exact iff_of_false h fun ⟨a, ha, _⟩ => by cases ha
  · rw [← hx, ends_exiting_ok hx, hx]
    exact ⟨fun hf => ⟨a, rfl, hf⟩, fun ⟨b, hb, hf⟩ => Except.ok.inj hb ▸ hf⟩

@[simp] theorem raising_eq_ok {y : Except PyError α} {a : α} : raising y = .ok a ↔ y = .ok a := by
  cases y <;> simp [raising]

@[simp] theorem received_eq_ok {t : String} {answer : Answer} {resp : Fields} :
    received t answer = .ok resp ↔ answer = .reply resp := by
  cases answer <;> simp [received]

@[simp] theorem assert_eq_ok {c : Bool} {a : Unit} : assert c = .ok a ↔ c = true := by
  cases c <;> simp [assert]

@[simp] theorem ensureSuccessOrSkip_eq_ok {resp : Fields} {action : String} {a : Unit} :
    ensureSuccessOrSkip resp action = .ok a ↔ refused resp = false := by
  cases h : refused resp <;> simp [ensureSuccessOrSkip, h]

variable {g : Fields → Test σ β} {t : String} {answers : σ → Answer} {change : σ → σ}

theorem ends_request : Ends (request t answers change >>= g) s Q ↔
    Ends (exiting (received t (answers s)) >>= g) (handle answers change s) Q := Iff.rfl

/-- Reading changes nothing. -/
theorem handle_id : handle answers id s = s := ite_self s

/-- The last request. -/
theorem ends_discard_request :
    Ends (discard (request t answers change)) s Q ↔ Q (handle answers change s) := by
  change Ends (exiting (received t (answers s)) >>= fun _ => pure ()) (handle answers change s) Q
    ↔ _
  cases answers s <;> exact Iff.rfl

theorem request_reply {f : σ → Fields}
    (h : (Answer.reply (f s)).done = true) :
    (request t (fun s => .reply (f s)) change >>= g).run s = (g (f s)).run (change s) := by
  have hhandle : handle (fun s => .reply (f s)) change s = change s := if_pos h
  show (g (f s)).run (handle (fun s => .reply (f s)) change s) = _
  rw [hhandle]

theorem bind_exiting {a : α} (h : x = .ok a) : (exiting x >>= f).run s = (f a).run s := by
  rw [h]
  rfl

end

/-- What is `True` is not `False`. -/
theorem refused_of_succeeded {resp : Fields} (h : succeeded resp = true) :
    refused resp = false := by
  rw [succeeded] at h
  rw [refused]
  generalize field resp "success" = success at h ⊢
  cases success with
  | bool b =>
    rw [isTrue] at h
    rw [isFalse, h]
    rfl
  | _ => rfl

/-- What is `True` is a success. -/
theorem done_of_succeeded {resp : Fields} (h : succeeded resp = true) :
    (Answer.reply resp).done = true := by
  rw [succeeded] at h
  rw [Answer.done]
  generalize field resp "success" = success at h ⊢
  cases success with
  | bool b => exact h
  | _ => cases h

namespace Roundtrip

variable {σ : Type} {r : Roundtrip} {store : Fields → σ → σ} {answers : Answers σ}
variable {before : Fields} {change : Change} {s : σ} {Q : σ → Prop}

@[simp] theorem saved_eq_ok {resp : Fields} {a : Unit} :
    r.saved resp = .ok a ↔ succeeded resp = true := by
  rw [saved]
  cases r.strict with
  | true => exact assert_eq_ok
  | false =>
    rw [ensureSuccessOrSkip]
    cases hrefused : refused resp with
    | true =>
      refine iff_of_false (fun h => by cases h) fun h => ?_
      rw [refused_of_succeeded h] at hrefused
      cases hrefused
    | false => exact assert_eq_ok

/-- The second reading is answered with what the test accepts. -/
def Agrees (r : Roundtrip) (answers : Answers σ) (change : Change) (s : σ) : Prop :=
  ∃ resp, answers.after s = .reply resp ∧ r.reread resp = .ok () ∧ change.check resp = .ok true

theorem ends_compare_of_holds (h : Q s) : Ends (r.compare store answers before change) s Q ↔
    (r.Agrees answers change s → Q (handle answers.restore (store before) s)) := by
  rw [compare, ends_request, handle_id, ends_exiting_of_holds h]
  simp only [ends_exiting_of_holds h, ends_discard_request, received_eq_ok, raising_eq_ok,
    assert_eq_ok, Agrees]
  constructor
  · rintro hQ ⟨resp, hresp, hreread, hcheck⟩
    exact hQ resp hresp () hreread true hcheck () rfl
  · intro hQ resp hresp _ hreread agreed hcheck _ hagreed
    rw [hagreed] at hcheck
    exact hQ ⟨resp, hresp, hreread, hcheck⟩

theorem ends_compare_of_not (h : ¬Q s) : Ends (r.compare store answers before change) s Q ↔
    r.Agrees answers change s ∧ Q (handle answers.restore (store before) s) := by
  rw [compare, ends_request, handle_id, ends_exiting_of_not h]
  simp only [ends_exiting_of_not h, ends_discard_request, received_eq_ok, raising_eq_ok,
    assert_eq_ok, Agrees]
  constructor
  · rintro ⟨resp, hresp, _, hreread, agreed, hcheck, _, hagreed, hQ⟩
    rw [hagreed] at hcheck
    exact ⟨⟨resp, hresp, hreread, hcheck⟩, hQ⟩
  · rintro ⟨⟨resp, hresp, hreread, hcheck⟩, hQ⟩
    exact ⟨resp, hresp, (), hreread, true, hcheck, (), rfl, hQ⟩

/-- The test writes `change`, after it has read `before`. -/
def Writes (r : Roundtrip) (answers : Answers σ) (s : σ) (before : Fields) (change : Change) :
    Prop :=
  ∃ base, answers.base s = .reply base ∧ refused base = false ∧ r.before base = .ok before ∧
    r.change before = .ok change

/-- The changed settings are reported as stored. -/
def Saved (answers : Answers σ) (s : σ) : Prop :=
  ∃ resp, answers.save s = .reply resp ∧ succeeded resp = true

theorem ends_write_of_holds (h : Q (handle answers.save (store change.target) s)) :
    Ends (r.write store answers before change) s Q ↔
      (Saved answers s → r.Agrees answers change (handle answers.save (store change.target) s) →
        Q (handle answers.restore (store before)
          (handle answers.save (store change.target) s))) := by
  rw [write, ends_request, ends_exiting_of_holds h]
  simp only [ends_exiting_of_holds h, ends_compare_of_holds h, received_eq_ok, saved_eq_ok, Saved]
  constructor
  · rintro hQ ⟨resp, hresp, hsaved⟩
    exact hQ resp hresp () hsaved
  · intro hQ resp hresp _ hsaved
    exact hQ ⟨resp, hresp, hsaved⟩

theorem ends_write_of_not (h : ¬Q (handle answers.save (store change.target) s)) :
    Ends (r.write store answers before change) s Q ↔
      Saved answers s ∧ r.Agrees answers change (handle answers.save (store change.target) s) ∧
        Q (handle answers.restore (store before)
          (handle answers.save (store change.target) s)) := by
  rw [write, ends_request, ends_exiting_of_not h]
  simp only [ends_exiting_of_not h, ends_compare_of_not h, received_eq_ok, saved_eq_ok, Saved]
  constructor
  · rintro ⟨resp, hresp, _, hsaved, hagrees⟩
    exact ⟨⟨resp, hresp, hsaved⟩, hagrees⟩
  · rintro ⟨⟨resp, hresp, hsaved⟩, hagrees⟩
    exact ⟨resp, hresp, (), hsaved, hagrees⟩

/-- Up to the changed settings nothing happens to the device. -/
theorem ends_test (h : Q s) : Ends (r.test store answers) s Q ↔
    ∀ before change, r.Writes answers s before change →
      Ends (r.write store answers before change) s Q := by
  rw [test, ends_request, handle_id, ends_exiting_of_holds h]
  simp only [ends_exiting_of_holds h, received_eq_ok, raising_eq_ok, ensureSuccessOrSkip_eq_ok]
  constructor
  · rintro hQ before change ⟨base, hbase, hrefused, hbefore, hchange⟩
    exact hQ base hbase () hrefused before hbefore change hchange
  · intro hQ base hbase _ hrefused before hbefore change hchange
    exact hQ before change ⟨base, hbase, hrefused, hbefore, hchange⟩

/-- **The test leaves the settings as they were** if and only if what it wrote changed nothing, or
the device reports success, then reads back what the test wants, and stores what is put back. -/
theorem ends_eq_iff (dev : Device σ)
    (hbase : ∀ base before, answers.base s = .reply base → r.before base = .ok before →
      before = dev.report s)
    (hknown : ∀ change, r.change (dev.report s) = .ok change → ∀ key,
      (change.target.lookup key).isSome = true → ((dev.report s).lookup key).isSome = true) :
    Ends (r.test dev.store answers) s (· = s) ↔
      ∀ before change, r.Writes answers s before change → (answers.save s).done = true →
        dev.store change.target s ≠ s →
          Saved answers s ∧ r.Agrees answers change (dev.store change.target s) ∧
            (answers.restore (dev.store change.target s)).done = true := by
  rw [ends_test (Q := (· = s)) rfl]
  refine forall_congr' fun before => forall_congr' fun change => forall_congr' fun hwrites => ?_
  -- storing what the device reported at first undoes the change
  have hundo : dev.store before (dev.store change.target s) = s := by
    obtain ⟨base, hreply, -, hbefore, hchange⟩ := hwrites
    obtain rfl := hbase base before hreply hbefore
    exact dev.store_report change.target s (hknown change hchange)
  by_cases hdone : (answers.save s).done = true
  · have hhandle : handle answers.save (dev.store change.target) s = dev.store change.target s :=
      if_pos hdone
    rw [forall_prop_of_true hdone]
    by_cases hsame : dev.store change.target s = s
    · rw [ends_write_of_holds (Q := (· = s)) (hhandle.trans hsame), hhandle]
      refine iff_of_true (fun _ _ => ?_) fun h => absurd hsame h
      rw [hsame] at hundo ⊢
      rw [handle, hundo, ite_self]
    · have hchanged : ¬handle answers.save (dev.store change.target) s = s := by
        rw [hhandle]
        exact hsame
      rw [ends_write_of_not (Q := (· = s)) hchanged, hhandle, forall_prop_of_true hsame]
      refine and_congr_right fun _ => and_congr_right fun _ => ?_
      rw [handle, hundo, ite_eq_left_iff]
      cases (answers.restore (dev.store change.target s)).done <;> simp [hsame]
  · have hhandle : handle answers.save (dev.store change.target) s = s := if_neg hdone
    rw [ends_write_of_holds (Q := (· = s)) hhandle]
    refine iff_of_true (fun hsaved => ?_) fun h => absurd h hdone
    -- what is reported as stored was carried out
    obtain ⟨resp, hresp, hsaved⟩ := hsaved
    rw [hresp] at hdone
    exact absurd (done_of_succeeded hsaved) hdone

/-! ## A device that answers -/

variable {report : σ → Fields}

/-- On a device that answers the test comes down to what it asserts of the second reading. -/
theorem test_honest (hbefore : r.before (reading (report s)) = .ok (report s))
    (hchange : r.change (report s) = .ok change) :
    (r.test store (honest report)).run s =
      EStateM.run (do
        let agreed ← exiting (raising (change.check (reading (report (store change.target s)))))
        exiting (assert agreed)
        modify (store (report s)) : Test σ Unit) (store change.target s) := by
  have hbase : ensureSuccessOrSkip (reading (report s)) r.get = .ok () :=
    ensureSuccessOrSkip_eq_ok.mpr rfl
  have hreread : r.reread (reading (report (store change.target s))) = .ok () := by
    rw [reread]
    cases r.strict <;> rfl
  have hsaved : r.saved [("success", .bool true)] = .ok () := saved_eq_ok.mpr rfl
  have hraising : raising (r.before (reading (report s))) = .ok (report s) := by
    rw [hbefore]
    rfl
  rw [test, honest, request_reply rfl, bind_exiting hbase, bind_exiting hraising,
    bind_exiting hchange, write, request_reply rfl, bind_exiting hsaved, compare,
    request_reply rfl, id, id, bind_exiting hreread]
  rfl

variable (store) in
/-- Such a test passes if and only if it asserts something true. -/
theorem passes_iff (hbefore : r.before (reading (report s)) = .ok (report s))
    (hchange : r.change (report s) = .ok change) (s' : σ) :
    (r.test store (honest report)).run s = .ok () s' ↔
      change.check (reading (report (store change.target s))) = .ok true ∧
        store (report s) (store change.target s) = s' := by
  rw [test_honest hbefore hchange]
  cases change.check (reading (report (store change.target s))) with
  | error e => exact iff_of_false (fun h => by cases h) fun h => by cases h.1
  | ok agreed =>
    cases agreed with
    | false => exact iff_of_false (fun h => by cases h) fun h => by cases h.1
    | true =>
      rw [and_iff_right rfl]
      exact ⟨fun h => by cases h; rfl, fun h => by rw [← h]; rfl⟩

/-- The settings that the device reports are those that the test is about. -/
structure Fits (r : Roundtrip) (settings : Fields) (change : Change) : Prop where
  before_eq : r.before (reading settings) = .ok settings
  change_eq : r.change settings = .ok change
  known : ∀ key, (change.target.lookup key).isSome = true → (settings.lookup key).isSome = true
  check : ∀ data, (∀ key value, change.target.lookup key = some value →
    data.lookup key = some value) → change.check (reading data) = .ok true

/-- On a device that works the test passes and puts the settings back. -/
theorem Fits.run_eq_ok {dev : Device σ} (h : r.Fits (dev.report s) change) :
    (r.test dev.store (honest dev.report)).run s = .ok () s := by
  refine (passes_iff _ h.before_eq h.change_eq _).mpr ⟨h.check _ fun key value hvalue => ?_, ?_⟩
  · apply dev.lookup_store _ _ _ _ hvalue
    apply h.known
    rw [hvalue]
    rfl
  · exact dev.store_report change.target s h.known

end Roundtrip

end ConfigRoundtrip

end SasTests
