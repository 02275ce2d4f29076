import SasTests.Disconnect
import SasTests.Python.Dict
import SasTests.Python.Float
import SasTests.Lib.Exits

/-!
# The fixture that enables the PFOP protocol

`pfop_env` logs in, reads the device's PFOP configuration, enables the protocol if it is not, hands
out where the device listens, and afterwards writes the configuration back. It may leave on the way:
it skips the tests after disconnecting, or an exception comes out of it.

The device is modelled by its configuration and by what it does with each of the requests
(`Server`): a set that it reports as successful stores the message without its type, and the set
that restores the configuration is successful. Nothing else changes the configuration.

`leavesAsFound_iff` says exactly when the fixture leaves the configuration as it was and its client
disconnected. The exits that the fixture makes itself disconnect, and none of them is taken behind a
successful set. What goes wrong is an exception before the `yield`: a request that times out, or a
reply that `dict` or `int` refuses. And what the first query reported must be the configuration.
-/

namespace SasTests

open Python Python.Json Exits

namespace PfopEnv

/-- The items of a dictionary that `json.loads` made. -/
abbrev Fields : Type := List (String × Json)

/-- The dictionaries have the same items. -/
def SameItems (fields fields' : Fields) : Prop := ∀ key, fields.lookup key = fields'.lookup key

/-! ## The device -/

/-- What the device does with a request. -/
inductive Answer
  /-- it replies -/
  | reply (fields : Fields)
  /-- it does not reply in time; `done` says whether it carries the request out all the same -/
  | silence (done : Bool)

/-- What the device does with each of the requests. -/
structure Server where
  /-- with `login` -/
  login : Answer
  /-- with the first `pfop_config_query` -/
  query : Answer
  /-- with the `pfop_config_set` that enables the protocol -/
  set : Answer
  /-- with the second `pfop_config_query` -/
  requery : Answer
  /-- its reply to the `pfop_config_set` that restores the configuration -/
  restored : { fields : Fields // (field fields "success").truthy = true }

/-- What two built-ins make of texts and numbers. -/
structure Builtins where
  /-- what `json.dumps` writes for a key that is a number -/
  number : ℚ → String
  /-- `int(text)` -/
  int : String → Except PyError ℤ
  /-- for an ASCII text within the limit of digits -/
  int_ascii : ∀ text : String, text.length ≤ 4300 → (∀ c ∈ text.toList, c.toNat < 0x80) →
    int text = parseInt text.toList

/-- The message that logs in. -/
def loginMessage : Items :=
  [(.str "type", .str "login"),
    (.str "data", .obj [("username", .str "admin"), ("password", .str "123")])]

/-- `{"type": "pfop_config_query"}` -/
def queryMessage : Items := [(.str "type", .str "pfop_config_query")]

/-- `{"type": "pfop_config_set", **payload}` -/
def setMessage (payload : Items) : Items :=
  Items.update [(.str "type", .str "pfop_config_set")] payload

/-- Is the message a `pfop_config_set`? -/
def isSet (message : Items) : Bool :=
  (message.find (.str "type")).any fun type => type.eqStr "pfop_config_set"

/-- The message without its type. -/
def configOf (message : Items) : Items := message.filter fun p => !Items.sameKey (.str "type") p.1

/-- The configuration after the device has carried out the request `message`. -/
def store (number : ℚ → String) (message : Items) (config : Fields) : Fields :=
  if isSet message then (configOf message).dumped number else config

namespace Answer

/-- Did the device carry out the request? -/
def done : Answer → Bool
  | reply fields => (field fields "success").truthy
  | silence done => done

end Answer

/-! ## The fixture -/

/-- The client of the fixture and the configuration of the device. -/
structure World where
  /-- `ws` -/
  client : WSClient
  /-- the configuration -/
  config : Fields

/-- How the fixture leaves early. -/
inductive Exit
  /-- `pytest.skip`, with the text and the value written after it -/
  | skipped (text : String) (value : Option Json)
  /-- an exception comes out of it -/
  | raised (e : PyError)

/-- A part of the fixture. -/
abbrev Fixture (α : Type) : Type := EStateM Exit World α

/-- What the fixture hands out. -/
structure Env where
  host : String
  port : ℤ
  wsUrl : String
  original : Json
  changed : Bool

/-- An operation that may raise. -/
def raising {α : Type} : Except PyError α → Fixture α
  | .ok a => pure a
  | .error e => throw (.raised e)

/-- The queue of the response type is registered, and the device handles the message. -/
def World.handle (number : ℚ → String) (message : Items) (responseType : String) (answer : Answer)
    (w : World) : World :=
  ⟨w.client.ensureQueue responseType,
    if answer.done then store number message w.config else w.config⟩

/-- `await ws.request(message, response_type)` -/
def request (number : ℚ → String) (message : Items) (responseType : String) (answer : Answer) :
    Fixture Fields := do
  modify (World.handle number message responseType answer)
  match answer with
  | .reply fields => return fields
  | .silence _ => throw (.raised (.timeoutError
      ("No '" ++ responseType ++ "' response within " ++ fixed1 defaultWsTimeout ++ "s")))

/-- `await ws.disconnect()` -/
def disconnect : Fixture Unit := do
  let d := (← get).client.disconnect
  modify fun w => { w with client := d.client }
  match d.raised with
  | some e => throw (.raised e)
  | none => return

/-- `await ws.disconnect()`, then `pytest.skip` -/
def skip (text : String) (value : Option Json) : Fixture Unit := do
  disconnect
  throw (.skipped text value)

/-- `if not c:`, disconnect and skip -/
def skipUnless (c : Bool) (text : String) (value : Option Json) : Fixture Unit :=
  unless c do skip text value

/-- `resp.get("success")`, as a condition -/
def success (resp : Fields) : Bool := (field resp "success").truthy

/-- `resp.get("data", {})` -/
def dataOf (resp : Fields) : Json := field resp "data" (.obj [])

/-- `bool(data.get("enableProtocol", False))` -/
def protocolEnabled (data : Items) : Bool :=
  ((data.find (.str "enableProtocol")).getD (.bool false)).truthy

/-- `enable_payload` -/
def enablePayload (data : Items) : Items := data.assign (.str "enableProtocol") (.bool true)

/-- `data` after the second query: `dict(latest.get("data", data))` if that was successful. -/
def latestData (data : Items) (latest : Fields) : Except PyError Items :=
  if success latest then
    match latest.lookup "data" with
    | some x => Items.dict x
    | none => .ok data
  else .ok data

/-- `int(data["portNumber"])` -/
def portOf (b : Builtins) (data : Items) : Except PyError ℤ :=
  match data.find (.str "portNumber") with
  | some x => x.toInt b.int
  | none => .error .keyError

section

variable (b : Builtins) (server : Server) (hostname : String → Option String) (wsUrl : String)

/-- The part of the setup that enables the protocol: `data` and `changed` after it. -/
def enableProtocol (data : Items) : Fixture (Items × Bool) := do
  if protocolEnabled data then return (data, false)
  let setResp ← request b.number (setMessage (enablePayload data)) "pfop_config_set_response"
    server.set
  skipUnless (success setResp) "cannot enable PFOP protocol: " (some (field setResp "error"))
  let latest ← request b.number queryMessage "pfop_config_query_response" server.requery
  let data ← raising (latestData data latest)
  return (data, true)

/-- Everything before the `yield`; `hostname` is what `urlparse` finds. -/
def setup : Fixture Env := do
  let login ← request b.number loginMessage "login_response" server.login
  skipUnless (success login) "login failed: " (some (field login "error"))
  let original ← request b.number queryMessage "pfop_config_query_response" server.query
  skipUnless (success original) "pfop_config_query unavailable: " (some (field original "error"))
  let data ← raising (Items.dict (dataOf original))
  skipUnless (data.find (.str "portNumber")).isSome "pfop_config_query has no portNumber" none
  let (data, changed) ← enableProtocol b server data
  let port ← raising (portOf b data)
  let host := ((hostname wsUrl).filter (· ≠ "")).getD "127.0.0.1"
  return ⟨host, port, wsUrl, dataOf original, changed⟩

/-- Everything after the `yield`. -/
def teardown (env : Env) : Fixture Unit := do
  if env.changed then
    let restorePayload ← raising (Items.dict env.original)
    try
      discard <| request b.number (setMessage restorePayload) "pfop_config_set_response"
        (.reply server.restored)
    catch e => match e with
      | .raised _ => pure ()
      | .skipped text value => throw (.skipped text value)
  disconnect

/-- `pfop_env` -/
def pfopEnv : Fixture Env := do
  let env ← setup b server hostname wsUrl
  teardown b server env
  return env

end

/-- The fixture's client once `connect` has opened connection `conn`, and the configuration that the
device has. -/
def World.new (conn : ℕ) (config : Fields) : World := ⟨WSClient.new.connect conn, config⟩

/-- The configuration is as it was, and the client is disconnected. -/
structure Restored (config : Fields) (w : World) : Prop where
  config : SameItems w.config config
  ws : w.client.ws = none
  recvTask : w.client.recvTask = none

/-! ## Ways out -/

/-- The client is connected, and `fields` is the configuration. -/
structure Open (fields : Fields) (w : World) : Prop where
  ws : w.client.ws ≠ none
  recvTask : w.client.recvTask = some .running
  config : w.config = fields

theorem open_new (conn : ℕ) (config : Fields) : Open config (World.new conn config) :=
  ⟨Option.some_ne_none conn, rfl, rfl⟩

section

variable {b : Builtins} {server : Server} {config fields : Fields} {w : World} {α β : Type}

theorem Open.handle (hw : Open fields w) (number : ℚ → String) (message : Items) (t : String)
    (answer : Answer) : Open (if answer.done then store number message fields else fields)
      (w.handle number message t answer) where
  ws := by
    rw [World.handle, (w.client.ensureQueue_fields t).1]
    exact hw.ws
  recvTask := by
    rw [World.handle, (w.client.ensureQueue_fields t).2.1]
    exact hw.recvTask
  config := by rw [World.handle, hw.config]

/-- A request that is not a set leaves the configuration alone. -/
theorem Open.handle_of_not_isSet (hw : Open fields w) {message : Items}
    (h : isSet message = false) (number : ℚ → String) (t : String) (answer : Answer) :
    Open fields (w.handle number message t answer) := by
  have hopen := hw.handle number message t answer
  rwa [store, h, if_neg Bool.false_ne_true, ite_self] at hopen

theorem Open.not_restored (hw : Open fields w) : ¬ Restored config w := fun h => hw.ws h.ws

/-- A request that is not answered in time leaves the client connected. -/
theorem ends_request {f : Fields → Fixture β} (hw : Open fields w) (message : Items) (t : String)
    (answer : Answer) : Ends (request b.number message t answer >>= f) w (Restored config) ↔
      ∃ resp, answer = .reply resp ∧
        Ends (f resp) (w.handle b.number message t answer) (Restored config) := by
  cases answer with
  | reply resp =>
    have hok : (request b.number message t (.reply resp)).run w =
      .ok resp (w.handle b.number message t (.reply resp)) := rfl
    rw [ends_bind_of_ok hok]
    simp
  | silence done =>
    have herror : (request b.number message t (.silence done)).run w =
      .error _ (w.handle b.number message t (.silence done)) := rfl
    rw [ends_bind_of_error herror]
    simp [(hw.handle b.number message t (.silence done)).not_restored]

/-- So does an exception. -/
theorem ends_raising {f : α → Fixture β} (hw : Open fields w) (x : Except PyError α) :
    Ends (raising x >>= f) w (Restored config) ↔
      ∃ a, x = .ok a ∧ Ends (f a) w (Restored config) := by
  cases x with
  | ok a =>
    have hok : (raising (.ok a)).run w = .ok a w := rfl
    rw [ends_bind_of_ok hok]
    simp
  | error e =>
    have herror : (raising (.error e : Except PyError α)).run w = .error (.raised e) w := rfl
    rw [ends_bind_of_error herror]
    simp [hw.not_restored]

/-- The world after `disconnect`. -/
def World.disconnected (w : World) : World := { w with client := w.client.disconnect.client }

theorem Open.disconnects (hw : Open fields w) : w.client.Disconnects := by
  rw [WSClient.disconnects_iff_not_recvFailed]
  rintro ⟨e, he⟩
  rw [hw.recvTask] at he
  cases he

theorem run_disconnect (hw : Open fields w) : disconnect.run w = .ok () w.disconnected := by
  have hrun : disconnect.run w = EStateM.run (match w.client.disconnect.raised with
    | some e => throw (.raised e)
    | none => pure () : Fixture Unit) w.disconnected := rfl
  rw [hrun, hw.disconnects.returns]
  rfl

theorem restored_disconnected (hw : Open fields w) :
    Restored config w.disconnected ↔ SameItems fields config := by
  rw [← hw.config]
  exact ⟨fun h => h.config, fun h => ⟨h, hw.disconnects.ws, hw.disconnects.recvTask⟩⟩

/-- Skipping leaves the client disconnected. -/
theorem ends_skipUnless {f : Unit → Fixture β} (hw : Open fields w) (c : Bool) (text : String)
    (value : Option Json) :
    Ends (skipUnless c text value >>= f) w (Restored config) ↔
      (c = true → Ends (f ()) w (Restored config)) ∧ (¬ c = true → SameItems fields config) := by
  have hskip : (skip text value).run w = .error (.skipped text value) w.disconnected := by
    rw [skip, EStateM.run_bind, run_disconnect hw]
    rfl
  rw [skipUnless, ends_unless hskip, restored_disconnected hw]

/-- `disconnect` at the end. -/
theorem ends_disconnect (hw : Open fields w) (a : α) :
    Ends (disconnect >>= fun _ => pure a) w (Restored config) ↔ SameItems fields config := by
  rw [ends_bind_of_ok (run_disconnect hw), ends_pure, restored_disconnected hw]

/-- What the teardown leaves. -/
theorem ends_teardown {env : Env} (hw : Open fields w) :
    Ends (teardown b server env >>= fun _ => pure env) w (Restored config) ↔
      if env.changed then ∃ payload, Items.dict env.original = .ok payload ∧
        SameItems (store b.number (setMessage payload) fields) config
      else SameItems fields config := by
  obtain ⟨host, port, wsUrl, original, changed⟩ := env
  cases changed with
  | false =>
    simp only [teardown, Bool.false_eq_true, if_false]
    exact ends_disconnect hw _
  | true =>
    simp only [teardown, if_true, bind_assoc]
    rw [ends_raising hw]
    refine exists_congr fun payload => and_congr_right fun _ => ?_
    have hopen := hw.handle b.number (setMessage payload) "pfop_config_set_response"
      (.reply server.restored)
    rw [Answer.done, if_pos server.restored.2] at hopen
    rw [← ends_disconnect hopen]
    apply ends_bind_of_ok
    rfl

end

/-! ## The condition -/

/-- From the set on: it is answered; if it was successful, the second query is answered, what it
reports is a dictionary with a port, and what the first query reported is the configuration. -/
def Server.SetsUp (b : Builtins) (server : Server) (config : Fields) (data : Items) : Prop :=
  ∃ setResp, server.set = .reply setResp ∧ (success setResp = true →
    ∃ latest, server.requery = .reply latest ∧
      ∃ data', latestData data latest = .ok data' ∧ ∃ port, portOf b data' = .ok port ∧
        SameItems (store b.number (setMessage data) config) config)

/-- The login is answered, and if it was successful so is the first query. If that was successful,
too, it reports a dictionary; if there is a port in it, it is one, should the protocol be enabled
already, and the rest goes well, should it not. -/
def Server.Answers (b : Builtins) (server : Server) (config : Fields) : Prop :=
  ∃ login, server.login = .reply login ∧ (success login = true →
    ∃ original, server.query = .reply original ∧ (success original = true →
      ∃ data, Items.dict (dataOf original) = .ok data ∧
        ((data.find (.str "portNumber")).isSome = true →
          if protocolEnabled data = true then ∃ port, portOf b data = .ok port
          else server.SetsUp b config data)))

section

variable {b : Builtins} {server : Server} {config fields : Fields} {w : World}

theorem isSet_loginMessage : isSet loginMessage = false := by rfl

theorem isSet_queryMessage : isSet queryMessage = false := by rfl

/-- Enabling the protocol does not change what `type` is. -/
theorem isSet_enablePayload (data : Items) :
    isSet (setMessage (enablePayload data)) = isSet (setMessage data) := by
  have hne : Items.sameKey (.str "type") (.str "enableProtocol") = false := by
    rw [Items.sameKey_str]
    decide
  rw [isSet, setMessage, enablePayload, Items.find_update_assign hne, ← setMessage, ← isSet]

/-- Restoring the configuration undoes enabling the protocol as far as the configuration is what was
reported. -/
theorem store_restore (number : ℚ → String) (data : Items) (config : Fields) :
    store number (setMessage data) (store number (setMessage (enablePayload data)) config) =
      store number (setMessage data) config := by
  rw [store, store, store, isSet_enablePayload]
  split <;> rfl

theorem sameItems_refl (fields : Fields) : SameItems fields fields := fun _ => rfl

/-- What is left after the protocol has been enabled: `data₀` is what the first query reported. -/
theorem ends_port {original : Json} {data₀ : Items} (hw : Open fields w)
    (hdata : Items.dict original = .ok data₀) (data : Items) (env : ℤ → Env) {changed : Bool}
    (henv : ∀ port, (env port).original = original ∧ (env port).changed = changed) :
    Ends (raising (portOf b data) >>= fun port =>
        teardown b server (env port) >>= fun _ => pure (env port)) w (Restored config) ↔
      ∃ port, portOf b data = .ok port ∧
        SameItems (if changed = true then store b.number (setMessage data₀) fields else fields)
          config := by
  rw [ends_raising hw]
  refine exists_congr fun port => and_congr_right fun _ => ?_
  rw [ends_teardown hw, (henv port).1, (henv port).2, hdata]
  cases changed <;> simp

/-- What enabling the protocol leaves to the rest `f` of the fixture. -/
theorem ends_enableProtocol {β : Type} {data : Items} {f : Items × Bool → Fixture β}
    {Rest : Items → Bool → Fields → Prop} (hw : Open config w)
    (hf : ∀ data' changed fields w, Open fields w →
      (Ends (f (data', changed)) w (Restored config) ↔ Rest data' changed fields)) :
    Ends (enableProtocol b server data >>= f) w (Restored config) ↔
      if protocolEnabled data = true then Rest data false config
      else ∃ setResp, server.set = .reply setResp ∧ (success setResp = true →
        ∃ latest, server.requery = .reply latest ∧
          ∃ data', latestData data latest = .ok data' ∧
            Rest data' true (store b.number (setMessage (enablePayload data)) config)) := by
  rw [enableProtocol]
  split
  next => exact hf data false config w hw
  next =>
    simp only [bind_assoc, pure_bind]
    rw [ends_request hw]
    refine exists_congr fun setResp => and_congr_right fun hset => ?_
    replace hw := hw.handle b.number (setMessage (enablePayload data)) "pfop_config_set_response"
      server.set
    rw [hset, Answer.done, ← success] at hw
    rw [hset, ends_skipUnless hw]
    have hrefused : ¬ success setResp = true →
        SameItems (if success setResp = true then
          store b.number (setMessage (enablePayload data)) config else config) config := by
      intro h
      rw [if_neg h]
      exact sameItems_refl config
    rw [and_iff_left hrefused]
    refine imp_congr_right fun hsuccess => ?_
    rw [if_pos hsuccess] at hw
    rw [ends_request hw]
    refine exists_congr fun latest => and_congr_right fun hlatest => ?_
    replace hw := hw.handle_of_not_isSet isSet_queryMessage b.number "pfop_config_query_response"
      server.requery
    rw [ends_raising hw]
    exact exists_congr fun data' => and_congr_right fun _ => hf data' true _ _ hw

/-- **When the fixture leaves everything as it found it.**

`Server.Answers` goes through the setup in the order of the code, and says at each point what the
device must answer: there is an answer, and where it is a success, one that the code can read. An
exception before the set leaves the client connected. From the set to the `yield` it also leaves the
protocol enabled, if the set was carried out. -/
theorem leavesAsFound_iff (b : Builtins) (server : Server) (hostname : String → Option String)
    (wsUrl : String) (conn : ℕ) (config : Fields) :
    Ends (pfopEnv b server hostname wsUrl) (World.new conn config) (Restored config) ↔
      server.Answers b config := by
  have hw := open_new conn config
  simp only [pfopEnv, setup, bind_assoc, pure_bind]
  rw [ends_request hw]
  refine exists_congr fun login => and_congr_right fun hlogin => ?_
  replace hw := hw.handle_of_not_isSet isSet_loginMessage b.number "login_response" server.login
  rw [ends_skipUnless hw, and_iff_left fun _ => sameItems_refl config]
  refine imp_congr_right fun hsuccess => ?_
  rw [ends_request hw]
  refine exists_congr fun original => and_congr_right fun horiginal => ?_
  replace hw := hw.handle_of_not_isSet isSet_queryMessage b.number "pfop_config_query_response"
    server.query
  rw [ends_skipUnless hw, and_iff_left fun _ => sameItems_refl config]
  refine imp_congr_right fun hsuccess => ?_
  rw [ends_raising hw]
  refine exists_congr fun data => and_congr_right fun hdata => ?_
  rw [ends_skipUnless hw, and_iff_left fun _ => sameItems_refl config]
  refine imp_congr_right fun hport => ?_
  let env (port : ℤ) (changed : Bool) : Env := ⟨((hostname wsUrl).filter (· ≠ "")).getD "127.0.0.1",
    port, wsUrl, dataOf original, changed⟩
  refine (ends_enableProtocol hw fun data' changed fields w hw =>
    ends_port hw hdata data' (env · changed) fun port => ⟨rfl, rfl⟩).trans ?_
  simp only [Bool.false_eq_true, if_false, if_true, store_restore, Server.SetsUp,
    sameItems_refl config, and_true]

end

/-! ## A device that works -/

/-- The configuration that is written back is the one that was reported, if no key of it is in the
way of the message's type. -/
theorem sameItems_store (number : ℚ → String) {config : Fields}
    (hkeys : (config.map Prod.fst).Nodup) (htype : config.lookup "type" = none) :
    SameItems (store number (setMessage (Items.ofFields config)) config) config := by
  have hne : ∀ p ∈ config, p.1 ≠ "type" := by
    intro p hp heq
    exact bne_iff_ne.mp (List.lookup_eq_none_iff.mp htype p hp) heq.symm
  have hmessage : setMessage (Items.ofFields config) =
      (.str "type", .str "pfop_config_set") :: Items.ofFields config := by
    apply Items.update_ofFields _ hkeys
    intro p hp
    rw [Items.find, Items.sameKey_str, decide_eq_false (hne p hp), Items.find]
    rfl
  have hconfig : configOf (setMessage (Items.ofFields config)) = Items.ofFields config := by
    rw [hmessage, configOf, List.filter_cons_of_neg (by simp), List.filter_eq_self]
    intro q hq
    obtain ⟨p, hp, rfl⟩ := List.mem_map.mp hq
    rw [Items.sameKey_str, decide_eq_false (hne p hp).symm]
    rfl
  have hset : isSet (setMessage (Items.ofFields config)) = true := by
    rw [hmessage, isSet, Items.find, if_pos (Items.sameKey_self _)]
    rfl
  intro key
  rw [store, if_pos hset, hconfig, Items.lookup_dumped_ofFields number hkeys]

/-- The device answers everything, reports the configuration that it has, and there is a port in it
before and after. -/
structure Server.Honest (b : Builtins) (server : Server) (config : Fields) : Prop where
  keys : (config.map Prod.fst).Nodup
  type : config.lookup "type" = none
  port : ∃ port, portOf b (Items.ofFields config) = .ok port
  login : ∃ resp, server.login = .reply resp
  query : ∃ resp, server.query = .reply resp ∧ dataOf resp = .obj config
  set : ∃ resp, server.set = .reply resp
  requery : ∃ resp data, server.requery = .reply resp ∧
    latestData (Items.ofFields config) resp = .ok data ∧ ∃ port, portOf b data = .ok port

/-- An honest device gives the answers that it takes. -/
theorem Server.Honest.answers {b : Builtins} {server : Server} {config : Fields}
    (h : server.Honest b config) : server.Answers b config := by
  obtain ⟨login, hlogin⟩ := h.login
  obtain ⟨original, hquery, hdata⟩ := h.query
  obtain ⟨setResp, hset⟩ := h.set
  obtain ⟨latest, data, hrequery, hlatest, hport⟩ := h.requery
  refine ⟨login, hlogin, fun _ => ⟨original, hquery, fun _ => ?_⟩⟩
  refine ⟨Items.ofFields config, by rw [hdata, Items.dict], fun _ => ?_⟩
  split
  · exact h.port
  · obtain ⟨port, hport⟩ := hport
    exact ⟨setResp, hset, fun _ => ⟨latest, hrequery, data, hlatest, port, hport,
      sameItems_store b.number h.keys h.type⟩⟩

/-! ## A second query that is not answered -/

/-- The built-ins, for ASCII texts. -/
def Builtins.ascii : Builtins := ⟨fun q => toString q.num, fun text => parseInt text.toList,
  fun _ _ _ => rfl⟩

/-- A configuration with the protocol disabled. -/
def disabledConfig : Fields := [("enableProtocol", .bool false), ("portNumber", .num 4545)]

/-- Everything is successful, except that the second query is not answered. -/
def silentServer : Server where
  login := .reply [("success", .bool true)]
  query := .reply [("success", .bool true), ("data", .obj disabledConfig)]
  set := .reply [("success", .bool true)]
  requery := .silence false
  restored := ⟨[("success", .bool true)], rfl⟩

/-- The fixture raises, and leaves the protocol enabled and its client connected. -/
theorem requery_timeout_not_restored :
    (∃ text w, (pfopEnv .ascii silentServer (fun _ => some "192.0.2.1") "ws://192.0.2.1/ws").run
        (World.new 1 disabledConfig) = .error (.raised (.timeoutError text)) w ∧
      w.config.lookup "enableProtocol" = some (.bool true) ∧ w.client.ws = some 1) ∧
    ¬ Ends (pfopEnv .ascii silentServer (fun _ => some "192.0.2.1") "ws://192.0.2.1/ws")
      (World.new 1 disabledConfig) (Restored disabledConfig) := by
  refine ⟨⟨_, _, rfl, rfl, rfl⟩, fun h => ?_⟩
  have hws : some 1 = none := h.ws
  cases hws

end PfopEnv

end SasTests
