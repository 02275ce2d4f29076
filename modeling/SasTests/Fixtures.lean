import SasTests.PfopEnv

/-!
# The clients of the fixtures

Most tests get their client from a fixture, which connects it, in most suites logs in, hands it to
the test at the `yield`, and disconnects it afterwards. What stands behind the `yield` runs however
the test ends, but only if the setup has come to the `yield`, and only as far as nothing raises.

A fixture is run with what becomes of its clients (`Life`, `LoginLife`): runs of the client, from
its `connect` to the teardown, with the end of the call that logs in.

`left_iff` says which clients a fixture leaves connected, for every such run: those whose login was
not answered; those whose connection had received a frame that ends the receive task, with the other
client of a pair that would have been disconnected after it; and the first of a pair if the second
was not set up.
-/

namespace SasTests

open Python Python.Json Exits Loop
open PfopEnv (Fields success)

namespace Fixtures

/-! ## What becomes of a client -/

/-- The client from its `connect` to the teardown. -/
structure Life where
  /-- the connection -/
  conn : ℕ
  /-- what happens to it -/
  steps : List Label
  /-- its state at the teardown -/
  atEnd : Loop
  run_steps : Lts.run step new (.connect conn :: steps) = some atEnd

/-- `client.request({"type": "login", "data": _ADMIN}, "login_response")` -/
def loginCall : Call :=
  .request (.obj [("type", .str "login"),
    ("data", .obj [("username", .str "admin"), ("password", .str "123")])])
    "login_response" defaultWsTimeout

/-- How a request ended. -/
def endOf : Except PyError (ℕ × Fields) → Frame
  | .ok (idx, fields) => .returned (.message ⟨idx, .obj fields⟩)
  | .error e => .raised e

/-- A client that logs in. -/
structure LoginLife extends Life where
  /-- what happens to it until the login has ended -/
  setup : List Label
  /-- what happens after that -/
  test : List Label
  steps_eq : steps = setup ++ test
  /-- the setup does not disconnect before the login has ended -/
  stays : .disconnect ∉ setup
  /-- its state when the login has ended -/
  atLogin : Loop
  run_setup : Lts.run step new (.connect conn :: setup) = some atLogin
  /-- the reply, or what the request raised -/
  reply : Except PyError (ℕ × Fields)
  ended : atLogin.calls 0 = some ⟨loginCall, endOf reply⟩

/-! ## The fixtures -/

/-- One of the clients of a fixture. -/
inductive Name
  | a
  | b
  deriving DecidableEq

/-- The clients of a fixture. -/
abbrev Clients : Type := Name → WSClient

/-- How a fixture leaves early. -/
inductive Exit
  /-- `pytest.skip`, with the error that was reported -/
  | skipped (error : Json)
  /-- an exception comes out of it -/
  | raised (e : PyError)

/-- A part of a fixture. -/
abbrev Fixture (α : Type) : Type := EStateM Exit Clients α

/-- An operation that may raise. -/
def raising {α : Type} : Except PyError α → Fixture α
  | .ok a => pure a
  | .error e => throw (.raised e)

/-- The client has become `c`. -/
def become (n : Name) (c : WSClient) : Fixture Unit := modify fun cs => Function.update cs n c

/-- `await client.connect(ws_url)`, with connection number `conn` -/
def connect (n : Name) (conn : ℕ) : Fixture Unit := become n (WSClient.new.connect conn)

/-- `await client.disconnect()` -/
def disconnect (n : Name) : Fixture Unit := do
  let d := ((← get) n).disconnect
  become n d.client
  match d.raised with
  | some e => throw (.raised e)
  | none => return

/-- `_login` -/
def login (n : Name) (life : Except PyError LoginLife) : Fixture LoginLife := do
  let life ← raising life
  connect n life.conn
  become n life.atLogin.client
  let resp ← raising life.reply
  unless success resp.2 do
    disconnect n
    throw (.skipped (field resp.2 "error"))
  return life

/-- `ws` of the root conftest -/
def ws (a : Except PyError Life) : Fixture Unit := do
  let a ← raising a
  connect .a a.conn
  -- the test
  become .a a.atEnd.client
  disconnect .a

/-- `ws_pair` of the root conftest -/
def wsPair (a b : Except PyError Life) : Fixture Unit := do
  let a ← raising a
  connect .a a.conn
  let b ← raising b
  connect .b b.conn
  -- the test
  become .a a.atEnd.client
  become .b b.atEnd.client
  disconnect .b
  disconnect .a

/-- `ws` of the suites `spec128`, `smoke` and `work_mode`, and `ws_auth` of `system` and `network`
-/
def wsAuth (a : Except PyError LoginLife) : Fixture Unit := do
  let a ← login .a a
  -- the test
  become .a a.atEnd.client
  disconnect .a

/-- `ws_pair` of the suite `spec128` -/
def wsPairAuth (a b : Except PyError LoginLife) : Fixture Unit := do
  let a ← login .a a
  let b ← login .b b
  -- the test
  become .a a.atEnd.client
  become .b b.atEnd.client
  disconnect .b
  disconnect .a

/-- The use of a fixture, with what becomes of its clients; an exception is what comes out of
`connect`. -/
inductive Use
  | ws (a : Except PyError Life)
  | wsPair (a b : Except PyError Life)
  | wsAuth (a : Except PyError LoginLife)
  | wsPairAuth (a b : Except PyError LoginLife)

/-- The fixture that is used. -/
def Use.fixture : Use → Fixture Unit
  | ws a => Fixtures.ws a
  | wsPair a b => Fixtures.wsPair a b
  | wsAuth a => Fixtures.wsAuth a
  | wsPairAuth a b => Fixtures.wsPairAuth a b

/-- Before the setup. -/
def start : Clients := fun _ => WSClient.new

/-- The client has not been disconnected. -/
def Clients.Connected (cs : Clients) (n : Name) : Prop := (cs n).ws ≠ none

/-! ## Which clients are left -/

/-- The client receives a frame that ends its receive task. -/
def Life.Harmed (l : Life) : Prop := ¬ HarmlessSinceConnect (.connect l.conn :: l.steps)

/-- The test has not disconnected the client itself. -/
def Life.Stays (l : Life) : Prop := l.atEnd.client.ws ≠ none

namespace LoginLife

/-- It does so before the login has ended. -/
def HarmedEarly (l : LoginLife) : Prop := ¬ HarmlessSinceConnect (.connect l.conn :: l.setup)

/-- The login was successful. -/
def Accepted (l : LoginLife) : Prop := ∃ resp, l.reply = .ok resp ∧ success resp.2 = true

/-- The login was not successful. -/
def Refused (l : LoginLife) : Prop := ∃ resp, l.reply = .ok resp ∧ success resp.2 = false

/-- The request raised. -/
def Unanswered (l : LoginLife) : Prop := ∃ e, l.reply = .error e

/-- `_login` leaves it connected, and does not come to its end. -/
def Stuck (l : LoginLife) : Prop := l.Unanswered ∨ l.Refused ∧ l.HarmedEarly

end LoginLife

/-- The clients that are left connected. -/
def Use.Left : Use → Name → Prop
  | ws a, .a => ∃ l, a = .ok l ∧ l.Harmed
  | ws _, .b => False
  | wsPair a b, .a => ∃ l, a = .ok l ∧ ∀ l', b = .ok l' → l.Harmed ∨ l'.Harmed ∧ l.Stays
  | wsPair a b, .b => ∃ l l', a = .ok l ∧ b = .ok l' ∧ l'.Harmed
  | wsAuth a, .a => ∃ l, a = .ok l ∧ (l.Stuck ∨ l.Accepted ∧ l.Harmed)
  | wsAuth _, .b => False
  | wsPairAuth a b, .a => ∃ l, a = .ok l ∧ (l.Stuck ∨ l.Accepted ∧
      ∀ l', b = .ok l' → l'.Accepted → l.Harmed ∨ l'.Harmed ∧ l.Stays)
  | wsPairAuth a b, .b => ∃ l l', a = .ok l ∧ l.Accepted ∧ b = .ok l' ∧
      (l'.Stuck ∨ l'.Accepted ∧ l'.Harmed)

/-! ## The connection of a client -/

theorem receive_ws (s : Loop) (loaded : Except PyError Json) (now : ℚ) :
    (s.receive loaded now).client.ws = s.client.ws := by
  rw [receive.eq_def]
  rcases hd : s.client.dispatch loaded s.log.length now with e | ⟨c, woken⟩
  · rfl
  · exact congrArg Prod.fst (dispatch_connection hd)

/-- Only `connect` and `disconnect` set `_ws`. -/
theorem step_ws {s s' : Loop} {l : Label} (h : s.step l = some s') (hl : l ≠ .disconnect) :
    s'.client.ws = s.client.ws ∨ s'.client.ws ≠ none := by
  cases hleaves : l.leavesConnection with
  | true => exact .inl (congrArg Prod.fst (step_connection hleaves h))
  | false =>
    cases step_cases h with
    | connect => exact .inr (Option.some_ne_none _)
    | disconnect => exact absurd rfl hl
    | peerClosed => exact .inl rfl
    | receive => exact .inl (receive_ws ..)
    | _ => cases hleaves

/-- Until it disconnects, a client that was connected stays so. -/
theorem ws_ne_none_of_stays {s s' : Loop} {ls : List Label} (h : Lts.run step s ls = some s')
    (hls : .disconnect ∉ ls) (hs : s.client.ws ≠ none) : s'.client.ws ≠ none := by
  refine Lts.run_induction (motive := fun ls s' => .disconnect ∉ ls → s'.client.ws ≠ none)
    (fun _ => hs) ?_ h hls
  intro ls l s₁ s₂ _ ih hstep hmem
  have hl : l ≠ .disconnect := fun heq => hmem (by simp [heq])
  rcases step_ws hstep hl with heq | hne
  · rw [heq]
    exact ih fun hmem' => hmem (List.mem_append_left _ hmem')
  · exact hne

/-- A client with a receive task has a connection. -/
theorem ws_ne_none_of_recvTask {s : Loop} {ls : List Label} (h : Lts.run step new ls = some s) :
    s.client.recvTask ≠ none → s.client.ws ≠ none := by
  refine Lts.run_invariant (I := fun s => s.client.recvTask ≠ none → s.client.ws ≠ none)
    (fun h => absurd rfl h) ?_ h
  intro s l s' ih hstep htask
  cases hleaves : l.leavesConnection with
  | true =>
    have hsame := step_connection hleaves hstep
    rw [show s'.client.ws = s.client.ws from congrArg Prod.fst hsame]
    rw [show s'.client.recvTask = s.client.recvTask from congrArg Prod.snd hsame] at htask
    exact ih htask
  | false =>
    cases step_cases hstep with
    | connect => exact Option.some_ne_none _
    | disconnect =>
      by_cases hs : s.client.RecvFailed
      · obtain ⟨e, he⟩ := id hs
        simp only [WSClient.disconnect, he] at htask ⊢
        exact ih (by rw [he]; exact Option.some_ne_none _)
      · exact absurd ((s.client.disconnects_iff_not_recvFailed).mpr hs).recvTask htask
    | peerClosed hs => exact ih (by rw [hs]; exact Option.some_ne_none _)
    | receive hs =>
      rw [receive_ws]
      exact ih (by rw [hs]; exact Option.some_ne_none _)
    | _ => cases hleaves

namespace Life

variable (l : Life)

theorem harmed_iff : l.Harmed ↔ l.atEnd.client.RecvFailed := (recvFailed_iff l.run_steps).symm

theorem stays_of_harmed (h : l.Harmed) : l.Stays := by
  obtain ⟨e, he⟩ := l.harmed_iff.mp h
  exact ws_ne_none_of_recvTask l.run_steps (by rw [he]; exact Option.some_ne_none _)

end Life

namespace LoginLife

variable (l : LoginLife)

theorem harmedEarly_iff : l.HarmedEarly ↔ l.atLogin.client.RecvFailed :=
  (recvFailed_iff l.run_setup).symm

theorem ws_atLogin : l.atLogin.client.ws ≠ none := by
  obtain ⟨s, hs, hrun⟩ := Option.bind_eq_some_iff.mp l.run_setup
  refine ws_ne_none_of_stays hrun l.stays ?_
  cases step_cases hs
  exact Option.some_ne_none _

/-- How a login ends. -/
theorem outcome : l.Stuck ∨ l.Refused ∧ ¬ l.HarmedEarly ∨ l.Accepted := by
  cases hreply : l.reply with
  | error e => exact .inl (.inl ⟨e, hreply⟩)
  | ok resp =>
    cases hsuccess : success resp.2 with
    | true => exact .inr (.inr ⟨resp, hreply, hsuccess⟩)
    | false =>
      by_cases hharmed : l.HarmedEarly
      · exact .inl (.inr ⟨⟨resp, hreply, hsuccess⟩, hharmed⟩)
      · exact .inr (.inl ⟨⟨resp, hreply, hsuccess⟩, hharmed⟩)

variable {l}

theorem Refused.not_accepted (h : l.Refused) : ¬ l.Accepted := by
  rintro ⟨resp', hresp', hsuccess'⟩
  obtain ⟨resp, hresp, hsuccess⟩ := h
  obtain rfl := Except.ok.inj (hresp.symm.trans hresp')
  exact absurd (hsuccess.symm.trans hsuccess') Bool.false_ne_true

theorem Unanswered.not_ok (h : l.Unanswered) (resp : ℕ × Fields) : l.reply ≠ .ok resp := by
  obtain ⟨e, he⟩ := h
  rw [he]
  simp

theorem Stuck.not_accepted (h : l.Stuck) : ¬ l.Accepted := by
  rcases h with h | ⟨h, -⟩
  · rintro ⟨resp, hresp, -⟩
    exact h.not_ok resp hresp
  · exact h.not_accepted

theorem Refused.not_stuck (h : l.Refused) (hharmed : ¬ l.HarmedEarly) : ¬ l.Stuck := by
  rintro (hun | ⟨-, hharmed'⟩)
  · obtain ⟨resp, hresp, -⟩ := h
    exact hun.not_ok resp hresp
  · exact hharmed hharmed'

end LoginLife

/-! ## Ways out -/

section

variable {α β : Type} {cs : Clients} {Q : Clients → Prop} {n : Name}

theorem ends_raising {f : α → Fixture β} (x : Except PyError α) :
    Ends (raising x >>= f) cs Q ↔
      (∀ a, x = .ok a → Ends (f a) cs Q) ∧ ∀ e, x = .error e → Q cs := by
  cases x with
  | ok a =>
    have hok : (raising (.ok a)).run cs = .ok a cs := rfl
    rw [ends_bind_of_ok hok]
    simp
  | error e =>
    have herror : (raising (.error e : Except PyError α)).run cs = .error (.raised e) cs := rfl
    rw [ends_bind_of_error herror]
    simp

theorem ends_become {f : Unit → Fixture β} (c : WSClient) :
    Ends (become n c >>= f) cs Q ↔ Ends (f ()) (Function.update cs n c) Q :=
  ends_bind_of_ok rfl

theorem ends_connect {f : Unit → Fixture β} (conn : ℕ) :
    Ends (connect n conn >>= f) cs Q ↔
      Ends (f ()) (Function.update cs n (WSClient.new.connect conn)) Q :=
  ends_become _

/-- `disconnect` raises for a client whose receive task has failed, and leaves it as it is. -/
theorem run_disconnect_of_recvFailed (h : (cs n).RecvFailed) :
    ∃ e, (disconnect n).run cs = .error (.raised e) cs := by
  obtain ⟨e, he⟩ := h
  have hd : (cs n).disconnect = ⟨cs n, none, some e⟩ := by simp only [WSClient.disconnect, he]
  have hrun : (disconnect n).run cs = EStateM.run (match (cs n).disconnect.raised with
    | some e => throw (.raised e)
    | none => pure () : Fixture Unit) (Function.update cs n (cs n).disconnect.client) := rfl
  rw [hrun, hd, Function.update_eq_self]
  exact ⟨e, rfl⟩

/-- The clients after `disconnect`. -/
def closed (cs : Clients) (n : Name) : Clients := Function.update cs n (cs n).disconnect.client

theorem run_disconnect (h : ¬ (cs n).RecvFailed) :
    (disconnect n).run cs = .ok () (closed cs n) := by
  have hrun : (disconnect n).run cs = EStateM.run (match (cs n).disconnect.raised with
    | some e => throw (.raised e)
    | none => pure () : Fixture Unit) (closed cs n) := rfl
  rw [hrun, ((cs n).disconnects_iff_not_recvFailed.mpr h).returns]
  rfl

theorem not_connected_closed (h : ¬ (cs n).RecvFailed) : ¬ (closed cs n).Connected n := by
  rw [Clients.Connected, closed, Function.update_self, not_not]
  exact ((cs n).disconnects_iff_not_recvFailed.mpr h).ws

theorem ends_disconnect {f : Unit → Fixture β} : Ends (disconnect n >>= f) cs Q ↔
    ((cs n).RecvFailed → Q cs) ∧ (¬ (cs n).RecvFailed → Ends (f ()) (closed cs n) Q) := by
  by_cases h : (cs n).RecvFailed
  · obtain ⟨e, he⟩ := run_disconnect_of_recvFailed h
    rw [ends_bind_of_error he]
    simp [h]
  · rw [ends_bind_of_ok (run_disconnect h)]
    simp [h]

/-- The last step of a teardown. -/
theorem ends_disconnect_last : Ends (disconnect n) cs Q ↔
    ((cs n).RecvFailed → Q cs) ∧ (¬ (cs n).RecvFailed → Q (closed cs n)) := by
  rw [← bind_pure (disconnect n), ends_disconnect]
  rfl

/-- What `_login` does once the request has ended. -/
theorem run_login (l : LoginLife) : (login n (.ok l)).run cs =
    (do
      let resp ← raising l.reply
      unless success resp.2 do
        disconnect n
        throw (.skipped (field resp.2 "error"))
      return l : Fixture LoginLife).run (Function.update cs n l.atLogin.client) := by
  rw [← Function.update_idem (a := n) (WSClient.new.connect l.conn)]
  rfl

theorem run_login_of_reply {l : LoginLife} {resp : ℕ × Fields} (h : l.reply = .ok resp) :
    (login n (.ok l)).run cs =
      (do
        unless success resp.2 do
          disconnect n
          throw (.skipped (field resp.2 "error"))
        return l : Fixture LoginLife).run (Function.update cs n l.atLogin.client) := by
  rw [run_login, h]
  rfl

/-- `_login` leaves behind a client whose login was not answered, or whose `disconnect` raises. -/
theorem run_login_of_stuck (cs : Clients) (n : Name) {l : LoginLife} (h : l.Stuck) :
    ∃ e, (login n (.ok l)).run cs = .error e (Function.update cs n l.atLogin.client) := by
  rcases h with ⟨e, he⟩ | ⟨⟨resp, hresp, hsuccess⟩, hharmed⟩
  · rw [run_login, he]
    exact ⟨.raised e, rfl⟩
  · have hfailed : (Function.update cs n l.atLogin.client n).RecvFailed := by
      rwa [Function.update_self, ← l.harmedEarly_iff]
    obtain ⟨e, he⟩ := run_disconnect_of_recvFailed hfailed
    rw [run_login_of_reply hresp]
    simp only [hsuccess, Bool.false_eq_true, if_false]
    rw [EStateM.run_bind, he]
    exact ⟨.raised e, rfl⟩

/-- It disconnects before it skips. -/
theorem run_login_of_refused (cs : Clients) (n : Name) {l : LoginLife} (h : l.Refused)
    (hharmed : ¬ l.HarmedEarly) :
    ∃ e, (login n (.ok l)).run cs =
      .error e (closed (Function.update cs n l.atLogin.client) n) := by
  obtain ⟨resp, hresp, hsuccess⟩ := h
  have hfailed : ¬ (Function.update cs n l.atLogin.client n).RecvFailed := by
    rwa [Function.update_self, ← l.harmedEarly_iff]
  rw [run_login_of_reply hresp]
  simp only [hsuccess, Bool.false_eq_true, if_false]
  rw [EStateM.run_bind, run_disconnect hfailed]
  exact ⟨.skipped (field resp.2 "error"), rfl⟩

theorem run_login_of_accepted {l : LoginLife} (h : l.Accepted) :
    (login n (.ok l)).run cs = .ok l (Function.update cs n l.atLogin.client) := by
  obtain ⟨resp, hresp, hsuccess⟩ := h
  rw [run_login_of_reply hresp]
  simp only [hsuccess, if_true]
  rfl

end

/-! ## The fixtures -/

section

variable {cs : Clients} {n n' : Name}

theorem connected_update_self {c : WSClient} :
    Clients.Connected (Function.update cs n c) n ↔ c.ws ≠ none := by
  rw [Clients.Connected, Function.update_self]

theorem connected_update_of_ne {c : WSClient} (h : n' ≠ n) :
    Clients.Connected (Function.update cs n c) n' ↔ cs.Connected n' := by
  rw [Clients.Connected, Clients.Connected, Function.update_of_ne h]

theorem connected_closed_of_ne (h : n' ≠ n) : (closed cs n).Connected n' ↔ cs.Connected n' :=
  connected_update_of_ne h

theorem not_connected_start : ¬ start.Connected n := fun h => h rfl

/-- What `_login` leaves, and what comes after it. -/
theorem ends_login {f : LoginLife → Fixture Unit} (l : LoginLife) :
    Ends (login n (.ok l) >>= f) cs (fun cs => cs.Connected n') ↔
      n' = n ∧ l.Stuck ∨ n' ≠ n ∧ ¬ l.Accepted ∧ cs.Connected n' ∨ l.Accepted ∧
        Ends (f l) (Function.update cs n l.atLogin.client) fun cs => cs.Connected n' := by
  rcases l.outcome with hstuck | ⟨hrefused, hharmed⟩ | haccepted
  · obtain ⟨e, he⟩ := run_login_of_stuck cs n hstuck
    rw [ends_bind_of_error he]
    by_cases hn : n' = n
    · rw [hn, connected_update_self]
      exact iff_of_true l.ws_atLogin (.inl ⟨rfl, hstuck⟩)
    · rw [connected_update_of_ne hn]
      simp [hn, hstuck.not_accepted]
  · obtain ⟨e, he⟩ := run_login_of_refused cs n hrefused hharmed
    rw [ends_bind_of_error he]
    by_cases hn : n' = n
    · rw [hn]
      refine iff_of_false (not_connected_closed ?_) ?_
      · rwa [Function.update_self, ← l.harmedEarly_iff]
      · simp [hrefused.not_stuck hharmed, hrefused.not_accepted]
    · rw [connected_closed_of_ne hn, connected_update_of_ne hn]
      simp [hn, hrefused.not_accepted]
  · rw [ends_bind_of_ok (run_login_of_accepted haccepted)]
    have hstuck : ¬ l.Stuck := fun h => h.not_accepted haccepted
    simp [hstuck, haccepted]

/-- The teardown of one client. -/
theorem ends_teardown (l : Life) :
    Ends (disconnect .a) (Function.update cs .a l.atEnd.client) (fun cs => cs.Connected .a) ↔
      l.Harmed := by
  rw [ends_disconnect_last, Function.update_self, ← l.harmed_iff, connected_update_self]
  constructor
  · intro h
    by_contra hharmed
    refine not_connected_closed ?_ (h.2 hharmed)
    rwa [Function.update_self, ← l.harmed_iff]
  · exact fun hharmed => ⟨fun _ => l.stays_of_harmed hharmed, fun h => absurd hharmed h⟩

/-- It has no effect on the other one. -/
theorem ends_disconnect_of_ne (h : n' ≠ n) :
    Ends (disconnect n) cs (fun cs => cs.Connected n') ↔ cs.Connected n' := by
  rw [ends_disconnect_last, connected_closed_of_ne h, ← or_imp]
  exact forall_prop_of_true (em _)

/-- The clients of a pair after the test. -/
def pairAtEnd (l l' : Life) (cs : Clients) : Clients :=
  Function.update (Function.update cs .a l.atEnd.client) .b l'.atEnd.client

/-- The teardown of a pair. What the first `disconnect` raises keeps the second one from being
called. -/
theorem ends_pairTeardown_a (l l' : Life) (cs : Clients) :
    Ends (disconnect .b >>= fun _ => disconnect .a) (pairAtEnd l l' cs)
      (fun cs => cs.Connected .a) ↔ l.Harmed ∨ l'.Harmed ∧ l.Stays := by
  have hclosed : closed (pairAtEnd l l' cs) .b = Function.update (Function.update cs .b
      l'.atEnd.client.disconnect.client) .a l.atEnd.client := by
    rw [closed, pairAtEnd, Function.update_self, Function.update_idem,
      Function.update_comm (by simp)]
  have hstays : (pairAtEnd l l' cs).Connected .a ↔ l.Stays := by
    rw [pairAtEnd, connected_update_of_ne (by simp), connected_update_self]
    exact Iff.rfl
  have hb : (pairAtEnd l l' cs .b).RecvFailed ↔ l'.Harmed := by
    rw [pairAtEnd, Function.update_self, ← l'.harmed_iff]
  rw [ends_disconnect, hclosed, ends_teardown, hstays, hb]
  by_cases hharmed : l'.Harmed
  · simp only [hharmed, not_true_eq_false, true_imp_iff, false_imp_iff, true_and, and_true]
    exact (or_iff_right_of_imp l.stays_of_harmed).symm
  · simp [hharmed]

theorem ends_pairTeardown_b (l l' : Life) (cs : Clients) :
    Ends (disconnect .b >>= fun _ => disconnect .a) (pairAtEnd l l' cs)
      (fun cs => cs.Connected .b) ↔ l'.Harmed := by
  have hb : (pairAtEnd l l' cs .b).RecvFailed ↔ l'.Harmed := by
    rw [pairAtEnd, Function.update_self, ← l'.harmed_iff]
  rw [ends_disconnect, ends_disconnect_of_ne (by simp), hb]
  constructor
  · intro h
    by_contra hharmed
    exact not_connected_closed (mt hb.mp hharmed) (h.2 hharmed)
  · refine fun hharmed => ⟨fun _ => ?_, fun h => absurd hharmed h⟩
    rw [pairAtEnd, connected_update_self]
    exact l'.stays_of_harmed hharmed

end

/-! ## Each of the fixtures -/

variable {n : Name}

theorem ends_ws (a : Except PyError Life) :
    Ends (ws a) start (fun cs => cs.Connected n) ↔ (Use.ws a).Left n := by
  cases a with
  | error e =>
    have hnot : ¬ (Use.ws (.error e)).Left n := by cases n <;> simp [Use.Left]
    exact iff_of_false not_connected_start hnot
  | ok l =>
    rw [ws, ends_raising]
    simp only [Except.ok.injEq, forall_eq', reduceCtorEq, false_imp_iff, implies_true, and_true]
    rw [ends_connect, ends_become]
    cases n with
    | a =>
      rw [ends_teardown]
      simp [Use.Left]
    | b =>
      rw [ends_disconnect_of_ne (by simp), connected_update_of_ne (by simp),
        connected_update_of_ne (by simp)]
      exact iff_of_false not_connected_start id

theorem ends_wsPair (a b : Except PyError Life) :
    Ends (wsPair a b) start (fun cs => cs.Connected n) ↔ (Use.wsPair a b).Left n := by
  cases a with
  | error e =>
    have hnot : ¬ (Use.wsPair (.error e) b).Left n := by cases n <;> simp [Use.Left]
    exact iff_of_false not_connected_start hnot
  | ok l =>
    rw [wsPair, ends_raising]
    simp only [Except.ok.injEq, forall_eq', reduceCtorEq, false_imp_iff, implies_true, and_true]
    rw [ends_connect, ends_raising]
    cases b with
    | error e =>
      simp only [reduceCtorEq, false_imp_iff, implies_true, Except.error.injEq, forall_eq',
        true_and]
      cases n with
      | a =>
        rw [connected_update_self]
        simp [Use.Left, WSClient.connect]
      | b =>
        rw [connected_update_of_ne (by simp)]
        exact iff_of_false not_connected_start (by simp [Use.Left])
    | ok l' =>
      simp only [Except.ok.injEq, forall_eq', reduceCtorEq, false_imp_iff, implies_true, and_true]
      rw [ends_connect, ends_become, ends_become]
      cases n with
      | a => exact (ends_pairTeardown_a l l' _).trans (by simp [Use.Left])
      | b => exact (ends_pairTeardown_b l l' _).trans (by simp [Use.Left])

/-- If `connect` raises, nothing is left. -/
theorem ends_login_error {f : LoginLife → Fixture Unit} (e : PyError) :
    Ends (login n' (.error e) >>= f) cs (fun cs => cs.Connected n) ↔ cs.Connected n :=
  ends_bind_of_error rfl

theorem ends_wsAuth (a : Except PyError LoginLife) :
    Ends (wsAuth a) start (fun cs => cs.Connected n) ↔ (Use.wsAuth a).Left n := by
  cases a with
  | error e =>
    rw [wsAuth, ends_login_error]
    exact iff_of_false not_connected_start (by cases n <;> simp [Use.Left])
  | ok l =>
    rw [wsAuth, ends_login, ends_become]
    cases n with
    | a =>
      rw [ends_teardown l.toLife]
      simp [Use.Left]
    | b =>
      rw [ends_disconnect_of_ne (by simp), connected_update_of_ne (by simp),
        connected_update_of_ne (by simp)]
      simp [Use.Left, not_connected_start]

theorem ends_wsPairAuth (a b : Except PyError LoginLife) :
    Ends (wsPairAuth a b) start (fun cs => cs.Connected n) ↔ (Use.wsPairAuth a b).Left n := by
  cases a with
  | error e =>
    rw [wsPairAuth, ends_login_error]
    exact iff_of_false not_connected_start (by cases n <;> simp [Use.Left])
  | ok l =>
    rw [wsPairAuth, ends_login]
    cases b with
    | error e =>
      rw [ends_login_error]
      cases n with
      | a =>
        rw [connected_update_self]
        simp [Use.Left, l.ws_atLogin]
      | b =>
        rw [connected_update_of_ne (by simp)]
        simp [Use.Left, not_connected_start]
    | ok l' =>
      rw [ends_login, ends_become, ends_become]
      cases n with
      | a =>
        have hend := ends_pairTeardown_a l.toLife l'.toLife
          (Function.update (Function.update start .a l.atLogin.client) .b l'.atLogin.client)
        rw [pairAtEnd] at hend
        rw [hend, connected_update_self]
        by_cases haccepted : l'.Accepted <;> simp [Use.Left, l.ws_atLogin, haccepted]
      | b =>
        have hend := ends_pairTeardown_b l.toLife l'.toLife
          (Function.update (Function.update start .a l.atLogin.client) .b l'.atLogin.client)
        rw [pairAtEnd] at hend
        rw [hend]
        simp [Use.Left, not_connected_start]

/-- **Which clients a fixture leaves connected.**

`Use.Left` says it for each fixture, in terms of what becomes of its clients: whether the login was
answered and accepted, and whether a frame has come that ends the receive task, so that `disconnect`
raises what that task has raised before it closes the connection. The second client of a pair is set
up behind the first and disconnected before it, so an exception there leaves the first one
connected. -/
theorem left_iff (u : Use) (n : Name) :
    Ends u.fixture start (fun cs => cs.Connected n) ↔ u.Left n := by
  cases u with
  | ws a => exact ends_ws a
  | wsPair a b => exact ends_wsPair a b
  | wsAuth a => exact ends_wsAuth a
  | wsPairAuth a b => exact ends_wsPairAuth a b

/-- The reply to a login. -/
def loginReply (accepted : Bool) : Fields :=
  [("type", .str "login_response"), ("success", .bool accepted)]

/-- A login that is answered. -/
def loginSteps (accepted : Bool) : List Label :=
  [.start 0 loginCall 0, .sent 0, .resume 0 0, .resume 0 0,
    .receive (.ok (.obj (loginReply accepted))) 1, .run, .resume 0 1]

/-- A client that logs in, and that the test does not use. -/
def loggingIn (accepted : Bool) : LoginLife where
  conn := 0
  steps := loginSteps accepted
  setup := loginSteps accepted
  test := []
  steps_eq := rfl
  stays := by simp [loginSteps]
  atLogin := (Lts.run step new (.connect 0 :: loginSteps accepted)).get rfl
  atEnd := (Lts.run step new (.connect 0 :: loginSteps accepted)).get rfl
  run_setup := (Option.some_get _).symm
  run_steps := (Option.some_get _).symm
  reply := .ok (2, loginReply accepted)
  ended := rfl

/-- The second client of a pair is refused, and the test is skipped: the first stays connected. -/
theorem first_left : (loggingIn true).Accepted ∧ (loggingIn false).Refused ∧
    Ends (wsPairAuth (.ok (loggingIn true)) (.ok (loggingIn false))) start
      fun cs => cs.Connected .a := by
  have haccepted : (loggingIn true).Accepted := ⟨_, rfl, rfl⟩
  have hrefused : (loggingIn false).Refused := ⟨_, rfl, rfl⟩
  refine ⟨haccepted, hrefused, (left_iff (.wsPairAuth _ _) .a).mpr ?_⟩
  refine ⟨_, rfl, .inr ⟨haccepted, fun l' hl' haccepted' => ?_⟩⟩
  obtain rfl := Except.ok.inj hl'
  exact absurd haccepted' hrefused.not_accepted

end Fixtures

end SasTests
