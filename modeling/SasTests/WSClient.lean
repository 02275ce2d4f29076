import SasTests.EventAccumulator

/-!
# The WebSocket client and its event loop

`WSClient` sends requests and waits for their replies, while its background task `_recv_loop`
hands every received object either to the response queue of the object's type, if somebody has
registered one, or to the event accumulator.

The first half of this module is the object itself: its fields, `_ensure_queue`, the body of
`_recv_loop`, `connect` and `disconnect`. The second half is the client at work: any number of
calls of its methods in flight, the receive task, and what the world outside may do. A call runs
from one suspension to the next as one atomic step; `Frame` says where it is suspended and which
local variables it keeps. The getters woken by `put` run in the order in which they were woken;
everything else about the order of steps is left open, which covers what the event loop does.

`Loop.log` is a history variable: what has been started, sent, received, handed out and cleared,
in order. No step reads it, except to number the received objects.
-/

namespace SasTests

open Python Asyncio

namespace MsgType

/-- `PING` -/
def ping : String := "ping"
/-- `PONG` -/
def pong : String := "pong"
/-- `DATA_RESPONSE` -/
def dataResponse : String := "data_response"
/-- `HARDWARE_STATUS_UPDATE` -/
def hardwareStatusUpdate : String := "hardware_status_update"

end MsgType

/-- `DEFAULT_WS_TIMEOUT` -/
def defaultWsTimeout : ℚ := 5

/-! ## The object -/

/-- A task that waits in a queue: the number of the call, and which of its getter tasks it is (`0`
when the call itself waits). -/
abbrev Waiter : Type := ℕ × ℕ

/-- What has become of the task `_recv_task`. -/
inductive RecvTask
  /-- it is reading from the connection -/
  | running
  /-- it returned, because the connection was closed -/
  | finished
  /-- it ended with an exception -/
  | failed (e : PyError)
  deriving DecidableEq

/-- The fields of a `WSClient`. -/
structure WSClient where
  /-- `_ws`: the connection, by number -/
  ws : Option ℕ
  /-- `_recv_task` -/
  recvTask : Option RecvTask
  /-- `_events` -/
  events : EventAccumulator
  /-- `_pending_responses` -/
  pendingResponses : String → Option (Queue Received Waiter)
  /-- `_last_elapsed_ms` -/
  lastElapsedMs : ℚ

namespace WSClient

/-- `__init__`. -/
def new : WSClient := ⟨none, none, .new, fun _ => none, 0⟩

/-- `_ensure_queue`. -/
def ensureQueue (c : WSClient) (msgType : String) : WSClient :=
  match c.pendingResponses msgType with
  | some _ => c
  | none =>
    { c with pendingResponses := Function.update c.pendingResponses msgType (some .empty) }

/-- `_ensure_queue` for each of several types. -/
def ensureQueues (c : WSClient) (msgTypes : List String) : WSClient :=
  msgTypes.foldl ensureQueue c

/-- The queue of type `t` has become `q`. -/
def setQueue (c : WSClient) (t : String) (q : Queue Received Waiter) : WSClient :=
  { c with pendingResponses := Function.update c.pendingResponses t (some q) }

/-- `msg_type in _IGNORED_TYPES`: looking something up in a set takes its hash first. -/
def inIgnoredTypes (msgType : Json) : Except PyError Bool :=
  if msgType.hashable then .ok (msgType.eqStr MsgType.ping || msgType.eqStr MsgType.pong)
  else .error .typeError

/-- `msg_type and msg_type in self._pending_responses`, with the queue found. The keys of the
dictionary are strings. -/
def pendingQueue (c : WSClient) (msgType : Json) : Option (String × Queue Received Waiter) :=
  match msgType with
  | .str t => if t = "" then none else (c.pendingResponses t).map fun q => (t, q)
  | _ => none

/-- One pass through the body of `_recv_loop`, for a frame of which `json.loads` made `loaded`.
The result is the exception that escapes the loop, or the client after the pass and the getter
that `put` has woken. `idx` is the identity of the object received. -/
def dispatch (c : WSClient) (loaded : Except PyError Json) (idx : ℕ) (now : ℚ) :
    Except PyError (WSClient × Option Waiter) :=
  match loaded with
  | .error .jsonDecodeError => .ok (c, none)
  | .error .typeError => .ok (c, none)
  | .error e => .error e
  | .ok msg => do
    let msgType ← msg.get "type"
    if ← inIgnoredTypes msgType then return (c, none)
    match c.pendingQueue msgType with
    | some (t, q) => return (c.setQueue t (q.put ⟨idx, msg⟩).1, (q.put ⟨idx, msg⟩).2)
    | none => return ({ c with events := c.events.push ⟨idx, msg⟩ now }, none)

/-- `connect`, once `websockets.connect` has opened connection number `conn`. -/
def connect (c : WSClient) (conn : ℕ) : WSClient :=
  { c with ws := some conn, recvTask := some .running }

/-- How `disconnect` ended. -/
structure Disconnected where
  /-- the client afterwards -/
  client : WSClient
  /-- the connection whose `close` was called -/
  closed : Option ℕ
  /-- the exception `disconnect` raised -/
  raised : Option PyError

/-- `disconnect`. Cancelling the receive task has an effect only while it is running; awaiting it
then raises `CancelledError`, which is caught. Awaiting a task that ended with an exception of its
own raises that exception, which is not. -/
def disconnect (c : WSClient) : Disconnected :=
  match c.recvTask with
  | some (.failed e) => ⟨c, none, some e⟩
  | _ => ⟨{ c with recvTask := none, ws := none }, c.ws, none⟩

end WSClient

/-! ## Calls -/

/-- A message on the wire. -/
inductive Wire
  /-- `json.dumps(message, ensure_ascii=False)`, written by `send` -/
  | json (message : Json)
  /-- a text written by `send_raw` -/
  | text (s : String)

/-- A call of one of the methods of `WSClient` that wait for something. -/
inductive Call
  | request (message : Json) (responseType : String) (timeout : ℚ)
  | requestAny (message : Json) (responseTypes : List String) (timeout : ℚ)
  | waitFor (msgType : String) (timeout : ℚ)
  | waitForCondition (predicate : Json → Except PyError Bool) (timeout : ℚ)
  | burstSameResponse (messages : List Json) (responseType : String) (timeoutEach : ℚ)
  | getSystemParams
  | getWorkModeFromStatus (timeout : ℚ)

/-- What a call returns. -/
inductive Result
  /-- a message taken from a queue -/
  | message (m : Received)
  /-- the messages taken from a queue -/
  | messages (ms : List Received)
  /-- the value computed from an event in the accumulator -/
  | event (source : Received) (value : Json)
  /-- `None` -/
  | none

/-- Where a call is, with the local variables that it still needs. -/
inductive Frame
  /-- in `send`; `todo` are the messages not yet written -/
  | sending (todo : List Wire) (t0 : ℚ)
  /-- about to call `queue.get()`: `left` messages are wanted, `out` have been taken -/
  | collecting (left : ℕ) (out : List Received) (t0 : ℚ)
  /-- suspended in `queue.get()`; after this one `left` messages are wanted -/
  | getting (left : ℕ) (out : List Received) (t0 : ℚ)
  /-- `request_any` has created its getter tasks, none of which has run -/
  | created (t0 : ℚ)
  /-- `request_any` is suspended in `asyncio.wait`; `got` says what each getter task has taken -/
  | waiting (got : List (Option Received)) (t0 : ℚ)
  /-- between two polls of the accumulator -/
  | polling (deadline : ℚ)
  /-- it returned `r` -/
  | returned (r : Result)
  /-- it raised -/
  | raised (e : PyError)

namespace Call

/-- The types whose queues the call registers before anything else. -/
def responseTypes : Call → List String
  | request _ responseType _ => [responseType]
  | requestAny _ responseTypes _ => responseTypes
  | waitFor msgType _ => [msgType]
  | burstSameResponse _ responseType _ => [responseType]
  | _ => []

/-- The messages the call sends. -/
def outgoing : Call → List Wire
  | request message _ _ => [.json message]
  | requestAny message _ _ => [.json message]
  | burstSameResponse messages _ _ => messages.map .json
  | getSystemParams => [.text "data:request:system_params"]
  | _ => []

/-- The type whose queue the call itself calls `get` on. -/
def queueType : Call → String
  | request _ responseType _ => responseType
  | waitFor msgType _ => msgType
  | burstSameResponse _ responseType _ => responseType
  | _ => ""

/-- `lambda m: m.get("type") == DATA_RESPONSE and m.get("data_type") == "system_params"` -/
def isSystemParams (m : Json) : Except PyError Bool := do
  let type ← m.get "type"
  if type.eqStr MsgType.dataResponse then
    let dataType ← m.get "data_type"
    return dataType.eqStr "system_params"
  return false

/-- `lambda m: m.get("type") == HARDWARE_STATUS_UPDATE and "data" in m and`
`"job_statistics" in m.get("data", {})` -/
def hasJobStatistics (m : Json) : Except PyError Bool := do
  let type ← m.get "type"
  if type.eqStr MsgType.hardwareStatusUpdate then
    if ← m.contains "data" then
      let data ← m.get "data" (.obj [])
      return ← data.contains "job_statistics"
  return false

/-- `msg["data"]["job_statistics"].get("work_mode")` -/
def workModeOf (m : Json) : Except PyError Json := do
  let data ← m.getItem "data"
  let jobStatistics ← data.getItem "job_statistics"
  jobStatistics.get "work_mode"

/-- The predicate the call gives to `wait_for_condition`. -/
def predicate : Call → Json → Except PyError Bool
  | waitForCondition predicate _ => predicate
  | getSystemParams => isSystemParams
  | getWorkModeFromStatus _ => hasJobStatistics
  | _ => fun _ => .ok false

/-- What the call makes of the message that `wait_for_condition` found. -/
def finish : Call → Json → Except PyError Json
  | getWorkModeFromStatus _ => workModeOf
  | _ => .ok

/-- `{types!r}` for a tuple of strings without quotes, which is what every caller passes. -/
def reprTypes (types : List String) : String :=
  "(" ++ ", ".intercalate (types.map fun t => "'" ++ t ++ "'") ++
    (if types.length = 1 then ",)" else ")")

/-- How the call ends when its waiting times out. The timeout of a burst is the bare exception of
`asyncio.wait_for`. -/
def onTimeout : Call → Frame
  | request _ responseType timeout => .raised (.timeoutError
      ("No '" ++ responseType ++ "' response within " ++ fixed1 timeout ++ "s"))
  | requestAny _ responseTypes timeout => .raised (.timeoutError
      ("No response in " ++ reprTypes responseTypes ++ " within " ++ fixed1 timeout ++ "s"))
  | waitFor msgType timeout => .raised (.timeoutError
      ("No '" ++ msgType ++ "' message within " ++ fixed1 timeout ++ "s"))
  | waitForCondition _ timeout => .raised (.timeoutError
      ("Condition not met within " ++ fixed1 timeout ++ "s"))
  | burstSameResponse _ _ _ => .raised (.timeoutError "")
  | getSystemParams => .raised (.timeoutError
      ("Condition not met within " ++ fixed1 defaultWsTimeout ++ "s"))
  | getWorkModeFromStatus _ => .returned .none

/-- What the call does once its messages are out (at time `now`). `asyncio.wait` refuses an empty
set of tasks. -/
def afterSend (c : Call) (t0 now : ℚ) : Frame :=
  match c with
  | request _ _ _ => .collecting 1 [] t0
  | requestAny _ responseTypes _ => if responseTypes = [] then .raised .valueError else .created t0
  | waitFor _ _ => .collecting 1 [] t0
  | waitForCondition _ timeout => .polling (now + timeout)
  | burstSameResponse messages _ _ => .collecting messages.length [] now
  | getSystemParams => .polling (now + defaultWsTimeout)
  | getWorkModeFromStatus timeout => .polling (now + timeout)

/-- The result of a call that has taken all the messages it wanted. -/
def result (c : Call) (out : List Received) : Result :=
  match c with
  | burstSameResponse _ _ _ => .messages out
  | _ => match out with
    | m :: _ => .message m
    | [] => .none

/-- `_last_elapsed_ms` after the call has got its messages. `wait_for` does not set it. -/
def elapsed (c : Call) (t0 now before : ℚ) : ℚ :=
  match c with
  | waitFor _ _ => before
  | _ => (now - t0) * 1000

end Call

/-! ## The event loop -/

/-- A call and where it is. -/
structure Task where
  /-- the call -/
  call : Call
  /-- where it is -/
  frame : Frame

/-- An entry of the history. -/
inductive Obs
  /-- call number `i` began, and registered its queues -/
  | started (i : ℕ) (c : Call)
  /-- call `i` wrote a message -/
  | sent (i : ℕ) (w : Wire)
  /-- the receive task took an object -/
  | received (m : Received)
  /-- a `get` of call `i` took a message from the queue of type `t` -/
  | handed (i : ℕ) (t : String) (m : Received)
  /-- the accumulator was cleared -/
  | cleared

/-- A client at work. -/
structure Loop where
  /-- the client -/
  client : WSClient
  /-- the calls of `wait_for_event` on its accumulator, by number -/
  eventCalls : ℕ → Option WaitFrame
  /-- the calls of its own methods, by number -/
  calls : ℕ → Option Task
  /-- the getters that have been woken and have not run yet, in the order in which they will -/
  ready : List Waiter
  /-- the history -/
  log : List Obs

namespace Loop

/-- A new client. -/
def new : Loop := ⟨.new, fun _ => none, fun _ => none, [], []⟩

/-- Put call `i` in frame `f`. -/
def setFrame (s : Loop) (i : ℕ) (c : Call) (f : Frame) : Loop :=
  { s with calls := Function.update s.calls i (some ⟨c, f⟩) }

/-- One pass of `get` on the queue of type `t`, by waiter `w`. -/
def getPass (s : Loop) (w : Waiter) (t : String) : Loop × Option Received :=
  match s.client.pendingResponses t with
  | none => (s, none)
  | some q => match q.get w with
    | (q, none) => ({ s with client := s.client.setQueue t q }, none)
    | (q, some m) =>
      ({ s with client := s.client.setQueue t q, log := s.log ++ [.handed w.1 t m] }, some m)

/-- The getter tasks of call `i`, from number `j` on, run for the first time. They were created in
a row, so they run in a row. -/
def runGetters (s : Loop) (i : ℕ) : ℕ → List String → Loop × List (Option Received)
  | _, [] => (s, [])
  | j, t :: ts =>
    let r := s.getPass (i, j) t
    let rs := r.1.runGetters i (j + 1) ts
    (rs.1, r.2 :: rs.2)

/-- Waiter `w` is cancelled while suspended in `get` on the queue of type `t`. -/
def cancelGetter (s : Loop) (w : Waiter) (t : String) : Loop :=
  match s.client.pendingResponses t with
  | none => s
  | some q =>
    let r := q.cancel w (decide (w ∈ s.ready))
    { s with client := s.client.setQueue t r.1, ready := s.ready.erase w ++ r.2.toList }

/-- `for t in pending: t.cancel()`, for the getter tasks of call `i` from number `j` on. -/
def cancelGetters (s : Loop) (i : ℕ) : ℕ → List String → List (Option Received) → Loop
  | j, t :: ts, none :: got => (s.cancelGetter (i, j) t).cancelGetters i (j + 1) ts got
  | j, _ :: ts, some _ :: got => s.cancelGetters i (j + 1) ts got
  | _, _, _ => s

/-- `for ev in all_events: if predicate(ev): return ev` -/
def firstMatch (p : Json → Except PyError Bool) : List Received → Except PyError (Option Received)
  | [] => .ok none
  | ev :: evs => do
    if ← p ev.body then return some ev
    firstMatch p evs

/-- The receive task handles a frame of which `json.loads` made `loaded`. -/
def receive (s : Loop) (loaded : Except PyError Json) (now : ℚ) : Loop :=
  match s.client.dispatch loaded s.log.length now with
  | .error e => { s with client := { s.client with recvTask := some (.failed e) } }
  | .ok (client, woken) =>
    { s with
      client := client
      ready := s.ready ++ woken.toList
      log := match loaded with
        | .ok msg => s.log ++ [.received ⟨s.log.length, msg⟩]
        | .error _ => s.log }

/-- A woken getter `(i, j)` runs: it takes a message, or suspends again. -/
def runGetter (s : Loop) (i j : ℕ) : Loop :=
  match s.calls i with
  | some ⟨c, .getting left out t0⟩ => match s.getPass (i, j) c.queueType with
    | (s, none) => s
    | (s, some m) => s.setFrame i c (.collecting left (out ++ [m]) t0)
  | some ⟨c, .waiting got t0⟩ => match c.responseTypes[j]?, got[j]? with
    | some t, some none => match s.getPass (i, j) t with
      | (s, none) => s
      | (s, some m) => s.setFrame i c (.waiting (got.set j (some m)) t0)
    | _, _ => s
  | _ => s

/-- One poll of `wait_for_condition` in call `i`. -/
def poll (s : Loop) (i : ℕ) (c : Call) (deadline now : ℚ) : Loop :=
  match firstMatch c.predicate (s.client.events.getAll none) with
  | .error e => s.setFrame i c (.raised e)
  | .ok (some ev) => match c.finish ev.body with
    | .ok v => s.setFrame i c (.returned (.event ev v))
    | .error e => s.setFrame i c (.raised e)
  | .ok none => if deadline - now ≤ 0 then s.setFrame i c c.onTimeout else s

/-- What can happen next. -/
inductive Label
  /-- `connect` opens connection `conn` -/
  | connect (conn : ℕ)
  /-- `disconnect` -/
  | disconnect
  /-- the connection is closed by the peer, and the receive task notices -/
  | peerClosed
  /-- a frame arrives -/
  | receive (loaded : Except PyError Json) (now : ℚ)
  /-- a task makes call number `i` -/
  | start (i : ℕ) (c : Call) (now : ℚ)
  /-- the next message of call `i` is written -/
  | sent (i : ℕ)
  /-- the `send` of call `i` fails, because the connection is closed -/
  | sendFails (i : ℕ)
  /-- call `i` goes on: from `send`, or to the next `queue.get()`, or to its return -/
  | resume (i : ℕ) (now : ℚ)
  /-- the first of the woken getters runs -/
  | run
  /-- the getter tasks of call `i` run for the first time -/
  | getters (i : ℕ)
  /-- `asyncio.wait` in call `i` returns, and `next(iter(done))` is getter task `pick` -/
  | wake (i pick : ℕ) (now : ℚ)
  /-- the timeout of call `i` fires while it is suspended in `get` or in `asyncio.wait` -/
  | timeout (i : ℕ)
  /-- call `i` polls the accumulator -/
  | poll (i : ℕ) (now : ℚ)
  /-- somebody reads, clears or waits on the accumulator -/
  | events (l : Waiting.Label)

/-- One atomic step. -/
def step (s : Loop) : Label → Option Loop
  | .connect conn =>
    -- a second connection beside a live one is not modelled: callers disconnect first
    if s.client.recvTask = some .running then none
    else some { s with client := s.client.connect conn }
  | .disconnect => some { s with client := s.client.disconnect.client }
  | .peerClosed =>
    if s.client.recvTask = some .running then
      some { s with client := { s.client with recvTask := some .finished } }
    else none
  | .receive loaded now =>
    if s.client.recvTask = some .running then some (s.receive loaded now) else none
  | .start i c now =>
    match s.calls i with
    | none => some ({ s with
        client := s.client.ensureQueues c.responseTypes
        log := s.log ++ [Obs.started i c] }.setFrame i c (.sending c.outgoing now))
    | some _ => none
  | .sent i =>
    match s.calls i with
    | some ⟨c, .sending (w :: todo) t0⟩ =>
      -- `assert self._ws is not None`, at each `send`
      match s.client.ws with
      | none => some (s.setFrame i c (.raised (.assertionError "Not connected")))
      | some _ => some ({ s with log := s.log ++ [Obs.sent i w] }.setFrame i c (.sending todo t0))
    | _ => none
  | .sendFails i =>
    match s.calls i with
    | some ⟨c, .sending (_ :: _) _⟩ => some (s.setFrame i c (.raised .connectionClosed))
    | _ => none
  | .resume i now =>
    match s.calls i with
    | some ⟨c, .sending [] t0⟩ => some (s.setFrame i c (c.afterSend t0 now))
    | some ⟨c, .collecting 0 out t0⟩ => some ({ s with
        client := { s.client with
          lastElapsedMs := c.elapsed t0 now s.client.lastElapsedMs } }.setFrame i c
            (.returned (c.result out)))
    | some ⟨c, .collecting (left + 1) out t0⟩ =>
      match s.getPass (i, 0) c.queueType with
      | (s, none) => some (s.setFrame i c (.getting left out t0))
      | (s, some m) => some (s.setFrame i c (.collecting left (out ++ [m]) t0))
    | _ => none
  | .run =>
    match s.ready with
    | (i, j) :: rest => some ({ s with ready := rest }.runGetter i j)
    | [] => none
  | .getters i =>
    match s.calls i with
    | some ⟨c, .created t0⟩ =>
      let r := s.runGetters i 0 c.responseTypes
      some (r.1.setFrame i c (.waiting r.2 t0))
    | _ => none
  | .wake i pick now =>
    match s.calls i with
    | some ⟨c, .waiting got t0⟩ => match got[pick]? with
      | some (some m) =>
        -- the pending getters are cancelled before the result is taken
        let s := s.cancelGetters i 0 c.responseTypes got
        some ({ s with client := { s.client with
          lastElapsedMs := c.elapsed t0 now s.client.lastElapsedMs } }.setFrame i c
            (.returned (.message m)))
      | _ => none
    | _ => none
  | .timeout i =>
    match s.calls i with
    | some ⟨c, .getting _ _ _⟩ =>
      some ((s.cancelGetter (i, 0) c.queueType).setFrame i c c.onTimeout)
    | some ⟨c, .waiting got _⟩ =>
      -- `if not done`
      if got.all Option.isNone then
        some ((s.cancelGetters i 0 c.responseTypes got).setFrame i c c.onTimeout)
      else none
    | _ => none
  | .poll i now =>
    match s.calls i with
    | some ⟨c, .polling deadline⟩ => some (s.poll i c deadline now)
    | _ => none
  -- only the receive task pushes
  | .events (.push _ _) => none
  | .events l =>
    (Waiting.step ⟨s.client.events, s.eventCalls⟩ l).map fun w =>
      { s with
        client := { s.client with events := w.acc }
        eventCalls := w.calls
        log := match l with
          | .clear => s.log ++ [.cleared]
          | _ => s.log }

end Loop

end SasTests
