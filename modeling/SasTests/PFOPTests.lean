import SasTests.CheckTorqueConstraints
import SasTests.PFOPLists
import SasTests.Python.Float

/-!
# The tests of PFOP

The tests ask the controller for its parameter sets (MID 0010) or its jobs (MID 0030), after they
have started the communication (MID 0001), and judge the ids in its answer. A test runs on the
client of its fixture and may end early, when it skips itself, when an assertion fails or with an
exception (`Exit`).

A controller answers the bytes that it has received, with one frame or not at all, and its answers
come in any pieces (`Controller`). The client waits for one answer before it asks for the next, so
no piece holds more than one frame. Hence what `recv_frame` throws away behind a NUL is nothing
here, and how an answer is cut does not matter (`recvFrame_answered`). The connection takes all
requests and is not reset; without an answer the wait for a frame ends with a `TimeoutError`.

* `rangeTest_exact` — the tests of the range judge the ids that are there in full in the answer.
* `matchesWsSpecDomain_iff` — the test that compares the parameter sets with the specifications.
  Specifications with the fields that the other tests require are not compared with anything.
-/

namespace SasTests.PFOPTests

open Python Python.Json PFOPClient
open CheckTorqueConstraints (iterate)

/-! ## The code -/

/-- How a test ends early. -/
inductive Exit
  /-- `pytest.skip` -/
  | skipped (reason : String)
  /-- an `assert` fails -/
  | failed
  /-- an exception comes out of it -/
  | raised (e : PyError)
  deriving DecidableEq

/-- A part of a test, with the client of the fixture `pfop_client`. -/
abbrev Test (α : Type) : Type := EStateM Exit PFOPClient α

/-- A controller and the network: what comes from it once it has received these bytes. -/
abbrev Controller : Type := List UInt8 → List Chunk

section

variable {α : Type}

/-- An operation that may raise. -/
def raising : Except PyError α → Test α
  | .ok a => pure a
  | .error e => throw (.raised e)

/-- `assert c` -/
def assert (c : Bool) : Test Unit := if c then pure () else throw .failed

end

variable (controller : Controller)

/-- What comes from the controller now stands behind what has come. -/
def arrive (client : PFOPClient) : PFOPClient :=
  ⟨client.sock.map fun sock => { sock with incoming := sock.incoming ++ controller sock.sent }⟩

/-- `pfop_client.send_mid(mid, revision=1)`, and the controller answers. -/
def sendMid (mid : ℤ) : Test Unit := fun client =>
  match client.sendMid mid 1 with
  | (.ok (), client) => .ok () (arrive controller client)
  | (.error e, client) => .error (.raised e) client

/-- `pfop_client.recv_frame()` -/
def recvFrame : Test PFOPFrame := fun client =>
  match client.recvFrame with
  | (.ok frame, client) => .ok frame client
  | (.error e, client) => .error (.raised e) client

/-- `pfop_client.recv_frame()`, where a `TimeoutError` skips the test. -/
def recvFrameOrSkip (reason : String) : Test PFOPFrame :=
  tryCatch recvFrame fun
    | .raised (.timeoutError _) => throw (.skipped reason)
    | e => throw e

/-- A frame with the MID `mid` is expected, and MID 0004 skips the test. -/
def expectMid (mid : ℤ) (reason : String) (frame : PFOPFrame) : Test Unit := do
  if frame.mid = 4 then throw (.skipped reason)
  assert (frame.mid = mid)

/-- `all(0 <= i <= 127 for i in ids)` -/
def inRange (ids : List ℤ) : Bool := ids.all fun i => 0 ≤ i ∧ i ≤ 127

/-- `test_comm_start_ack` -/
def commStartAck : Test Unit := do
  sendMid controller 1
  let frame ← recvFrameOrSkip "PFOP comm-start got no response in current environment"
  assert (frame.mid = 2 ∨ frame.mid = 4)

/-- What the tests of the parameter sets have in common: asking for the list. -/
def psetList : Test PFOPFrame := do
  sendMid controller 1
  let _ ← recvFrame
  sendMid controller 10
  let frame ← recvFrame
  expectMid 11 "PFOP returned command error for MID 0010" frame
  return frame

/-- `test_pset_id_range_0_127` -/
def psetIdRange : Test Unit := do
  let frame ← psetList controller
  let ids ← raising (parsePsetIds frame.data)
  assert !ids.isEmpty
  assert (inRange ids)

/-- `test_job_id_range_0_127` -/
def jobIdRange : Test Unit := do
  sendMid controller 1
  let _ ← recvFrameOrSkip "PFOP comm-start got no response in current environment"
  sendMid controller 30
  let frame ← recvFrameOrSkip "PFOP job list request got no response in current environment"
  expectMid 31 "PFOP returned command error for MID 0030" frame
  let ids ← raising (parseJobIds frame.data frame.revision)
  if ids.isEmpty then throw (.skipped "PFOP returned empty Job list")
  assert (inRange ids)

/-- `int(item["specification_id"])` or `int(item["id"])`, if the item is a dictionary with one of
these keys; `text` is `int` of a text. -/
def wsId (text : String → Except PyError ℤ) : Json → Except PyError (Option ℤ)
  | .obj fields => match (fields.lookup "specification_id").or (fields.lookup "id") with
    | some value => some <$> value.toInt text
    | none => .ok none
  | _ => .ok none

/-- `ws_ids` -/
def wsIds (text : String → Except PyError ℤ) (specs : List Json) : Except PyError (List ℤ) := do
  return (← specs.mapM (wsId text)).filterMap id

/-- What the next test does with the ids and the specifications. -/
def compareIds (text : String → Except PyError ℤ) (specs : Except PyError Json)
    (pfopIds : List ℤ) : Test Unit := do
  let specs ← raising (specs >>= iterate)
  let wsIds ← raising (wsIds text specs)
  assert !pfopIds.isEmpty
  if !wsIds.isEmpty then assert (pfopIds.all fun i => i ∈ wsIds)

/-- `test_tcp_pset_list_matches_ws_spec_domain`; `specs` is what connecting, `get_spec_list` and
disconnecting come to. -/
def matchesWsSpecDomain (text : String → Except PyError ℤ) (specs : Except PyError Json) :
    Test Unit := do
  let frame ← psetList controller
  let pfopIds ← raising (parsePsetIds frame.data)
  compareIds text specs pfopIds

/-! ## Conversations -/

section

variable {α β : Type} {c : PFOPClient} {t : Test α}

/-- How a part of a test ends. -/
def ending (t : Test α) (c : PFOPClient) : Except Exit α :=
  match t.run c with
  | .ok a _ => .ok a
  | .error e _ => .error e

/-- How a test on a connection that has just been made ends. -/
def outcome (test : Test α) (closed : Bool) : Except Exit α := ending test ⟨some ⟨[], closed, []⟩⟩

/-- A step that returns. -/
theorem ending_bind_of_ok {f : α → Test β} {a : α} {c' : PFOPClient} (h : t.run c = .ok a c') :
    ending (t >>= f) c = ending (f a) c' := by
  rw [ending, ending, EStateM.run_bind, h]

/-- A step that ends the test. -/
theorem ending_bind_of_error {f : α → Test β} {e : Exit} {c' : PFOPClient}
    (h : t.run c = .error e c') : ending (t >>= f) c = .error e := by
  rw [ending, EStateM.run_bind, h]

theorem ending_assert {p : Bool} :
    ending (assert p >>= fun _ => t) c = if p = true then ending t c else .error .failed := by
  cases p <;> rfl

/-- What comes of an operation that may raise. -/
def attempt (x : Except PyError α) (f : α → Except Exit β) : Except Exit β :=
  match x with
  | .ok a => f a
  | .error e => .error (.raised e)

theorem ending_raising {x : Except PyError α} {f : α → Test β} :
    ending (raising x >>= f) c = attempt x fun a => ending (f a) c := by
  cases x <;> rfl

theorem ending_expectMid {mid : ℤ} {reason : String} {frame : PFOPFrame} :
    ending (expectMid mid reason frame >>= fun _ => t) c =
      if frame.mid = 4 then .error (.skipped reason)
      else if frame.mid = mid then ending t c else .error .failed := by
  by_cases h4 : frame.mid = 4
  · rw [if_pos h4, expectMid, if_pos h4]
    rfl
  · rw [if_neg h4, expectMid, if_neg h4]
    by_cases hmid : frame.mid = mid
    · rw [if_pos hmid, assert, decide_eq_true hmid]
      rfl
    · rw [if_neg hmid, assert, decide_eq_false hmid]
      rfl

end

/-- The bytes of a request without data. -/
def request (mid : ℕ) : List UInt8 :=
  WireFrame.field 4 20 ++ (WireFrame.field 4 mid ++
    (WireFrame.field 3 1 ++ (List.replicate 9 32 ++ []))) ++ [0]

/-- When it has received these requests, the controller answers with this frame, or not at all. -/
def Answers (mids : List ℕ) (reply : Option WireFrame) : Prop :=
  (controller (mids.flatMap request)).flatMap Chunk.bytes =
    (reply.map WireFrame.bytes).getD []

instance decidableAnswers (mids : List ℕ) (reply : Option WireFrame) :
    Decidable (Answers controller mids reply) :=
  inferInstanceAs (Decidable (_ = _))

/-- The client after these requests, when all answers have been read. -/
def idle (closed : Bool) (mids : List ℕ) : PFOPClient := ⟨some ⟨[], closed, mids.flatMap request⟩⟩

/-- The client when the answer to the last of these requests has come. -/
def answered (closed : Bool) (mids : List ℕ) : PFOPClient :=
  ⟨some ⟨controller (mids.flatMap request), closed, mids.flatMap request⟩⟩

section

variable {controller} {α : Type} {closed : Bool} {mids : List ℕ} {mid : ℕ} {reply : WireFrame}

/-- MID 0001 fits its field. -/
theorem start_lt : 1 < 10 ^ 4 := by decide

theorem payload_request (hmid : mid < 10 ^ 4) : payload mid (1 : ℕ) "" = .ok (request mid) :=
  payload_eq hmid (by decide) (by decide) (by decide)

theorem run_sendMid (hmid : mid < 10 ^ 4) :
    (sendMid controller mid).run (idle closed mids) =
      .ok () (answered controller closed (mids ++ [mid])) := by
  have hsent : PFOPClient.sendMid (idle closed mids) mid 1 =
      (.ok (), ⟨some ⟨[], closed, mids.flatMap request ++ request mid⟩⟩) :=
    sendMid_eq (payload_request hmid) _
  have hflat : (mids ++ [mid]).flatMap request = mids.flatMap request ++ request mid := by simp
  simp only [EStateM.run, sendMid, hsent, arrive, answered, hflat]
  rfl

/-- A frame is read, and nothing is left, however the frame was cut. -/
theorem recvFrame_answered (h : Answers controller mids (some reply)) :
    PFOPClient.recvFrame (answered controller closed mids) =
      (.ok reply.received, idle closed mids) := by
  have hflat : ((controller (mids.flatMap request)).map Chunk.bytes).flatten =
      reply.body ++ [0] := by
    rw [← List.flatMap_def, h]
    rfl
  obtain ⟨out, post, hread, hrec, hpost⟩ := Records.readUntil_single reply.notMem_body hflat
  obtain ⟨hframe, hrest⟩ :=
    recvLoop_eq closed (controller (mids.flatMap request)) (List.not_mem_nil (a := (0 : UInt8)))
  rw [hread] at hframe hrest
  -- a chunk that is left would have to be empty
  have hnil : (recvLoop closed (controller (mids.flatMap request)) []).2 = [] := by
    refine List.eq_nil_iff_forall_not_mem.mpr fun chunk hchunk => chunk.nonempty ?_
    have hmem := List.mem_map_of_mem (f := Chunk.bytes) hchunk
    rw [hrest] at hmem
    exact List.flatten_eq_nil_iff.mp hpost _ hmem
  have hparsed : (recvLoop closed (controller (mids.flatMap request)) []).1.bind parseFrame =
      .ok reply.received := by
    rw [hframe, Option.map_some, hrec]
    exact reply.parseRaw_bytes
  simp only [PFOPClient.recvFrame, answered]
  rw [hparsed, hnil]
  rfl

/-- Without an answer, waiting for one ends with a `TimeoutError`. -/
theorem recvFrame_silent (closed : Bool) (h : Answers controller mids none) :
    ∃ message, PFOPClient.recvFrame (answered controller closed mids) =
      (.error (.timeoutError message), idle closed mids) := by
  have hnil : controller (mids.flatMap request) = [] := by
    refine List.eq_nil_iff_forall_not_mem.mpr fun chunk hchunk => chunk.nonempty ?_
    exact List.flatMap_eq_nil_iff.mp h _ hchunk
  rw [answered, hnil]
  cases closed with
  | true => exact ⟨_, rfl⟩
  | false => exact ⟨_, rfl⟩

variable {f : PFOPFrame → Test α} {reason : String} (mids mid)

/-- A request that is answered with a frame. -/
theorem ending_ask (hmid : mid < 10 ^ 4) (h : Answers controller (mids ++ [mid]) (some reply)) :
    ending (sendMid controller mid >>= fun _ => recvFrame >>= f) (idle closed mids) =
      ending (f reply.received) (idle closed (mids ++ [mid])) := by
  rw [ending_bind_of_ok (run_sendMid hmid)]
  apply ending_bind_of_ok
  simp only [EStateM.run, recvFrame, recvFrame_answered h]

theorem ending_askOrSkip (hmid : mid < 10 ^ 4)
    (h : Answers controller (mids ++ [mid]) (some reply)) :
    ending (sendMid controller mid >>= fun _ => recvFrameOrSkip reason >>= f) (idle closed mids) =
      ending (f reply.received) (idle closed (mids ++ [mid])) := by
  rw [ending_bind_of_ok (run_sendMid hmid)]
  apply ending_bind_of_ok
  simp only [recvFrameOrSkip, tryCatch, tryCatchThe, MonadExceptOf.tryCatch, EStateM.tryCatch,
    EStateM.run, recvFrame, recvFrame_answered h]

/-- A request that is not answered. -/
theorem ending_ask_silent (hmid : mid < 10 ^ 4) (h : Answers controller (mids ++ [mid]) none) :
    ∃ message, ending (sendMid controller mid >>= fun _ => recvFrame >>= f) (idle closed mids) =
      .error (.raised (.timeoutError message)) := by
  obtain ⟨message, hsilent⟩ := recvFrame_silent closed h
  refine ⟨message, ?_⟩
  rw [ending_bind_of_ok (run_sendMid hmid)]
  apply ending_bind_of_error
  simp only [EStateM.run, recvFrame, hsilent]
  rfl

theorem ending_askOrSkip_silent (hmid : mid < 10 ^ 4)
    (h : Answers controller (mids ++ [mid]) none) :
    ending (sendMid controller mid >>= fun _ => recvFrameOrSkip reason >>= f) (idle closed mids) =
      .error (.skipped reason) := by
  obtain ⟨message, hsilent⟩ := recvFrame_silent closed h
  rw [ending_bind_of_ok (run_sendMid hmid)]
  apply ending_bind_of_error
  simp only [recvFrameOrSkip, tryCatch, tryCatchThe, MonadExceptOf.tryCatch, EStateM.tryCatch,
    EStateM.run, recvFrame, hsilent]
  rfl

/-- Asking for the parameter sets. -/
theorem ending_psetList {start list : WireFrame} (hstart : Answers controller [1] (some start))
    (hlist : Answers controller [1, 10] (some list)) :
    ending (psetList controller >>= f) (idle closed []) =
      if (list.mid : ℤ) = 4 then .error (.skipped "PFOP returned command error for MID 0010")
      else if (list.mid : ℤ) = 11 then ending (f list.received) (idle closed [1, 10])
      else .error .failed := by
  simp only [psetList, bind_assoc, pure_bind]
  refine (ending_ask [] 1 start_lt hstart).trans ?_
  refine (ending_ask [1] 10 (by decide) hlist).trans ?_
  exact ending_expectMid

end

/-- Starting the communication. -/
theorem outcome_commStartAck {controller : Controller} {closed : Bool} {start : Option WireFrame}
    (h : Answers controller [1] start) : outcome (commStartAck controller) closed = .ok () ↔
      ∃ frame, start = some frame ∧ (frame.mid = 2 ∨ frame.mid = 4) := by
  rcases start with _ | frame
  · have hend : outcome (commStartAck controller) closed =
        .error (.skipped "PFOP comm-start got no response in current environment") :=
      ending_askOrSkip_silent [] 1 start_lt h
    simp [hend]
  · have hend : outcome (commStartAck controller) closed =
        ending (assert (frame.received.mid = 2 ∨ frame.received.mid = 4)) (idle closed [1]) :=
      ending_askOrSkip [] 1 start_lt h
    have hmid : ((frame.received.mid = 2 ∨ frame.received.mid = 4) ↔
        (frame.mid = 2 ∨ frame.mid = 4)) := by
      simp only [WireFrame.received]
      omega
    rw [hend, decide_eq_decide.mpr hmid, assert]
    by_cases hor : frame.mid = 2 ∨ frame.mid = 4
    · rw [decide_eq_true hor]
      exact iff_of_true rfl ⟨frame, rfl, hor⟩
    · rw [decide_eq_false hor]
      refine iff_of_false (fun h => by cases h) ?_
      rintro ⟨_, hsome, hor'⟩
      obtain rfl := Option.some.inj hsome
      exact hor hor'

/-! ## The range of the ids -/

/-- The tests that judge the range of the ids. -/
inductive RangeTest
  | pset
  | job

namespace RangeTest

variable (kind : RangeTest)

/-- The test. -/
def test : Test Unit := match kind with
  | pset => psetIdRange controller
  | job => jobIdRange controller

/-- The MID of its request. -/
def asks : ℕ := match kind with
  | pset => 10
  | job => 30

theorem asks_lt : kind.asks < 10 ^ 4 := by
  cases kind <;> decide

/-- The list that it reads in the answer. -/
def list (frame : WireFrame) : IdList := match kind with
  | pset => .pset
  | job => .job frame.revision

/-- Why it is skipped if the request is refused. -/
def refusal : String := match kind with
  | pset => "PFOP returned command error for MID 0010"
  | job => "PFOP returned command error for MID 0030"

/-- How it ends without any ids. -/
def empty : Exit := match kind with
  | pset => .failed
  | job => .skipped "PFOP returned empty Job list"

/-- How it ends for these ids. -/
def verdict (ids : List ℤ) : Except Exit Unit :=
  if ids = [] then .error kind.empty
  else if ∀ i ∈ ids, 0 ≤ i ∧ i ≤ 127 then .ok ()
  else .error .failed

/-- How it ends for this answer. -/
def judge (frame : WireFrame) : Except Exit Unit :=
  if (frame.mid : ℤ) = 4 then .error (.skipped kind.refusal)
  else if (frame.mid : ℤ) = kind.asks + 1 then
    attempt ((kind.list frame).parse frame.data) kind.verdict
  else .error .failed

variable {kind} {closed : Bool} {c : PFOPClient} {ids : List ℤ}

theorem ending_inRange : ending (assert (inRange ids)) c =
    if ∀ i ∈ ids, 0 ≤ i ∧ i ≤ 127 then .ok () else .error .failed := by
  have hrange : inRange ids = decide (∀ i ∈ ids, 0 ≤ i ∧ i ≤ 127) := by
    simp [inRange, List.all_eq]
  rw [hrange, assert]
  split_ifs with h <;> simp_all <;> rfl

/-- What the test of the parameter sets does with the ids. -/
theorem ending_psetIds : ending (assert (!ids.isEmpty) >>= fun _ => assert (inRange ids)) c =
    pset.verdict ids := by
  rw [ending_assert, ending_inRange]
  cases ids <;> rfl

/-- What the test of the jobs does with them. -/
theorem ending_jobIds : ending (do
    if ids.isEmpty then throw (.skipped "PFOP returned empty Job list")
    assert (inRange ids)) c = job.verdict ids := by
  cases ids with
  | nil => rfl
  | cons i ids => exact ending_inRange

/-- A test ends as it has to for the answer that it gets. -/
theorem outcome_test {controller : Controller} {start list : WireFrame}
    (hstart : Answers controller [1] (some start))
    (hlist : Answers controller [1, kind.asks] (some list)) :
    outcome (kind.test controller) closed = kind.judge list := by
  cases kind with
  | pset =>
    refine (ending_psetList hstart hlist).trans ?_
    refine ite_congr rfl (fun _ => rfl) fun _ => ite_congr rfl (fun _ => ?_) fun _ => rfl
    rw [ending_raising]
    exact congrArg (attempt (parsePsetIds list.data)) (funext fun _ => ending_psetIds)
  | job =>
    refine (ending_askOrSkip [] 1 start_lt hstart).trans ?_
    refine (ending_askOrSkip [1] 30 job.asks_lt hlist).trans ?_
    rw [ending_expectMid]
    refine ite_congr rfl (fun _ => rfl) fun _ => ite_congr rfl (fun _ => ?_) fun _ => rfl
    rw [ending_raising]
    exact congrArg (attempt (parseJobIds list.data list.revision)) (funext fun _ => ending_jobIds)

/-- How a test ends if the controller does not answer. -/
def Silence (e : Exit) : Prop := match kind with
  | pset => ∃ message, e = .raised (.timeoutError message)
  | job => ∃ reason, e = .skipped reason

theorem outcome_silent (closed : Bool) {controller : Controller} {start list : Option WireFrame}
    (hstart : Answers controller [1] start) (hlist : Answers controller [1, kind.asks] list)
    (h : start = none ∨ list = none) :
    ∃ e, outcome (kind.test controller) closed = .error e ∧ kind.Silence e := by
  cases start with
  | none =>
    cases kind with
    | pset =>
      simp only [RangeTest.test, psetIdRange, psetList, bind_assoc]
      obtain ⟨message, hend⟩ := ending_ask_silent [] 1 start_lt hstart
      exact ⟨_, hend, message, rfl⟩
    | job => exact ⟨_, ending_askOrSkip_silent [] 1 start_lt hstart, _, rfl⟩
  | some start =>
    obtain rfl := h.resolve_left (Option.some_ne_none start)
    cases kind with
    | pset =>
      simp only [RangeTest.test, psetIdRange, psetList, bind_assoc]
      obtain ⟨message, hend⟩ := ending_ask_silent [1] 10 pset.asks_lt hlist
      exact ⟨_, (ending_ask [] 1 start_lt hstart).trans hend, message, rfl⟩
    | job =>
      have hend : outcome (job.test controller) closed =
          .error (.skipped "PFOP job list request got no response in current environment") :=
        (ending_askOrSkip [] 1 start_lt hstart).trans
          (ending_askOrSkip_silent [1] 30 job.asks_lt hlist)
      exact ⟨_, hend, _, rfl⟩

theorem verdict_eq_ok {u : Unit} :
    kind.verdict ids = .ok u ↔ ids ≠ [] ∧ ∀ i ∈ ids, 0 ≤ i ∧ i ≤ 127 := by
  unfold verdict
  split_ifs with hnil hrange
  · exact iff_of_false (fun h => by cases h) fun h => h.1 hnil
  · exact iff_of_true rfl ⟨hnil, hrange⟩
  · exact iff_of_false (fun h => by cases h) fun h => hrange h.2

theorem asks_ne (kind : RangeTest) : (kind.asks : ℤ) + 1 ≠ 4 := by
  cases kind <;> decide

theorem judge_eq_ok {frame : WireFrame} {u : Unit} : kind.judge frame = .ok u ↔
    frame.mid = kind.asks + 1 ∧ ∃ ids, (kind.list frame).parse frame.data = .ok ids ∧ ids ≠ [] ∧
      ∀ i ∈ ids, 0 ≤ i ∧ i ≤ 127 := by
  rw [judge]
  constructor
  · intro h
    split_ifs at h with h4 hmid
    refine ⟨by exact_mod_cast hmid, ?_⟩
    cases hparse : (kind.list frame).parse frame.data with
    | error e =>
      rw [hparse] at h
      cases h
    | ok ids =>
      rw [hparse] at h
      exact ⟨ids, rfl, verdict_eq_ok.mp h⟩
  · rintro ⟨hmid, ids, hparse, hids⟩
    have hmid' : (frame.mid : ℤ) = kind.asks + 1 := by exact_mod_cast hmid
    rw [if_neg (hmid' ▸ kind.asks_ne), if_pos hmid', hparse]
    exact verdict_eq_ok.mpr hids

end RangeTest

/-- A list of ids of which only the first bytes are there. -/
theorem parse_cut {kind : IdList} {ids : List ℕ} (h : kind.Fits ids) (n : ℕ) :
    kind.parse ((encodeIds kind.width ids).take n) =
      .ok ((ids.take (n / kind.width - 1)).map Nat.cast) := by
  have hw := kind.width_pos
  rw [IdList.parse_eq]
  by_cases hn : n < kind.width
  · rw [parseIds_take_of_lt ids hn, Nat.div_eq_of_lt hn]
    rfl
  · obtain ⟨j, rfl⟩ := Nat.exists_eq_add_of_le (Nat.le_of_not_lt hn)
    rw [parseIds_take hw h.1 h.2, Nat.add_div_left j hw, Nat.add_sub_cancel]

theorem length_encodeIds {kind : IdList} {ids : List ℕ} (h : kind.Fits ids) :
    (encodeIds kind.width ids).length = kind.width * (ids.length + 1) := by
  rw [encodeIds, List.length_map, List.length_append, length_formatInt kind.width_pos h.1,
    length_idTexts kind.width_pos h.2, Nat.mul_succ, Nat.add_comm]

theorem parse_whole {kind : IdList} {ids : List ℕ} (h : kind.Fits ids) :
    kind.parse (encodeIds kind.width ids) = .ok (ids.map Nat.cast) := by
  have hcut := parse_cut h (encodeIds kind.width ids).length
  rwa [List.take_length, length_encodeIds h, Nat.mul_div_cancel_left _ kind.width_pos,
    Nat.add_sub_cancel, List.take_length] at hcut

/-- **The tests of the range judge the ids that are there in full**, however the answers are cut
into pieces, and pass only for a list of ids that are all in the range.

A controller that does not answer one of the two requests is not judged: the wait for a frame ends
with a `TimeoutError`, which comes out of the test of the parameter sets and skips that of the jobs.
And of a list that was cut off after `n` bytes the ids that are there in full decide, so that an id
out of the range is not found if it was cut off. The connection stays open, or the peer closes it
behind its answers (`closed`); a connection that is reset is not considered. -/
theorem rangeTest_exact (kind : RangeTest) (controller : Controller) (closed : Bool)
    (start list : Option WireFrame) (hstart : Answers controller [1] start)
    (hlist : Answers controller [1, kind.asks] list) :
    (outcome (kind.test controller) closed = .ok () ↔ start ≠ none ∧ ∃ frame, list = some frame ∧
        frame.mid = kind.asks + 1 ∧ ∃ ids, (kind.list frame).parse frame.data = .ok ids ∧
          ids ≠ [] ∧ ∀ i ∈ ids, 0 ≤ i ∧ i ≤ 127) ∧
      (start = none ∨ list = none →
        ∃ e, outcome (kind.test controller) closed = .error e ∧ kind.Silence e) ∧
      ∀ frame ids n, start ≠ none → list = some frame → frame.mid = kind.asks + 1 →
        (kind.list frame).Fits ids →
          frame.data = (encodeIds (kind.list frame).width ids).take n →
            outcome (kind.test controller) closed =
              kind.verdict ((ids.take (n / (kind.list frame).width - 1)).map Nat.cast) := by
  refine ⟨?_, RangeTest.outcome_silent closed hstart hlist, ?_⟩
  · rcases start with _ | start
    · obtain ⟨e, he, -⟩ := RangeTest.outcome_silent closed hstart hlist (.inl rfl)
      simp [he]
    rcases list with _ | list
    · obtain ⟨e, he, -⟩ := RangeTest.outcome_silent closed hstart hlist (.inr rfl)
      simp [he]
    · rw [RangeTest.outcome_test hstart hlist, RangeTest.judge_eq_ok]
      simp
  · rintro frame ids n hanswered rfl hmid hfits hdata
    obtain ⟨start, rfl⟩ := Option.ne_none_iff_exists'.mp hanswered
    have hmid' : (frame.mid : ℤ) = kind.asks + 1 := by exact_mod_cast hmid
    rw [RangeTest.outcome_test hstart hlist, RangeTest.judge, if_neg (hmid' ▸ kind.asks_ne),
      if_pos hmid', hdata, parse_cut hfits]
    rfl

/-- MID 0011 with the parameter sets 3 and 200, of which the last byte is missing. -/
def cutPsets : WireFrame :=
  { startAck with
    length := 28
    mid := 11
    data := (encodeIds 3 [3, 200]).take 8
    length_lt := by decide
    mid_lt := by decide
    notMem_data := by decide }

/-- A controller that answers MID 0001, and then with this list, in two pieces. -/
def cutController : Controller := fun received =>
  if received = request 1 then [⟨startAck.bytes, by decide, by decide⟩]
  else [⟨cutPsets.bytes.take 5, by decide, by decide⟩,
    ⟨cutPsets.bytes.drop 5, by decide, by decide⟩]

/-- The one that is out of range is not there in full. -/
theorem rangeTest_exact_cut : outcome (RangeTest.pset.test cutController) true = .ok () :=
  ((rangeTest_exact .pset cutController true (some startAck) (some cutPsets) (by decide)
    (by decide)).2.2 cutPsets [3, 200] 8 (Option.some_ne_none _) rfl rfl
      ⟨by decide, by decide⟩ rfl).trans (by decide)

/-! ## The specifications -/

/-- `_REQUIRED_OPTION_FIELDS`: what the other tests require of a specification in the list. -/
def requiredOptionFields : List String :=
  ["value", "label", "unit", "isActive", "displayOrder", "pieceCount", "progCnt", "referenceCount"]

/-- A specification with these fields and no others. -/
def IsOption (spec : Json) : Prop :=
  ∃ fields, spec = .obj fields ∧ fields.map Prod.fst ⊆ requiredOptionFields

section

variable {text : String → Except PyError ℤ} {specs : List Json}

theorem wsId_of_isOption {spec : Json} (h : IsOption spec) : wsId text spec = .ok none := by
  obtain ⟨fields, rfl, hfields⟩ := h
  have hnone : ∀ key ∉ requiredOptionFields, fields.lookup key = none := by
    intro key hkey
    rw [List.lookup_eq_none_iff]
    intro p hp
    rw [bne_iff_ne]
    rintro rfl
    exact hkey (hfields (List.mem_map_of_mem hp))
  rw [wsId, hnone _ (by decide), hnone _ (by decide)]
  rfl

/-- No id is found in them. -/
theorem wsIds_of_isOption (h : ∀ spec ∈ specs, IsOption spec) : wsIds text specs = .ok [] := by
  have hmap : specs.mapM (wsId text) = .ok (specs.map fun _ => none) := by
    induction specs with
    | nil => rfl
    | cons spec specs ih =>
      obtain ⟨hspec, hspecs⟩ := List.forall_mem_cons.mp h
      rw [List.mapM_cons, wsId_of_isOption hspec, ih hspecs]
      rfl
  rw [wsIds, hmap]
  refine congrArg Except.ok ?_
  rw [List.filterMap_map]
  simp

theorem ending_compareIds {c : PFOPClient} {pfopIds : List ℤ} {u : Unit} :
    ending (compareIds text (.ok (.arr specs)) pfopIds) c = .ok u ↔
      pfopIds ≠ [] ∧ ∃ domain, wsIds text specs = .ok domain ∧
        (domain = [] ∨ ∀ i ∈ pfopIds, i ∈ domain) := by
  rw [compareIds, ending_raising]
  show attempt (.ok specs) _ = _ ↔ _
  rw [attempt, ending_raising]
  cases hdomain : wsIds text specs with
  | error e => exact iff_of_false (fun h => by cases h) fun ⟨_, domain, h, _⟩ => by cases h
  | ok domain =>
    rw [attempt, ending_assert]
    cases pfopIds with
    | nil => exact iff_of_false (fun h => by cases h) fun h => h.1 rfl
    | cons i pfopIds =>
      cases domain with
      | nil => exact iff_of_true rfl ⟨List.cons_ne_nil _ _, [], rfl, .inl rfl⟩
      | cons j domain =>
        have hall : ((i :: pfopIds).all fun i => i ∈ j :: domain) =
            decide (∀ k ∈ i :: pfopIds, k ∈ j :: domain) := by
          simp [List.all_eq]
        show ending (assert ((i :: pfopIds).all fun i => i ∈ j :: domain)) c = _ ↔ _
        rw [hall]
        by_cases hsub : ∀ k ∈ i :: pfopIds, k ∈ j :: domain
        · rw [decide_eq_true hsub]
          exact iff_of_true rfl ⟨List.cons_ne_nil _ _, _, rfl, .inr hsub⟩
        · rw [decide_eq_false hsub]
          refine iff_of_false (fun h => by cases h) ?_
          rintro ⟨-, _, hd, hor⟩
          obtain rfl := Except.ok.inj hd
          exact hor.elim (List.cons_ne_nil _ _) hsub

/-- **The parameter sets are compared with the specifications that have an id under one of two
keys, and with nothing if there is none**; the specifications that the other tests require have
none.

The test wants an id, and that the ids of the controller are among those of the specifications. But
it looks for these under `specification_id` and `id`, and the list of specifications has them under
`value`, as the other tests read it. Then there is nothing to compare with, and the test passes for
every list of ids that is not empty. -/
theorem matchesWsSpecDomain_iff (controller : Controller) (closed : Bool)
    (text : String → Except PyError ℤ) (start list : WireFrame) {ids : List ℕ} (specs : List Json)
    (hstart : Answers controller [1] (some start)) (hlist : Answers controller [1, 10] (some list))
    (hmid : list.mid = 11) (hfits : IdList.pset.Fits ids) (hdata : list.data = encodeIds 3 ids) :
    (outcome (matchesWsSpecDomain controller text (.ok (.arr specs))) closed = .ok () ↔
        ids ≠ [] ∧ ∃ domain, wsIds text specs = .ok domain ∧
          (domain = [] ∨ ∀ i ∈ ids, (i : ℤ) ∈ domain)) ∧
      ((∀ spec ∈ specs, IsOption spec) →
        (outcome (matchesWsSpecDomain controller text (.ok (.arr specs))) closed = .ok () ↔
          ids ≠ [])) := by
  have hparse : parsePsetIds list.data = .ok (ids.map Nat.cast) := by
    rw [hdata]
    exact parse_whole hfits
  have hmid' : (list.mid : ℤ) = 11 := by exact_mod_cast hmid
  have hend : outcome (matchesWsSpecDomain controller text (.ok (.arr specs))) closed =
      ending (compareIds text (.ok (.arr specs)) (ids.map Nat.cast)) (idle closed [1, 10]) := by
    refine (ending_psetList hstart hlist).trans ?_
    rw [if_neg (by omega), if_pos hmid', ending_raising]
    show attempt (parsePsetIds list.data) _ = _
    rw [hparse, attempt]
  have hiff : outcome (matchesWsSpecDomain controller text (.ok (.arr specs))) closed = .ok () ↔
        ids ≠ [] ∧ ∃ domain, wsIds text specs = .ok domain ∧
          (domain = [] ∨ ∀ i ∈ ids, (i : ℤ) ∈ domain) := by
    rw [hend, ending_compareIds]
    simp only [ne_eq, List.map_eq_nil_iff, List.forall_mem_map]
  refine ⟨hiff, fun h => ?_⟩
  rw [hiff, wsIds_of_isOption h]
  simp

/-- MID 0011 with the parameter set 200. -/
def onePset : WireFrame :=
  { cutPsets with
    length := 26
    data := encodeIds 3 [200]
    length_lt := by decide
    notMem_data := by decide }

/-- A controller that answers MID 0001, and then with this list. -/
def onePsetController : Controller := fun received =>
  if received = request 1 then [⟨startAck.bytes, by decide, by decide⟩]
  else [⟨onePset.bytes, by decide, by decide⟩]

/-- It is not one of the specifications, but their `value` is not looked at. -/
theorem matchesWsSpecDomain_iff_unnoticed :
    outcome (matchesWsSpecDomain onePsetController (fun text => parseInt text.toList)
      (.ok (.arr [.obj [("value", .num 0)]]))) true = .ok () :=
  ((matchesWsSpecDomain_iff onePsetController true _ startAck onePset _ (by decide) (by decide) rfl
    ⟨by decide, by decide⟩ rfl).2 (List.forall_mem_singleton.mpr ⟨_, rfl, by decide⟩)).mpr
      (List.cons_ne_nil 200 [])

end

end SasTests.PFOPTests
