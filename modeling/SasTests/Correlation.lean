import SasTests.Delivery
import SasTests.RecvLoop

/-!
# Replies are matched to requests by counting

Replies carry no number. One task makes its calls one after another, each `request` or
`burst_same_response`, to a server that sends one reply of the awaited type for every request and
nothing else of that type; then the `k`-th message handed out for a type answers the `k`-th request
made for it, whatever else arrives in between.

`Server` says what the server answers, and `OneByOne` how the parties behave. Two invariants carry
the result. `Correlated` is about the whole history: what has arrived for a type is the start of the
server's answers for it. `Stage` follows the current call: everything the earlier calls asked for
has been handed out, so what the call takes answers its own requests. It does not matter whether it
sends its requests one by one or all at once (`correlation`).

`Attended` is about progress: the call does not sleep beside a message, so only the server can keep
it from returning.
-/

namespace SasTests

open Python Asyncio

/-! ## The server -/

/-- A request as it is written, with the type of the reply that its sender waits for. -/
abbrev Request : Type := String × Wire

/-- The requests of type `t` among several. -/
def countOf (t : String) (rs : List Request) : ℕ := rs.countP fun r => r.1 = t

theorem countOf_append (t : String) (rs rs' : List Request) :
    countOf t (rs ++ rs') = countOf t rs + countOf t rs' := List.countP_append ..

theorem countOf_own (t t' : String) (ws : List Wire) :
    countOf t' (ws.map fun w => (t, w)) = if t = t' then ws.length else 0 := by
  rw [countOf, List.countP_map]
  by_cases ht : t = t'
  · rw [if_pos ht]
    exact List.countP_eq_length.mpr fun w _ => decide_eq_true ht
  · rw [if_neg ht]
    exact List.countP_eq_zero.mpr fun w _ => by simpa using ht

/-- A server that answers every request with one message of the type that its sender waits for. What
it answers may depend on all the requests before. -/
structure Server where
  /-- the reply to the last of several requests -/
  reply : List Request → Json
  /-- the reply has the type that the sender waits for -/
  typed : ∀ rs r, (⟨0, reply (rs ++ [r])⟩ : Received).typeStr = some r.1

namespace Server

variable (srv : Server)

/-- The replies to the requests that come after the requests `before`, each with its type. -/
def replies (before : List Request) : List Request → List (String × Json)
  | [] => []
  | r :: rs => (r.1, srv.reply (before ++ [r])) :: replies (before ++ [r]) rs

/-- The replies to the requests of type `t`, in the order of the requests. -/
def answersOf (t : String) (rs : List Request) : List Json :=
  ((srv.replies [] rs).filter fun p => p.1 = t).map Prod.snd

theorem replies_append (before rs rs' : List Request) :
    srv.replies before (rs ++ rs') = srv.replies before rs ++ srv.replies (before ++ rs) rs' := by
  induction rs generalizing before with
  | nil => simp [replies]
  | cons r rs ih => simp [replies, ih]

theorem map_fst_replies (before rs : List Request) :
    (srv.replies before rs).map Prod.fst = rs.map Prod.fst := by
  induction rs generalizing before with
  | nil => rfl
  | cons r rs ih => simp [replies, ih]

@[simp] theorem length_replies (before rs : List Request) :
    (srv.replies before rs).length = rs.length := by
  simpa using congrArg List.length (srv.map_fst_replies before rs)

theorem answersOf_append (t : String) (rs rs' : List Request) :
    srv.answersOf t (rs ++ rs') =
      srv.answersOf t rs ++ ((srv.replies rs rs').filter fun p => p.1 = t).map Prod.snd := by
  simp [answersOf, replies_append]

theorem length_answersOf (t : String) (rs : List Request) :
    (srv.answersOf t rs).length = countOf t rs := by
  have hcount : ∀ ps : List (String × Json),
      (ps.filter fun p => p.1 = t).length = (ps.map Prod.fst).countP (· = t) := by
    intro ps
    rw [List.countP_map, ← List.countP_eq_length_filter]
    rfl
  rw [answersOf, List.length_map, hcount, map_fst_replies, List.countP_map]
  rfl

/-- Requests of one type add their replies to the answers of that type. -/
theorem answersOf_own (t : String) (rs : List Request) (ws : List Wire) :
    srv.answersOf t (rs ++ ws.map fun w => (t, w)) =
      srv.answersOf t rs ++ (srv.replies rs (ws.map fun w => (t, w))).map Prod.snd := by
  rw [answersOf_append, List.filter_eq_self.mpr]
  intro p hp
  have hfst : p.1 ∈ (ws.map fun w => (t, w)).map Prod.fst :=
    srv.map_fst_replies rs _ ▸ List.mem_map_of_mem hp
  rw [List.map_map] at hfst
  obtain ⟨w, -, hw⟩ := List.mem_map.mp hfst
  exact decide_eq_true hw.symm

/-- An answer of type `t` is a message of type `t`. -/
theorem typeStr_of_mem {t : String} {rs : List Request} {msg : Json}
    (h : msg ∈ srv.answersOf t rs) (idx : ℕ) : (⟨idx, msg⟩ : Received).typeStr = some t := by
  have key : ∀ before rs p, p ∈ srv.replies before rs →
      (⟨idx, p.2⟩ : Received).typeStr = some p.1 := by
    intro before rs
    induction rs generalizing before with
    | nil => exact fun p hp => (List.not_mem_nil hp).elim
    | cons r rs ih =>
      intro p hp
      rcases List.mem_cons.mp hp with rfl | hp
      · exact srv.typed before r
      · exact ih _ p hp
  obtain ⟨p, hp, rfl⟩ := List.mem_map.mp h
  obtain ⟨hmem, ht⟩ := List.mem_filter.mp hp
  rw [key [] rs p hmem, of_decide_eq_true ht]

end Server

/-! ## One task, one call after another -/

namespace Call

/-- The call is `request` or `burst_same_response`. -/
def asks : Call → Bool
  | request _ _ _ => true
  | burstSameResponse _ _ _ => true
  | _ => false

/-- The requests the call makes. -/
def requests (c : Call) : List Request := c.outgoing.map fun w => (c.queueType, w)

theorem afterSend_of_asks {c : Call} (h : c.asks = true) (t0 now : ℚ) :
    ∃ t, c.afterSend t0 now = .collecting c.outgoing.length [] t := by
  cases c with
  | request => exact ⟨t0, rfl⟩
  | burstSameResponse messages t timeout =>
    refine ⟨now, ?_⟩
    simp [afterSend, outgoing]
  | _ => cases h

theorem responseTypes_of_asks {c : Call} (h : c.asks = true) :
    c.responseTypes = [c.queueType] := by
  cases c with
  | request => rfl
  | burstSameResponse => rfl
  | _ => cases h

end Call

/-- The messages in a result. -/
def Result.bodies : Result → List Json
  | .message m => [m.body]
  | .messages ms => ms.map Received.body
  | _ => []

theorem Call.bodies_result {c : Call} (h : c.asks = true) {out : List Received}
    (hout : out.length = c.outgoing.length) : (c.result out).bodies = out.map Received.body := by
  cases c with
  | request message t timeout =>
    obtain ⟨m, rfl⟩ := List.length_eq_one_iff.mp hout
    rfl
  | burstSameResponse => rfl
  | _ => cases h

namespace Loop

/-- A client that has just been connected. -/
def connected (conn : ℕ) : Loop := { new with client := WSClient.new.connect conn }

/-- Every call made so far has ended. -/
def Idle (s : Loop) : Prop := ∀ i task, s.calls i = some task → task.frame.ended = true

/-- The requests written so far. -/
def requests (s : Loop) : List Request :=
  s.log.filterMap fun o => match o with
    | .sent i w => (s.calls i).map fun task => (task.call.queueType, w)
    | _ => none

/-- One task makes one call after another, each `request` or `burst_same_response`; no call times
out, and the client stays connected. Of the types awaited so far, nothing arrives but the next
answer of the server. -/
def OneByOne (srv : Server) (s : Loop) : Label → Prop
  | .start _ c _ => c.asks = true ∧ s.Idle
  | .receive (.ok msg) _ => ∀ t ∈ (⟨s.log.length, msg⟩ : Received).typeStr,
      (s.items t).isSome = true →
        (arrivedSince t s.log).map Received.body ++ [msg] <+: srv.answersOf t s.requests
  | .timeout _ => False
  | .sendFails _ => False
  | .disconnect => False
  | _ => True

/-! ## The invariants -/

/-- All the requests `rs` have had their messages handed out, and no others. -/
def Drained (s : Loop) (rs : List Request) : Prop :=
  ∀ t, (handedOf t s.log).length = countOf t rs

/-- The current call, which began after the requests `R`, has sent its own, has taken `out`, and
wants `left` more messages. -/
structure Collected (s : Loop) (c : Call) (R : List Request) (left : ℕ) (out : List Received) :
    Prop where
  /-- its requests are the last -/
  requests : s.requests = R ++ c.requests
  /-- it wants one message for each of them -/
  count : out.length + left = c.outgoing.length
  /-- what it has taken comes after the messages for the earlier requests -/
  handed : ∃ pre, handedOf c.queueType s.log = pre ++ out ∧ pre.length = countOf c.queueType R
  /-- nothing has been taken of the other types -/
  others : ∀ t, t ≠ c.queueType → (handedOf t s.log).length = countOf t R

/-- How far the current call is, which began after the requests `R`. -/
def Stage (srv : Server) (s : Loop) (c : Call) (R : List Request) : Frame → Prop
  | .sending todo _ => (∃ done, c.outgoing = done ++ todo ∧
      s.requests = R ++ done.map fun w => (c.queueType, w)) ∧ s.Drained R
  | .collecting left out _ => s.Collected c R left out
  | .getting left out _ => s.Collected c R (left + 1) out
  | .returned r => r.bodies = (srv.replies R c.requests).map Prod.snd ∧
      s.requests = R ++ c.requests ∧ s.Drained (R ++ c.requests)
  | _ => False

/-- What has happened so far, as far as the types are concerned that calls have waited for. -/
structure Correlated (srv : Server) (s : Loop) : Prop where
  /-- every call is `request` or `burst_same_response` -/
  asks : ∀ i task, s.calls i = some task → task.call.asks = true
  /-- its queue is registered -/
  registered : ∀ i task, s.calls i = some task → (s.items task.call.queueType).isSome = true
  /-- what was sent was sent by a call -/
  started : ∀ i w, Obs.sent i w ∈ s.log → (s.calls i).isSome = true
  /-- what has arrived is the start of the server's answers -/
  arrived : ∀ t, (arrivedSince t s.log).map Received.body <+: srv.answersOf t s.requests
  /-- nothing is handed out from the queues of the special types -/
  irregular : ∀ t, ¬ Regular t → handedOf t s.log = []

/-- The call that was made last, if there is one: its number, the call, and the requests before. -/
abbrev LastCall : Type := Option (ℕ × Call × List Request)

/-- Where the task is. -/
inductive Phase (srv : Server) (s : Loop) : LastCall → Prop
  /-- it has made no call yet -/
  | idle : (∀ i, s.calls i = none) → s.requests = [] → s.Drained [] → Phase srv s none
  /-- call `i` is the last -/
  | call {i : ℕ} {c : Call} {R : List Request} {f : Frame} : s.calls i = some ⟨c, f⟩ →
      (∀ j task, j ≠ i → s.calls j = some task → task.frame.ended = true) →
      s.Stage srv c R f → Phase srv s (some (i, c, R))

/-! ## Steps -/

section steps

variable {srv : Server} {s s' : Loop} {l : Label} {o : LastCall}

/-- A call that goes on stays the same call. -/
theorem call_of_update {i j : ℕ} {c : Call} {f f' : Frame} (hi : s.calls i = some ⟨c, f⟩)
    (hcalls : s'.calls = Function.update s.calls i (some ⟨c, f'⟩)) :
    (s'.calls j).map Task.call = (s.calls j).map Task.call := by
  rw [hcalls]
  by_cases hji : j = i
  · subst hji
    rw [Function.update_self, hi]
    rfl
  · rw [Function.update_of_ne hji]

/-- The requests after a step that adds `os` to the history and leaves the calls the same. -/
theorem requests_append {os : List Obs} (hlog : s'.log = s.log ++ os)
    (hcalls : ∀ j w, Obs.sent j w ∈ s.log →
      (s'.calls j).map Task.call = (s.calls j).map Task.call) :
    s'.requests = s.requests ++ os.filterMap fun o => match o with
      | .sent i w => (s'.calls i).map fun task => (task.call.queueType, w)
      | _ => none := by
  rw [requests, hlog, List.filterMap_append, requests]
  refine congrArg (· ++ _) (List.filterMap_congr fun o ho => ?_)
  cases o with
  | sent j w =>
    have hj := congrArg (Option.map fun c => (c.queueType, w)) (hcalls j w ho)
    rw [Option.map_map, Option.map_map] at hj
    exact hj
  | _ => rfl

/-- An entry that is no message sent adds no request. -/
theorem requests_concat {o : Obs} (hlog : s'.log = s.log ++ [o]) (ho : ∀ i w, o ≠ .sent i w)
    (hcalls : ∀ j w, Obs.sent j w ∈ s.log →
      (s'.calls j).map Task.call = (s.calls j).map Task.call) : s'.requests = s.requests := by
  rw [requests_append hlog hcalls]
  cases o with
  | sent i w => exact absurd rfl (ho i w)
  | _ => exact List.append_nil _

theorem requests_same (hlog : s'.log = s.log)
    (hcalls : ∀ j, (s'.calls j).map Task.call = (s.calls j).map Task.call) :
    s'.requests = s.requests := by
  rw [requests_append (hlog.trans (List.append_nil _).symm) fun j _ _ => hcalls j]
  exact List.append_nil _

theorem Drained.congr {rs : List Request} (h : s.Drained rs)
    (hhanded : ∀ t, handedOf t s'.log = handedOf t s.log) : s'.Drained rs :=
  fun t => (congrArg List.length (hhanded t)).trans (h t)

theorem Collected.congr {c : Call} {R : List Request} {left : ℕ} {out : List Received}
    (h : s.Collected c R left out) (hreq : s'.requests = s.requests)
    (hhanded : ∀ t, handedOf t s'.log = handedOf t s.log) : s'.Collected c R left out where
  requests := hreq.trans h.requests
  count := h.count
  handed := hhanded _ ▸ h.handed
  others t ht := hhanded t ▸ h.others t ht

theorem Stage.congr {c : Call} {R : List Request} {f : Frame} (h : s.Stage srv c R f)
    (hreq : s'.requests = s.requests) (hhanded : ∀ t, handedOf t s'.log = handedOf t s.log) :
    s'.Stage srv c R f := by
  cases f with
  | sending todo t0 =>
    obtain ⟨⟨done, hout, hdone⟩, hdrained⟩ := h
    exact ⟨⟨done, hout, hreq.trans hdone⟩, hdrained.congr hhanded⟩
  | collecting => exact Collected.congr h hreq hhanded
  | getting => exact Collected.congr h hreq hhanded
  | returned => exact ⟨h.1, hreq.trans h.2.1, h.2.2.congr hhanded⟩
  | _ => exact h

theorem Phase.congr (h : s.Phase srv o) (hcalls : s'.calls = s.calls)
    (hreq : s'.requests = s.requests) (hhanded : ∀ t, handedOf t s'.log = handedOf t s.log) :
    s'.Phase srv o := by
  cases h with
  | idle hnone hrs hdrained =>
    exact .idle (fun i => hcalls ▸ hnone i) (hreq.trans hrs) (hdrained.congr hhanded)
  | call hi hothers hstage =>
    exact .call (hcalls ▸ hi) (hcalls ▸ hothers) (hstage.congr hreq hhanded)

/-- A call that has not ended is the current one. -/
theorem Phase.stage (h : s.Phase srv o) {i : ℕ} {c : Call} {f : Frame}
    (hi : s.calls i = some ⟨c, f⟩) (hf : f.ended = false) :
    ∃ R, o = some (i, c, R) ∧ s.Stage srv c R f ∧
      ∀ j task, j ≠ i → s.calls j = some task → task.frame.ended = true := by
  cases h with
  | idle hnone _ _ =>
    rw [hnone i] at hi
    cases hi
  | call hi' hothers hstage =>
    rename_i i' c' R f'
    by_cases hii : i = i'
    · subst hii
      obtain ⟨rfl, rfl⟩ := Task.mk.inj (Option.some.inj (hi'.symm.trans hi))
      exact ⟨R, rfl, hstage, hothers⟩
    · have := hothers i ⟨c, f⟩ hii hi
      rw [hf] at this
      cases this

/-- The current call has gone on. -/
theorem Phase.move {i : ℕ} {c : Call} {f' : Frame} {R : List Request}
    (hothers : ∀ j task, j ≠ i → s.calls j = some task → task.frame.ended = true)
    (hcalls : s'.calls = Function.update s.calls i (some ⟨c, f'⟩)) (h : s'.Stage srv c R f') :
    s'.Phase srv (some (i, c, R)) := by
  refine .call (f := f') ?_ (fun j task hj htask => ?_) h
  · rw [hcalls]
    exact Function.update_self ..
  · rw [hcalls, Function.update_of_ne hj] at htask
    exact hothers j task hj htask

/-- **The `k`-th message handed out answers the `k`-th request.** -/
theorem Correlated.handed (h : s.Correlated srv) (hc : Conserved s.mail) (t : String) :
    (handedOf t s.log).map Received.body <+: srv.answersOf t s.requests := by
  rcases hitems : s.items t with _ | xs
  · have hnone : handedOf t s.log = [] := hc.unregistered t hitems
    rw [hnone]
    exact List.nil_prefix
  by_cases ht : Regular t
  · have hqueues : handedOf t s.log ++ xs = arrivedSince t s.log := hc.queues t xs hitems ht
    refine List.IsPrefix.trans ?_ (h.arrived t)
    rw [← hqueues, List.map_append]
    exact List.prefix_append ..
  · rw [h.irregular t ht]
    exact List.nil_prefix

/-- A call that has taken all the messages it wanted has got the answers to its own requests, and
everything asked for has been handed out. -/
theorem Collected.complete {c : Call} {R : List Request} {out : List Received}
    (hs : s.Collected c R 0 out) (h : s.Correlated srv) (hc : Conserved s.mail) :
    out.map Received.body = (srv.replies R c.requests).map Prod.snd ∧
      s.Drained (R ++ c.requests) := by
  obtain ⟨pre, hpre, hlen⟩ := hs.handed
  have hcount : out.length = c.outgoing.length := hs.count
  constructor
  · have hprefix := h.handed hc c.queueType
    rw [hs.requests, Call.requests, srv.answersOf_own, hpre, List.map_append] at hprefix
    -- both sides begin with the messages for the earlier requests, and have the same length
    have heq := hprefix.eq_of_length (by simp [hlen, hcount, srv.length_answersOf])
    exact (List.append_inj heq (by simp [hlen, srv.length_answersOf])).2
  · intro t
    rw [countOf_append, Call.requests, countOf_own]
    by_cases ht : c.queueType = t
    · rw [if_pos ht, ← ht, hpre, List.length_append, hlen, hcount]
    · rw [if_neg ht, Nat.add_zero]
      exact hs.others t (Ne.symm ht)

/-- The invariant after a step that adds the entries `os` to the history. -/
theorem Correlated.append (h : s.Correlated srv) {os : List Obs} (hlog : s'.log = s.log ++ os)
    (hcalls : ∀ j, (s'.calls j).map Task.call = (s.calls j).map Task.call)
    (hitems : ∀ t, (s.items t).isSome = true → (s'.items t).isSome = true)
    (hsent : ∀ i w, Obs.sent i w ∈ os → (s.calls i).isSome = true)
    (harrived : ∀ t, (arrivedSince t s'.log).map Received.body <+: srv.answersOf t s'.requests)
    (hirregular : ∀ t, ¬ Regular t → handedOf t os = []) : s'.Correlated srv := by
  have old : ∀ {i task'}, s'.calls i = some task' →
      ∃ task, s.calls i = some task ∧ task.call = task'.call := by
    intro i task' hi
    have hcall := hcalls i
    rw [hi, Option.map_some] at hcall
    exact Option.map_eq_some_iff.mp hcall.symm
  refine ⟨fun i task' hi => ?_, fun i task' hi => ?_, fun i w hmem => ?_, harrived, fun t ht => ?_⟩
  · obtain ⟨task, htask, hcall⟩ := old hi
    exact hcall ▸ h.asks i task htask
  · obtain ⟨task, htask, hcall⟩ := old hi
    exact hitems _ (hcall ▸ h.registered i task htask)
  · have hsome : (s.calls i).isSome = true := by
      rw [hlog] at hmem
      exact (List.mem_append.mp hmem).elim (h.started i w) (hsent i w)
    have hcall := congrArg Option.isSome (hcalls i)
    rwa [Option.isSome_map, Option.isSome_map, hsome] at hcall
  · rw [hlog, handedOf, List.filterMap_append, ← handedOf, ← handedOf, h.irregular t ht,
      hirregular t ht]
    rfl

/-- The history and the requests are as before. -/
theorem Correlated.same (h : s.Correlated srv) (hlog : s'.log = s.log)
    (hcalls : ∀ j, (s'.calls j).map Task.call = (s.calls j).map Task.call)
    (hitems : s'.items = s.items) : s'.Correlated srv := by
  refine h.append (hlog.trans (List.append_nil _).symm) hcalls (fun t ht => hitems ▸ ht)
    (fun i w hmem => (List.not_mem_nil hmem).elim) (fun t => ?_) fun t _ => rfl
  rw [hlog, requests_same hlog hcalls]
  exact h.arrived t

/-- The history has an entry more, which is no arrival and no request. -/
theorem Correlated.silent (h : s.Correlated srv) {o : Obs} (hlog : s'.log = s.log ++ [o])
    (hcalls : ∀ j, (s'.calls j).map Task.call = (s.calls j).map Task.call)
    (hitems : ∀ t, (s.items t).isSome = true → (s'.items t).isSome = true)
    (hsent : ∀ i w, o ≠ .sent i w) (hreceived : ∀ t, receivedOf t [o] = [])
    (hirregular : ∀ t, ¬ Regular t → handedOf t [o] = []) : s'.Correlated srv := by
  refine h.append hlog hcalls hitems
    (fun i w hmem => absurd (List.mem_singleton.mp hmem).symm (hsent i w)) (fun t => ?_) hirregular
  rw [hlog, arrivedSince_concat, hreceived t, ite_self, List.append_nil,
    requests_concat hlog hsent fun j _ _ => hcalls j]
  exact h.arrived t

/-- A message of type `t` is taken from its queue: the current call has one more. -/
theorem Collected.take {c : Call} {R : List Request} {left : ℕ} {out : List Received}
    (h : s.Collected c R (left + 1) out) {i : ℕ} {m : Received} (hreq : s'.requests = s.requests)
    (hlog : s'.log = s.log ++ [.handed i c.queueType m]) :
    s'.Collected c R left (out ++ [m]) where
  requests := hreq.trans h.requests
  count := by
    have := h.count
    simp only [List.length_append, List.length_singleton]
    omega
  handed := by
    obtain ⟨pre, hpre, hlen⟩ := h.handed
    refine ⟨pre, ?_, hlen⟩
    rw [hlog, handedOf_concat, hpre, List.append_assoc]
    simp [handedOf]
  others t ht := by
    rw [hlog, handedOf_concat, ← h.others t ht]
    simp [handedOf, Ne.symm ht]

/-- An entry that is no message handed out leaves what has been handed out alone. -/
theorem handedOf_same {e : Obs} (hlog : s'.log = s.log ++ [e]) (he : ∀ t, handedOf t [e] = [])
    (t : String) : handedOf t s'.log = handedOf t s.log := by
  rw [hlog, handedOf_concat, he, List.append_nil]

/-- An object arrives: the next answer, or nothing that somebody has asked for. -/
theorem received_phase {msg : Json} {now : ℚ} (h : s.Correlated srv) (hc : Conserved s.mail)
    (hP : s.Phase srv o) (hC : s.OneByOne srv (.receive (.ok msg) now))
    (hitems : ∀ t, (s.items t).isSome = true → (s'.items t).isSome = true)
    (hcalls : s'.calls = s.calls) (hm : s'.mail = s.mail.receive msg now) :
    s'.Correlated srv ∧ s'.Phase srv o := by
  have hlog : s'.log = s.log ++ [.received ⟨s.log.length, msg⟩] :=
    (congrArg Mail.log hm).trans (s.mail.receive_log msg now)
  have hcall : ∀ j, (s'.calls j).map Task.call = (s.calls j).map Task.call := by simp [hcalls]
  have hreq : s'.requests = s.requests := requests_concat hlog (by simp) fun j _ _ => hcall j
  refine ⟨h.append hlog hcall hitems (by simp) (fun t => ?_) fun t _ => rfl,
    hP.congr hcalls hreq (handedOf_same hlog fun t => rfl)⟩
  rw [hlog, arrivedSince_concat, hreq]
  split
  · rename_i hreg
    by_cases ht : (⟨s.log.length, msg⟩ : Received).typeStr = some t
    · -- the next answer
      have hnext := hC t ht ((hc.registered t).trans hreg)
      simpa [receivedOf, ht] using hnext
    · simpa [receivedOf, ht] using h.arrived t
  · rw [List.append_nil]
    exact h.arrived t

/-- The current call writes a message: one more request is out, and the answers due for its type
grow at the end. -/
theorem sent_phase {i : ℕ} {c : Call} {w : Wire} {todo : List Wire} {t0 : ℚ}
    (h : s.Correlated srv) (hP : s.Phase srv o)
    (hitems : ∀ t, (s.items t).isSome = true → (s'.items t).isSome = true)
    (hi : s.calls i = some ⟨c, .sending (w :: todo) t0⟩)
    (hcalls : s'.calls = Function.update s.calls i (some ⟨c, .sending todo t0⟩))
    (hm : s'.mail = s.mail.send i w) : s'.Correlated srv ∧ s'.Phase srv o := by
  obtain ⟨R, rfl, ⟨⟨done, hout, hreq⟩, hdrained⟩, hothers⟩ := hP.stage hi rfl
  have hlog : s'.log = s.log ++ [.sent i w] := congrArg Mail.log hm
  have hcall := fun j => call_of_update (j := j) hi hcalls
  have hself : s'.calls i = some ⟨c, .sending todo t0⟩ := by
    rw [hcalls]
    exact Function.update_self ..
  have hreq' : s'.requests = s.requests ++ [(c.queueType, w)] := by
    rw [requests_append hlog fun j _ _ => hcall j]
    simp [hself]
  have hhanded := handedOf_same hlog fun t => rfl
  refine ⟨h.append hlog hcall hitems (fun j w' hmem => ?_) (fun t => ?_) fun t _ => rfl,
    .move hothers hcalls ⟨⟨done ++ [w], ?_, ?_⟩, hdrained.congr hhanded⟩⟩
  · cases List.mem_singleton.mp hmem
    rw [hi]
    rfl
  · rw [hlog, arrivedSince_concat, show receivedOf t [.sent i w] = [] from rfl, ite_self,
      List.append_nil, hreq', srv.answersOf_append]
    exact (h.arrived t).trans (List.prefix_append ..)
  · rw [hout, List.append_assoc]
    rfl
  · rw [hreq', hreq, List.map_append, List.append_assoc]
    rfl

/-- The current call goes on without a message. -/
theorem local_phase {i : ℕ} {c : Call} {f f' : Frame} (h : s.Correlated srv)
    (hc : Conserved s.mail) (hP : s.Phase srv o) (hws : s.client.ws ≠ none)
    (hC : s.OneByOne srv l) (hi : s.calls i = some ⟨c, f⟩) (hlocal : s.Local c l f f')
    (hcalls : s'.calls = Function.update s.calls i (some ⟨c, f'⟩)) (hm : s'.mail = s.mail) :
    s'.Correlated srv ∧ s'.Phase srv o := by
  obtain ⟨R, rfl, hstage, hothers⟩ := hP.stage hi hlocal.not_ended
  have hlog : s'.log = s.log := congrArg Mail.log hm
  have hcall := fun j => call_of_update (j := j) hi hcalls
  have hreq : s'.requests = s.requests := requests_same hlog hcall
  have hhanded : ∀ t, handedOf t s'.log = handedOf t s.log := fun t => congrArg _ hlog
  refine ⟨h.same hlog hcall (congrArg Mail.items hm),
    .move hothers hcalls (Stage.congr ?_ hreq hhanded)⟩
  -- a connected client whose calls do not time out
  cases hlocal with
  | notConnected hnone => exact absurd hnone hws
  | sendFails | timeout | timeoutAny => exact hC.elim
  | afterSend =>
    rename_i t0 now
    obtain ⟨⟨done, hout, hdone⟩, hdrained⟩ := hstage
    rw [List.append_nil] at hout
    obtain ⟨t, ht⟩ := c.afterSend_of_asks (h.asks i _ hi) t0 now
    rw [ht]
    refine ⟨?_, Nat.zero_add _, ⟨_, (List.append_nil _).symm, hdrained _⟩, fun t _ => hdrained t⟩
    rw [hdone, ← hout]
    rfl
  | suspend => exact hstage
  | «return» =>
    obtain ⟨hbodies, hdrained⟩ := Collected.complete hstage h hc
    exact ⟨(Call.bodies_result (h.asks i _ hi) hstage.count).trans hbodies, hstage.requests,
      hdrained⟩
  | wake => exact hstage.elim

/-- The current call takes a message. -/
theorem handed_phase {i : ℕ} {c : Call} {f f' : Frame} {t : String} {m : Received}
    {rest : List Received} (h : s.Correlated srv) (hc : Conserved s.mail) (hP : s.Phase srv o)
    (hitems : ∀ t, (s.items t).isSome = true → (s'.items t).isSome = true)
    (hi : s.calls i = some ⟨c, f⟩) (htakes : Takes c m f t f')
    (hx : s.mail.items t = some (m :: rest))
    (hcalls : s'.calls = Function.update s.calls i (some ⟨c, f'⟩))
    (hm : s'.mail = s.mail.hand i t m rest) : s'.Correlated srv ∧ s'.Phase srv o := by
  obtain ⟨R, rfl, hstage, hothers⟩ := hP.stage hi htakes.not_ended
  have hlog : s'.log = s.log ++ [.handed i t m] := congrArg Mail.log hm
  have hcall := fun j => call_of_update (j := j) hi hcalls
  have hreq : s'.requests = s.requests := requests_concat hlog (by simp) fun j _ _ => hcall j
  refine ⟨h.silent hlog hcall hitems (by simp) (fun t => rfl) fun t' ht' => ?_, ?_⟩
  · -- nothing is ever queued for a special type
    have hne : t ≠ t' := by
      rintro rfl
      cases hc.irregular t _ hx ht'
    simp [handedOf, hne]
  · cases htakes with
    | resume => exact .move hothers hcalls (Collected.take hstage hreq hlog)
    | run => exact .move hothers hcalls (Collected.take hstage hreq hlog)
    | runAny => exact hstage.elim

/-- **Every step but the beginning of a call** keeps the invariants. -/
theorem step_phase (h : s.Correlated srv) (hc : Conserved s.mail) (hP : s.Phase srv o)
    (hws : s.client.ws ≠ none) (hC : s.OneByOne srv l) (hns : l.starts = false)
    (hl : s.step l = some s') : s'.Correlated srv ∧ s'.Phase srv o := by
  have hitems : ∀ t, (s.items t).isSome = true → (s'.items t).isSome = true :=
    fun t => (step_effect hl).registered (t := t)
  cases step_effect hl with
  | quiet hcalls hm =>
    have hlog : s'.log = s.log := congrArg Mail.log hm
    have hcall : ∀ j, (s'.calls j).map Task.call = (s.calls j).map Task.call := by simp [hcalls]
    exact ⟨h.same hlog hcall (congrArg Mail.items hm),
      hP.congr hcalls (requests_same hlog hcall) fun t => congrArg (handedOf t) hlog⟩
  | received hcalls hm => exact received_phase h hc hP hC hitems hcalls hm
  | cleared hcalls hm =>
    have hlog : s'.log = s.log ++ [.cleared] := congrArg Mail.log hm
    have hcall : ∀ j, (s'.calls j).map Task.call = (s.calls j).map Task.call := by simp [hcalls]
    exact ⟨h.silent hlog hcall hitems (by simp) (fun t => rfl) fun t _ => rfl,
      hP.congr hcalls (requests_concat hlog (by simp) fun j _ _ => hcall j)
        (handedOf_same hlog fun t => rfl)⟩
  | started => cases hns
  | sent hi hcalls hm => exact sent_phase h hP hitems hi hcalls hm
  | «local» hi hlocal hcalls hm => exact local_phase h hc hP hws hC hi hlocal hcalls hm
  | polled hi hpolls _ _ =>
    obtain ⟨R, rfl, hstage, -⟩ := hP.stage hi hpolls.not_ended
    cases hpolls <;> exact hstage.elim
  | handed hi htakes hx hcalls hm => exact handed_phase h hc hP hitems hi htakes hx hcalls hm
  | getters hi _ _ =>
    obtain ⟨R, rfl, hstage, -⟩ := hP.stage hi rfl
    exact hstage.elim

/-- A call begins: the calls before have had all their messages. -/
theorem start_phase (h : s.Correlated srv) (hP : s.Phase srv o) {i : ℕ} {c : Call} {now : ℚ}
    (hC : s.OneByOne srv (.start i c now)) (hl : s.step (.start i c now) = some s') :
    s'.Correlated srv ∧ s'.Phase srv (some (i, c, s.requests)) ∧ s'.requests = s.requests := by
  obtain ⟨hasks, hidle⟩ := hC
  have hdrained : s.Drained s.requests := by
    cases hP with
    | idle _ hrs hdrained => exact hrs ▸ hdrained
    | call hi _ hstage =>
      rename_i f _
      have hended := hidle _ _ hi
      cases f with
      | returned r => exact hstage.2.1 ▸ hstage.2.2
      | raised e => exact hstage.elim
      | _ => cases hended
  obtain ⟨hnone, hcalls, hm⟩ := start_cases hl
  have hself : s'.calls i = some ⟨c, .sending c.outgoing now⟩ := by
    rw [hcalls]
    exact Function.update_self ..
  have hother : ∀ {j}, j ≠ i → s'.calls j = s.calls j := by
    intro j hj
    rw [hcalls]
    exact Function.update_of_ne hj ..
  have hlog : s'.log = s.log ++ [.started i c] := congrArg Mail.log hm
  have hne : ∀ {j w}, Obs.sent j w ∈ s.log → j ≠ i := by
    rintro j w hmem rfl
    have := h.started j w hmem
    rw [hnone] at this
    cases this
  have hreq : s'.requests = s.requests :=
    requests_concat hlog (by simp) fun j w hmem => by rw [hother (hne hmem)]
  have hitems : ∀ t, (s.items t).isSome = true → (s'.items t).isSome = true :=
    fun t => (step_effect hl).registered (t := t)
  have hhanded := handedOf_same hlog fun t => rfl
  refine ⟨⟨fun j task hj => ?_, fun j task hj => ?_, fun j w hmem => ?_, fun t => ?_,
    fun t ht => hhanded t ▸ h.irregular t ht⟩, .call hself (fun j task hj htask => ?_) ?_, hreq⟩
  · rcases calls_cases hcalls hj with ⟨-, rfl⟩ | hj
    · exact hasks
    · exact h.asks j task hj
  · rcases calls_cases hcalls hj with ⟨-, rfl⟩ | hj
    · have hmem : c.queueType ∈ c.responseTypes := by
        rw [Call.responseTypes_of_asks hasks]
        exact List.mem_singleton_self _
      have hreg : s'.items c.queueType = some ((s.items c.queueType).getD []) :=
        (congrFun (congrArg Mail.items hm) c.queueType).trans (if_pos hmem)
      exact Option.isSome_iff_exists.mpr ⟨_, hreg⟩
    · exact hitems _ (h.registered j task hj)
  · have hmem' : Obs.sent j w ∈ s.log := by
      rw [hlog] at hmem
      simpa using hmem
    rw [hother (hne hmem')]
    exact h.started j w hmem'
  · rw [hlog, arrivedSince_concat, show receivedOf t [.started i c] = [] from rfl, ite_self,
      List.append_nil, hreq]
    exact h.arrived t
  · rw [hother hj] at htask
    exact hidle j task htask
  · exact ⟨⟨[], rfl, hreq.trans (List.append_nil _).symm⟩, hdrained.congr hhanded⟩

/-- The client stays connected. -/
theorem step_ws (hC : s.OneByOne srv l) (hl : s.step l = some s') (hws : s.client.ws ≠ none) :
    s'.client.ws ≠ none := by
  by_cases hleaves : l.leavesConnection = true
  · rwa [show s'.client.ws = s.client.ws from congrArg Prod.fst (step_connection hleaves hl)]
  cases step_cases hl with
  | connect => exact Option.some_ne_none _
  | disconnect => exact hC.elim
  | peerClosed => exact hws
  | receive =>
    simp only [receive]
    split
    · exact hws
    · rename_i hd
      exact fun hnone => hws ((congrArg Prod.fst (dispatch_connection hd)).symm.trans hnone)
  | _ => exact absurd rfl hleaves

end steps

/-! ## The current call does not sleep beside a message -/

/-- Nobody is suspended in a queue, and nobody has been woken. -/
def Quiet (s : Loop) : Prop :=
  s.ready = [] ∧ ∀ t q, s.client.pendingResponses t = some q → q.getters = []

theorem Quiet.congr {s s' : Loop} (h : s.Quiet) (hready : s'.ready = s.ready)
    (hpending : s'.client.pendingResponses = s.client.pendingResponses) : s'.Quiet :=
  ⟨hready.trans h.1, fun t q hq => h.2 t q (hpending ▸ hq)⟩

/-- A new queue has no getters. -/
theorem Quiet.ensureQueues {s : Loop} (h : s.Quiet) (ts : List String) (log : List Obs) :
    Quiet { s with client := s.client.ensureQueues ts, log := log } := by
  refine ⟨h.1, fun t q hq => ?_⟩
  have hq : (s.client.ensureQueues ts).pendingResponses t = some q := hq
  rw [s.client.ensureQueues_pendingResponses] at hq
  rcases hq₀ : s.client.pendingResponses t with _ | q₀ <;> rw [hq₀] at hq
  · split at hq <;> cases hq
    rfl
  · have hqq : q₀ = q := by split at hq <;> exact Option.some.inj hq
    exact hqq ▸ h.2 t q₀ hq₀

theorem Put.quiet {s s' : Loop} {t : String} {q : Queue Received Waiter} {x : Received}
    (h : Put t q x s s') (hs : s.Quiet) : s'.Quiet := by
  have hgetters := hs.2 t q h.found
  refine ⟨by rw [h.ready, hs.1, hgetters]; rfl, fun t' q' hq' => ?_⟩
  by_cases ht' : t' = t
  · subst ht'
    obtain rfl := Option.some.inj (h.pending_self.symm.trans hq')
    rw [Queue.put_getters, hgetters]
    rfl
  · exact hs.2 t' q' ((h.pending_of_ne ht').symm.trans hq')

/-- Nobody is suspended in a queue but call `i`, if it is in `get`; then its queue is empty, or it
has been woken. -/
def Attended (s : Loop) (i : ℕ) (c : Call) : Frame → Prop
  | .getting _ _ _ =>
    (∀ t q, t ≠ c.queueType → s.client.pendingResponses t = some q → q.getters = []) ∧
      ∃ q, s.client.pendingResponses c.queueType = some q ∧
        ((s.ready = [] ∧ q.items = [] ∧ q.getters = [(i, 0)]) ∨
          (s.ready = [(i, 0)] ∧ q.items ≠ [] ∧ q.getters = []))
  | _ => s.Quiet

/-- The same for the task: no call, or the current one. -/
def Watched (s : Loop) : LastCall → Prop
  | none => s.Quiet
  | some (i, c, _) => ∀ f, s.calls i = some ⟨c, f⟩ → s.Attended i c f

section attended

variable {srv : Server} {s s' : Loop} {l : Label} {o : LastCall} {i : ℕ} {c : Call} {f : Frame}

theorem Attended.congr (h : s.Attended i c f) (hready : s'.ready = s.ready)
    (hpending : s'.client.pendingResponses = s.client.pendingResponses) : s'.Attended i c f := by
  cases f with
  | getting left out t0 =>
    obtain ⟨hother, q, hq, hcase⟩ := h
    refine ⟨fun t q' ht hq' => hother t q' ht (hpending ▸ hq'), q, hpending ▸ hq, ?_⟩
    rwa [hready]
  | _ => exact Quiet.congr h hready hpending

theorem Watched.congr (h : s.Watched o) (hcalls : s'.calls = s.calls) (hready : s'.ready = s.ready)
    (hpending : s'.client.pendingResponses = s.client.pendingResponses) : s'.Watched o := by
  rcases o with _ | ⟨i, c, R⟩
  · exact Quiet.congr h hready hpending
  · exact fun f hf => (h f (hcalls ▸ hf)).congr hready hpending

/-- A message is put into a queue: if it is the queue of the current call, the call is woken. -/
theorem Put.attended {t : String} {q : Queue Received Waiter} {x : Received} (h : Put t q x s s')
    (hs : s.Attended i c f) : s'.Attended i c f := by
  cases f with
  | getting left out t0 =>
    obtain ⟨hother, q₀, hq₀, hcase⟩ := hs
    by_cases ht : t = c.queueType
    · subst ht
      obtain rfl := Option.some.inj (h.found.symm.trans hq₀)
      refine ⟨fun t' q' ht' hq' => hother t' q' ht' (h.pending_of_ne ht' ▸ hq'), _, h.pending_self,
        .inr ?_⟩
      rw [h.ready, Queue.put_items, Queue.put_getters]
      rcases hcase with ⟨hready, -, hgetters⟩ | ⟨hready, -, hgetters⟩ <;>
        simp [hready, hgetters]
    · refine ⟨fun t' q' ht' hq' => ?_, q₀, (h.pending_of_ne (Ne.symm ht)).trans hq₀, ?_⟩
      · by_cases htt : t' = t
        · subst htt
          obtain rfl := Option.some.inj (h.pending_self.symm.trans hq')
          rw [Queue.put_getters, hother t' q ht' h.found]
          rfl
        · exact hother t' q' ht' (h.pending_of_ne htt ▸ hq')
      · rwa [h.ready, hother t q ht h.found, List.head?_nil, Option.toList_none, List.append_nil]
  | _ => exact h.quiet hs

/-- The current call, when it is in frame `f`. -/
theorem Watched.attended (h : s.Watched o) (hP : s.Phase srv o) (hi : s.calls i = some ⟨c, f⟩)
    (hf : f.ended = false) : s.Attended i c f := by
  obtain ⟨R, rfl, -, -⟩ := hP.stage hi hf
  exact h f hi

/-- Call `i` is the only one that goes on. -/
theorem Watched.move (hP : s.Phase srv o) (hi : s.calls i = some ⟨c, f⟩) (hf : f.ended = false)
    {f' : Frame} (hself : s'.calls i = some ⟨c, f'⟩) (h : s'.Attended i c f') : s'.Watched o := by
  obtain ⟨R, rfl, -, -⟩ := hP.stage hi hf
  intro g hg
  obtain ⟨-, rfl⟩ := Task.mk.inj (Option.some.inj (hself.symm.trans hg))
  exact h

/-- The queues are as before, except that one of them has lost its head. -/
theorem Quiet.setQueue {t : String} {q : Queue Received Waiter} (hready : s'.ready = [])
    (hclient : s'.client = s.client.setQueue t q) (hq : q.getters = [])
    (hother : ∀ t' q', t' ≠ t → s.client.pendingResponses t' = some q' → q'.getters = []) :
    s'.Quiet := by
  refine ⟨hready, fun t' q' hq' => ?_⟩
  rw [hclient] at hq'
  simp only [WSClient.setQueue] at hq'
  by_cases ht' : t' = t
  · subst ht'
    rw [Function.update_self] at hq'
    exact Option.some.inj hq' ▸ hq
  · rw [Function.update_of_ne ht'] at hq'
    exact hother t' q' ht' hq'

end attended

section step_watched

variable {srv : Server} {s s' : Loop} {l : Label} {o : LastCall}

/-- The current call asks for a message: it takes the oldest one, or goes to sleep before an empty
queue. -/
theorem watched_resume {i left : ℕ} {c : Call} {out : List Received} {t0 now : ℚ}
    (hP : s.Phase srv o) (hi : s.calls i = some ⟨c, .collecting (left + 1) out t0⟩)
    (hquiet : s.Quiet) (hreg : (s.items c.queueType).isSome = true)
    (hl : s.step (.resume i now) = some s') : s'.Watched o := by
  obtain ⟨xs, hxs⟩ := Option.isSome_iff_exists.mp hreg
  obtain ⟨q, hq, -⟩ := Option.map_eq_some_iff.mp hxs
  have hother : ∀ t' q', t' ≠ c.queueType → s.client.pendingResponses t' = some q' →
      q'.getters = [] := fun t' q' _ => hquiet.2 t' q'
  simp only [step, hi] at hl
  rcases hitems : q.items with _ | ⟨x, rest⟩
  · simp only [getPass_of_empty hq hitems, Option.some.injEq] at hl
    subst hl
    refine .move hP hi rfl (setFrame_calls_self ..) ⟨fun t' q' ht' hq' => ?_, _,
      Function.update_self .., .inl ⟨hquiet.1, hitems, ?_⟩⟩
    · exact hother t' q' ht' ((Function.update_of_ne ht' _ _).symm.trans hq')
    · rw [hquiet.2 _ q hq]
      rfl
  · simp only [getPass_of_cons hq hitems, Option.some.injEq] at hl
    subst hl
    exact .move hP hi rfl (setFrame_calls_self ..)
      (Quiet.setQueue (s := s) hquiet.1 rfl (hquiet.2 _ q hq) hother)

/-- The current call has been woken: it takes the oldest message. -/
theorem run_of_attended {i left : ℕ} {c : Call} {out : List Received} {t0 : ℚ}
    (hi : s.calls i = some ⟨c, .getting left out t0⟩)
    (hs : s.Attended i c (.getting left out t0)) (hready : s.ready ≠ []) :
    ∃ m s', s.step .run = some s' ∧ s'.Quiet ∧
      s'.calls i = some ⟨c, .collecting left (out ++ [m]) t0⟩ := by
  obtain ⟨hother, q, hq, ⟨hnil, -, -⟩ | ⟨hready', hitems, hgetters⟩⟩ := hs
  · exact absurd hnil hready
  · obtain ⟨x, rest, hx⟩ := List.exists_cons_of_ne_nil hitems
    have hq' : ({ s with ready := [] } : Loop).client.pendingResponses c.queueType = some q := hq
    have hrun : s.step .run = some (({ s with
        ready := []
        client := s.client.setQueue c.queueType { q with items := rest }
        log := s.log ++ [.handed i c.queueType x] } : Loop).setFrame i c
          (.collecting left (out ++ [x]) t0)) := by
      simp only [step, hready', runGetter, hi, getPass_of_cons hq' hx]
    exact ⟨x, _, hrun, Quiet.setQueue (s := s) rfl rfl hgetters hother, setFrame_calls_self ..⟩

/-- **Every step but the beginning of a call** keeps the current call attended. -/
theorem step_watched (h : s.Watched o) (hP : s.Phase srv o) (hcorr : s.Correlated srv)
    (hC : s.OneByOne srv l) (hns : l.starts = false) (hl : s.step l = some s') : s'.Watched o := by
  cases step_cases hl with
  | start => cases hns
  | timeout | timeoutAny | sendFails | disconnect => exact hC.elim
  | connect | peerClosed | events => exact h.congr rfl rfl rfl
  | @receive loaded now =>
    have hcalls := (s.receive_cases loaded now).1
    obtain ⟨hpending, hready⟩ | ⟨t, q, x, hput⟩ := s.receive_put loaded now
    · exact h.congr hcalls hready hpending
    · rcases o with _ | ⟨i, c, R⟩
      · exact hput.quiet h
      · exact fun f hf => hput.attended (h f (hcalls ▸ hf))
  | notConnected hi | sent hi | «return» hi =>
    have hquiet : s.Quiet := h.attended hP hi rfl
    exact .move hP hi rfl (setFrame_calls_self ..) (hquiet.congr rfl rfl)
  | @afterSend i c t0 now hi =>
    have hquiet : s.Quiet := h.attended hP hi rfl
    obtain ⟨t, ht⟩ := c.afterSend_of_asks (hcorr.asks i _ hi) t0 now
    refine .move hP hi rfl (setFrame_calls_self ..) ?_
    rw [ht]
    exact hquiet.congr rfl rfl
  | @suspend i left c out t0 now s₁ hi | @take i left c out t0 now s₁ m hi =>
    exact watched_resume hP hi (h.attended hP hi rfl) (hcorr.registered i _ hi) hl
  | @run i j rest hready =>
    -- somebody has been woken, so the current call is in `get`
    have hready : s.ready ≠ [] := hready ▸ List.cons_ne_nil _ _
    have absurd_quiet : ¬ s.Quiet := fun hquiet => hready hquiet.1
    cases hP with
    | idle => exact absurd h absurd_quiet
    | call hi hothers hstage =>
      rename_i i c R f
      have hattended : s.Attended i c f := h f hi
      cases f with
      | getting left out t0 =>
        obtain ⟨m, s'', hrun, hquiet, hself⟩ := run_of_attended hi hattended hready
        obtain rfl := Option.some.inj (hrun.symm.trans hl)
        exact .move (.call hi hothers hstage) hi rfl hself hquiet
      | _ => exact absurd hattended absurd_quiet
  | getters hi | wake hi | poll hi =>
    obtain ⟨R, -, hstage, -⟩ := hP.stage hi rfl
    exact hstage.elim

end step_watched

/-! ## Runs -/

/-- All that is known of a state between two steps. -/
structure Sound (srv : Server) (s : Loop) (o : LastCall) : Prop where
  /-- nothing has been lost -/
  conserved : Conserved s.mail
  /-- what has arrived answers what has been asked -/
  correlated : s.Correlated srv
  /-- the current call is going on, or has got its answers -/
  phase : s.Phase srv o
  /-- it does not sleep beside a message -/
  watched : s.Watched o
  /-- the client is connected -/
  ws : s.client.ws ≠ none

namespace Sound

variable {srv : Server} {s s' : Loop} {o : LastCall}

theorem connected (conn : ℕ) : Sound srv (connected conn) none where
  conserved := Conserved.new
  correlated :=
    ⟨fun _ _ h => (nomatch h), fun _ _ h => (nomatch h), fun _ _ h => (nomatch h),
      fun _ => List.nil_prefix, fun _ _ => rfl⟩
  phase := .idle (fun _ => rfl) rfl fun _ => rfl
  watched := ⟨rfl, fun _ _ h => (nomatch h)⟩
  ws := Option.some_ne_none _

/-- A step in which no call begins. -/
theorem step (h : Sound srv s o) {l : Label} (hC : s.OneByOne srv l) (hns : l.starts = false)
    (hl : s.step l = some s') : Sound srv s' o := by
  obtain ⟨hcorr, hphase⟩ := step_phase h.correlated h.conserved h.phase h.ws hC hns hl
  exact ⟨step_conserved h.conserved hl, hcorr, hphase,
    step_watched h.watched h.phase h.correlated hC hns hl, step_ws hC hl h.ws⟩

/-- A call begins. -/
theorem start (h : Sound srv s o) {i : ℕ} {c : Call} {now : ℚ}
    (hC : s.OneByOne srv (.start i c now)) (hl : s.step (.start i c now) = some s') :
    Sound srv s' (some (i, c, s.requests)) := by
  obtain ⟨hcorr, hphase, -⟩ := start_phase h.correlated h.phase hC hl
  refine ⟨step_conserved h.conserved hl, hcorr, hphase, fun f hf => ?_, step_ws hC hl h.ws⟩
  have hquiet : s.Quiet := by
    obtain ⟨-, -, hP, hW, -⟩ := h
    cases hP with
    | idle => exact hW
    | call hi _ _ =>
      rename_i f' _ _
      have hended := hC.2 _ _ hi
      have hattended := hW f' hi
      cases f' with
      | returned | raised => exact hattended
      | _ => cases hended
  simp only [Loop.step] at hl
  split at hl
  · obtain rfl := Option.some.inj hl
    have hself := (setFrame_calls_self _ i c (.sending c.outgoing now)).symm.trans hf
    obtain ⟨-, rfl⟩ := Task.mk.inj (Option.some.inj hself)
    exact (hquiet.ensureQueues c.responseTypes (s.log ++ [.started i c])).congr rfl rfl
  · cases hl

/-- A run in which no call begins. -/
theorem goOn (h : Sound srv s o) {ls : List Label} (hrun : Lts.run Loop.step s ls = some s')
    (hC : Lts.Along Loop.step (OneByOne srv) s ls) (hns : ∀ l ∈ ls, l.starts = false) :
    Sound srv s' o := by
  induction ls generalizing s with
  | nil => exact Option.some.inj hrun ▸ h
  | cons l ls ih =>
    obtain ⟨s₁, hs₁, hrun⟩ := Option.bind_eq_some_iff.mp hrun
    obtain ⟨hl, hls⟩ := Lts.along_cons.mp hC
    exact ih (h.step hl (hns l (List.mem_cons_self ..)) hs₁) hrun (hls s₁ hs₁)
      fun l hl => hns l (List.mem_cons_of_mem _ hl)

/-- A whole run. -/
theorem run {conn : ℕ} {ls : List Label} (hrun : Lts.run Loop.step (.connected conn) ls = some s)
    (hC : Lts.Along Loop.step (OneByOne srv) (.connected conn) ls) : ∃ o, Sound srv s o := by
  refine Lts.run_invariant_along (I := fun s => ∃ o, Sound srv s o) ⟨none, connected conn⟩
    (fun s l s' ⟨o, h⟩ hC hl => ?_) hC hrun
  cases hns : l.starts with
  | false => exact ⟨o, h.step hC hns hl⟩
  | true =>
    cases l with
    | start i c now => exact ⟨_, h.start hC hl⟩
    | _ => cases hns

end Sound

/-! ## Calls that are made from a state -/

/-- The task makes call `c` in state `s`, and the call returns `r`. In `s'`, some time later, no
other call has begun. -/
def Performs (srv : Server) (s : Loop) (c : Call) (r : Result) (s' : Loop) : Prop :=
  ∃ i now s₁ ls, s.OneByOne srv (.start i c now) ∧ s.step (.start i c now) = some s₁ ∧
    Lts.run step s₁ ls = some s' ∧ Lts.Along step (OneByOne srv) s₁ ls ∧
    (∀ l ∈ ls, l.starts = false) ∧ s'.calls i = some ⟨c, .returned r⟩

/-- The task makes several calls, one after another, which return `rs`. -/
inductive PerformsEach (srv : Server) : Loop → List Call → List Result → Loop → Prop
  | nil (s : Loop) : PerformsEach srv s [] [] s
  | cons {s m s' : Loop} {c : Call} {cs : List Call} {r : Result} {rs : List Result} :
      s.Performs srv c r m → PerformsEach srv m cs rs s' →
        PerformsEach srv s (c :: cs) (r :: rs) s'

section performs

variable {srv : Server} {s s' : Loop} {o : LastCall}

/-- **A call gets the answers to its own requests**, and leaves no message behind. -/
theorem Performs.replies (h : Sound srv s o) {c : Call} {r : Result} (hp : s.Performs srv c r s') :
    (∃ o', Sound srv s' o') ∧ r.bodies = (srv.replies s.requests c.requests).map Prod.snd ∧
      s'.requests = s.requests ++ c.requests ∧ s'.Drained s'.requests := by
  obtain ⟨i, now, s₁, ls, hC, hs₁, hrun, halong, hns, hi⟩ := hp
  have hs' := (h.start hC hs₁).goOn hrun halong hns
  refine ⟨⟨_, hs'⟩, ?_⟩
  obtain ⟨-, -, hP, -, -⟩ := hs'
  cases hP with
  | call hi' _ hstage =>
    obtain ⟨-, rfl⟩ := Task.mk.inj (Option.some.inj (hi'.symm.trans hi))
    obtain ⟨hbodies, hreq, hdrained⟩ := hstage
    exact ⟨hbodies, hreq, hreq ▸ hdrained⟩

theorem PerformsEach.replies {cs : List Call} {rs : List Result} (h : Sound srv s o)
    (hp : PerformsEach srv s cs rs s') :
    rs.flatMap Result.bodies =
      (srv.replies s.requests (cs.flatMap Call.requests)).map Prod.snd := by
  induction hp generalizing o with
  | nil s => rfl
  | cons hc _ ih =>
    obtain ⟨⟨o', h'⟩, hbodies, hreq, -⟩ := hc.replies h
    rw [List.flatMap_cons, List.flatMap_cons, srv.replies_append, List.map_append, hbodies,
      ih h', hreq]

/-- A queue from which everything asked for has been handed out is empty. -/
theorem Drained.items (h : Sound srv s o) (hs : s.Drained s.requests) {t : String}
    (ht : (s.items t).isSome = true) : s.items t = some [] := by
  obtain ⟨xs, hxs⟩ := Option.isSome_iff_exists.mp ht
  rw [hxs]
  by_cases hregular : Regular t
  · have hqueues : handedOf t s.log ++ xs = arrivedSince t s.log :=
      h.conserved.queues t xs hxs hregular
    have hle := (h.correlated.arrived t).length_le
    rw [List.length_map, ← hqueues, List.length_append, hs t, srv.length_answersOf] at hle
    rw [List.length_eq_zero_iff.mp (by omega : xs.length = 0)]
  · rw [h.conserved.irregular t xs hxs hregular]

end performs

/-! ## The current call can always be completed -/

/-- How much of the call is left to do: it counts down with every step the call takes, and when the
call is woken. -/
def remaining (s : Loop) (c : Call) (f : Frame) : ℕ :=
  (if s.ready = [] then 1 else 0) + 2 * match f with
    | .sending todo _ => todo.length + 2 * c.outgoing.length + 2
    | .collecting left _ _ => 2 * left + 1
    | .getting left _ _ => 2 * left + 2
    | _ => 0

section completion

variable {srv : Server} {s : Loop} {i : ℕ} {c : Call} {R : List Request}

/-- A call that sleeps before its queue is owed an answer. -/
theorem owed {left : ℕ} {out : List Received} (h : s.Correlated srv) (hc : Conserved s.mail)
    (hs : s.Collected c R (left + 1) out) (hregular : Regular c.queueType)
    (hempty : s.items c.queueType = some []) :
    ∃ msg ∈ srv.answersOf c.queueType s.requests,
      (arrivedSince c.queueType s.log).map Received.body ++ [msg] <+:
        srv.answersOf c.queueType s.requests := by
  obtain ⟨pre, hpre, hlen⟩ := hs.handed
  have hqueues : handedOf c.queueType s.log ++ [] = arrivedSince c.queueType s.log :=
    hc.queues _ _ hempty hregular
  rw [List.append_nil, hpre] at hqueues
  obtain ⟨tail, htail⟩ := h.arrived c.queueType
  have hlength := congrArg List.length htail
  rw [srv.length_answersOf, hs.requests, countOf_append, Call.requests, countOf_own,
    if_pos rfl, List.length_append, List.length_map, ← hqueues, List.length_append, hlen] at hlength
  have hcount := hs.count
  rcases tail with _ | ⟨msg, tail⟩
  · simp only [List.length_nil] at hlength
    omega
  · refine ⟨msg, ?_, tail, ?_⟩
    · rw [← htail]
      simp
    · rw [← htail, List.append_assoc]
      rfl

/-- The server sends the answer that the current call waits for, and the call is woken. -/
theorem answer_step {left : ℕ} {out : List Received} {t0 : ℚ}
    (h : Sound srv s (some (i, c, R))) (hi : s.calls i = some ⟨c, .getting left out t0⟩)
    (hs : s.Collected c R (left + 1) out) (hregular : Regular c.queueType)
    (hrunning : s.client.recvTask = some .running) (hempty : s.items c.queueType = some []) :
    ∃ msg s', s.OneByOne srv (.receive (.ok msg) 0) ∧ s.step (.receive (.ok msg) 0) = some s' ∧
      s'.calls = s.calls ∧ s'.client.recvTask = some .running ∧ s'.ready ≠ [] := by
  obtain ⟨msg, hmem, hprefix⟩ := owed h.correlated h.conserved hs hregular hempty
  have htype := srv.typeStr_of_mem hmem s.log.length
  have hC : s.OneByOne srv (.receive (.ok msg) 0) := by
    intro t ht _
    obtain rfl : c.queueType = t := Option.some.inj (htype.symm.trans ht)
    exact hprefix
  have hstep : s.step (.receive (.ok msg) 0) = some (s.receive (.ok msg) 0) := by
    simp only [step, hrunning, if_true]
  obtain ⟨fields, rfl, hhash⟩ :
      ∃ fields, msg = .obj fields ∧ (Json.field fields "type").hashable = true := by
    cases msg with
    | obj fields =>
      refine ⟨fields, rfl, ?_⟩
      simp only [Received.typeStr] at htype
      split at htype
      · rename_i t ht
        rw [ht]
        rfl
      · cases htype
    | _ => cases htype
  obtain ⟨c', woken, hd⟩ := s.client.dispatch_hashable s.log.length 0 hhash
  have hcalls := (s.receive_cases (.ok (.obj fields)) 0).1
  have hmail := receive_mail hd
  refine ⟨_, _, hC, hstep, hcalls, ?_, ?_⟩
  · rw [receive]
    rw [hd]
    exact (congrArg Prod.snd (dispatch_connection hd)).trans hrunning
  · -- the queue is not empty any more, so the call has been woken
    have hwatched := (h.step hC rfl hstep).watched _ (hcalls ▸ hi)
    obtain ⟨-, q, hq, ⟨-, hitems, -⟩ | ⟨hready, -, -⟩⟩ := hwatched
    · have hdest : destination (fun t => (s.mail.items t).isSome) ⟨s.log.length, .obj fields⟩ =
          .queue c.queueType := by
        apply destination_of_regular hregular htype
        rw [show s.mail.items c.queueType = some [] from hempty]
        rfl
      have hitems' : (s.receive (.ok (.obj fields)) 0).items c.queueType = some q.items := by
        rw [items, hq]
        rfl
      have hnew := congrFun (congrArg Mail.items hmail) c.queueType
      rw [Mail.receive_items, show s.mail.log.length = s.log.length from rfl, if_pos hdest] at hnew
      have := Option.some.inj (hitems'.symm.trans hnew)
      rw [hitems] at this
      simp at this
    · rw [hready]
      exact List.cons_ne_nil _ _

/-- **The current call can go on**: by a step of its own, or because it is owed an answer. -/
theorem progress {f : Frame} (h : Sound srv s (some (i, c, R))) (hi : s.calls i = some ⟨c, f⟩)
    (hf : f.ended = false) (hregular : Regular c.queueType)
    (hrunning : s.client.recvTask = some .running) :
    ∃ l s' f', l.starts = false ∧ s.OneByOne srv l ∧ s.step l = some s' ∧
      s'.calls i = some ⟨c, f'⟩ ∧ s'.client.recvTask = some .running ∧
      s'.remaining c f' < s.remaining c f := by
  obtain ⟨R', heq, hstage, -⟩ := h.phase.stage hi hf
  obtain rfl : R = R' := by
    cases heq
    rfl
  have hattended := h.watched f hi
  -- a step of the call itself
  have own : ∀ {l s' f'}, l.starts = false → s.OneByOne srv l → l.leavesConnection = true →
      s.step l = some s' → s'.calls i = some ⟨c, f'⟩ → s'.remaining c f' < s.remaining c f →
      ∃ l s' f', l.starts = false ∧ s.OneByOne srv l ∧ s.step l = some s' ∧
        s'.calls i = some ⟨c, f'⟩ ∧ s'.client.recvTask = some .running ∧
        s'.remaining c f' < s.remaining c f := by
    intro l s' f' hns hC hleaves hl hi' hlt
    exact ⟨l, s', f', hns, hC, hl, hi',
      (congrArg Prod.snd (step_connection hleaves hl)).trans hrunning, hlt⟩
  cases f with
  | sending todo t0 =>
    have hready : s.ready = [] := hattended.1
    rcases todo with _ | ⟨w, todo⟩
    · obtain ⟨t, ht⟩ := c.afterSend_of_asks (h.correlated.asks i _ hi) t0 0
      refine own (l := .resume i 0) rfl trivial rfl (by simp only [step, hi]; rfl)
        (setFrame_calls_self ..) ?_
      rw [ht]
      simp only [remaining, setFrame_ready, hready, if_true, List.length_nil]
      omega
    · obtain ⟨conn, hconn⟩ := Option.ne_none_iff_exists'.mp h.ws
      refine own (l := .sent i) rfl trivial rfl (by simp only [step, hi, hconn]; rfl)
        (setFrame_calls_self ..) ?_
      simp only [remaining, setFrame_ready, hready, if_true, List.length_cons]
      omega
  | collecting left out t0 =>
    have hready : s.ready = [] := hattended.1
    rcases left with _ | left
    · refine own (l := .resume i 0) rfl trivial rfl (by simp only [step, hi]; rfl)
        (setFrame_calls_self ..) ?_
      simp only [remaining, setFrame_ready, hready, if_true]
      omega
    · rcases hget : s.getPass (i, 0) c.queueType with ⟨s₁, _ | m⟩
      · refine own (l := .resume i 0) rfl trivial rfl (by simp only [step, hi, hget]; rfl)
          (setFrame_calls_self ..) ?_
        simp only [remaining, hready, if_true]
        split <;> omega
      · refine own (l := .resume i 0) rfl trivial rfl (by simp only [step, hi, hget]; rfl)
          (setFrame_calls_self ..) ?_
        simp only [remaining, hready, if_true]
        split <;> omega
  | getting left out t0 =>
    by_cases hready : s.ready = []
    · have hempty : s.items c.queueType = some [] := by
        obtain ⟨-, q, hq, ⟨-, hitems, -⟩ | ⟨hready', -, -⟩⟩ := hattended
        · rw [items, hq, Option.map_some, hitems]
        · rw [hready] at hready'
          cases hready'
      obtain ⟨msg, s', hC, hl, hcalls, hrunning', hready'⟩ :=
        answer_step h hi hstage hregular hrunning hempty
      refine ⟨_, s', _, rfl, hC, hl, hcalls ▸ hi, hrunning', ?_⟩
      simp only [remaining, if_pos hready, if_neg hready']
      omega
    · obtain ⟨m, s', hl, -, hi'⟩ := run_of_attended hi hattended hready
      apply own (l := .run) rfl trivial rfl hl hi'
      simp only [remaining, if_neg hready]
      split <;> omega
  | returned | raised => cases hf
  | _ => exact hstage.elim

/-- From every state, the current call can be completed. -/
theorem completes {f : Frame} (h : Sound srv s (some (i, c, R))) (hi : s.calls i = some ⟨c, f⟩)
    (hregular : Regular c.queueType) (hrunning : s.client.recvTask = some .running) :
    ∃ ls s' r, Lts.run step s ls = some s' ∧ Lts.Along step (OneByOne srv) s ls ∧
      (∀ l ∈ ls, l.starts = false) ∧ s'.calls i = some ⟨c, .returned r⟩ := by
  induction hn : s.remaining c f using Nat.strong_induction_on generalizing s f with
  | _ n ih =>
    subst hn
    cases hf : f.ended with
    | true =>
      have hstage : s.Stage srv c R f := by
        obtain ⟨-, -, hP, -, -⟩ := h
        cases hP with
        | call hi' _ hstage =>
          obtain ⟨-, rfl⟩ := Task.mk.inj (Option.some.inj (hi'.symm.trans hi))
          exact hstage
      cases f with
      | returned r => exact ⟨[], s, r, rfl, Lts.along_nil, fun _ h => (nomatch h), hi⟩
      | raised e => exact hstage.elim
      | _ => cases hf
    | false =>
      obtain ⟨l, s₁, f₁, hns, hC, hl, hi₁, hrunning₁, hlt⟩ := progress h hi hf hregular hrunning
      obtain ⟨ls, s', r, hrun, halong, hnss, hret⟩ :=
        ih _ hlt (h.step hC hns hl) hi₁ hrunning₁ rfl
      refine ⟨l :: ls, s', r, ?_, Lts.along_cons.mpr ⟨hC, fun s₂ hs₂ => ?_⟩, ?_, hret⟩
      · rw [Lts.run_cons, hl]
        exact hrun
      · obtain rfl := Option.some.inj (hl.symm.trans hs₂)
        exact halong
      · intro l' hl'
        rcases List.mem_cons.mp hl' with rfl | hl'
        · exact hns
        · exact hnss l' hl'

end completion

/-- **Replies are matched to requests by counting**, in every state that a client reaches while one
task makes one call after another. The `k`-th message handed out for a type is the answer to the
`k`-th request for it. What a call made from there returns are the answers to its own requests: the
requests made before it, of whatever types, have used up exactly the earlier answers. A burst
therefore returns what the same requests return when they are made one by one, and it leaves the
queue empty. And the call in progress can be completed, as long as the receive task is running: at
most the server has to answer. -/
theorem correlation {srv : Server} {conn : ℕ} {ls : List Label} {s : Loop}
    (hrun : Lts.run step (connected conn) ls = some s)
    (hC : Lts.Along step (OneByOne srv) (connected conn) ls) :
    (∀ t, (handedOf t s.log).map Received.body <+: srv.answersOf t s.requests) ∧
      (∀ c r s₁, s.Performs srv c r s₁ →
        r.bodies = (srv.replies s.requests c.requests).map Prod.snd) ∧
      (∀ messages t timeoutEach timeout r s₁ rs s₂,
        s.Performs srv (.burstSameResponse messages t timeoutEach) r s₁ →
        PerformsEach srv s (messages.map fun m => .request m t timeout) rs s₂ →
          r.bodies = rs.flatMap Result.bodies ∧ s₁.items t = some []) ∧
      ∀ i c f, s.calls i = some ⟨c, f⟩ → f.ended = false → Regular c.queueType →
        s.client.recvTask = some .running →
          ∃ ls' s' r, Lts.run step s ls' = some s' ∧ Lts.Along step (OneByOne srv) s ls' ∧
            (∀ l ∈ ls', l.starts = false) ∧ s'.calls i = some ⟨c, .returned r⟩ := by
  obtain ⟨o, hs⟩ := Sound.run hrun hC
  refine ⟨hs.correlated.handed hs.conserved, fun c r s₁ hp => (hp.replies hs).2.1, ?_,
    fun i c f hi hf hregular hrunning => ?_⟩
  · intro messages t timeoutEach timeout r s₁ rs s₂ hburst heach
    obtain ⟨⟨o', hs₁⟩, hbodies, hreq, hdrained⟩ := hburst.replies hs
    refine ⟨?_, Drained.items hs₁ hdrained ?_⟩
    · have hrequests : (Call.burstSameResponse messages t timeoutEach).requests =
          (messages.map fun m => Call.request m t timeout).flatMap Call.requests := by
        simp only [Call.requests, Call.outgoing, Call.queueType, List.flatMap_map, List.map_map,
          List.map_singleton]
        exact List.map_eq_flatMap
      rw [hbodies, heach.replies hs, hrequests]
    · obtain ⟨i, now, s', ls', -, -, -, -, -, hi⟩ := hburst
      exact hs₁.correlated.registered i _ hi
  · obtain ⟨R, rfl, -, -⟩ := hs.phase.stage hi hf
    exact completes hs hi hregular hrunning

/-- A server that sends every request back. -/
def echo : Server where
  reply rs := match rs.getLast? with
    | some (t, .json message) => .obj [("type", .str t), ("data", message)]
    | some (t, .text s) => .obj [("type", .str t), ("data", .str s)]
    | none => .null
  typed rs r := by
    rw [List.getLast?_concat]
    obtain ⟨t, message | s⟩ := r <;> rfl

theorem correlation_echo :
    ∃ r s₁ rs s₂,
      (connected 0).Performs echo (.burstSameResponse [.obj []] "screw_param_get_response" 5) r s₁ ∧
      PerformsEach echo (connected 0) [.request (.obj []) "screw_param_get_response" 5] rs s₂ ∧
      r.bodies = rs.flatMap Result.bodies ∧ s₁.items "screw_param_get_response" = some [] := by
  have hregular : Regular "screw_param_get_response" := ⟨by decide, by decide, by decide⟩
  -- a call that begins can be completed
  have performs : ∀ c s, c.asks = true → Regular c.queueType →
      (connected 0).step (.start 0 c 0) = some s → s.client.recvTask = some .running →
        s.calls 0 = some ⟨c, .sending c.outgoing 0⟩ →
          ∃ r s', (connected 0).Performs echo c r s' := by
    intro c s hasks hregular hs hrunning hi
    have hstart : (connected 0).OneByOne echo (.start 0 c 0) := ⟨hasks, fun _ _ h => (nomatch h)⟩
    have hrun : Lts.run step (connected 0) [.start 0 c 0] = some s := by
      rw [Lts.run_cons, hs]
      rfl
    obtain ⟨-, -, -, hcomplete⟩ := correlation hrun
      (Lts.along_cons.mpr ⟨hstart, fun _ _ => Lts.along_nil⟩)
    obtain ⟨ls, s', r, hrun', halong, hns, hret⟩ := hcomplete 0 c _ hi rfl hregular hrunning
    exact ⟨r, s', 0, 0, s, ls, hstart, hs, hrun', halong, hns, hret⟩
  obtain ⟨r, s₁, hburst⟩ :=
    performs (.burstSameResponse [.obj []] "screw_param_get_response" 5) _ rfl hregular rfl rfl rfl
  obtain ⟨r', s₂, hrequest⟩ := performs (.request (.obj []) "screw_param_get_response" 5) _ rfl
    hregular rfl rfl rfl
  have heach := PerformsEach.cons hrequest (.nil s₂)
  have hrun : Lts.run step (connected 0) [] = some (connected 0) := rfl
  exact ⟨r, s₁, [r'], s₂, hburst, heach,
    (correlation hrun Lts.along_nil).2.2.1 _ _ _ _ _ _ _ _ hburst heach⟩

end Loop

end SasTests
