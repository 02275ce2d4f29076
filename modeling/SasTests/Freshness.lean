import SasTests.Delivery

/-!
# Freshness: whose answer a request returns

A reply carries no reference to its request: `request` and `request_any` return whatever comes first
out of the queue of an awaited type. The queues are never emptied, so a reply that came too late for
the call that wanted it, or an object of that type that nobody asked for, stays there and becomes
the answer to the next call (`stale_reply`).

What a call returns was received after it sent its own message if, at that moment, nothing waits in
the queues it listens to (`EmptyAtSend`). The invariant is `FreshFrame`: from its send on, whatever
a call has taken, and whatever is in its queues, has arrived since.
-/

namespace SasTests

open Python

namespace Call

/-- The calls that send one message and return one reply. -/
def isRequest : Call → Bool
  | request _ _ _ => true
  | requestAny _ _ _ => true
  | _ => false

/-- A single message that a call returns is one it has taken. -/
theorem mem_of_result {c : Call} {out : List Received} {x : Received}
    (h : c.result out = .message x) : x ∈ out := by
  cases c with
  | burstSameResponse => cases h
  | _ =>
    cases out with
    | nil => cases h
    | cons y out =>
      cases h
      exact List.mem_cons_self ..

end Call

/-- Call `i` wrote a message of `c` at place `k` of the history, and what is in the queues of `c`,
like the objects `ys`, was received after that. -/
structure Since (m : Mail) (i : ℕ) (c : Call) (k : ℕ) (ys : List Received) : Prop where
  /-- the message was written -/
  sent : ∃ w ∈ c.outgoing, m.log[k]? = some (.sent i w)
  /-- the queues hold newer objects -/
  queued : ∀ t ∈ c.responseTypes, ∀ xs, m.items t = some xs → ∀ x ∈ xs, k < x.idx ∧ m.Real x
  /-- so do the hands of the call -/
  taken : ∀ y ∈ ys, k < y.idx ∧ m.Real y

namespace Since

variable {m m' : Mail} {i k : ℕ} {c : Call} {ys : List Received}

/-- What arrives later is newer still. -/
theorem mono (he : Mail.Extends m m') (h : Since m i c k ys) : Since m' i c k ys where
  sent := let ⟨w, hw, hk⟩ := h.sent; ⟨w, hw, he.log_eq hk⟩
  queued t ht xs' hxs' x hx := by
    rcases he.items t xs' hxs' x hx with ⟨hle, hreal⟩ | ⟨xs, hxs, hx⟩
    · obtain ⟨w, -, hk⟩ := h.sent
      exact ⟨(List.getElem?_eq_some_iff.mp hk).1.trans_le hle, hreal⟩
    · obtain ⟨hlt, hreal⟩ := h.queued t ht xs hxs x hx
      exact ⟨hlt, he.real hreal⟩
  taken y hy := let ⟨hlt, hreal⟩ := h.taken y hy; ⟨hlt, he.real hreal⟩

theorem of_subset {zs : List Received} (h : Since m i c k ys) (hzs : ∀ z ∈ zs, z ∈ ys) :
    Since m i c k zs := { h with taken := fun z hz => h.taken z (hzs z hz) }

/-- Taking the head of one of the queues. -/
theorem hand (h : Since m i c k ys) {t : String} (ht : t ∈ c.responseTypes) {x : Received}
    {rest : List Received} (hitems : m.items t = some (x :: rest)) :
    Since (m.hand i t x rest) i c k (ys ++ [x]) where
  sent := (h.mono (.hand i hitems)).sent
  queued := (h.mono (.hand i hitems)).queued
  taken y hy := by
    rcases List.mem_append.mp hy with hy | hy
    · exact (h.mono (.hand i hitems)).taken y hy
    · obtain rfl := List.mem_singleton.mp hy
      obtain ⟨hlt, hreal⟩ := h.queued t ht _ hitems y (List.mem_cons_self ..)
      exact ⟨hlt, (Mail.Extends.hand i hitems).real hreal⟩

/-- The getter tasks take what is in the queues. -/
theorem getters {ts : List String} {got : List (Option Received)}
    (hg : Mail.Getters i ts m got m') (hts : ∀ t ∈ ts, t ∈ c.responseTypes)
    (h : Since m i c k ys) : Since m' i c k (ys ++ got.filterMap id) := by
  induction hg generalizing ys with
  | nil m => simpa using h
  | suspend _ _ ih =>
    simpa using ih (fun t ht => hts t (List.mem_cons_of_mem _ ht)) h
  | take hitems _ ih =>
    have := ih (fun t ht => hts t (List.mem_cons_of_mem _ ht))
      (h.hand (hts _ (List.mem_cons_self ..)) hitems)
    simpa using this

end Since

/-- What is known of call `i` in each of its frames, if it is a request. -/
def FreshFrame (m : Mail) (i : ℕ) (c : Call) : Frame → Prop
  | .sending (w :: todo) _ => c.outgoing = w :: todo
  | .sending [] _ => ∃ k, Since m i c k []
  | .created _ => ∃ k, Since m i c k []
  | .collecting _ out _ => c.queueType ∈ c.responseTypes ∧ ∃ k, Since m i c k out
  | .getting _ out _ => c.queueType ∈ c.responseTypes ∧ ∃ k, Since m i c k out
  | .waiting got _ => ∃ k, Since m i c k (got.filterMap id)
  | .returned (.message x) => ∃ k, Since m i c k [x]
  | _ => True

namespace FreshFrame

variable {m m' : Mail} {i : ℕ} {c : Call} {f f' : Frame}

theorem mono (he : Mail.Extends m m') (h : FreshFrame m i c f) : FreshFrame m' i c f := by
  have later : ∀ {ys}, (∃ k, Since m i c k ys) → ∃ k, Since m' i c k ys :=
    fun ⟨k, hk⟩ => ⟨k, hk.mono he⟩
  cases f with
  | sending todo t0 =>
    cases todo with
    | nil => exact later h
    | cons w todo => exact h
  | collecting left out t0 => exact ⟨h.1, later h.2⟩
  | getting left out t0 => exact ⟨h.1, later h.2⟩
  | created t0 => exact later h
  | waiting got t0 => exact later h
  | returned r =>
    cases r with
    | message x => exact later h
    | _ => trivial
  | _ => trivial

/-- A request that times out has failed. -/
theorem onTimeout (hc : c.isRequest = true) : FreshFrame m i c c.onTimeout := by
  cases c with
  | request => trivial
  | requestAny => trivial
  | _ => cases hc

/-- The moves that leave the messages alone: a request returns only what it has taken. -/
theorem «local» (hc : c.isRequest = true) {s : Loop} {l : Loop.Label} (hl : s.Local c l f f')
    (h : FreshFrame m i c f) : FreshFrame m i c f' := by
  cases hl with
  | notConnected => trivial
  | sendFails => trivial
  | afterSend =>
    cases c with
    | request message t timeout => exact ⟨List.mem_singleton_self t, h⟩
    | requestAny message ts timeout =>
      simp only [Call.afterSend]
      split
      · trivial
      · exact h
    | _ => cases hc
  | suspend => exact h
  | «return» =>
    rename_i out t0 now
    obtain ⟨-, k, hk⟩ := h
    rcases hr : c.result out with x | xs | ⟨source, value⟩ | _
    · refine ⟨k, hk.of_subset fun z hz => ?_⟩
      obtain rfl := List.mem_singleton.mp hz
      exact Call.mem_of_result hr
    all_goals trivial
  | timeout => exact onTimeout hc
  | wake hm =>
    obtain ⟨k, hk⟩ := h
    refine ⟨k, hk.of_subset fun z hz => ?_⟩
    obtain rfl := List.mem_singleton.mp hz
    exact List.mem_filterMap.mpr ⟨_, hm, rfl⟩
  | timeoutAny _ => exact onTimeout hc

theorem polls {events : List Received} (hc : c.isRequest = true)
    (hp : Loop.Polls c events f f') : FreshFrame m i c f' := by
  cases hp with
  | raises => trivial
  | found _ _ => trivial
  | timeout _ => exact onTimeout hc

/-- A request takes a message from one of its queues. -/
theorem takes {x : Received} {t : String} {rest : List Received} (ht : Loop.Takes c x f t f')
    (hitems : m.items t = some (x :: rest)) (h : FreshFrame m i c f) :
    FreshFrame (m.hand i t x rest) i c f' := by
  cases ht with
  | resume => exact let ⟨hq, k, hk⟩ := h; ⟨hq, k, hk.hand hq hitems⟩
  | run => exact let ⟨hq, k, hk⟩ := h; ⟨hq, k, hk.hand hq hitems⟩
  | runAny hj hgot =>
    rename_i got t0 j
    obtain ⟨k, hk⟩ := h
    refine ⟨k, (hk.hand (List.mem_of_getElem? hj) hitems).of_subset fun z hz => ?_⟩
    obtain ⟨o, ho, rfl⟩ : ∃ o ∈ got.set j (some x), o = some z := by
      simpa using List.mem_filterMap.mp hz
    rcases List.mem_or_eq_of_mem_set ho with ho | ho
    · exact List.mem_append_left _ (List.mem_filterMap.mpr ⟨_, ho, rfl⟩)
    · cases ho
      exact List.mem_append_right _ (List.mem_singleton_self _)

end FreshFrame

namespace Loop

/-- When a request writes its message, its queues are empty. -/
def EmptyAtSend (s : Loop) : Label → Prop
  | .sent i => ∀ task ∈ s.calls i, task.call.isRequest = true →
      ∀ t ∈ task.call.responseTypes, (s.items t).getD [] = []
  | _ => True

instance (s : Loop) : ∀ l, Decidable (s.EmptyAtSend l)
  | .sent i => inferInstanceAs (Decidable (∀ task ∈ s.calls i, _ → ∀ t ∈ _, _))
  | .connect _ | .disconnect | .peerClosed | .receive _ _ | .start _ _ _ | .sendFails _
  | .resume _ _ | .run | .getters _ | .wake _ _ _ | .timeout _ | .poll _ _ | .events _ =>
    isTrue trivial

/-- Every request is fresh so far. -/
def Fresh (s : Loop) : Prop := AllCalls (fun m i c f => c.isRequest = true → FreshFrame m i c f) s

/-- **Every step that meets the condition keeps requests fresh.** -/
theorem step_fresh {s s' : Loop} {l : Label} (h : s.Fresh) (hC : s.EmptyAtSend l)
    (hl : s.step l = some s') : s'.Fresh := by
  have he := step_extends hl
  have mono : ∀ {i c f}, (c.isRequest = true → FreshFrame s.mail i c f) →
      c.isRequest = true → FreshFrame s'.mail i c f := fun hf hc => (hf hc).mono he
  cases step_effect hl with
  | quiet hcalls _ => exact h.same mono hcalls
  | received hcalls _ => exact h.same mono hcalls
  | cleared hcalls _ => exact h.same mono hcalls
  | started hnone hcalls hm =>
    rename_i i c now
    refine h.update mono hcalls fun hc => ?_
    cases c with
    | request => rfl
    | requestAny => rfl
    | _ => cases hc
  | sent hi hcalls hm =>
    -- the place of the message in the history is the end; whatever the queues receive is newer
    rename_i i c w todo t0
    refine h.update mono hcalls fun hc => ?_
    have hout : c.outgoing = w :: todo := h i c _ hi hc
    have htodo : todo = [] := by
      cases c with
      | request => exact (List.cons.inj hout).2.symm
      | requestAny => exact (List.cons.inj hout).2.symm
      | _ => cases hc
    subst htodo
    refine ⟨s.log.length, ⟨w, hout ▸ List.mem_singleton_self w, ?_⟩, ?_, fun y hy => nomatch hy⟩
    · rw [hm]
      exact List.getElem?_concat_length
    · intro t ht xs hxs x hx
      rw [hm] at hxs
      have hempty : (s.items t).getD [] = [] := hC ⟨c, _⟩ hi hc t ht
      rw [show s.items t = some xs from hxs, Option.getD_some] at hempty
      rw [hempty] at hx
      cases hx
  | «local» hi hlocal hcalls hm =>
    exact h.update mono hcalls fun hc => hm ▸ (h _ _ _ hi hc).local hc hlocal
  | polled hi hp hcalls _ => exact h.update mono hcalls fun hc => .polls hc hp
  | handed hi ht hitems hcalls hm =>
    exact h.update mono hcalls fun hc => hm ▸ (h _ _ _ hi hc).takes ht hitems
  | getters hi hg hcalls =>
    refine h.update mono hcalls fun hc => ?_
    obtain ⟨k, hk⟩ : ∃ k, Since s.mail _ _ k [] := h _ _ _ hi hc
    exact ⟨k, hk.getters hg fun t ht => ht⟩

/-- **Freshness**: in every run in which each request finds its queues empty when it writes its
message, the message a request returns was received after the request had written its own.

The run begins with a new client, and any other calls may be in flight. A queue that is not empty
holds something that nobody has taken, such as a reply that came when its request had timed out, and
`get` returns that at once. -/
theorem fresh_of_emptyAtSend {ls : List Label} {s : Loop} (hC : Lts.Along step EmptyAtSend new ls)
    (h : Lts.run step new ls = some s) {i : ℕ} {c : Call} {m : Received}
    (hi : s.calls i = some ⟨c, .returned (.message m)⟩) (hc : c.isRequest = true) :
    ∃ k, (∃ w ∈ c.outgoing, s.log[k]? = some (.sent i w)) ∧ k < m.idx ∧
      s.log[m.idx]? = some (.received m) := by
  have hs : s.Fresh := Lts.run_invariant_along AllCalls.new (fun _ _ _ => step_fresh) hC h
  obtain ⟨k, hk⟩ : ∃ k, Since s.mail i c k [m] := hs i c _ hi hc
  exact ⟨k, hk.sent, hk.taken m (List.mem_singleton_self m)⟩

/-- A request that finds its queue empty, and gets the reply that comes after it. -/
def freshRun : List Label :=
  [.connect 0, .start 0 (.request (.obj [("type", .str "spec_options_get")]) "options" 5) 0,
    .sent 0, .resume 0 1, .resume 0 1, .receive (.ok (.obj [("type", .str "options")])) 2, .run,
    .resume 0 2]

theorem fresh_of_emptyAtSend_freshRun :
    ∃ s c m k, Lts.run step new freshRun = some s ∧
      s.calls 0 = some ⟨c, .returned (.message m)⟩ ∧
      (∃ w ∈ c.outgoing, s.log[k]? = some (.sent 0 w)) ∧ k < m.idx ∧
        s.log[m.idx]? = some (.received m) := by
  have h : Lts.run step new freshRun = some _ := rfl
  obtain ⟨k, hk⟩ := fresh_of_emptyAtSend (by decide) h (i := 0) rfl rfl
  exact ⟨_, _, _, k, h, rfl, hk⟩

/-- A request times out, its reply comes late, and the next request of the same type returns it:
the object at place 2 of the history answers the message at place 4. -/
theorem stale_reply :
    ∃ s c m, Lts.run step new
      [.connect 0, .start 0 (.request (.obj [("type", .str "spec_options_get")]) "options" 5) 0,
        .sent 0, .resume 0 1, .resume 0 1, .timeout 0,
        .receive (.ok (.obj [("type", .str "options")])) 7,
        .start 1 (.request (.obj [("type", .str "spec_options_get")]) "options" 5) 8, .sent 1,
        .resume 1 8, .resume 1 8, .resume 1 8] = some s ∧
      s.calls 1 = some ⟨c, .returned (.message m)⟩ ∧ c.isRequest = true ∧
      ¬ ∃ k, (∃ w ∈ c.outgoing, s.log[k]? = some (.sent 1 w)) ∧ k < m.idx := by
  refine ⟨_, _, _, rfl, rfl, rfl, ?_⟩
  rintro ⟨k, ⟨w, -, hk⟩, hlt⟩
  have hlt : k < 2 := hlt
  match k, hlt with
  | 0, _ => cases hk
  | 1, _ => cases hk

end Loop

end SasTests
