import SasTests.OtherCalls

/-!
# The race of the getters in `request_any`

`request_any` starts one getter task for each listed type, waits until one of them is done, cancels
the others and returns the message of one that is done. Nothing keeps a second getter from taking a
message before the call goes on: that message is lost (`two_taken`).

What it should do is `TakesFirst`: exactly the message that was there first is taken, and the
others stay. It is compared with `SoleGetter`, a condition on the queues and on what has arrived:
when the getters first run at most one of the queues has items, and a getter that the loop runs
later is that of the type which came first (`requestAny_takesFirst_iff`). Anything else may go on
beside the call: frames arrive, the client disconnects, other calls begin, wait, return and time
out. Only calls that await one of the listed types are excluded, since they take messages from the
same queues (`Alone`).

That the first getter to run takes the earliest message is no part of the condition, and is what the
proof is about. The loop runs woken getters in the order in which they were woken, and a getter is
woken when its queue gets its first item, so the woken getters of the call stand in the ready list
in the order in which the heads of their queues have arrived (`Fair`). The steps of other calls do
not disturb this order (`Aside`).
-/

namespace SasTests

open Python Asyncio

/-- The getter tasks take the heads of their queues. -/
theorem Mail.Getters.heads {i : ℕ} {ts : List String} {m m' : Mail} {got : List (Option Received)}
    (h : Mail.Getters i ts m got m') (hts : ts.Nodup)
    (hreg : ∀ t ∈ ts, (m.items t).isSome = true) :
    (∀ t, m'.items t = if t ∈ ts then (m.items t).map List.tail else m.items t) ∧
      got = ts.map fun t => (m.items t).bind List.head? := by
  induction h with
  | nil m => exact ⟨fun t => rfl, rfl⟩
  | @suspend t ts m m' got hempty hg ih =>
    obtain ⟨ht, hts⟩ := List.nodup_cons.mp hts
    obtain ⟨hitems, rfl⟩ := ih hts fun t' ht' => hreg t' (List.mem_cons_of_mem _ ht')
    obtain ⟨xs, hxs⟩ := Option.isSome_iff_exists.mp (hreg t List.mem_cons_self)
    obtain rfl := hempty xs hxs
    refine ⟨fun t' => ?_, ?_⟩
    · rw [hitems t']
      by_cases heq : t' = t
      · subst heq
        rw [if_neg ht, if_pos List.mem_cons_self, hxs]
        rfl
      · simp only [List.mem_cons, heq, false_or]
    · rw [List.map_cons, hxs]
      rfl
  | @take t ts m m' got x rest hx hg ih =>
    obtain ⟨ht, hts⟩ := List.nodup_cons.mp hts
    have hsame : ∀ t', t' ≠ t → (m.hand i t x rest).items t' = m.items t' :=
      fun t' hne => Function.update_of_ne hne ..
    obtain ⟨hitems, rfl⟩ := ih hts fun t' ht' =>
      Mail.isSome_items_hand (hreg t' (List.mem_cons_of_mem _ ht'))
    refine ⟨fun t' => ?_, ?_⟩
    · rw [hitems t']
      by_cases heq : t' = t
      · subst heq
        rw [if_neg ht, if_pos List.mem_cons_self, hx]
        exact Function.update_self ..
      · simp only [List.mem_cons, heq, false_or, hsame t' heq]
    · rw [List.map_cons, hx]
      refine congrArg (some x :: ·) (List.map_congr_left fun t' ht' => ?_)
      rw [hsame t' fun heq => ht (heq ▸ ht')]

namespace Loop

/-- The items of the queue of type `t`, if there is one. -/
def queued (s : Loop) (t : String) : List Received := (s.items t).getD []

theorem queued_of_eq {s : Loop} {t : String} {q : Queue Received Waiter}
    (h : s.client.pendingResponses t = some q) : s.queued t = q.items := by
  simp [queued, items, h]

/-- The items of a queue after one queue has been replaced. -/
theorem queued_setQueue {s s' : Loop} {t : String} {q : Queue Received Waiter}
    (h : s'.client = s.client.setQueue t q) :
    s'.queued = Function.update s.queued t q.items := by
  funext t'
  simp only [queued, items, h, WSClient.setQueue]
  by_cases ht' : t' = t
  · subst ht'
    simp
  · simp [ht', queued, items]

/-! ## The order of the queues -/

/-- What has happened since the history of `s₀`. -/
def since (s₀ s : Loop) : List Obs := s.log.drop s₀.log.length

/-- The messages of type `t` that have been there since `s₀`: those queued then, and those received
later. -/
def available (s₀ s : Loop) (t : String) : List Received :=
  s₀.queued t ++ receivedOf t (since s₀ s)

/-- A state that a run reaches in which call `i`, which is `c`, has begun in state `s₀`. -/
structure Began (s₀ s : Loop) (i : ℕ) (c : Call) : Prop where
  /-- the run up to `s` goes through `s₀` -/
  run : ∃ ls₀ now ls, Lts.run step new ls₀ = some s₀ ∧
    Lts.run step s₀ (.start i c now :: ls) = some s

namespace Began

variable {s₀ s s' : Loop} {i : ℕ} {c : Call}

theorem reached (h : Began s₀ s i c) : ∃ ls, Lts.run step new ls = some s := by
  obtain ⟨ls₀, now, ls, h₀, hrun⟩ := h.run
  exact ⟨ls₀ ++ .start i c now :: ls, by rw [Lts.run_append, h₀]; exact hrun⟩

theorem step {l : Label} (h : Began s₀ s i c) (hl : s.step l = some s') : Began s₀ s' i c := by
  obtain ⟨ls₀, now, ls, h₀, hrun⟩ := h.run
  refine ⟨ls₀, now, ls ++ [l], h₀, ?_⟩
  rw [← List.cons_append, Lts.run_append, hrun]
  exact (Option.bind_some ..).trans ((congrArg (Option.bind · _) hl).trans rfl)

/-- The history since the call began starts with the entry that registers its types. -/
theorem log (h : Began s₀ s i c) :
    ∃ tail, since s₀ s = .started i c :: tail ∧ s.log = s₀.log ++ since s₀ s := by
  obtain ⟨ls₀, now, ls, -, hrun⟩ := h.run
  obtain ⟨s₁, hstart, hrun⟩ := Option.bind_eq_some_iff.mp hrun
  have hlog₁ : s₁.log = s₀.log ++ [.started i c] := congrArg Mail.log (start_cases hstart).2.2
  obtain ⟨tail, htail⟩ : s₁.log <+: s.log :=
    Lts.run_invariant (I := fun s => s₁.log <+: s.log) List.prefix_rfl
      (fun _ _ _ hpre hl => hpre.trans (step_extends hl).log) hrun
  have hlog : s.log = s₀.log ++ .started i c :: tail := by
    rw [← htail, hlog₁, List.append_assoc]
    rfl
  have hsince : since s₀ s = .started i c :: tail := by
    rw [since, hlog, List.drop_left]
  exact ⟨tail, hsince, hsince ▸ hlog⟩

theorem taken_eq (h : Began s₀ s i c) (ts : List String) :
    taken ts s.log = taken ts s₀.log ++ taken ts (since s₀ s) := by
  obtain ⟨-, -, hlog⟩ := h.log
  conv_lhs => rw [hlog, taken_append]

theorem handedOf_eq (h : Began s₀ s i c) (t : String) :
    handedOf t s.log = handedOf t s₀.log ++ handedOf t (since s₀ s) := by
  obtain ⟨-, -, hlog⟩ := h.log
  conv_lhs => rw [hlog, handedOf, List.filterMap_append]
  rfl

/-- The queues of the call are there. -/
theorem registered (h : Began s₀ s i c) {f : Frame} (hi : s.calls i = some ⟨c, f⟩) :
    ∀ t ∈ c.responseTypes, (s.items t).isSome = true := by
  obtain ⟨ls, hrun⟩ := h.reached
  exact (run_formed hrun i c f hi).1

/-- **Of every listed type, what has been there since the call began has been handed out or is still
queued, in order.** -/
theorem balance (h : Began s₀ s i c) {f : Frame} (hi : s.calls i = some ⟨c, f⟩) {t : String}
    (ht : t ∈ c.responseTypes) (hregular : Regular t) :
    handedOf t (since s₀ s) ++ s.queued t = available s₀ s t := by
  obtain ⟨ls, hrun⟩ := h.reached
  obtain ⟨ls₀, -, -, h₀, -⟩ := h.run
  obtain ⟨tail, hsince, hlog⟩ := h.log
  have hqueued : handedOf t s₀.log ++ s₀.queued t = arrivedSince t s₀.log := by
    have hc := run_conserved h₀
    rcases hitems : s₀.items t with _ | xs
    · have hnot : registeredIn s₀.log t = false := by
        rw [show s₀.log = s₀.mail.log from rfl, ← hc.registered t]
        simp [mail, hitems]
      rw [arrivedSince_of_unregistered _ _ hnot, queued, hitems]
      rw [Option.getD_none, List.append_nil]
      exact hc.unregistered t hitems
    · rw [queued, hitems]
      exact hc.queues t xs hitems hregular
  obtain ⟨xs, hxs⟩ := Option.isSome_iff_exists.mp (h.registered hi t ht)
  have hitems : s.items t = some (s.queued t) := by rw [queued, hxs, Option.getD_some]
  have hconserved : handedOf t s.log ++ s.queued t = arrivedSince t s.log :=
    (run_conserved hrun).queues t _ hitems hregular
  have hregisters : Obs.registers t (.started i c) = true := decide_eq_true ht
  rw [hlog, hsince, arrivedSince_append _ _ hregisters, ← hsince, ← hlog, ← hqueued,
    h.handedOf_eq t, List.append_assoc, List.append_assoc] at hconserved
  exact List.append_cancel_left hconserved

end Began

/-! ## The invariant -/

/-- Object `x` is at the head of the queue of getter `j`. -/
def Head (s : Loop) (ts : List String) (j : ℕ) (x : Received) : Prop :=
  ∃ t, ts[j]? = some t ∧ (s.queued t).head? = some x

/-- The woken getters of call `i` find something, and they stand in the ready list in the order in
which the heads of their queues have arrived. -/
structure Fair (i : ℕ) (ts : List String) (s : Loop) : Prop where
  /-- the queue of a woken getter has items -/
  woken : ∀ w ∈ s.ours i, ∀ t, ts[w.2]? = some t → s.queued t ≠ []
  /-- the order of arrival -/
  order : (s.ours i).Pairwise fun w w' =>
    ∀ x x', s.Head ts w.2 x → s.Head ts w'.2 x' → x.idx < x'.idx

/-- What is left in the listed queues is newer than `m`. -/
def Earliest (s : Loop) (ts : List String) (m : Received) : Prop :=
  m.idx < s.log.length ∧ ∀ t ∈ ts, ∀ x ∈ s.queued t, m.idx < x.idx

/-- The call waits for its getters: `got` is what each of them has taken since `s₀`. -/
structure Racing (s₀ s : Loop) (i : ℕ) (ts : List String) (got : List (Option Received)) : Prop where
  /-- nobody else has taken anything -/
  perm : (taken ts (since s₀ s)).Perm (got.filterMap id)
  /-- a message is of the type of its getter -/
  typed : ∀ (j : ℕ) (t : String) (x : Received), ts[j]? = some t → got[j]? = some (some x) →
    x.typeStr = some t
  /-- a single message taken was the first -/
  earliest : ∀ m, taken ts (since s₀ s) = [m] → Earliest s ts m
  /-- the getters that have been woken -/
  fair : s.Fair i ts

/-- What is known of call `i` in each of its frames, when it began in state `s₀`. -/
def RaceFrame (s₀ s : Loop) (i : ℕ) (ts : List String) : Frame → Prop
  | .sending _ _ => taken ts (since s₀ s) = []
  | .created _ => taken ts (since s₀ s) = []
  | .waiting got _ => Racing s₀ s i ts got
  | .returned (.message m) => m ∈ taken ts (since s₀ s) ∧
      ∀ m', taken ts (since s₀ s) = [m'] → Earliest s ts m'
  | .raised _ => taken ts (since s₀ s) = []
  | _ => False

section frames

variable {s₀ s s' : Loop} {i : ℕ} {ts : List String} {l : Label}

theorem queued_of_items {t : String} (h : s'.items t = s.items t) : s'.queued t = s.queued t := by
  rw [queued, queued, h]

/-- What comes later is newer. -/
theorem Earliest.step {m : Received} (h : Earliest s ts m) (hl : s.step l = some s') :
    Earliest s' ts m := by
  have hext := step_extends hl
  refine ⟨h.1.trans_le hext.log.length_le, fun t ht x hx => ?_⟩
  rcases hitems : s'.items t with _ | xs
  · rw [queued, hitems] at hx
    cases hx
  rw [queued, hitems, Option.getD_some] at hx
  rcases hext.items t xs hitems x hx with ⟨hle, -⟩ | ⟨ys, hys, hmem⟩
  · exact h.1.trans_le hle
  · refine h.2 t ht x ?_
    rw [queued, show s.items t = some ys from hys]
    exact hmem

theorem Fair.aside (h : s.Fair i ts) (haside : Aside i ts s s') : s'.Fair i ts := by
  have hqueued : ∀ {j t}, ts[j]? = some t → s'.queued t = s.queued t := fun ht =>
    queued_of_items (haside.items _ (List.mem_of_getElem? ht))
  refine ⟨fun w hw t ht => ?_, ?_⟩
  · rw [hqueued ht]
    exact h.woken w (haside.ours ▸ hw) t ht
  · have hhead : ∀ {j x}, s'.Head ts j x → s.Head ts j x := by
      rintro j x ⟨t, ht, hx⟩
      exact ⟨t, ht, hqueued ht ▸ hx⟩
    rw [haside.ours]
    exact h.order.imp fun hlt x x' hx hx' => hlt x x' (hhead hx) (hhead hx')

/-- A step that takes nothing, and keeps the getters in order. -/
theorem RaceFrame.step {f : Frame} (h : RaceFrame s₀ s i ts f)
    (htaken : taken ts (since s₀ s') = taken ts (since s₀ s))
    (hfair : ∀ got t0, f = .waiting got t0 → s.Fair i ts → s'.Fair i ts)
    (hl : s.step l = some s') : RaceFrame s₀ s' i ts f := by
  cases f with
  | sending | created => exact htaken.trans h
  | waiting got t0 =>
    refine ⟨?_, h.typed, fun m hm => (h.earliest m (htaken ▸ hm)).step hl,
      hfair got t0 rfl h.fair⟩
    rw [htaken]
    exact h.perm
  | returned r =>
    cases r with
    | message m =>
      refine ⟨?_, fun m' hm' => (h.2 m' (htaken ▸ hm')).step hl⟩
      rw [htaken]
      exact h.1
    | _ => exact h
  | raised e => exact htaken.trans h
  | _ => exact h

end frames

/-! ## The getters of a call that is alone -/

section waiting

variable {s s' : Loop} {i j : ℕ} {c : Call} {got : List (Option Received)} {t0 : ℚ} {t : String}

/-- Only the getter of the type waits on a listed queue. -/
theorem getter_of_target (h : ∃ ls, Lts.run step new ls = some s)
    (hi : s.calls i = some ⟨c, .waiting got t0⟩) (halone : s.Alone i c.responseTypes)
    (ht : t ∈ c.responseTypes) {w : Waiter} (hw : s.target w = some t) :
    w.1 = i ∧ c.responseTypes[w.2]? = some t ∧ got[w.2]? = some none := by
  obtain ⟨c', f', hcall, hwaits, ht', hended⟩ := awaits_of_target h hw
  have hwi : w.1 = i := by
    by_contra hne
    exact halone w.1 c' f' hcall hended hne t ht' ht
  rw [hwi, hi] at hcall
  cases hcall
  obtain ⟨htype, hgot⟩ := waitsAt_inv hwaits
  exact ⟨hwi, htype, hgot⟩

/-- A woken getter of the call waits for a type, and has taken nothing. -/
theorem mem_ours (h : ∃ ls, Lts.run step new ls = some s)
    (hi : s.calls i = some ⟨c, .waiting got t0⟩) {w : Waiter} (hw : w ∈ s.ours i) :
    w.1 = i ∧ ∃ t, c.responseTypes[w.2]? = some t ∧ got[w.2]? = some none ∧
      s.target w = some t := by
  obtain ⟨hready, hwi⟩ := List.mem_filter.mp hw
  have hwi : w.1 = i := of_decide_eq_true hwi
  have hsound : s.room.Sound := h.elim fun _ hrun => run_sound hrun
  obtain ⟨t, ht⟩ := hsound.ready_target w hready
  have ht : s.target w = some t := ht
  obtain ⟨c', f', hcall, hwaits, -⟩ := awaits_of_target h ht
  rw [hwi, hi] at hcall
  cases hcall
  obtain ⟨htype, hgot⟩ := waitsAt_inv hwaits
  exact ⟨hwi, t, htype, hgot, ht⟩

/-- A call that is not waiting has no getters that could run. -/
theorem ours_eq_nil (h : ∃ ls, Lts.run step new ls = some s) {f : Frame}
    (hi : s.calls i = some ⟨c, f⟩) (hf : ∀ j, f.waitsOn c j = none) : s.ours i = [] := by
  have hsound : s.room.Sound := h.elim fun _ hrun => run_sound hrun
  refine List.filter_eq_nil_iff.mpr fun w hw hwi => ?_
  obtain ⟨t, ht⟩ := hsound.ready_target w hw
  have ht : s.target w = some t := ht
  obtain ⟨c', f', hcall, hwaits, -⟩ := awaits_of_target h ht
  rw [of_decide_eq_true hwi, hi] at hcall
  cases hcall
  cases (hf w.2).symm.trans hwaits

/-- Two getters of the call do not wait for the same type. -/
theorem getter_unique (hts : c.responseTypes.Nodup) {j' : ℕ} (hj : c.responseTypes[j]? = some t)
    (hj' : c.responseTypes[j']? = some t) : j = j' :=
  (List.getElem?_inj (List.getElem?_eq_some_iff.mp hj).1 hts).mp (hj.trans hj'.symm)

/-- A getter sleeps only before an empty queue. -/
theorem items_of_asleep (h : ∃ ls, Lts.run step new ls = some s)
    (hi : s.calls i = some ⟨c, .waiting got t0⟩) (halone : s.Alone i c.responseTypes)
    (hts : c.responseTypes.Nodup) (ht : t ∈ c.responseTypes) {q : Queue Received Waiter}
    (hq : s.client.pendingResponses t = some q) {w : Waiter} (hw : w ∈ q.getters) :
    q.items = [] := by
  have hsound : s.room.Sound := h.elim fun _ hrun => run_sound hrun
  obtain ⟨htarget, hready⟩ := hsound.getters_target t q hq w hw
  obtain ⟨hwi, htype, -⟩ := getter_of_target h hi halone ht htarget
  rcases hsound.attended t q hq with hnil | hle
  · rw [hnil] at hw
    cases hw
  -- nobody has been woken for the queue: it could only have been the same getter
  have hnobody : s.room.woken t = 0 := by
    refine List.countP_eq_zero.mpr fun v hv hvt => hready ?_
    obtain ⟨hvi, htype', -⟩ := getter_of_target h hi halone ht (of_decide_eq_true hvt)
    have hvw : v = w := Prod.ext (hvi.trans hwi.symm) (getter_unique hts htype' htype)
    exact hvw ▸ hv
  rw [hnobody] at hle
  exact List.length_eq_zero_iff.mp (Nat.le_zero.mp hle)

/-- A getter that has taken nothing has been woken once its queue has items. -/
theorem awake (h : ∃ ls, Lts.run step new ls = some s)
    (hi : s.calls i = some ⟨c, .waiting got t0⟩) (halone : s.Alone i c.responseTypes)
    (hts : c.responseTypes.Nodup) (hj : c.responseTypes[j]? = some t) (hgot : got[j]? = some none)
    (hne : s.queued t ≠ []) : (i, j) ∈ s.ours i := by
  have hsound : s.room.Sound := h.elim fun _ hrun => run_sound hrun
  have htarget : s.target (i, j) = some t := (target_of_call hi j).trans (waitsAt_eq hj hgot)
  obtain ⟨q, hq, hready | hasleep⟩ := hsound.placed (i, j) t htarget
  · exact List.mem_filter.mpr ⟨hready, decide_eq_true rfl⟩
  · refine absurd ?_ hne
    rw [queued_of_eq hq]
    exact items_of_asleep h hi halone hts (List.mem_of_getElem? hj) hq hasleep

/-- The head of a queue has been received, and before the rest of the queue. -/
theorem head_of_queued (h : ∃ ls, Lts.run step new ls = some s) {y : Received}
    {ys : List Received} (hq : s.queued t = y :: ys) :
    y.idx < s.log.length ∧ ∀ z ∈ ys, y.idx < z.idx := by
  obtain ⟨ls, hrun⟩ := h
  have hsourced := run_sourced hrun
  have hconserved := run_conserved hrun
  rcases hxs : s.items t with _ | xs <;> rw [queued, hxs] at hq
  · cases hq
  obtain rfl : xs = y :: ys := hq
  have hfrom := hsourced.queued t _ hxs y List.mem_cons_self
  refine ⟨(List.getElem?_eq_some_iff.mp hfrom.real).1, ?_⟩
  have harrivals := hsourced.arrivals t
  rw [← hconserved.queues t _ hxs hfrom.regular] at harrivals
  exact (List.pairwise_cons.mp (List.pairwise_append.mp harrivals).2.1).1

namespace Put

variable {q : Queue Received Waiter} {x : Received} {ts : List String}

theorem queued_self (hput : Put t q x s s') : s'.queued t = s.queued t ++ [x] := by
  rw [queued_of_eq hput.pending_self, queued_of_eq hput.found]
  rfl

theorem queued_of_ne (hput : Put t q x s s') {t' : String} (hne : t' ≠ t) :
    s'.queued t' = s.queued t' := by
  rw [queued, queued, items, items, hput.pending_of_ne hne]

theorem queued_ne_nil (hput : Put t q x s s') {t' : String} (h : t' ≠ t → s.queued t' ≠ []) :
    s'.queued t' ≠ [] := by
  by_cases heq : t' = t
  · rw [heq, hput.queued_self]
    exact List.append_ne_nil_of_right_ne_nil _ (List.cons_ne_nil _ _)
  · rw [hput.queued_of_ne heq]
    exact h heq

/-- A getter that has something before it sees what it saw. -/
theorem head (hput : Put t q x s s') {y : Received}
    (hne : ∀ t', ts[j]? = some t' → s.queued t' ≠ []) (hy : s'.Head ts j y) : s.Head ts j y := by
  obtain ⟨t', ht', hy⟩ := hy
  refine ⟨t', ht', ?_⟩
  by_cases heq : t' = t
  · subst heq
    rwa [hput.queued_self, List.head?_append_of_ne_nil _ (hne t' ht')] at hy
  · rwa [hput.queued_of_ne heq] at hy

/-- At most one getter of the call is woken; then its queue was empty. -/
theorem ours (hput : Put t q x s s') (h : ∃ ls, Lts.run step new ls = some s)
    (hi : s.calls i = some ⟨c, .waiting got t0⟩) (halone : s.Alone i c.responseTypes)
    (hts : c.responseTypes.Nodup) :
    s'.ours i = s.ours i ∨
      ∃ v, s'.ours i = s.ours i ++ [v] ∧ c.responseTypes[v.2]? = some t ∧ s.queued t = [] := by
  have hours : s'.ours i = s.ours i ++ q.getters.head?.toList.filter fun w => w.1 = i := by
    rw [Loop.ours, hput.ready, List.filter_append]
    rfl
  rcases hgetters : q.getters with _ | ⟨v, vs⟩ <;> rw [hgetters] at hours
  · exact .inl (hours.trans (List.append_nil _))
  rw [List.head?_cons, Option.toList_some] at hours
  by_cases hvi : v.1 = i
  · rw [List.filter_cons_of_pos (by simpa using hvi), List.filter_nil] at hours
    have hmem : v ∈ q.getters := hgetters ▸ List.mem_cons_self
    have ht : t ∈ c.responseTypes := by
      by_contra hnot
      exact foreign_getters h hi hnot hput.found v hmem hvi
    have hsound : s.room.Sound := h.elim fun _ hrun => run_sound hrun
    obtain ⟨-, htype, -⟩ := getter_of_target h hi halone ht
      (hsound.getters_target t q hput.found v hmem).1
    refine .inr ⟨v, hours, htype, ?_⟩
    rw [queued_of_eq hput.found]
    exact items_of_asleep h hi halone hts ht hput.found hmem
  · rw [List.filter_cons_of_neg (by simpa using hvi)] at hours
    exact .inl (hours.trans (List.append_nil _))

/-- **A new object wakes the getter of its queue behind the others**, unless the getter has been
woken before. -/
theorem fair (hput : Put t q x s s') (h : ∃ ls, Lts.run step new ls = some s)
    (hi : s.calls i = some ⟨c, .waiting got t0⟩) (halone : s.Alone i c.responseTypes)
    (hts : c.responseTypes.Nodup) (hfair : s.Fair i c.responseTypes) :
    s'.Fair i c.responseTypes := by
  have hhead : ∀ {w y}, w ∈ s.ours i → s'.Head c.responseTypes w.2 y →
      s.Head c.responseTypes w.2 y := fun hw => hput.head (hfair.woken _ hw)
  have hwoken : ∀ w ∈ s.ours i, ∀ t', c.responseTypes[w.2]? = some t' → s'.queued t' ≠ [] :=
    fun w hw t' ht' => hput.queued_ne_nil fun _ => hfair.woken w hw t' ht'
  have horder : (s.ours i).Pairwise fun w w' => ∀ y y',
      s'.Head c.responseTypes w.2 y → s'.Head c.responseTypes w'.2 y' → y.idx < y'.idx :=
    hfair.order.imp_of_mem fun hw hw' hlt y y' hy hy' => hlt y y' (hhead hw hy) (hhead hw' hy')
  rcases hput.ours h hi halone hts with hours | ⟨v, hours, htype, hempty⟩
  · exact ⟨hours ▸ hwoken, hours ▸ horder⟩
  refine ⟨fun w hw t' ht' => ?_, ?_⟩
  · rcases List.mem_append.mp (hours ▸ hw) with hw | hw
    · exact hwoken w hw t' ht'
    · obtain rfl := List.mem_singleton.mp hw
      exact hput.queued_ne_nil fun hne =>
        absurd (Option.some.inj (ht'.symm.trans htype)) hne
  · rw [hours]
    refine List.pairwise_append.mpr ⟨horder, List.pairwise_singleton .., fun w hw v' hv' => ?_⟩
    obtain rfl := List.mem_singleton.mp hv'
    rintro y y' hy ⟨t', ht', hy'⟩
    obtain rfl : t = t' := Option.some.inj (htype.symm.trans ht')
    rw [hput.queued_self, hempty] at hy'
    obtain rfl : x = y' := Option.some.inj hy'
    -- what the others see is older than the object
    obtain ⟨t', -, hy⟩ := hhead hw hy
    obtain ⟨ys, hys⟩ := List.head?_eq_some_iff.mp hy
    rw [hput.idx]
    exact (head_of_queued h hys).1

end Put

/-- Whatever arrives, the woken getters stay in order. -/
theorem receive_fair (h : ∃ ls, Lts.run step new ls = some s)
    (hi : s.calls i = some ⟨c, .waiting got t0⟩) (halone : s.Alone i c.responseTypes)
    (hts : c.responseTypes.Nodup) (hfair : s.Fair i c.responseTypes)
    (loaded : Except PyError Json) (now : ℚ) :
    (s.receive loaded now).Fair i c.responseTypes := by
  rcases s.receive_put loaded now with ⟨hpending, hready⟩ | ⟨t, q, x, hput⟩
  · refine hfair.aside (.of_eq ?_ hready)
    funext t
    rw [items, items, hpending]
  · exact hput.fair h hi halone hts hfair

end waiting

/-! ## The condition -/

/-- A message of type `t` has been there since `s₀`, and none of another listed type before it. -/
def ComesFirst (s₀ s : Loop) (ts : List String) (t : String) : Prop :=
  ∃ y ∈ available s₀ s t, ∀ t' ∈ ts, t' ≠ t → Regular t' → ∀ x ∈ available s₀ s t', y.idx < x.idx

/-- No second getter runs while there is a message for it: when the getter tasks first run, at most
one of the queues has items; and the loop runs a woken getter only if it is that of the type which
came first. -/
def SoleGetter (s₀ : Loop) (i : ℕ) (ts : List String) (s : Loop) : Label → Prop
  | .getters k => k = i → ts.countP (fun t => ((s.queued t).head?).isSome) ≤ 1
  | .run => ∀ j, s.ready.head? = some (i, j) → ∀ t, ts[j]? = some t → ComesFirst s₀ s ts t
  | _ => True

/-- At most one message has been taken since `s₀`. -/
def OneTaken (s₀ s : Loop) (ts : List String) : Prop := (taken ts (since s₀ s)).length ≤ 1

/-- Call `i`, which is `c`, has begun in state `s₀`, and is in one of its frames. -/
structure Race (s₀ s : Loop) (i : ℕ) (c : Call) : Prop where
  /-- it has begun -/
  began : Began s₀ s i c
  /-- its frame -/
  frame : ∃ f, s.calls i = some ⟨c, f⟩ ∧ RaceFrame s₀ s i c.responseTypes f

section first

variable {s₀ s : Loop} {i j : ℕ} {c : Call} {got : List (Option Received)} {t0 : ℚ} {t : String}
  {x : Received} {xs : List Received} {rest : List Waiter}

/-- What is in a queue is of a type that goes to its queue. -/
theorem from_of_queued (h : ∃ ls, Lts.run step new ls = some s) (hx : x ∈ s.queued t) :
    s.mail.From t x := by
  obtain ⟨ls, hrun⟩ := h
  rcases hxs : s.items t with _ | ys <;> rw [queued, hxs] at hx
  · cases hx
  · exact (run_sourced hrun).queued t ys hxs x hx

/-- There is a getter for each type. -/
theorem Began.length_eq (h : Began s₀ s i c) (hi : s.calls i = some ⟨c, .waiting got t0⟩) :
    got.length = c.responseTypes.length := by
  obtain ⟨ls, hrun⟩ := h.reached
  exact (run_formed hrun i c _ hi).2

/-- As long as nothing has been taken, the first getter to run finds the earliest message. -/
theorem head_earliest (hb : Began s₀ s i c) (hi : s.calls i = some ⟨c, .waiting got t0⟩)
    (halone : s.Alone i c.responseTypes) (hts : c.responseTypes.Nodup)
    (hfair : s.Fair i c.responseTypes) (hnone : ∀ o ∈ got, o = none)
    (hready : s.ready = (i, j) :: rest) (hj : c.responseTypes[j]? = some t)
    (hx : s.queued t = x :: xs) :
    ∀ t' ∈ c.responseTypes, t' ≠ t → ∀ z ∈ s.queued t', x.idx < z.idx := by
  intro t' ht' hne z hz
  obtain ⟨j', hj'⟩ := List.mem_iff_getElem?.mp ht'
  have hgot : got[j']? = some none := by
    have hlt : j' < got.length := hb.length_eq hi ▸ (List.getElem?_eq_some_iff.mp hj').1
    rw [List.getElem?_eq_getElem hlt, hnone _ (List.getElem_mem hlt)]
  obtain ⟨y, ys, hy⟩ := List.exists_cons_of_ne_nil (List.ne_nil_of_mem hz)
  -- the getter of the other queue comes later in the list
  have hmem := awake hb.reached hi halone hts hj' hgot (by rw [hy]; exact List.cons_ne_nil _ _)
  have hours : s.ours i = (i, j) :: rest.filter fun w => w.1 = i := by
    rw [ours, hready, List.filter_cons_of_pos (by simp)]
  have horder := hfair.order
  rw [hours] at hmem horder
  have hlater : (i, j') ∈ rest.filter fun w => w.1 = i := by
    refine (List.mem_cons.mp hmem).resolve_left fun heq => hne ?_
    obtain rfl : j' = j := (Prod.mk.inj heq).2
    exact Option.some.inj (hj'.symm.trans hj)
  have hlt : x.idx < y.idx := (List.pairwise_cons.mp horder).1 _ hlater x y
    ⟨t, hj, by rw [hx]; rfl⟩ ⟨t', hj', by rw [hy]; rfl⟩
  rw [hy] at hz
  rcases List.mem_cons.mp hz with rfl | hz
  · exact hlt
  · exact hlt.trans ((head_of_queued hb.reached hy).2 z hz)

/-- As long as nothing has been taken, all that has been there is still queued. -/
theorem available_of_untaken (hb : Began s₀ s i c) {f : Frame} (hi : s.calls i = some ⟨c, f⟩)
    (hnil : taken c.responseTypes (since s₀ s) = []) (ht : t ∈ c.responseTypes)
    (hregular : Regular t) : available s₀ s t = s.queued t := by
  have hhanded : handedOf t (since s₀ s) = [] := by
    refine List.eq_nil_iff_forall_not_mem.mpr fun m hm => ?_
    have hmem := handedOf_subset_taken ht hm
    rw [hnil] at hmem
    cases hmem
  rw [← hb.balance hi ht hregular, hhanded, List.nil_append]

/-- **The first getter to run is that of the type which came first.** -/
theorem comesFirst_of_untaken (hb : Began s₀ s i c) (hi : s.calls i = some ⟨c, .waiting got t0⟩)
    (halone : s.Alone i c.responseTypes) (hts : c.responseTypes.Nodup)
    (hfair : s.Fair i c.responseTypes) (hnone : ∀ o ∈ got, o = none)
    (hnil : taken c.responseTypes (since s₀ s) = []) (hready : s.ready = (i, j) :: rest)
    (hj : c.responseTypes[j]? = some t) (hx : s.queued t = x :: xs) :
    ComesFirst s₀ s c.responseTypes t := by
  have hmem : x ∈ s.queued t := hx ▸ List.mem_cons_self
  have hregular := (from_of_queued hb.reached hmem).regular
  have ht := List.mem_of_getElem? hj
  refine ⟨x, (available_of_untaken hb hi hnil ht hregular).symm ▸ hmem,
    fun t' ht' hne hregular' z hz => ?_⟩
  rw [available_of_untaken hb hi hnil ht' hregular'] at hz
  exact head_earliest hb hi halone hts hfair hnone hready hj hx t' ht' hne z hz

/-- A getter that runs after another one is not that of the type which came first. -/
theorem not_comesFirst (hb : Began s₀ s i c) (hi : s.calls i = some ⟨c, .waiting got t0⟩)
    (hts : c.responseTypes.Nodup) (hf : Racing s₀ s i c.responseTypes got) {m : Received}
    (hm : taken c.responseTypes (since s₀ s) = [m]) (hj : c.responseTypes[j]? = some t)
    (hgot : got[j]? = some none) (hregular : Regular t) :
    ¬ ComesFirst s₀ s c.responseTypes t := by
  obtain ⟨ls, hrun⟩ := hb.reached
  obtain ⟨-, -, hlog⟩ := hb.log
  -- the message that has been taken, and its type
  have hmem : m ∈ taken c.responseTypes (since s₀ s) := hm ▸ List.mem_singleton_self m
  obtain ⟨a, ha, htype, rfl⟩ := mem_taken.mp hmem
  have hfrom : s.mail.From a.type a.message := by
    refine (run_sourced hrun).handed a ?_
    rw [show s.mail.log = s.log from rfl, hlog, handings, List.filterMap_append]
    exact List.mem_append_right _ ha
  have havailable : a.message ∈ available s₀ s a.type := by
    rw [← hb.balance hi htype hfrom.regular, handedOf_eq]
    exact List.mem_append_left _ (List.mem_filterMap.mpr ⟨a, ha, if_pos rfl⟩)
  have hne : a.type ≠ t := by
    intro heq
    have hdone := hf.perm.mem_iff.mp hmem
    obtain ⟨o, ho, heq'⟩ := List.mem_filterMap.mp hdone
    obtain rfl : o = some a.message := heq'
    obtain ⟨j₁, hj₁⟩ := List.mem_iff_getElem?.mp ho
    have hlt : j₁ < c.responseTypes.length :=
      hb.length_eq hi ▸ (List.getElem?_eq_some_iff.mp hj₁).1
    have htyped := hf.typed j₁ _ a.message (List.getElem?_eq_getElem hlt) hj₁
    have hj₁' : c.responseTypes[j₁]? = some t := by
      rw [List.getElem?_eq_getElem hlt, ← heq]
      exact htyped.symm.trans hfrom.typed
    obtain rfl := getter_unique hts hj₁' hj
    rw [hgot] at hj₁
    cases hj₁
  rintro ⟨y, hy, hfirst⟩
  have hlt := hfirst a.type htype hne hfrom.regular a.message havailable
  rw [← hb.balance hi (List.mem_of_getElem? hj) hregular] at hy
  rcases List.mem_append.mp hy with hy | hy
  · have hy' := handedOf_subset_taken (List.mem_of_getElem? hj) hy
    rw [hm, List.mem_singleton] at hy'
    exact absurd hlt (hy' ▸ lt_irrefl _)
  · exact absurd ((hf.earliest _ hm).2 t (List.mem_of_getElem? hj) y hy) hlt.asymm

end first

/-! ## Steps of the race -/

section race_step

variable {s₀ s s' : Loop} {i : ℕ} {message : Json} {ts : List String} {timeout : ℚ} {l : Label}

/-- What has been taken since the call began, after a step. -/
theorem taken_since {c : Call} {xs : List Received} (hb : Began s₀ s i c) (hb' : Began s₀ s' i c)
    (h : taken ts s'.log = taken ts s.log ++ xs) :
    taken ts (since s₀ s') = taken ts (since s₀ s) ++ xs := by
  rw [hb'.taken_eq, hb.taken_eq, List.append_assoc] at h
  exact List.append_cancel_left h

/-- Most steps take nothing, and `SoleGetter` says nothing about them. -/
theorem Race.idle {c : Call} {f : Frame} (h : Race s₀ s i c) (hl : s.step l = some s')
    (hsole : SoleGetter s₀ i c.responseTypes s l) (hi : s'.calls i = some ⟨c, f⟩)
    (htaken : taken c.responseTypes s'.log = taken c.responseTypes s.log)
    (hf : taken c.responseTypes (since s₀ s') = taken c.responseTypes (since s₀ s) →
      RaceFrame s₀ s' i c.responseTypes f) :
    Race s₀ s' i c ∧ (OneTaken s₀ s c.responseTypes →
      (SoleGetter s₀ i c.responseTypes s l ↔ OneTaken s₀ s' c.responseTypes)) := by
  have hb' := h.began.step hl
  have hsame : taken c.responseTypes (since s₀ s') = taken c.responseTypes (since s₀ s) :=
    (taken_since h.began hb' (htaken.trans (List.append_nil _).symm)).trans (List.append_nil _)
  refine ⟨⟨hb', f, hi, hf hsame⟩, fun hle => ⟨fun _ => ?_, fun _ => hsole⟩⟩
  rw [OneTaken, hsame]
  exact hle

/-- A woken getter of the call: it has taken nothing, and its queue has items. -/
theorem Race.woken {c : Call} (h : Race s₀ s i c) {j : ℕ} {rest : List Waiter}
    (hready : s.ready = (i, j) :: rest) :
    ∃ got t0 t x xs, s.calls i = some ⟨c, .waiting got t0⟩ ∧ Racing s₀ s i c.responseTypes got ∧
      c.responseTypes[j]? = some t ∧ got[j]? = some none ∧ s.queued t = x :: xs := by
  obtain ⟨f, hi, hf⟩ := h.frame
  have hmem : (i, j) ∈ s.ours i := by
    rw [ours, hready]
    exact List.mem_filter.mpr ⟨List.mem_cons_self, decide_eq_true rfl⟩
  have absurd_idle : ¬ ∀ j, f.waitsOn c j = none := by
    intro hidle
    rw [ours_eq_nil h.began.reached hi hidle] at hmem
    cases hmem
  cases f with
  | waiting got t0 =>
    obtain ⟨-, t, hj, hgot, -⟩ := mem_ours h.began.reached hi hmem
    obtain ⟨x, xs, hx⟩ := List.exists_cons_of_ne_nil (hf.fair.woken _ hmem t hj)
    exact ⟨got, t0, t, x, xs, hi, hf, hj, hgot, hx⟩
  | getting => exact hf.elim
  | _ => exact absurd (fun _ => rfl) absurd_idle

/-- What the loop looks like when a woken getter has taken the head of its queue. -/
structure Ran (s s' : Loop) (i j : ℕ) (c : Call) (got : List (Option Received)) (t0 : ℚ) (t : String)
    (x : Received) (xs : List Received) (rest : List Waiter) : Prop where
  /-- the getter is done -/
  calls : s'.calls i = some ⟨c, .waiting (got.set j (some x)) t0⟩
  /-- its queue has lost its head -/
  queued : s'.queued = Function.update s.queued t xs
  /-- nobody is woken -/
  ready : s'.ready = rest
  /-- the history -/
  log : s'.log = s.log ++ [.handed i t x]

theorem ran_of_run {c : Call} {got : List (Option Received)} {t0 : ℚ} {j : ℕ} {t : String}
    {x : Received} {xs : List Received} {rest : List Waiter}
    (hi : s.calls i = some ⟨c, .waiting got t0⟩) (hj : c.responseTypes[j]? = some t)
    (hgot : got[j]? = some none) (hx : s.queued t = x :: xs) :
    Ran s ({ s with ready := rest }.runGetter i j) i j c got t0 t x xs rest := by
  rcases hq : s.client.pendingResponses t with _ | q
  · rw [queued, items, hq] at hx
    cases hx
  have hitems : q.items = x :: xs := (queued_of_eq hq).symm.trans hx
  have hq' : ({ s with ready := rest } : Loop).client.pendingResponses t = some q := hq
  have heq : { s with ready := rest }.runGetter i j = ({ s with
      client := s.client.setQueue t { q with items := xs }
      ready := rest
      log := s.log ++ [Obs.handed i t x] } : Loop).setFrame i c
        (.waiting (got.set j (some x)) t0) := by
    simp only [runGetter, hi, hj, hgot]
    rw [getPass_of_cons hq' hitems]
  exact ⟨heq ▸ setFrame_calls_self .., queued_setQueue (congrArg Loop.client heq),
    congrArg Loop.ready heq, congrArg Loop.log heq⟩

/-- If nothing has been taken, none of the getters has taken anything. -/
theorem Racing.untaken {got : List (Option Received)} (h : Racing s₀ s i ts got)
    (hnil : taken ts (since s₀ s) = []) : ∀ o ∈ got, o = none := by
  have hperm := h.perm
  rw [hnil] at hperm
  exact List.filterMap_eq_nil_iff.mp (List.nil_perm.mp hperm)

section ran

variable {c : Call} {got : List (Option Received)} {t0 : ℚ} {j : ℕ} {t : String} {x : Received}
  {xs : List Received} {rest : List Waiter}

theorem Ran.queued_of_ne (h : Ran s s' i j c got t0 t x xs rest) {t' : String} (hne : t' ≠ t) :
    s'.queued t' = s.queued t' := by
  rw [h.queued, Function.update_of_ne hne]

theorem Ran.ours_eq (h : Ran s s' i j c got t0 t x xs rest) (hready : s.ready = (i, j) :: rest) :
    s.ours i = (i, j) :: s'.ours i := by
  rw [ours, ours, hready, h.ready, List.filter_cons_of_pos (by simp)]

/-- The other woken getters wait on other queues. -/
theorem Ran.queued_later (h : Ran s s' i j c got t0 t x xs rest)
    (hreached : ∃ ls, Lts.run step new ls = some s) (hts : c.responseTypes.Nodup)
    (hready : s.ready = (i, j) :: rest) (hj : c.responseTypes[j]? = some t) {w : Waiter}
    (hw : w ∈ s'.ours i) {t' : String} (ht' : c.responseTypes[w.2]? = some t') :
    s'.queued t' = s.queued t' := by
  refine h.queued_of_ne fun heq => ?_
  subst heq
  have hnodup : (s.ours i).Nodup := by
    obtain ⟨ls, hrun⟩ := hreached
    exact (run_sound hrun).ready_nodup.filter _
  rw [h.ours_eq hready] at hnodup
  have hwi : w.1 = i := of_decide_eq_true (List.mem_filter.mp hw).2
  have heq : w = (i, j) := Prod.ext hwi (getter_unique hts ht' hj)
  exact (List.nodup_cons.mp hnodup).1 (heq ▸ hw)

/-- So they still stand in order. -/
theorem Fair.ran (hfair : s.Fair i c.responseTypes) (h : Ran s s' i j c got t0 t x xs rest)
    (hreached : ∃ ls, Lts.run step new ls = some s) (hts : c.responseTypes.Nodup)
    (hready : s.ready = (i, j) :: rest) (hj : c.responseTypes[j]? = some t) :
    s'.Fair i c.responseTypes := by
  have hours := h.ours_eq hready
  refine ⟨fun w hw t' ht' => ?_, ?_⟩
  · rw [h.queued_later hreached hts hready hj hw ht']
    exact hfair.woken w (hours ▸ List.mem_cons_of_mem _ hw) t' ht'
  · have horder := hfair.order
    rw [hours] at horder
    refine (List.pairwise_cons.mp horder).2.imp_of_mem fun {w w'} hw hw' hlt => ?_
    rintro y y' ⟨t₁, ht₁, hy⟩ ⟨t₂, ht₂, hy'⟩
    rw [h.queued_later hreached hts hready hj hw ht₁] at hy
    rw [h.queued_later hreached hts hready hj hw' ht₂] at hy'
    exact hlt y y' ⟨t₁, ht₁, hy⟩ ⟨t₂, ht₂, hy'⟩

/-- If nothing had been taken before, the getter has taken the earliest message. -/
theorem Ran.earliest (h : Ran s s' i j c got t0 t x xs rest) (hb : Began s₀ s i c)
    (hi : s.calls i = some ⟨c, .waiting got t0⟩) (halone : s.Alone i c.responseTypes)
    (hts : c.responseTypes.Nodup) (hfair : s.Fair i c.responseTypes) (hnone : ∀ o ∈ got, o = none)
    (hready : s.ready = (i, j) :: rest) (hj : c.responseTypes[j]? = some t)
    (hx : s.queued t = x :: xs) : Earliest s' c.responseTypes x := by
  obtain ⟨hlt, hxs⟩ := head_of_queued hb.reached hx
  refine ⟨by rw [h.log, List.length_append]; omega, fun t' ht' z hz => ?_⟩
  by_cases heq : t' = t
  · subst heq
    rw [h.queued, Function.update_self] at hz
    exact hxs z hz
  · rw [h.queued_of_ne heq] at hz
    exact head_earliest hb hi halone hts hfair hnone hready hj hx t' ht' heq z hz

/-- A getter of the call takes the head of its queue. -/
theorem Racing.run (hf : Racing s₀ s i c.responseTypes got) (hb : Began s₀ s i c)
    (hb' : Began s₀ s' i c) (hi : s.calls i = some ⟨c, .waiting got t0⟩)
    (halone : s.Alone i c.responseTypes) (hts : c.responseTypes.Nodup)
    (hready : s.ready = (i, j) :: rest) (hj : c.responseTypes[j]? = some t)
    (hgot : got[j]? = some none) (hx : s.queued t = x :: xs)
    (hran : Ran s s' i j c got t0 t x xs rest) :
    Racing s₀ s' i c.responseTypes (got.set j (some x)) ∧
      taken c.responseTypes (since s₀ s') = taken c.responseTypes (since s₀ s) ++ [x] := by
  have hhandings : handings s'.log = handings s.log ++ [⟨i, t, x⟩] := by
    rw [hran.log, handings_concat]
    rfl
  have htaken : taken c.responseTypes (since s₀ s') =
      taken c.responseTypes (since s₀ s) ++ [x] := by
    refine taken_since hb hb' (taken_listed hhandings fun a ha => ?_)
    obtain rfl := List.mem_singleton.mp ha
    exact List.mem_of_getElem? hj
  refine ⟨⟨?_, fun j' t' y hj' hy => ?_, fun m hm => ?_, hf.fair.ran hran hb.reached hts hready hj⟩,
    htaken⟩
  · rw [htaken]
    exact (hf.perm.append_right [x]).trans (filterMap_set_perm hgot)
  · by_cases hjj : j = j'
    · subst hjj
      rw [List.getElem?_set_self (List.getElem?_eq_some_iff.mp hgot).1] at hy
      obtain rfl : x = y := Option.some.inj (Option.some.inj hy)
      obtain rfl : t = t' := Option.some.inj (hj.symm.trans hj')
      exact (from_of_queued hb.reached (hx ▸ List.mem_cons_self)).typed
    · rw [List.getElem?_set_ne hjj] at hy
      exact hf.typed j' t' y hj' hy
  · -- `x` is the only message taken
    rw [htaken] at hm
    have hnil : taken c.responseTypes (since s₀ s) = [] := by
      have hlen := congrArg List.length hm
      rw [List.length_append, List.length_singleton, List.length_singleton] at hlen
      exact List.length_eq_zero_iff.mp (by omega)
    rw [hnil] at hm
    obtain rfl : x = m := by simpa using hm
    exact hran.earliest hb hi halone hts hf.fair (hf.untaken hnil) hready hj hx

end ran

/-- **As long as nothing has been taken, a getter that the loop runs is that of the type which came
first.** -/
theorem Race.first {c : Call} (h : Race s₀ s i c) (halone : s.Alone i c.responseTypes)
    (hts : c.responseTypes.Nodup) (hnil : taken c.responseTypes (since s₀ s) = []) :
    SoleGetter s₀ i c.responseTypes s .run := by
  intro j hhead t' ht'
  obtain ⟨rest, hready⟩ := List.head?_eq_some_iff.mp hhead
  obtain ⟨got, t0, t, x, xs, hi, hf, hj, -, hx⟩ := h.woken hready
  obtain rfl : t = t' := Option.some.inj (hj.symm.trans ht')
  exact comesFirst_of_untaken h.began hi halone hts hf.fair (hf.untaken hnil) hnil hready hj hx

/-- The loop runs a woken getter of the call. It meets the condition exactly if it is the first. -/
theorem Race.run {c : Call} (h : Race s₀ s i c) (halone : s.Alone i c.responseTypes)
    (hts : c.responseTypes.Nodup) {j : ℕ} {rest : List Waiter} (hready : s.ready = (i, j) :: rest)
    (hs' : s' = { s with ready := rest }.runGetter i j) (hl : s.step .run = some s') :
    Race s₀ s' i c ∧ (OneTaken s₀ s c.responseTypes →
      (SoleGetter s₀ i c.responseTypes s .run ↔ OneTaken s₀ s' c.responseTypes)) := by
  obtain ⟨got, t0, t, x, xs, hi, hf, hj, hgot, hx⟩ := h.woken hready
  have hb' := h.began.step hl
  have hran : Ran s s' i j c got t0 t x xs rest := hs' ▸ ran_of_run hi hj hgot hx
  obtain ⟨hf', htaken⟩ := hf.run h.began hb' hi halone hts hready hj hgot hx hran
  refine ⟨⟨hb', _, hran.calls, hf'⟩, fun hle => ?_⟩
  rw [OneTaken, htaken]
  rcases hys : taken c.responseTypes (since s₀ s) with _ | ⟨m, ys⟩
  · exact iff_of_true (h.first halone hts hys) le_rfl
  · obtain rfl : ys = [] := by
      rw [OneTaken, hys, List.length_cons] at hle
      exact List.length_eq_zero_iff.mp (by omega)
    have hmem : x ∈ s.queued t := hx ▸ List.mem_cons_self
    refine iff_of_false (fun hsole => ?_) (by simp)
    exact not_comesFirst h.began hi hts hf hys hj hgot (from_of_queued h.began.reached hmem).regular
      (hsole j (by rw [hready]; rfl) t hj)

/-- If only one of the queues has items, its head is the earliest message. -/
theorem earliest_of_heads (h : ∃ ls, Lts.run step new ls = some s) {m : Received}
    (hm : (ts.map fun t => (s.queued t).head?).filterMap id = [m])
    (hlog : s.log.length ≤ s'.log.length)
    (hqueued : ∀ t ∈ ts, s'.queued t = (s.queued t).tail) : Earliest s' ts m := by
  have hall : ∀ t ∈ ts, ∀ y ys, s.queued t = y :: ys → y = m := by
    intro t ht y ys hy
    refine List.mem_singleton.mp (hm ▸ List.mem_filterMap.mpr ⟨some y, ?_, rfl⟩)
    exact List.mem_map.mpr ⟨t, ht, by rw [hy]; rfl⟩
  refine ⟨?_, fun t ht z hz => ?_⟩
  · have hmem : m ∈ (ts.map fun t => (s.queued t).head?).filterMap id := by
      rw [hm]
      exact List.mem_singleton_self m
    obtain ⟨o, ho, heq⟩ := List.mem_filterMap.mp hmem
    obtain ⟨t, ht, rfl⟩ := List.mem_map.mp ho
    obtain ⟨ys, hys⟩ := List.head?_eq_some_iff.mp heq
    exact (head_of_queued h hys).1.trans_le hlog
  · rw [hqueued t ht] at hz
    rcases hy : s.queued t with _ | ⟨y, ys⟩ <;> rw [hy] at hz
    · cases hz
    · obtain rfl := hall t ht y ys hy
      exact (head_of_queued h hy).2 z hz

/-- The getter tasks run for the first time: each takes the head of its queue, if there is one. -/
theorem race_getters {c : Call} {t0 : ℚ} (h : Race s₀ s i c) (hts : c.responseTypes.Nodup)
    (hi : s.calls i = some ⟨c, .created t0⟩)
    (hs' : s' = (s.runGetters i 0 c.responseTypes).1.setFrame i c
      (.waiting (s.runGetters i 0 c.responseTypes).2 t0)) (hl : s.step (.getters i) = some s') :
    Race s₀ s' i c ∧ (OneTaken s₀ s c.responseTypes →
      (SoleGetter s₀ i c.responseTypes s (.getters i) ↔ OneTaken s₀ s' c.responseTypes)) := by
  have hb' := h.began.step hl
  have hnil : taken c.responseTypes (since s₀ s) = [] := by
    obtain ⟨f, hi', hf⟩ := h.frame
    cases hi.symm.trans hi'
    exact hf
  obtain ⟨-, hg⟩ := s.runGetters_mail i 0 c.responseTypes
  have hready : (s.runGetters i 0 c.responseTypes).1.ready = s.ready := s.runGetters_ready i 0 _
  obtain ⟨hs, hlog, hown, hmap⟩ := hg.handings
  obtain ⟨hitems, hgot⟩ := hg.heads hts (h.began.registered hi)
  generalize s.runGetters i 0 c.responseTypes = r at hs' hready hlog hmap hitems hgot
  subst hs'
  have htaken := taken_since h.began hb' (taken_listed hlog fun a ha => (hown a ha).2)
  rw [hnil, hmap, List.nil_append] at htaken
  have hhead : ∀ t, (s.mail.items t).bind List.head? = (s.queued t).head? := by
    intro t
    rw [queued]
    rcases hxs : s.items t with _ | xs <;> simp [mail, hxs]
  have hgot : r.2 = c.responseTypes.map fun t => (s.queued t).head? :=
    hgot.trans (List.map_congr_left fun t _ => hhead t)
  have hqueued : ∀ t ∈ c.responseTypes, (r.1.setFrame i c (.waiting r.2 t0)).queued t =
      (s.queued t).tail := by
    intro t ht
    have := (hitems t).trans (if_pos ht)
    rw [queued, queued, show (r.1.setFrame i c (.waiting r.2 t0)).items t = _ from this]
    rcases hxs : s.items t with _ | xs <;> simp [mail, hxs]
  refine ⟨⟨hb', _, setFrame_calls_self .., htaken ▸ List.Perm.refl _, fun j t x hj hx => ?_,
    fun m hm => ?_, ?_⟩, fun _ => ?_⟩
  · rw [hgot, List.getElem?_map, hj] at hx
    have hhd : (s.queued t).head? = some x := Option.some.inj hx
    exact (from_of_queued h.began.reached (List.mem_of_head? hhd)).typed
  · rw [htaken, hgot] at hm
    exact earliest_of_heads h.began.reached hm (step_extends hl).log.length_le hqueued
  · -- nobody has been woken
    have hours : (r.1.setFrame i c (.waiting r.2 t0)).ours i = [] := by
      rw [ours, setFrame_ready, hready]
      exact ours_eq_nil h.began.reached hi fun _ => rfl
    refine ⟨fun w hw => ?_, ?_⟩
    · rw [hours] at hw
      cases hw
    · rw [hours]
      exact .nil
  · rw [OneTaken, htaken, hgot, List.length_filterMap_eq_countP, List.countP_map]
    exact ⟨fun h => h rfl, fun h _ => h⟩

/-- A step of the call itself. -/
theorem race_own (hts : ts.Nodup) (h : Race s₀ s i (.requestAny message ts timeout))
    (halone : s.Alone i ts) (hmover : s.mover l = some i) (hl : s.step l = some s') :
    Race s₀ s' i (.requestAny message ts timeout) ∧
      (OneTaken s₀ s ts → (SoleGetter s₀ i ts s l ↔ OneTaken s₀ s' ts)) := by
  obtain ⟨f, hi, hf⟩ := h.frame
  have same : ∀ {k c' g}, some k = some i → s.calls k = some ⟨c', g⟩ →
      k = i ∧ c' = .requestAny message ts timeout ∧ g = f := by
    intro k c' g hk hcall
    obtain rfl := Option.some.inj hk
    cases hcall.symm.trans hi
    exact ⟨rfl, rfl, rfl⟩
  cases step_cases hl with
  | connect | disconnect | peerClosed | receive | events => cases hmover
  | start hk =>
    rw [Option.some.inj hmover, hi] at hk
    cases hk
  | notConnected hk | sendFails hk =>
    obtain ⟨rfl, rfl, rfl⟩ := same hmover hk
    exact h.idle hl trivial (setFrame_calls_self ..) rfl fun hsame => hsame.trans hf
  | @sent k c' w todo t0 conn hk =>
    obtain ⟨rfl, rfl, rfl⟩ := same hmover hk
    refine h.idle hl trivial (setFrame_calls_self ..) ?_ fun hsame => hsame.trans hf
    exact (taken_append ..).trans (List.append_nil _)
  | @afterSend k c' t0 now hk =>
    obtain ⟨rfl, rfl, rfl⟩ := same hmover hk
    refine h.idle hl trivial (setFrame_calls_self ..) rfl fun hsame => ?_
    rw [Call.afterSend]
    split <;> exact hsame.trans hf
  | «return» hk | suspend hk | take hk | timeout hk | poll hk =>
    obtain ⟨rfl, rfl, rfl⟩ := same hmover hk
    exact hf.elim
  | @run k j rest hready =>
    have hk : k = i := by
      simpa only [mover, hready, List.head?_cons, Option.map_some, Option.some.injEq] using hmover
    subst hk
    exact h.run halone hts hready rfl hl
  | @getters k c' t0 hk =>
    obtain ⟨rfl, rfl, rfl⟩ := same hmover hk
    exact race_getters h hts hi rfl hl
  | @wake k pick c' got t0 now m hk hm =>
    obtain ⟨rfl, rfl, rfl⟩ := same hmover hk
    have hlog := congrArg Mail.log (s.cancelGetters_mail k 0 ts got)
    refine h.idle hl trivial (setFrame_calls_self ..) (congrArg (taken ts) hlog) fun hsame => ?_
    refine ⟨?_, fun m' hm' => (hf.earliest m' (hsame ▸ hm')).step hl⟩
    rw [hsame]
    exact hf.perm.mem_iff.mpr (List.mem_filterMap.mpr ⟨_, hm, rfl⟩)
  | @timeoutAny k c' got t0 hk hall =>
    obtain ⟨rfl, rfl, rfl⟩ := same hmover hk
    have hlog := congrArg Mail.log (s.cancelGetters_mail k 0 ts got)
    refine h.idle hl trivial (setFrame_calls_self ..) (congrArg (taken ts) hlog) fun hsame => ?_
    have hnil : got.filterMap id = [] := List.filterMap_eq_nil_iff.mpr hall
    exact hsame.trans (List.perm_nil.mp (hnil ▸ hf.perm))

/-- **One step of the race**: the invariant is kept, and a second message is taken by this step
exactly if it violates `SoleGetter`. -/
theorem race_step (hts : ts.Nodup) (h : Race s₀ s i (.requestAny message ts timeout))
    (halone : s.Alone i ts) (hl : s.step l = some s') :
    Race s₀ s' i (.requestAny message ts timeout) ∧
      (OneTaken s₀ s ts → (SoleGetter s₀ i ts s l ↔ OneTaken s₀ s' ts)) := by
  by_cases hmover : s.mover l = some i
  · exact race_own hts h halone hmover hl
  obtain ⟨f, hi, hf⟩ := h.frame
  have hreached := h.began.reached
  have hsole : SoleGetter s₀ i ts s l := by
    cases l with
    | getters k => exact fun heq => absurd (congrArg some heq) hmover
    | run =>
      intro j hj
      simp only [mover, hj, Option.map_some, not_true_eq_false] at hmover
    | _ => trivial
  by_cases hreceive : ∃ loaded now, l = .receive loaded now
  · obtain ⟨loaded, now, rfl⟩ := hreceive
    cases step_cases hl with
    | receive =>
      have hcalls := congrFun (s.receive_cases loaded now).1 i
      refine h.idle hl hsole (hcalls.trans hi) (taken_step hreached hi halone hcalls hl)
        fun hsame => hf.step hsame (fun got t0 heq hfair => ?_) hl
      subst heq
      exact receive_fair hreached hi halone hts hfair loaded now
  · have hne : ∀ loaded now, l ≠ .receive loaded now :=
      fun loaded now heq => hreceive ⟨loaded, now, heq⟩
    obtain ⟨haside, hcalls⟩ := step_aside hreached hi halone hmover hne hl
    exact h.idle hl hsole (hcalls.trans hi) (taken_step hreached hi halone hcalls hl)
      fun hsame => hf.step hsame (fun _ _ _ hfair => hfair.aside haside) hl

/-- The call begins. -/
theorem race_start {c : Call} {now : ℚ} {ls : List Label} (h₀ : Lts.run step new ls = some s₀)
    (hl : s₀.step (.start i c now) = some s) : Race s₀ s i c := by
  have hb : Began s₀ s i c := ⟨ls, now, [], h₀, by rw [Lts.run_cons, hl]; rfl⟩
  obtain ⟨-, hcalls, hm⟩ := start_cases hl
  have hlog : taken c.responseTypes s.log = taken c.responseTypes s₀.log ++ [] :=
    (congrArg (fun m => taken c.responseTypes m.log) hm).trans (taken_append ..)
  refine ⟨hb, .sending c.outgoing now, by rw [hcalls]; exact Function.update_self .., ?_⟩
  rw [hb.taken_eq] at hlog
  exact List.append_cancel_left hlog

/-- **A whole race**: at most one message has been taken exactly if no step violates `SoleGetter`.
And none does, as long as nothing has been taken. -/
theorem race_run {s₁ : Loop} {ls : List Label} (hts : ts.Nodup)
    (h₁ : Race s₀ s₁ i (.requestAny message ts timeout)) (hone : OneTaken s₀ s₁ ts)
    (halone : Lts.Along step (fun s _ => s.Alone i ts) s₁ ls) (hrun : Lts.run step s₁ ls = some s) :
    Race s₀ s i (.requestAny message ts timeout) ∧
      (Lts.Along step (SoleGetter s₀ i ts) s₁ ls ↔ OneTaken s₀ s ts) := by
  revert halone
  refine Lts.run_induction (motive := fun ls s => Lts.Along step (fun s _ => s.Alone i ts) s₁ ls →
    Race s₀ s i (.requestAny message ts timeout) ∧
      (Lts.Along step (SoleGetter s₀ i ts) s₁ ls ↔ OneTaken s₀ s ts)) ?_ ?_ hrun
  · exact fun _ => ⟨h₁, fun _ => hone, fun _ => Lts.along_nil⟩
  · intro ls l s s' hrun ih hl halone
    obtain ⟨halone, hlast⟩ := Lts.along_concat.mp halone
    obtain ⟨hrace, hiff⟩ := ih halone
    -- what has been taken is never put back, so one violation decides the whole run
    obtain ⟨hrace', hcount⟩ := race_step hts hrace (hlast s hrun) hl
    have hmono : OneTaken s₀ s' ts → OneTaken s₀ s ts := by
      obtain ⟨tail, htail⟩ := (step_extends hl).log
      have htaken : taken ts s'.log = taken ts s.log ++ taken ts tail := by
        rw [show s'.log = s.log ++ tail from htail.symm, taken_append]
      rw [OneTaken, taken_since hrace.began hrace'.began htaken, List.length_append]
      exact fun hle => (Nat.le_add_right ..).trans hle
    refine ⟨hrace', Lts.along_concat.trans ⟨fun ⟨halong, hsole⟩ => ?_, fun hle => ?_⟩⟩
    · exact (hcount (hiff.mp halong)).mp (hsole s hrun)
    · refine ⟨hiff.mpr (hmono hle), fun m hm => ?_⟩
      obtain rfl := Option.some.inj (hrun.symm.trans hm)
      exact (hcount (hmono hle)).mpr hle

end race_step

/-- What `request_any` should do to the listed queues: if it returns, exactly the returned message
has been taken, and what is left is newer; if it raises, nothing has been taken. -/
def TakesFirst (s₀ s : Loop) (ts : List String) : Frame → Prop
  | .returned (.message m) => taken ts (since s₀ s) = [m] ∧
      ∀ t ∈ ts, ∀ x ∈ s.queued t, m.idx < x.idx
  | .returned _ => False
  | _ => taken ts (since s₀ s) = []

theorem RaceFrame.takesFirst_iff {s₀ s : Loop} {i : ℕ} {ts : List String} {f : Frame}
    (h : RaceFrame s₀ s i ts f) (hended : f.ended = true) :
    TakesFirst s₀ s ts f ↔ OneTaken s₀ s ts := by
  cases f with
  | returned r =>
    cases r with
    | message m =>
      obtain ⟨hmem, hone⟩ := h
      constructor
      · rintro ⟨htaken, -⟩
        rw [OneTaken, htaken, List.length_singleton]
      · intro hle
        obtain ⟨m', hm'⟩ : ∃ m', taken ts (since s₀ s) = [m'] :=
          List.length_eq_one_iff.mp (le_antisymm hle (List.length_pos_of_mem hmem))
        obtain rfl : m = m' := by
          rw [hm'] at hmem
          exact List.mem_singleton.mp hmem
        exact ⟨hm', (hone m hm').2⟩
    | _ => exact h.elim
  | raised e =>
    have htaken : taken ts (since s₀ s) = [] := h
    exact ⟨fun _ => by rw [OneTaken, htaken]; exact Nat.zero_le 1, fun _ => htaken⟩
  | _ => cases hended

/-- **`request_any` takes exactly the first message if and only if no second getter of it runs while
there is a message for it**: from every state that can be reached, whatever the receive task, the
connection and the other calls do beside it, as long as no other call that awaits one of its types
is in flight.

The condition is `SoleGetter`: when the getters first run, at most one of the queues has items, and
a getter that the loop runs later is that of the type which came first. The second part of the
theorem says that it is only ever violated by a second getter: as long as nothing has been taken,
the getter that runs is that of the type which came first. And in any case, whether or not the
condition is met, the messages that have been there are those that were handed out and those that
are left in their queues, in order. -/
theorem requestAny_takesFirst_iff {ls₀ ls : List Label} {s₀ s₁ s : Loop} {i : ℕ} {message : Json}
    {ts : List String} {timeout now : ℚ} {f : Frame} (h₀ : Lts.run step new ls₀ = some s₀)
    (hts : ts.Nodup) (hstart : s₀.step (.start i (.requestAny message ts timeout) now) = some s₁)
    (hrun : Lts.run step s₁ ls = some s)
    (halone : Lts.Along step (fun s _ => s.Alone i ts) s₁ ls)
    (hi : s.calls i = some ⟨.requestAny message ts timeout, f⟩) (hended : f.ended = true) :
    (TakesFirst s₀ s ts f ↔ Lts.Along step (SoleGetter s₀ i ts) s₁ ls) ∧
      Lts.Along step
        (fun s l => l = .run → taken ts (since s₀ s) = [] → SoleGetter s₀ i ts s l) s₁ ls ∧
      ∀ t ∈ ts, Regular t → handedOf t (since s₀ s) ++ s.queued t = available s₀ s t := by
  have hrace₁ := race_start h₀ hstart
  have hone₁ : OneTaken s₀ s₁ ts := by
    obtain ⟨f₁, hi₁, hf₁⟩ := hrace₁.frame
    rw [(start_cases hstart).2.1, Function.update_self] at hi₁
    cases hi₁
    rw [OneTaken, show taken ts (since s₀ s₁) = [] from hf₁]
    exact Nat.zero_le 1
  obtain ⟨hrace, hiff⟩ := race_run hts hrace₁ hone₁ halone hrun
  refine ⟨?_, fun pre l post s' hls hpre hl hnil => ?_, fun t ht => hrace.began.balance hi ht⟩
  · obtain ⟨f', hi', hf⟩ := hrace.frame
    cases hi.symm.trans hi'
    exact (hf.takesFirst_iff hended).trans hiff.symm
  · have halone' : Lts.Along step (fun s _ => s.Alone i ts) s₁ pre := (hls ▸ halone).left
    have hrace' := (race_run hts hrace₁ hone₁ halone' hpre).1
    exact hl ▸ hrace'.first (halone pre l post s' hls hpre) hts hnil

/-- A call that has ended does not go on. -/
theorem ended_step {s s' : Loop} {i : ℕ} {l : Label}
    (h : ∀ k c f, k ≠ i → s.calls k = some ⟨c, f⟩ → f.ended = true) (hns : l.starts = false)
    (hl : s.step l = some s') : ∀ k c f, k ≠ i → s'.calls k = some ⟨c, f⟩ → f.ended = true := by
  have same : s'.calls = s.calls → ∀ k c f, k ≠ i → s'.calls k = some ⟨c, f⟩ → f.ended = true :=
    fun hcalls => hcalls ▸ h
  have moved : ∀ {j c₁ f₁ f₂}, s.calls j = some ⟨c₁, f₁⟩ → f₁.ended = false →
      s'.calls = Function.update s.calls j (some ⟨c₁, f₂⟩) →
      ∀ k c f, k ≠ i → s'.calls k = some ⟨c, f⟩ → f.ended = true := by
    intro j c₁ f₁ f₂ hj hf₁ hcalls k c f hk hf
    have hji : j = i := by
      by_contra hne
      rw [h j c₁ f₁ hne hj] at hf₁
      cases hf₁
    rw [hcalls, Function.update_of_ne fun heq => hk (heq.trans hji)] at hf
    exact h k c f hk hf
  cases step_effect hl with
  | quiet hcalls _ => exact same hcalls
  | received hcalls _ => exact same hcalls
  | cleared hcalls _ => exact same hcalls
  | started => cases hns
  | sent hj hcalls _ => exact moved hj rfl hcalls
  | «local» hj hf hcalls _ => exact moved hj hf.not_ended hcalls
  | polled hj hf hcalls _ => exact moved hj hf.not_ended hcalls
  | handed hj hf _ hcalls _ => exact moved hj hf.not_ended hcalls
  | getters hj _ hcalls => exact moved hj rfl hcalls

/-- If the other calls have ended when call `i` begins, and none begins beside it, it is alone. -/
theorem along_alone {s₀ s₁ : Loop} {i : ℕ} {c : Call} {ts : List String} {now : ℚ}
    {ls : List Label} (hended : ∀ k c f, k ≠ i → s₀.calls k = some ⟨c, f⟩ → f.ended = true)
    (hstart : s₀.step (.start i c now) = some s₁) (hls : ∀ l ∈ ls, l.starts = false) :
    Lts.Along step (fun s _ => s.Alone i ts) s₁ ls := by
  have hended₁ : ∀ k c f, k ≠ i → s₁.calls k = some ⟨c, f⟩ → f.ended = true := by
    intro k c f hk hf
    rw [(start_cases hstart).2.1, Function.update_of_ne hk] at hf
    exact hended k c f hk hf
  intro pre l post s heq hpre
  have hall : ∀ k c f, k ≠ i → s.calls k = some ⟨c, f⟩ → f.ended = true := by
    refine Lts.run_invariant_along
      (I := fun s => ∀ k c f, k ≠ i → s.calls k = some ⟨c, f⟩ → f.ended = true)
      (C := fun _ l => l.starts = false) hended₁ ?_ (fun pre' l' post' s' heq' _ => ?_) hpre
    · exact fun s l s' hI hns hl => ended_step hI hns hl
    · refine hls l' (heq ▸ List.mem_append_left _ ?_)
      rw [heq']
      exact List.mem_append_right _ List.mem_cons_self
  intro k c f hk hf hne
  rw [hall k c f hne hk] at hf
  cases hf

/-- The listed types of `save_module`. -/
def moduleReplies : List String := ["module_config_response", "module_error"]

/-- What `save_module` does: `request_any`, with one reply. -/
def saveModule : Call := .requestAny (.obj [("type", .str "module_config")]) moduleReplies 5

/-- The steps of a call of `save_module` whose reply is an error. -/
def errorReply : List Label :=
  [.sent 0, .resume 0 0, .getters 0, .receive (.ok (.obj [("type", .str "module_error")])) 1, .run,
    .wake 0 1 1]

theorem requestAny_takesFirst_iff_saveModule :
    ∃ s₀ s₁ s, Lts.run step new [.connect 0] = some s₀ ∧
      s₀.step (.start 0 saveModule 0) = some s₁ ∧ Lts.run step s₁ errorReply = some s ∧
      Lts.Along step (SoleGetter s₀ 0 moduleReplies) s₁ errorReply := by
  refine ⟨_, _, _, rfl, rfl, rfl, ?_⟩
  have h₀ : Lts.run step new [.connect 0] = some _ := rfl
  have hstart : (⟨WSClient.new.connect 0, fun _ => none, fun _ => none, [], []⟩ : Loop).step
      (.start 0 saveModule 0) = some _ := rfl
  have hls : ∀ l ∈ errorReply, l.starts = false := by decide
  apply (requestAny_takesFirst_iff h₀ (by decide) hstart rfl
    (along_alone (fun k c f _ hk => by cases hk) hstart hls) rfl rfl).1.mp
  exact ⟨rfl, by decide⟩

/-- A call that timed out gets both its replies late. The next call takes both, and returns the
first: the second is in no queue any more. -/
theorem two_taken :
    ∃ s₀ s f, Lts.run step new [.connect 0, .start 0 saveModule 0, .sent 0, .resume 0 0,
        .getters 0, .timeout 0, .receive (.ok (.obj [("type", .str "module_config_response")])) 6,
        .receive (.ok (.obj [("type", .str "module_error")])) 7] = some s₀ ∧ s₀.ready = [] ∧
      Lts.run step s₀ [.start 1 saveModule 8, .sent 1, .resume 1 8, .getters 1, .wake 1 0 8] =
        some s ∧
      s.calls 1 = some ⟨saveModule, f⟩ ∧ f.ended = true ∧
      ¬ TakesFirst s₀ s moduleReplies f ∧ s.queued "module_error" = [] := by
  refine ⟨_, _, _, rfl, rfl, rfl, rfl, rfl, ?_, rfl⟩
  rintro ⟨htaken, -⟩
  exact absurd (congrArg List.length htaken) (by decide)

end Loop

end SasTests
