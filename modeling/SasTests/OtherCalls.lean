import SasTests.Returns

/-!
# What other calls leave alone

Any number of calls share the loop with a call that waits on some of the queues. As long as none of
the others awaits a type of that call (`Alone`), their steps neither touch its queues nor wake or
run one of its getters (`step_aside`), and nothing is taken from its queues unless the call itself
moves (`taken_step`).

Whose getters are suspended where is read off the frames of the calls: a getter waits on a queue, or
has been woken for it, only if its call awaits the type and is in flight (`awaits_of_target`).
-/

namespace SasTests

open Python Asyncio

/-! ## What has been taken -/

/-- The messages handed out from the queues of the types `ts`. -/
def taken (ts : List String) (log : List Obs) : List Received :=
  log.filterMap fun o => match o with
    | .handed _ t m => if t ∈ ts then some m else none
    | _ => none

section taken

variable {ts : List String} {log log' : List Obs} {hs : List Handing}

theorem taken_append (ts : List String) (log log' : List Obs) :
    taken ts (log ++ log') = taken ts log ++ taken ts log' := List.filterMap_append ..

theorem taken_eq (ts : List String) (log : List Obs) :
    taken ts log = (handings log).filterMap fun a =>
      if a.type ∈ ts then some a.message else none := by
  rw [handings, List.filterMap_filterMap, taken]
  refine List.filterMap_congr fun o _ => ?_
  cases o <;> rfl

theorem mem_taken {m : Received} :
    m ∈ taken ts log ↔ ∃ a ∈ handings log, a.type ∈ ts ∧ a.message = m := by
  rw [taken_eq, List.mem_filterMap]
  refine exists_congr fun a => and_congr_right fun _ => ?_
  split <;> simp_all

/-- What is taken from the listed queues adds up. -/
theorem taken_listed (h : handings log' = handings log ++ hs) (hts : ∀ a ∈ hs, a.type ∈ ts) :
    taken ts log' = taken ts log ++ hs.map Handing.message := by
  rw [taken_eq, taken_eq, h, List.filterMap_append, ← List.filterMap_eq_map]
  refine congrArg _ (List.filterMap_congr fun a ha => ?_)
  rw [if_pos (hts a ha)]
  rfl

/-- What is taken from other queues does not count. -/
theorem taken_unlisted (h : handings log' = handings log ++ hs) (hts : ∀ a ∈ hs, a.type ∉ ts) :
    taken ts log' = taken ts log := by
  rw [taken_eq, taken_eq, h, List.filterMap_append, List.filterMap_eq_nil_iff.mpr fun a ha =>
    if_neg (hts a ha), List.append_nil]

theorem taken_of_handings (h : handings log' = handings log) : taken ts log' = taken ts log := by
  rw [taken_eq, taken_eq, h]

/-- A message of a listed type that is handed out is taken. -/
theorem handedOf_subset_taken {t : String} (ht : t ∈ ts) {m : Received}
    (hm : m ∈ handedOf t log) : m ∈ taken ts log := by
  rw [handedOf_eq, List.mem_filterMap] at hm
  obtain ⟨a, ha, heq⟩ := hm
  split at heq
  next htype => exact mem_taken.mpr ⟨a, ha, htype ▸ ht, Option.some.inj heq⟩
  · cases heq

end taken

namespace Loop

/-! ## Steps of other calls -/

/-- No other call that awaits one of the types `ts` is in flight. -/
def Alone (i : ℕ) (ts : List String) (s : Loop) : Prop :=
  ∀ k c f, s.calls k = some ⟨c, f⟩ → f.ended = false → k ≠ i → ∀ t ∈ c.responseTypes, t ∉ ts

/-- The getters of call `i` that have been woken, in the order in which they will run. -/
def ours (i : ℕ) (s : Loop) : List Waiter := s.ready.filter fun w => w.1 = i

/-- The step from `s` to `s'` neither touches the queues of the types `ts` nor wakes or runs a
getter of call `i`. -/
structure Aside (i : ℕ) (ts : List String) (s s' : Loop) : Prop where
  /-- the listed queues -/
  items : ∀ t ∈ ts, s'.items t = s.items t
  /-- the woken getters -/
  ours : s'.ours i = s.ours i

namespace Aside

variable {i k : ℕ} {ts : List String} {s s' s'' : Loop} {t : String}

theorem refl (i : ℕ) (ts : List String) (s : Loop) : Aside i ts s s := ⟨fun _ _ => rfl, rfl⟩

theorem trans (h : Aside i ts s s') (h' : Aside i ts s' s'') : Aside i ts s s'' :=
  ⟨fun t ht => (h'.items t ht).trans (h.items t ht), h'.ours.trans h.ours⟩

/-- What matters is the items of the listed queues, and the ready list. -/
theorem of_eq (hitems : s'.items = s.items) (hready : s'.ready = s.ready) : Aside i ts s s' :=
  ⟨fun t _ => congrFun hitems t, by rw [Loop.ours, hready]; rfl⟩

/-- Another call goes on. -/
theorem setFrame {c : Call} {f : Frame} (h : Aside i ts s s') (hcalls : s'.calls = s.calls)
    (hk : k ≠ i) :
    Aside i ts s (s'.setFrame k c f) ∧ (s'.setFrame k c f).calls i = s.calls i :=
  ⟨⟨h.items, h.ours⟩, (setFrame_calls_of_ne _ _ _ _ hk.symm).trans (congrFun hcalls i)⟩

/-- A getter looks at a queue that is not listed. -/
theorem getPass (w : Waiter) (ht : t ∉ ts) : Aside i ts s (s.getPass w t).1 := by
  rcases hq : s.client.pendingResponses t with _ | q
  · rw [Loop.getPass, hq]
    exact refl i ts s
  have hsame : ∀ q', ∀ t' ∈ ts, ((s.client.setQueue t q').pendingResponses t').map Queue.items =
      s.items t' := by
    intro q' t' ht'
    have hne : t' ≠ t := fun heq => ht (heq ▸ ht')
    simp only [WSClient.setQueue, Function.update_of_ne hne]
    rfl
  rcases hitems : q.items with _ | ⟨x, rest⟩
  · rw [getPass_of_empty hq hitems]
    exact ⟨hsame _, rfl⟩
  · rw [getPass_of_cons hq hitems]
    exact ⟨hsame _, rfl⟩

/-- The getter tasks of another call run for the first time. -/
theorem runGetters {ts' : List String} (hts' : ∀ t ∈ ts', t ∉ ts) (j : ℕ) :
    Aside i ts s (s.runGetters k j ts').1 := by
  induction ts' generalizing s j with
  | nil => exact refl i ts s
  | cons t ts' ih =>
    exact (getPass (k, j) (hts' t List.mem_cons_self)).trans
      (ih (fun t' ht' => hts' t' (List.mem_cons_of_mem t ht')) (j + 1))

/-- A getter of another call is cancelled. It may wake the next one of its queue, which is none of
call `i`. -/
theorem cancelGetter {w : Waiter} (hw : w.1 ≠ i)
    (hforeign : ∀ q, s.client.pendingResponses t = some q → ∀ v ∈ q.getters, v.1 ≠ i) :
    Aside i ts s (s.cancelGetter w t) := by
  refine ⟨fun t' _ => congrFun (congrArg Mail.items (s.cancelGetter_mail w t)) t', ?_⟩
  rw [Loop.cancelGetter]
  rcases hq : s.client.pendingResponses t with _ | q
  · rfl
  have hwoken : ((q.cancel w (decide (w ∈ s.ready))).2.toList.filter fun v => v.1 = i) = [] := by
    refine List.filter_eq_nil_iff.mpr fun v hv => ?_
    have hmem : v ∈ q.getters := Queue.mem_cancel (.inr (Option.mem_toList.mp hv))
    simpa using hforeign q hq v hmem
  have herase : ((s.ready.erase w).filter fun v => v.1 = i) = s.ready.filter fun v => v.1 = i := by
    rw [← List.erase_filter, List.erase_of_not_mem]
    simpa using fun _ => hw
  simp only [Loop.ours, List.filter_append, hwoken, herase, List.append_nil]

/-- Nobody comes to a queue when a getter is cancelled. -/
theorem mem_getters_cancelGetter {w v : Waiter} {t' : String} {q : Queue Received Waiter}
    (hq : (s.cancelGetter w t).client.pendingResponses t' = some q) (hv : v ∈ q.getters) :
    ∃ q₀, s.client.pendingResponses t' = some q₀ ∧ v ∈ q₀.getters := by
  rcases hq₀ : s.client.pendingResponses t with _ | q₀
  · rw [Loop.cancelGetter, hq₀] at hq
    exact ⟨q, hq, hv⟩
  · simp only [Loop.cancelGetter, hq₀, WSClient.setQueue] at hq
    by_cases heq : t' = t
    · subst heq
      rw [Function.update_self] at hq
      obtain rfl := Option.some.inj hq
      exact ⟨q₀, hq₀, Queue.mem_cancel (.inl hv)⟩
    · rw [Function.update_of_ne heq] at hq
      exact ⟨q, hq, hv⟩

/-- The getters of another call are cancelled. -/
theorem cancelGetters {ts' : List String} {got : List (Option Received)} (hk : k ≠ i)
    (hforeign : ∀ t ∈ ts', ∀ q, s.client.pendingResponses t = some q → ∀ v ∈ q.getters, v.1 ≠ i)
    (j : ℕ) : Aside i ts s (s.cancelGetters k j ts' got) := by
  induction ts' generalizing s j got with
  | nil => cases got <;> exact refl i ts s
  | cons t ts' ih =>
    have hrest := fun t' ht' => hforeign t' (List.mem_cons_of_mem t ht')
    rcases got with _ | ⟨_ | m, got⟩
    · exact refl i ts s
    · refine (cancelGetter hk (hforeign t List.mem_cons_self)).trans
        (ih (fun t' ht' q hq v hv => ?_) _)
      obtain ⟨q₀, hq₀, hv₀⟩ := mem_getters_cancelGetter hq hv
      exact hrest t' ht' q₀ hq₀ v hv₀
    · exact ih hrest _

/-- A woken getter of another call runs. -/
theorem runGetter {j : ℕ} (hk : k ≠ i)
    (hunlisted : ∀ c f, s.calls k = some ⟨c, f⟩ → f.ended = false →
      (∀ t ∈ c.responseTypes, t ∉ ts) ∧ f.Fits c) :
    Aside i ts s (s.runGetter k j) ∧ (s.runGetter k j).calls i = s.calls i := by
  have passed : ∀ {t s₁ o}, t ∉ ts → s.getPass (k, j) t = (s₁, o) →
      Aside i ts s s₁ ∧ s₁.calls = s.calls := by
    intro t s₁ o ht hget
    have haside : Aside i ts s (s.getPass (k, j) t).1 := getPass _ ht
    have hcalls : (s.getPass (k, j) t).1.calls = s.calls := (s.getPass_fields (k, j) t).1
    rw [hget] at haside hcalls
    exact ⟨haside, hcalls⟩
  simp only [Loop.runGetter]
  split
  next hcall =>
    obtain ⟨hunlisted, hfits⟩ := hunlisted _ _ hcall rfl
    split
    next hget =>
      obtain ⟨haside, hcalls⟩ := passed (hunlisted _ hfits) hget
      exact ⟨haside, congrFun hcalls i⟩
    next hget =>
      obtain ⟨haside, hcalls⟩ := passed (hunlisted _ hfits) hget
      exact haside.setFrame hcalls hk
  next hcall =>
    obtain ⟨hunlisted, -⟩ := hunlisted _ _ hcall rfl
    split
    next ht _ =>
      split
      next hget =>
        obtain ⟨haside, hcalls⟩ := passed (hunlisted _ (List.mem_of_getElem? ht)) hget
        exact ⟨haside, congrFun hcalls i⟩
      next hget =>
        obtain ⟨haside, hcalls⟩ := passed (hunlisted _ (List.mem_of_getElem? ht)) hget
        exact haside.setFrame hcalls hk
    · exact ⟨refl i ts s, rfl⟩
  · exact ⟨refl i ts s, rfl⟩

end Aside

/-- A call waits only on queues of the types that it awaits, and only as long as it is in flight. -/
theorem mem_of_waitsOn {c : Call} {f : Frame} (hf : f.Fits c) {j : ℕ} {t : String}
    (h : f.waitsOn c j = some t) : t ∈ c.responseTypes ∧ f.ended = false := by
  cases f with
  | getting left out t0 =>
    rw [Frame.waitsOn] at h
    split at h
    · cases h
      exact ⟨hf, rfl⟩
    · cases h
  | waiting got t0 => exact ⟨List.mem_of_getElem? (waitsAt_inv h).1, rfl⟩
  | _ => cases h

/-- The call whose step this is, if it is one of a call. -/
def mover (s : Loop) : Label → Option ℕ
  | .start i _ _ => some i
  | .sent i => some i
  | .sendFails i => some i
  | .resume i _ => some i
  | .run => s.ready.head?.map Prod.fst
  | .getters i => some i
  | .wake i _ _ => some i
  | .timeout i => some i
  | .poll i _ => some i
  | _ => none

section other

variable {s s' : Loop} {i : ℕ} {c : Call} {f : Frame} {l : Label} {ts : List String}

/-- Nobody but a call that awaits type `t` is suspended on its queue, or has been woken for it. -/
theorem awaits_of_target (h : ∃ ls, Lts.run step new ls = some s) {w : Waiter} {t : String}
    (hw : s.target w = some t) :
    ∃ c f, s.calls w.1 = some ⟨c, f⟩ ∧ f.waitsOn c w.2 = some t ∧ t ∈ c.responseTypes ∧
      f.ended = false := by
  obtain ⟨ls, hrun⟩ := h
  obtain ⟨⟨c, f⟩, hcall, hwaits⟩ := Option.bind_eq_some_iff.mp hw
  obtain ⟨ht, hended⟩ := mem_of_waitsOn (run_formed hrun w.1 c f hcall).2 hwaits
  exact ⟨c, f, hcall, hwaits, ht, hended⟩

/-- The getters of call `i` are not suspended on a queue that it does not listen to. -/
theorem foreign_getters (h : ∃ ls, Lts.run step new ls = some s) (hi : s.calls i = some ⟨c, f⟩)
    {t : String} (ht : t ∉ c.responseTypes) {q : Queue Received Waiter}
    (hq : s.client.pendingResponses t = some q) : ∀ v ∈ q.getters, v.1 ≠ i := by
  rintro v hv rfl
  have hsound : s.room.Sound := h.elim fun _ hrun => run_sound hrun
  obtain ⟨c', f', hcall, -, ht', -⟩ :=
    awaits_of_target h ((hsound.getters_target t q hq v hv).1 : s.target v = some t)
  cases hi.symm.trans hcall
  exact ht ht'

/-- **A step of another call leaves the call alone.** It neither touches the queues of call `i` nor
wakes or runs one of its getters. -/
theorem step_aside (h : ∃ ls, Lts.run step new ls = some s) (hi : s.calls i = some ⟨c, f⟩)
    (halone : s.Alone i c.responseTypes) (hmover : s.mover l ≠ some i)
    (hreceive : ∀ loaded now, l ≠ .receive loaded now) (hl : s.step l = some s') :
    Aside i c.responseTypes s s' ∧ s'.calls i = s.calls i := by
  have hformed : AllCalls Formed s := h.elim fun _ hrun => run_formed hrun
  have hne : ∀ {k}, some k ≠ some i → k ≠ i := fun hk heq => hk (congrArg some heq)
  have hforeign : ∀ {k c' f'}, some k ≠ some i → s.calls k = some ⟨c', f'⟩ → f'.ended = false →
      ∀ t ∈ c'.responseTypes, ∀ q, s.client.pendingResponses t = some q →
        ∀ v ∈ q.getters, v.1 ≠ i := fun hki hk hended t ht q =>
    foreign_getters h hi (halone _ _ _ hk hended (hne hki) t ht)
  cases step_cases hl with
  | connect | peerClosed | events => exact ⟨.of_eq rfl rfl, rfl⟩
  | disconnect =>
    refine ⟨.of_eq ?_ rfl, rfl⟩
    simp only [WSClient.disconnect]
    split <;> rfl
  | receive => exact absurd rfl (hreceive _ _)
  | @start k c' now hk =>
    -- the listed queues are there, so they stay as they are
    refine Aside.setFrame ⟨fun t ht => ?_, rfl⟩ rfl (hne hmover)
    obtain ⟨xs, hxs⟩ := Option.isSome_iff_exists.mp ((hformed i c f hi).1 t ht)
    have hitems := congrFun (congrArg Mail.items (s.start_mail k c' (.sending c'.outgoing now))) t
    refine hitems.trans ?_
    simp only [Mail.start, hxs, Option.getD_some, ite_self]
    exact hxs.symm
  | notConnected | sendFails | sent | afterSend | «return» =>
    exact Aside.setFrame (.of_eq rfl rfl) rfl (hne hmover)
  | @suspend k left c' out t0 now s₁ hk hget =>
    have haside : Aside i c.responseTypes s (s.getPass (k, 0) c'.queueType).1 :=
      .getPass _ (halone k c' _ hk rfl (hne hmover) _ (hformed k c' _ hk).2)
    rw [hget] at haside
    exact haside.setFrame (getPass_none hget).1 (hne hmover)
  | @take k left c' out t0 now s₁ m hk hget =>
    have haside : Aside i c.responseTypes s (s.getPass (k, 0) c'.queueType).1 :=
      .getPass _ (halone k c' _ hk rfl (hne hmover) _ (hformed k c' _ hk).2)
    rw [hget] at haside
    exact haside.setFrame (getPass_some hget).1 (hne hmover)
  | @run k j rest hready =>
    have hk : some k ≠ some i := by
      simpa only [mover, hready, List.head?_cons, Option.map_some] using hmover
    have hrest : Aside i c.responseTypes s { s with ready := rest } := by
      refine ⟨fun _ _ => rfl, ?_⟩
      rw [ours, ours, hready, List.filter_cons_of_neg (by simpa using hk)]
    obtain ⟨haside, hcalls⟩ := Aside.runGetter (s := { s with ready := rest }) (j := j) (hne hk)
      fun c' f' hk' hended => ⟨halone k c' f' hk' hended (hne hk), (hformed k c' f' hk').2⟩
    exact ⟨hrest.trans haside, hcalls⟩
  | @getters k c' t0 hk =>
    exact (Aside.runGetters (halone k c' _ hk rfl (hne hmover)) 0).setFrame
      (s.runGetters_mail k 0 c'.responseTypes).1 (hne hmover)
  | @wake k pick c' got t0 now m hk hm =>
    have haside : Aside i c.responseTypes s (s.cancelGetters k 0 c'.responseTypes got) :=
      .cancelGetters (hne hmover) (hforeign hmover hk rfl) 0
    exact Aside.setFrame ⟨haside.items, haside.ours⟩ (s.cancelGetters_calls ..) (hne hmover)
  | @timeout k left c' out t0 hk =>
    have haside : Aside i c.responseTypes s (s.cancelGetter (k, 0) c'.queueType) :=
      .cancelGetter (hne hmover) (hforeign hmover hk rfl _ (hformed k c' _ hk).2)
    exact haside.setFrame (s.cancelGetter_calls ..) (hne hmover)
  | @timeoutAny k c' got t0 hk =>
    exact (Aside.cancelGetters (hne hmover) (hforeign hmover hk rfl) 0).setFrame
      (s.cancelGetters_calls ..) (hne hmover)
  | @poll k c' deadline now hk =>
    simp only [poll]
    split
    · exact (Aside.refl ..).setFrame rfl (hne hmover)
    · split <;> exact (Aside.refl ..).setFrame rfl (hne hmover)
    · split
      · exact (Aside.refl ..).setFrame rfl (hne hmover)
      · exact ⟨.refl .., rfl⟩

theorem Takes.ne {m : Received} {t : String} {f' : Frame} (h : Takes c m f t f') : f' ≠ f := by
  cases h with
  | resume => exact fun heq => by cases heq
  | run => exact fun heq => by cases heq
  | @runAny got t0 j t hj hgot =>
    intro heq
    obtain ⟨hset, -⟩ := Frame.waiting.inj heq
    have hlt := (List.getElem?_eq_some_iff.mp hgot).1
    rw [← hset, List.getElem?_set_self hlt] at hgot
    cases hgot

/-- As long as call `i` stays where it is, nothing is taken from its queues. -/
theorem taken_step (h : ∃ ls, Lts.run step new ls = some s) (hi : s.calls i = some ⟨c, f⟩)
    (halone : s.Alone i c.responseTypes) (hcalls : s'.calls i = s.calls i)
    (hl : s.step l = some s') : taken c.responseTypes s'.log = taken c.responseTypes s.log := by
  have haccounted : s.Accounted := h.elim fun _ hrun => run_accounted hrun
  have concat : ∀ {o}, handings [o] = [] → s'.log = s.log ++ [o] →
      taken c.responseTypes s'.log = taken c.responseTypes s.log := by
    intro o ho hlog
    refine taken_of_handings ?_
    rw [hlog, handings_concat, ho, List.append_nil]
  have same : s'.mail = s.mail → taken c.responseTypes s'.log = taken c.responseTypes s.log :=
    fun hm => congrArg (fun m => taken c.responseTypes m.log) hm
  -- a call that takes something moves, so it is another one
  have other : ∀ {k c' f₁ f₂}, s.calls k = some ⟨c', f₁⟩ → f₁.ended = false → f₂ ≠ f₁ →
      s'.calls = Function.update s.calls k (some ⟨c', f₂⟩) →
      ∀ t ∈ c'.responseTypes, t ∉ c.responseTypes := by
    intro k c' f₁ f₂ hk hended hne hupdate
    refine halone k c' f₁ hk hended fun heq => hne ?_
    subst heq
    rw [hupdate, Function.update_self, hk] at hcalls
    cases hcalls
    rfl
  cases step_effect hl with
  | quiet _ hm => exact same hm
  | received _ hm => exact concat rfl ((congrArg Mail.log hm).trans (s.mail.receive_log ..))
  | cleared _ hm => exact concat (o := .cleared) rfl (congrArg Mail.log hm)
  | @started k c' now _ _ _ hm => exact concat (o := .started k c') rfl (congrArg Mail.log hm)
  | @sent k c' w _ _ _ _ _ hm => exact concat (o := .sent k w) rfl (congrArg Mail.log hm)
  | «local» _ _ _ hm => exact same hm
  | polled _ _ _ hm => exact same hm
  | @handed k c' f₁ f₂ t x rest _ _ hk hf _ hupdate hm =>
    have htype := ((haccounted.held k c' f₁ hk).holds.takes hf).1
    have hlog : handings s'.log = handings s.log ++ [⟨k, t, x⟩] :=
      (congrArg (fun m => handings m.log) hm).trans (handings_concat s.log (.handed k t x))
    refine taken_unlisted hlog fun a ha => ?_
    obtain rfl := List.mem_singleton.mp ha
    exact other hk hf.not_ended hf.ne hupdate t htype
  | @getters k c' t0 got _ hk hg hupdate =>
    obtain ⟨hs, hlog, hown, -⟩ := hg.handings
    refine taken_unlisted hlog fun a ha => ?_
    exact other hk rfl (fun heq => by cases heq) hupdate a.type (hown a ha).2

end other

end Loop

end SasTests
