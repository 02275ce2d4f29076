import SasTests.Lib.Room
import SasTests.LoopSteps

/-!
# No reply is left lying in a queue that somebody waits on

The response queues of a client are a waiting room: `target` says which queue a getter is suspended
on, read off the frame of its call. `room_sound` shows that every step of the event loop keeps the
room sound, so that in every state that can be reached

* a getter is where its call says, once, and a call that has returned or raised has left nothing
  behind that could take a message (`getters_exact`);
* a queue on which somebody sleeps has no more items than there are getters woken for it, and
  running the woken getters leaves nobody asleep on a queue with an item (`settles`).
-/

namespace SasTests

open Python Asyncio

/-- The type whose queue getter task `j` of a `request_any` waits on, given what each of the tasks
has taken. -/
def waitsAt : List String → List (Option Received) → ℕ → Option String
  | t :: _, o :: _, 0 => if o.isNone then some t else none
  | _ :: ts, _ :: got, j + 1 => waitsAt ts got j
  | _, _, _ => none

/-- The type whose queue getter `j` of call `c` is suspended on. -/
def Frame.waitsOn (c : Call) : Frame → ℕ → Option String
  | .getting _ _ _, j => if j = 0 then some c.queueType else none
  | .waiting got _, j => waitsAt c.responseTypes got j
  | _, _ => none

/-- A frame that call `c` can be in. -/
def Frame.Fits (c : Call) : Frame → Prop
  | .collecting _ _ _ => c.queueType ∈ c.responseTypes
  | .getting _ _ _ => c.queueType ∈ c.responseTypes
  | .waiting got _ => got.length = c.responseTypes.length
  | _ => True

theorem Call.fits_afterSend (c : Call) (t0 now : ℚ) : (c.afterSend t0 now).Fits c := by
  cases c with
  | requestAny message ts timeout =>
    rw [Call.afterSend]
    split <;> trivial
  | getSystemParams => trivial
  | waitForCondition => trivial
  | getWorkModeFromStatus => trivial
  | _ => exact List.mem_singleton_self _

theorem Call.fits_onTimeout (c : Call) : c.onTimeout.Fits c := by
  cases c <;> trivial

/-- After a getter task has taken a message, it waits no more, and the others wait as before. -/
theorem waitsAt_set {ts : List String} {got : List (Option Received)} {j : ℕ} {m : Received}
    (hlen : got.length = ts.length) (hj : got[j]? = some none) :
    waitsAt ts (got.set j (some m)) = Function.update (waitsAt ts got) j none := by
  induction ts generalizing got j with
  | nil =>
    rw [List.length_nil, List.length_eq_zero_iff] at hlen
    subst hlen
    cases hj
  | cons t ts ih =>
    rcases got with _ | ⟨o, got⟩
    · cases hj
    cases j with
    | zero =>
      funext k
      cases k with
      | zero =>
        rw [Function.update_self]
        rfl
      | succ k =>
        rw [Function.update_of_ne (Nat.succ_ne_zero k)]
        rfl
    | succ j =>
      funext k
      cases k with
      | zero =>
        rw [Function.update_of_ne (Nat.succ_ne_zero j).symm]
        rfl
      | succ k =>
        have h := congrFun (ih (Nat.succ.inj hlen) hj) k
        by_cases hk : k = j
        · subst hk
          rw [Function.update_self] at h ⊢
          exact h
        · rw [Function.update_of_ne hk] at h
          rw [Function.update_of_ne fun heq => hk (Nat.succ.inj heq)]
          exact h

theorem waitsAt_eq {ts : List String} {got : List (Option Received)} {j : ℕ} {t : String}
    (ht : ts[j]? = some t) (hgot : got[j]? = some none) : waitsAt ts got j = some t := by
  induction ts generalizing got j with
  | nil => cases ht
  | cons t' ts ih =>
    rcases got with _ | ⟨o, got⟩
    · cases hgot
    cases j with
    | zero =>
      obtain rfl : o = none := Option.some.inj hgot
      exact ht
    | succ j => exact ih ht hgot

theorem waitsAt_inv {ts : List String} {got : List (Option Received)} {j : ℕ} {t : String}
    (h : waitsAt ts got j = some t) : ts[j]? = some t ∧ got[j]? = some none := by
  induction ts generalizing got j with
  | nil => cases h
  | cons t' ts ih =>
    rcases got with _ | ⟨o, got⟩
    · cases h
    cases j with
    | zero =>
      cases o with
      | none => exact ⟨h, rfl⟩
      | some m => cases h
    | succ j => exact ih h

/-- The getter tasks have taken something or nothing, each of them. -/
theorem Mail.Getters.length {i : ℕ} {ts : List String} {m m' : Mail}
    {got : List (Option Received)} (h : Mail.Getters i ts m got m') : got.length = ts.length := by
  induction h with
  | nil => rfl
  | suspend _ _ ih => exact congrArg (· + 1) ih
  | take _ _ ih => exact congrArg (· + 1) ih

namespace Loop

variable {s s' : Loop} {i j : ℕ} {c : Call} {f f' : Frame} {l : Label}

/-- The type whose queue getter `w` is suspended on. -/
def target (s : Loop) (w : Waiter) : Option String :=
  (s.calls w.1).bind fun task => task.frame.waitsOn task.call w.2

/-- The response queues of the client, and who waits on them. -/
def room (s : Loop) : Room String Received Waiter :=
  ⟨s.client.pendingResponses, s.ready, s.target⟩

theorem target_of_call (hi : s.calls i = some ⟨c, f⟩) (j : ℕ) :
    s.target (i, j) = f.waitsOn c j := by
  rw [target, hi]
  rfl

/-- A call in a new frame that waits as before. -/
theorem target_of_same (hcalls : s'.calls = Function.update s.calls i (some ⟨c, f'⟩))
    (hf : ∀ j, f'.waitsOn c j = s.target (i, j)) : s'.target = s.target := by
  funext ⟨i', j⟩
  by_cases hi' : i' = i
  · subst hi'
    rw [target_of_call (hcalls ▸ Function.update_self ..), hf j]
  · rw [target, target, hcalls, Function.update_of_ne hi']

/-- A call in a new frame, of which getter `j` waits on something else. -/
theorem target_of_update {o : Option String}
    (hcalls : s'.calls = Function.update s.calls i (some ⟨c, f'⟩))
    (hf : f'.waitsOn c = Function.update (fun j => s.target (i, j)) j o) :
    s'.target = Function.update s.target (i, j) o := by
  funext ⟨i', j'⟩
  by_cases hi' : i' = i
  · subst hi'
    rw [target_of_call (hcalls ▸ Function.update_self ..), hf]
    by_cases hj : j' = j
    · subst hj
      rw [Function.update_self, Function.update_self]
    · rw [Function.update_of_ne hj, Function.update_of_ne fun h => hj (Prod.mk.inj h).2]
  · rw [target, hcalls, Function.update_of_ne hi', Function.update_of_ne fun h =>
      hi' (Prod.mk.inj h).1]
    rfl

/-! ## The frames of the calls -/

/-- Every call has its queues, and is in a frame it can be in. -/
def Formed (m : Mail) (_ : ℕ) (c : Call) (f : Frame) : Prop :=
  (∀ t ∈ c.responseTypes, (m.items t).isSome = true) ∧ f.Fits c

theorem Local.fits (h : s.Local c l f f') (hf : f.Fits c) : f'.Fits c := by
  cases h with
  | afterSend => exact c.fits_afterSend ..
  | suspend => exact hf
  | timeout => exact c.fits_onTimeout
  | timeoutAny => exact c.fits_onTimeout
  | _ => trivial

theorem Takes.fits {m : Received} {t : String} (h : Takes c m f t f') (hf : f.Fits c) :
    f'.Fits c := by
  cases h with
  | resume => exact hf
  | run => exact hf
  | runAny => exact (List.length_set ..).trans hf

theorem Polls.fits {events : List Received} (h : Polls c events f f') : f'.Fits c := by
  cases h with
  | timeout => exact c.fits_onTimeout
  | _ => trivial

theorem step_formed (h : AllCalls Formed s) (hl : s.step l = some s') : AllCalls Formed s' := by
  have heff := step_effect hl
  have mono : ∀ {i c f}, Formed s.mail i c f → Formed s'.mail i c f :=
    fun hf => ⟨fun t ht => heff.registered (hf.1 t ht), hf.2⟩
  cases heff with
  | quiet hcalls _ => exact h.same mono hcalls
  | received hcalls _ => exact h.same mono hcalls
  | cleared hcalls _ => exact h.same mono hcalls
  | started _ hcalls hm =>
    refine h.update mono hcalls ⟨fun t ht => ?_, trivial⟩
    rw [hm, Mail.start]
    exact congrArg Option.isSome (if_pos ht)
  | sent hi hcalls _ => exact h.update mono hcalls ⟨(mono (h _ _ _ hi)).1, trivial⟩
  | «local» hi hf hcalls _ =>
    exact h.update mono hcalls ⟨(mono (h _ _ _ hi)).1, hf.fits (h _ _ _ hi).2⟩
  | polled hi hf hcalls _ => exact h.update mono hcalls ⟨(mono (h _ _ _ hi)).1, hf.fits⟩
  | handed hi hf _ hcalls _ =>
    exact h.update mono hcalls ⟨(mono (h _ _ _ hi)).1, hf.fits (h _ _ _ hi).2⟩
  | getters hi hg hcalls => exact h.update mono hcalls ⟨(mono (h _ _ _ hi)).1, hg.length⟩

/-! ## The getters -/

section getters

variable {target : Waiter → Option String} {w : Waiter} {t : String}

/-- The room of `s`, if `target` says who waits on what. -/
abbrev SoundFor (s : Loop) (target : Waiter → Option String) : Prop :=
  Room.Sound ⟨s.client.pendingResponses, s.ready, target⟩

/-- From getter `j` on, the getters of call `i` wait on what `f` says. -/
def overlay (target : Waiter → Option String) (i j : ℕ) (f : ℕ → Option String) :
    Waiter → Option String :=
  fun w => if w.1 = i ∧ j ≤ w.2 then f (w.2 - j) else target w

theorem overlay_same {f : ℕ → Option String} (h : ∀ k, target (i, j + k) = f k) :
    overlay target i j f = target := by
  funext ⟨i', k⟩
  rw [overlay]
  split
  next hik =>
    obtain ⟨rfl, hk⟩ := hik
    rw [← h, show j + (k - j) = k from Nat.add_sub_of_le hk]
  · rfl

theorem overlay_succ (f : ℕ → Option String) :
    overlay (Function.update target (i, j) (f 0)) i (j + 1) (fun k => f (k + 1)) =
      overlay target i j f := by
  funext ⟨i', k⟩
  simp only [overlay]
  by_cases hi' : i' = i
  · subst hi'
    rcases Nat.lt_trichotomy k j with hk | rfl | hk
    · rw [if_neg (by omega), if_neg (by omega),
        Function.update_of_ne fun heq => hk.ne (Prod.mk.inj heq).2]
    · rw [if_neg (by omega), if_pos ⟨rfl, le_rfl⟩, Function.update_self, Nat.sub_self]
    · rw [if_pos ⟨rfl, hk⟩, if_pos ⟨rfl, hk.le⟩, show k - j = k - (j + 1) + 1 by omega]
  · rw [if_neg fun h => hi' h.1, if_neg fun h => hi' h.1,
      Function.update_of_ne fun heq => hi' (Prod.mk.inj heq).1]

theorem SoundFor.cancelGetter (h : s.SoundFor target) (hw : target w = some t) :
    (s.cancelGetter w t).SoundFor (Function.update target w none) := by
  obtain ⟨q, hq, -⟩ := h.placed w t hw
  have hcancel := h.cancel hw hq (decide_eq_true_iff (p := w ∈ s.ready))
  have heq : s.cancelGetter w t = { s with
      client := s.client.setQueue t (q.cancel w (decide (w ∈ s.ready))).1
      ready := s.ready.erase w ++ (q.cancel w (decide (w ∈ s.ready))).2.toList } := by
    simp only [Loop.cancelGetter, show s.client.pendingResponses t = some q from hq]
  rw [heq, show s.ready.erase w = @List.erase _ instBEqOfDecidableEq s.ready w from
    congrArg (fun inst => @List.erase _ inst s.ready w) (lawful_beq_subsingleton _ _)]
  exact hcancel

/-- A getter that was not suspended makes its first pass. -/
theorem SoundFor.getPass (h : s.SoundFor target) (hw : target w = none)
    (hreg : (s.items t).isSome = true) :
    (s.getPass w t).1.SoundFor (Function.update target w
      (if (s.getPass w t).2.isNone then some t else none)) := by
  rcases hq : s.client.pendingResponses t with _ | q
  · rw [items, hq] at hreg
    cases hreg
  rcases hitems : q.items with _ | ⟨x, rest⟩
  · rw [getPass_of_empty hq hitems]
    exact h.suspend hw hq hitems
  · rw [getPass_of_cons hq hitems]
    have hsame : Function.update target w none = target := Function.update_eq_self_iff.mpr hw.symm
    change SoundFor _ (Function.update target w none)
    rw [hsame]
    exact h.take hq hitems

/-- The queues stay when a getter makes a pass. -/
theorem isSome_items_getPass {t' : String} (h : (s.items t').isSome = true) :
    ((s.getPass w t).1.items t').isSome = true := by
  rcases hget : s.getPass w t with ⟨s₁, _ | m⟩
  · have hitems : s₁.items t' = s.items t' :=
      congrFun (congrArg Mail.items (getPass_none hget).2.1) t'
    exact hitems ▸ h
  · obtain ⟨-, rest, -, hmail⟩ := getPass_some hget
    have hitems : s₁.items t' = (s.mail.hand w.1 t m rest).items t' :=
      congrFun (congrArg Mail.items hmail) t'
    exact hitems ▸ Mail.isSome_items_hand h

/-- The getter tasks of call `i` run in a row. -/
theorem SoundFor.runGetters {ts : List String} (h : s.SoundFor target)
    (hnone : ∀ k, j ≤ k → target (i, k) = none) (hreg : ∀ t ∈ ts, (s.items t).isSome = true) :
    (s.runGetters i j ts).1.SoundFor
      (overlay target i j (waitsAt ts (s.runGetters i j ts).2)) := by
  induction ts generalizing s j target with
  | nil =>
    have hsame : overlay target i j (fun _ => none) = target :=
      overlay_same fun k => hnone (j + k) (Nat.le_add_right j k)
    exact hsame.symm ▸ h
  | cons t ts ih =>
    have hfirst := h.getPass (hnone j le_rfl) (hreg t List.mem_cons_self)
    rw [← overlay_succ]
    refine ih hfirst (fun k hk => ?_) fun t' ht' =>
      isSome_items_getPass (hreg t' (List.mem_cons_of_mem t ht'))
    have hne : (i, k) ≠ (i, j) := fun heq => (Nat.ne_of_gt hk) (Prod.mk.inj heq).2
    exact (Function.update_of_ne hne ..).trans (hnone k (Nat.le_of_lt hk))

/-- The getter tasks of call `i` that still wait are cancelled. -/
theorem SoundFor.cancelGetters {ts : List String} {got : List (Option Received)}
    (h : s.SoundFor target) (hwaits : ∀ k, target (i, j + k) = waitsAt ts got k) :
    (s.cancelGetters i j ts got).SoundFor (overlay target i j fun _ => none) := by
  induction ts generalizing s j got target with
  | nil =>
    have hsame : overlay target i j (fun _ => none) = target := overlay_same hwaits
    exact hsame.symm ▸ h
  | cons t ts ih =>
    rcases got with _ | ⟨o, got⟩
    · have hsame : overlay target i j (fun _ => none) = target := overlay_same hwaits
      exact hsame.symm ▸ h
    have hfirst : target (i, j) = if o.isNone then some t else none := hwaits 0
    have hlater : ∀ k, Function.update target (i, j) none (i, j + 1 + k) = waitsAt ts got k := by
      intro k
      have hne : (i, j + 1 + k) ≠ (i, j) := fun heq => by
        have := (Prod.mk.inj heq).2
        omega
      rw [Function.update_of_ne hne, show j + 1 + k = j + (k + 1) by omega, hwaits (k + 1)]
      rfl
    rw [← overlay_succ]
    cases o with
    | none => exact ih (h.cancelGetter hfirst) hlater
    | some m =>
      have hsame : Function.update target (i, j) none = target :=
        Function.update_eq_self_iff.mpr hfirst.symm
      rw [hsame] at hlater ⊢
      exact ih h hlater

end getters

/-! ## Every step keeps the room sound -/

/-- The queue of a call that is in a frame it can be in. -/
theorem isSome_items_queueType (h : AllCalls Formed s) (hi : s.calls i = some ⟨c, f⟩)
    (hf : f.Fits c → c.queueType ∈ c.responseTypes) : (s.items c.queueType).isSome = true :=
  (h i c f hi).1 _ (hf (h i c f hi).2)

/-- The room is the one for who waits on what. -/
theorem sound_of_target {target : Waiter → Option String} (h : s.SoundFor target)
    (htarget : s.target = target) : s.room.Sound := by
  rw [room, htarget]
  exact h

/-- A step that leaves the queues and the getters alone. -/
theorem sound_of_eq (h : s.room.Sound)
    (hqueues : s'.client.pendingResponses = s.client.pendingResponses) (hready : s'.ready = s.ready)
    (htarget : s'.target = s.target) : s'.room.Sound := by
  rw [room, hqueues, hready, htarget]
  exact h

/-- A call that neither waits in its old frame nor in its new one. -/
theorem target_of_idle (hi : s.calls i = some ⟨c, f⟩) (hf : ∀ j, f.waitsOn c j = none)
    (hcalls : s'.calls = Function.update s.calls i (some ⟨c, f'⟩))
    (hf' : ∀ j, f'.waitsOn c j = none) : s'.target = s.target :=
  target_of_same hcalls fun j => (hf' j).trans ((target_of_call hi j).trans (hf j)).symm

theorem afterSend_waitsOn (c : Call) (t0 now : ℚ) (j : ℕ) :
    (c.afterSend t0 now).waitsOn c j = none := by
  cases c with
  | requestAny message ts timeout =>
    rw [Call.afterSend]
    split <;> rfl
  | _ => rfl

theorem onTimeout_waitsOn (c : Call) (j : ℕ) : c.onTimeout.waitsOn c j = none := by
  cases c <;> rfl

/-- A call in a new frame: the frame says who waits on what. -/
theorem target_of_calls (hcalls : s'.calls = Function.update s.calls i (some ⟨c, f'⟩)) :
    s'.target = overlay s.target i 0 (f'.waitsOn c) := by
  funext ⟨i', k⟩
  by_cases hi' : i' = i
  · subst hi'
    rw [target_of_call (hcalls ▸ Function.update_self ..), overlay, if_pos ⟨rfl, Nat.zero_le k⟩]
    rfl
  · rw [target, hcalls, Function.update_of_ne hi', overlay, if_neg fun h => hi' h.1]
    rfl

/-- The getters of a call that has ended are gone. -/
theorem target_of_ended (hcalls : s'.calls = Function.update s.calls i (some ⟨c, f'⟩))
    (hf' : ∀ j, f'.waitsOn c j = none) : s'.target = overlay s.target i 0 fun _ => none := by
  rw [target_of_calls hcalls, funext hf']

/-- An arrival wakes the oldest getter of its queue. -/
theorem sound_receive (h : s.room.Sound) (loaded : Except PyError Json) (now : ℚ) :
    (s.receive loaded now).room.Sound := by
  have htarget : (s.receive loaded now).target = s.target := by
    funext w
    rw [target, (s.receive_cases loaded now).1]
    rfl
  obtain ⟨hqueues, hready⟩ | ⟨t, q, x, hput⟩ := s.receive_put loaded now
  · exact sound_of_eq h hqueues hready htarget
  · rw [room, hput.pending, hput.ready, htarget]
    exact h.put hput.found x

/-- The first of the woken getters runs: it takes a message, or suspends again. -/
theorem sound_run {rest : List Waiter} (h : s.room.Sound) (hformed : AllCalls Formed s)
    (hready : s.ready = (i, j) :: rest) :
    ({ s with ready := rest }.runGetter i j).room.Sound := by
  have hsound : Room.Sound ⟨s.client.pendingResponses, (i, j) :: rest, s.target⟩ := hready ▸ h
  obtain ⟨t, ht⟩ := hsound.ready_target (i, j) List.mem_cons_self
  obtain ⟨q, hq, -⟩ := hsound.placed (i, j) t ht
  have hq' : ({ s with ready := rest } : Loop).client.pendingResponses t = some q := hq
  rcases hcall : s.calls i with _ | ⟨c, f⟩
  · change s.target (i, j) = some t at ht
    rw [target, hcall] at ht
    cases ht
  have hwaits : f.waitsOn c j = some t := (target_of_call hcall j).symm.trans ht
  have hcall' : ({ s with ready := rest } : Loop).calls i = some ⟨c, f⟩ := hcall
  cases f with
  | getting left out t0 =>
    have hj : j = 0 ∧ c.queueType = t := by
      rw [Frame.waitsOn] at hwaits
      split at hwaits
      next hj => exact ⟨hj, Option.some.inj hwaits⟩
      · cases hwaits
    obtain ⟨rfl, rfl⟩ := hj
    simp only [runGetter, hcall]
    rcases hitems : q.items with _ | ⟨x, tail⟩
    · rw [getPass_of_empty hq' hitems]
      exact hsound.suspendAgain ht hq hitems
    · rw [getPass_of_cons hq' hitems]
      have htaken := hsound.wokenTakes ht hq hitems
      refine sound_of_target htaken (target_of_update rfl ?_)
      funext k
      by_cases hk : k = 0
      · subst hk
        rw [Function.update_self]
        rfl
      · rw [Function.update_of_ne hk, target_of_call hcall]
        exact (if_neg hk).symm
  | waiting got t0 =>
    obtain ⟨ht', hgot⟩ := waitsAt_inv hwaits
    simp only [runGetter, hcall, ht', hgot]
    rcases hitems : q.items with _ | ⟨x, tail⟩
    · rw [getPass_of_empty hq' hitems]
      exact hsound.suspendAgain ht hq hitems
    · rw [getPass_of_cons hq' hitems]
      have htaken := hsound.wokenTakes ht hq hitems
      refine sound_of_target htaken (target_of_update rfl ?_)
      rw [show (fun j => s.target (i, j)) = waitsAt c.responseTypes got from
        funext fun k => target_of_call hcall k]
      exact waitsAt_set (hformed i c _ hcall).2 hgot
  | _ => cases hwaits

/-- A step that puts call `i` in a frame, from a frame in which it did not wait. -/
theorem sound_of_idle {s₁ : Loop} (h : s.room.Sound)
    (hqueues : s₁.client.pendingResponses = s.client.pendingResponses) (hready : s₁.ready = s.ready)
    (hcalls : s₁.calls = s.calls) (hi : s.calls i = some ⟨c, f⟩) (hf : ∀ j, f.waitsOn c j = none)
    (hf' : ∀ j, f'.waitsOn c j = none) : (s₁.setFrame i c f').room.Sound :=
  sound_of_eq h hqueues hready (target_of_idle hi hf (calls_setFrame hcalls i c f') hf')

/-- **Every step keeps the room sound.** -/
theorem step_sound (h : s.room.Sound) (hformed : AllCalls Formed s) (hl : s.step l = some s') :
    s'.room.Sound := by
  have hs : s.SoundFor s.target := h
  cases step_cases hl with
  | connect _ => exact sound_of_eq h rfl rfl rfl
  | disconnect =>
    refine sound_of_eq h ?_ rfl rfl
    simp only [WSClient.disconnect]
    split <;> rfl
  | peerClosed _ => exact sound_of_eq h rfl rfl rfl
  | receive _ => exact sound_receive h ..
  | @start i c now hi =>
    refine sound_of_target (h.create (fun t q hq => ?_) fun t q hq => ?_)
      (target_of_same (c := c) rfl fun j => ?_)
    · change (s.client.ensureQueues c.responseTypes).pendingResponses t = some q
      rw [WSClient.ensureQueues_pendingResponses, show s.client.pendingResponses t = some q from hq]
      exact ite_self _
    · change (s.client.ensureQueues c.responseTypes).pendingResponses t = some q at hq
      rw [WSClient.ensureQueues_pendingResponses] at hq
      rcases hq₀ : s.client.pendingResponses t with _ | q₀ <;> rw [hq₀] at hq
      · split at hq <;> cases hq
        exact .inr rfl
      · rw [Option.getD_some, ite_self] at hq
        exact .inl hq
    · rw [target, hi]
      rfl
  | notConnected hi _ => exact sound_of_idle h rfl rfl rfl hi (fun _ => rfl) fun _ => rfl
  | sent hi _ => exact sound_of_idle h rfl rfl rfl hi (fun _ => rfl) fun _ => rfl
  | sendFails hi => exact sound_of_idle h rfl rfl rfl hi (fun _ => rfl) fun _ => rfl
  | afterSend hi => exact sound_of_idle h rfl rfl rfl hi (fun _ => rfl) (afterSend_waitsOn _ _ _)
  | «return» hi => exact sound_of_idle h rfl rfl rfl hi (fun _ => rfl) fun _ => rfl
  | suspend hi hget =>
    have hsound := hs.getPass (target_of_call hi 0) (isSome_items_queueType hformed hi id)
    rw [hget] at hsound
    refine sound_of_target hsound (target_of_update (calls_setFrame (getPass_none hget).1 ..) ?_)
    funext k
    by_cases hk : k = 0
    · subst hk
      rw [Function.update_self]
      rfl
    · rw [Function.update_of_ne hk, target_of_call hi]
      exact if_neg hk
  | take hi hget =>
    have hsound := hs.getPass (target_of_call hi 0) (isSome_items_queueType hformed hi id)
    rw [hget] at hsound
    have hsame : Function.update s.target _ none = s.target :=
      Function.update_eq_self_iff.mpr (target_of_call hi 0).symm
    refine sound_of_target (hsame ▸ hsound) ?_
    exact target_of_idle hi (fun _ => rfl) (calls_setFrame (getPass_some hget).1 ..) fun _ => rfl
  | run hready => exact sound_run h hformed hready
  | getters hi =>
    have hsound := hs.runGetters (j := 0) (fun k _ => target_of_call hi k) (hformed _ _ _ hi).1
    exact sound_of_target hsound (target_of_calls (calls_setFrame (s.runGetters_mail ..).1 ..))
  | wake hi _ =>
    have hsound := hs.cancelGetters (j := 0) fun k => by
      rw [Nat.zero_add]
      exact target_of_call hi k
    refine sound_of_target hsound (target_of_ended
      (calls_setFrame (s.cancelGetters_calls ..) ..) fun _ => ?_)
    rfl
  | timeout hi =>
    have hsound := hs.cancelGetter (target_of_call hi 0)
    refine sound_of_target hsound (target_of_update
      (calls_setFrame (s.cancelGetter_calls ..) ..) ?_)
    funext k
    rw [onTimeout_waitsOn]
    by_cases hk : k = 0
    · subst hk
      rw [Function.update_self]
    · rw [Function.update_of_ne hk, target_of_call hi]
      exact (if_neg hk).symm
  | timeoutAny hi _ =>
    have hsound := hs.cancelGetters (j := 0) fun k => by
      rw [Nat.zero_add]
      exact target_of_call hi k
    exact sound_of_target hsound (target_of_ended
      (calls_setFrame (s.cancelGetters_calls ..) ..) (onTimeout_waitsOn _))
  | poll hi =>
    simp only [poll]
    split
    · exact sound_of_idle h rfl rfl rfl hi (fun _ => rfl) fun _ => rfl
    · split
      · exact sound_of_idle h rfl rfl rfl hi (fun _ => rfl) fun _ => rfl
      · exact sound_of_idle h rfl rfl rfl hi (fun _ => rfl) fun _ => rfl
    · split
      · exact sound_of_idle h rfl rfl rfl hi (fun _ => rfl) (onTimeout_waitsOn _)
      · exact h
  | events _ hw => exact sound_of_eq h rfl rfl rfl

theorem run_formed {ls : List Label} (h : Lts.run step new ls = some s) : AllCalls Formed s :=
  Lts.run_invariant AllCalls.new (fun _ _ _ => step_formed) h

/-- In every state that can be reached the room is sound. -/
theorem run_sound {ls : List Label} (h : Lts.run step new ls = some s) : s.room.Sound := by
  refine Lts.run_induction (motive := fun _ s => s.room.Sound) ?_ ?_ h
  · exact .empty (fun _ => rfl) fun _ => rfl
  · intro ls l s s' hrun hsound hl
    exact step_sound hsound (run_formed hrun) hl

/-! ## What follows -/

/-- **A getter is where its call says, and only there.** In every state that can be reached, the
getters suspended on the queue of a type and not yet woken, with those woken for it, are exactly the
getters of the calls whose frame waits on that type, each of them once; nobody has been woken for
anything else. -/
theorem getters_exact {ls : List Label} (h : Lts.run step new ls = some s) {t : String}
    {q : Queue Received Waiter} (hq : s.client.pendingResponses t = some q) :
    (q.getters ++ s.ready.filter fun w => s.target w = some t).Nodup ∧
      (∀ w, w ∈ q.getters ++ s.ready.filter (fun w => s.target w = some t) ↔ s.target w = some t) ∧
      ∀ w ∈ s.ready, (s.target w).isSome = true := by
  have hsound := run_sound h
  refine ⟨?_, fun w => ⟨fun hw => ?_, fun hw => ?_⟩, fun w hw => ?_⟩
  · refine (hsound.getters_nodup t q hq).append (hsound.ready_nodup.filter _) ?_
    intro w hw hready
    exact (hsound.getters_target t q hq w hw).2 (List.mem_of_mem_filter hready)
  · rcases List.mem_append.mp hw with hw | hw
    · exact (hsound.getters_target t q hq w hw).1
    · exact of_decide_eq_true (List.mem_filter.mp hw).2
  · obtain ⟨q', hq', hplace⟩ := hsound.placed w t hw
    obtain rfl : q = q' := Option.some.inj (hq.symm.trans hq')
    rcases hplace with hready | hgetters
    · exact List.mem_append_right _ (List.mem_filter.mpr ⟨hready, decide_eq_true hw⟩)
    · exact List.mem_append_left _ hgetters
  · obtain ⟨t', ht'⟩ := hsound.ready_target w hw
    exact Option.isSome_iff_exists.mpr ⟨t', ht'⟩

/-- Two calls wait for the same type, and one message arrives. -/
def twoWaiters : List Label :=
  [.connect 0, .start 0 (.waitFor "a" 5) 0, .resume 0 0, .resume 0 0, .start 1 (.waitFor "a" 5) 0,
    .resume 1 0, .resume 1 0, .receive (.ok (.obj [("type", .str "a")])) 1]

theorem getters_exact_twoWaiters :
    ∃ s q, Lts.run step new twoWaiters = some s ∧ s.client.pendingResponses "a" = some q ∧
      q.getters = [(1, 0)] ∧ s.ready = [(0, 0)] ∧
      ∀ w, w ∈ q.getters ++ s.ready.filter (fun w => s.target w = some "a") ↔
        s.target w = some "a" := by
  have h : Lts.run step new twoWaiters = some _ := rfl
  exact ⟨_, _, h, rfl, rfl, rfl, (getters_exact h rfl).2.1⟩

/-- A pass of a getter wakes nobody. -/
theorem getPass_ready {s₁ : Loop} {w : Waiter} {t : String} {o : Option Received}
    (h : s.getPass w t = (s₁, o)) : s₁.ready = s.ready := by
  have hready : (s.getPass w t).1.ready = s.ready := by
    simp only [getPass]
    split
    · rfl
    · split <;> rfl
  rw [h] at hready
  exact hready

/-- The first run of the getter tasks wakes nobody. -/
theorem runGetters_ready (s : Loop) (i j : ℕ) (ts : List String) :
    (s.runGetters i j ts).1.ready = s.ready := by
  induction ts generalizing s j with
  | nil => rfl
  | cons t ts ih =>
    exact (ih (s.getPass (i, j) t).1 (j + 1)).trans (getPass_ready rfl)

/-- Running a woken getter wakes nobody. -/
theorem runGetter_ready (s : Loop) (i j : ℕ) : (s.runGetter i j).ready = s.ready := by
  simp only [runGetter]
  split
  · split
    next hget => exact getPass_ready hget
    next s₁ _ hget => exact (getPass_ready hget : s₁.ready = s.ready)
  · split
    · split
      next hget => exact getPass_ready hget
      next s₁ _ hget => exact (getPass_ready hget : s₁.ready = s.ready)
    · rfl
  · rfl

/-- The woken getters can run, one after the other, and then none is left. -/
theorem exists_run_ready (n : ℕ) {s : Loop} (hn : s.ready.length = n) :
    ∃ s', Lts.run step s (List.replicate n .run) = some s' ∧ s'.ready = [] := by
  induction n generalizing s with
  | zero => exact ⟨s, rfl, List.length_eq_zero_iff.mp hn⟩
  | succ n ih =>
    rcases hready : s.ready with _ | ⟨⟨i, j⟩, rest⟩
    · rw [hready] at hn
      cases hn
    have hstep : s.step .run = some ({ s with ready := rest }.runGetter i j) := by
      simp only [step, hready]
    rw [hready] at hn
    obtain ⟨s', hrun, hs'⟩ := ih (s := { s with ready := rest }.runGetter i j)
      ((congrArg List.length (runGetter_ready _ i j)).trans (Nat.succ.inj hn))
    refine ⟨s', ?_, hs'⟩
    rw [List.replicate_succ, Lts.run, hstep]
    exact hrun

/-- **No reply is left lying where somebody waits for it.** In every state that can be reached, a
queue on which a getter sleeps holds no more messages than there are getters woken for it. And the
woken getters can always run, one after the other; after that nobody is suspended on a queue that
holds a message. -/
theorem settles {ls : List Label} (h : Lts.run step new ls = some s) :
    (∀ t q, s.client.pendingResponses t = some q → (∃ w, w ∈ q.getters) →
        q.items.length ≤ s.ready.countP fun w => s.target w = some t) ∧
      ∃ s', Lts.run step s (List.replicate s.ready.length .run) = some s' ∧ s'.ready = [] ∧
        ∀ w t q, s'.target w = some t → s'.client.pendingResponses t = some q → q.items = [] := by
  constructor
  · rintro t q hq ⟨w, hw⟩
    refine ((run_sound h).attended t q hq).resolve_left fun hnil => ?_
    rw [hnil] at hw
    cases hw
  · obtain ⟨s', hrun, hready⟩ := exists_run_ready s.ready.length (s := s) rfl
    refine ⟨s', hrun, hready, fun w t q hw hq => ?_⟩
    have hboth : Lts.run step new (ls ++ List.replicate s.ready.length .run) = some s' := by
      rw [Lts.run_append, h]
      exact hrun
    exact (run_sound hboth).items_eq_nil hready hw hq

theorem settles_twoWaiters :
    ∃ s s', Lts.run step new twoWaiters = some s ∧ s.ready = [(0, 0)] ∧
      Lts.run step s [.run] = some s' ∧
      ∀ w t q, s'.target w = some t → s'.client.pendingResponses t = some q → q.items = [] := by
  have h : Lts.run step new twoWaiters = some _ := rfl
  obtain ⟨s', hrun, -, hsettled⟩ := (settles h).2
  exact ⟨_, s', h, rfl, hrun, hsettled⟩

end Loop

end SasTests
