import SasTests.Delivery
import SasTests.Wakeups

/-!
# What the calls return

Any number of calls share the queues of a client. Every received object is handed to at most one of
them, and only once; what a call returns is what has been handed to it, objects of the types it
awaits, as many as it wanted, in the order in which they arrived (`returns_handed`).

Where the messages come from is `Mail.Sourced`; where they went is `Accounted`, which compares the
frame of each call with the history.
-/

namespace SasTests

open Python Asyncio

/-! ## Who has taken what -/

/-- A message taken from a queue. -/
structure Handing where
  /-- the call that took it -/
  call : ℕ
  /-- the type of the queue -/
  type : String
  /-- the message -/
  message : Received

/-- The messages taken from the queues, in order. -/
def handings (log : List Obs) : List Handing :=
  log.filterMap fun o => match o with
    | .handed i t m => some ⟨i, t, m⟩
    | _ => none

/-- The messages call `i` has taken. -/
def handedTo (i : ℕ) (log : List Obs) : List Received :=
  ((handings log).filter fun h => h.call = i).map Handing.message

section concat

variable (log : List Obs) (i : ℕ)

theorem handings_concat (o : Obs) : handings (log ++ [o]) = handings log ++ handings [o] :=
  List.filterMap_append ..

theorem mem_handings {log : List Obs} {h : Handing} :
    h ∈ handings log ↔ Obs.handed h.call h.type h.message ∈ log := by
  rw [handings, List.mem_filterMap]
  constructor
  · rintro ⟨o, ho, heq⟩
    cases o with
    | handed i t m =>
      cases heq
      exact ho
    | _ => cases heq
  · exact fun ho => ⟨_, ho, rfl⟩

theorem handedOf_eq (t : String) :
    handedOf t log = (handings log).filterMap fun a =>
      if a.type = t then some a.message else none := by
  rw [handings, List.filterMap_filterMap, handedOf]
  refine List.filterMap_congr fun o _ => ?_
  cases o <;> rfl

theorem handedTo_of_append {log log' : List Obs} {hs : List Handing}
    (h : handings log' = handings log ++ hs) :
    handedTo i log' = handedTo i log ++ (hs.filter fun h => h.call = i).map Handing.message := by
  rw [handedTo, h, List.filter_append, List.map_append]
  rfl

/-- What call `i` takes, it takes. -/
theorem handedTo_of_own {log log' : List Obs} {hs : List Handing}
    (h : handings log' = handings log ++ hs) (hown : ∀ h ∈ hs, h.call = i) :
    handedTo i log' = handedTo i log ++ hs.map Handing.message := by
  rw [handedTo_of_append i h, List.filter_eq_self.mpr fun h hh => decide_eq_true (hown h hh)]

/-- What another call takes is nothing to call `i`. -/
theorem handedTo_of_other {log log' : List Obs} {hs : List Handing}
    (h : handings log' = handings log ++ hs) (hother : ∀ h ∈ hs, h.call ≠ i) :
    handedTo i log' = handedTo i log := by
  rw [handedTo_of_append i h,
    List.filter_eq_nil_iff.mpr fun h hh heq => hother h hh (of_decide_eq_true heq),
    List.map_nil, List.append_nil]

end concat

theorem received_of_mem {t : String} {o : Obs} {x : Received} (h : x ∈ receivedOf t [o]) :
    o = .received x := by
  obtain ⟨o', ho', hx⟩ := List.mem_filterMap.mp h
  obtain rfl := List.mem_singleton.mp ho'
  cases o' with
  | received m =>
    simp only at hx
    split at hx
    · cases hx
      rfl
    · cases hx
  | _ => cases hx

/-! ## Where the messages come from -/

namespace Mail

/-- `x` was received, and is of type `t`, whose objects go to its queue. -/
structure From (m : Mail) (t : String) (x : Received) : Prop where
  /-- it was received -/
  real : m.Real x
  /-- its type -/
  typed : x.typeStr = some t
  /-- the type is none of the special ones -/
  regular : Regular t

/-- The objects are numbered by their places in the history, and whatever is in a queue, or was,
has been received and is of the type of the queue. -/
structure Sourced (m : Mail) : Prop where
  /-- the number of an object is its place -/
  places : ∀ (k : ℕ) (x : Received), m.log[k]? = some (.received x) → x.idx = k
  /-- what is in a queue -/
  queued : ∀ t xs, m.items t = some xs → ∀ x ∈ xs, m.From t x
  /-- what has been taken from one -/
  handed : ∀ h ∈ handings m.log, m.From h.type h.message

namespace Sourced

variable {m m' : Mail}

theorem new : Sourced Loop.new.mail where
  places k x h := by cases h
  queued t xs h := by cases h
  handed h hh := by cases hh

/-- An entry of the history that is no arrival; the queues have at most lost something. -/
theorem concat (h : Sourced m) {o : Obs} (hlog : m'.log = m.log ++ [o])
    (ho : ∀ x, o ≠ .received x) (hhanded : ∀ h ∈ handings [o], m.From h.type h.message)
    (hitems : ∀ t xs, m'.items t = some xs → ∀ x ∈ xs, ∃ ys, m.items t = some ys ∧ x ∈ ys) :
    Sourced m' := by
  have mono : ∀ {t x}, m.From t x → m'.From t x := by
    intro t x hx
    refine ⟨?_, hx.typed, hx.regular⟩
    rw [Real, hlog, List.getElem?_append_left (List.getElem?_eq_some_iff.mp hx.real).1]
    exact hx.real
  refine ⟨fun k x hk => ?_, fun t xs hxs x hx => ?_, fun a ha => ?_⟩
  · rw [hlog] at hk
    by_cases hlt : k < m.log.length
    · rw [List.getElem?_append_left hlt] at hk
      exact h.places k x hk
    · rw [List.getElem?_append_right (not_lt.mp hlt), List.getElem?_singleton] at hk
      split at hk
      · exact absurd (Option.some.inj hk) (ho x)
      · cases hk
  · obtain ⟨ys, hys, hmem⟩ := hitems t xs hxs x hx
    exact mono (h.queued t ys hys x hmem)
  · rw [hlog, handings_concat] at ha
    rcases List.mem_append.mp ha with ha | ha
    · exact mono (h.handed a ha)
    · exact mono (hhanded a ha)

theorem start (h : Sourced m) (i : ℕ) (c : Call) : Sourced (m.start i c) := by
  refine h.concat (o := .started i c) rfl (fun x hx => by cases hx) (fun a ha => by cases ha) ?_
  intro t xs hxs x hx
  simp only [Mail.start] at hxs
  rcases hitems : m.items t with _ | ys <;> rw [hitems] at hxs
  · split at hxs <;> cases hxs
    cases hx
  · have hys : xs = ys := by split at hxs <;> cases hxs <;> rfl
    exact ⟨ys, rfl, hys ▸ hx⟩

theorem hand (h : Sourced m) (i : ℕ) {t : String} {x : Received} {rest : List Received}
    (ht : m.items t = some (x :: rest)) : Sourced (m.hand i t x rest) := by
  refine h.concat (o := .handed i t x) rfl (fun x hx => by cases hx) (fun a ha => ?_) ?_
  · obtain rfl := List.mem_singleton.mp ha
    exact h.queued t _ ht x List.mem_cons_self
  · intro t' xs hxs y hy
    simp only [Mail.hand] at hxs
    by_cases ht' : t' = t
    · subst ht'
      rw [Function.update_self] at hxs
      cases hxs
      exact ⟨_, ht, List.mem_cons_of_mem x hy⟩
    · rw [Function.update_of_ne ht'] at hxs
      exact ⟨xs, hxs, hy⟩

theorem receive (h : Sourced m) (msg : Json) (now : ℚ) : Sourced (m.receive msg now) := by
  have hlog := m.receive_log msg now
  have mono : ∀ {t x}, m.From t x → (m.receive msg now).From t x := fun hx =>
    ⟨(Extends.receive m msg now).real hx.real, hx.typed, hx.regular⟩
  refine ⟨fun k x hk => ?_, fun t xs hxs x hx => ?_, fun a ha => ?_⟩
  · rw [hlog] at hk
    by_cases hlt : k < m.log.length
    · rw [List.getElem?_append_left hlt] at hk
      exact h.places k x hk
    · rw [List.getElem?_append_right (not_lt.mp hlt), List.getElem?_singleton] at hk
      split at hk
      · cases hk
        show m.log.length = k
        omega
      · cases hk
  · rw [receive_items] at hxs
    split at hxs
    next hd =>
      obtain ⟨hregular, htyped, hsome⟩ := of_destination_queue hd
      obtain ⟨ys, hys⟩ := Option.isSome_iff_exists.mp hsome
      rw [hys, Option.getD_some] at hxs
      obtain rfl := Option.some.inj hxs
      rcases List.mem_append.mp hx with hx | hx
      · exact mono (h.queued t ys hys x hx)
      · obtain rfl := List.mem_singleton.mp hx
        exact ⟨m.real_receive msg now, htyped, hregular⟩
    next => exact mono (h.queued t xs hxs x hx)
  · rw [hlog, handings_concat] at ha
    rcases List.mem_append.mp ha with ha | ha
    · exact mono (h.handed a ha)
    · cases ha

theorem getters {i : ℕ} {ts : List String} {got : List (Option Received)}
    (hg : Getters i ts m got m') (h : Sourced m) : Sourced m' := by
  induction hg with
  | nil m => exact h
  | suspend _ _ ih => exact ih h
  | take hitems _ ih => exact ih (h.hand i hitems)

/-- Arrivals are in the order of their numbers. -/
theorem arrivals (h : Sourced m) (t : String) :
    (arrivedSince t m.log).Pairwise fun x y => x.idx < y.idx := by
  have hlog : m.log.Pairwise fun o o' =>
      ∀ x y, o = .received x → o' = .received y → x.idx < y.idx := by
    rw [List.pairwise_iff_getElem]
    intro j k hj hk hlt x y hx hy
    rw [h.places j x (List.getElem?_eq_some_iff.mpr ⟨hj, hx⟩),
      h.places k y (List.getElem?_eq_some_iff.mpr ⟨hk, hy⟩)]
    exact hlt
  rw [arrivedSince, receivedOf, List.pairwise_filterMap]
  refine (hlog.sublist (List.dropWhile_sublist _)).imp fun {o o'} hoo' x hx y hy => ?_
  exact hoo' x y (received_of_mem (List.mem_filterMap.mpr ⟨o, List.mem_singleton_self o, hx⟩))
    (received_of_mem (List.mem_filterMap.mpr ⟨o', List.mem_singleton_self o', hy⟩))

/-- Nothing is handed out twice, and what is handed out for one type is in the order of arrival. -/
theorem once (h : Sourced m) (hc : Conserved m) :
    (handings m.log).Pairwise fun a b => a.message.idx ≠ b.message.idx ∧
      (a.type = b.type → a.message.idx < b.message.idx) := by
  have hordered : ∀ t, (handedOf t m.log).Pairwise fun x y => x.idx < y.idx := by
    intro t
    rcases hitems : m.items t with _ | xs
    · rw [hc.unregistered t hitems]
      exact .nil
    by_cases ht : Regular t
    · have harrivals := h.arrivals t
      rw [← hc.queues t xs hitems ht] at harrivals
      exact (List.pairwise_append.mp harrivals).1
    · have hnil : handedOf t m.log = [] := by
        refine List.filterMap_eq_nil_iff.mpr fun o ho => ?_
        cases o with
        | handed i t' x =>
          have hne : t' ≠ t := fun heq =>
            ht (heq ▸ (h.handed ⟨i, t', x⟩ (mem_handings.mpr ho)).regular)
          exact if_neg hne
        | _ => rfl
      rw [hnil]
      exact .nil
  rw [List.pairwise_iff_getElem]
  intro j k hj hk hlt
  have hfrom := fun n (hn : n < (handings m.log).length) => h.handed _ (List.getElem_mem hn)
  have hsame : (handings m.log)[j].type = (handings m.log)[k].type →
      (handings m.log)[j].message.idx < (handings m.log)[k].message.idx := by
    intro htype
    have hpair := hordered (handings m.log)[j].type
    rw [handedOf_eq, List.pairwise_filterMap, List.pairwise_iff_getElem] at hpair
    exact hpair j k hj hk hlt _ (if_pos rfl) _ (if_pos htype.symm)
  refine ⟨fun hidx => ?_, hsame⟩
  by_cases htype : (handings m.log)[j].type = (handings m.log)[k].type
  · exact (hsame htype).ne hidx
  · have heq : some (Obs.received (handings m.log)[j].message) =
        some (Obs.received (handings m.log)[k].message) := by
      rw [← (hfrom j hj).real, ← (hfrom k hk).real, hidx]
    have hmessage := Obs.received.inj (Option.some.inj heq)
    refine htype (Option.some.inj ?_)
    rw [← (hfrom j hj).typed, ← (hfrom k hk).typed, hmessage]

end Sourced

end Mail

/-! ## What a call has in its hands -/

namespace Call

/-- How many messages the call takes from its queue, unless it is `request_any`. -/
def wanted : Call → ℕ
  | request _ _ _ => 1
  | waitFor _ _ => 1
  | burstSameResponse messages _ _ => messages.length
  | _ => 0

/-- The call is `request_any`. -/
def races : Call → Bool
  | requestAny _ _ _ => true
  | _ => false

theorem queueType_mem {c : Call} (h : 0 < c.wanted) : c.queueType ∈ c.responseTypes := by
  cases c with
  | request => exact List.mem_singleton_self _
  | waitFor => exact List.mem_singleton_self _
  | burstSameResponse => exact List.mem_singleton_self _
  | _ => cases h

/-- The result `r` is what the call has taken: `request_any` returns one of the messages, the other
calls return all of them, and those that poll the accumulator have taken nothing. -/
def Accounts (c : Call) (taken : List Received) : Result → Prop
  | .message m => m ∈ taken ∧ (c.races = false → taken = [m])
  | .messages ms => taken = ms ∧ ms.length = c.wanted
  | .event _ _ => taken = []
  | .none => taken = []

end Call

/-- The local variables of call `c` hold what it has taken. -/
def Frame.Holds (c : Call) (taken : List Received) : Frame → Prop
  | .sending _ _ => taken = []
  | .collecting left out _ => taken = out ∧ left + out.length = c.wanted
  | .getting left out _ => taken = out ∧ left + 1 + out.length = c.wanted
  | .created _ => c.races = true ∧ taken = []
  | .waiting got _ => c.races = true ∧ taken.Perm (got.filterMap id)
  | .polling _ => taken = []
  | .returned r => c.Accounts taken r
  | .raised _ => True

/-- A getter task that had nothing takes `x`. -/
theorem filterMap_set_perm {got : List (Option Received)} {j : ℕ} {x : Received}
    (h : got[j]? = some none) :
    (got.filterMap id ++ [x]).Perm ((got.set j (some x)).filterMap id) := by
  induction got generalizing j with
  | nil => cases h
  | cons o got ih =>
    cases j with
    | zero =>
      obtain rfl : o = none := Option.some.inj h
      exact List.perm_append_singleton x _
    | succ j =>
      rcases o with _ | y
      · exact ih h
      · exact (ih h).cons y

/-- Whatever call `i` has taken is of the types it awaits, and its frame accounts for it. -/
structure Held (m : Mail) (i : ℕ) (c : Call) (f : Frame) : Prop where
  /-- the types -/
  types : ∀ h ∈ handings m.log, h.call = i → h.type ∈ c.responseTypes
  /-- the messages -/
  holds : f.Holds c (handedTo i m.log)

namespace Call

variable (c : Call) {taken : List Received}

theorem holds_afterSend (t0 now : ℚ) (h : taken = []) : (c.afterSend t0 now).Holds c taken := by
  cases c with
  | request => exact ⟨h, rfl⟩
  | waitFor => exact ⟨h, rfl⟩
  | burstSameResponse messages t timeout => exact ⟨h, Nat.add_zero _⟩
  | requestAny message ts timeout =>
    rw [afterSend]
    split
    · trivial
    · exact ⟨rfl, h⟩
  | _ => exact h

/-- A call that times out raises, or has taken nothing. -/
theorem holds_onTimeout (h : 0 < c.wanted ∨ taken = []) : c.onTimeout.Holds c taken := by
  cases c with
  | getWorkModeFromStatus timeout =>
    rcases h with h | h
    · cases h
    · exact h
  | _ => trivial

theorem accounts_result {out : List Received} (h : out.length = c.wanted) :
    c.Accounts out (c.result out) := by
  rcases out with _ | ⟨m, _ | ⟨m', out⟩⟩
  · cases c with
    | burstSameResponse => exact ⟨rfl, h⟩
    | _ => rfl
  · cases c with
    | burstSameResponse => exact ⟨rfl, h⟩
    | _ => exact ⟨List.mem_singleton_self m, fun _ => rfl⟩
  · cases c with
    | burstSameResponse => exact ⟨rfl, h⟩
    | _ => simp [wanted] at h

end Call

namespace Held

variable {m m' : Mail} {i : ℕ} {c : Call} {f f' : Frame} {hs : List Handing}

/-- Nobody takes anything. -/
theorem same (h : Held m i c f) (hlog : handings m'.log = handings m.log) : Held m' i c f := by
  refine ⟨hlog ▸ h.types, ?_⟩
  rw [handedTo, hlog]
  exact h.holds

/-- Another call takes something. -/
theorem other (h : Held m i c f) (hlog : handings m'.log = handings m.log ++ hs)
    (hother : ∀ a ∈ hs, a.call ≠ i) : Held m' i c f := by
  refine ⟨fun a ha hi => ?_, ?_⟩
  · rw [hlog] at ha
    rcases List.mem_append.mp ha with ha | ha
    · exact h.types a ha hi
    · exact absurd hi (hother a ha)
  · rw [handedTo_of_other i hlog hother]
    exact h.holds

/-- The call takes something. -/
theorem own (h : Held m i c f) (hlog : handings m'.log = handings m.log ++ hs)
    (hown : ∀ a ∈ hs, a.call = i ∧ a.type ∈ c.responseTypes)
    (hf : f'.Holds c (handedTo i m.log ++ hs.map Handing.message)) : Held m' i c f' := by
  refine ⟨fun a ha hi => ?_, ?_⟩
  · rw [hlog] at ha
    rcases List.mem_append.mp ha with ha | ha
    · exact h.types a ha hi
    · exact (hown a ha).2
  · rw [handedTo_of_own i hlog fun a ha => (hown a ha).1]
    exact hf

/-- The call moves on with what it has. -/
theorem move (h : Held m i c f)
    (hf : f.Holds c (handedTo i m.log) → f'.Holds c (handedTo i m.log)) : Held m i c f' :=
  ⟨h.types, hf h.holds⟩

end Held

namespace Frame

variable {c : Call} {f f' : Frame} {taken : List Received}

theorem Holds.local {s : Loop} {l : Loop.Label} (hl : s.Local c l f f') (h : f.Holds c taken) :
    f'.Holds c taken := by
  cases hl with
  | notConnected => trivial
  | sendFails => trivial
  | afterSend => exact c.holds_afterSend _ _ h
  | suspend => exact h
  | «return» =>
    obtain ⟨rfl, hlen⟩ := h
    exact c.accounts_result ((Nat.zero_add _).symm.trans hlen)
  | timeout =>
    obtain ⟨-, hlen⟩ := h
    exact c.holds_onTimeout (.inl (by omega))
  | wake hm =>
    obtain ⟨hraces, hperm⟩ := h
    refine ⟨hperm.mem_iff.mpr (List.mem_filterMap.mpr ⟨_, hm, rfl⟩), fun hfalse => ?_⟩
    rw [hraces] at hfalse
    cases hfalse
  | @timeoutAny _ got _ hall =>
    obtain ⟨-, hperm⟩ := h
    have hnil : got.filterMap id = [] := List.filterMap_eq_nil_iff.mpr hall
    exact c.holds_onTimeout (.inr (List.perm_nil.mp (hnil ▸ hperm)))

theorem Holds.polls {events : List Received} (hp : Loop.Polls c events f f')
    (h : f.Holds c taken) : f'.Holds c taken := by
  cases hp with
  | raises => trivial
  | found => exact h
  | timeout => exact c.holds_onTimeout (.inr h)

/-- Call `c` takes `x` from the queue of type `t`. -/
theorem Holds.takes {x : Received} {t : String} (ht : Loop.Takes c x f t f')
    (h : f.Holds c taken) : t ∈ c.responseTypes ∧ f'.Holds c (taken ++ [x]) := by
  cases ht with
  | resume =>
    obtain ⟨rfl, hlen⟩ := h
    refine ⟨Call.queueType_mem (by omega), rfl, ?_⟩
    rw [List.length_append, List.length_singleton]
    omega
  | run =>
    obtain ⟨rfl, hlen⟩ := h
    refine ⟨Call.queueType_mem (by omega), rfl, ?_⟩
    rw [List.length_append, List.length_singleton]
    omega
  | runAny hj hgot =>
    obtain ⟨hraces, hperm⟩ := h
    refine ⟨List.mem_of_getElem? hj, hraces, (hperm.append_right [x]).trans ?_⟩
    exact filterMap_set_perm hgot

end Frame

/-- What the getter tasks of call `i` take. -/
theorem Mail.Getters.handings {i : ℕ} {ts : List String} {m m' : Mail}
    {got : List (Option Received)} (h : Mail.Getters i ts m got m') :
    ∃ hs, SasTests.handings m'.log = SasTests.handings m.log ++ hs ∧
      (∀ a ∈ hs, a.call = i ∧ a.type ∈ ts) ∧ hs.map Handing.message = got.filterMap id := by
  induction h with
  | nil m =>
    refine ⟨[], (List.append_nil _).symm, fun a ha => ?_, rfl⟩
    cases ha
  | suspend _ _ ih =>
    obtain ⟨hs, hlog, hown, hmap⟩ := ih
    exact ⟨hs, hlog, fun a ha => ⟨(hown a ha).1, List.mem_cons_of_mem _ (hown a ha).2⟩, hmap⟩
  | @take t _ m _ _ x _ _ _ ih =>
    obtain ⟨hs, hlog, hown, hmap⟩ := ih
    refine ⟨⟨i, t, x⟩ :: hs, ?_, fun a ha => ?_, congrArg (x :: ·) hmap⟩
    · rw [hlog, Mail.hand, handings_concat, List.append_assoc]
      rfl
    · rcases List.mem_cons.mp ha with rfl | ha
      · exact ⟨rfl, List.mem_cons_self⟩
      · exact ⟨(hown a ha).1, List.mem_cons_of_mem _ (hown a ha).2⟩

namespace Loop

variable {s s' : Loop} {l : Label}

/-! ## The invariant -/

theorem step_sourced (h : s.mail.Sourced) (hl : s.step l = some s') : s'.mail.Sourced := by
  cases step_effect hl with
  | quiet _ hm => exact hm ▸ h
  | received _ hm => exact hm ▸ h.receive ..
  | cleared _ hm =>
    refine h.concat (o := .cleared) (congrArg Mail.log hm) (fun x hx => by cases hx)
      (fun a ha => by cases ha) fun t xs hxs x hx => ⟨xs, ?_, hx⟩
    rw [← hxs, hm]
    rfl
  | started _ _ hm => exact hm ▸ h.start ..
  | @sent i _ w _ _ _ _ _ hm =>
    refine h.concat (o := .sent i w) (congrArg Mail.log hm) (fun x hx => by cases hx)
      (fun a ha => by cases ha) fun t xs hxs x hx => ⟨xs, ?_, hx⟩
    rw [← hxs, hm]
    rfl
  | «local» _ _ _ hm => exact hm ▸ h
  | polled _ _ _ hm => exact hm ▸ h
  | handed _ _ hitems _ hm => exact hm ▸ h.hand _ hitems
  | getters _ hg _ => exact h.getters hg

/-- The frames of the calls account for everything that has been handed out. -/
structure Accounted (s : Loop) : Prop where
  /-- every call accounts for what it has taken -/
  held : AllCalls Held s
  /-- whoever has taken something is a call -/
  known : ∀ h ∈ handings s.log, (s.calls h.call).isSome = true

namespace Accounted

theorem known_mono (h : s.Accounted)
    (hlog : handings s'.log = handings s.log)
    (hcalls : ∀ i, (s.calls i).isSome = true → (s'.calls i).isSome = true) :
    ∀ a ∈ handings s'.log, (s'.calls a.call).isSome = true := by
  intro a ha
  exact hcalls _ (h.known a (hlog ▸ ha))

theorem isSome_update {i j : ℕ} {task : Task}
    (hcalls : s'.calls = Function.update s.calls i (some task)) (h : (s.calls j).isSome = true) :
    (s'.calls j).isSome = true := by
  rw [hcalls]
  by_cases hj : j = i
  · subst hj
    rw [Function.update_self]
    rfl
  · rwa [Function.update_of_ne hj]

/-- A step in which nobody takes anything and no call moves. -/
theorem same (h : s.Accounted) (hcalls : s'.calls = s.calls)
    (hlog : handings s'.log = handings s.log) : s'.Accounted :=
  ⟨h.held.same (fun hf => hf.same hlog) hcalls, h.known_mono hlog fun _ hi => hcalls ▸ hi⟩

/-- A step in which nobody takes anything and call `i` moves. -/
theorem move {i : ℕ} {c : Call} {f f' : Frame} (h : s.Accounted) (hi : s.calls i = some ⟨c, f⟩)
    (hf : ∀ taken, f.Holds c taken → f'.Holds c taken)
    (hcalls : s'.calls = Function.update s.calls i (some ⟨c, f'⟩))
    (hlog : handings s'.log = handings s.log) : s'.Accounted := by
  refine ⟨h.held.update (fun hg => hg.same hlog) hcalls ?_,
    h.known_mono hlog fun j hj => isSome_update hcalls hj⟩
  exact ((h.held i c f hi).same hlog).move (hf _)

/-- A step in which call `i` takes the messages `hs`. -/
theorem takes {i : ℕ} {c : Call} {f f' : Frame} {hs : List Handing} (h : s.Accounted)
    (hi : s.calls i = some ⟨c, f⟩)
    (hcalls : s'.calls = Function.update s.calls i (some ⟨c, f'⟩))
    (hlog : handings s'.log = handings s.log ++ hs)
    (hown : ∀ a ∈ hs, a.call = i ∧ a.type ∈ c.responseTypes)
    (hf : f'.Holds c (handedTo i s.log ++ hs.map Handing.message)) : s'.Accounted := by
  refine ⟨fun j c' g hj => ?_, fun a ha => ?_⟩
  · by_cases hji : j = i
    · subst hji
      rw [hcalls, Function.update_self] at hj
      cases hj
      exact (h.held j c f hi).own hlog hown hf
    · rw [hcalls, Function.update_of_ne hji] at hj
      exact (h.held j c' g hj).other hlog fun a ha heq => hji (heq.symm.trans (hown a ha).1)
  · rw [hlog] at ha
    rcases List.mem_append.mp ha with ha | ha
    · exact isSome_update hcalls (h.known a ha)
    · rw [(hown a ha).1, hcalls, Function.update_self]
      rfl

/-- Nobody has taken anything in the name of a call that has not begun. -/
theorem handedTo_eq_nil (h : s.Accounted) {i : ℕ} (hi : s.calls i = none) :
    (∀ a ∈ handings s.log, a.call ≠ i) ∧ handedTo i s.log = [] := by
  have hne : ∀ a ∈ handings s.log, a.call ≠ i := by
    intro a ha heq
    have hsome := h.known a ha
    rw [heq, hi] at hsome
    cases hsome
  refine ⟨hne, List.map_eq_nil_iff.mpr (List.filter_eq_nil_iff.mpr fun a ha heq => ?_)⟩
  exact hne a ha (of_decide_eq_true heq)

end Accounted

/-- **Every step keeps the calls accounted for.** -/
theorem step_accounted (h : s.Accounted) (hl : s.step l = some s') : s'.Accounted := by
  have concat : ∀ {o}, handings [o] = [] → s'.log = s.log ++ [o] →
      handings s'.log = handings s.log := by
    intro o ho hlog
    rw [hlog, handings_concat, ho, List.append_nil]
  cases step_effect hl with
  | quiet hcalls hm => exact h.same hcalls (congrArg (fun m => handings m.log) hm)
  | received hcalls hm =>
    exact h.same hcalls (concat rfl ((congrArg Mail.log hm).trans (s.mail.receive_log ..)))
  | cleared hcalls hm => exact h.same hcalls (concat (o := .cleared) rfl (congrArg Mail.log hm))
  | @started i c now _ hi hcalls hm =>
    have hlog := concat (o := .started i c) rfl (congrArg Mail.log hm)
    obtain ⟨hne, hnil⟩ := h.handedTo_eq_nil hi
    refine ⟨h.held.update (fun hf => hf.same hlog) hcalls ⟨fun a ha heq => ?_, ?_⟩,
      h.known_mono hlog fun j hj => Accounted.isSome_update hcalls hj⟩
    · exact absurd heq (hne a (hlog ▸ ha))
    · have hsame : handedTo i s'.mail.log = handedTo i s.log :=
        congrArg (fun hs => (hs.filter fun a => a.call = i).map Handing.message) hlog
      exact hsame.trans hnil
  | @sent i c w todo t0 _ hi hcalls hm =>
    have hholds : ∀ taken, (Frame.sending (w :: todo) t0).Holds c taken →
        (Frame.sending todo t0).Holds c taken := fun _ h => h
    exact h.move hi hholds hcalls (concat (o := .sent i w) rfl (congrArg Mail.log hm))
  | «local» hi hf hcalls hm =>
    exact h.move hi (fun _ => .local hf) hcalls (congrArg (fun m => handings m.log) hm)
  | polled hi hf hcalls hm =>
    exact h.move hi (fun _ => .polls hf) hcalls (congrArg (fun m => handings m.log) hm)
  | @handed i c f f' t x rest _ _ hi hf _ hcalls hm =>
    obtain ⟨htype, hholds⟩ := (h.held i c f hi).holds.takes hf
    have hlog : handings s'.log = handings s.log ++ [⟨i, t, x⟩] :=
      (congrArg (fun m => handings m.log) hm).trans (handings_concat s.log (.handed i t x))
    refine h.takes hi hcalls hlog (fun a ha => ?_) hholds
    obtain rfl := List.mem_singleton.mp ha
    exact ⟨rfl, htype⟩
  | @getters i c t0 got _ hi hg hcalls =>
    obtain ⟨hs, hlog, hown, hmap⟩ := hg.handings
    obtain ⟨hraces, hnil⟩ : c.races = true ∧ handedTo i s.mail.log = [] := (h.held i c _ hi).holds
    refine h.takes hi hcalls hlog hown ⟨hraces, ?_⟩
    rw [show handedTo i s.log = [] from hnil, hmap]
    exact List.Perm.refl _

theorem run_accounted {ls : List Label} (h : Lts.run step new ls = some s) : s.Accounted := by
  refine Lts.run_invariant ⟨AllCalls.new, fun a ha => ?_⟩ (fun _ _ _ => step_accounted) h
  cases ha

theorem run_sourced {ls : List Label} (h : Lts.run step new ls = some s) : s.mail.Sourced :=
  Lts.run_invariant (I := fun s => s.mail.Sourced) .new (fun _ _ _ => step_sourced) h

/-! ## What the calls return -/

/-- **Every message is returned at most once, by a call that awaits it.** In every state that can be
reached, what has been handed to the calls are objects that were received, each of them once and the
objects of one type in the order of their arrival; each is of the type of its queue, which is one
the call awaits; and the result of a call that has returned accounts for all that was handed to
it. -/
theorem returns_handed {ls : List Label} (h : Lts.run step new ls = some s) :
    ((handings s.log).Pairwise fun a b => a.message.idx ≠ b.message.idx ∧
        (a.type = b.type → a.message.idx < b.message.idx)) ∧
      (∀ a ∈ handings s.log, s.log[a.message.idx]? = some (.received a.message) ∧
        a.message.typeStr = some a.type ∧
        ∃ task, s.calls a.call = some task ∧ a.type ∈ task.call.responseTypes) ∧
      ∀ i c r, s.calls i = some ⟨c, .returned r⟩ → c.Accounts (handedTo i s.log) r := by
  have hsourced := run_sourced h
  have haccounted := run_accounted h
  refine ⟨hsourced.once (run_conserved h), fun a ha => ?_, fun i c r hi => ?_⟩
  · obtain ⟨⟨c, f⟩, htask⟩ := Option.isSome_iff_exists.mp (haccounted.known a ha)
    exact ⟨(hsourced.handed a ha).real, (hsourced.handed a ha).typed, _, htask,
      (haccounted.held _ c f htask).types a ha rfl⟩
  · exact (haccounted.held i c _ hi).holds

/-- A burst of two requests takes the two replies. -/
def burstRun : List Label :=
  [.connect 0, .start 0 (.burstSameResponse [.obj [], .obj []] "a" 5) 0, .sent 0, .sent 0,
    .resume 0 0, .receive (.ok (.obj [("type", .str "a")])) 1, .resume 0 1, .resume 0 1,
    .receive (.ok (.obj [("type", .str "a")])) 2, .run, .resume 0 2]

theorem returns_handed_burstRun :
    ∃ s c ms, Lts.run step new burstRun = some s ∧ s.calls 0 = some ⟨c, .returned (.messages ms)⟩ ∧
      ms.length = 2 ∧ handedTo 0 s.log = ms := by
  have h : Lts.run step new burstRun = some _ := rfl
  obtain ⟨-, -, haccounts⟩ := returns_handed h
  exact ⟨_, _, _, h, rfl, rfl, (haccounts 0 _ _ rfl).1⟩

end Loop

end SasTests
