import SasTests.LoopSteps
import SasTests.Python.JsonLoads

/-!
# Which frames the receive loop survives

`_recv_loop` catches two exceptions of `json.loads`, and takes everything that `json.loads` returns
for a dictionary with a hashable `type`. A frame outside of that ends the task: nobody reads the
connection any more, and all later requests time out.

A run is seen from the connection here (`Traffic`): frames arrive as they were sent, and between
them the rest of the program does whatever it can, except touch the connection. `survives_iff` says
that the loop gets through, ignoring what it cannot use and delivering the rest, exactly when all
frames are `Harmless`.
-/

namespace SasTests

open Python

/-- What happens next, seen from the connection. -/
inductive Traffic
  /-- a frame arrives -/
  | frame (raw : Raw) (now : ℚ)
  /-- something else happens -/
  | other (l : Loop.Label)

/-- The step that this is. -/
def Traffic.label (maxDepth : ℕ) : Traffic → Loop.Label
  | frame raw now => .receive (loads maxDepth raw) now
  | other l => l

/-- The receive loop goes on after this frame: `json.loads` raises one of the exceptions that are
caught, or returns a dictionary whose `type` has a hash. -/
def Harmless (maxDepth : ℕ) (raw : Raw) : Prop :=
  match loads maxDepth raw with
  | .error e => e = .jsonDecodeError ∨ e = .typeError
  | .ok (.obj fields) => (Json.field fields "type").hashable = true
  | .ok _ => False

instance (maxDepth : ℕ) (raw : Raw) : Decidable (Harmless maxDepth raw) :=
  match h : loads maxDepth raw with
  | .error e => decidable_of_iff (e = .jsonDecodeError ∨ e = .typeError) (by rw [Harmless, h])
  | .ok (.obj fields) =>
    decidable_of_iff ((Json.field fields "type").hashable = true) (by rw [Harmless, h])
  | .ok .null => isFalse (by rw [Harmless, h]; exact id)
  | .ok (.bool _) => isFalse (by rw [Harmless, h]; exact id)
  | .ok (.num _) => isFalse (by rw [Harmless, h]; exact id)
  | .ok (.nonFinite _) => isFalse (by rw [Harmless, h]; exact id)
  | .ok (.str _) => isFalse (by rw [Harmless, h]; exact id)
  | .ok (.arr _) => isFalse (by rw [Harmless, h]; exact id)

/-- The same of a frame of which `json.loads` made `loaded`. -/
def HarmlessLoaded : Except PyError Json → Prop
  | .error e => e = .jsonDecodeError ∨ e = .typeError
  | .ok (.obj fields) => (Json.field fields "type").hashable = true
  | .ok _ => False

theorem harmlessLoaded_loads {maxDepth : ℕ} {raw : Raw} :
    HarmlessLoaded (loads maxDepth raw) ↔ Harmless maxDepth raw := Iff.rfl

/-- The object in a frame, if that is what it holds. -/
def usable (maxDepth : ℕ) (raw : Raw) : Option Json :=
  match loads maxDepth raw with
  | .ok (.obj fields) => some (.obj fields)
  | _ => none

namespace Loop

/-- A step that leaves the connection and the receive task alone. -/
def Label.leavesConnection : Label → Bool
  | .connect _ => false
  | .disconnect => false
  | .peerClosed => false
  | .receive _ _ => false
  | _ => true

/-- One step, seen from the connection. -/
def traffic (maxDepth : ℕ) (s : Loop) (t : Traffic) : Option Loop := s.step (t.label maxDepth)

/-- The frame is taken by the loop, which goes on: an object is delivered, anything else changes
nothing. -/
def Handled (maxDepth : ℕ) (s : Loop) : Traffic → Prop
  | .frame raw now => ∃ s', s.traffic maxDepth (.frame raw now) = some s' ∧
      s'.client.recvTask = some .running ∧ s'.calls = s.calls ∧
      s'.mail = match usable maxDepth raw with
        | some msg => s.mail.receive msg now
        | none => s.mail
  | .other _ => True

/-- The rest of the program can do what it does. -/
def Follows (s : Loop) : Traffic → Prop
  | .frame _ _ => True
  | .other l => (s.step l).isSome = true

/-- The receive loop consumes all frames of the traffic `ts` without terminating, and handles each
of them. -/
def Survives (maxDepth : ℕ) (s : Loop) (ts : List Traffic) : Prop :=
  (∃ s', Lts.run (traffic maxDepth) s ts = some s' ∧ s'.client.recvTask = some .running) ∧
    Lts.Along (traffic maxDepth) (Handled maxDepth) s ts

/-! ## The receive task -/

theorem runGetters_connection (s : Loop) (i j : ℕ) (ts : List String) :
    (s.runGetters i j ts).1.client.connection = s.client.connection := by
  induction ts generalizing s j with
  | nil => rfl
  | cons t ts ih => exact (ih _ _).trans (s.getPass_fields (i, j) t).2

theorem getPass_connection {s s' : Loop} {w : Waiter} {t : String} {o : Option Received}
    (h : s.getPass w t = (s', o)) : s'.client.connection = s.client.connection := by
  rw [← (s.getPass_fields w t).2, h]

theorem runGetter_connection (s : Loop) (i j : ℕ) :
    (s.runGetter i j).client.connection = s.client.connection := by
  rw [runGetter]
  split
  · split <;> rename_i h <;> exact (getPass_connection h :)
  · split
    · split <;> rename_i h <;> exact (getPass_connection h :)
    · rfl
  · rfl

theorem poll_connection (s : Loop) (i : ℕ) (c : Call) (deadline now : ℚ) :
    (s.poll i c deadline now).client.connection = s.client.connection := by
  rw [poll]
  split
  · rfl
  · split <;> rfl
  · split <;> rfl

/-- Only the connection, `connect` and `disconnect` have an effect on the connection and the receive
task. -/
theorem step_connection {s s' : Loop} {l : Label} (hl : l.leavesConnection = true)
    (h : s.step l = some s') : s'.client.connection = s.client.connection := by
  cases step_cases h with
  | connect | disconnect | peerClosed | receive => cases hl
  | start => exact WSClient.ensureQueues_connection ..
  | notConnected | sent | sendFails | afterSend | «return» | events => rfl
  | suspend hi hget => exact (getPass_connection hget :)
  | take hi hget => exact (getPass_connection hget :)
  | run => exact runGetter_connection ..
  | getters => exact s.runGetters_connection ..
  | wake | timeoutAny => exact (s.cancelGetters_fields ..).2.2
  | timeout => exact (s.cancelGetter_fields ..).2.2
  | poll => exact s.poll_connection ..

/-! ## The frames -/

/-- A pass of the loop that ends well leaves the connection and the receive task as they were. -/
theorem dispatch_connection {c c' : WSClient} {loaded : Except PyError Json} {idx : ℕ} {now : ℚ}
    {woken : Option Waiter} (h : c.dispatch loaded idx now = .ok (c', woken)) :
    c'.connection = c.connection := by
  rcases loaded with e | msg
  · cases e <;> cases h <;> rfl
  · have hd := WSClient.dispatch_ok h
    generalize destination _ _ = d at hd
    cases d with
    | ignored => rw [hd.1]
    | queue t =>
      obtain ⟨q, -, rfl, -⟩ := hd
      rfl
    | accumulator =>
      rw [hd.1]
      rfl

/-- **A harmless frame is handled.** -/
theorem handled_of_harmless {maxDepth : ℕ} {s : Loop} (hs : s.client.recvTask = some .running)
    {raw : Raw} (h : Harmless maxDepth raw) (now : ℚ) : s.Handled maxDepth (.frame raw now) := by
  have hstep : s.traffic maxDepth (.frame raw now) = some (s.receive (loads maxDepth raw) now) := by
    simp only [traffic, Traffic.label, step, hs, if_true]
  refine ⟨_, hstep, ?_⟩
  rw [Harmless] at h
  rw [usable]
  split at h
  · rename_i e he
    rw [he]
    obtain rfl | rfl := h <;> exact ⟨hs, rfl, rfl⟩
  · rename_i fields hf
    obtain ⟨c, woken, hd⟩ := s.client.dispatch_hashable s.log.length now h
    rw [hf]
    refine ⟨?_, (s.receive_cases _ _).1, receive_mail hd⟩
    rw [receive]
    rw [hd]
    exact (congrArg Prod.snd (dispatch_connection hd)).trans hs
  · exact h.elim

/-- A pass of the loop raises for any frame that is not harmless. -/
theorem dispatch_error_iff (c : WSClient) (loaded : Except PyError Json) (idx : ℕ) (now : ℚ) :
    (∃ e, c.dispatch loaded idx now = .error e) ↔ ¬ HarmlessLoaded loaded := by
  rcases loaded with e | msg
  · cases e with
    | jsonDecodeError | typeError =>
      refine iff_of_false ?_ fun h => h (by simp [HarmlessLoaded])
      rintro ⟨e, he⟩
      cases he
    | _ => exact iff_of_true ⟨_, rfl⟩ (by simp [HarmlessLoaded])
  · cases msg with
    | obj fields =>
      by_cases hhash : (Json.field fields "type").hashable = true
      · refine iff_of_false ?_ fun h => h hhash
        rintro ⟨e, he⟩
        obtain ⟨c', woken, hd⟩ := c.dispatch_hashable idx now hhash
        rw [hd] at he
        cases he
      · refine iff_of_true ⟨.typeError, ?_⟩ hhash
        simp only [WSClient.dispatch, Json.get_obj, bind, Except.bind, WSClient.inIgnoredTypes,
          Bool.eq_false_iff.mpr hhash, Bool.false_eq_true, if_false]
    | _ => exact iff_of_true ⟨_, rfl⟩ id

/-- **The receive task ends with an exception for any frame that is not harmless.** -/
theorem receive_failed_iff {s : Loop} (hs : s.client.recvTask = some .running)
    (loaded : Except PyError Json) (now : ℚ) :
    (∃ e, (s.receive loaded now).client.recvTask = some (.failed e)) ↔
      ¬ HarmlessLoaded loaded := by
  rw [← dispatch_error_iff s.client loaded s.log.length now, receive.eq_def]
  rcases hd : s.client.dispatch loaded s.log.length now with e | ⟨c, woken⟩
  · exact iff_of_true ⟨e, rfl⟩ ⟨e, rfl⟩
  · have hrunning : c.recvTask = some .running :=
      (congrArg Prod.snd (dispatch_connection hd)).trans hs
    refine iff_of_false ?_ nofun
    rintro ⟨e, he⟩
    cases hrunning.symm.trans he

theorem failed_of_not_harmless {maxDepth : ℕ} {s s' : Loop} {raw : Raw} {now : ℚ}
    (h : ¬ Harmless maxDepth raw) (hs' : s.traffic maxDepth (.frame raw now) = some s') :
    ∃ e, s'.client.recvTask = some (.failed e) := by
  simp only [traffic, Traffic.label, step] at hs'
  split at hs'
  · rename_i hs
    obtain rfl := Option.some.inj hs'
    exact (receive_failed_iff hs _ _).mpr (mt harmlessLoaded_loads.mp h)
  · cases hs'

/-- Surviving some traffic is handling its first part and surviving the rest. -/
theorem survives_cons {maxDepth : ℕ} {s s₁ : Loop} {t : Traffic} {ts : List Traffic}
    (hs₁ : s.traffic maxDepth t = some s₁) :
    s.Survives maxDepth (t :: ts) ↔ s.Handled maxDepth t ∧ s₁.Survives maxDepth ts := by
  rw [Survives, Survives, Lts.run_cons, hs₁, Option.bind_some, Lts.along_cons]
  constructor
  · rintro ⟨hrun, hhandled, halong⟩
    exact ⟨hhandled, hrun, halong s₁ hs₁⟩
  · rintro ⟨hhandled, hrun, halong⟩
    refine ⟨hrun, hhandled, fun s₂ hs₂ => ?_⟩
    obtain rfl := Option.some.inj (hs₁.symm.trans hs₂)
    exact halong

theorem forall_frame_cons {maxDepth : ℕ} {raw : Raw} {now : ℚ} {ts : List Traffic} :
    (∀ raw' now', Traffic.frame raw' now' ∈ Traffic.frame raw now :: ts → Harmless maxDepth raw') ↔
      Harmless maxDepth raw ∧ ∀ raw' now', Traffic.frame raw' now' ∈ ts → Harmless maxDepth raw' := by
  constructor
  · intro h
    exact ⟨h raw now (List.mem_cons_self ..), fun raw' now' hmem =>
      h raw' now' (List.mem_cons_of_mem _ hmem)⟩
  · rintro ⟨hraw, h⟩ raw' now' hmem
    rcases List.mem_cons.mp hmem with heq | hmem
    · cases heq
      exact hraw
    · exact h raw' now' hmem

/-- **The receive loop survives exactly the harmless frames**: while the connection stays open, and
whatever the rest of the program does between the frames, it consumes all frames, ignores those it
cannot use and delivers the objects, if and only if every frame is harmless. -/
theorem survives_iff {maxDepth : ℕ} {s : Loop} {ts : List Traffic}
    (hs : s.client.recvTask = some .running)
    (hopen : ∀ l, Traffic.other l ∈ ts → l.leavesConnection = true)
    (hfollow : Lts.Along (traffic maxDepth) Follows s ts) :
    s.Survives maxDepth ts ↔ ∀ raw now, Traffic.frame raw now ∈ ts → Harmless maxDepth raw := by
  induction ts generalizing s with
  | nil => exact ⟨fun _ _ _ h => (List.not_mem_nil h).elim, fun _ => ⟨⟨s, rfl, hs⟩, Lts.along_nil⟩⟩
  | cons t ts ih =>
    obtain ⟨hfollow, hfollow'⟩ := Lts.along_cons.mp hfollow
    have hopen' : ∀ l, Traffic.other l ∈ ts → l.leavesConnection = true :=
      fun l hl => hopen l (List.mem_cons_of_mem _ hl)
    cases t with
    | frame raw now =>
      rw [forall_frame_cons]
      by_cases hraw : Harmless maxDepth raw
      · have hhandled := handled_of_harmless hs hraw now
        obtain ⟨s₁, hs₁, hrec₁, -⟩ := id hhandled
        rw [survives_cons hs₁, ih hrec₁ hopen' (hfollow' s₁ hs₁)]
        exact and_congr_left fun _ => iff_of_true hhandled hraw
      · -- the task ends with an exception, so it is not running after this frame
        refine iff_of_false ?_ fun h => hraw h.1
        rintro ⟨-, halong⟩
        obtain ⟨⟨s₁, hs₁, hrec₁, -⟩, -⟩ := Lts.along_cons.mp halong
        obtain ⟨e, he⟩ := failed_of_not_harmless hraw hs₁
        rw [hrec₁] at he
        cases he
    | other l =>
      obtain ⟨s₁, hs₁⟩ := Option.isSome_iff_exists.mp hfollow
      have hrec₁ : s₁.client.recvTask = some .running :=
        (congrArg Prod.snd (step_connection (hopen l (List.mem_cons_self ..)) hs₁)).trans hs
      have hstep : s.traffic maxDepth (.other l) = some s₁ := hs₁
      rw [survives_cons hstep, ih hrec₁ hopen' (hfollow' s₁ hs₁)]
      simp [Handled]

/-- A text that is not JSON and then an object, with a call that begins in between. -/
def harmlessTraffic : List Traffic :=
  [.frame (.str "hello") 1, .other (.start 0 (.waitFor "a" 5) 2),
    .frame (.bytes [0x7B, 0x22, 0x74, 0x79, 0x70, 0x65, 0x22, 0x3A, 0x22, 0x61, 0x22, 0x7D]) 3]

theorem survives_harmlessTraffic :
    ∃ s, Lts.run step new [.connect 0] = some s ∧ s.Survives 1000 harmlessTraffic := by
  refine ⟨_, rfl, (survives_iff rfl ?_ ?_).mpr ?_⟩
  · intro l hl
    simp only [harmlessTraffic, List.mem_cons, reduceCtorEq, Traffic.other.injEq, List.not_mem_nil,
      or_false, false_or] at hl
    rw [hl]
    rfl
  · refine Lts.along_cons.mpr ⟨trivial, fun s₁ hs₁ => Lts.along_cons.mpr ⟨?_, fun s₂ hs₂ => ?_⟩⟩
    · cases hs₁
      rfl
    · exact Lts.along_cons.mpr ⟨trivial, fun s₃ hs₃ => Lts.along_nil⟩
  · intro raw now hmem
    simp only [harmlessTraffic, List.mem_cons, reduceCtorEq, Traffic.frame.injEq, List.not_mem_nil,
      or_false, false_or] at hmem
    rcases hmem with ⟨rfl, -⟩ | ⟨rfl, -⟩ <;> decide

/-- A text frame that holds an empty list ends the receive task with an `AttributeError`, and the
object in the next frame is not received. -/
theorem list_ends_recvLoop :
    ∃ s s', Lts.run step new [.connect 0] = some s ∧ s.client.recvTask = some .running ∧
      s.traffic 1000 (.frame (.str "[]") 1) = some s' ∧
      s'.client.recvTask = some (.failed .attributeError) ∧
      s'.traffic 1000 (.frame (.str "\x7b\"type\":\"a\"\x7d") 2) = none ∧
      ¬ s.Survives 1000 [.frame (.str "[]") 1, .frame (.str "\x7b\"type\":\"a\"\x7d") 2] := by
  refine ⟨_, _, rfl, rfl, rfl, rfl, rfl, ?_⟩
  rintro ⟨⟨s', hrun, -⟩, -⟩
  cases hrun

end Loop

end SasTests
