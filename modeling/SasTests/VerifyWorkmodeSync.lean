import SasTests.Lib.Occurrence
import SasTests.Lib.Run
import SasTests.Python.Json

/-!
# The check of the work mode

`_verify_workmode_sync` switches the work mode back and forth, and checks for each switch that the
server confirms it, that the database has the new mode, and that the state machine reports it. Every
wait of the script throws away what it passes over, and while the script sleeps messages pile up.

A `State` is the script together with what the server has sent so far. The server may send anything
at any time, but it answers a request only after it was sent, and once (`ServerKeeps`). Each check
then judges its own answers, and a status that came after the answer of the database
(`judges_right`). The reason is that nothing is left over: at any time the answers that the script
has read are those to all requests sent but the one it is waiting for (`Inv.sent_eq`).

Waits do not time out here. Positions in the stream and the list of judgements are history
variables.
-/

namespace SasTests.VerifyWorkmodeSync

open Python Occurrence

/-! ## The code -/

/-- A frame, as what `json.loads` makes of it. -/
abbrev Incoming : Type := Except PyError Json

/-- What the script sends. -/
inductive Request
  /-- `{"type": "login", ..}` -/
  | login
  /-- `{"type": "system_params_batch_update", ..}` with `"param_value": mode` -/
  | update (mode : String)
  /-- `data:request:system_params` -/
  | query
  deriving DecidableEq

/-- What a call of `_recv_until` waits for. -/
inductive Wanted
  | login
  | ack
  | params
  | status
  deriving DecidableEq

/-- `x or {}` -/
def orEmpty (x : Json) : Json := if x.truthy then x else .obj []

/-- The predicate of the call. -/
def Wanted.predicate : Wanted → Json → Except PyError Json
  | login, m => do
    let type ← m.get "type"
    return if type.eqStr "login_response" then m else .null
  | ack, m => do
    let type ← m.get "type"
    return if type.eqStr "system_params_batch_update_response" then m else .null
  | params, m => do
    let type ← m.get "type"
    if type.eqStr "data_response" then
      let dataType ← m.get "data_type"
      if dataType.eqStr "system_params" then
        let data ← m.get "data"
        return orEmpty data
    return .null
  | status, m => do
    let type ← m.get "type"
    if type.eqStr "hardware_status_update" then
      let data ← m.get "data"
      let jobStatistics ← (orEmpty data).get "job_statistics"
      (orEmpty jobStatistics).get "work_mode"
    else return .null

/-- A `ValueError`, or an exception of a class derived from it. -/
def isValueError : PyError → Bool
  | .jsonDecodeError => true
  | .unicodeDecodeError => true
  | .unicodeEncodeError => true
  | .valueError => true
  | .valueErrorText _ => true
  | _ => false

/-- One pass of the loop in `_recv_until`: it returns what is not `None`. -/
def pass (w : Wanted) : Incoming → Except PyError Json
  | .error e => if isValueError e ∨ e = .typeError then .ok .null else .error e
  | .ok msg => w.predicate msg

/-- What a call of `check_mode` judged, and what it returned. -/
structure Judgement where
  mode : String
  /-- where in the stream the update response stood -/
  ack : ℕ
  /-- where the answer of the database stood -/
  params : ℕ
  /-- where the status stood -/
  status : ℕ
  /-- what `check_mode` returned -/
  result : Bool

/-- Where the script is, with the local variables that it still needs: the mode of the current
check, `ok`, the modes still to come, and where the answers stood that were judged. -/
inductive Pc
  | start
  | awaitLogin
  /-- between two checks -/
  | next (todo : List String)
  | awaitAck (mode : String) (todo : List String)
  /-- in `asyncio.sleep` -/
  | settling (mode : String) (todo : List String) (ok : Bool) (ack : ℕ)
  | awaitParams (mode : String) (todo : List String) (ok : Bool) (ack : ℕ)
  | awaitStatus (mode : String) (todo : List String) (ok : Bool) (ack params : ℕ)
  /-- the process ended with this status -/
  | exited (status : ℕ)
  /-- the process ended with an exception -/
  | raised (e : PyError)

/-- The call of `_recv_until` that the script is in. -/
def Pc.wants : Pc → Option Wanted
  | awaitLogin => some .login
  | awaitAck _ _ => some .ack
  | awaitParams _ _ _ _ => some .params
  | awaitStatus _ _ _ _ _ => some .status
  | _ => none

/-- The script and the stream. -/
structure State where
  pc : Pc
  /-- `rounds` -/
  rounds : ℤ
  /-- `failures` -/
  failures : ℕ
  /-- what was sent -/
  sent : List Request
  /-- what has arrived -/
  arrived : List Incoming
  /-- how much of it the script has taken -/
  read : ℕ
  /-- the finished checks -/
  judged : List Judgement

/-- The start of the script. -/
def start (rounds : ℤ) : State := ⟨.start, rounds, 0, [], [], 0, []⟩

/-- The modes that are checked in `rounds` rounds. -/
def modes (rounds : ℤ) : List String :=
  (List.replicate rounds.toNat ["module", "screw"]).flatten

namespace State

/-- The script sends `r`, and goes on at `pc`. -/
def send (s : State) (r : Request) (pc : Pc) : State := { s with sent := s.sent ++ [r], pc := pc }

/-- `_recv_until` returned `r`, which it made of the message at position `n`. -/
def returned (s : State) (r : Json) (n : ℕ) : Except PyError State :=
  match s.pc with
  | .awaitLogin => do
    let success ← r.get "success"
    return { s with pc := if success.truthy then .next (modes s.rounds) else .exited 1 }
  | .awaitAck mode todo => do
    let success ← r.get "success"
    return { s with pc := .settling mode todo success.truthy n }
  | .awaitParams mode todo ok ack => do
    let dbMode ← r.get "WorkMode"
    return { s with pc := .awaitStatus mode todo (ok && dbMode.eqStr mode) ack n }
  | .awaitStatus mode todo ok ack params =>
    let ok := ok && r.eqStr mode
    return { s with
      pc := .next todo
      failures := if ok then s.failures else s.failures + 1
      judged := s.judged ++ [⟨mode, ack, params, n, ok⟩] }
  | _ => return s

/-- The script in a wait for `w` takes the frame `f`. -/
def take (s : State) (w : Wanted) (f : Incoming) : State :=
  let s' := { s with read := s.read + 1 }
  match pass w f with
  | .error e => { s' with pc := .raised e }
  | .ok .null => s'
  | .ok r => match s'.returned r s.read with
    | .ok s' => s'
    | .error e => { s' with pc := .raised e }

end State

/-- What can happen next. -/
inductive Label
  /-- a frame arrives -/
  | arrive (f : Incoming)
  /-- the script goes on -/
  | go

/-- One step. -/
def step (s : State) : Label → Option State
  | .arrive f => some { s with arrived := s.arrived ++ [f] }
  | .go => match s.pc with
    | .start => some (s.send .login .awaitLogin)
    | .next [] => some { s with pc := .exited (if s.failures ≠ 0 then 1 else 0) }
    | .next (mode :: todo) => some (s.send (.update mode) (.awaitAck mode todo))
    | .settling mode todo ok ack => some (s.send .query (.awaitParams mode todo ok ack))
    | .exited _ => none
    | .raised _ => none
    | pc => pc.wants.bind fun w => (s.arrived[s.read]?).map (s.take w)

/-- The script sends `r` at `pc`, and goes on at `pc'`. -/
inductive Sends : Pc → Request → Pc → Prop
  | login : Sends .start .login .awaitLogin
  | update (mode : String) (todo : List String) :
    Sends (.next (mode :: todo)) (.update mode) (.awaitAck mode todo)
  | query (mode : String) (todo : List String) (ok : Bool) (ack : ℕ) :
    Sends (.settling mode todo ok ack) .query (.awaitParams mode todo ok ack)

/-- **What the script can do**: send a request, end, or take a frame. -/
theorem go_cases {s s' : State} (h : step s .go = some s') :
    (∃ r pc, Sends s.pc r pc ∧ s' = s.send r pc) ∨
      (s.pc = .next [] ∧ s' = { s with pc := .exited (if s.failures ≠ 0 then 1 else 0) }) ∨
      ∃ w f, s.pc.wants = some w ∧ s.arrived[s.read]? = some f ∧ s' = s.take w f := by
  have htake : ∀ {w}, s.pc.wants = some w → (s.arrived[s.read]?).map (s.take w) = some s' →
      ∃ w f, s.pc.wants = some w ∧ s.arrived[s.read]? = some f ∧ s' = s.take w f := by
    intro w hwants hmap
    obtain ⟨f, hf, rfl⟩ := Option.map_eq_some_iff.mp hmap
    exact ⟨w, f, hwants, hf, rfl⟩
  cases hpc : s.pc with
  | start =>
    simp only [step, hpc] at h
    exact .inl ⟨_, _, .login, (Option.some.inj h).symm⟩
  | settling mode todo ok ack =>
    simp only [step, hpc] at h
    exact .inl ⟨_, _, .query .., (Option.some.inj h).symm⟩
  | next todo =>
    cases todo with
    | nil =>
      simp only [step, hpc] at h
      exact .inr (.inl ⟨rfl, (Option.some.inj h).symm⟩)
    | cons mode todo =>
      simp only [step, hpc] at h
      exact .inl ⟨_, _, .update .., (Option.some.inj h).symm⟩
  | exited status | raised e =>
    simp only [step, hpc] at h
    cases h
  | awaitLogin | awaitAck mode todo | awaitParams mode todo ok ack
  | awaitStatus mode todo ok ack params =>
    rw [hpc] at htake
    simp only [step, hpc] at h
    exact .inr (.inr (htake rfl h))

/-- The script stops only at its end, or while it waits for a frame. -/
theorem stops {s : State} (h : step s .go = none) :
    (∃ status, s.pc = .exited status) ∨ (∃ e, s.pc = .raised e) ∨
      s.pc.wants ≠ none ∧ s.arrived.length ≤ s.read := by
  cases hpc : s.pc with
  | start | settling mode todo ok ack =>
    simp only [step, hpc] at h
    cases h
  | next todo =>
    cases todo with
    | nil | cons mode todo =>
      simp only [step, hpc] at h
      cases h
  | exited status => exact .inl ⟨status, rfl⟩
  | raised e => exact .inr (.inl ⟨e, rfl⟩)
  | awaitLogin | awaitAck mode todo | awaitParams mode todo ok ack
  | awaitStatus mode todo ok ack params =>
    simp only [step, hpc] at h
    exact .inr (.inr ⟨nofun, List.getElem?_eq_none_iff.mp (Option.map_eq_none_iff.mp h)⟩)

/-! ## What the messages say -/

/-- The value under a key of a dictionary; `None` if there is none. -/
def member (x : Json) (key : String) : Json :=
  match x with
  | .obj fields => Json.field fields key
  | _ => .null

@[simp] theorem member_obj (fields : List (String × Json)) (key : String) :
    member (.obj fields) key = Json.field fields key := rfl

/-- `x is None` -/
def isNone : Json → Bool
  | .null => true
  | _ => false

/-- `job_statistics.work_mode` of a status -/
def workModeOf (m : Json) : Json := member (member (member m "data") "job_statistics") "work_mode"

/-- The frame is what a wait for `w` waits for. -/
def Wanted.fits : Wanted → Incoming → Bool
  | _, .error _ => false
  | login, .ok m => (member m "type").eqStr "login_response"
  | ack, .ok m => (member m "type").eqStr "system_params_batch_update_response"
  | params, .ok m =>
    (member m "type").eqStr "data_response" && (member m "data_type").eqStr "system_params"
  | status, .ok m =>
    (member m "type").eqStr "hardware_status_update" && !isNone (workModeOf m)

/-- What such a wait returns for it. -/
def Wanted.value : Wanted → Json → Json
  | login, m => m
  | ack, m => m
  | params, m => orEmpty (member m "data")
  | status, m => workModeOf m

/-- An object. -/
def isObject : Json → Bool
  | .obj _ => true
  | _ => false

/-- An object or `None`. -/
def IsObjectOrNone (x : Json) : Prop := isObject x = true ∨ isNone x = true

/-- The frame is not JSON, or an object in which `data` and `job_statistics` are objects, `None` or
absent. -/
def Readable : Incoming → Prop
  | .error e => isValueError e = true ∨ e = .typeError
  | .ok m => isObject m = true ∧ IsObjectOrNone (member m "data") ∧
    IsObjectOrNone (member (member m "data") "job_statistics")

instance : DecidablePred IsObjectOrNone := fun _ => inferInstanceAs (Decidable (_ ∨ _))

instance : DecidablePred Readable
  | .error _ => inferInstanceAs (Decidable (_ ∨ _))
  | .ok _ => inferInstanceAs (Decidable (_ ∧ _))

theorem get_orEmpty {x : Json} (h : IsObjectOrNone x) (key : String) :
    (orEmpty x).get key = .ok (member x key) := by
  cases x with
  | null => rfl
  | obj fields => cases fields <;> rfl
  | _ => rcases h with h | h <;> cases h

theorem isNone_iff {x : Json} : isNone x = true ↔ x = .null := by
  cases x <;> simp [isNone]

theorem orEmpty_ne_null {x : Json} (h : IsObjectOrNone x) : orEmpty x ≠ .null := by
  intro hnull
  have hget := get_orEmpty h ""
  rw [hnull] at hget
  cases hget

/-- What the predicate of a wait makes of an object. -/
theorem predicate_eq {fields : List (String × Json)} (h : Readable (.ok (.obj fields)))
    (w : Wanted) :
    w.predicate (.obj fields) =
      .ok (if w.fits (.ok (.obj fields)) then w.value (.obj fields) else .null) := by
  obtain ⟨-, hdata, hjob⟩ := h
  rw [member_obj] at hdata hjob
  cases w with
  | login | ack => rfl
  | params =>
    simp only [Wanted.predicate, Wanted.fits, Wanted.value, Json.get_obj, bind, Except.bind,
      member_obj]
    by_cases htype : (Json.field fields "type").eqStr "data_response" = true
    · by_cases hdataType : (Json.field fields "data_type").eqStr "system_params" = true
      · simp [htype, hdataType, pure, Except.pure]
      · simp [htype, hdataType, pure, Except.pure]
    · simp [htype, pure, Except.pure]
  | status =>
    have hmode : workModeOf (.obj fields) =
        member (member (Json.field fields "data") "job_statistics") "work_mode" := rfl
    simp only [Wanted.predicate, Wanted.fits, Wanted.value, Json.get_obj, bind, Except.bind,
      get_orEmpty hdata, get_orEmpty hjob, ← hmode, member_obj]
    by_cases htype : (Json.field fields "type").eqStr "hardware_status_update" = true
    · by_cases hnone : isNone (workModeOf (.obj fields)) = true
      · simp [htype, isNone_iff.mp hnone]
      · simp [htype, hnone]
    · simp [htype, pure, Except.pure]

/-- What a wait returns is not `None`. -/
theorem value_ne_null {fields : List (String × Json)} (h : Readable (.ok (.obj fields)))
    {w : Wanted} (hfits : w.fits (.ok (.obj fields)) = true) : w.value (.obj fields) ≠ .null := by
  cases w with
  | login | ack => exact nofun
  | params => exact orEmpty_ne_null h.2.1
  | status =>
    simp only [Wanted.fits, Bool.and_eq_true, Bool.not_eq_true'] at hfits
    intro hnull
    have hnone : isNone (workModeOf (.obj fields)) = true := isNone_iff.mpr hnull
    rw [hfits.2] at hnone
    cases hnone

/-- **A wait passes over what it does not wait for, and returns what it does.** -/
theorem pass_eq {f : Incoming} (h : Readable f) (w : Wanted) :
    (w.fits f = false ∧ pass w f = .ok .null) ∨
      ∃ fields, f = .ok (.obj fields) ∧ w.fits f = true ∧ w.value (.obj fields) ≠ .null ∧
        pass w f = .ok (w.value (.obj fields)) := by
  rcases f with e | m
  · refine .inl ⟨?_, if_pos h⟩
    cases w <;> rfl
  · cases m with
    | obj fields =>
      cases hfits : w.fits (.ok (.obj fields)) with
      | false =>
        refine .inl ⟨rfl, (predicate_eq h w).trans ?_⟩
        rw [hfits]
        rfl
      | true =>
        refine .inr ⟨fields, rfl, rfl, value_ne_null h hfits, (predicate_eq h w).trans ?_⟩
        rw [hfits]
        rfl
    | _ => cases h.1

/-! ## The server -/

/-- What the answer to a request is to a wait. -/
def Request.wanted : Request → Wanted
  | login => .login
  | update _ => .ack
  | query => .params

/-- The mode that an update writes. -/
def Request.mode : Request → Option String
  | update mode => some mode
  | _ => none

/-- How many requests were sent whose answer a wait for `w` takes. -/
def State.sentFor (s : State) (w : Wanted) : ℕ := s.sent.countP fun r => r.wanted = w

/-- What the server sends is readable, and it answers a request after it was sent, and once. -/
def ServerKeeps (s : State) : Label → Prop
  | .arrive f => Readable f ∧
      ∀ w, w ≠ .status → w.fits f = true → s.arrived.countP w.fits < s.sentFor w
  | .go => True

/-- A condition on the answers is one on each of their kinds. -/
theorem forall_ne_status {P : Wanted → Prop} :
    (∀ w, w ≠ .status → P w) ↔ P .login ∧ P .ack ∧ P .params := by
  refine ⟨fun h => ⟨h _ nofun, h _ nofun, h _ nofun⟩, fun ⟨hlogin, hack, hparams⟩ w hw => ?_⟩
  cases w with
  | login => exact hlogin
  | ack => exact hack
  | params => exact hparams
  | status => exact absurd rfl hw

instance (s : State) : ∀ l, Decidable (ServerKeeps s l)
  | .arrive f => decidable_of_iff (Readable f ∧ _) (and_congr_right fun _ => forall_ne_status.symm)
  | .go => isTrue trivial

/-! ## Judgements -/

/-- The message at a position of the stream. -/
def messageAt (arrived : List Incoming) (n : ℕ) : Json :=
  match arrived[n]? with
  | some (.ok m) => m
  | _ => .null

/-- It reports success. -/
def successAt (arrived : List Incoming) (n : ℕ) : Bool :=
  (member (messageAt arrived n) "success").truthy

/-- The work mode in an answer of the database. -/
def dbModeAt (arrived : List Incoming) (n : ℕ) : Json :=
  member (member (messageAt arrived n) "data") "WorkMode"

/-- The work mode in a status. -/
def workModeAt (arrived : List Incoming) (n : ℕ) : Json := workModeOf (messageAt arrived n)

/-- The check judged its own answers and the first status after them that has a work mode, and
returned `True` exactly if the first reports success and the other two the mode just written. -/
structure Judges (arrived : List Incoming) (i : ℕ) (j : Judgement) : Prop where
  ack : IsNth (Wanted.fits .ack) arrived i j.ack
  params : IsNth (Wanted.fits .params) arrived i j.params
  status : IsFirstAfter (Wanted.fits .status) arrived j.params j.status
  result : j.result = true ↔ successAt arrived j.ack = true ∧
    dbModeAt arrived j.params = .str j.mode ∧ workModeAt arrived j.status = .str j.mode

/-- The login response reports success, or not. -/
def LoggedIn (arrived : List Incoming) (success : Bool) : Prop :=
  ∃ n, IsNth (Wanted.fits .login) arrived 0 n ∧ successAt arrived n = success

theorem messageAt_append {arrived : List Incoming} {n : ℕ} (h : n < arrived.length)
    (t : List Incoming) : messageAt (arrived ++ t) n = messageAt arrived n := by
  rw [messageAt, List.getElem?_append_left h, messageAt]

theorem successAt_append {arrived : List Incoming} {n : ℕ} (h : n < arrived.length)
    (t : List Incoming) : successAt (arrived ++ t) n = successAt arrived n := by
  rw [successAt, messageAt_append h, successAt]

theorem dbModeAt_append {arrived : List Incoming} {n : ℕ} (h : n < arrived.length)
    (t : List Incoming) : dbModeAt (arrived ++ t) n = dbModeAt arrived n := by
  rw [dbModeAt, messageAt_append h, dbModeAt]

theorem workModeAt_append {arrived : List Incoming} {n : ℕ} (h : n < arrived.length)
    (t : List Incoming) : workModeAt (arrived ++ t) n = workModeAt arrived n := by
  rw [workModeAt, messageAt_append h, workModeAt]

theorem messageAt_eq {arrived : List Incoming} {n : ℕ} {m : Json}
    (h : arrived[n]? = some (.ok m)) : messageAt arrived n = m := by
  rw [messageAt, h]

theorem Judges.append {arrived : List Incoming} {i : ℕ} {j : Judgement} (h : Judges arrived i j)
    (t : List Incoming) : Judges (arrived ++ t) i j := by
  obtain ⟨a, ha, -⟩ := h.status.found
  obtain ⟨hstatus, -⟩ := List.getElem?_eq_some_iff.mp ha
  refine ⟨h.ack.append t, h.params.append t, h.status.append t, ?_⟩
  rw [successAt_append h.ack.lt_length, dbModeAt_append h.params.lt_length,
    workModeAt_append hstatus]
  exact h.result

theorem LoggedIn.append {arrived : List Incoming} {success : Bool} (h : LoggedIn arrived success)
    (t : List Incoming) : LoggedIn (arrived ++ t) success := by
  obtain ⟨n, hn, hsuccess⟩ := h
  exact ⟨n, hn.append t, (successAt_append hn.lt_length t).trans hsuccess⟩

/-- There is one login response. -/
theorem LoggedIn.unique {arrived : List Incoming} {b b' : Bool} (h : LoggedIn arrived b)
    (h' : LoggedIn arrived b') : b = b' := by
  obtain ⟨n, hn, rfl⟩ := h
  obtain ⟨m, hm, rfl⟩ := h'
  rw [hn.unique hm]

/-- What a wait for `w` waits for has not arrived: not all requests have their answers, or no status
with a work mode stands behind the answer of the database in the current check. -/
def State.Missing (s : State) : Wanted → Prop
  | .status => ∃ params, IsNth (Wanted.fits .params) s.arrived s.judged.length params ∧
      ∀ (k : ℕ) f, params < k → s.arrived[k]? = some f → Wanted.fits .status f = false
  | w => s.arrived.countP w.fits < s.sentFor w

/-! ## The invariant -/

/-- How many answers of a kind the script has read. -/
def State.readOf (s : State) (w : Wanted) : ℕ := (s.arrived.take s.read).countP w.fits

/-- How many of them belong to the current check. -/
def Pc.hasRead : Pc → Wanted → ℕ
  | settling _ _ _ _, .ack => 1
  | awaitParams _ _ _ _, .ack => 1
  | awaitStatus _ _ _ _ _, .ack => 1
  | awaitStatus _ _ _ _ _, .params => 1
  | _, _ => 0

/-- The mode of the current check, if there is one. -/
def Pc.mode : Pc → List String
  | awaitAck mode _ => [mode]
  | settling mode _ _ _ => [mode]
  | awaitParams mode _ _ _ => [mode]
  | awaitStatus mode _ _ _ _ => [mode]
  | _ => []

/-- What the local variables say about the stream. -/
def Progress (s : State) : Pc → Prop
  | .start => s.judged = [] ∧ s.readOf .login = 0
  | .awaitLogin => s.judged = [] ∧ s.readOf .login = 0
  | .next todo => LoggedIn s.arrived true ∧ s.judged.map Judgement.mode ++ todo = modes s.rounds
  | .awaitAck mode todo =>
    LoggedIn s.arrived true ∧ s.judged.map Judgement.mode ++ mode :: todo = modes s.rounds
  | .settling mode todo ok ack =>
    LoggedIn s.arrived true ∧ s.judged.map Judgement.mode ++ mode :: todo = modes s.rounds ∧
      IsNth (Wanted.fits .ack) s.arrived s.judged.length ack ∧ successAt s.arrived ack = ok
  | .awaitParams mode todo ok ack =>
    LoggedIn s.arrived true ∧ s.judged.map Judgement.mode ++ mode :: todo = modes s.rounds ∧
      IsNth (Wanted.fits .ack) s.arrived s.judged.length ack ∧ successAt s.arrived ack = ok
  | .awaitStatus mode todo ok ack params =>
    LoggedIn s.arrived true ∧ s.judged.map Judgement.mode ++ mode :: todo = modes s.rounds ∧
      IsNth (Wanted.fits .ack) s.arrived s.judged.length ack ∧
      IsNth (Wanted.fits .params) s.arrived s.judged.length params ∧
      (ok = true ↔ successAt s.arrived ack = true ∧ dbModeAt s.arrived params = .str mode) ∧
      params < s.read ∧
      ∀ k f, params < k → k < s.read → s.arrived[k]? = some f → Wanted.fits .status f = false
  | .exited status =>
    LoggedIn s.arrived false ∧ s.judged = [] ∧ status = 1 ∨
      LoggedIn s.arrived true ∧ s.judged.map Judgement.mode = modes s.rounds ∧
        status = if s.failures ≠ 0 then 1 else 0
  | .raised _ => False

/-- What holds in every state. -/
structure Inv (s : State) : Prop where
  readable : ∀ f ∈ s.arrived, Readable f
  read_le : s.read ≤ s.arrived.length
  /-- all requests but the one the script is waiting for are answered, and the answers read -/
  sent_eq : ∀ w, w ≠ .status → s.sentFor w = s.readOf w + if s.pc.wants = some w then 1 else 0
  arrived_le : ∀ w, w ≠ .status → s.arrived.countP w.fits ≤ s.sentFor w
  readOf_ack : s.readOf .ack = s.judged.length + s.pc.hasRead .ack
  readOf_params : s.readOf .params = s.judged.length + s.pc.hasRead .params
  /-- the modes that were written are those of the checks -/
  written : s.sent.filterMap Request.mode = s.judged.map Judgement.mode ++ s.pc.mode
  failures : s.failures = s.judged.countP fun j => !j.result
  judges : ∀ i j, s.judged[i]? = some j → Judges s.arrived i j
  progress : Progress s s.pc

theorem inv_start (rounds : ℤ) : Inv (start rounds) where
  readable := nofun
  read_le := Nat.le_refl _
  sent_eq := fun _ _ => rfl
  arrived_le := fun _ _ => Nat.le_refl _
  readOf_ack := rfl
  readOf_params := rfl
  written := rfl
  failures := rfl
  judges := nofun
  progress := ⟨rfl, rfl⟩

/-! ## Arrivals and requests -/

theorem readOf_arrive {s : State} (h : s.read ≤ s.arrived.length) (f : Incoming) (w : Wanted) :
    ({ s with arrived := s.arrived ++ [f] } : State).readOf w = s.readOf w := by
  rw [State.readOf, List.take_append_of_le_length h, State.readOf]

/-- What the local variables say stays true when more arrives. -/
theorem Progress.arrive {s : State} {pc : Pc} (h : Progress s pc)
    (hread : s.read ≤ s.arrived.length) (f : Incoming) :
    Progress { s with arrived := s.arrived ++ [f] } pc := by
  cases pc with
  | start | awaitLogin => exact ⟨h.1, (readOf_arrive hread f .login).trans h.2⟩
  | next todo => exact ⟨h.1.append _, h.2⟩
  | awaitAck mode todo => exact ⟨h.1.append _, h.2⟩
  | settling mode todo ok ack | awaitParams mode todo ok ack =>
    obtain ⟨hlogin, hmodes, hack, hok⟩ := h
    exact ⟨hlogin.append _, hmodes, hack.append _, (successAt_append hack.lt_length _).trans hok⟩
  | awaitStatus mode todo ok ack params =>
    obtain ⟨hlogin, hmodes, hack, hparams, hok, hlt, hbetween⟩ := h
    refine ⟨hlogin.append _, hmodes, hack.append _, hparams.append _, ?_, hlt, ?_⟩
    · rw [successAt_append hack.lt_length, dbModeAt_append hparams.lt_length]
      exact hok
    · intro k g hparams hk hg
      apply hbetween k g hparams hk
      rwa [List.getElem?_append_left (Nat.lt_of_lt_of_le hk hread)] at hg
  | exited status =>
    exact h.imp (fun h => ⟨h.1.append _, h.2⟩) fun h => ⟨h.1.append _, h.2⟩
  | raised e => exact h

theorem Inv.arrive {s : State} (h : Inv s) {f : Incoming} (hf : ServerKeeps s (.arrive f)) :
    Inv { s with arrived := s.arrived ++ [f] } where
  readable := by
    intro g hg
    rcases List.mem_append.mp hg with hg | hg
    · exact h.readable g hg
    · exact List.mem_singleton.mp hg ▸ hf.1
  read_le := by
    rw [List.length_append]
    exact Nat.le_trans h.read_le (Nat.le_add_right _ _)
  sent_eq := fun w hw => (h.sent_eq w hw).trans (by rw [readOf_arrive h.read_le])
  arrived_le := by
    intro w hw
    rw [List.countP_append, List.countP_singleton]
    split
    · rename_i hfits
      exact hf.2 w hw hfits
    · exact h.arrived_le w hw
  readOf_ack := (readOf_arrive h.read_le f .ack).trans h.readOf_ack
  readOf_params := (readOf_arrive h.read_le f .params).trans h.readOf_params
  written := h.written
  failures := h.failures
  judges := fun i j hj => (h.judges i j hj).append _
  progress := h.progress.arrive h.read_le f

theorem sentFor_send (s : State) (r : Request) (pc : Pc) (w : Wanted) :
    (s.send r pc).sentFor w = s.sentFor w + if r.wanted = w then 1 else 0 := by
  rw [State.sentFor, State.send, List.countP_append, List.countP_singleton, State.sentFor]
  simp

/-- What the local variables say is about the stream only. -/
theorem Progress.of_eq {s s' : State} {pc : Pc} (h : Progress s pc) (hrounds : s'.rounds = s.rounds)
    (hfailures : s'.failures = s.failures) (harrived : s'.arrived = s.arrived)
    (hread : s'.read = s.read) (hjudged : s'.judged = s.judged) : Progress s' pc := by
  cases pc <;> simp only [Progress, State.readOf, hrounds, hfailures, harrived, hread, hjudged] <;>
    exact h

namespace Sends

variable {pc pc' : Pc} {r : Request}

theorem wants (h : Sends pc r pc') : pc.wants = none ∧ pc'.wants = some r.wanted := by
  cases h <;> exact ⟨rfl, rfl⟩

theorem hasRead (h : Sends pc r pc') (w : Wanted) : pc'.hasRead w = pc.hasRead w := by
  cases h <;> cases w <;> rfl

theorem mode (h : Sends pc r pc') : pc'.mode = pc.mode ++ r.mode.toList := by
  cases h <;> rfl

theorem progress {s : State} (h : Sends pc r pc') (hprogress : Progress s pc) :
    Progress s pc' := by
  cases h <;> exact hprogress

end Sends

/-- Nothing is left over when a request is sent, and the script then waits for its answer. -/
theorem Inv.send {s : State} (h : Inv s) {r : Request} {pc : Pc} (hsends : Sends s.pc r pc) :
    Inv (s.send r pc) where
  readable := h.readable
  read_le := h.read_le
  sent_eq := by
    intro w hw
    obtain ⟨hidle, hwants⟩ := hsends.wants
    have hsent := h.sent_eq w hw
    rw [hidle, if_neg (by simp), Nat.add_zero] at hsent
    rw [sentFor_send, hsent, show (s.send r pc).pc = pc from rfl, hwants]
    simp only [Option.some.injEq]
    rfl
  arrived_le := by
    intro w hw
    rw [sentFor_send]
    exact Nat.le_trans (h.arrived_le w hw) (Nat.le_add_right _ _)
  readOf_ack := by
    rw [show (s.send r pc).pc = pc from rfl, hsends.hasRead]
    exact h.readOf_ack
  readOf_params := by
    rw [show (s.send r pc).pc = pc from rfl, hsends.hasRead]
    exact h.readOf_params
  written := by
    have hwritten : (s.send r pc).sent.filterMap Request.mode =
        s.sent.filterMap Request.mode ++ r.mode.toList := by
      rw [State.send, List.filterMap_append]
      cases r <;> rfl
    rw [hwritten, h.written, List.append_assoc, ← hsends.mode]
    rfl
  failures := h.failures
  judges := h.judges
  progress := (hsends.progress h.progress).of_eq rfl rfl rfl rfl rfl

/-- The script ends. -/
theorem Inv.exit {s : State} (h : Inv s) (hpc : s.pc = .next []) :
    Inv { s with pc := .exited (if s.failures ≠ 0 then 1 else 0) } where
  readable := h.readable
  read_le := h.read_le
  sent_eq := by
    intro w hw
    have hsent := h.sent_eq w hw
    rw [hpc] at hsent
    exact hsent
  arrived_le := h.arrived_le
  readOf_ack := by
    have hack := h.readOf_ack
    rw [hpc] at hack
    exact hack
  readOf_params := by
    have hparams := h.readOf_params
    rw [hpc] at hparams
    exact hparams
  written := by
    have hwritten := h.written
    rw [hpc] at hwritten
    exact hwritten
  failures := h.failures
  judges := h.judges
  progress := by
    have hprogress := h.progress
    rw [hpc] at hprogress
    obtain ⟨hlogin, hmodes⟩ := hprogress
    rw [List.append_nil] at hmodes
    exact .inr ⟨hlogin, hmodes, rfl⟩

/-! ## Taking a frame -/

theorem readOf_succ {s : State} (s' : State) {f : Incoming} (hf : s.arrived[s.read]? = some f)
    (w : Wanted) (harrived : s'.arrived = s.arrived) (hread : s'.read = s.read + 1) :
    s'.readOf w = s.readOf w + if w.fits f = true then 1 else 0 := by
  rw [State.readOf, harrived, hread, countP_take_succ hf, State.readOf]

/-- **Only the answer that the script is waiting for can come.** -/
theorem Inv.fits_eq_false {s : State} (h : Inv s) {f : Incoming} (hf : s.arrived[s.read]? = some f)
    {w : Wanted} (hw : w ≠ .status) (hwants : s.pc.wants ≠ some w) : w.fits f = false := by
  by_contra hfits
  rw [Bool.not_eq_false] at hfits
  -- all answers of this kind that were allowed to arrive have been read before
  have hsent := h.sent_eq w hw
  have harrived := h.arrived_le w hw
  have hread : (s.arrived.take (s.read + 1)).countP w.fits ≤ s.arrived.countP w.fits :=
    countP_take_le _
  rw [countP_take_succ hf, if_pos hfits] at hread
  rw [if_neg hwants, State.readOf] at hsent
  omega

/-- The script takes a frame: it passes over it and goes on waiting, or the wait is over. -/
theorem Inv.took {s s' : State} (h : Inv s) {w : Wanted} {f : Incoming}
    (hwants : s.pc.wants = some w) (hf : s.arrived[s.read]? = some f) (hsent : s'.sent = s.sent)
    (harrived : s'.arrived = s.arrived) (hread : s'.read = s.read + 1)
    (hcase : w.fits f = false ∧ s'.pc.wants = some w ∨
      w.fits f = true ∧ ∀ w' : Wanted, w' ≠ .status → s'.pc.wants ≠ some w')
    (hack : s'.judged.length + s'.pc.hasRead .ack =
      s.judged.length + s.pc.hasRead .ack + if Wanted.fits .ack f = true then 1 else 0)
    (hparams : s'.judged.length + s'.pc.hasRead .params =
      s.judged.length + s.pc.hasRead .params + if Wanted.fits .params f = true then 1 else 0)
    (hmode : s'.judged.map Judgement.mode ++ s'.pc.mode = s.judged.map Judgement.mode ++ s.pc.mode)
    (hfailures : s'.failures = s'.judged.countP fun j => !j.result)
    (hjudges : ∀ i j, s'.judged[i]? = some j → Judges s'.arrived i j)
    (hprogress : Progress s' s'.pc) : Inv s' where
  readable := harrived ▸ h.readable
  read_le := by
    rw [hread, harrived]
    exact (List.getElem?_eq_some_iff.mp hf).1
  sent_eq := by
    intro w' hw'
    have hbefore := h.sent_eq w' hw'
    rw [show s'.sentFor w' = s.sentFor w' by rw [State.sentFor, hsent, State.sentFor], hbefore,
      readOf_succ s' hf w' harrived hread, hwants]
    by_cases heq : w = w'
    · subst heq
      rcases hcase with ⟨hfits, hpc⟩ | ⟨hfits, hpc⟩
      · simp [hfits, hpc]
      · simp [hfits, hpc w hw']
    · have hfits : w'.fits f = false := h.fits_eq_false hf hw' (by simpa [hwants] using heq)
      rcases hcase with ⟨-, hpc⟩ | ⟨-, hpc⟩
      · simp [hfits, hpc, heq]
      · simp [hfits, hpc w' hw', heq]
  arrived_le := by
    intro w' hw'
    rw [show s'.sentFor w' = s.sentFor w' by rw [State.sentFor, hsent, State.sentFor], harrived]
    exact h.arrived_le w' hw'
  readOf_ack := by
    rw [readOf_succ s' hf .ack harrived hread, h.readOf_ack, hack]
  readOf_params := by
    rw [readOf_succ s' hf .params harrived hread, h.readOf_params, hparams]
  written := by
    rw [hsent, h.written, hmode]
  failures := hfailures
  judges := hjudges
  progress := hprogress

/-- A frame that is not waited for changes nothing. -/
theorem Inv.passOver {s : State} (h : Inv s) {w : Wanted} {f : Incoming}
    (hwants : s.pc.wants = some w) (hf : s.arrived[s.read]? = some f) (hfits : w.fits f = false) :
    Inv { s with read := s.read + 1 } := by
  -- it answers no request at all
  have hnone : ∀ w' : Wanted, w' ≠ .status → w'.fits f = false := by
    intro w' hw'
    by_cases heq : w' = w
    · rwa [heq]
    · exact h.fits_eq_false hf hw' (by rw [hwants]; simpa using Ne.symm heq)
  have hlogin : ({ s with read := s.read + 1 } : State).readOf .login = s.readOf .login := by
    rw [readOf_succ { s with read := s.read + 1 } hf .login rfl rfl, hnone .login nofun]
    rfl
  refine h.took hwants hf rfl rfl rfl (.inl ⟨hfits, hwants⟩) (by simp [hnone]) (by simp [hnone])
    rfl h.failures h.judges ?_
  have hprogress := h.progress
  show Progress _ s.pc
  cases hpc : s.pc with
  | awaitLogin =>
    rw [hpc] at hprogress
    exact ⟨hprogress.1, hlogin.trans hprogress.2⟩
  | awaitAck mode todo | awaitParams mode todo ok ack =>
    rw [hpc] at hprogress
    exact hprogress
  | awaitStatus mode todo ok ack params =>
    rw [hpc] at hprogress hwants
    obtain ⟨hlogin, hmodes, hack, hparams, hok, hlt, hbetween⟩ := hprogress
    obtain rfl := Option.some.inj hwants
    refine ⟨hlogin, hmodes, hack, hparams, hok, Nat.lt_succ_of_lt hlt, fun k g hparams hk hg => ?_⟩
    rcases Nat.lt_succ_iff_lt_or_eq.mp hk with hk | rfl
    · exact hbetween k g hparams hk hg
    · rwa [Option.some.inj (hg.symm.trans hf)]
  | _ =>
    rw [hpc] at hwants
    cases hwants

/-! ## The answers -/

section

variable {s : State} {fields : List (String × Json)} (h : Inv s)
  (hf : s.arrived[s.read]? = some (.ok (.obj fields)))

include h hf

theorem Inv.login (hpc : s.pc = .awaitLogin)
    (hfits : Wanted.fits .login (.ok (.obj fields)) = true) :
    Inv { s with
      read := s.read + 1
      pc := if (Json.field fields "success").truthy then .next (modes s.rounds)
        else .exited 1 } := by
  have hwants : s.pc.wants = some .login := congrArg Pc.wants hpc
  have hack := h.fits_eq_false hf (w := .ack) nofun (by simp [hwants])
  have hparams := h.fits_eq_false hf (w := .params) nofun (by simp [hwants])
  have hprogress := h.progress
  rw [hpc] at hprogress
  have hlogin : LoggedIn s.arrived (Json.field fields "success").truthy := by
    refine ⟨s.read, ⟨⟨_, hf, hfits⟩, hprogress.2⟩, ?_⟩
    rw [successAt, messageAt_eq hf, member_obj]
  cases hsuccess : (Json.field fields "success").truthy with
  | true =>
    refine h.took hwants hf rfl rfl rfl (.inr ⟨hfits, fun _ _ => nofun⟩)
      (by simp [hpc, hack, Pc.hasRead]) (by simp [hpc, hparams, Pc.hasRead])
      (by simp [hpc, Pc.mode]) h.failures h.judges ⟨hsuccess ▸ hlogin, ?_⟩
    rw [hprogress.1]
    rfl
  | false =>
    exact h.took hwants hf rfl rfl rfl (.inr ⟨hfits, fun _ _ => nofun⟩)
      (by simp [hpc, hack, Pc.hasRead]) (by simp [hpc, hparams, Pc.hasRead])
      (by simp [hpc, Pc.mode]) h.failures h.judges (.inl ⟨hsuccess ▸ hlogin, hprogress.1, rfl⟩)

theorem Inv.ack {mode : String} {todo : List String} (hpc : s.pc = .awaitAck mode todo)
    (hfits : Wanted.fits .ack (.ok (.obj fields)) = true) :
    Inv { s with
      read := s.read + 1
      pc := .settling mode todo (Json.field fields "success").truthy s.read } := by
  have hwants : s.pc.wants = some .ack := congrArg Pc.wants hpc
  have hparams := h.fits_eq_false hf (w := .params) nofun (by simp [hwants])
  have hprogress := h.progress
  have hcount := h.readOf_ack
  rw [hpc] at hprogress hcount
  refine h.took hwants hf rfl rfl rfl (.inr ⟨hfits, fun _ _ => nofun⟩)
    (by simp [hpc, hfits, Pc.hasRead]) (by simp [hpc, hparams, Pc.hasRead]) (by simp [hpc, Pc.mode])
    h.failures h.judges
    ⟨hprogress.1, hprogress.2, ⟨⟨_, hf, hfits⟩, hcount⟩, ?_⟩
  rw [successAt, messageAt_eq hf, member_obj]

theorem Inv.params {mode : String} {todo : List String} {ok : Bool} {ack : ℕ}
    (hpc : s.pc = .awaitParams mode todo ok ack)
    (hfits : Wanted.fits .params (.ok (.obj fields)) = true) :
    Inv { s with
      read := s.read + 1
      pc := .awaitStatus mode todo
        (ok && (member (Json.field fields "data") "WorkMode").eqStr mode) ack s.read } := by
  have hwants : s.pc.wants = some .params := congrArg Pc.wants hpc
  have hack := h.fits_eq_false hf (w := .ack) nofun (by simp [hwants])
  have hprogress := h.progress
  have hcount := h.readOf_params
  rw [hpc] at hprogress hcount
  obtain ⟨hlogin, hmodes, hnth, hok⟩ := hprogress
  refine h.took hwants hf rfl rfl rfl
    (.inr ⟨hfits, fun w' hw' heq => hw' (Option.some.inj heq).symm⟩)
    (by simp [hpc, hack, Pc.hasRead])
    (by simp [hpc, hfits, Pc.hasRead]) (by simp [hpc, Pc.mode]) h.failures h.judges
    ⟨hlogin, hmodes, hnth, ⟨⟨_, hf, hfits⟩, hcount⟩, ?_, Nat.lt_succ_self _, ?_⟩
  · rw [Bool.and_eq_true, Json.eqStr_iff, ← hok, dbModeAt, messageAt_eq hf, member_obj]
  · intro k g hk hk'
    exact absurd hk' (Nat.not_lt_of_le hk)

theorem Inv.status {mode : String} {todo : List String} {ok : Bool} {ack params : ℕ}
    (hpc : s.pc = .awaitStatus mode todo ok ack params)
    (hfits : Wanted.fits .status (.ok (.obj fields)) = true) :
    Inv { s with
      read := s.read + 1
      pc := .next todo
      failures := if (ok && (workModeOf (.obj fields)).eqStr mode) = true then s.failures
        else s.failures + 1
      judged := s.judged ++
        [⟨mode, ack, params, s.read, ok && (workModeOf (.obj fields)).eqStr mode⟩] } := by
  have hwants : s.pc.wants = some .status := congrArg Pc.wants hpc
  have hack := h.fits_eq_false hf (w := .ack) nofun (by simp [hwants])
  have hparams := h.fits_eq_false hf (w := .params) nofun (by simp [hwants])
  have hprogress := h.progress
  rw [hpc] at hprogress
  obtain ⟨hlogin, hmodes, hnth, hnth', hok, hlt, hbetween⟩ := hprogress
  have hnew : Judges s.arrived s.judged.length
      ⟨mode, ack, params, s.read, ok && (workModeOf (.obj fields)).eqStr mode⟩ := by
    refine ⟨hnth, hnth', ⟨hlt, ⟨_, hf, hfits⟩, hbetween⟩, ?_⟩
    rw [Bool.and_eq_true, Json.eqStr_iff, hok, workModeAt, messageAt_eq hf, and_assoc]
  refine h.took hwants hf rfl rfl rfl (.inr ⟨hfits, fun _ _ => nofun⟩)
    (by simp [hpc, hack, Pc.hasRead]) (by simp [hpc, hparams, Pc.hasRead]) (by simp [hpc, Pc.mode])
    ?_ ?_ ⟨hlogin, by simpa using hmodes⟩
  · rw [List.countP_append, List.countP_singleton, ← h.failures]
    cases ok && (workModeOf (.obj fields)).eqStr mode <;> rfl
  · intro i j hj
    rcases Nat.lt_or_ge i s.judged.length with hi | hi
    · rw [List.getElem?_append_left hi] at hj
      exact h.judges i j hj
    · rw [List.getElem?_append_right hi, List.getElem?_singleton] at hj
      split at hj
      · obtain rfl : i = s.judged.length := by omega
        rw [← Option.some.inj hj]
        exact hnew
      · cases hj

end

/-- A wait that is over has returned. -/
theorem Inv.take_of_returned {s s' : State} (h : Inv s') {w : Wanted} {f : Incoming} {r : Json}
    (hpass : pass w f = .ok r) (hr : r ≠ .null)
    (hreturned : ({ s with read := s.read + 1 } : State).returned r s.read = .ok s') :
    Inv (s.take w f) := by
  have htake : s.take w f = s' := by
    rw [State.take, hpass]
    cases r with
    | null => exact absurd rfl hr
    | _ => simp only [hreturned]
  rwa [htake]

/-- **Taking a frame preserves the invariant.** -/
theorem Inv.take {s : State} (h : Inv s) {w : Wanted} {f : Incoming}
    (hwants : s.pc.wants = some w) (hf : s.arrived[s.read]? = some f) : Inv (s.take w f) := by
  have hreadable := h.readable f (List.mem_of_getElem? hf)
  rcases pass_eq hreadable w with ⟨hfits, hpass⟩ | ⟨fields, rfl, hfits, hvalue, hpass⟩
  · have htake : s.take w f = { s with read := s.read + 1 } := by
      rw [State.take, hpass]
    rw [htake]
    exact h.passOver hwants hf hfits
  · cases hpc : s.pc with
    | awaitLogin =>
      rw [hpc] at hwants
      obtain rfl := Option.some.inj hwants
      apply (h.login hf hpc hfits).take_of_returned hpass hvalue
      simp only [State.returned, hpc]
      rfl
    | awaitAck mode todo =>
      rw [hpc] at hwants
      obtain rfl := Option.some.inj hwants
      apply (h.ack hf hpc hfits).take_of_returned hpass hvalue
      simp only [State.returned, hpc]
      rfl
    | awaitParams mode todo ok ack =>
      rw [hpc] at hwants
      obtain rfl := Option.some.inj hwants
      apply (h.params hf hpc hfits).take_of_returned hpass hvalue
      have hget := get_orEmpty hreadable.2.1 "WorkMode"
      rw [member_obj] at hget
      simp only [State.returned, hpc, Wanted.value, member_obj, hget]
      rfl
    | awaitStatus mode todo ok ack params =>
      rw [hpc] at hwants
      obtain rfl := Option.some.inj hwants
      apply (h.status hf hpc hfits).take_of_returned hpass hvalue
      simp only [State.returned, hpc]
      rfl
    | _ =>
      rw [hpc] at hwants
      cases hwants

/-- **Every step preserves the invariant**, if the server keeps to its side. -/
theorem inv_step {s s' : State} {l : Label} (h : Inv s) (hl : ServerKeeps s l)
    (hs' : step s l = some s') : Inv s' := by
  cases l with
  | arrive f =>
    obtain rfl := Option.some.inj hs'
    exact h.arrive hl
  | go =>
    rcases go_cases hs' with ⟨r, pc, hsends, rfl⟩ | ⟨hpc, rfl⟩ | ⟨w, f, hwants, hf, rfl⟩
    · exact h.send hsends
    · exact h.exit hpc
    · exact h.take hwants hf

/-! ## Runs -/

theorem inv_run {rounds : ℤ} {ls : List Label} {s : State}
    (hkeeps : Lts.Along step ServerKeeps (start rounds) ls)
    (h : Lts.run step (start rounds) ls = some s) : Inv s :=
  Lts.run_invariant_along (inv_start rounds) (fun _ _ _ hs hl hs' => inv_step hs hl hs') hkeeps h

/-- How often the script still goes on without taking a frame, at most. -/
def Pc.left (rounds : ℤ) : Pc → ℕ
  | start => 2 * (modes rounds).length + 2
  | awaitLogin => 2 * (modes rounds).length + 1
  | next todo => 2 * todo.length + 1
  | awaitAck _ todo => 2 * todo.length + 2
  | settling _ todo _ _ => 2 * todo.length + 2
  | awaitParams _ todo _ _ => 2 * todo.length + 1
  | awaitStatus _ todo _ _ _ => 2 * todo.length + 1
  | exited _ => 0
  | raised _ => 0

/-- The script takes a step. -/
def Label.isGo : Label → Bool
  | arrive _ => false
  | go => true

theorem returned_left {s s' : State} {r : Json} {n : ℕ} (h : s.returned r n = .ok s') :
    s'.rounds = s.rounds ∧ s'.read = s.read ∧ s'.pc.left s.rounds ≤ s.pc.left s.rounds := by
  rw [State.returned] at h
  split at h
  case h_1 hpc =>
    obtain ⟨success, -, h⟩ := bind_eq_ok h
    cases h
    refine ⟨rfl, rfl, ?_⟩
    rw [hpc]
    cases success.truthy
    · exact Nat.zero_le _
    · exact Nat.le_refl _
  case h_2 hpc | h_3 hpc =>
    obtain ⟨value, -, h⟩ := bind_eq_ok h
    cases h
    rw [hpc]
    exact ⟨rfl, rfl, Nat.le_refl _⟩
  case h_4 hpc =>
    cases h
    rw [hpc]
    exact ⟨rfl, rfl, Nat.le_refl _⟩
  case h_5 =>
    cases h
    exact ⟨rfl, rfl, Nat.le_refl _⟩

theorem take_left (s : State) (w : Wanted) (f : Incoming) :
    (s.take w f).rounds = s.rounds ∧ (s.take w f).read = s.read + 1 ∧
      (s.take w f).pc.left s.rounds ≤ s.pc.left s.rounds := by
  rw [State.take]
  split
  · exact ⟨rfl, rfl, Nat.zero_le _⟩
  · exact ⟨rfl, rfl, Nat.le_refl _⟩
  · split
    · rename_i s' h
      exact returned_left h
    · exact ⟨rfl, rfl, Nat.zero_le _⟩

theorem Sends.left {pc pc' : Pc} {r : Request} (h : Sends pc r pc') (rounds : ℤ) :
    pc'.left rounds + 1 = pc.left rounds := by
  cases h <;> rfl

/-- A step of the script takes a frame, or leaves less to do. -/
theorem step_left {s s' : State} {l : Label} (h : step s l = some s') :
    s'.rounds = s.rounds ∧
      (if l.isGo then 1 else 0) + s.read + s'.pc.left s.rounds ≤ s'.read + s.pc.left s.rounds := by
  cases l with
  | arrive f =>
    obtain rfl := Option.some.inj h
    exact ⟨rfl, by simp [Label.isGo]⟩
  | go =>
    rcases go_cases h with ⟨r, pc, hsends, rfl⟩ | ⟨hpc, rfl⟩ | ⟨w, f, -, -, rfl⟩
    · have hleft := hsends.left s.rounds
      refine ⟨rfl, ?_⟩
      simp only [Label.isGo, State.send, if_true]
      omega
    · refine ⟨rfl, ?_⟩
      simp only [hpc, Label.isGo, Pc.left, if_true]
      omega
    · obtain ⟨hrounds, hread, hleft⟩ := take_left s w f
      refine ⟨hrounds, ?_⟩
      simp only [Label.isGo, if_true]
      omega

theorem rounds_run {rounds : ℤ} {ls : List Label} {s : State}
    (h : Lts.run step (start rounds) ls = some s) : s.rounds = rounds :=
  Lts.run_invariant (I := fun s => s.rounds = rounds) rfl
    (fun _ _ _ hs hs' => (step_left hs').1.trans hs) h

/-- The script does not go on forever. -/
theorem steps_le {rounds : ℤ} {ls : List Label} {s : State}
    (h : Lts.run step (start rounds) ls = some s) :
    ls.countP Label.isGo + s.pc.left rounds ≤ s.read + 2 * (modes rounds).length + 2 := by
  refine Lts.run_induction (motive := fun ls s =>
    ls.countP Label.isGo + s.pc.left rounds ≤ s.read + 2 * (modes rounds).length + 2) ?_ ?_ h
  · exact Nat.le_of_eq (Nat.add_assoc _ _ _).symm
  · intro ls l s s' hrun ih hstep
    obtain ⟨-, hleft⟩ := step_left hstep
    rw [rounds_run hrun] at hleft
    rw [List.countP_append, List.countP_singleton]
    omega

/-- The modes are checked in their order. -/
theorem Progress.modes_prefix {s : State} {pc : Pc} (h : Progress s pc) :
    s.judged.map Judgement.mode <+: modes s.rounds := by
  cases pc with
  | start | awaitLogin =>
    rw [h.1]
    exact List.nil_prefix
  | next todo => exact ⟨todo, h.2⟩
  | awaitAck mode todo => exact ⟨_, h.2⟩
  | settling mode todo ok ack | awaitParams mode todo ok ack
  | awaitStatus mode todo ok ack params => exact ⟨_, h.2.1⟩
  | exited status =>
    rcases h with ⟨-, hjudged, -⟩ | ⟨-, hmodes, -⟩
    · rw [hjudged]
      exact List.nil_prefix
    · rw [hmodes]
  | raised e => exact h.elim

/-- **A script that has read everything misses what it waits for.** -/
theorem Inv.missing {s : State} (h : Inv s) (hread : s.read = s.arrived.length) {w : Wanted}
    (hw : s.pc.wants = some w) : s.Missing w := by
  have hreadOf : ∀ w, s.readOf w = s.arrived.countP w.fits := fun w => by
    rw [State.readOf, hread, List.take_length]
  have hanswer : w ≠ .status → s.arrived.countP w.fits < s.sentFor w := by
    intro hne
    rw [h.sent_eq w hne, hreadOf w, if_pos hw]
    exact Nat.lt_succ_self _
  cases w with
  | login | ack | params => exact hanswer nofun
  | status =>
    have hprogress := h.progress
    cases hpc : s.pc with
    | awaitStatus mode todo ok ack params =>
      rw [hpc] at hprogress
      obtain ⟨-, -, -, hparams, -, -, hbetween⟩ := hprogress
      refine ⟨params, hparams, fun k f hk hf => hbetween k f hk ?_ hf⟩
      rw [hread]
      exact (List.getElem?_eq_some_iff.mp hf).1
    | _ =>
      rw [hpc] at hw
      cases hw

theorem length_modes (rounds : ℤ) : (modes rounds).length = 2 * rounds.toNat := by
  simp [modes, Nat.mul_comm]

/-- The script exits with status 0 exactly if everything went well. -/
theorem Inv.exited {s : State} (h : Inv s) {status : ℕ} (hpc : s.pc = .exited status) :
    (LoggedIn s.arrived true → s.judged.length = 2 * s.rounds.toNat) ∧
      (status = 0 ↔ LoggedIn s.arrived true ∧ ∀ j ∈ s.judged, j.result = true) := by
  have hprogress := h.progress
  rw [hpc] at hprogress
  rcases hprogress with ⟨hlogin, hjudged, rfl⟩ | ⟨hlogin, hmodes, rfl⟩
  · have hnot : ¬ LoggedIn s.arrived true := by
      intro hlogin'
      cases hlogin.unique hlogin'
    exact ⟨fun h => absurd h hnot, iff_of_false Nat.one_ne_zero fun h => hnot h.1⟩
  · have hzero : s.failures = 0 ↔ ∀ j ∈ s.judged, j.result = true := by
      rw [h.failures, List.countP_eq_zero]
      simp
    refine ⟨fun _ => by rw [← length_modes, ← hmodes, List.length_map], ?_⟩
    rw [← hzero]
    by_cases hfailures : s.failures = 0
    · simp [hfailures, hlogin]
    · simp [hfailures]

/-- **If the server keeps to its side, every check judges its own answers and the first status after
them.** The script never raises. It stops only at its end, or in a wait whose message is missing: it
has read everything, and an answer to a request is still due, or no status with a work mode has come
behind the last answer of the database. So a wait whose message has arrived ends, within a number of
steps bounded by what has arrived. The script exits with status 0 exactly if the login and all checks
of all rounds succeeded. -/
theorem judges_right (rounds : ℤ) {ls : List Label} {s : State}
    (hkeeps : Lts.Along step ServerKeeps (start rounds) ls)
    (h : Lts.run step (start rounds) ls = some s) :
    (∀ i j, s.judged[i]? = some j →
        (modes rounds)[i]? = some j.mode ∧ (s.sent.filterMap Request.mode)[i]? = some j.mode ∧
          Judges s.arrived i j) ∧
      (∀ e, s.pc ≠ .raised e) ∧
      ls.countP Label.isGo ≤ s.arrived.length + 4 * rounds.toNat + 2 ∧
      (step s .go = none →
        (∃ status, s.pc = .exited status) ∨
          ∃ w, s.pc.wants = some w ∧ s.read = s.arrived.length ∧ s.Missing w) ∧
      ∀ status, s.pc = .exited status →
        (LoggedIn s.arrived true → s.judged.length = 2 * rounds.toNat) ∧
          (status = 0 ↔ LoggedIn s.arrived true ∧ ∀ j ∈ s.judged, j.result = true) := by
  have hinv := inv_run hkeeps h
  have hrounds := rounds_run h
  have hraised : ∀ e, s.pc ≠ .raised e := by
    intro e hpc
    have hprogress := hinv.progress
    rw [hpc] at hprogress
    exact hprogress
  refine ⟨fun i j hj => ?_, hraised, ?_, fun hstuck => ?_, fun status hpc => ?_⟩
  · obtain ⟨rest, hrest⟩ := hinv.progress.modes_prefix
    have hmode : (s.judged.map Judgement.mode)[i]? = some j.mode := by
      rw [List.getElem?_map, hj]
      rfl
    refine ⟨?_, ?_, hinv.judges i j hj⟩
    · rw [← hrounds, ← hrest]
      exact getElem?_append hmode rest
    · rw [hinv.written]
      exact getElem?_append hmode _
  · have hsteps := steps_le h
    have hread := hinv.read_le
    rw [length_modes] at hsteps
    omega
  · rcases stops hstuck with hexited | ⟨e, hpc⟩ | ⟨hwants, hread⟩
    · exact .inl hexited
    · exact absurd hpc (hraised e)
    · obtain ⟨w, hw⟩ := Option.ne_none_iff_exists'.mp hwants
      have hread := Nat.le_antisymm hinv.read_le hread
      exact .inr ⟨w, hw, hread, hinv.missing hread hw⟩
  · exact hrounds ▸ hinv.exited hpc

/-- The status that the server pushes. -/
def statusOf (mode : String) : Incoming :=
  .ok (.obj [("type", .str "hardware_status_update"),
    ("data", .obj [("job_statistics", .obj [("work_mode", .str mode)])])])

/-- The first check, with statuses of the old mode pushed before the server has followed. -/
def firstCheck : List Label :=
  [.go, .arrive (.ok (.obj [("type", .str "login_response"), ("success", .bool true)])), .go,
    .go, .arrive (statusOf "screw"), .arrive (.error .jsonDecodeError), .go, .go,
    .arrive (.ok (.obj [("type", .str "system_params_batch_update_response"),
      ("success", .bool true)])), .go,
    .arrive (statusOf "screw"), .go,
    .arrive (.ok (.obj [("type", .str "data_response"), ("data_type", .str "system_params"),
      ("data", .obj [("WorkMode", .str "module")])])), .go, .go,
    .arrive (statusOf "module"), .go]

/-- The check passes over them. -/
theorem judges_right_firstCheck :
    ∃ s, Lts.run step (start 1) firstCheck = some s ∧
      Judges s.arrived 0 ⟨"module", 3, 5, 6, true⟩ := by
  have hrun : Lts.run step (start 1) firstCheck = some _ := rfl
  exact ⟨_, hrun, ((judges_right 1 (by decide) hrun).1 0 _ rfl).2.2⟩

end SasTests.VerifyWorkmodeSync
