import SasTests.CursorScan

/-!
# Two loops on the same polls

`_wait_work_mode_after` and `_wait_status_after` are written separately. Where the latter is given
the predicate that `job_statistics.work_mode` is a certain mode, they wait for the same thing.

On the same pushes and polls the former returns the mode exactly if the latter returns an event.
Otherwise the former returns the last mode it has seen, by `last_mode or ""`: the empty string also
stands for each value that Python takes to be false.
-/

namespace SasTests

open Python

/-- `_extract_job_statistics`. -/
def extractJobStatistics (statusMsg : Json) : Except PyError Json := do
  let data ← statusMsg.get "data" (.obj [])
  data.get "job_statistics" (.obj [])

/-- `lambda m: _extract_job_statistics(m).get("work_mode") == mode` -/
def hasWorkMode (mode : String) (m : Json) : Except PyError Bool := do
  let stats ← extractJobStatistics m
  return (← stats.get "work_mode").eqStr mode

/-- `_wait_status_after` with that predicate. -/
abbrev waitStatusWithMode (mode : String) (timeout : ℚ) : CursorLoop :=
  waitStatusAfter timeout (some (hasWorkMode mode))

/-- The `work_mode` of a status event later than `send_ts` that carries one. -/
def carriedMode (sendTs : ℚ) (ev : Json) : Option Json :=
  match isStatus ev, isLater sendTs ev, workModeIn ev with
  | .ok true, .ok true, .ok mode => mode
  | _, _, _ => none

/-- The last such mode among the events `seen`. -/
def lastMode (sendTs : ℚ) (seen : List (Received × ℕ)) : Option Json :=
  (seen.filterMap fun p => carriedMode sendTs p.1.body).getLast?

/-- `last_mode or ""` -/
def orBlank : Option Json → Json
  | some mode => if mode.truthy then mode else .str ""
  | none => .str ""

/-- `last_mode`, unless it is `None` -/
def nullToBlank : Option Json → Json
  | some .null => .str ""
  | some mode => mode
  | none => .str ""

/-- A dictionary; if it is a status event, so are its data and its statistics. -/
def ObjectShaped (message : Received) : Prop :=
  ∃ fields, message.body = .obj fields ∧ (message.typeIs MsgType.hardwareStatusUpdate = true →
    ∃ stats, extractJobStatistics message.body = .ok (.obj stats))

/-- What the call returns to its caller. -/
def Outcome.returned : Outcome → Option Json
  | .found _ v => some v
  | .gaveUp (.ok r) => some r
  | .gaveUp (.error _) => none
  | .raised _ => none

namespace Watch

/-- A schedule of pushes and polls. -/
structure Schedule (ls : List Label) : Prop where
  /-- what is pushed is well formed -/
  shaped : ∀ message now, .push message now ∈ ls → ObjectShaped message
  /-- the clock does not go backwards between a scan and the next test of the deadline -/
  clock : ls.Pairwise fun l l' => match l, l' with
    | .poll _ after, .poll now _ => after ≤ now
    | _, _ => True

/-- Something that happens while a helper waits. -/
def Label.whileWaiting : Label → Bool
  | .push _ _ | .poll _ _ => true
  | .command _ | .call _ => false

/-- The call that is in progress in `s` ends with `o` on these labels. -/
def Ends (w : CursorLoop) (s : Watch) (ls : List Label) (o : Outcome) : Prop :=
  ∃ s' sendTs, Lts.run (step w) s ls = some s' ∧ s'.frame = .ended sendTs o

/-- It ends, and `v` is returned. -/
def Returns (w : CursorLoop) (s : Watch) (ls : List Label) (v : Json) : Prop :=
  ∃ o, Ends w s ls o ∧ o.returned = some v

/-- The two loops on the same pushes and polls. What `_wait_work_mode_after` returns otherwise is
`fallback` of the last mode that it has seen. -/
structure Agree (fallback : Option Json → Json) (mode : String) (timeout timeout' : ℚ)
    (acc : EventAccumulator) (sendTs now : ℚ) (ls : List Label) : Prop where
  /-- it returns the mode exactly if `_wait_status_after` returns an event -/
  iff : Returns (waitWorkModeAfter mode timeout)
      (entered (waitWorkModeAfter mode timeout) acc sendTs now) ls (.str mode) ↔
    ∃ ev, Returns (waitStatusWithMode mode timeout')
      (entered (waitStatusWithMode mode timeout') acc sendTs now) ls ev
  /-- and otherwise the last mode -/
  otherwise : ∀ o, Ends (waitWorkModeAfter mode timeout)
      (entered (waitWorkModeAfter mode timeout) acc sendTs now) ls o →
    o.returned ≠ some (.str mode) →
    o.returned = some (fallback (lastMode sendTs (examined (waitWorkModeAfter mode timeout)
      (entered (waitWorkModeAfter mode timeout) acc sendTs now) ls)))

/-- **The two loops agree** on every schedule of pushes and polls, from every accumulator, for every
mode but the empty one. Each has its timeout; a poll that is in time for one is in time for the
other. -/
def LoopsAgree (fallback : Option Json → Json) : Prop :=
  ∀ ls, Schedule ls → ∀ mode, mode ≠ "" → ∀ timeout timeout' acc sendTs now,
    (∀ now' after, .poll now' after ∈ ls → (now' < now + timeout ↔ now' < now + timeout')) →
    Agree fallback mode timeout timeout' acc sendTs now ls

end Watch

/-! ## One event -/

/-- The loops raise no exception on this event, up to what they do with its statistics. -/
structure Readable (sendTs : ℚ) (ev : Json) : Prop where
  status : ∃ b, isStatus ev = .ok b
  later : ∃ b, isLater sendTs ev = .ok b
  stats : isStatus ev = .ok true → ∃ stats, extractJobStatistics ev = .ok (.obj stats)

theorem extractJobStatistics_assign (fields : List (String × Json)) (now : Json) :
    extractJobStatistics (.obj (Json.assign "_received_at" now fields)) =
      extractJobStatistics (.obj fields) := by
  simp only [extractJobStatistics, Json.get_obj]
  rw [Json.field_assign_of_ne _ _ _ (by decide)]

/-- What is pushed can be read. -/
theorem ObjectShaped.readable {message : Received} (h : ObjectShaped message) (sendTs now : ℚ) :
    Readable sendTs (message.stamp now).body := by
  obtain ⟨fields, hbody, hstats⟩ := h
  have hstamp : (message.stamp now).body =
      .obj (Json.assign "_received_at" (.num now) fields) := by
    rw [Received.stamp, hbody]
  have hstatus : isStatus (message.stamp now).body =
      .ok (message.typeIs MsgType.hardwareStatusUpdate) := by
    rw [hstamp, Received.typeIs, hbody, isStatus, Json.get_obj,
      Json.field_assign_of_ne _ _ _ (by decide)]
    rfl
  refine ⟨⟨_, hstatus⟩, ⟨!decide (now ≤ sendTs), ?_⟩, fun htrue => ?_⟩
  · rw [hstamp, isLater, Json.get_obj, Json.field_of_lookup (Json.lookup_assign_self ..)]
    rfl
  · rw [hstamp, extractJobStatistics_assign, ← hbody]
    exact hstats (Except.ok.inj (hstatus.symm.trans htrue))

theorem workModeIn_of_stats {ev : Json} {stats : List (String × Json)}
    (h : extractJobStatistics ev = .ok (.obj stats)) :
    workModeIn ev = .ok (stats.lookup "work_mode") := by
  obtain ⟨data, hdata, hget⟩ := bind_eq_ok h
  simp only [workModeIn, hdata, bind, Except.bind, hget, Json.contains, Json.getItem]
  cases stats.lookup "work_mode" <;> rfl

theorem hasWorkMode_of_stats {ev : Json} {stats : List (String × Json)} (mode : String)
    (h : extractJobStatistics ev = .ok (.obj stats)) :
    hasWorkMode mode ev = .ok ((stats.lookup "work_mode").any fun v => v.eqStr mode) := by
  simp only [hasWorkMode, h, bind, Except.bind, Json.get_obj, Json.field]
  cases stats.lookup "work_mode" <;> rfl

namespace Readable

variable {sendTs : ℚ} {ev : Json}

/-- **What `_wait_work_mode_after` makes of an event** depends on the mode that it carries. -/
theorem examine_workMode (h : Readable sendTs ev) (mode : String) (timeout : ℚ) :
    (waitWorkModeAfter mode timeout).examine sendTs ev =
      .ok (match carriedMode sendTs ev with
        | some v => if v.eqStr mode then .found v else .note v
        | none => .skip) := by
  obtain ⟨⟨status, hstatus⟩, ⟨later, hlater⟩, hstats⟩ := h
  simp only [waitWorkModeAfter, carriedMode, hstatus, hlater, bind, Except.bind]
  cases status with
  | false => rfl
  | true =>
    obtain ⟨stats, hstats⟩ := hstats hstatus
    cases later with
    | false => rfl
    | true =>
      rw [workModeIn_of_stats hstats]
      cases stats.lookup "work_mode" <;> rfl

/-- **What `_wait_status_after` makes of it.** -/
theorem examine_status (h : Readable sendTs ev) (mode : String) (timeout : ℚ) :
    (waitStatusWithMode mode timeout).examine sendTs ev =
      .ok (if (carriedMode sendTs ev).any fun v => v.eqStr mode then .found ev else .skip) := by
  obtain ⟨⟨status, hstatus⟩, ⟨later, hlater⟩, hstats⟩ := h
  simp only [waitStatusAfter, carriedMode, hstatus, hlater, bind, Except.bind]
  cases status with
  | false => rfl
  | true =>
    obtain ⟨stats, hstats⟩ := hstats hstatus
    cases later with
    | false => rfl
    | true =>
      rw [workModeIn_of_stats hstats, hasWorkMode_of_stats mode hstats]
      simp only [if_true]
      split <;> rfl

end Readable

/-! ## One pass -/

theorem lastMode_append (sendTs : ℚ) (seen seen' : List (Received × ℕ)) :
    lastMode sendTs (seen ++ seen') = (lastMode sendTs seen').or (lastMode sendTs seen) := by
  rw [lastMode, List.filterMap_append, List.getLast?_append, ← lastMode, ← lastMode]

theorem lastMode_cons (sendTs : ℚ) (ev : Received) (nextIdx : ℕ) (seen : List (Received × ℕ)) :
    lastMode sendTs ((ev, nextIdx) :: seen) =
      (lastMode sendTs seen).or (carriedMode sendTs ev.body) := by
  rw [← List.singleton_append, lastMode_append]
  congr 1
  simp only [lastMode, List.filterMap_cons, List.filterMap_nil]
  cases carriedMode sendTs ev.body <;> rfl

namespace Watch

/-- **One pass of both loops** over the same events: they return on account of the same one, or both
come to the end. -/
theorem scan_both (timeout timeout' : ℚ) {sendTs : ℚ} {mode : String} {evs : List Received}
    (nextIdx : ℕ) {last : Option Json} (last' : Option Json)
    (hevs : ∀ ev ∈ evs, Readable sendTs ev.body)
    (hlast : (last.any fun v => v.eqStr mode) = false) :
    (∃ ev, scan ((waitWorkModeAfter mode timeout).examine sendTs) evs nextIdx last =
        .found ev (.str mode) ∧
      scan ((waitStatusWithMode mode timeout').examine sendTs) evs nextIdx last' =
        .found ev ev.body) ∨
    ∃ newIdx newLast,
      scan ((waitWorkModeAfter mode timeout).examine sendTs) evs nextIdx last =
        .done newIdx newLast ∧
      scan ((waitStatusWithMode mode timeout').examine sendTs) evs nextIdx last' =
        .done newIdx last' ∧
      (newLast.any fun v => v.eqStr mode) = false ∧
      newLast = (lastMode sendTs
        (visited ((waitWorkModeAfter mode timeout).examine sendTs) evs nextIdx)).or last := by
  induction evs generalizing nextIdx last with
  | nil => exact .inr ⟨nextIdx, last, rfl, rfl, hlast, rfl⟩
  | cons ev evs ih =>
    obtain ⟨hev, hevs⟩ := List.forall_mem_cons.mp hevs
    rw [scan, scan, visited, hev.examine_workMode, hev.examine_status]
    cases hmode : carriedMode sendTs ev.body with
    | none =>
      simp only [lastMode_cons, hmode, Option.or_none, Option.any_none, Bool.false_eq_true,
        if_false]
      exact ih _ hevs hlast
    | some v =>
      by_cases hv : v.eqStr mode = true
      · left
        obtain rfl := Json.eqStr_iff.mp hv
        simp only [hv, Option.any_some, if_true]
        exact ⟨ev, rfl, rfl⟩
      · simp only [lastMode_cons, hmode, hv, Option.any_some, Bool.false_eq_true, if_false,
          Option.or_assoc, Option.some_or]
        exact ih _ hevs (Bool.eq_false_of_not_eq_true hv)

/-! ## All polls -/

theorem ends_cons {w : CursorLoop} {s : Watch} {l : Label} {ls : List Label} {o : Outcome} :
    Ends w s (l :: ls) o ↔ ∃ s', s.step w l = some s' ∧ Ends w s' ls o := by
  constructor
  · rintro ⟨s'', sendTs, hrun, hframe⟩
    obtain ⟨s', hl, hrun⟩ := Option.bind_eq_some_iff.mp hrun
    exact ⟨s', hl, s'', sendTs, hrun, hframe⟩
  · rintro ⟨s', hl, s'', sendTs, hrun, hframe⟩
    exact ⟨s'', sendTs, by rw [Lts.run_cons, hl]; exact hrun, hframe⟩

/-- Nothing happens after the end. -/
theorem ends_ended {w : CursorLoop} {acc : EventAccumulator} {sendTs : ℚ} {o o' : Outcome}
    {ls : List Label} : Ends w ⟨acc, .ended sendTs o⟩ ls o' ↔ ls = [] ∧ o' = o := by
  constructor
  · intro h
    cases ls with
    | nil =>
      obtain ⟨s, sendTs', hrun, hframe⟩ := h
      obtain rfl := Option.some.inj hrun
      exact ⟨rfl, (WatchFrame.ended.inj hframe).2.symm⟩
    | cons l ls =>
      obtain ⟨s, hl, -⟩ := ends_cons.mp h
      cases l <;> cases hl
  · rintro ⟨rfl, rfl⟩
    exact ⟨_, sendTs, rfl, rfl⟩

theorem not_ends_nil {w : CursorLoop} {acc : EventAccumulator} {sendTs deadline : ℚ} {nextIdx : ℕ}
    {last : Option Json} {o : Outcome} :
    ¬ Ends w ⟨acc, .waiting sendTs deadline nextIdx last⟩ [] o := by
  rintro ⟨s, _, hrun, hframe⟩
  obtain rfl := Option.some.inj hrun
  cases hframe

theorem returns_cons {w : CursorLoop} {s s' : Watch} {l : Label} {ls : List Label} {v : Json}
    (hl : s.step w l = some s') : Returns w s (l :: ls) v ↔ Returns w s' ls v := by
  simp only [Returns, ends_cons, hl, Option.some.injEq, exists_eq_left']

theorem returns_ended {w : CursorLoop} {acc : EventAccumulator} {sendTs : ℚ} {o : Outcome}
    {ls : List Label} {v : Json} :
    Returns w ⟨acc, .ended sendTs o⟩ ls v ↔ ls = [] ∧ o.returned = some v := by
  simp only [Returns, ends_ended, and_assoc, exists_and_left, exists_eq_left]

section Poll

variable {w : CursorLoop} {acc : EventAccumulator} {sendTs deadline now : ℚ} {nextIdx : ℕ}
  {last : Option Json}

theorem step_poll_found (after : ℚ) {ev : Received} {v : Json} (hnow : now < deadline)
    (hscan : scan (w.examine sendTs) (acc.events.drop nextIdx) nextIdx last = .found ev v) :
    step w ⟨acc, .waiting sendTs deadline nextIdx last⟩ (.poll now after) =
      some ⟨acc, .ended sendTs (.found ev v)⟩ := by
  simp only [step, if_pos hnow, EventAccumulator.getAll, hscan]

theorem step_poll_done (after : ℚ) {newIdx : ℕ} {newLast : Option Json} (hnow : now < deadline)
    (hscan : scan (w.examine sendTs) (acc.events.drop nextIdx) nextIdx last =
      .done newIdx newLast) :
    step w ⟨acc, .waiting sendTs deadline nextIdx last⟩ (.poll now after) =
      some ⟨acc, if w.breaks ∧ deadline - after ≤ 0 then .ended sendTs (.gaveUp (w.after newLast))
        else .waiting sendTs deadline newIdx newLast⟩ := by
  simp only [step, if_pos hnow, EventAccumulator.getAll, hscan]
  split <;> rfl

theorem step_poll_raised (after : ℚ) {e : PyError} (hnow : now < deadline)
    (hscan : scan (w.examine sendTs) (acc.events.drop nextIdx) nextIdx last = .raised e) :
    step w ⟨acc, .waiting sendTs deadline nextIdx last⟩ (.poll now after) =
      some ⟨acc, .ended sendTs (.raised e)⟩ := by
  simp only [step, if_pos hnow, EventAccumulator.getAll, hscan]

theorem step_poll_expired (after : ℚ) (hnow : ¬ now < deadline) :
    step w ⟨acc, .waiting sendTs deadline nextIdx last⟩ (.poll now after) =
      some ⟨acc, .ended sendTs (.gaveUp (w.after last))⟩ := by
  simp only [step, if_neg hnow]

end Poll

/-- **A call ends**, at the latest with the first poll that finds the deadline passed. -/
theorem exists_ends {w : CursorLoop} {acc : EventAccumulator} {sendTs deadline : ℚ} {nextIdx : ℕ}
    {last : Option Json} {ls : List Label} (hls : ∀ l ∈ ls, l.whileWaiting = true)
    (hlate : ∃ now after, .poll now after ∈ ls ∧ deadline ≤ now) :
    ∃ ls' o, ls' <+: ls ∧ Ends w ⟨acc, .waiting sendTs deadline nextIdx last⟩ ls' o := by
  induction ls generalizing acc nextIdx last with
  | nil =>
    obtain ⟨_, _, hl, _⟩ := hlate
    cases hl
  | cons l ls ih =>
    obtain ⟨hl, hls⟩ := List.forall_mem_cons.mp hls
    obtain ⟨now', after', hmem, hpast⟩ := hlate
    have ends : ∀ {o}, step w ⟨acc, .waiting sendTs deadline nextIdx last⟩ l =
          some ⟨acc, .ended sendTs o⟩ →
        ∃ ls' o, ls' <+: l :: ls ∧ Ends w ⟨acc, .waiting sendTs deadline nextIdx last⟩ ls' o := by
      intro o hstep
      exact ⟨[l], o, List.prefix_append .., ends_cons.mpr ⟨_, hstep, ends_ended.mpr ⟨rfl, rfl⟩⟩⟩
    have goesOn : ∀ {acc' nextIdx' last'}, .poll now' after' ∈ ls →
        step w ⟨acc, .waiting sendTs deadline nextIdx last⟩ l =
          some ⟨acc', .waiting sendTs deadline nextIdx' last'⟩ →
        ∃ ls' o, ls' <+: l :: ls ∧ Ends w ⟨acc, .waiting sendTs deadline nextIdx last⟩ ls' o := by
      intro acc' nextIdx' last' hmem hstep
      obtain ⟨ls', o, hle, h⟩ := ih hls ⟨now', after', hmem, hpast⟩
      exact ⟨l :: ls', o, (List.prefix_cons_inj _).mpr hle, ends_cons.mpr ⟨_, hstep, h⟩⟩
    cases l with
    | command | call => cases hl
    | push message now =>
      rcases List.mem_cons.mp hmem with hl | hmem
      · cases hl
      · exact goesOn hmem rfl
    | poll now after =>
      by_cases hnow : now < deadline
      · rcases hscan : scan (w.examine sendTs) (acc.events.drop nextIdx) nextIdx last with
          ⟨ev, v⟩ | e | ⟨newIdx, newLast⟩
        · exact ends (step_poll_found after hnow hscan)
        · exact ends (step_poll_raised after hnow hscan)
        · have hstep := step_poll_done after hnow hscan
          split at hstep
          · exact ends hstep
          · rcases List.mem_cons.mp hmem with hl | hmem
            · cases hl
              exact absurd hnow (not_lt.mpr hpast)
            · exact goesOn hmem hstep
      · exact ends (step_poll_expired after hnow)

/-- A call of `_wait_status_after` that is polled too late returns nothing. -/
theorem not_returns_of_late {timeout : ℚ} {predicate : Option (Json → Except PyError Bool)}
    {acc : EventAccumulator} {sendTs deadline : ℚ} {nextIdx : ℕ} {last : Option Json}
    {ls : List Label} {v : Json}
    (hlate : ∀ now after, .poll now after ∈ ls → ¬ now < deadline) :
    ¬ Returns (waitStatusAfter timeout predicate)
      ⟨acc, .waiting sendTs deadline nextIdx last⟩ ls v := by
  rintro ⟨o, h, ho⟩
  induction ls generalizing acc with
  | nil => exact not_ends_nil h
  | cons l ls ih =>
    obtain ⟨s, hl, h⟩ := ends_cons.mp h
    cases step_cases hl with
    | push => exact ih (fun now after hl => hlate now after (List.mem_cons_of_mem _ hl)) h
    | command hframe | call hframe => cases hframe
    | found hframe hnow | raised hframe hnow | breaks hframe hnow | goesOn hframe hnow =>
      cases hframe
      exact hlate _ _ List.mem_cons_self hnow
    | expires =>
      obtain ⟨-, rfl⟩ := ends_ended.mp h
      cases ho

theorem after_workMode (mode : String) (timeout : ℚ) (last : Option Json) :
    (waitWorkModeAfter mode timeout).after last = .ok (orBlank last) := by
  cases last <;> rfl

/-- `last_mode or ""` is not the mode, if `last_mode` is not. -/
theorem returned_after_ne {mode : String} {timeout : ℚ} {last : Option Json} (hmode : mode ≠ "")
    (hlast : (last.any fun v => v.eqStr mode) = false) :
    (Outcome.gaveUp ((waitWorkModeAfter mode timeout).after last)).returned ≠
      some (.str mode) := by
  rw [after_workMode]
  intro heq
  replace heq : orBlank last = .str mode := Option.some.inj heq
  cases last with
  | none => exact hmode (Json.str.inj heq).symm
  | some v =>
    simp only [orBlank] at heq
    split at heq
    · exact absurd (Json.eqStr_iff.mpr heq) (Bool.eq_false_iff.mp hlast)
    · exact hmode (Json.str.inj heq).symm

theorem Schedule.cut {ls ls' : List Label} (h : Schedule ls) (hle : ls' <+: ls) :
    Schedule ls' :=
  ⟨fun message now hl => h.shaped message now (hle.subset hl), h.clock.sublist hle.sublist⟩

theorem Schedule.tail {l : Label} {ls : List Label} (h : Schedule (l :: ls)) : Schedule ls :=
  ⟨fun message now hl => h.shaped message now (List.mem_cons_of_mem _ hl),
    (List.pairwise_cons.mp h.clock).2⟩

theorem readable_push {acc : EventAccumulator} {nextIdx : ℕ} {sendTs : ℚ} {message : Received}
    (h : ∀ ev ∈ acc.events.drop nextIdx, Readable sendTs ev.body) (hmessage : ObjectShaped message)
    (now : ℚ) : ∀ ev ∈ (acc.push message now).events.drop nextIdx, Readable sendTs ev.body := by
  intro ev hev
  rw [EventAccumulator.push, List.drop_append] at hev
  rcases List.mem_append.mp hev with hev | hev
  · exact h ev hev
  · rw [List.mem_singleton.mp (List.mem_of_mem_drop hev)]
    exact hmessage.readable sendTs now

/-- **The two loops in lockstep.** Where `_wait_work_mode_after` is left because no time remains,
`_wait_status_after` goes on, but all its polls are too late. -/
theorem lockstep {mode : String} (hmode : mode ≠ "")
    {timeout timeout' sendTs deadline deadline' : ℚ} {acc : EventAccumulator} {nextIdx : ℕ}
    {last last' : Option Json} {ls : List Label} (hls : Schedule ls)
    (htime : ∀ now after, .poll now after ∈ ls → (now < deadline ↔ now < deadline'))
    (hevs : ∀ ev ∈ acc.events.drop nextIdx, Readable sendTs ev.body)
    (hlast : (last.any fun v => v.eqStr mode) = false) :
    Returns (waitWorkModeAfter mode timeout) ⟨acc, .waiting sendTs deadline nextIdx last⟩ ls
        (.str mode) ↔
      ∃ ev, Returns (waitStatusWithMode mode timeout')
        ⟨acc, .waiting sendTs deadline' nextIdx last'⟩ ls ev := by
  induction ls generalizing acc nextIdx last with
  | nil => exact iff_of_false (fun ⟨_, h, _⟩ => not_ends_nil h) fun ⟨_, _, h, _⟩ => not_ends_nil h
  | cons l ls ih =>
    have htime' : ∀ now after, .poll now after ∈ ls → (now < deadline ↔ now < deadline') :=
      fun now after hl => htime now after (List.mem_cons_of_mem _ hl)
    cases l with
    | command | call =>
      refine iff_of_false ?_ ?_
      · rintro ⟨_, h, _⟩
        obtain ⟨_, ⟨⟩, _⟩ := ends_cons.mp h
      · rintro ⟨_, _, h, _⟩
        obtain ⟨_, ⟨⟩, _⟩ := ends_cons.mp h
    | push message now =>
      have hnew := readable_push hevs (hls.shaped message now List.mem_cons_self) now
      exact (returns_cons rfl).trans ((ih hls.tail htime' hnew hlast).trans
        (exists_congr fun _ => (returns_cons rfl).symm))
    | poll now after =>
      have htimes := htime now after List.mem_cons_self
      by_cases hnow : now < deadline
      · rcases scan_both timeout timeout' nextIdx last' hevs hlast with
          ⟨ev, hwork, hstatus⟩ | ⟨newIdx, newLast, hwork, hstatus, hnew, -⟩
        · simp only [returns_cons (step_poll_found after hnow hwork),
            returns_cons (step_poll_found after (htimes.mp hnow) hstatus)]
          simp only [returns_ended, Outcome.returned, exists_and_left, Option.some.injEq,
            exists_eq']
        · simp only [returns_cons (step_poll_done after hnow hwork),
            returns_cons (step_poll_done after (htimes.mp hnow) hstatus)]
          by_cases hafter : deadline - after ≤ 0
          · rw [if_pos ⟨rfl, hafter⟩, returns_ended]
            refine iff_of_false (fun h => returned_after_ne hmode hnew h.2) ?_
            rintro ⟨ev, h⟩
            refine not_returns_of_late (fun now' after' hl => ?_) h
            have hclock := (List.pairwise_cons.mp hls.clock).1 _ hl
            rw [← htime' now' after' hl]
            linarith
          · rw [if_neg fun h => hafter h.2]
            -- the cursor is at the end
            have hnone : acc.events.drop newIdx = [] := by
              rw [(visited_of_done hwork).1, List.drop_eq_nil_iff, List.length_drop]
              omega
            exact ih hls.tail htime' (by simp [hnone]) hnew
      · simp only [returns_cons (step_poll_expired after hnow),
          returns_cons (step_poll_expired after (mt htimes.mpr hnow))]
        rw [returns_ended]
        refine iff_of_false (fun h => returned_after_ne hmode hlast h.2) ?_
        rintro ⟨ev, h⟩
        cases (returns_ended.mp h).2

/-! ## The last mode -/

theorem readable_of_pushed {ls : List Label} {ev : Received}
    (hls : ∀ message now, .push message now ∈ ls → ObjectShaped message) (hev : ev ∈ pushed ls)
    (sendTs : ℚ) : Readable sendTs ev.body := by
  obtain ⟨l, hl, heq⟩ := List.mem_filterMap.mp hev
  split at heq
  · rename_i message now
    obtain rfl := Option.some.inj heq
    exact (hls message now hl).readable sendTs now
  · cases heq

/-- What is known of a call of `_wait_work_mode_after` that has examined `seen`. -/
def Noted (mode : String) (sendTs : ℚ) (seen : List (Received × ℕ)) (s : Watch) : Prop :=
  match s.frame with
  | .waiting sendTs' _ _ last => sendTs' = sendTs ∧ last = lastMode sendTs seen ∧
      (last.any fun v => v.eqStr mode) = false
  | .ended _ o => o.returned ≠ some (.str mode) →
      o.returned = some (orBlank (lastMode sendTs seen))
  | _ => False

/-- What comes of one pass. -/
theorem Noted.look {mode : String} {timeout sendTs sendTs' deadline : ℚ}
    {seen : List (Received × ℕ)} {s : Watch} {nextIdx : ℕ} {last : Option Json} {r : Scan}
    (h : Noted mode sendTs seen s) (hframe : s.frame = .waiting sendTs' deadline nextIdx last)
    (hevs : ∀ ev ∈ (s.acc.getAll none).drop nextIdx, Readable sendTs ev.body)
    (hscan : scan ((waitWorkModeAfter mode timeout).examine sendTs')
      ((s.acc.getAll none).drop nextIdx) nextIdx last = r) :
    match r with
    | .found _ v => v = .str mode
    | .raised _ => False
    | .done _ last' => sendTs' = sendTs ∧ last' = lastMode sendTs (seen ++
          visited ((waitWorkModeAfter mode timeout).examine sendTs')
            ((s.acc.getAll none).drop nextIdx) nextIdx) ∧
        (last'.any fun v => v.eqStr mode) = false := by
  simp only [Noted, hframe] at h
  obtain ⟨rfl, hlast, hnone⟩ := h
  rcases scan_both timeout timeout nextIdx none hevs hnone with
    ⟨ev, hwork, -⟩ | ⟨newIdx, newLast, hwork, -, hnone', hnew⟩
  · obtain rfl := hscan.symm.trans hwork
    rfl
  · obtain rfl := hscan.symm.trans hwork
    exact ⟨rfl, by rw [lastMode_append, ← hlast]; exact hnew, hnone'⟩

theorem noted_gaveUp {mode : String} (timeout : ℚ) {sendTs : ℚ} (sendTs' : ℚ)
    {seen : List (Received × ℕ)} (acc : EventAccumulator) {last : Option Json}
    (hlast : last = lastMode sendTs seen) : Noted mode sendTs seen
      ⟨acc, .ended sendTs' (.gaveUp ((waitWorkModeAfter mode timeout).after last))⟩ := by
  rw [after_workMode, hlast]
  exact fun _ => rfl

/-- **Every run keeps the last mode.** -/
theorem run_noted {mode : String} {timeout sendTs now : ℚ} {acc : EventAccumulator}
    {ls : List Label} {s : Watch}
    (h : Lts.run (step (waitWorkModeAfter mode timeout))
      (entered (waitWorkModeAfter mode timeout) acc sendTs now) ls = some s)
    (hls : ∀ message now, .push message now ∈ ls → ObjectShaped message) :
    Noted mode sendTs (examined (waitWorkModeAfter mode timeout)
      (entered (waitWorkModeAfter mode timeout) acc sendTs now) ls) s := by
  revert hls
  refine Lts.run_induction (motive := fun ls s =>
    (∀ message now, .push message now ∈ ls → ObjectShaped message) →
    Noted mode sendTs (examined (waitWorkModeAfter mode timeout)
      (entered (waitWorkModeAfter mode timeout) acc sendTs now) ls) s) ?_ ?_ h
  · exact fun _ => ⟨rfl, rfl, rfl⟩
  · intro ls l s s' hrun ih hl hls
    have hold : ∀ message now, .push message now ∈ ls → ObjectShaped message :=
      fun message now hmessage => hls message now (List.mem_append_left _ hmessage)
    replace ih := ih hold
    have hevs : ∀ {sendTs' deadline nextIdx last},
        s.frame = .waiting sendTs' deadline nextIdx last →
          ∀ ev ∈ (s.acc.getAll none).drop nextIdx, Readable sendTs ev.body := by
      intro sendTs' deadline nextIdx last hframe ev hev
      rw [(run_tracks _ acc sendTs now hrun).drop_eq hframe] at hev
      exact readable_of_pushed hold (List.mem_of_mem_drop hev) sendTs
    rw [examined, Lts.outputs_concat hrun, ← examined]
    cases step_cases hl with
    | push hframe =>
      simp only [examinedAt, List.append_nil]
      exact ih
    | command hframe | call hframe => simp only [Noted, hframe] at ih
    | found hframe hnow hscan =>
      exact fun hne => absurd (congrArg some (ih.look hframe (hevs hframe) hscan)) hne
    | raised hframe hnow hscan => exact (ih.look hframe (hevs hframe) hscan).elim
    | breaks hframe hnow hscan =>
      obtain ⟨-, hlast, -⟩ := ih.look hframe (hevs hframe) hscan
      simp only [examinedAt, hframe, if_pos hnow]
      exact noted_gaveUp timeout _ _ hlast
    | goesOn hframe hnow hscan =>
      simp only [examinedAt, hframe, if_pos hnow]
      exact ih.look hframe (hevs hframe) hscan
    | expires hframe hnow =>
      simp only [examinedAt, hframe, if_neg hnow, List.append_nil]
      simp only [Noted, hframe] at ih
      exact noted_gaveUp timeout _ _ ih.2.1

/-- **The two loops agree**, where `_wait_work_mode_after` otherwise returns `last_mode or ""`. -/
theorem loopsAgree_orBlank : LoopsAgree orBlank := by
  intro ls hls mode hmode timeout timeout' acc sendTs now htime
  constructor
  · exact lockstep hmode hls htime (by simp [EventAccumulator.count]) rfl
  · rintro o ⟨s, sendTs', hrun, hframe⟩ hne
    have hs := run_noted hrun hls.shaped
    simp only [Noted, hframe] at hs
    exact hs hne

/-- **A waiting loop examines what comes exactly once, it ends, and the loops agree.**

The first part holds in every state of every run, for each of the three helpers (`Once`). A run that
polls once behind the deadline has ended by then. And the loop for the work mode returns the mode
exactly if the loop for a status finds one with that mode, on the same pushes and polls; otherwise
it returns the last mode that it has seen, or the empty text for one that is taken to be false. -/
theorem once_and_agree :
    (∀ (w : CursorWait) acc sendTs now ls,
      (∀ s, Lts.run (step w.loop) (entered w.loop acc sendTs now) ls = some s →
        Once w.loop acc sendTs now ls s) ∧
      ((∀ l ∈ ls, l.whileWaiting = true) →
        (∃ now' after, .poll now' after ∈ ls ∧ now + w.loop.timeout ≤ now') →
          ∃ ls' o, ls' <+: ls ∧ Ends w.loop (entered w.loop acc sendTs now) ls' o)) ∧
      LoopsAgree orBlank :=
  ⟨fun w acc sendTs now _ => ⟨fun _ => run_once w.loop acc sendTs now, exists_ends⟩,
    loopsAgree_orBlank⟩

/-- One status event, with this mode, and two polls. -/
def oneStatus (mode : Json) : List Label :=
  [.push ⟨0, .obj [("type", .str "hardware_status_update"),
      ("data", .obj [("job_statistics", .obj [("work_mode", mode)])])]⟩ 1, .poll 1 1, .poll 2 2]

theorem schedule_oneStatus (mode : Json) : Schedule (oneStatus mode) where
  shaped message now hl := by
    obtain ⟨rfl, -⟩ : message = _ ∧ now = 1 := by simpa [oneStatus] using hl
    exact ⟨_, rfl, fun _ => ⟨_, rfl⟩⟩
  clock := by simp [oneStatus]

/-- A run that returns something can be checked by evaluating it. -/
theorem returned_of_run (w : CursorLoop) (s : Watch) (ls : List Label) (p : Json → Bool)
    (h : ((Lts.run (step w) s ls).any fun s => match s.frame with
      | .ended _ o => o.returned.any p
      | _ => false) = true) :
    ∃ s' sendTs o v, Lts.run (step w) s ls = some s' ∧ s'.frame = .ended sendTs o ∧
      o.returned = some v ∧ p v = true := by
  obtain ⟨s', hs', hended⟩ := (Option.any_eq_true ..).mp h
  split at hended
  · rename_i sendTs o hframe
    obtain ⟨v, hv, hp⟩ := (Option.any_eq_true ..).mp hended
    exact ⟨s', sendTs, o, v, hs', hframe, hv, hp⟩
  · cases hended

/-- The event is examined, and both loops return on account of it. -/
theorem once_and_agree_screw :
    (∃ s, Once (CursorWait.workModeAfter "screw" 2).loop .new 0 0
      ((oneStatus (.str "screw")).take 2) s) ∧
    (∃ ls o, ls <+: oneStatus (.str "screw") ∧ Ends (CursorWait.workModeAfter "screw" 2).loop
      (entered (CursorWait.workModeAfter "screw" 2).loop .new 0 0) ls o) ∧
    ∃ ev, Returns (waitStatusWithMode "screw" 2)
      (entered (waitStatusWithMode "screw" 2) .new 0 0)
      ((oneStatus (.str "screw")).take 2) ev := by
  obtain ⟨s, sendTs, o, v, hs, hframe, hv, hscrew⟩ := returned_of_run
    (waitWorkModeAfter "screw" 2) (entered (waitWorkModeAfter "screw" 2) .new 0 0)
    ((oneStatus (.str "screw")).take 2) (fun v => v.eqStr "screw") (by decide +kernel)
  obtain rfl := Json.eqStr_iff.mp hscrew
  obtain ⟨honce, -⟩ := once_and_agree.1 (.workModeAfter "screw" 2) .new 0 0
    ((oneStatus (.str "screw")).take 2)
  obtain ⟨-, hends⟩ := once_and_agree.1 (.workModeAfter "screw" 2) .new 0 0
    (oneStatus (.str "screw"))
  have hagree := once_and_agree.2 _ ((schedule_oneStatus (.str "screw")).cut
    (List.take_prefix 2 _)) "screw" (by decide) 2 2 .new 0 0 fun _ _ _ => Iff.rfl
  refine ⟨⟨s, honce s hs⟩, hends (by simp [oneStatus, Label.whileWaiting]) ⟨2, 2, ?_⟩,
    hagree.iff.mp ⟨o, ⟨s, sendTs, hs, hframe⟩, hv⟩⟩
  exact ⟨by simp [oneStatus], by decide +kernel⟩

/-- The mode that is seen is `0`, which is not `None`; but `_wait_work_mode_after` returns the empty
string. -/
theorem not_loopsAgree_nullToBlank : ¬ LoopsAgree nullToBlank := by
  intro h
  obtain ⟨s, sendTs, o, v, hs, hframe, hv, hblank⟩ := returned_of_run
    (waitWorkModeAfter "screw" 2) (entered (waitWorkModeAfter "screw" 2) .new 0 0)
    (oneStatus (.num 0)) (fun v => v.eqStr "") (by decide +kernel)
  have hlast : (nullToBlank (lastMode 0 (examined (waitWorkModeAfter "screw" 2)
      (entered (waitWorkModeAfter "screw" 2) .new 0 0) (oneStatus (.num 0))))).eqStr "" =
        false := by decide +kernel
  obtain rfl := Json.eqStr_iff.mp hblank
  have hagree := h (oneStatus (.num 0)) (schedule_oneStatus _) "screw" (by decide) 2 2 .new 0 0
    fun _ _ _ => Iff.rfl
  have hreturned := hagree.otherwise o ⟨s, sendTs, hs, hframe⟩ (by simp [hv])
  rw [hv] at hreturned
  rw [← Option.some.inj hreturned] at hlast
  cases hlast

end Watch

end SasTests
