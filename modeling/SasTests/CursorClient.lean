import SasTests.CursorScan
import SasTests.EventAsserts

/-!
# Waiting with a cursor on a client

The helpers that wait with a cursor poll the accumulator of a client that goes on working: its
receive loop pushes, other tasks make calls, and some of these register queues. `Tested` is a
client with one caller of a helper, in any order of their steps.

`waits_exactly` says what a call of a helper comes to, in every run of the client, as long as nobody
clears the accumulator: it returns the first object it wants among those that the client has
received since and left in the accumulator, and gives up only if none of them had come by its last
poll in time; and once queues are registered for the types that a helper waits for, it never returns
an event again.
-/

namespace SasTests

open Python

/-- A client, and a test that commands and waits on it. -/
structure Tested where
  loop : Loop
  frame : WatchFrame

namespace Tested

/-- What can happen next. -/
inductive Label
  /-- something happens to the client -/
  | client (l : Loop.Label)
  /-- the test goes on -/
  | test (l : Watch.Label)

/-- What the test sees. -/
def watch (s : Tested) : Watch := ⟨s.loop.client.events, s.frame⟩

/-- One atomic step. -/
def step (w : CursorLoop) (s : Tested) : Label → Option Tested
  | .client l => (s.loop.step l).map fun loop => { s with loop := loop }
  -- only the receive task pushes
  | .test (.push _ _) => none
  | .test l => (s.watch.step w l).map fun t => { s with frame := t.frame }

/-- The label clears the accumulator. -/
def Label.clears : Label → Bool
  | .client l => l.clears
  | .test _ => false

/-- What a step leaves in the accumulator. -/
def leaves (s : Tested) : Label → List Received
  | .client l => s.loop.leaves l
  | .test _ => []

/-- A call of the helper begins at `now`. -/
def entered (w : CursorLoop) (loop : Loop) (sendTs now : ℚ) : Tested :=
  ⟨loop, (Watch.entered w loop.client.events sendTs now).frame⟩

/-- What the client has received since the call began, and left in the accumulator. -/
def arrivals (w : CursorLoop) (loop : Loop) (sendTs now : ℚ) (ls : List Label) : List Received :=
  Lts.outputs (step w) leaves (entered w loop sendTs now) ls

/-- At a poll that is in time, nothing that the helper wants has come; `count` events were there
before it was called. -/
def NothingYet (w : CursorWait) (sendTs deadline : ℚ) (count : ℕ) (s : Tested) : Label → Prop
  | .test (.poll now _) =>
    now < deadline → NoneWanted w sendTs (s.loop.client.events.events.drop count)
  | _ => True

end Tested

/-- The types of the events that a helper waits for. -/
def CursorWait.types : CursorWait → List String
  | complianceEvent _ => ["spec_compliance_update", "spec_compliance_query_response"]
  | _ => [MsgType.hardwareStatusUpdate]

/-- What a helper returns on account of an event that it wants. -/
def CursorWait.Makes : CursorWait → Received → Json → Prop
  | workModeAfter expected _, _, v => v = .str expected
  | _, ev, v => v = ev.body

theorem CursorWait.types_regular (w : CursorWait) : ∀ t ∈ w.types, Regular t := by
  cases w with
  | complianceEvent =>
    refine List.forall_mem_cons.mpr ⟨?_, List.forall_mem_singleton.mpr ?_⟩ <;>
      exact ⟨by decide, by decide, by decide⟩
  | _ => exact List.forall_mem_singleton.mpr ⟨by decide, by decide, by decide⟩

/-- What is wanted is of one of these types. -/
theorem CursorWait.typeIs_of_wants {w : CursorWait} {sendTs : ℚ} {ev : Received}
    (h : w.wants sendTs ev.body = true) : ∃ t ∈ w.types, ev.typeIs t = true := by
  have hkind : w.hasType ev.body = true := by
    rw [wants, Bool.and_eq_true, Bool.and_eq_true] at h
    exact h.1.1
  obtain ⟨idx, body⟩ := ev
  cases body with
  | obj fields =>
    cases w with
    | complianceEvent =>
      simp only [hasType, isComplianceEvent, Json.get_obj, bind, Except.bind] at hkind
      by_cases hhash : (Json.field fields "type").hashable = true
      · rw [if_pos hhash] at hkind
        rcases Bool.or_eq_true_iff.mp hkind with heq | heq
        · exact ⟨_, List.mem_cons_self .., heq⟩
        · exact ⟨_, List.mem_cons_of_mem _ (List.mem_cons_self ..), heq⟩
      · rw [if_neg hhash] at hkind
        cases hkind
    | _ => exact ⟨_, List.mem_cons_self .., hkind⟩
  | _ => cases w <;> cases hkind

namespace Tested

variable {w : CursorWait} {loop : Loop} {sendTs now : ℚ} {s s' : Tested} {l : Label}
  {ls : List Label}

/-! ## The accumulator -/

/-- What a step adds to the accumulator, unless it clears it. -/
theorem step_events {w : CursorLoop} (hl : s.step w l = some s') :
    s'.loop.client.events.events =
      (if l.clears then [] else s.loop.client.events.events) ++ s.leaves l := by
  cases l with
  | client l =>
    obtain ⟨loop, hloop, rfl⟩ := Option.map_eq_some_iff.mp hl
    exact Loop.step_leaves hloop
  | test l =>
    have hsame : s'.loop = s.loop := by
      cases l with
      | push => cases hl
      | _ =>
        obtain ⟨t, -, rfl⟩ := Option.map_eq_some_iff.mp hl
        rfl
    rw [hsame]
    exact (List.append_nil _).symm

theorem arrivals_concat {w : CursorLoop}
    (h : Lts.run (step w) (entered w loop sendTs now) ls = some s) (l : Label) :
    arrivals w loop sendTs now (ls ++ [l]) = arrivals w loop sendTs now ls ++ s.leaves l :=
  Lts.outputs_concat h l

/-- Behind what was there when the call began stands what has come since. -/
theorem run_events {w : CursorLoop}
    (h : Lts.run (step w) (entered w loop sendTs now) ls = some s)
    (hclear : ls.any Label.clears = false) :
    s.loop.client.events.events =
      loop.client.events.events ++ arrivals w loop sendTs now ls := by
  revert hclear
  refine Lts.run_induction (motive := fun ls s => ls.any Label.clears = false →
    s.loop.client.events.events =
      loop.client.events.events ++ arrivals w loop sendTs now ls)
    (fun _ => (List.append_nil _).symm) ?_ h
  intro ls l s s' hrun ih hl hclear
  rw [List.any_append, Bool.or_eq_false_iff, List.any_cons, List.any_nil, Bool.or_false] at hclear
  rw [step_events hl, hclear.2, if_neg Bool.false_ne_true, ih hclear.1, arrivals_concat hrun,
    List.append_assoc]

/-- What a step leaves is the object that it receives. -/
theorem of_leaves {ev : Received} (h : ev ∈ s.leaves l) :
    ∃ fields t, l = .client (.receive (.ok (.obj fields)) t) ∧
      ev = Received.stamp ⟨s.loop.log.length, .obj fields⟩ t := by
  cases l with
  | client l =>
    rw [leaves, Loop.leaves.eq_def] at h
    split at h
    · split at h
      · exact ⟨_, _, rfl, List.mem_singleton.mp h⟩
      · cases h
    · cases h
  | test => cases h

/-! ## What the helper comes to -/

/-- What has been passed over, and one more pass. -/
theorem scanned_append {events : List Received} {n nextIdx : ℕ} {ev : Received} {v : Json}
    (hold : NoneWanted w sendTs (events.take n))
    (h : Scanned w sendTs (events.drop n) nextIdx (.found ev v)) :
    Scanned w sendTs events 0 (.found ev v) := by
  obtain ⟨pre, post, hdrop, hpre, hev, hv⟩ := h
  refine ⟨events.take n ++ pre, post, ?_, noneWanted_append.mpr ⟨hold, hpre⟩, hev, hv⟩
  rw [List.append_assoc, ← hdrop, List.take_append_drop]

/-- At all polls in time, nothing that the helper wants had come. -/
def Quiet (w : CursorWait) (loop : Loop) (sendTs now : ℚ) (ls : List Label) : Prop :=
  Lts.Along (step w.loop)
    (NothingYet w sendTs (now + w.loop.timeout) loop.client.events.count)
    (entered w.loop loop sendTs now) ls

/-- What is known of a call in progress, and of one that has ended. -/
def Keeps (w : CursorWait) (loop : Loop) (sendTs now : ℚ) (ls : List Label) (s : Tested) : Prop :=
  match s.frame with
  | .waiting sendTs' deadline nextIdx _ => sendTs' = sendTs ∧ deadline = now + w.loop.timeout ∧
      loop.client.events.count ≤ nextIdx ∧
      nextIdx ≤ loop.client.events.count + (arrivals w.loop loop sendTs now ls).length ∧
      NoneWanted w sendTs ((arrivals w.loop loop sendTs now ls).take
        (nextIdx - loop.client.events.count)) ∧ Quiet w loop sendTs now ls
  | .ended _ (.found ev v) => Scanned w sendTs (arrivals w.loop loop sendTs now ls) 0 (.found ev v)
  | .ended _ (.gaveUp _) => Quiet w loop sendTs now ls
  | .ended _ (.raised _) => True
  | .before | .commanding _ => False

/-- The client goes on: what comes, comes at the end. -/
theorem Keeps.client (hs : Keeps w loop sendTs now ls s)
    (hrun : Lts.run (step w.loop) (entered w.loop loop sendTs now) ls = some s) (l : Loop.Label)
    (loop' : Loop) :
    Keeps w loop sendTs now (ls ++ [.client l]) { s with loop := loop' } := by
  have hquiet : Quiet w loop sendTs now ls → Quiet w loop sendTs now (ls ++ [.client l]) :=
    fun h => Lts.along_concat.mpr ⟨h, fun _ _ => trivial⟩
  rcases hf : s.frame with _ | _ | ⟨sendTs', deadline, nextIdx, last⟩ |
      ⟨sendTs', ⟨ev, v⟩ | _ | _⟩ <;>
    simp only [Keeps, hf] at hs ⊢
  · obtain ⟨hts, hdeadline, hge, hle, hnone, hq⟩ := hs
    rw [arrivals_concat hrun, List.length_append,
      List.take_append_of_le_length (by omega)]
    exact ⟨hts, hdeadline, hge, by omega, hnone, hquiet hq⟩
  · obtain ⟨pre, post, hcame, hpre, hev, hv⟩ := hs
    rw [arrivals_concat hrun, hcame, List.append_assoc, List.cons_append]
    exact ⟨pre, _, rfl, hpre, hev, hv⟩
  · exact hquiet hs

/-- The test goes on: one pass over what has come since the last one. -/
theorem Keeps.test (hs : Keeps w loop sendTs now ls s)
    (hrun : Lts.run (step w.loop) (entered w.loop loop sendTs now) ls = some s)
    (hclear : ls.any Label.clears = false) {l : Watch.Label}
    (hl : s.step w.loop (.test l) = some s') :
    Keeps w loop sendTs now (ls ++ [.test l]) s' := by
  have hsame : arrivals w.loop loop sendTs now (ls ++ [.test l]) =
      arrivals w.loop loop sendTs now ls := by
    rw [arrivals_concat hrun]
    exact List.append_nil _
  have hevents := run_events hrun hclear
  obtain ⟨t, ht, rfl⟩ : ∃ t, s.watch.step w.loop l = some t ∧ s' = { s with frame := t.frame } := by
    cases l with
    | push => cases hl
    | _ =>
      obtain ⟨t, ht, rfl⟩ := Option.map_eq_some_iff.mp hl
      exact ⟨t, ht, rfl⟩
  -- one pass looks at what has come and has not been passed over
  have waiting : ∀ {sendTs' deadline nextIdx last},
      s.frame = .waiting sendTs' deadline nextIdx last →
        (sendTs' = sendTs ∧ deadline = now + w.loop.timeout) ∧
        loop.client.events.count ≤ nextIdx ∧ Quiet w loop sendTs now ls ∧
        nextIdx ≤ loop.client.events.count + (arrivals w.loop loop sendTs now ls).length ∧
        NoneWanted w sendTs ((arrivals w.loop loop sendTs now ls).take
          (nextIdx - loop.client.events.count)) ∧
        Scanned w sendTs ((arrivals w.loop loop sendTs now ls).drop
          (nextIdx - loop.client.events.count)) nextIdx
          (scan (w.loop.examine sendTs) ((s.loop.client.events.getAll none).drop nextIdx) nextIdx
            last) := by
    intro sendTs' deadline nextIdx last hframe
    simp only [Keeps, hframe] at hs
    obtain ⟨hts, hdeadline, hge, hle, hnone, hquiet⟩ := hs
    refine ⟨⟨hts, hdeadline⟩, hge, hquiet, hle, hnone, ?_⟩
    have hdrop : (s.loop.client.events.getAll none).drop nextIdx =
        (arrivals w.loop loop sendTs now ls).drop (nextIdx - loop.client.events.count) := by
      rw [EventAccumulator.getAll, hevents, List.drop_append,
        List.drop_of_length_le hge, List.nil_append]
      rfl
    rw [hdrop]
    exact scan_scanned ..
  -- at a poll after which nothing has been found, nothing wanted has come
  have quiet : ∀ {t after}, l = .poll t after → Quiet w loop sendTs now ls →
      (t < now + w.loop.timeout → NoneWanted w sendTs (arrivals w.loop loop sendTs now ls)) →
      Quiet w loop sendTs now (ls ++ [.test l]) := by
    rintro t after rfl hq hnone
    refine Lts.along_concat.mpr ⟨hq, fun s₁ hs₁ => ?_⟩
    obtain rfl : s = s₁ := Option.some.inj (hrun.symm.trans hs₁)
    intro htime
    rw [hevents, EventAccumulator.count, List.drop_left]
    exact hnone htime
  cases Watch.step_cases ht with
  | push => cases hl
  | command hframe | call hframe =>
    have hframe' : s.frame = _ := hframe
    simp only [Keeps, hframe'] at hs
  | found hframe _ hscan =>
    obtain ⟨⟨rfl, -⟩, -, -, -, hnone, hscanned⟩ := waiting hframe
    have hpass := hscan ▸ hscanned
    simp only [Keeps, hsame]
    exact scanned_append hnone hpass
  | raised => trivial
  | breaks hframe _ hscan =>
    obtain ⟨⟨rfl, -⟩, -, hq, -, hnone, hscanned⟩ := waiting hframe
    have hpass := hscan ▸ hscanned
    exact quiet rfl hq fun _ => noneWanted_of_drop hnone hpass.2
  | @goesOn _ _ _ _ nextIdx nextIdx' _ _ hframe _ hscan =>
    obtain ⟨⟨rfl, rfl⟩, hge, hq, hle, hnone, hscanned⟩ := waiting hframe
    have hpass := hscan ▸ hscanned
    obtain ⟨hidx, hnew⟩ := hpass
    have hall := noneWanted_of_drop hnone hnew
    rw [List.length_drop] at hidx
    simp only [Keeps, hsame]
    refine ⟨trivial, trivial, by omega, by omega, fun ev hev => ?_, quiet rfl hq fun _ => hall⟩
    exact hall ev (List.mem_of_mem_take hev)
  | expires hframe hnow =>
    obtain ⟨⟨rfl, rfl⟩, -, hq, -⟩ := waiting hframe
    exact quiet rfl hq fun htime => absurd htime hnow

/-- **Every run keeps track.** -/
theorem run_keeps (h : Lts.run (step w.loop) (entered w.loop loop sendTs now) ls = some s)
    (hclear : ls.any Label.clears = false) : Keeps w loop sendTs now ls s := by
  revert hclear
  refine Lts.run_induction (motive := fun ls s => ls.any Label.clears = false →
    Keeps w loop sendTs now ls s) (fun _ => ?_) ?_ h
  · refine ⟨rfl, rfl, le_rfl, Nat.le_add_right .., ?_, Lts.along_nil⟩
    rw [Nat.sub_self, List.take_zero]
    exact List.forall_mem_nil _
  · intro ls l s s' hrun ih hl hclear
    rw [List.any_append, Bool.or_eq_false_iff] at hclear
    cases l with
    | client l =>
      obtain ⟨loop', -, rfl⟩ := Option.map_eq_some_iff.mp hl
      exact (ih hclear.1).client hrun l loop'
    | test l => exact (ih hclear.1).test hrun hclear.1 hl

/-! ## Registered types -/

/-- A registered type stays registered. -/
theorem run_registered {w : CursorLoop} {t : String} (ht : (loop.items t).isSome = true)
    (h : Lts.run (step w) (entered w loop sendTs now) ls = some s) :
    (s.loop.items t).isSome = true := by
  refine Lts.run_invariant (I := fun s => (s.loop.items t).isSome = true) ht ?_ h
  intro s l s' hs hl
  cases l with
  | client l =>
    obtain ⟨loop', hloop, rfl⟩ := Option.map_eq_some_iff.mp hl
    exact (Loop.step_effect hloop).registered hs
  | test l =>
    cases l with
    | push => cases hl
    | _ =>
      obtain ⟨t, -, rfl⟩ := Option.map_eq_some_iff.mp hl
      exact hs

/-- No step leaves an object of a registered type in the accumulator. -/
theorem not_typeIs_of_leaves {s : Loop} {l : Loop.Label} {t : String} (ht : Regular t)
    (hreg : (s.items t).isSome = true) {ev : Received} (hev : ev ∈ s.leaves l) :
    ev.typeIs t = false := by
  cases htype : ev.typeIs t
  · rfl
  · have hmem : ev ∈ Loop.unclaimed t s l := by
      rw [← Loop.filter_leaves]
      exact List.mem_filter.mpr ⟨hev, htype⟩
    obtain ⟨msg, now, rfl, hsingle, -⟩ := Loop.of_unclaimed hmem
    rw [Loop.unclaimed] at hmem
    split at hmem
    · rename_i hcond
      rcases hcond.2.2.2 with hempty | hnone
      · exact absurd hempty ht.1
      · rw [Option.isNone_iff_eq_none.mp hnone] at hreg
        cases hreg
    · cases hmem

/-- **What a call of a helper comes to**, in every run of a client in which nobody clears the
accumulator.

It returns the first event it wants among those that have come since it was called; it gives up only
if none had come at any of its polls in time; and it never returns an event if queues for its types
were registered when it was called. What came before the call is never looked at, even if it came
after the command. -/
theorem waits_exactly (h : Lts.run (step w.loop) (entered w.loop loop sendTs now) ls = some s)
    (hclear : ls.any Label.clears = false) :
    (∀ sendTs' ev v, s.frame = .ended sendTs' (.found ev v) →
        (arrivals w.loop loop sendTs now ls).find? (fun ev => w.wants sendTs ev.body) = some ev ∧
          w.Makes ev v) ∧
      (∀ sendTs' r, s.frame = .ended sendTs' (.gaveUp r) → Quiet w loop sendTs now ls) ∧
      ((∀ t ∈ w.types, (loop.items t).isSome = true) →
        ∀ sendTs' ev v, s.frame ≠ .ended sendTs' (.found ev v)) := by
  have hs := run_keeps h hclear
  refine ⟨fun sendTs' ev v hframe => ?_, fun sendTs' r hframe => ?_,
    fun hreg sendTs' ev v hframe => ?_⟩
  · simp only [Keeps, hframe] at hs
    obtain ⟨pre, post, hcame, hpre, hev, hv⟩ := hs
    refine ⟨List.find?_eq_some_iff_append.mpr ⟨hev, pre, post, hcame, fun x hx => ?_⟩, ?_⟩
    · rw [hpre x hx]
      rfl
    · cases w <;> exact hv
  · simpa only [Keeps, hframe] using hs
  · simp only [Keeps, hframe] at hs
    obtain ⟨pre, post, hcame, -, hev, -⟩ := hs
    obtain ⟨t, ht, htype⟩ := CursorWait.typeIs_of_wants hev
    obtain ⟨before, l, after, s₁, fresh, rest, -, hs₁, hout, -⟩ :=
      Lts.outputs_eq_append h hcame
    have hmem : ev ∈ s₁.leaves l := hout ▸ List.mem_append_right _ (List.mem_cons_self ..)
    cases l with
    | client l =>
      have hnot := not_typeIs_of_leaves (w.types_regular t ht) (run_registered (hreg t ht) hs₁) hmem
      rw [htype] at hnot
      cases hnot
    | test => cases hmem

/-- The helper has returned on account of an event. -/
def found (s : Tested) : Bool :=
  match s.frame with
  | .ended _ (.found _ _) => true
  | _ => false

theorem exists_of_found (h : s.found = true) :
    ∃ sendTs ev v, s.frame = .ended sendTs (.found ev v) := by
  rw [found] at h
  split at h
  · exact ⟨_, _, _, by assumption⟩
  · cases h

/-- An event comes while another call begins. -/
def meanwhile : List Label :=
  [.test (.poll 1 1), .client (.start 0 (.waitFor "a" 5) 1),
    .client (.receive (.ok (.obj [("type", .str "spec_compliance_update")])) 2),
    .client (.receive (.ok (.obj [("type", .str "spec_compliance_update")])) 3), .test (.poll 4 4)]

theorem waits_exactly_meanwhile :
    ∃ loop s sendTs' ev v, Lts.run Loop.step .new [.connect 0] = some loop ∧
      Lts.run (step (CursorWait.complianceEvent 6).loop)
        (entered (CursorWait.complianceEvent 6).loop loop 0 0) meanwhile = some s ∧
      s.frame = .ended sendTs' (.found ev v) ∧
      (arrivals (CursorWait.complianceEvent 6).loop loop 0 0 meanwhile).find?
        (fun ev => (CursorWait.complianceEvent 6).wants 0 ev.body) = some ev := by
  have hconnect : Lts.run Loop.step .new [.connect 0] = some _ := rfl
  have hrun : ((Lts.run (step (CursorWait.complianceEvent 6).loop)
      (entered (CursorWait.complianceEvent 6).loop
        { Loop.new with client := WSClient.new.connect 0 } 0 0) meanwhile).any found) = true := by
    decide +kernel
  obtain ⟨s, hs, hlast⟩ := (Option.any_eq_true ..).mp hrun
  obtain ⟨sendTs', ev, v, hframe⟩ := exists_of_found hlast
  exact ⟨_, s, sendTs', ev, v, hconnect, hs, hframe,
    ((waits_exactly hs (by decide)).1 sendTs' ev v hframe).1⟩

end Tested

end SasTests
