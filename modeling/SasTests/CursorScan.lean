import SasTests.CursorWait

/-!
# What a waiting loop examines

The cursor of `_wait_compliance_event`, `_wait_status_after` and `_wait_work_mode_after` starts at
the end of the accumulator and is advanced by one for each event that the body of the `for` loop
looks at. The list may grow between two polls; nothing is removed from it.

`examined` are the events that a call looks at in a run, with their places. They are those that are
pushed after it has begun, one after the other, up to the last poll or to the event with which the
loop is left (`run_once`).
-/

namespace SasTests

open Python

namespace Watch

/-! ## What is examined -/

/-- The events on which the body of the `for` loop is run, each with its place in the list. -/
def visited (examine : Json → Except PyError Verdict) :
    List Received → ℕ → List (Received × ℕ)
  | [], _ => []
  | ev :: evs, nextIdx => (ev, nextIdx) :: match examine ev.body with
    | .ok .skip => visited examine evs (nextIdx + 1)
    | .ok (.note _) => visited examine evs (nextIdx + 1)
    | .ok (.found _) => []
    | .error _ => []

/-- The result of `get_all` in a poll. -/
def snapshotAt (s : Watch) : Label → List (List Received)
  | .poll now _ => match s.frame with
    | .waiting _ deadline _ _ => if now < deadline then [s.acc.getAll none] else []
    | _ => []
  | _ => []

/-- What a poll examines. -/
def examinedAt (w : CursorLoop) (s : Watch) : Label → List (Received × ℕ)
  | .poll now _ => match s.frame with
    | .waiting sendTs deadline nextIdx _ =>
      if now < deadline then
        visited (w.examine sendTs) ((s.acc.getAll none).drop nextIdx) nextIdx
      else []
    | _ => []
  | _ => []

/-- The events that are pushed. -/
def pushed (ls : List Label) : List Received :=
  ls.filterMap fun
    | .push message now => some (message.stamp now)
    | _ => none

/-- The results of `get_all` in a run. -/
def snapshots (w : CursorLoop) : Watch → List Label → List (List Received) :=
  Lts.outputs (step w) snapshotAt

/-- What is examined in a run. -/
def examined (w : CursorLoop) : Watch → List Label → List (Received × ℕ) :=
  Lts.outputs (step w) (examinedAt w)

/-- A call of the helper begins at `now`. -/
def entered (w : CursorLoop) (acc : EventAccumulator) (sendTs now : ℚ) : Watch :=
  ⟨acc, .waiting sendTs (now + w.timeout) acc.count none⟩

theorem step_call (w : CursorLoop) (acc : EventAccumulator) (sendTs now : ℚ) :
    step w ⟨acc, .commanding sendTs⟩ (.call now) = some (entered w acc sendTs now) := rfl

/-- An exception or a `return` has left the `for` loop. -/
def Broken (s : Watch) : Prop :=
  ∃ sendTs o, s.frame = .ended sendTs o ∧ ∀ r, o ≠ .gaveUp r

/-! ## One pass -/

theorem visited_prefix (examine : Json → Except PyError Verdict) (evs : List Received)
    (nextIdx : ℕ) : visited examine evs nextIdx <+: evs.zipIdx nextIdx := by
  induction evs generalizing nextIdx with
  | nil => exact List.prefix_rfl
  | cons ev evs ih =>
    rw [visited, List.zipIdx_cons, List.prefix_cons_inj]
    split
    · exact ih _
    · exact ih _
    · exact List.nil_prefix
    · exact List.nil_prefix

/-- A pass that comes to the end has examined everything. -/
theorem visited_of_done {examine : Json → Except PyError Verdict} {evs : List Received}
    {nextIdx nextIdx' : ℕ} {last last' : Option Json}
    (h : scan examine evs nextIdx last = .done nextIdx' last') :
    nextIdx' = nextIdx + evs.length ∧ visited examine evs nextIdx = evs.zipIdx nextIdx := by
  induction evs generalizing nextIdx last with
  | nil =>
    cases h
    exact ⟨rfl, rfl⟩
  | cons ev evs ih =>
    rw [scan] at h
    rw [visited, List.zipIdx_cons, List.length_cons]
    split at h
    · cases h
    · rename_i hex
      obtain ⟨hidx, hvisited⟩ := ih h
      simp only [hex, hvisited, and_true]
      omega
    · rename_i hex
      obtain ⟨hidx, hvisited⟩ := ih h
      simp only [hex, hvisited, and_true]
      omega
    · cases h

/-- A pass that returns has examined the event last with which it does. -/
theorem visited_of_found {examine : Json → Except PyError Verdict} {evs : List Received}
    {nextIdx : ℕ} {last : Option Json} {ev : Received} {v : Json}
    (h : scan examine evs nextIdx last = .found ev v) :
    ∃ k, (visited examine evs nextIdx).getLast? = some (ev, k) := by
  induction evs generalizing nextIdx last with
  | nil => cases h
  | cons x evs ih =>
    rw [scan] at h
    rw [visited]
    split at h
    · cases h
    · rename_i hex
      obtain ⟨k, hk⟩ := ih h
      simp only [hex]
      exact ⟨k, by rw [List.getLast?_cons, hk]; rfl⟩
    · rename_i hex
      obtain ⟨k, hk⟩ := ih h
      simp only [hex]
      exact ⟨k, by rw [List.getLast?_cons, hk]; rfl⟩
    · rename_i hex
      cases h
      simp only [hex]
      exact ⟨nextIdx, rfl⟩

/-! ## All polls -/

/-- What has been examined, and then what comes next. -/
theorem zipIdx_prefix_append {evs : List Received} {nextIdx : ℕ} {old new : List (Received × ℕ)}
    (hold : old <+: evs.zipIdx nextIdx)
    (hnew : new <+: (evs.drop old.length).zipIdx (nextIdx + old.length)) :
    old ++ new <+: evs.zipIdx nextIdx := by
  obtain ⟨rest, hrest⟩ := hold
  obtain ⟨before, behind, rfl, rfl, -⟩ := List.zipIdx_eq_append_iff.mp hrest.symm
  rw [List.length_zipIdx, List.drop_left] at hnew
  rw [List.zipIdx_append, List.prefix_append_right_inj]
  exact hnew

theorem prefix_zipIdx {evs evs' : List Received} (h : evs <+: evs') (nextIdx : ℕ) :
    evs.zipIdx nextIdx <+: evs'.zipIdx nextIdx := by
  obtain ⟨rest, rfl⟩ := h
  rw [List.zipIdx_append]
  exact List.prefix_append ..

/-- What a call that found `count` events in the accumulator has done: `snaps` are the snapshots it
has taken, and `seen` is what it has examined. -/
structure Tracks (acc : EventAccumulator) (ls : List Label) (snaps : List (List Received))
    (seen : List (Received × ℕ)) (s : Watch) : Prop where
  /-- nothing is removed -/
  events : s.acc.events = acc.events ++ pushed ls
  /-- every snapshot is still there -/
  snapshot : ∀ snap ∈ snaps, snap <+: s.acc.events
  grows : snaps.Pairwise (· <+: ·)
  inOrder : seen <+: (pushed ls).zipIdx acc.count
  /-- the helper has been called -/
  frame : (∃ sendTs deadline last,
      s.frame = .waiting sendTs deadline (acc.count + seen.length) last) ∨
    ∃ sendTs o, s.frame = .ended sendTs o
  /-- every snapshot has been worked off -/
  skipsNone : ¬ s.Broken → ∀ snap ∈ snaps, snap.length ≤ acc.count + seen.length
  last : ∀ sendTs ev v, s.frame = .ended sendTs (.found ev v) →
    ∃ k, seen.getLast? = some (ev, k)

section Tracks

variable {acc : EventAccumulator} {ls : List Label} {snaps : List (List Received)}
  {seen : List (Received × ℕ)} {s : Watch} {sendTs deadline now after : ℚ} {nextIdx : ℕ}
  {last : Option Json}

theorem pushed_concat_push (ls : List Label) (message : Received) (now : ℚ) :
    pushed (ls ++ [.push message now]) = pushed ls ++ [message.stamp now] := by
  rw [pushed, List.filterMap_append]
  rfl

theorem pushed_concat_poll (ls : List Label) (now after : ℚ) :
    pushed (ls ++ [.poll now after]) = pushed ls := by
  rw [pushed, List.filterMap_append]
  exact List.append_nil _

/-- The cursor stands behind what has been examined. -/
theorem Tracks.nextIdx_eq (h : Tracks acc ls snaps seen s)
    (hframe : s.frame = .waiting sendTs deadline nextIdx last) :
    nextIdx = acc.count + seen.length := by
  rcases h.frame with ⟨_, _, _, hf⟩ | ⟨_, _, hf⟩
  · rw [hframe] at hf
    exact (WatchFrame.waiting.inj hf).2.2.1
  · rw [hframe] at hf
    cases hf

/-- What is not yet examined. -/
theorem Tracks.drop_eq (h : Tracks acc ls snaps seen s)
    (hframe : s.frame = .waiting sendTs deadline nextIdx last) :
    (s.acc.getAll none).drop nextIdx = (pushed ls).drop seen.length := by
  rw [EventAccumulator.getAll, h.events, h.nextIdx_eq hframe, EventAccumulator.count,
    List.drop_append, List.drop_of_length_le (Nat.le_add_right ..), List.nil_append,
    Nat.add_sub_cancel_left]

theorem Tracks.push (h : Tracks acc ls snaps seen s)
    (hframe : ∀ sendTs o, s.frame ≠ .ended sendTs o) (message : Received) (now : ℚ) :
    Tracks acc (ls ++ [.push message now]) snaps seen
      { s with acc := s.acc.push message now } where
  events := by rw [EventAccumulator.push, h.events, pushed_concat_push, List.append_assoc]
  snapshot snap hsnap := (h.snapshot snap hsnap).trans (List.prefix_append ..)
  grows := h.grows
  inOrder := by
    rw [pushed_concat_push]
    exact h.inOrder.trans (prefix_zipIdx (List.prefix_append ..) _)
  frame := h.frame
  skipsNone := fun _ => h.skipsNone fun ⟨sendTs, o, hf, _⟩ => hframe sendTs o hf
  last sendTs ev v hf := absurd hf (hframe _ _)

/-- The deadline is tested, and has passed. -/
theorem Tracks.expires (h : Tracks acc ls snaps seen s)
    (hframe : s.frame = .waiting sendTs deadline nextIdx last) (r : Except PyError Json) :
    Tracks acc (ls ++ [.poll now after]) snaps seen
      { s with frame := .ended sendTs (.gaveUp r) } where
  events := by rw [pushed_concat_poll, h.events]
  snapshot := h.snapshot
  grows := h.grows
  inOrder := by rw [pushed_concat_poll]; exact h.inOrder
  frame := .inr ⟨sendTs, _, rfl⟩
  skipsNone := fun _ => h.skipsNone fun ⟨_, _, hf, _⟩ => by rw [hframe] at hf; cases hf
  last _ _ _ hf := by cases hf

/-- One pass goes on where the last one stopped. -/
theorem Tracks.seen_append (h : Tracks acc ls snaps seen s)
    (hframe : s.frame = .waiting sendTs deadline nextIdx last)
    (examine : Json → Except PyError Verdict) :
    seen ++ visited examine ((s.acc.getAll none).drop nextIdx) nextIdx <+:
      (pushed ls).zipIdx acc.count := by
  apply zipIdx_prefix_append h.inOrder
  rw [← h.drop_eq hframe, ← h.nextIdx_eq hframe]
  exact visited_prefix ..

/-- After a pass that comes to the end, the cursor is at the end. -/
theorem Tracks.nextIdx_of_done {examine : Json → Except PyError Verdict} {nextIdx' : ℕ}
    {last' : Option Json} (h : Tracks acc ls snaps seen s)
    (hframe : s.frame = .waiting sendTs deadline nextIdx last)
    (hdone : scan examine ((s.acc.getAll none).drop nextIdx) nextIdx last =
      .done nextIdx' last') :
    nextIdx' = acc.count +
        (seen ++ visited examine ((s.acc.getAll none).drop nextIdx) nextIdx).length ∧
      s.acc.events.length = nextIdx' := by
  obtain ⟨hidx, hall⟩ := visited_of_done hdone
  have hbound : seen.length ≤ (pushed ls).length := by
    simpa using h.inOrder.length_le
  rw [hall, hidx, List.length_append, List.length_zipIdx, h.drop_eq hframe, List.length_drop,
    h.nextIdx_eq hframe, h.events, List.length_append, EventAccumulator.count]
  omega

/-- One pass: the snapshot is worked off, unless the pass ends the call. -/
theorem Tracks.look {examine : Json → Except PyError Verdict} {frame : WatchFrame}
    (h : Tracks acc ls snaps seen s) (hframe : s.frame = .waiting sendTs deadline nextIdx last)
    (hscan : match scan examine ((s.acc.getAll none).drop nextIdx) nextIdx last with
      | .found ev v => frame = .ended sendTs (.found ev v)
      | .raised e => frame = .ended sendTs (.raised e)
      | .done nextIdx last => frame = .waiting sendTs deadline nextIdx last ∨
        ∃ r, frame = .ended sendTs (.gaveUp r)) :
    Tracks acc (ls ++ [.poll now after]) (snaps ++ [s.acc.getAll none])
      (seen ++ visited examine ((s.acc.getAll none).drop nextIdx) nextIdx)
      { s with frame := frame } := by
  have hsnap : ∀ snap ∈ snaps ++ [s.acc.getAll none], snap <+: s.acc.events := by
    refine List.forall_mem_append.mpr ⟨h.snapshot, fun snap hsnap => ?_⟩
    rw [List.mem_singleton.mp hsnap, EventAccumulator.getAll]
  refine ⟨by rw [pushed_concat_poll, h.events], hsnap, ?_, ?_, ?_, ?_, ?_⟩
  · refine List.pairwise_append.mpr ⟨h.grows, List.pairwise_singleton .., ?_⟩
    intro snap hsnap new hnew
    rw [List.mem_singleton.mp hnew]
    exact h.snapshot snap hsnap
  · rw [pushed_concat_poll]
    exact h.seen_append hframe examine
  · split at hscan
    · exact .inr ⟨_, _, hscan⟩
    · exact .inr ⟨_, _, hscan⟩
    · rename_i hdone
      rcases hscan with rfl | ⟨r, rfl⟩
      · exact .inl ⟨sendTs, deadline, _, by rw [← (h.nextIdx_of_done hframe hdone).1]⟩
      · exact .inr ⟨_, _, rfl⟩
  · intro hnot
    split at hscan
    · exact absurd ⟨_, _, hscan, fun _ h => by cases h⟩ hnot
    · exact absurd ⟨_, _, hscan, fun _ h => by cases h⟩ hnot
    · rename_i hdone
      obtain ⟨hidx, hlen⟩ := h.nextIdx_of_done hframe hdone
      rw [← hidx, ← hlen]
      exact fun snap hmem => (hsnap snap hmem).length_le
  · rintro sendTs' ev v rfl
    split at hscan
    · rename_i hfound
      cases hscan
      obtain ⟨k, hk⟩ := visited_of_found hfound
      exact ⟨k, by rw [List.getLast?_append, hk]; rfl⟩
    · cases hscan
    · rcases hscan with hf | ⟨r, hf⟩ <;> cases hf

end Tracks

/-- **Every run keeps track.** -/
theorem run_tracks (w : CursorLoop) (acc : EventAccumulator) (sendTs now : ℚ) {ls : List Label}
    {s : Watch} (h : Lts.run (step w) (entered w acc sendTs now) ls = some s) :
    Tracks acc ls (snapshots w (entered w acc sendTs now) ls)
      (examined w (entered w acc sendTs now) ls) s := by
  refine Lts.run_induction (motive := fun ls s => Tracks acc ls
    (snapshots w (entered w acc sendTs now) ls) (examined w (entered w acc sendTs now) ls) s)
    ?_ ?_ h
  · exact ⟨(List.append_nil _).symm, nofun, .nil, List.prefix_rfl, .inl ⟨_, _, _, rfl⟩,
      fun _ => nofun, nofun⟩
  · intro ls l s s' hrun ih hl
    rw [snapshots, examined, Lts.outputs_concat hrun, Lts.outputs_concat hrun, ← snapshots,
      ← examined]
    cases step_cases hl with
    | push hframe =>
      simp only [snapshotAt, examinedAt, List.append_nil]
      exact ih.push hframe _ _
    | command hframe => rcases ih.frame with ⟨_, _, _, hf⟩ | ⟨_, _, hf⟩ <;> simp [hf] at hframe
    | call hframe => rcases ih.frame with ⟨_, _, _, hf⟩ | ⟨_, _, hf⟩ <;> simp [hf] at hframe
    | found hframe hnow hscan =>
      simp only [snapshotAt, examinedAt, hframe, if_pos hnow]
      exact ih.look hframe (by rw [hscan])
    | raised hframe hnow hscan =>
      simp only [snapshotAt, examinedAt, hframe, if_pos hnow]
      exact ih.look hframe (by rw [hscan])
    | breaks hframe hnow hscan =>
      simp only [snapshotAt, examinedAt, hframe, if_pos hnow]
      exact ih.look hframe (by rw [hscan]; exact .inr ⟨_, rfl⟩)
    | goesOn hframe hnow hscan =>
      simp only [snapshotAt, examinedAt, hframe, if_pos hnow]
      exact ih.look hframe (by rw [hscan]; exact .inl rfl)
    | expires hframe hnow =>
      simp only [snapshotAt, examinedAt, hframe, if_neg hnow, List.append_nil]
      exact ih.expires hframe _

/-- What a call that begins at `now` examines: everything that comes after, once and in order. -/
structure Once (w : CursorLoop) (acc : EventAccumulator) (sendTs now : ℚ) (ls : List Label)
    (s : Watch) : Prop where
  /-- an earlier snapshot is a prefix of a later one -/
  grows : (snapshots w (entered w acc sendTs now) ls).Pairwise (· <+: ·)
  /-- one after the other, from the first that comes after the call -/
  inOrder : examined w (entered w acc sendTs now) ls <+: (pushed ls).zipIdx acc.count
  /-- no place twice -/
  atMostOnce : ((examined w (entered w acc sendTs now) ls).map Prod.snd).Nodup
  /-- all that a poll has seen, unless the pass was left -/
  skipsNone : ¬ s.Broken → ∀ snap ∈ snapshots w (entered w acc sendTs now) ls,
    (snap.drop acc.count).zipIdx acc.count <+: examined w (entered w acc sendTs now) ls
  /-- up to the event that is returned -/
  last : ∀ sendTs' ev v, s.frame = .ended sendTs' (.found ev v) →
    ∃ k, (examined w (entered w acc sendTs now) ls).getLast? = some (ev, k)

/-- **Every run examines what comes once**: the cursor is where the examined events end, however
the list grows between the polls. -/
theorem run_once (w : CursorLoop) (acc : EventAccumulator) (sendTs now : ℚ) {ls : List Label}
    {s : Watch} (h : Lts.run (step w) (entered w acc sendTs now) ls = some s) :
    Once w acc sendTs now ls s := by
  have ht := run_tracks w acc sendTs now h
  refine ⟨ht.grows, ht.inOrder, ?_, fun hnot snap hsnap => ?_, ht.last⟩
  · have hplaces := ht.inOrder.map Prod.snd
    rw [List.zipIdx_map_snd] at hplaces
    exact hplaces.sublist.nodup List.nodup_range'
  · have hnew := (ht.snapshot snap hsnap).drop acc.count
    rw [ht.events, EventAccumulator.count, List.drop_left] at hnew
    refine List.prefix_of_prefix_length_le (prefix_zipIdx hnew _) ht.inOrder ?_
    have hlength := ht.skipsNone hnot snap hsnap
    rw [List.length_zipIdx, List.length_drop]
    omega

end Watch

end SasTests
