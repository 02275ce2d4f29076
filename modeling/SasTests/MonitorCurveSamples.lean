import SasTests.Python.Format
import SasTests.Python.JsonLoads
import SasTests.Python.Struct
import Mathlib.Data.List.Chain

/-!
# The monitor of curve frames

`run_ws` counts the curve frames that arrive in some time, and compares the first `sample_index` of
each frame with the last one of the frame before.

It leaves out what is not a curve frame, but takes every curve frame for complete: the script ends
with an exception at the first one whose array of indices is empty or not all there
(`survives_iff_readable`). Inside a frame it compares nothing (`exactOn_iff`).

A frame is the bytes that arrived. Where its indices stand depends on its flags and on the number of
points that it declares, and `struct.unpack_from` raises on what is not there, as it does in the
source.

Times are exact rationals.
-/

namespace SasTests.MonitorCurveSamples

open Python

/-! ## The code -/

/-- `b"DCU1"` -/
def magic : List UInt8 := [0x44, 0x43, 0x55, 0x31]

/-- How one `await asyncio.wait_for(ws.recv(), 1.0)` ends. -/
inductive Reception
  /-- with a `TimeoutError`, which is caught -/
  | timedOut
  /-- with a message, handled at the time `now` -/
  | message (msg : Raw) (now : ℚ)

/-- The local variables of `run_ws`. -/
structure CurveStats where
  frames : ℕ
  pts : ℕ
  lastIdx : Option ℕ
  jumps : ℕ
  gaps : List ℚ
  tLast : Option ℚ

namespace CurveStats

/-- The values before the loop. -/
def initial : CurveStats := ⟨0, 0, none, 0, [], none⟩

/-- The times in `gaps` after a frame at time `now`: a `t_last` of zero is false, too. -/
def gapsAt (s : CurveStats) (now : ℚ) : List ℚ :=
  match s.tLast with
  | none => s.gaps
  | some t => if t = 0 then s.gaps else s.gaps ++ [(now - t) * 1000]

/-- What `run_ws` does with the tuple `idx`. -/
def compare (s : CurveStats) (idx : List ℕ) : Except PyError CurveStats := do
  let jumps ← match s.lastIdx with
    | none => pure s.jumps
    | some lastIdx => do
      let first ← firstItem idx
      pure (if first ≤ lastIdx then s.jumps + 1 else s.jumps)
  let last ← lastItem idx
  return { s with lastIdx := some last, jumps := jumps }

/-- One pass of the loop. -/
def receive (s : CurveStats) : Reception → Except PyError CurveStats
  | .timedOut => .ok s
  | .message (.str _) _ => .ok s
  | .message (.bytes msg) now =>
    if msg.length < 40 ∨ msg.take 4 ≠ magic then .ok s
    else do
      let flags ← unpackOne 2 msg 6
      let n ← unpackOne 4 msg 20
      let s := { s with
        frames := s.frames + 1, pts := s.pts + n, gaps := s.gapsAt now, tLast := some now }
      if flags &&& 4 ≠ 0 then
        let off := 40 + n * 8 + (if flags &&& 1 ≠ 0 then n * 4 else 0)
        let idx ← unpackMany n msg off
        s.compare idx
      else return s

/-- The line that `run_ws` prints. -/
def report (s : CurveStats) : String :=
  "增量帧=" ++ toString s.frames ++ " 点数=" ++ toString s.pts ++
    " 帧间隔均值=" ++ fixed0 (s.gaps.sum / max s.gaps.length 1) ++ "ms " ++
    "最大=" ++ fixed0 (s.gaps.max?.getD 0) ++ "ms sample_index 倒退=" ++ toString s.jumps

end CurveStats

/-- The loop of `run_ws`, over what is received until its time is up. -/
def watch (s : CurveStats) (rs : List Reception) : Except PyError CurveStats :=
  rs.foldlM CurveStats.receive s

/-- `run_ws`: what it prints. -/
def runWs (rs : List Reception) : Except PyError String := do
  let s ← watch .initial rs
  return s.report

/-! ## Frames -/

/-- The message is a curve frame. -/
def IsCurveFrame (msg : List UInt8) : Prop := 40 ≤ msg.length ∧ msg.take 4 = magic

/-- Its flags. -/
def flagsOf (msg : List UInt8) : ℕ := littleEndian (msg.extract 6 8)

/-- The number of points that it declares. -/
def countOf (msg : List UInt8) : ℕ := littleEndian (msg.extract 20 24)

/-- It says that it has an array of indices. -/
def HasIndices (msg : List UInt8) : Prop := flagsOf msg &&& 4 ≠ 0

/-- Where that array begins. -/
def indexOffset (msg : List UInt8) : ℕ :=
  40 + countOf msg * 8 + (if flagsOf msg &&& 1 ≠ 0 then countOf msg * 4 else 0)

/-- The array is not empty, and the message holds all of it. -/
def HoldsIndices (msg : List UInt8) : Prop :=
  1 ≤ countOf msg ∧ indexOffset msg + 4 * countOf msg ≤ msg.length

/-- The array. -/
def indicesOf (msg : List UInt8) : List ℕ :=
  (List.range (countOf msg)).map fun k =>
    littleEndian (msg.extract (indexOffset msg + 4 * k) (indexOffset msg + 4 * k + 4))

instance (msg : List UInt8) : Decidable (IsCurveFrame msg) :=
  inferInstanceAs (Decidable (_ ∧ _))

instance (msg : List UInt8) : Decidable (HasIndices msg) := inferInstanceAs (Decidable (_ ≠ _))

instance (msg : List UInt8) : Decidable (HoldsIndices msg) :=
  inferInstanceAs (Decidable (_ ∧ _))

/-- A curve frame that says that it has indices has some, and holds all of them. -/
def Reception.Readable : Reception → Prop
  | .timedOut => True
  | .message (.str _) _ => True
  | .message (.bytes msg) _ => IsCurveFrame msg → HasIndices msg → HoldsIndices msg

instance : DecidablePred Reception.Readable
  | .timedOut => isTrue trivial
  | .message (.str _) _ => isTrue trivial
  | .message (.bytes msg) _ =>
    inferInstanceAs (Decidable (IsCurveFrame msg → HasIndices msg → HoldsIndices msg))

/-- A curve frame that can be read. -/
def Reception.IsFrame : Reception → Prop
  | .message (.bytes msg) _ => IsCurveFrame msg ∧ (HasIndices msg → HoldsIndices msg)
  | _ => False

instance : DecidablePred Reception.IsFrame
  | .timedOut => isFalse not_false
  | .message (.str _) _ => isFalse not_false
  | .message (.bytes msg) _ =>
    inferInstanceAs (Decidable (IsCurveFrame msg ∧ (HasIndices msg → HoldsIndices msg)))

theorem indicesOf_ne_nil {msg : List UInt8} (h : HoldsIndices msg) : indicesOf msg ≠ [] := by
  rw [indicesOf, ne_eq, List.map_eq_nil_iff, List.range_eq_nil]
  exact Nat.ne_of_gt h.1

/-! ## One pass of the loop -/

namespace CurveStats

/-- The variables after a curve frame, before its indices are looked at. -/
def counted (s : CurveStats) (msg : List UInt8) (now : ℚ) : CurveStats :=
  { s with
    frames := s.frames + 1, pts := s.pts + countOf msg, gaps := s.gapsAt now, tLast := some now }

theorem receive_of_not_isCurveFrame (s : CurveStats) {msg : List UInt8} (now : ℚ)
    (h : ¬ IsCurveFrame msg) : s.receive (.message (.bytes msg) now) = .ok s := by
  rw [receive, if_pos]
  rwa [IsCurveFrame, not_and_or, Nat.not_le] at h

/-- A curve frame is counted; then its indices are looked at, if it says that it has some. -/
theorem receive_of_isCurveFrame (s : CurveStats) {msg : List UInt8} (now : ℚ)
    (h : IsCurveFrame msg) :
    s.receive (.message (.bytes msg) now) =
      if HasIndices msg then
        unpackMany (countOf msg) msg (indexOffset msg) >>= (s.counted msg now).compare
      else .ok (s.counted msg now) := by
  obtain ⟨hlen, hmagic⟩ := h
  have hflags : unpackOne 2 msg 6 = .ok (flagsOf msg) := if_neg (by omega)
  have hcount : unpackOne 4 msg 20 = .ok (countOf msg) := if_neg (by omega)
  rw [receive, if_neg (by simp [hlen, hmagic]), hflags, hcount]
  rfl

/-- There is nothing to compare in an empty tuple. -/
theorem compare_nil (s : CurveStats) : s.compare [] = .error .indexError := by
  rw [compare]
  split <;> rfl

theorem compare_of_ne_nil (s : CurveStats) {idx : List ℕ} (h : idx ≠ []) :
    s.compare idx = .ok { s with
      lastIdx := some (idx.getLast h)
      jumps := s.jumps + if ∃ last ∈ s.lastIdx, idx.head h ≤ last then 1 else 0 } := by
  have hfirst : firstItem idx = .ok (idx.head h) := by
    rw [firstItem, List.head?_eq_some_head h]
  have hlast : lastItem idx = .ok (idx.getLast h) := by
    rw [lastItem, List.getLast?_eq_some_getLast h]
  rw [compare, hlast]
  cases hs : s.lastIdx with
  | none => simp [pure, Except.pure, bind, Except.bind]
  | some last =>
    simp only [hfirst, pure, Except.pure, bind, Except.bind, Option.mem_some_iff, exists_eq_left']
    split <;> rfl

/-- The indices of a frame that holds them are compared. -/
theorem receive_of_holdsIndices (s : CurveStats) {msg : List UInt8} (now : ℚ)
    (h : IsCurveFrame msg) (hflag : HasIndices msg) (hholds : HoldsIndices msg) :
    s.receive (.message (.bytes msg) now) = (s.counted msg now).compare (indicesOf msg) := by
  have hunpack : unpackMany (countOf msg) msg (indexOffset msg) = .ok (indicesOf msg) :=
    if_neg (Nat.not_lt_of_le hholds.2)
  rw [receive_of_isCurveFrame s now h, if_pos hflag, hunpack]
  rfl

/-- Indices that are not there, or that are none, end the script. -/
theorem receive_of_not_holdsIndices (s : CurveStats) {msg : List UInt8} (now : ℚ)
    (h : IsCurveFrame msg) (hflag : HasIndices msg) (hholds : ¬ HoldsIndices msg) :
    ∃ e, s.receive (.message (.bytes msg) now) = .error e := by
  rw [receive_of_isCurveFrame s now h, if_pos hflag, unpackMany]
  split
  · exact ⟨_, rfl⟩
  · rename_i hlen
    have hcount : countOf msg = 0 := by
      rw [HoldsIndices] at hholds
      omega
    rw [hcount]
    exact ⟨_, compare_nil _⟩

/-- **A message is handled exactly if it is readable.** -/
theorem receive_isOk_iff (s : CurveStats) (r : Reception) :
    (∃ s', s.receive r = .ok s') ↔ r.Readable := by
  rcases r with _ | ⟨text | msg, now⟩
  · exact iff_of_true ⟨s, rfl⟩ trivial
  · exact iff_of_true ⟨s, rfl⟩ trivial
  · rw [Reception.Readable]
    by_cases hframe : IsCurveFrame msg
    · by_cases hflag : HasIndices msg
      · by_cases hholds : HoldsIndices msg
        · rw [receive_of_holdsIndices s now hframe hflag hholds,
            compare_of_ne_nil _ (indicesOf_ne_nil hholds)]
          exact iff_of_true ⟨_, rfl⟩ fun _ _ => hholds
        · obtain ⟨e, he⟩ := receive_of_not_holdsIndices s now hframe hflag hholds
          rw [he]
          exact iff_of_false nofun fun h => hholds (h hframe hflag)
      · rw [receive_of_isCurveFrame s now hframe, if_neg hflag]
        exact iff_of_true ⟨_, rfl⟩ fun _ h => absurd h hflag
    · rw [receive_of_not_isCurveFrame s now hframe]
      exact iff_of_true ⟨s, rfl⟩ fun h => absurd h hframe

end CurveStats

/-! ## Surviving -/

/-- The loop goes through exactly if all messages are readable. -/
theorem watch_isOk_iff (s : CurveStats) (rs : List Reception) :
    (∃ s', watch s rs = .ok s') ↔ ∀ r ∈ rs, r.Readable := by
  induction rs generalizing s with
  | nil => exact iff_of_true ⟨s, rfl⟩ nofun
  | cons r rs ih =>
    rw [List.forall_mem_cons, ← s.receive_isOk_iff r, watch, List.foldlM_cons]
    constructor
    · rintro ⟨s'', h⟩
      obtain ⟨s', hs', h⟩ := bind_eq_ok h
      exact ⟨⟨s', hs'⟩, (ih s').mp ⟨s'', h⟩⟩
    · rintro ⟨⟨s', hs'⟩, h⟩
      rw [hs']
      exact (ih s').mpr h

/-- What is no curve frame is skipped. -/
theorem receive_of_not_isFrame (s : CurveStats) {r : Reception} (hr : r.Readable)
    (h : ¬ r.IsFrame) : s.receive r = .ok s := by
  rcases r with _ | ⟨text | msg, now⟩
  · rfl
  · rfl
  · exact s.receive_of_not_isCurveFrame now fun hframe => h ⟨hframe, hr hframe⟩

/-- The statistics are those of the curve frames. -/
theorem watch_filter (s : CurveStats) {rs : List Reception} (h : ∀ r ∈ rs, r.Readable) :
    watch s (rs.filter fun r => r.IsFrame) = watch s rs := by
  induction rs generalizing s with
  | nil => rfl
  | cons r rs ih =>
    obtain ⟨hr, h⟩ := List.forall_mem_cons.mp h
    by_cases hframe : r.IsFrame
    · rw [List.filter_cons_of_pos (by simpa using hframe), watch, watch, List.foldlM_cons,
        List.foldlM_cons]
      exact congrArg _ (funext fun s' => ih s' h)
    · rw [List.filter_cons_of_neg (by simpa using hframe), ih s h, watch, watch, List.foldlM_cons,
        receive_of_not_isFrame s hr hframe]
      rfl

/-- The script prints its statistics, and they are those of the curve frames that can be read:
whatever else has come is skipped. -/
def Survives (rs : List Reception) : Prop :=
  ∃ line, runWs rs = .ok line ∧ runWs (rs.filter fun r => r.IsFrame) = .ok line

theorem runWs_isOk_iff (rs : List Reception) :
    (∃ line, runWs rs = .ok line) ↔ ∀ r ∈ rs, r.Readable := by
  rw [← watch_isOk_iff .initial rs, runWs]
  constructor
  · rintro ⟨line, h⟩
    obtain ⟨s, hs, -⟩ := bind_eq_ok h
    exact ⟨s, hs⟩
  · rintro ⟨s, hs⟩
    rw [hs]
    exact ⟨s.report, rfl⟩

/-- **The script survives what it receives exactly if every curve frame that says that it has
indices has some, and holds all of them.**

Then its statistics are those of the curve frames, and everything else that has come, text, short
messages and messages without the magic, has left no trace in them. The first frame that declares no
index, or more than it holds, ends the script. -/
theorem survives_iff_readable (rs : List Reception) : Survives rs ↔ ∀ r ∈ rs, r.Readable := by
  rw [← runWs_isOk_iff, Survives]
  constructor
  · rintro ⟨line, hline, -⟩
    exact ⟨line, hline⟩
  · rintro ⟨line, hline⟩
    refine ⟨line, hline, ?_⟩
    rwa [runWs, watch_filter .initial ((runWs_isOk_iff rs).mp ⟨line, hline⟩), ← runWs]

/-- A frame that has the flag for indices, and declares no point. -/
def emptyFrame : List UInt8 :=
  magic ++ [1, 0, 4, 0] ++ List.replicate 32 0

theorem emptyFrame_ends_script : ¬∀ rs : List Reception, Survives rs := by
  intro h
  obtain ⟨line, hline, -⟩ := h [.message (.bytes emptyFrame) 0]
  have hreadable := (runWs_isOk_iff _).mp ⟨line, hline⟩ _ (List.mem_singleton_self _)
  exact absurd hreadable (by decide)

/-! ## The counter of jumps -/

/-- A well-formed curve frame with indices, and when it is handled. -/
structure CurveFrame where
  bytes : List UInt8
  now : ℚ
  isCurveFrame : IsCurveFrame bytes
  hasIndices : HasIndices bytes
  holdsIndices : HoldsIndices bytes

namespace CurveFrame

variable (f : CurveFrame)

/-- Its arrival. -/
def reception : Reception := .message (.bytes f.bytes) f.now

/-- Its `sample_index` array. -/
def indices : List ℕ := indicesOf f.bytes

theorem indices_ne_nil : f.indices ≠ [] := indicesOf_ne_nil f.holdsIndices

/-- The first index. -/
def first : ℕ := f.indices.head f.indices_ne_nil

/-- The last index. -/
def last : ℕ := f.indices.getLast f.indices_ne_nil

end CurveFrame

/-- The variables after a well-formed frame. -/
def CurveStats.after (s : CurveStats) (f : CurveFrame) : CurveStats :=
  { s.counted f.bytes f.now with
    lastIdx := some f.last
    jumps := s.jumps + if ∃ i ∈ s.lastIdx, f.first ≤ i then 1 else 0 }

theorem CurveStats.receive_frame (s : CurveStats) (f : CurveFrame) :
    s.receive f.reception = .ok (s.after f) :=
  (s.receive_of_holdsIndices f.now f.isCurveFrame f.hasIndices f.holdsIndices).trans
    (compare_of_ne_nil _ f.indices_ne_nil)

/-- What the frames add to `jumps`, if `last` is the last index before them. -/
def jumpsAfter : Option ℕ → List CurveFrame → ℕ
  | _, [] => 0
  | last, f :: fs => (if ∃ i ∈ last, f.first ≤ i then 1 else 0) + jumpsAfter (some f.last) fs

theorem watch_frames (s : CurveStats) (fs : List CurveFrame) :
    ∃ s', watch s (fs.map CurveFrame.reception) = .ok s' ∧
      s'.jumps = s.jumps + jumpsAfter s.lastIdx fs := by
  induction fs generalizing s with
  | nil => exact ⟨s, rfl, rfl⟩
  | cons f fs ih =>
    obtain ⟨s', hs', hjumps⟩ := ih (s.after f)
    refine ⟨s', ?_, ?_⟩
    · rw [List.map_cons, watch, List.foldlM_cons, s.receive_frame f]
      exact hs'
    · rw [hjumps, jumpsAfter, ← Nat.add_assoc]
      rfl

/-- Nothing is counted if every frame begins above the last index before it. -/
theorem jumpsAfter_eq_zero_iff (last : Option ℕ) (fs : List CurveFrame) :
    jumpsAfter last fs = 0 ↔
      (∀ i ∈ last, ∀ f ∈ fs.head?, i < f.first) ∧ fs.IsChain fun f g => f.last < g.first := by
  induction fs generalizing last with
  | nil => simp [jumpsAfter]
  | cons f fs ih =>
    rw [jumpsAfter, Nat.add_eq_zero_iff, ih, List.isChain_cons]
    exact and_congr (by simp) (by simp)

/-- The indices increase if they increase in every frame and from each frame to the next. -/
theorem pairwise_indices_iff (fs : List CurveFrame) :
    (fs.flatMap CurveFrame.indices).Pairwise (· < ·) ↔
      (∀ f ∈ fs, f.indices.Pairwise (· < ·)) ∧ fs.IsChain fun f g => f.last < g.first := by
  have hne : [] ∉ fs.map CurveFrame.indices := by
    intro h
    obtain ⟨f, -, hf⟩ := List.mem_map.mp h
    exact f.indices_ne_nil hf
  have hbetween : ∀ f g : CurveFrame,
      (∀ x ∈ f.indices.getLast?, ∀ y ∈ g.indices.head?, x < y) ↔ f.last < g.first := by
    intro f g
    rw [List.getLast?_eq_some_getLast f.indices_ne_nil, List.head?_eq_some_head g.indices_ne_nil]
    simp [CurveFrame.last, CurveFrame.first]
  simp only [← List.isChain_iff_pairwise]
  rw [List.flatMap_def, List.isChain_flatten hne, List.forall_mem_map, List.isChain_map]
  exact and_congr_right fun _ => List.IsChain.iff hbetween

/-- The indices of all frames increase exactly if nothing was counted. -/
def ExactOn (fs : List CurveFrame) : Prop :=
  ∃ s, watch .initial (fs.map CurveFrame.reception) = .ok s ∧
    (s.jumps = 0 ↔ (fs.flatMap CurveFrame.indices).Pairwise (· < ·))

/-- A frame begins at or below the last index of the frame before. -/
def FallsBack (fs : List CurveFrame) : Prop :=
  ∃ before f g after, fs = before ++ f :: g :: after ∧ g.first ≤ f.last

theorem not_fallsBack_iff (fs : List CurveFrame) :
    ¬ FallsBack fs ↔ fs.IsChain fun f g => f.last < g.first := by
  rw [List.isChain_iff_forall_rel_of_append_cons_cons, FallsBack]
  constructor
  · intro h f g before after hfs
    exact Nat.lt_of_not_le fun hle => h ⟨before, f, g, after, hfs, hle⟩
  · rintro h ⟨before, f, g, after, hfs, hle⟩
    exact Nat.not_le_of_lt (h hfs) hle

/-- What `jumps` is in the end. -/
theorem exactOn_iff_isChain (fs : List CurveFrame) :
    ExactOn fs ↔ ((fs.IsChain fun f g => f.last < g.first) ↔
      (fs.flatMap CurveFrame.indices).Pairwise (· < ·)) := by
  obtain ⟨s, hs, hjumps⟩ := watch_frames .initial fs
  have hzero : s.jumps = 0 ↔ fs.IsChain fun f g => f.last < g.first := by
    rw [hjumps, show CurveStats.initial.jumps = 0 from rfl, Nat.zero_add, jumpsAfter_eq_zero_iff]
    exact and_iff_right nofun
  rw [← hzero, ExactOn]
  constructor
  · rintro ⟨s', hs', h⟩
    obtain rfl := Except.ok.inj (hs.symm.trans hs')
    exact h
  · exact fun h => ⟨s, hs, h⟩

/-- **The counter of jumps is exact if and only if the indices increase within every frame, or some
frame begins at or below the last index of the frame before.**

Only the first and the last index of a frame are looked at. A frame that begins too low is counted,
and the indices do not increase then, whatever the frames hold. If there is none, nothing is
counted, and what goes wrong within a frame is missed. -/
theorem exactOn_iff (fs : List CurveFrame) :
    ExactOn fs ↔ (∀ f ∈ fs, f.indices.Pairwise (· < ·)) ∨ FallsBack fs := by
  rw [exactOn_iff_isChain, pairwise_indices_iff, ← not_fallsBack_iff]
  tauto

/-- A frame with the indices 2 and 1. -/
def decreasingFrame : CurveFrame where
  bytes := magic ++ [1, 0, 4, 0] ++ List.replicate 12 0 ++ [2, 0, 0, 0] ++ List.replicate 32 0 ++
    [2, 0, 0, 0, 1, 0, 0, 0]
  now := 0
  isCurveFrame := by decide
  hasIndices := by decide
  holdsIndices := by decide

theorem decreasing_indices_not_counted : ¬∀ fs : List CurveFrame, ExactOn fs := by
  intro h
  have hincreasing := ((exactOn_iff_isChain [decreasingFrame]).mp (h _)).mp (.singleton _)
  exact absurd hincreasing (by decide)

end SasTests.MonitorCurveSamples
