import SasTests.Lib.Segments
import Mathlib.Algebra.BigOperators.Group.Finset.Basic
import Mathlib.Algebra.Order.Field.Rat

/-!
# The packets of a stored curve

`analyze` reports on the times at which the samples of one curve were taken. It cuts them where two
samples are 3 ms or more apart, and counts the samples of each packet. The loop is the same for
every kind of number (`cut`); here it runs on exact rationals, and `packets_partition` says that it
finds a partition of the samples. `CurveReport` has the rest of `analyze`, on the numbers of Python.
-/

namespace SasTests.MonitorCurveSamples

open Segments

/-! ## The code -/

section loop

variable {α : Type}

/-- The variables of the loop. -/
structure Packets (α : Type) where
  runs : List ℕ
  run : ℕ
  gaps : List α

/-- One pass of the loop; `short` says whether `dt < 3`. -/
def Packets.pass (short : α → Bool) (s : Packets α) (dt : α) : Packets α :=
  if short dt then { s with run := s.run + 1 }
  else { runs := s.runs ++ [s.run], run := 1, gaps := s.gaps ++ [dt] }

/-- `runs` and `gaps` behind the loop over the values `dts` of `dt`, with the last run. -/
def cut (short : α → Bool) (dts : List α) : List ℕ × List α :=
  let s := dts.foldl (Packets.pass short) { runs := [], run := 1, gaps := [] }
  (s.runs ++ [s.run], s.gaps)

/-- The gaps are the values that are not short. -/
theorem cut_gaps (short : α → Bool) (dts : List α) :
    (cut short dts).2 = dts.filter fun dt => !short dt := by
  have hloop : ∀ s : Packets α, (dts.foldl (Packets.pass short) s).gaps =
      s.gaps ++ dts.filter fun dt => !short dt := by
    induction dts with
    | nil => simp
    | cons dt dts ih =>
      intro s
      rw [List.foldl_cons, ih, Packets.pass]
      cases hdt : short dt <;> simp [hdt]
  rw [cut, hloop, List.nil_append]

/-- The runs depend only on which values are short. -/
theorem cut_runs_map {β : Type} (f : β → α) (short : α → Bool) (dts : List β) :
    (cut short (dts.map f)).1 = (cut (fun dt => short (f dt)) dts).1 := by
  have hloop : ∀ (s : Packets α) (s' : Packets β), s.runs = s'.runs → s.run = s'.run →
      ((dts.map f).foldl (Packets.pass short) s).runs =
          (dts.foldl (Packets.pass fun dt => short (f dt)) s').runs ∧
        ((dts.map f).foldl (Packets.pass short) s).run =
          (dts.foldl (Packets.pass fun dt => short (f dt)) s').run := by
    induction dts with
    | nil => exact fun s s' hruns hrun => ⟨hruns, hrun⟩
    | cons dt dts ih =>
      intro s s' hruns hrun
      rw [List.map_cons, List.foldl_cons, List.foldl_cons]
      refine ih _ _ ?_ ?_ <;> cases hdt : short (f dt) <;> simp [Packets.pass, hdt, hruns, hrun]
  obtain ⟨hruns, hrun⟩ := hloop ⟨[], 1, []⟩ ⟨[], 1, []⟩ rfl rfl
  rw [cut, cut, hruns, hrun]

end loop

/-- The values of `dt` for exact times. -/
def steps (t : List ℚ) : List ℚ := t.zipWith (fun x y => (y - x) * 1000) t.tail

/-- `dt < 3` -/
def short (dt : ℚ) : Bool := dt < 3

/-- `runs` and `gaps` for exact times. -/
def packets (t : List ℚ) : List ℕ × List ℚ := cut short (steps t)

/-- `sorted(collections.Counter(runs).items())` -/
def distribution (runs : List ℕ) : List (ℕ × ℕ) :=
  (runs.dedup.mergeSort (· ≤ ·)).map fun n => (n, runs.count n)

/-! ## Packets -/

/-- Two samples in a row belong to one packet. -/
def Close (x y : ℚ) : Prop := (y - x) * 1000 < 3

/-- The time between two samples. -/
def gap (p : ℚ × ℚ) : ℚ := (p.2 - p.1) * 1000

theorem short_gap_iff {x y : ℚ} : short (gap (x, y)) = true ↔ Close x y := decide_eq_true_iff

/-- What the variables say about the samples `t`: `done` are the packets before the current one. -/
structure Packets.Sound (s : Packets ℚ) (t : List ℚ) (done : List (List ℚ)) (packet : List ℚ) :
    Prop where
  cut : IsCut Close (done ++ [packet]) t
  runs : s.runs = done.map List.length
  run : s.run = packet.length
  gaps : s.gaps = (joints (done ++ [packet])).map gap

/-- One pass takes one more sample into account. -/
theorem Packets.Sound.pass {s : Packets ℚ} {t : List ℚ} {done : List (List ℚ)} {packet : List ℚ}
    (h : s.Sound t done packet) {x : ℚ} (hx : packet.getLast? = some x) (y : ℚ) :
    ∃ done' packet', (s.pass short (gap (x, y))).Sound (t ++ [y]) done' packet' ∧
      packet'.getLast? = some y := by
  rw [Packets.pass]
  split
  · rename_i hclose
    refine ⟨done, packet ++ [y],
      ⟨h.cut.extend hx (short_gap_iff.mp hclose), h.runs, ?_, ?_⟩, by simp⟩
    · rw [List.length_append, h.run]
      rfl
    · rw [joints_extend done (h.cut.nonempty packet (by simp))]
      exact h.gaps
  · rename_i hclose
    refine ⟨done ++ [packet], [y], ⟨h.cut.start hx (mt short_gap_iff.mpr hclose), ?_, rfl, ?_⟩, rfl⟩
    · rw [List.map_append, h.runs, h.run]
      rfl
    · rw [joints_start done hx, List.map_append, h.gaps]
      rfl

/-- The loop, from the sample `x` on. -/
theorem Packets.Sound.loop {t : List ℚ} {x : ℚ} (rest : List ℚ) :
    ∀ {s : Packets ℚ} {before : List ℚ} {done : List (List ℚ)} {packet : List ℚ},
      s.Sound before done packet → packet.getLast? = some x → before ++ rest = t →
        ∃ done' packet',
          ((steps (x :: rest)).foldl (Packets.pass short) s).Sound t done' packet' := by
  induction rest generalizing x with
  | nil =>
    intro s before done packet h hx ht
    rw [List.append_nil] at ht
    exact ⟨done, packet, ht ▸ h⟩
  | cons y rest ih =>
    intro s before done packet h hx ht
    obtain ⟨done', packet', h', hy⟩ := h.pass hx y
    exact ih h' hy (by rw [← ht, List.append_assoc]; rfl)

/-- The samples fall into packets, of which `runs` are the sizes and `gaps` the distances. -/
theorem exists_packets {t : List ℚ} (ht : t ≠ []) :
    ∃ blocks, IsCut Close blocks t ∧ (packets t).1 = blocks.map List.length ∧
      (packets t).2 = (joints blocks).map gap := by
  obtain ⟨x, rest, rfl⟩ := List.exists_cons_of_ne_nil ht
  have hstart : Packets.Sound { runs := [], run := 1, gaps := [] } [x] [] [x] :=
    ⟨.singleton x, rfl, rfl, rfl⟩
  obtain ⟨done, packet, h⟩ := Packets.Sound.loop (x := x) (t := x :: rest) rest hstart rfl rfl
  refine ⟨done ++ [packet], h.cut, ?_, h.gaps⟩
  rw [packets, cut, List.map_append, ← h.runs]
  simp [h.run]

/-- The sizes that are printed account for every sample once. -/
theorem sum_distribution (runs : List ℕ) :
    ((distribution runs).map fun p => p.1 * p.2).sum = runs.sum := by
  have hperm : List.Perm (runs.dedup.mergeSort (· ≤ ·)) runs.dedup := List.mergeSort_perm ..
  have hsame : runs.dedup.toFinset = runs.toFinset := Finset.ext (by simp)
  rw [distribution, List.map_map, (hperm.map _).sum_eq, Finset.sum_list_count runs,
    ← List.sum_toFinset _ runs.nodup_dedup, hsame]
  exact Finset.sum_congr rfl fun n _ => Nat.mul_comm _ _

/-- **The runs cut the samples into packets**: the steps inside a packet are shorter than 3 ms, the
gaps are the steps between them, and the distribution accounts for every sample once.

The packets are the blocks of the list of samples that have the lengths of the runs; there is one
more of them than there are gaps, and none is empty. -/
theorem packets_partition (t : List ℚ) (h : 2 ≤ t.length) :
    (∀ run ∈ (packets t).1, 1 ≤ run) ∧ (packets t).1.sum = t.length ∧
      (packets t).1.length = (packets t).2.length + 1 ∧
      (∀ block ∈ (packets t).1.splitLengths t, block.IsChain Close) ∧
      (joints ((packets t).1.splitLengths t)).map gap = (packets t).2 ∧
      (∀ dt ∈ (packets t).2, 3 ≤ dt) ∧
      ((distribution (packets t).1).map fun p => p.1 * p.2).sum = t.length := by
  have ht : t ≠ [] := List.ne_nil_of_length_pos (by omega)
  obtain ⟨blocks, hcut, hruns, hgaps⟩ := exists_packets ht
  have hne : blocks ≠ [] := by
    rintro rfl
    exact ht hcut.flatten.symm
  rw [sum_distribution, hruns, hgaps, hcut.splitLengths_eq]
  refine ⟨?_, hcut.sum_length, ?_, hcut.inside, rfl, ?_, hcut.sum_length⟩
  · intro run hrun
    obtain ⟨b, hb, rfl⟩ := List.mem_map.mp hrun
    exact List.length_pos_iff.mpr (hcut.nonempty b hb)
  · have hpos := List.length_pos_iff.mpr hne
    rw [List.length_map, List.length_map, length_joints hcut.nonempty]
    omega
  · intro dt hdt
    obtain ⟨p, hp, rfl⟩ := List.mem_map.mp hdt
    exact not_lt.mp (hcut.between p hp)

/-- Three samples in two packets. -/
theorem packets_partition_three : (packets [0, 0.001, 0.101]).1.sum = 3 :=
  (packets_partition [0, 0.001, 0.101] (by decide)).2.1

end SasTests.MonitorCurveSamples
