import Mathlib.Data.List.TakeWhile

/-!
# Delimited records in a chunked stream

A stream carries records, each ended by a delimiter `d` that no record contains. It arrives in
chunks whose bounds have nothing to do with those of the records. A reader without a buffer of its
own reads a record by taking chunks until one contains `d`, and keeps what stands before the first
`d`: what that last chunk holds behind its `d` is gone.

* `upTo`, `after` — what stands before and behind the first `d`.
* `readUntil` — the chunks up to and including the first that contains `d`, and the others.
* `readRecords` — what several readings in a row give.
* `readRecords_iff_aligned` — they give the records that were sent exactly if no chunk holds
  anything behind its first `d`.
-/

namespace Records

universe u

variable {α : Type u}

/-- The records in a row, each with its delimiter `d`. -/
def join (d : α) (rs : List (List α)) : List α := rs.flatMap (· ++ [d])

@[simp] theorem join_nil {d : α} : join d [] = [] := rfl

@[simp] theorem join_cons {d : α} (r : List α) (rs : List (List α)) :
    join d (r :: rs) = r ++ d :: join d rs := by
  simp [join]

variable [DecidableEq α] (d : α)

/-! ## Before and behind the delimiter -/

/-- What stands before the first `d`. -/
def upTo (l : List α) : List α := l.takeWhile (· ≠ d)

/-- What stands behind the first `d`. -/
def after (l : List α) : List α := (l.dropWhile (· ≠ d)).tail

/-- No chunk holds anything behind its first delimiter. -/
def Aligned (cs : List (List α)) : Prop := ∀ c ∈ cs, after d c = []

instance decidableAligned (cs : List (List α)) : Decidable (Aligned d cs) :=
  inferInstanceAs (Decidable (∀ c ∈ cs, after d c = []))

variable {d}

theorem dropWhile_cut {p : List α} (hp : d ∉ p) (s : List α) :
    (p ++ d :: s).takeWhile (· ≠ d) = p ∧ (p ++ d :: s).dropWhile (· ≠ d) = d :: s := by
  have keep : ∀ x ∈ p, decide (x ≠ d) = true := by
    intro x hx
    exact decide_eq_true (ne_of_mem_of_not_mem hx hp)
  rw [List.takeWhile_append_of_pos keep, List.dropWhile_append_of_pos keep]
  simp

@[simp] theorem upTo_cut {p : List α} (hp : d ∉ p) (s : List α) : upTo d (p ++ d :: s) = p :=
  (dropWhile_cut hp s).1

@[simp] theorem after_cut {p : List α} (hp : d ∉ p) (s : List α) : after d (p ++ d :: s) = s := by
  rw [after, (dropWhile_cut hp s).2, List.tail_cons]

theorem after_of_notMem {l : List α} (h : d ∉ l) : after d l = [] := by
  have hnil : l.dropWhile (· ≠ d) = [] :=
    List.dropWhile_eq_nil_iff.mpr fun x hx => decide_eq_true (ne_of_mem_of_not_mem hx h)
  rw [after, hnil, List.tail_nil]

theorem notMem_upTo (l : List α) : d ∉ upTo d l := by
  intro h
  simpa using List.mem_takeWhile_imp h

/-- A list is cut by its first `d` in one way only. -/
theorem cut_inj {p r s t : List α} (hp : d ∉ p) (hr : d ∉ r) (h : p ++ d :: s = r ++ d :: t) :
    p = r ∧ s = t := by
  have hleft := congrArg (upTo d) h
  have hright := congrArg (after d) h
  rw [upTo_cut hp, upTo_cut hr] at hleft
  rw [after_cut hp, after_cut hr] at hright
  exact ⟨hleft, hright⟩

/-- A list that contains `d` is cut by its first `d`. -/
theorem cut_eq {l : List α} (h : d ∈ l) : l = upTo d l ++ d :: after d l := by
  obtain ⟨p, s, rfl, hp⟩ := List.eq_append_cons_of_mem h
  rw [upTo_cut hp, after_cut hp]

theorem append_cut_eq {l : List α} (h : d ∈ l) (t : List α) :
    l ++ t = upTo d l ++ d :: (after d l ++ t) := by
  rw [← List.cons_append, ← List.append_assoc, ← cut_eq h]

theorem aligned_of_flatten_nil {cs : List (List α)} (h : cs.flatten = []) : Aligned d cs := by
  intro c hc
  rw [List.flatten_eq_nil_iff.mp h c hc]
  rfl

/-- Whether chunks are aligned shows in those that contain a `d`. -/
theorem aligned_append_cons {pre : List (List α)} (hpre : ∀ p ∈ pre, d ∉ p) {c : List α}
    {post : List (List α)} : Aligned d (pre ++ c :: post) ↔ after d c = [] ∧ Aligned d post := by
  constructor
  · intro ha
    exact ⟨ha c (by simp), fun p hp => ha p (by simp [hp])⟩
  · rintro ⟨hlost, ha⟩ p hp
    rcases List.mem_append.mp hp with hp | hp
    · exact after_of_notMem (hpre p hp)
    · rcases List.mem_cons.mp hp with rfl | hp
      · exact hlost
      · exact ha p hp

/-! ## Reading one record -/

variable (d) in
/-- Take chunks up to and including the first that contains `d`, adding them to `buf`. -/
def readUntil : List (List α) → List α → Option (List α) × List (List α)
  | [], _ => (none, [])
  | c :: cs, buf => if d ∈ c then (some (buf ++ c), cs) else readUntil cs (buf ++ c)

/-- Chunks without a `d` are passed over. -/
theorem readUntil_append {pre : List (List α)} (hpre : ∀ c ∈ pre, d ∉ c) (cs : List (List α))
    (buf : List α) : readUntil d (pre ++ cs) buf = readUntil d cs (buf ++ pre.flatten) := by
  induction pre generalizing buf with
  | nil => simp
  | cons c pre ih =>
    have hc : d ∉ c := hpre c (List.mem_cons_self ..)
    rw [List.cons_append, readUntil, if_neg hc, ih fun c hc => hpre c (List.mem_cons_of_mem _ hc),
      List.flatten_cons, List.append_assoc]

/-- The chunks before the first that contains `d`, that chunk, and the others. -/
theorem exists_first {cs : List (List α)} (h : d ∈ cs.flatten) :
    ∃ pre c post, cs = pre ++ c :: post ∧ (∀ p ∈ pre, d ∉ p) ∧ d ∈ c := by
  induction cs with
  | nil => cases h
  | cons c cs ih =>
    by_cases hc : d ∈ c
    · exact ⟨[], c, cs, rfl, nofun, hc⟩
    · obtain ⟨pre, c', post, rfl, hpre, hc'⟩ :=
        ih ((List.mem_append.mp h).resolve_left hc)
      exact ⟨c :: pre, c', post, rfl, List.forall_mem_cons.mpr ⟨hc, hpre⟩, hc'⟩

/-- Without a `d` all chunks are taken, and there is no record. -/
theorem readUntil_of_notMem {cs : List (List α)} (h : d ∉ cs.flatten) (buf : List α) :
    readUntil d cs buf = (none, []) := by
  have hpre : ∀ c ∈ cs, d ∉ c := fun c hc hd => h (List.mem_flatten.mpr ⟨c, hc, hd⟩)
  have := readUntil_append hpre [] buf
  rwa [List.append_nil] at this

/-- **What a reading takes and what it leaves.** A record is read exactly if the stream contains a
`d`. It is what stands before the first `d`; of the stream behind that `d`, what the same chunk
holds is lost. -/
theorem readUntil_cases (cs : List (List α)) :
    (d ∉ cs.flatten ∧ readUntil d cs [] = (none, [])) ∨
      ∃ out post, readUntil d cs [] = (some out, post) ∧ d ∈ out ∧ cs.flatten = out ++ post.flatten ∧
        (Aligned d cs ↔ after d out = [] ∧ Aligned d post) := by
  by_cases h : d ∈ cs.flatten
  · right
    -- the reading ends with the first chunk that contains `d`
    obtain ⟨pre, c, post, rfl, hpre, hc⟩ := exists_first h
    have hflat : d ∉ pre.flatten := by
      rintro hd
      obtain ⟨p, hp, hd⟩ := List.mem_flatten.mp hd
      exact hpre p hp hd
    have hcut : pre.flatten ++ c = (pre.flatten ++ upTo d c) ++ d :: after d c := by
      rw [List.append_assoc, ← cut_eq hc]
    have hbefore : d ∉ pre.flatten ++ upTo d c :=
      fun hd => (List.mem_append.mp hd).elim hflat (notMem_upTo c)
    refine ⟨pre.flatten ++ c, post, ?_, List.mem_append_right _ hc, by simp, ?_⟩
    · rw [readUntil_append hpre, readUntil, if_pos hc, List.nil_append]
    · rw [hcut, after_cut hbefore]
      exact aligned_append_cons hpre
  · exact .inl ⟨h, readUntil_of_notMem h []⟩

/-! ## Reading several records -/

variable (d) in
/-- What `n` readings in a row give. -/
def readRecords : ℕ → List (List α) → List (Option (List α))
  | 0, _ => []
  | n + 1, cs =>
    let (out, cs) := readUntil d cs []
    out.map (upTo d) :: readRecords n cs

theorem readRecords_succ (n : ℕ) (cs : List (List α)) :
    readRecords d (n + 1) cs =
      (readUntil d cs []).1.map (upTo d) :: readRecords d n (readUntil d cs []).2 := rfl

/-- What `n` readings in a row took out of the stream was in it. -/
theorem length_le_of_readRecords {rs : List (List α)} {cs : List (List α)}
    (h : readRecords d rs.length cs = rs.map some) : (join d rs).length ≤ cs.flatten.length := by
  induction rs generalizing cs with
  | nil => exact Nat.zero_le _
  | cons r rs ih =>
    rw [List.length_cons, readRecords_succ, List.map_cons, List.cons.injEq] at h
    obtain ⟨hr, hrs⟩ := h
    rcases readUntil_cases (d := d) cs with ⟨-, hnone⟩ | ⟨out, post, hsome, hd, hflat, -⟩
    · rw [hnone] at hr
      cases hr
    · rw [hsome] at hr hrs
      obtain rfl : upTo d out = r := Option.some.inj hr
      have hout := congrArg List.length (cut_eq hd)
      have hrest := ih hrs
      rw [hflat, join_cons]
      simp only [List.length_append, List.length_cons] at hout hrest ⊢
      omega

/-- Aligned chunks lose nothing: the readings give the records that were sent. -/
theorem readRecords_of_aligned {rs : List (List α)} {cs : List (List α)} (hrs : ∀ r ∈ rs, d ∉ r)
    (h : cs.flatten = join d rs) (ha : Aligned d cs) :
    readRecords d rs.length cs = rs.map some := by
  induction rs generalizing cs with
  | nil => rfl
  | cons r rs ih =>
    have hr : d ∉ r := hrs r (List.mem_cons_self ..)
    rw [join_cons] at h
    rcases readUntil_cases (d := d) cs with ⟨hd, -⟩ | ⟨out, post, hsome, hd, hflat, hiff⟩
    · exact absurd (by rw [h]; simp) hd
    · obtain ⟨hlost, hpost⟩ := hiff.mp ha
      have hcut : upTo d out ++ d :: post.flatten = r ++ d :: join d rs := by
        rw [← h, hflat, append_cut_eq hd, hlost, List.nil_append]
      obtain ⟨hrec, hrest⟩ := cut_inj (notMem_upTo out) hr hcut
      rw [List.length_cons, readRecords_succ, hsome,
        ih (fun r hr => hrs r (List.mem_cons_of_mem _ hr)) hrest hpost, List.map_cons,
        Option.map_some, hrec]

/-- Readings that give as many records as the stream had bytes for lost nothing. -/
theorem aligned_of_readRecords {rs : List (List α)} {cs : List (List α)}
    (h : readRecords d rs.length cs = rs.map some)
    (hlen : cs.flatten.length ≤ (join d rs).length) : Aligned d cs := by
  induction rs generalizing cs with
  | nil => exact aligned_of_flatten_nil (List.length_eq_zero_iff.mp (Nat.le_zero.mp hlen))
  | cons r rs ih =>
    rw [List.length_cons, readRecords_succ, List.map_cons, List.cons.injEq] at h
    obtain ⟨hr, hrs⟩ := h
    rcases readUntil_cases (d := d) cs with ⟨-, hnone⟩ | ⟨out, post, hsome, hd, hflat, hiff⟩
    · rw [hnone] at hr
      cases hr
    · rw [hsome] at hr hrs
      obtain rfl : upTo d out = r := Option.some.inj hr
      have hout := congrArg List.length (cut_eq hd)
      -- the records to come fill the rest of the stream, which leaves no room for a loss
      have hrest := length_le_of_readRecords hrs
      rw [hflat, join_cons] at hlen
      simp only [List.length_append, List.length_cons] at hout hlen hrest
      refine hiff.mpr ⟨List.length_eq_zero_iff.mp (by omega), ih hrs (by omega)⟩

/-- **The reader gives the records that were sent exactly if no chunk holds anything behind its
first delimiter.** -/
theorem readRecords_iff_aligned {rs : List (List α)} {cs : List (List α)} (hrs : ∀ r ∈ rs, d ∉ r)
    (h : cs.flatten = join d rs) : readRecords d rs.length cs = rs.map some ↔ Aligned d cs :=
  ⟨fun hread => aligned_of_readRecords hread (Nat.le_of_eq (congrArg List.length h)),
    readRecords_of_aligned hrs h⟩

/-- A single record comes in aligned chunks, however it is cut. -/
theorem aligned_of_single {r : List α} {cs : List (List α)} (hr : d ∉ r)
    (h : cs.flatten = r ++ [d]) : Aligned d cs := by
  rcases readUntil_cases (d := d) cs with ⟨hd, -⟩ | ⟨out, post, -, hd, hflat, hiff⟩
  · exact absurd (by rw [h]; simp) hd
  · have hcut : upTo d out ++ d :: (after d out ++ post.flatten) = r ++ d :: [] := by
      rw [← h, hflat, append_cut_eq hd]
    obtain ⟨-, hnil⟩ := cut_inj (notMem_upTo out) hr hcut
    obtain ⟨hlost, hpost⟩ := List.append_eq_nil_iff.mp hnil
    exact hiff.mpr ⟨hlost, aligned_of_flatten_nil hpost⟩

/-- A single record is read, and with it all chunks but empty ones. -/
theorem readUntil_single {r : List α} {cs : List (List α)} (hr : d ∉ r)
    (h : cs.flatten = r ++ [d]) :
    ∃ out post, readUntil d cs [] = (some out, post) ∧ upTo d out = r ∧ post.flatten = [] := by
  rcases readUntil_cases (d := d) cs with ⟨hd, -⟩ | ⟨out, post, hread, hd, hflat, -⟩
  · exact absurd (by rw [h]; simp) hd
  · have hcut : upTo d out ++ d :: (after d out ++ post.flatten) = r ++ d :: [] := by
      rw [← h, hflat, append_cut_eq hd]
    obtain ⟨hrec, hnil⟩ := cut_inj (notMem_upTo out) hr hcut
    exact ⟨out, post, hread, hrec, (List.append_eq_nil_iff.mp hnil).2⟩

end Records
