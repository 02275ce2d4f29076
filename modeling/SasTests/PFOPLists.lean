import SasTests.PFOPClient

/-!
# The id lists of PFOP

The tests read the list of parameter sets (MID 0011) and the list of jobs (MID 0031) out of the data
of a frame: a decimal count, and as many decimal ids, all of one width. A list that was cut off
gives the ids that are there in full (`parse_encodeIds`).
-/

namespace SasTests

open Python PFOPClient

/-! ## The code -/

/-- The loop of `_parse_pset_ids` and `_parse_job_ids`, for `n` more ids from `offset` on. -/
def parseIdsFrom (width : ℕ) (text : List Char) :
    ℕ → ℕ → List ℤ → Except PyError (List ℤ)
  | 0, _, ids => .ok ids
  | n + 1, offset, ids =>
    if offset + width > text.length then .ok ids
    else do
      let id ← intOrZero (text.extract offset (offset + width))
      parseIdsFrom width text n (offset + width) (ids ++ [id])

/-- What `_parse_pset_ids` and `_parse_job_ids` do with fields of `width` characters. -/
def parseIds (width : ℕ) (frameData : List UInt8) : Except PyError (List ℤ) :=
  let text := decodeAscii frameData
  if text.length < width then .ok []
  else do
    let count ← intOrZero (text.extract 0 width)
    -- `range(count)` is empty if `count` is negative
    parseIdsFrom width text count.toNat width []

/-- `_parse_pset_ids` -/
def parsePsetIds (frameData : List UInt8) : Except PyError (List ℤ) := parseIds 3 frameData

/-- `_parse_job_ids` -/
def parseJobIds (frameData : List UInt8) (revision : ℤ) : Except PyError (List ℤ) :=
  if revision ≤ 1 then parseIds 2 frameData else parseIds 4 frameData

/-! ## The format -/

/-- The two kinds of lists. -/
inductive IdList
  | pset
  | job (revision : ℤ)

namespace IdList

/-- The width of the count and of each id. -/
def width : IdList → ℕ
  | pset => 3
  | job revision => if revision ≤ 1 then 2 else 4

/-- The function that reads such a list. -/
def parse : IdList → List UInt8 → Except PyError (List ℤ)
  | pset, frameData => parsePsetIds frameData
  | job revision, frameData => parseJobIds frameData revision

/-- The count and the ids have no more digits than there is room for. -/
def Fits (kind : IdList) (ids : List ℕ) : Prop :=
  ids.length < 10 ^ kind.width ∧ ∀ id ∈ ids, id < 10 ^ kind.width

theorem parse_eq (kind : IdList) (frameData : List UInt8) :
    kind.parse frameData = parseIds kind.width frameData := by
  cases kind with
  | pset => rfl
  | job revision =>
    rw [parse, parseJobIds, width]
    split <;> rfl

theorem width_pos (kind : IdList) : 0 < kind.width := by
  cases kind with
  | pset => decide
  | job revision =>
    rw [width]
    split <;> decide

end IdList

/-- The ids, filled up with zeros. -/
def idTexts (width : ℕ) (ids : List ℕ) : List Char := ids.flatMap fun id : ℕ => formatInt width id

/-- The count and the ids, filled up with zeros. -/
def encodeIds (width : ℕ) (ids : List ℕ) : List UInt8 :=
  (formatInt width ids.length ++ idTexts width ids).map asciiByte

@[simp] theorem idTexts_cons (width id : ℕ) (ids : List ℕ) :
    idTexts width (id :: ids) = formatInt width id ++ idTexts width ids := rfl

theorem length_idTexts {width : ℕ} (hw : 0 < width) {ids : List ℕ}
    (h : ∀ id ∈ ids, id < 10 ^ width) : (idTexts width ids).length = width * ids.length := by
  induction ids with
  | nil => rfl
  | cons id ids ih =>
    obtain ⟨hid, hids⟩ := List.forall_mem_cons.mp h
    rw [idTexts_cons, List.length_append, length_formatInt hw hid, ih hids, List.length_cons,
      Nat.mul_succ, Nat.add_comm]

theorem ascii_of_mem_encoding {width : ℕ} {ids : List ℕ} {c : Char}
    (h : c ∈ formatInt width ids.length ++ idTexts width ids) : c.toNat < 128 := by
  rcases List.mem_append.mp h with h | h
  · exact (WireFrame.lt_of_mem_formatInt h).2
  · obtain ⟨id, -, h⟩ := List.mem_flatMap.mp h
    exact (WireFrame.lt_of_mem_formatInt h).2

/-- What is left of the encoding decodes to what is left of the text. -/
theorem decodeAscii_take_encodeIds (width : ℕ) (ids : List ℕ) (n : ℕ) :
    decodeAscii ((encodeIds width ids).take n) =
      (formatInt width ids.length ++ idTexts width ids).take n := by
  rw [encodeIds, ← List.map_take]
  exact decodeAscii_map_asciiByte fun c hc => ascii_of_mem_encoding (List.mem_of_mem_take hc)

/-! ## Reading -/

/-- The loop takes the ids that are there in full. -/
theorem parseIdsFrom_take {width : ℕ} (hw : 0 < width) {ids : List ℕ}
    (h : ∀ id ∈ ids, id < 10 ^ width) (before : List Char) (j : ℕ) (out : List ℤ) :
    parseIdsFrom width (before ++ (idTexts width ids).take j) ids.length before.length out =
      .ok (out ++ (ids.take (j / width)).map Nat.cast) := by
  induction ids generalizing before j out with
  | nil => simp [parseIdsFrom]
  | cons id ids ih =>
    obtain ⟨hid, hids⟩ := List.forall_mem_cons.mp h
    have hlen : (formatInt width id).length = width := length_formatInt hw hid
    rw [List.length_cons, idTexts_cons]
    by_cases hj : j < width
    · -- not a whole id
      rw [Nat.div_eq_of_lt hj, List.take_zero, List.map_nil, List.append_nil, parseIdsFrom, if_pos]
      rw [List.take_append_of_le_length (by omega), List.length_append, List.length_take]
      omega
    · have htake : (formatInt width id ++ idTexts width ids).take j =
          formatInt width id ++ (idTexts width ids).take (j - width) := by
        rw [List.take_append, hlen, List.take_of_length_le (by omega)]
      have hread : (before ++ (formatInt width id ++ (idTexts width ids).take (j - width))).extract
          before.length (before.length + width) = formatInt width id :=
        WireFrame.extract_middle rfl (by rw [hlen])
      rw [htake, parseIdsFrom, if_neg (by simp only [List.length_append]; omega), hread,
        WireFrame.intOrZero_formatInt]
      -- the rest is read from behind this id on
      have hrest := ih hids (before ++ formatInt width id) (j - width) (out ++ [(id : ℤ)])
      rw [List.append_assoc, List.length_append, hlen] at hrest
      have hj' : j / width = (j - width) / width + 1 := Nat.div_eq_sub_div hw (by omega)
      apply hrest.trans
      rw [hj', List.take_succ_cons, List.map_cons, List.append_assoc]
      rfl

/-- A list that was cut off behind its count. -/
theorem parseIds_take {width : ℕ} (hw : 0 < width) {ids : List ℕ} (hlen : ids.length < 10 ^ width)
    (h : ∀ id ∈ ids, id < 10 ^ width) (j : ℕ) :
    parseIds width ((encodeIds width ids).take (width + j)) =
      .ok ((ids.take (j / width)).map Nat.cast) := by
  have hcount : (formatInt width ids.length).length = width := length_formatInt hw hlen
  have htake : (formatInt width ids.length ++ idTexts width ids).take (width + j) =
      formatInt width ids.length ++ (idTexts width ids).take j := by
    rw [List.take_append, hcount, List.take_of_length_le (by omega), Nat.add_sub_cancel_left]
  have hread : (formatInt width ids.length ++ (idTexts width ids).take j).extract 0 width =
      formatInt width ids.length :=
    WireFrame.extract_middle (a := []) rfl (by rw [hcount, Nat.zero_add])
  have hloop := parseIdsFrom_take hw h (formatInt width ids.length) j []
  rw [hcount] at hloop
  simp only [parseIds]
  rw [decodeAscii_take_encodeIds, htake,
    if_neg (by rw [List.length_append, hcount]; omega), hread, WireFrame.intOrZero_formatInt]
  exact hloop

/-- A list that was cut off in its count. -/
theorem parseIds_take_of_lt {width : ℕ} (ids : List ℕ) {n : ℕ} (hn : n < width) :
    parseIds width ((encodeIds width ids).take n) = .ok [] := by
  simp only [parseIds]
  rw [decodeAscii_take_encodeIds, if_pos]
  rw [List.length_take]
  omega

/-- **The list is read back, and of a list that was cut off behind its count the ids that are there
in full; of a list that was cut off in its count, none.**

So nothing is raised for a list that was cut off, whatever its count says. The list of parameter
sets has three digits for the count and for each id, that of the jobs two or four, by its
revision. -/
theorem IdList.parse_encodeIds (kind : IdList) (ids : List ℕ) (h : kind.Fits ids) :
    kind.parse (encodeIds kind.width ids) = .ok (ids.map Nat.cast) ∧
      (∀ j, kind.parse ((encodeIds kind.width ids).take (kind.width + j)) =
        .ok ((ids.take (j / kind.width)).map Nat.cast)) ∧
      ∀ n < kind.width, kind.parse ((encodeIds kind.width ids).take n) = .ok [] := by
  obtain ⟨hlen, hids⟩ := h
  have hw := kind.width_pos
  simp only [parse_eq]
  refine ⟨?_, parseIds_take hw hlen hids, fun n hn => parseIds_take_of_lt ids hn⟩
  -- the whole list, as what is left when nothing was cut off
  have hwhole := parseIds_take hw hlen hids (kind.width * ids.length)
  rw [Nat.mul_div_cancel_left _ hw, List.take_length, List.take_of_length_le] at hwhole
  · exact hwhole
  · rw [encodeIds, List.length_map, List.length_append, length_formatInt hw hlen,
      length_idTexts hw hids]

/-- Three jobs, the last of which was cut off. -/
theorem IdList.parse_encodeIds_jobs :
    (job 2).parse ((encodeIds 4 [3, 127, 9999]).take (4 + 11)) = .ok [3, 127] :=
  ((job 2).parse_encodeIds [3, 127, 9999] ⟨by decide, by decide⟩).2.1 11

end SasTests
