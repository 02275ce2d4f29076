import SasTests.CursorClient
import SasTests.Python.Ascii
import SasTests.Python.Dict
import Mathlib.Data.List.Nodup

/-!
# The compliance map

`_query_compliance_map` asks which specifications comply, waits for a compliance event, and reads
the answer from it (`_extract_compliance_map`): the first dictionary among the event itself and its
values that has a key which `int` accepts. The keys become numbers and the values truth values,
however they are spelled.

`queryComplianceMap_exact` says what the tests rely on: in every run, against a backend whose
compliance events report a map, the map that is returned is the one that was reported by the first
compliance event after the question, with nothing lost, added or mixed up.
-/

namespace SasTests

open Python

namespace ComplianceMap

/-! ## The code -/

/-- What two built-ins make of texts. -/
structure Texts where
  /-- `int(text)`, or `none` for the `ValueError` -/
  int : String → Option ℤ
  /-- `text.strip().lower()` -/
  stripLower : String → String
  /-- for an ASCII text within the limit of digits -/
  int_ascii : ∀ text : String, text.length ≤ 4300 → (∀ c ∈ text.toList, c.toNat < 0x80) →
    int text = (parseInt text.toList).toOption
  /-- for an ASCII text -/
  stripLower_ascii : ∀ text : String, (∀ c ∈ text.toList, c.toNat < 0x80) →
    stripLower text = String.ofList ((strip text.toList).map Char.toLower)

/-- The items of a dictionary that `json.loads` made. -/
abbrev Fields : Type := List (String × Json)

variable (T : Texts)

/-- `_to_bool` -/
def toBool : Json → Bool
  | .bool b => b
  | .num q => q ≠ 0
  | .nonFinite _ => true
  | .str s => T.stripLower s ∈ ["1", "true", "yes", "y"]
  | _ => false

/-- `_candidate_maps` -/
def candidateMaps : Json → List Fields
  | .obj node => node :: node.filterMap fun p => match p.2 with
    | .obj v => some v
    | _ => none
  | _ => []

/-- One pass of the inner loop of `_extract_compliance_map`. -/
def pass (out : Items) (p : String × Json) : Items :=
  match T.int p.1 with
  | some sid => out.assign (.num sid) (.bool (toBool T p.2))
  | none => out

/-- `out`, for one candidate. -/
def entries (candidate : Fields) : Items := candidate.foldl (pass T) []

/-- `_extract_compliance_map` -/
def extractComplianceMap (message : Json) : Items :=
  (((candidateMaps message).map (entries T)).find? fun out => !out.isEmpty).getD []

/-! ## What a backend reports -/

variable {T}

/-- The item stands for this specification and its compliance. -/
def Spells (T : Texts) (compliance : ℤ × Bool) (item : String × Json) : Prop :=
  T.int item.1 = some compliance.1 ∧ toBool T item.2 = compliance.2

/-- No key of the dictionary is a number. -/
def NoNumbers (T : Texts) (fields : Fields) : Prop := ∀ p ∈ fields, T.int p.1 = none

/-- The message of a backend that reports which specifications comply: in the value of some field,
under a key for each specification. Nothing else in the message has numbers for keys. -/
structure Report (T : Texts) where
  /-- the specifications and whether they comply -/
  compliance : List (ℤ × Bool)
  /-- how they are spelled -/
  spelled : Fields
  before : Fields
  key : String
  after : Fields
  key_ne : key ≠ "_received_at"
  nodup : (compliance.map Prod.fst).Nodup
  spells : List.Forall₂ (Spells T) compliance spelled
  envelope : NoNumbers T (before ++ (key, .obj spelled) :: after)
  others : ∀ p ∈ before ++ after, ∀ fields, p.2 = .obj fields → NoNumbers T fields

namespace Report

/-- The message as a value. -/
def fields (r : Report T) : Fields := r.before ++ (r.key, .obj r.spelled) :: r.after

/-- The map, as a dictionary of Python. -/
def toItems (r : Report T) : Items := r.compliance.map fun p => (.num p.1, .bool p.2)

end Report

/-! ## What is extracted -/

theorem entries_of_noNumbers {candidate : Fields} (h : NoNumbers T candidate) :
    entries T candidate = [] := by
  rw [entries]
  induction candidate with
  | nil => rfl
  | cons p candidate ih =>
    obtain ⟨hp, hrest⟩ := List.forall_mem_cons.mp h
    rw [List.foldl_cons, pass, hp]
    exact ih hrest

theorem ascii_of_all {text : String} (h : (text.toList.all fun c => c.toNat < 0x80) = true) :
    ∀ c ∈ text.toList, c.toNat < 0x80 :=
  fun c hc => of_decide_eq_true (List.all_eq_true.mp h c hc)

/-- These are no numbers. -/
theorem int_name (T : Texts) : ∀ name ∈ ["_received_at", "type", "data"], T.int name = none := by
  have hname : ∀ name ∈ ["_received_at", "type", "data"],
      name.length ≤ 4300 ∧ (name.toList.all fun c => c.toNat < 0x80) = true ∧
        (parseInt name.toList).toOption = none := by decide
  intro name hmem
  obtain ⟨hlength, hchars, hnone⟩ := hname name hmem
  rw [T.int_ascii name hlength (ascii_of_all hchars), hnone]

theorem sameKey_num (m n : ℤ) : Items.sameKey (.num m) (.num n) = decide (m = n) := by
  by_cases h : m = n <;> simp [Items.sameKey, Json.key, Except.toOption, h]

/-- New specifications are appended, in their order. -/
theorem foldl_pass {compliance : List (ℤ × Bool)} {spelled : Fields}
    (h : List.Forall₂ (Spells T) compliance spelled) (hnodup : (compliance.map Prod.fst).Nodup)
    {out : Items} (hnew : ∀ p ∈ compliance, out.find (.num p.1) = none) :
    spelled.foldl (pass T) out = out ++ compliance.map fun p => (.num p.1, .bool p.2) := by
  induction h generalizing out with
  | nil => exact (List.append_nil out).symm
  | @cons p item compliance spelled hspells hrest ih =>
    obtain ⟨hp, hnew⟩ := List.forall_mem_cons.mp hnew
    rw [List.map_cons, List.nodup_cons] at hnodup
    have hpass : pass T out item = out ++ [(.num p.1, .bool p.2)] := by
      rw [pass, hspells.1, hspells.2]
      exact Items.assign_of_find_eq_none hp _
    rw [List.foldl_cons, hpass, ih hnodup.2, List.map_cons, List.append_assoc,
      List.singleton_append]
    intro q hq
    have hne : q.1 ≠ p.1 := fun h => hnodup.1 (List.mem_map.mpr ⟨q, hq, h⟩)
    rw [← Items.assign_of_find_eq_none hp, Items.find_assign, sameKey_num, decide_eq_false hne]
    exact hnew q hq

/-- The value of a field, if it is a dictionary. -/
def dictIn (p : String × Json) : Option Fields :=
  match p.2 with
  | .obj v => some v
  | _ => none

theorem candidateMaps_obj (fields : Fields) :
    candidateMaps (.obj fields) = fields :: fields.filterMap dictIn := rfl

/-- Dictionaries without numbers are passed over. -/
theorem find?_entries {candidates : List Fields} (candidates' : List Fields)
    (h : ∀ fields ∈ candidates, NoNumbers T fields) :
    (((candidates ++ candidates').map (entries T)).find? fun out => !out.isEmpty) =
      (candidates'.map (entries T)).find? fun out => !out.isEmpty := by
  induction candidates with
  | nil => rfl
  | cons fields candidates ih =>
    obtain ⟨hfields, hrest⟩ := List.forall_mem_cons.mp h
    rw [List.cons_append, List.map_cons, entries_of_noNumbers hfields,
      List.find?_cons_of_neg (by simp), ih hrest]

/-- **What is extracted from a report is what it reports.** -/
theorem extract_report (r : Report T) :
    extractComplianceMap T (.obj r.fields) = r.toItems := by
  have others : ∀ {fields}, fields ⊆ r.before ++ r.after →
      ∀ v ∈ fields.filterMap dictIn, NoNumbers T v := by
    intro fields hsub v hv
    obtain ⟨p, hp, hpv⟩ := List.mem_filterMap.mp hv
    refine r.others p (hsub hp) v ?_
    rw [dictIn] at hpv
    split at hpv
    · rename_i v' hv'
      rw [hv', Option.some.inj hpv]
    · cases hpv
  have hspelled : entries T r.spelled = r.toItems := by
    rw [entries, foldl_pass r.spells r.nodup fun _ _ => rfl]
    rfl
  have hcandidates : candidateMaps (.obj r.fields) =
      (r.fields :: r.before.filterMap dictIn) ++ (r.spelled :: r.after.filterMap dictIn) := by
    rw [candidateMaps_obj, Report.fields, List.filterMap_append, List.cons_append]
    rfl
  have hfirst : ∀ fields ∈ r.fields :: r.before.filterMap dictIn, NoNumbers T fields :=
    List.forall_mem_cons.mpr ⟨r.envelope, others (List.subset_append_left ..)⟩
  rw [extractComplianceMap, hcandidates, find?_entries _ hfirst, List.map_cons, hspelled]
  cases hempty : r.toItems with
  | cons => rfl
  | nil =>
    -- an empty map is found nowhere else
    have hrest := find?_entries [] (others (List.subset_append_right ..))
    rw [List.append_nil] at hrest
    rw [List.find?_cons_of_neg (by simp), hrest]
    rfl

/-! ## The stamp -/

theorem assign_append (key : String) (value : Json) (before after : Fields) :
    Json.assign key value (before ++ after) = Json.assign key value before ++ after ∨
      Json.assign key value (before ++ after) = before ++ Json.assign key value after := by
  induction before with
  | nil => exact .inr rfl
  | cons p before ih =>
    by_cases hp : p.1 = key
    · left
      rw [List.cons_append, Json.assign, if_pos hp, Json.assign, if_pos hp, List.cons_append]
    · rw [List.cons_append, Json.assign, if_neg hp, Json.assign, if_neg hp]
      exact ih.imp (congrArg _) (congrArg _)

theorem mem_assign {key : String} {value : Json} {fields : Fields} {p : String × Json}
    (h : p ∈ Json.assign key value fields) : p ∈ fields ∨ p = (key, value) := by
  induction fields with
  | nil => exact .inr (List.mem_singleton.mp h)
  | cons q fields ih =>
    by_cases hq : q.1 = key
    · rw [Json.assign, if_pos hq] at h
      rcases List.mem_cons.mp h with rfl | h
      · exact .inr (congrArg (·, value) hq)
      · exact .inl (List.mem_cons_of_mem _ h)
    · rw [Json.assign, if_neg hq] at h
      rcases List.mem_cons.mp h with rfl | h
      · exact .inl (List.mem_cons_self ..)
      · exact (ih h).imp_left (List.mem_cons_of_mem _)

/-- With the stamp of the accumulator, a report is still a report of the same map. -/
theorem Report.exists_stamped (r : Report T) (now : ℚ) :
    ∃ r' : Report T, r'.fields = Json.assign "_received_at" (.num now) r.fields ∧
      r'.toItems = r.toItems := by
  have hstamp : T.int "_received_at" = none := int_name T _ (by decide)
  -- the stamp is no dictionary, and its key no number
  have noNumbers : ∀ {fields}, NoNumbers T fields →
      NoNumbers T (Json.assign "_received_at" (.num now) fields) := by
    intro fields h p hp
    rcases mem_assign hp with hp | rfl
    · exact h p hp
    · exact hstamp
  have others : ∀ {before after}, before ++ after =
        Json.assign "_received_at" (.num now) r.before ++ r.after ∨
        before ++ after = r.before ++ Json.assign "_received_at" (.num now) r.after →
      ∀ p ∈ before ++ after, ∀ fields, p.2 = .obj fields → NoNumbers T fields := by
    intro before after heq p hp fields hfields
    have hmem : p ∈ r.before ++ r.after ∨ p = ("_received_at", .num now) := by
      rcases heq with heq | heq <;> rw [heq, List.mem_append] at hp
      · rcases hp with hp | hp
        · exact (mem_assign hp).imp_left (List.mem_append_left _)
        · exact .inl (List.mem_append_right _ hp)
      · rcases hp with hp | hp
        · exact .inl (List.mem_append_left _ hp)
        · exact (mem_assign hp).imp_left (List.mem_append_right _)
    rcases hmem with hmem | rfl
    · exact r.others p hmem fields hfields
    · cases hfields
  have henvelope := noNumbers r.envelope
  rcases assign_append "_received_at" (.num now) r.before ((r.key, .obj r.spelled) :: r.after)
    with heq | heq
  · rw [heq] at henvelope
    exact ⟨{ r with
      before := Json.assign "_received_at" (.num now) r.before
      envelope := henvelope
      others := others (.inl rfl) }, heq.symm, rfl⟩
  · rw [Json.assign, if_neg r.key_ne] at heq
    rw [heq] at henvelope
    exact ⟨{ r with
      after := Json.assign "_received_at" (.num now) r.after
      envelope := henvelope
      others := others (.inr rfl) }, heq.symm, rfl⟩

/-! ## Queries -/

/-- The stamp does not change what kind of event it is. -/
theorem isComplianceEvent_stamp (message : Received) (t : ℚ) :
    isComplianceEvent (message.stamp t).body = isComplianceEvent message.body := by
  obtain ⟨idx, body⟩ := message
  cases body with
  | obj fields =>
    simp only [Received.stamp, isComplianceEvent, Json.get_obj]
    rw [Json.field_assign_of_ne _ _ _ (by decide)]
  | _ => rfl

/-- What the wait for a compliance event wants. -/
theorem wants_stamp_iff {timeout sendTs t : ℚ} {message : Received} :
    (CursorWait.complianceEvent timeout).wants sendTs (message.stamp t).body = true ↔
      isComplianceEvent message.body = .ok true ∧ sendTs < t := by
  rw [CursorWait.wants, CursorWait.hasType, CursorWait.accepts, Bool.and_true,
    isComplianceEvent_stamp, Bool.and_eq_true]
  obtain ⟨idx, body⟩ := message
  cases body with
  | obj fields =>
    have hlater : isLater sendTs (Received.stamp ⟨idx, .obj fields⟩ t).body =
        .ok (!decide (t ≤ sendTs)) := by
      rw [Received.stamp, isLater, Json.get_obj, Json.field_of_lookup (Json.lookup_assign_self ..)]
      rfl
    rw [hlater]
    refine and_congr ?_ (by simp)
    cases isComplianceEvent (.obj fields) <;> simp
  | _ => exact iff_of_false (fun h => by cases h.1) fun h => by cases h.1

/-- **A query returns what was reported.** In every run of a client with a call of
`_query_compliance_map`, in which nobody clears the accumulator, against a backend whose compliance
events are reports: the map that is returned is that of a report that the client received after the
question.

It is the first one that was left in the accumulator since the wait began. The cursor of the wait
starts at the end of the accumulator, so a report that comes while the question is being sent is
passed over. -/
theorem queryComplianceMap_exact {timeout sendTs now : ℚ} {loop : Loop} {ls : List Tested.Label}
    {s : Tested}
    (h : Lts.run (Tested.step (waitComplianceEvent timeout))
      (Tested.entered (waitComplianceEvent timeout) loop sendTs now) ls = some s)
    (hclear : ls.any Tested.Label.clears = false)
    (hreports : ∀ fields t, .client (.receive (.ok (.obj fields)) t) ∈ ls →
      isComplianceEvent (.obj fields) = .ok true → ∃ r : Report T, fields = r.fields)
    {sendTs' : ℚ} {ev : Received} {v : Json} (hframe : s.frame = .ended sendTs' (.found ev v)) :
    ∃ (r : Report T) (before after : List Tested.Label) (t : ℚ),
      ls = before ++ .client (.receive (.ok (.obj r.fields)) t) :: after ∧ sendTs < t ∧
      (∀ ev ∈ Tested.arrivals (waitComplianceEvent timeout) loop sendTs now before,
        (CursorWait.complianceEvent timeout).wants sendTs ev.body = false) ∧
      extractComplianceMap T v = r.toItems := by
  have hs := Tested.run_keeps (w := .complianceEvent timeout) h hclear
  simp only [Tested.Keeps, hframe] at hs
  obtain ⟨pre, post, hcame, hpre, hev, rfl⟩ := hs
  obtain ⟨before, l, after, s₁, fresh, rest, rfl, -, hout, rfl⟩ := Lts.outputs_eq_append h hcame
  have hmem : ev ∈ s₁.leaves l := hout ▸ List.mem_append_right _ (List.mem_cons_self ..)
  obtain ⟨fields, t, rfl, rfl⟩ := Tested.of_leaves hmem
  obtain ⟨hkind, hlater⟩ := wants_stamp_iff.mp hev
  obtain ⟨r, rfl⟩ := hreports fields t (List.mem_append_right _ (List.mem_cons_self ..)) hkind
  refine ⟨r, before, after, t, rfl, hlater, fun ev hev => hpre ev (List.mem_append_left _ hev), ?_⟩
  obtain ⟨r', hfields, hitems⟩ := r.exists_stamped t
  have hbody : (Received.stamp ⟨s₁.loop.log.length, .obj r.fields⟩ t).body = .obj r'.fields := by
    rw [hfields]
    rfl
  rw [hbody, extract_report, hitems]

/-! ## The usual reports -/

theorem int_formatInt {n : ℕ} (h : (formatInt 0 n).length ≤ 4300) :
    T.int (String.ofList (formatInt 0 n)) = some (n : ℤ) := by
  rw [T.int_ascii, String.toList_ofList, parseInt_formatInt]
  · rfl
  · rwa [String.length_ofList]
  · intro c hc
    rw [String.toList_ofList] at hc
    have hdigit := isDigit_iff.mp (isDigit_of_mem_formatInt hc)
    omega

/-- The words for the truth values. -/
theorem toBool_word (T : Texts) (b : Bool) :
    toBool T (.str (if b then "true" else "false")) = b := by
  cases b
  · rw [toBool, T.stripLower_ascii _ (ascii_of_all rfl)]
    rfl
  · rw [toBool, T.stripLower_ascii _ (ascii_of_all rfl)]
    rfl

/-- A report with decimal numbers for the specifications, in the field `data`; `spell` says what
stands for a truth value. -/
def plainReport (T : Texts) (type : String) (spell : Bool → Json)
    (hspell : ∀ b, toBool T (spell b) = b) (compliance : List (ℕ × Bool))
    (hnodup : (compliance.map Prod.fst).Nodup)
    (hshort : ∀ p ∈ compliance, (formatInt 0 p.1).length ≤ 4300) : Report T where
  compliance := compliance.map fun p => (p.1, p.2)
  spelled := compliance.map fun p => (String.ofList (formatInt 0 p.1), spell p.2)
  before := [("type", .str type)]
  key := "data"
  after := []
  key_ne := by decide
  nodup := by
    have h := List.Nodup.map (fun _ _ => Int.ofNat.inj : Function.Injective Int.ofNat) hnodup
    rw [List.map_map] at h ⊢
    exact h
  spells := by
    rw [List.forall₂_map_left_iff, List.forall₂_map_right_iff, List.forall₂_same]
    exact fun p hp => ⟨int_formatInt (hshort p hp), hspell p.2⟩
  envelope := by
    refine List.forall_mem_cons.mpr ⟨?_, List.forall_mem_singleton.mpr ?_⟩
    · exact int_name T "type" (by decide)
    · exact int_name T "data" (by decide)
  others := by
    refine List.forall_mem_singleton.mpr fun fields hfields => ?_
    cases hfields

/-- The built-ins, where the texts are ASCII. -/
def asciiTexts : Texts where
  int text := (parseInt text.toList).toOption
  stripLower text := String.ofList ((strip text.toList).map Char.toLower)
  int_ascii _ _ _ := rfl
  stripLower_ascii _ _ := rfl

/-- The answer to a query: 110 complies, 111 does not. -/
def oneOfTwo : Report asciiTexts :=
  plainReport asciiTexts "spec_compliance_query_response"
    (fun b => .str (if b then "true" else "false")) (toBool_word asciiTexts)
    [(110, true), (111, false)] (by decide) (by decide)

/-- A query that is answered at once. -/
def answered : List Tested.Label :=
  [.test (.poll 1 1), .client (.receive (.ok (.obj oneOfTwo.fields)) 2), .test (.poll 3 3)]

theorem queryComplianceMap_exact_answered :
    ∃ loop s sendTs' ev v, Lts.run Loop.step .new [.connect 0] = some loop ∧
      Lts.run (Tested.step (waitComplianceEvent 6))
        (Tested.entered (waitComplianceEvent 6) loop 0 0) answered = some s ∧
      s.frame = .ended sendTs' (.found ev v) ∧
      extractComplianceMap asciiTexts v = [(.num 110, .bool true), (.num 111, .bool false)] := by
  have hconnect : Lts.run Loop.step .new [.connect 0] = some _ := rfl
  have hrun : ((Lts.run (Tested.step (waitComplianceEvent 6))
      (Tested.entered (waitComplianceEvent 6) { Loop.new with client := WSClient.new.connect 0 }
        0 0) answered).any Tested.found) = true := by decide +kernel
  have honly : ∀ fields t, .client (.receive (.ok (.obj fields)) t) ∈ answered →
      fields = oneOfTwo.fields := by
    intro fields t h
    simp only [answered, List.mem_cons, reduceCtorEq, List.not_mem_nil, false_or, or_false,
      Tested.Label.client.injEq, Loop.Label.receive.injEq, Except.ok.injEq, Json.obj.injEq] at h
    exact h.1
  obtain ⟨s, hs, hlast⟩ := (Option.any_eq_true ..).mp hrun
  obtain ⟨sendTs', ev, v, hframe⟩ := Tested.exists_of_found hlast
  obtain ⟨r, before, after, t, hls, -, -, hextract⟩ := queryComplianceMap_exact hs rfl
    (fun fields t h _ => ⟨oneOfTwo, honly fields t h⟩) hframe
  have hfields : r.fields = oneOfTwo.fields :=
    honly r.fields t (hls ▸ List.mem_append_right _ (List.mem_cons_self ..))
  refine ⟨_, s, sendTs', ev, v, hconnect, hs, hframe, ?_⟩
  rw [hextract, ← extract_report, hfields, extract_report]
  rfl

end ComplianceMap

end SasTests
