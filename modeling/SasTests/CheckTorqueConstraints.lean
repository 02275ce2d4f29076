import SasTests.Lib.Interleave
import SasTests.Python.Json

/-!
# The script that prints torque limits

`_check_torque_constraints` asks for the constraints of some machine types one after the other, and
takes the next message that is JSON and not an `echo` for the reply. Nothing ties a reply to its
query: a message that the server sends on its own is taken for the reply, too, and then every later
reply is taken for that of the next query. `labelled_iff` says exactly when the lines that the
script prints come from the right replies.
-/

namespace SasTests.CheckTorqueConstraints

open Python

/-! ## Messages -/

/-- A well-formed reply to a `machine_type_constraints_query`. -/
structure Reply where
  fields : List (String × Json)
  /-- the constraints -/
  items : List (List (String × Json))
  notEcho : (Json.field fields "type").eqStr "echo" = false
  constraints : Json.field fields "constraints" (.arr []) = .arr (items.map .obj)
  named : ∀ item ∈ items, ∃ name, Json.field item "paramName" = .str name

/-- A message that arrives. -/
inductive Message
  /-- the server sends it on its own; `json.loads` makes `loaded` of it -/
  | pushed (loaded : Except PyError Json)
  /-- the reply to the query for the machine type `mt` -/
  | reply (mt : ℕ) (r : Reply)

/-- What `json.loads` makes of a message. -/
def Message.loaded : Message → Except PyError Json
  | pushed loaded => loaded
  | reply _ r => .ok (.obj r.fields)

/-- The machine type to whose query the message replies. -/
def Message.repliesTo : Message → Option ℕ
  | pushed _ => none
  | reply mt _ => some mt

/-! ## The code -/

/-- The machine types that the script asks for. -/
def machineTypes : List ℕ := [1, 2, 3, 14, 16]

/-- What the script prints of one constraint. -/
structure Row where
  param : String
  torqueUnit : Json
  minValue : Json
  maxValue : Json

/-- A line that the script prints, and the message that it comes from. -/
structure Line where
  mt : ℕ
  row : Row
  source : Message

/-- `"torque" in name.lower()`. Of the characters that are not ASCII, none has one of these letters
for its lower case. -/
def isTorque (name : String) : Bool :=
  decide ("torque".toList <:+: name.toList.map Char.toLower)

/-- What the script prints of the constraint `c`, if anything. -/
def torqueRow (c : Json) : Except PyError (Option Row) := do
  let pn ← c.get "paramName"
  match pn with
  | .str name =>
    if isTorque name then
      let torqueUnit ← c.get "torqueUnit"
      let minValue ← c.get "minValue"
      let maxValue ← c.get "maxValue"
      return some ⟨name, torqueUnit, minValue, maxValue⟩
    else return none
  -- only a string has a `lower`
  | _ => .error .attributeError

/-- The loop over the constraints: what is printed, and the exception that ends it. -/
def printRows : List Json → List Row × Option PyError
  | [] => ([], none)
  | c :: cs => match torqueRow c with
    | .error e => ([], some e)
    | .ok none => printRows cs
    | .ok (some row) => (row :: (printRows cs).1, (printRows cs).2)

/-- `iter(x)`: the elements of a list, the characters of a string, the keys of a dictionary. -/
def iterate : Json → Except PyError (List Json)
  | .arr items => .ok items
  | .str s => .ok (s.toList.map fun c => .str (String.singleton c))
  | .obj fields => .ok (fields.map fun p => .str p.1)
  | _ => .error .typeError

/-- What the script prints of `resp`, and the exception that ends it. -/
def printConstraints (resp : Json) : List Row × Option PyError :=
  match resp.get "constraints" (.arr []) >>= iterate with
  | .ok constraints => printRows constraints
  | .error e => ([], some e)

/-- How the reading loop ends. -/
inductive Reading
  /-- it waits for a message -/
  | waiting
  /-- with an exception -/
  | raised (e : PyError)
  /-- `resp` is taken for the reply; it comes from `source`, and `rest` is still to be read -/
  | got (resp : Json) (source : Message) (rest : List Message)

/-- The reading loop. -/
def readReply : List Message → Reading
  | [] => .waiting
  | m :: rest => match m.loaded with
    | .error .jsonDecodeError => readReply rest
    | .error e => .raised e
    | .ok resp => match resp.get "type" with
      | .error e => .raised e
      | .ok type => if type.eqStr "echo" then readReply rest else .got resp m rest

/-- How the script ends. -/
inductive Ending
  | waiting
  | raised (e : PyError)
  | finished

/-- What the script has printed, and how it ended. -/
structure Outcome where
  lines : List Line
  ending : Ending

/-- `main` for the machine types that are left. -/
def mainLoop : List ℕ → List Message → Outcome
  | [], _ => ⟨[], .finished⟩
  | mt :: mts, ms => match readReply ms with
    | .waiting => ⟨[], .waiting⟩
    | .raised e => ⟨[], .raised e⟩
    | .got resp source rest =>
      let lines := (printConstraints resp).1.map fun row => ⟨mt, row, source⟩
      match (printConstraints resp).2 with
      | some e => ⟨lines, .raised e⟩
      | none => ⟨lines ++ (mainLoop mts rest).lines, (mainLoop mts rest).ending⟩

/-- `main`, when the messages `ms` arrive. -/
def main (ms : List Message) : Outcome := mainLoop machineTypes ms

/-! ## What is read -/

namespace Message

/-- The reading loop skips the message: it is not JSON, or an `echo`. -/
def Skipped (m : Message) : Prop :=
  match m.loaded with
  | .error e => e = .jsonDecodeError
  | .ok (.obj fields) => (Json.field fields "type").eqStr "echo" = true
  | .ok _ => False

/-- What the script prints of a message that it does not skip, and the exception that ends it. -/
def printed (m : Message) : List Row × Option PyError :=
  match m.loaded with
  | .error e => ([], some e)
  | .ok resp => match resp.get "type" with
    | .error e => ([], some e)
    | .ok _ => printConstraints resp

/-- The torque rows of a message. -/
def rows (m : Message) : List Row := m.printed.1

/-- The script ends with an exception if it does not skip the message. -/
def Fatal (m : Message) : Prop := m.printed.2.isSome

instance (m : Message) : Decidable m.Skipped :=
  match h : m.loaded with
  | .error e => decidable_of_iff (e = .jsonDecodeError) (by rw [Skipped, h])
  | .ok (.obj fields) =>
    decidable_of_iff ((Json.field fields "type").eqStr "echo" = true) (by rw [Skipped, h])
  | .ok .null => isFalse (by rw [Skipped, h]; exact id)
  | .ok (.bool _) => isFalse (by rw [Skipped, h]; exact id)
  | .ok (.num _) => isFalse (by rw [Skipped, h]; exact id)
  | .ok (.nonFinite _) => isFalse (by rw [Skipped, h]; exact id)
  | .ok (.str _) => isFalse (by rw [Skipped, h]; exact id)
  | .ok (.arr _) => isFalse (by rw [Skipped, h]; exact id)

instance (m : Message) : Decidable m.Fatal := inferInstanceAs (Decidable (_ = true))

end Message

/-- The messages that the script takes for replies, if it keeps asking: those it does not skip, up
to the first that ends it. -/
def answers : List Message → List Message
  | [] => []
  | m :: rest =>
    if m.Skipped then answers rest else if m.Fatal then [m] else m :: answers rest

/-- What the reading loop does with the next message. -/
theorem readReply_cons (m : Message) (rest : List Message) :
    (m.Skipped ∧ readReply (m :: rest) = readReply rest) ∨
      (¬ m.Skipped ∧ m.Fatal ∧ m.rows = [] ∧ ∃ e, readReply (m :: rest) = .raised e) ∨
      (¬ m.Skipped ∧ ∃ resp, m.printed = printConstraints resp ∧
        readReply (m :: rest) = .got resp m rest) := by
  rcases hloaded : m.loaded with e | resp
  · by_cases he : e = .jsonDecodeError
    · subst he
      exact .inl ⟨by simp [Message.Skipped, hloaded], by simp [readReply, hloaded]⟩
    · refine .inr (.inl ⟨by simpa [Message.Skipped, hloaded] using he,
        by simp [Message.Fatal, Message.printed, hloaded],
        by simp [Message.rows, Message.printed, hloaded], e, ?_⟩)
      simp only [readReply, hloaded]
  · cases resp with
    | obj fields =>
      by_cases hecho : (Json.field fields "type").eqStr "echo" = true
      · exact .inl ⟨by simpa [Message.Skipped, hloaded] using hecho,
          by simp [readReply, hloaded, hecho]⟩
      · exact .inr (.inr ⟨by simpa [Message.Skipped, hloaded] using hecho, .obj fields,
          by simp [Message.printed, hloaded], by simp [readReply, hloaded, hecho]⟩)
    | _ =>
      exact .inr (.inl ⟨by simp [Message.Skipped, hloaded],
        by simp [Message.Fatal, Message.printed, hloaded, Json.get],
        by simp [Message.rows, Message.printed, hloaded, Json.get], .attributeError,
        by simp [readReply, hloaded, Json.get]⟩)

/-- The reading loop takes the first message that it does not skip. -/
theorem readReply_cases (ms : List Message) :
    (readReply ms = .waiting ∧ answers ms = []) ∨
      (∃ m e, readReply ms = .raised e ∧ answers ms = [m] ∧ m.rows = []) ∨
      ∃ m resp rest, readReply ms = .got resp m rest ∧ m.printed = printConstraints resp ∧
        answers ms = if m.Fatal then [m] else m :: answers rest := by
  induction ms with
  | nil => exact .inl ⟨rfl, rfl⟩
  | cons m ms ih =>
    rw [answers]
    rcases readReply_cons m ms with ⟨hskip, hread⟩ | ⟨hskip, hfatal, hrows, e, hread⟩ |
      ⟨hskip, resp, hprinted, hread⟩
    · rw [hread, if_pos hskip]
      exact ih
    · rw [if_neg hskip, if_pos hfatal]
      exact .inr (.inl ⟨m, e, hread, rfl, hrows⟩)
    · rw [if_neg hskip]
      exact .inr (.inr ⟨m, resp, ms, hread, hprinted, rfl⟩)

/-- **The script prints the torque rows of the messages that it takes for replies.** -/
theorem lines_mainLoop (mts : List ℕ) (ms : List Message) :
    (mainLoop mts ms).lines =
      (mts.zip (answers ms)).flatMap fun p => p.2.rows.map fun row => ⟨p.1, row, p.2⟩ := by
  induction mts generalizing ms with
  | nil => rfl
  | cons mt mts ih =>
    rw [mainLoop]
    rcases readReply_cases ms with ⟨hread, hanswers⟩ | ⟨m, e, hread, hanswers, hrows⟩ |
      ⟨m, resp, rest, hread, hprinted, hanswers⟩
    · rw [hread, hanswers]
      rfl
    · rw [hread, hanswers]
      simp [hrows]
    · have hfatal : m.Fatal ↔ (printConstraints resp).2.isSome := by
        rw [← hprinted]
        rfl
      rw [hread, hanswers]
      rcases hend : (printConstraints resp).2 with _ | e
      · simp [ih, Message.rows, hprinted, hfatal, hend]
      · simp [Message.rows, hprinted, hfatal, hend]

/-! ## Replies -/

/-- What is printed of a constraint that has a name. -/
def rowOf (item : List (String × Json)) : Option Row :=
  match Json.field item "paramName" with
  | .str name =>
    if isTorque name then some ⟨name, Json.field item "torqueUnit", Json.field item "minValue",
      Json.field item "maxValue"⟩
    else none
  | _ => none

/-- The torque rows of a reply. -/
def Reply.torqueRows (r : Reply) : List Row := r.items.filterMap rowOf

theorem printRows_named {items : List (List (String × Json))}
    (h : ∀ item ∈ items, ∃ name, Json.field item "paramName" = .str name) :
    printRows (items.map .obj) = (items.filterMap rowOf, none) := by
  induction items with
  | nil => rfl
  | cons item items ih =>
    obtain ⟨⟨name, hname⟩, hitems⟩ := List.forall_mem_cons.mp h
    have hrow : torqueRow (.obj item) = .ok (rowOf item) := by
      simp only [torqueRow, rowOf, Json.get_obj, bind, Except.bind, hname]
      split <;> rfl
    rw [List.map_cons, printRows, hrow, ih hitems]
    cases hitem : rowOf item with
    | none => rw [List.filterMap_cons_none hitem]
    | some row => rw [List.filterMap_cons_some hitem]

/-- A well-formed reply is printed in full. -/
theorem printed_reply (mt : ℕ) (r : Reply) :
    (Message.reply mt r).printed = (r.torqueRows, none) := by
  simp only [Message.printed, Message.loaded, Json.get_obj, printConstraints, r.constraints,
    iterate, bind, Except.bind]
  exact printRows_named r.named

theorem not_skipped_reply (mt : ℕ) (r : Reply) : ¬ (Message.reply mt r).Skipped := by
  simp [Message.Skipped, Message.loaded, r.notEcho]

theorem not_fatal_reply (mt : ℕ) (r : Reply) : ¬ (Message.reply mt r).Fatal := by
  simp [Message.Fatal, printed_reply]

/-! ## Places -/

/-- What comes behind messages that do not end the script. -/
theorem answers_append {xs : List Message} (h : ∀ m ∈ xs, m.Skipped ∨ ¬ m.Fatal)
    (ys : List Message) : answers (xs ++ ys) = answers xs ++ answers ys := by
  induction xs with
  | nil => rfl
  | cons m xs ih =>
    obtain ⟨hm, hxs⟩ := List.forall_mem_cons.mp h
    rw [List.cons_append, answers, answers, ih hxs]
    by_cases hskip : m.Skipped
    · rw [if_pos hskip, if_pos hskip]
    · have hfatal := hm.resolve_left hskip
      rw [if_neg hskip, if_neg hskip, if_neg hfatal, if_neg hfatal, List.cons_append]

theorem mem_answers {ms : List Message} {m : Message} (h : m ∈ answers ms) :
    m ∈ ms ∧ ¬ m.Skipped := by
  induction ms with
  | nil => cases h
  | cons x ms ih =>
    rw [answers] at h
    split at h
    · exact ⟨List.mem_cons_of_mem _ (ih h).1, (ih h).2⟩
    · rename_i hskip
      split at h
      · obtain rfl := List.mem_singleton.mp h
        exact ⟨List.mem_cons_self .., hskip⟩
      · rcases List.mem_cons.mp h with rfl | h
        · exact ⟨List.mem_cons_self .., hskip⟩
        · exact ⟨List.mem_cons_of_mem _ (ih h).1, (ih h).2⟩

/-- Before a message that is taken for a reply there are those taken before it, and skipped ones. -/
theorem answers_split {ms : List Message} {i : ℕ} {m : Message} (h : (answers ms)[i]? = some m) :
    ∃ before after, ms = before ++ m :: after ∧
      ∀ p ∈ before, p.Skipped ∨ p ∈ (answers ms).take i := by
  induction ms generalizing i with
  | nil => cases h
  | cons x ms ih =>
    rw [answers] at h ⊢
    split at h
    · rename_i hskip
      obtain ⟨before, after, rfl, hbefore⟩ := ih h
      rw [if_pos hskip]
      exact ⟨x :: before, after, rfl, List.forall_mem_cons.mpr ⟨.inl hskip, hbefore⟩⟩
    · rename_i hskip
      rw [if_neg hskip]
      cases i with
      | zero =>
        have hx : x = m := by
          split at h <;> exact Option.some.inj h
        exact ⟨[], ms, by rw [hx]; rfl, nofun⟩
      | succ i =>
        split at h
        · cases h
        · rename_i hfatal
          rw [if_neg hfatal]
          obtain ⟨before, after, rfl, hbefore⟩ := ih h
          refine ⟨x :: before, after, rfl, List.forall_mem_cons.mpr ⟨.inr ?_, fun p hp => ?_⟩⟩
          · exact List.mem_cons_self ..
          · exact (hbefore p hp).imp_right fun hmem => List.mem_cons_of_mem _ hmem

/-- The replies among them come in the order of the replies. -/
theorem answers_repliesTo (ms : List Message) :
    (answers ms).filterMap Message.repliesTo <+: ms.filterMap Message.repliesTo := by
  induction ms with
  | nil => exact List.prefix_rfl
  | cons m ms ih =>
    rw [answers]
    cases m with
    | reply mt r =>
      rw [if_neg (not_skipped_reply mt r), if_neg (not_fatal_reply mt r)]
      exact (List.prefix_cons_inj mt).mpr ih
    | pushed loaded =>
      rw [List.filterMap_cons_none (a := Message.pushed loaded) rfl]
      split
      · exact ih
      · split
        · exact List.nil_prefix
        · exact ih

/-! ## Labels -/

/-- Each line comes from the reply to the query for its machine type, and each torque row of a reply
is printed. -/
structure Labelled (ms : List Message) : Prop where
  sources : ∀ line ∈ (main ms).lines, ∃ r, line.source = .reply line.mt r
  complete : ∀ mt r, .reply mt r ∈ ms → ∀ row ∈ r.torqueRows,
    ⟨mt, row, .reply mt r⟩ ∈ (main ms).lines

/-- There is one reply to a query, and the replies come in the order of the queries. -/
def Interleaved (ms : List Message) : Prop := ms.filterMap Message.repliesTo <+: machineTypes

/-- What the server sends on its own does no harm: before a reply with torque rows it is all
skipped, and what is taken for a reply has no torque rows. -/
structure Undisturbed (ms : List Message) : Prop where
  skipped : ∀ mt r, .reply mt r ∈ ms → r.torqueRows ≠ [] → ∃ before after,
    ms = before ++ .reply mt r :: after ∧
      ∀ loaded, .pushed loaded ∈ before → (Message.pushed loaded).Skipped
  noRows : ∀ loaded, .pushed loaded ∈ (answers ms).take machineTypes.length →
    (Message.pushed loaded).rows = []

/-- Where a line comes from. -/
theorem mem_lines_main {ms : List Message} {line : Line} :
    line ∈ (main ms).lines ↔ ∃ i : ℕ, machineTypes[i]? = some line.mt ∧
      (answers ms)[i]? = some line.source ∧ line.row ∈ line.source.rows := by
  rw [main, lines_mainLoop, List.mem_flatMap]
  constructor
  · rintro ⟨⟨mt, m⟩, hmem, hline⟩
    obtain ⟨row, hrow, rfl⟩ := List.mem_map.mp hline
    obtain ⟨i, hi⟩ := List.mem_iff_getElem?.mp hmem
    obtain ⟨hmt, hm⟩ := List.getElem?_zip_eq_some.mp hi
    exact ⟨i, hmt, hm, hrow⟩
  · rintro ⟨i, hmt, hm, hrow⟩
    have hi := List.getElem?_zip_eq_some (z := (line.mt, line.source)).mpr ⟨hmt, hm⟩
    exact ⟨_, List.mem_iff_getElem?.mpr ⟨i, hi⟩, List.mem_map.mpr ⟨line.row, hrow, rfl⟩⟩

theorem rows_reply (mt : ℕ) (r : Reply) : (Message.reply mt r).rows = r.torqueRows :=
  congrArg Prod.fst (printed_reply mt r)

theorem isSome_repliesTo {m : Message} : m.repliesTo.isSome ↔ ∀ loaded, m ≠ .pushed loaded := by
  cases m <;> simp [Message.repliesTo]

/-- A reply is taken for the reply to its query exactly if only replies were taken before. -/
theorem machineTypes_getElem?_iff {ms : List Message} (h : Interleaved ms) {i mt : ℕ} {r : Reply}
    (hi : (answers ms)[i]? = some (.reply mt r)) :
    machineTypes[i]? = some mt ↔ ∀ loaded, .pushed loaded ∉ (answers ms).take i := by
  rw [Interleave.getElem?_tags_iff (by decide) ((answers_repliesTo ms).trans h) hi rfl]
  simp only [isSome_repliesTo]
  exact ⟨fun h loaded hmem => h _ hmem loaded rfl, fun h p hp loaded hp' => h loaded (hp' ▸ hp)⟩

/-- A reply before which everything else is skipped is taken for the reply to its query. -/
theorem exists_answers_reply {before after : List Message} {mt : ℕ} {r : Reply}
    (h : Interleaved (before ++ .reply mt r :: after))
    (hskip : ∀ loaded, .pushed loaded ∈ before → (Message.pushed loaded).Skipped) :
    ∃ i : ℕ, machineTypes[i]? = some mt ∧
      (answers (before ++ .reply mt r :: after))[i]? = some (.reply mt r) := by
  have hanswers : answers (before ++ .reply mt r :: after) =
      answers before ++ .reply mt r :: answers after := by
    rw [answers_append, answers, if_neg (not_skipped_reply mt r), if_neg (not_fatal_reply mt r)]
    intro m hm
    cases m with
    | pushed loaded => exact .inl (hskip loaded hm)
    | reply mt r => exact .inr (not_fatal_reply mt r)
  have hi : (answers (before ++ .reply mt r :: after))[(answers before).length]? =
      some (.reply mt r) := by
    rw [hanswers]
    simp
  refine ⟨_, (machineTypes_getElem?_iff h hi).mpr fun loaded hmem => ?_, hi⟩
  rw [hanswers, List.take_left] at hmem
  obtain ⟨hbefore, hskipped⟩ := mem_answers hmem
  exact hskipped (hskip loaded hbefore)

/-- **The lines have the right labels exactly if what the server sends on its own does no harm.**

It does harm where it is taken for a reply. Then a reply behind it is taken for that of a later
query, and its rows are printed under the wrong machine type, or not at all; and if it has torque
rows itself, they are printed, although no reply has them. A reply without torque rows may be
mistaken for another one unnoticed. -/
theorem labelled_iff (ms : List Message) (h : Interleaved ms) : Labelled ms ↔ Undisturbed ms := by
  constructor
  · rintro ⟨hsources, hcomplete⟩
    refine ⟨fun mt r hr hrows => ?_, fun loaded hmem => ?_⟩
    · obtain ⟨row, hrow⟩ := List.exists_mem_of_ne_nil _ hrows
      obtain ⟨i, hmt, hi, -⟩ := mem_lines_main.mp (hcomplete mt r hr row hrow)
      obtain ⟨before, after, hms, hbefore⟩ := answers_split hi
      refine ⟨before, after, hms, fun loaded hpushed => (hbefore _ hpushed).resolve_right ?_⟩
      exact (machineTypes_getElem?_iff h hi).mp hmt loaded
    · -- a torque row of it would be printed
      by_contra hrows
      obtain ⟨row, hrow⟩ := List.exists_mem_of_ne_nil _ hrows
      obtain ⟨i, hi⟩ := List.mem_iff_getElem?.mp hmem
      rw [List.getElem?_take] at hi
      split at hi
      · rename_i hlt
        have hline : ⟨_, row, .pushed loaded⟩ ∈ (main ms).lines :=
          mem_lines_main.mpr ⟨i, List.getElem?_eq_getElem hlt, hi, hrow⟩
        obtain ⟨r, hr⟩ := hsources _ hline
        cases hr
      · cases hi
  · rintro ⟨hskipped, hnoRows⟩
    refine ⟨fun line hline => ?_, fun mt r hr row hrow => ?_⟩
    · obtain ⟨i, hmt, hi, hrow⟩ := mem_lines_main.mp hline
      obtain ⟨mt, row, source⟩ := line
      cases source with
      | pushed loaded =>
        obtain ⟨hlt, -⟩ := List.getElem?_eq_some_iff.mp hmt
        have hmem := List.mem_of_getElem? ((List.getElem?_take_of_lt hlt).trans hi)
        rw [hnoRows loaded hmem] at hrow
        cases hrow
      | reply mt' r =>
        rw [rows_reply] at hrow
        obtain ⟨before, after, rfl, hbefore⟩ :=
          hskipped mt' r (mem_answers (List.mem_of_getElem? hi)).1 (List.ne_nil_of_mem hrow)
        -- it stands at one place only, which is the place of its query
        obtain ⟨j, hmt', hj⟩ := exists_answers_reply h hbefore
        have hij := Interleave.eq_of_tag (by decide) ((answers_repliesTo _).trans h) hi hj rfl rfl
        subst hij
        obtain rfl : mt = mt' := Option.some.inj (hmt.symm.trans hmt')
        exact ⟨r, rfl⟩
    · obtain ⟨before, after, rfl, hbefore⟩ := hskipped mt r hr (List.ne_nil_of_mem hrow)
      obtain ⟨i, hmt, hi⟩ := exists_answers_reply h hbefore
      exact mem_lines_main.mpr ⟨i, hmt, hi, by rwa [rows_reply]⟩

/-- A reply with one torque limit. -/
def torqueReply : Reply where
  fields := [("type", .str "machine_type_constraints_response"),
    ("constraints", .arr [.obj [("paramName", .str "Torque"), ("maxValue", .num 5)]])]
  items := [[("paramName", .str "Torque"), ("maxValue", .num 5)]]
  notEcho := rfl
  constraints := rfl
  named := by
    intro item hitem
    obtain rfl := List.mem_singleton.mp hitem
    exact ⟨"Torque", rfl⟩

/-- A message that the script skips. -/
def echo : Message := .pushed (.ok (.obj [("type", .str "echo")]))

instance : DecidablePred Interleaved := fun _ => inferInstanceAs (Decidable (_ <+: _))

/-- An echo before the reply does no harm. -/
theorem labelled_echo : Labelled [echo, .reply 1 torqueReply] := by
  have hskip : echo.Skipped := rfl
  refine (labelled_iff _ (by decide)).mpr ⟨fun mt r hr _ => ⟨[echo], [], ?_, ?_⟩, ?_⟩
  · rcases List.mem_cons.mp hr with hr | hr
    · cases hr
    · rw [List.mem_singleton.mp hr]
      rfl
  · intro loaded hmem
    rw [List.mem_singleton.mp hmem]
    exact hskip
  · intro loaded hmem
    obtain ⟨hmem, hnot⟩ := mem_answers (List.mem_of_mem_take hmem)
    rcases List.mem_cons.mp hmem with hmem | hmem
    · exact absurd (hmem ▸ hskip) hnot
    · cases List.mem_singleton.mp hmem

/-- A status update without any data. -/
def status : Message := .pushed (.ok (.obj [("type", .str "hardware_status_update")]))

/-- A status that comes before the first reply is taken for it, and the reply to the first query for
that to the second. -/
theorem status_shifts_labels : ¬∀ ms : List Message, Interleaved ms → Labelled ms := by
  intro h
  have hlabelled := h [status, .reply 1 torqueReply] (by decide)
  have hstatus : ¬ status.Skipped ∧ ¬ status.Fatal := by decide
  have hanswers : answers [status, .reply 1 torqueReply] = [status, .reply 1 torqueReply] := by
    rw [answers, if_neg hstatus.1, if_neg hstatus.2, answers,
      if_neg (not_skipped_reply 1 torqueReply), if_neg (not_fatal_reply 1 torqueReply), answers]
  have hrows : (Message.reply 1 torqueReply).rows = [⟨"Torque", .null, .null, .num 5⟩] := by
    rw [rows_reply]
    rfl
  have hline : ⟨2, ⟨"Torque", .null, .null, .num 5⟩, .reply 1 torqueReply⟩ ∈
      (main [status, .reply 1 torqueReply]).lines :=
    mem_lines_main.mpr ⟨1, rfl, by rw [hanswers]; rfl, by simp [hrows]⟩
  obtain ⟨r, hr⟩ := hlabelled.sources _ hline
  cases hr

end SasTests.CheckTorqueConstraints
