import SasTests.CheckTorqueConstraints
import SasTests.Lib.Table

/-!
# The constraints of a machine type by name

`_get_all_constraints_map` collects the rows of a constraints reply in a dictionary by `paramName`.
A parameter may have a row for each unit; the row in the preferred unit is kept if there is one, and
otherwise the first row. `getAllConstraintsMap_eq` says so for all replies, and
`first_preferred` that the order in which rows of different names come does not matter.
-/

namespace SasTests.ConstraintsMap

open Python
open CheckTorqueConstraints (iterate)

/-! ## The code -/

/-- The dictionary `result`. -/
abbrev Rows := Json.Key → Option Json

/-- One pass of the loop. -/
def pass (preferredTorqueUnit : String) (result : Rows) (c : Json) : Except PyError Rows := do
  let name ← c.get "paramName"
  if name.truthy then
    let key ← name.key
    match result key with
    | some row =>
      let existingUnit ← row.get "torqueUnit"
      let newUnit ← c.get "torqueUnit"
      if existingUnit.eqStr preferredTorqueUnit then return result
      else if newUnit.eqStr preferredTorqueUnit then
        return Function.update result key (some c)
      else return result
    | none => return Function.update result key (some c)
  else return result

/-- `_get_all_constraints_map` for the reply `resp`. -/
def getAllConstraintsMap (preferredTorqueUnit : String) (resp : Json) : Except PyError Rows := do
  let success ← resp.get "success"
  if success.truthy then
    let constraints ← resp.get "constraints" (.arr [])
    let rows ← iterate constraints
    rows.foldlM (pass preferredTorqueUnit) fun _ => none
  else return fun _ => none

/-! ## Replies -/

/-- A row: a dictionary. Its name, if it has one, can be a key. -/
structure Row where
  fields : List (String × Json)
  named : (Json.field fields "paramName").hashable = true

namespace Row

/-- The row as a value. -/
def toJson (c : Row) : Json := .obj c.fields

/-- The key under which the row is kept, unless its name is missing or empty. -/
def name (c : Row) : Option Json.Key :=
  let paramName := Json.field c.fields "paramName"
  if paramName.truthy then paramName.key.toOption else none

/-- Is the row in that unit? -/
def hasUnit (unit : String) (c : Row) : Bool := (Json.field c.fields "torqueUnit").eqStr unit

end Row

/-- A successful reply: the rows in it are dictionaries. -/
structure Reply where
  fields : List (String × Json)
  rows : List Row
  success : (Json.field fields "success").truthy = true
  constraints : Json.field fields "constraints" (.arr []) = .arr (rows.map Row.toJson)

/-- The reply as a value. -/
def Reply.toJson (r : Reply) : Json := .obj r.fields

/-! ## What the map holds -/

/-- The table of the rows with a name, of which those in the preferred unit are better. -/
def table (preferred : String) (rows : List Row) : Option Json.Key → Option Row :=
  Table.fill Row.name (Table.prefer (Row.hasUnit preferred)) rows

/-- `result` holds what the table `t` holds. -/
def Holds (t : Option Json.Key → Option Row) (result : Rows) : Prop :=
  ∀ k, result k = (t (some k)).map Row.toJson

theorem Row.name_of_truthy {c : Row} (h : (Json.field c.fields "paramName").truthy = true)
    {key : Json.Key} (hkey : (Json.field c.fields "paramName").key = .ok key) :
    c.name = some key := by
  rw [Row.name, if_pos h, hkey]
  rfl

theorem Row.name_of_falsy {c : Row} (h : ¬(Json.field c.fields "paramName").truthy = true) :
    c.name = none := if_neg h

/-- A table that holds something else for one key. -/
theorem Holds.update {t : Option Json.Key → Option Row} {result : Rows} (h : Holds t result)
    (key : Json.Key) (c : Row) :
    Holds (Function.update t (some key) (some c)) (Function.update result key (some c.toJson)) := by
  intro k
  by_cases hk : k = key
  · subst hk
    rw [Function.update_self, Function.update_self, Option.map_some]
  · rw [Function.update_of_ne hk, Function.update_of_ne (by simpa using hk), h]

/-- One pass puts the row into the table. -/
theorem pass_holds (preferred : String) {t : Option Json.Key → Option Row} {result : Rows}
    (h : Holds t result) (c : Row) : ∃ result', pass preferred result c.toJson = .ok result' ∧
      Holds (Table.put Row.name (Table.prefer (Row.hasUnit preferred)) t c) result' := by
  obtain ⟨key, hkey⟩ := Json.exists_key c.named
  by_cases hname : (Json.field c.fields "paramName").truthy = true
  · rw [Table.put, Row.name_of_truthy hname hkey]
    have hresult := h key
    cases hrow : t (some key) with
    | none =>
      rw [hrow, Option.map_none] at hresult
      refine ⟨Function.update result key (some c.toJson), ?_, h.update key c⟩
      simp [pass, Row.toJson, hname, hkey, hresult, bind, Except.bind, pure, Except.pure]
    | some row =>
      rw [hrow, Option.map_some] at hresult
      have hrun : pass preferred result c.toJson =
          .ok (if !row.hasUnit preferred && c.hasUnit preferred then
            Function.update result key (some c.toJson) else result) := by
        cases hexisting : (Json.field row.fields "torqueUnit").eqStr preferred <;>
          cases hnew : (Json.field c.fields "torqueUnit").eqStr preferred <;>
            simp [pass, Row.toJson, Row.hasUnit, hname, hkey, hresult, hexisting, hnew, bind,
              Except.bind, pure, Except.pure]
      refine ⟨_, hrun, ?_⟩
      rw [Table.prefer]
      split
      · exact h.update key c
      · rwa [← hrow, Function.update_eq_self]
  · rw [Table.put, Row.name_of_falsy hname]
    refine ⟨result, ?_, fun k => ?_⟩
    · simp [pass, Row.toJson, hname, bind, Except.bind, pure, Except.pure]
    · rw [Function.update_of_ne (by simp), h]

/-- The loop fills the table. -/
theorem foldlM_pass (preferred : String) (rows : List Row) {t : Option Json.Key → Option Row}
    {result : Rows} (h : Holds t result) : ∃ result',
      (rows.map Row.toJson).foldlM (pass preferred) result = .ok result' ∧
        Holds (rows.foldl (Table.put Row.name (Table.prefer (Row.hasUnit preferred))) t)
          result' := by
  induction rows generalizing t result with
  | nil => exact ⟨result, rfl, h⟩
  | cons c rows ih =>
    obtain ⟨result₁, hpass, h₁⟩ := pass_holds preferred h c
    obtain ⟨result₂, hloop, h₂⟩ := ih h₁
    refine ⟨result₂, ?_, h₂⟩
    rw [List.map_cons, List.foldlM_cons, hpass]
    exact hloop

/-- The function returns the table. -/
theorem getAllConstraintsMap_eq (preferred : String) (r : Reply) :
    getAllConstraintsMap preferred r.toJson =
      .ok fun k => (table preferred r.rows (some k)).map Row.toJson := by
  have hempty : Holds (fun _ => none) fun _ => none := fun _ => rfl
  obtain ⟨result, hloop, hresult⟩ := foldlM_pass preferred r.rows hempty
  have hfun : result = fun k => (table preferred r.rows (some k)).map Row.toJson := funext hresult
  rw [← hfun, ← hloop]
  simp [getAllConstraintsMap, Reply.toJson, r.success, r.constraints, iterate, bind, Except.bind]

/-- The row has that name. -/
def Row.isNamed (k : Json.Key) (c : Row) : Bool := c.name = some k

/-- **The map has the names that occur for its keys. It holds the first row in the preferred unit,
and without one the first row; how rows of different names are mixed does not matter.**

The dictionary is filled in one pass, in which a row in the preferred unit takes the place of one in
another unit, and of no other. The preferred unit may be any text. -/
theorem first_preferred (r : Reply) (u : String) :
    ∃ result, getAllConstraintsMap u r.toJson = .ok result ∧
      (∀ k, (result k).isSome ↔ ∃ c ∈ r.rows, c.isNamed k) ∧
      (∀ k, result k = ((r.rows.find? fun c => c.isNamed k && c.hasUnit u).or
        (r.rows.find? fun c => c.isNamed k)).map Row.toJson) ∧
      ∀ r' : Reply, (∀ k, r'.rows.filter (Row.isNamed k) = r.rows.filter (Row.isNamed k)) →
        getAllConstraintsMap u r'.toJson = .ok result := by
  have hentry : ∀ k, table u r.rows (some k) = (r.rows.find? fun c => c.isNamed k && c.hasUnit u).or
      (r.rows.find? fun c => c.isNamed k) := fun k => Table.fill_prefer ..
  refine ⟨_, getAllConstraintsMap_eq u r, fun k => ?_, fun k => by rw [hentry], fun r' h => ?_⟩
  · rw [hentry, Option.isSome_map, Option.isSome_or, Bool.or_eq_true, List.find?_isSome,
      List.find?_isSome, or_iff_right_of_imp]
    rintro ⟨c, hc, h⟩
    exact ⟨c, hc, (Bool.and_eq_true_iff.mp h).1⟩
  · have htable : ∀ k, table u r'.rows (some k) = table u r.rows (some k) :=
      fun k => Table.fill_congr (h k)
    rw [getAllConstraintsMap_eq]
    simp only [htable]

end SasTests.ConstraintsMap
