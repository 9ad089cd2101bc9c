import PagedSearch.Search.Session

/-!
# Functions of filters

The two functions that every filter can call unless told otherwise: the distance of two points on
the Earth, and a time in a format.

## Main definitions

* `geoDistance`, `strftime` — the functions.
* `Functions.standard` — both under their names.
-/

namespace PagedSearch

variable {ω : Type}

/-- The arguments resolved in order, each after a check that may refuse it. -/
def resolveChecked (check : Nat → Operand → Option SearchError) :
    Nat → List (CallArgument ω) → Search ω (List Resolved)
  | _, [] => pure []
  | index, argument :: rest => do
    if let some error := check index argument.operand then throw error
    let first ← argument.resolve
    return first :: (← resolveChecked check (index + 1) rest)

/-- The values of several operands, those of later ones winning. -/
def paramsOf (operands : List Resolved) : Params := .mergeAll (operands.map (·.params))

/-- The great-circle distance in kilometres between the points `(lonA, latA)` and `(lonB, latB)`,
by the haversine formula with a radius of 6371. -/
def haversine (lonA latA lonB latB : String) : String :=
  "(12742 * ASIN(SQRT(POWER(SIN((RADIANS(" ++ latB ++ ") - RADIANS(" ++ latA ++
    ")) / 2), 2) + COS(RADIANS(" ++ latA ++ ")) * COS(RADIANS(" ++ latB ++
    ")) * POWER(SIN((RADIANS(" ++ lonB ++ ") - RADIANS(" ++ lonA ++ ")) / 2), 2))))"

/-- The name of the distance. -/
def geoDistanceName : String := "geoDistance"

/-- The distance of two points, each given by its longitude and its latitude. -/
def geoDistance : SearchFunction ω := fun arguments => do
  if arguments.length ≠ 4 then
    throw (.function geoDistanceName (.argumentCount 4 arguments.length))
  let check (index : Nat) : Operand → Option SearchError
    | .identifier _ => none
    | .number _ => none
    | _ => some (.function geoDistanceName (.notIdentifierOrNumber index))
  match ← resolveChecked check 0 arguments with
  | [lonA, latA, lonB, latB] =>
    return {
      identifier :=
        haversine lonA.identifier latA.identifier lonB.identifier latB.identifier
      params := paramsOf [lonA, latA, lonB, latB]
      nullPolicy := .disabled }
  | _ => throw (.function geoDistanceName (.argumentCount 4 arguments.length))

/-- The name of the formatted time. -/
def strftimeName : String := "strftime"

/-- A time in a format: the format, then the time and its modifiers. -/
def strftime : SearchFunction ω := fun arguments => do
  match (arguments.map CallArgument.operand : List Operand) with
  | [] => throw (.function strftimeName .noArgument)
  | .text _ :: _ =>
    let check (index : Nat) : Operand → Option SearchError
      | .call _ _ => some (.function strftimeName (.nestedCall index))
      | _ => none
    let resolved ← resolveChecked check 0 arguments
    return {
      identifier := "strftime(" ++ ", ".intercalate (resolved.map (·.identifier)) ++ ")"
      params := paramsOf resolved }
  | _ => throw (.function strftimeName .firstNotText)

/-- The functions that filters can call unless told otherwise. -/
def Functions.standard : Functions ω :=
  (Functions.empty.register geoDistanceName geoDistance).register strftimeName strftime

theorem Functions.eq_of_get?_standard {name : String} {function : SearchFunction ω}
    (h : (Functions.standard : Functions ω).get? name = some function) :
    function = strftime ∨ function = geoDistance := by
  have hentries : (Functions.standard : Functions ω).get? name =
      [(strftimeName, strftime), (geoDistanceName, geoDistance)].lookup name := rfl
  rw [hentries] at h
  simp only [List.lookup_cons, List.lookup_nil] at h
  split at h
  · exact .inl (Option.some.inj h).symm
  · split at h
    · exact .inr (Option.some.inj h).symm
    · simp at h

end PagedSearch
