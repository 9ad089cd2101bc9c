import PagedSearch.Compile.Condition
import PagedSearch.Compile.Functions
import PagedSearch.Time.Name

/-!
# Filters in SQL

A filter becomes a fragment of SQL.  Texts and numbers never become a part of its text: each is
bound under a name of its own.  Groups are joined from left to right, as filters are read, each join
in parentheses of its own, so that the precedence of SQL has nothing to decide.

## Main definitions

* `resolveOperand` — what an operand stands for.
* `compare` — the fragment of a comparison.
* `joinGroups` — the fragment of several groups, given their fragments.
* `compileGroups`, `compileFilter` — the fragment of a filter.
-/

namespace PagedSearch

variable {ω : Type} (context : Context ω) (resolver : Resolver ω)

/-- The stem of the names of bound values. -/
def paramStem : String := "p"

/-- A value bound under a new name. -/
def bindValue (value : Value) : Search ω Resolved := do
  let name ← Search.draw context.names paramStem 10
  return { identifier := Fragment.paramMarker name, params := .single name value }

/-- The SQL of a constant, whose name can be written in capital letters too. -/
def constant? (name : String) : Option String :=
  match String.ofList (name.toList.map Char.toLower) with
  | "null" => some "NULL"
  | "true" => some "1"
  | "false" => some "0"
  | _ => none

/-- What an identifier stands for: a time, or else a field, or else a constant. -/
def resolveIdentifier (name : String) : Search ω Resolved :=
  match (TimeName.ofText? name).bind (·.value? context.now) with
  | some value => bindValue context value
  | none =>
    tryCatch (Search.inWorld (resolver.resolve name)) fun error =>
      match constant? name with
      | some sql => pure (.ofIdentifier sql)
      | none => throw error

mutual

/-- What an operand or an argument stands for. -/
def resolveOperand : Operand → Search ω Resolved
  | .identifier name => resolveIdentifier context resolver name
  | .text content => bindValue context (.text content)
  | .number value => bindValue context (.double value)
  | .call name arguments => context.functions.call name (callArguments arguments)

/-- Arguments as functions are given them. -/
def callArguments : List Operand → List (CallArgument ω)
  | [] => []
  | operand :: rest => { operand, resolve := resolveOperand operand } :: callArguments rest

end

/-- What a side of a comparison stands for; an error says which side it is about. -/
def resolveSide (side : Side) (operand : Operand) : Search ω Resolved := do
  let invalid := SearchError.invalidOperand side operand.literal
  let resolved ← Search.explain invalid (resolveOperand context resolver operand)
  if resolved.identifier = "" then throw (invalid (.unknownField operand.literal))
  return resolved

/-- The stem of the name for the related values of a side. -/
def relatedStem : Side → String
  | .left => "__ml"
  | .right => "__mr"

/-- An operand as the condition on related values has it: the selection of its related values under
a new name and a value of that selection, or, if it has none, the operand itself. -/
def relatedSide (side : Side) (operand : Resolved) :
    Search ω (Option (Fragment × String) × Resolved) := do
  match operand.related with
  | some selection =>
    let name ← Search.draw context.names (relatedStem side) 5
    return (some (selection, name),
      { identifier := Fragment.columnMarker (name ++ "." ++ Fragment.relatedValue)
        nullPolicy := operand.nullPolicy })
  | none => return (none, { operand with related := none, wrap := none })

/-- What an operand wants its comparison to be put into. -/
def Resolved.wrapped (operand : Resolved) (fragment : Fragment) : Fragment :=
  match operand.wrap with
  | some wrap => wrap fragment
  | none => fragment

/-- The fragment of a comparison.  If a side has related values, the comparison must hold for the
row and for some choice of them. -/
def compare (left : Resolved) (comparator : Comparator) (right : Resolved) :
    Search ω Fragment := do
  let plain := comparisonFragment left comparator right
  let compared ←
    if left.related.isNone && right.related.isNone then pure plain
    else do
      let (leftSource, leftValue) ← relatedSide context .left left
      let (rightSource, rightValue) ← relatedSide context .right right
      pure (.enclose (.all [plain,
        .someRelated (leftSource.toList ++ rightSource.toList)
          (comparisonFragment leftValue comparator rightValue)]))
  return right.wrapped (left.wrapped compared)

/-- The fragment of a comparison as the client wrote it. -/
def compileComparison (comparison : Comparison) : Search ω Fragment := do
  let left ← resolveSide context resolver .left comparison.left
  let right ← resolveSide context resolver .right comparison.right
  compare context left comparison.comparator right

/-- Two fragments joined. -/
def Join.fragment (join : Join) (a b : Fragment) : Fragment :=
  match join with
  | .and => .all [a, b]
  | .or => .any [a, b]

/-- The fragment of several groups, each with its join to those before it. -/
def joinGroups : List (Join × Fragment) → Option Fragment
  | [] => none
  | (_, first) :: rest =>
    some (rest.foldl (fun before (join, fragment) => join.fragment before fragment) first)

/-- The fragment of several groups, of which there must be one. -/
def joinedGroups (groups : List (Join × Fragment)) : Search ω Fragment :=
  match joinGroups groups with
  | some fragment => pure fragment
  | none => throw .emptyExpression

mutual

/-- The fragment of a group. -/
def compileGroup : Group → Search ω Fragment
  | .comparison _ comparison => compileComparison context resolver comparison
  | .nested _ groups => do
    return .enclose (← joinedGroups (← compileMembers groups))

/-- The fragments of the members of a list of groups, with their joins. -/
def compileMembers : List Group → Search ω (List (Join × Fragment))
  | [] => pure []
  | group :: groups => do
    let first ← compileGroup group
    let rest ← compileMembers groups
    return (group.join, first) :: rest

end

/-- The fragment of a list of groups. -/
def compileGroups (groups : List Group) : Search ω Fragment := do
  joinedGroups (← compileMembers context resolver groups)

/-- The fragment of a filter. -/
def compileFilter (filter : String) : Search ω Fragment := do
  compileGroups context resolver (← Search.parsed filter)

end PagedSearch
