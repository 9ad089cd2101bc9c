import PagedSearch.Field.Resolver
import PagedSearch.Filter.Cache
import PagedSearch.Search.Config
import PagedSearch.Time.Calendar

/-!
# Searches as actions

A search asks resolvers and databases, which remember what they were asked, and it invents names.
So it is an action: it reads a context that stays the same, changes a session, and may fail.  What
it has changed before it fails stays changed.

## Main definitions

* `Session` — what an action changes: the parsed filters, the count of names drawn, and the world
  of resolvers and databases.
* `Search` — the actions.
* `CallArgument`, `SearchFunction`, `Functions` — functions that filters can call.
* `Context` — what an action reads.
-/

namespace PagedSearch

/-- What a search changes; `ω` is the world of resolvers and databases. -/
structure Session (ω : Type) where
  /-- The parsed filters. -/
  cache : Cache
  /-- How many names have been drawn. -/
  drawn : Nat
  /-- The world. -/
  world : ω

/-- The actions of a search. -/
abbrev Search (ω : Type) : Type → Type := ExceptT SearchError (StateM (Session ω))

namespace Search

variable {ω : Type}

/-- What happens in the world, as an action. -/
def inWorld {α : Type} (action : ExceptT SearchError (StateM ω) α) : Search ω α :=
  ExceptT.mk fun session =>
    let (result, world) := action.run.run session.world
    (result, { session with world })

/-- The tree of a filter, through the store of parsed filters. -/
def parsed (filter : String) : Search ω (List Group) :=
  ExceptT.mk fun session =>
    let (result, cache) := session.cache.getOrParse parse filter
    (result.mapError .parse, { session with cache })

/-- The first `length` characters of the next name, behind `stem`. -/
def draw (names : Nat → String) (stem : String) (length : Nat) : Search ω String :=
  ExceptT.mk fun session =>
    (.ok (stem ++ String.ofList ((names session.drawn).toList.take length)),
      { session with drawn := session.drawn + 1 })

/-- An action whose errors are explained by another error. -/
def explain {α : Type} (f : SearchError → SearchError) (action : Search ω α) : Search ω α :=
  tryCatch action fun error => throw (f error)

end Search

/-- An argument of a function: what the client wrote, and the action that resolves it. -/
structure CallArgument (ω : Type) where
  /-- The argument. -/
  operand : Operand
  /-- What it stands for. -/
  resolve : Search ω Resolved

/-- A function that filters can call. -/
abbrev SearchFunction (ω : Type) : Type := List (CallArgument ω) → Search ω Resolved

/-- Functions by name. -/
structure Functions (ω : Type) where
  /-- The names with their functions; of two with the same name the first one counts. -/
  entries : List (String × SearchFunction ω)

namespace Functions

variable {ω : Type}

/-- No functions. -/
def empty : Functions ω := ⟨[]⟩

/-- The function with the given name. -/
def get? (functions : Functions ω) (name : String) : Option (SearchFunction ω) :=
  functions.entries.lookup name

/-- Whether there is a function with the given name. -/
def contains (functions : Functions ω) (name : String) : Bool := (functions.get? name).isSome

/-- One more function, in the place of one with the same name. -/
def register (functions : Functions ω) (name : String) (function : SearchFunction ω) : Functions ω :=
  ⟨(name, function) :: functions.entries⟩

/-- The names of the functions, sorted. -/
def names (functions : Functions ω) : List String :=
  (functions.entries.map Prod.fst).eraseDups.mergeSort fun a b => decide (a ≤ b)

/-- A function applied to arguments, if there is one with the given name. -/
def call (functions : Functions ω) (name : String) (arguments : List (CallArgument ω)) :
    Search ω Resolved :=
  match functions.get? name with
  | some function => function arguments
  | none => throw (.function name .unknown)

end Functions

/-- What a search reads. -/
structure Context (ω : Type) where
  /-- The limits. -/
  config : Config
  /-- The functions that filters can call. -/
  functions : Functions ω
  /-- The names that can be drawn: ten or more characters each, which no one can foresee. -/
  names : Nat → String
  /-- The current time. -/
  now : Instant

end PagedSearch
