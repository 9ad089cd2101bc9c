import PagedSearch.Compile.Filter
import PagedSearch.Request.Request
import PagedSearch.Search.Paging

/-!
# Running a search

A search first becomes a query: filters and fields to sort by are compiled in turn, and then the
resolver may add to the query.  Nothing is asked of the database before that has succeeded.  Then the
rows are counted, unless that is to be left out, and one page of them is fetched.

## Main definitions

* `Connection` — a database.
* `SearchPage` — what a search returns.
* `checkLimits`, `compileQuery` — the query of a search.
* `runSearch` — the search.
-/

namespace PagedSearch

variable {ω ρ : Type}

/-- A database in the world `ω` that returns rows of type `ρ`. -/
structure Connection (ω ρ : Type) where
  /-- The kind of database. -/
  backend : Backend
  /-- The number in the first row that a statement returns, if there is one. -/
  fetchTotal : Statement → ExceptT SearchError (StateM ω) (Option Int)
  /-- The rows that a statement returns. -/
  fetchRows : Statement → ExceptT SearchError (StateM ω) (List ρ)

/-- One page of the rows that a search finds. -/
structure SearchPage (ρ : Type) where
  /-- The number of the page. -/
  page : Nat
  /-- The size of pages. -/
  perPage : Nat
  /-- How many rows there are, or -1 if they are not counted. -/
  totalItems : Int
  /-- How many pages there are, or -1 if the rows are not counted. -/
  totalPages : Int
  /-- The rows of the page. -/
  items : List ρ

/-- Whether a request stays within the limits. -/
def checkLimits (config : Config) (request : SearchRequest) : Except SearchError Unit :=
  if request.filters.any fun filter => config.maxFilterLength < filter.utf8ByteSize then
    .error (.limitExceeded .filterLength config.maxFilterLength)
  else if config.maxSortFields < request.sort.length then
    .error (.limitExceeded .sortFieldCount config.maxSortFields)
  else if request.sort.any fun field => config.maxSortFieldLength < field.name.utf8ByteSize then
    .error (.limitExceeded .sortFieldLength config.maxSortFieldLength)
  else .ok ()

/-- A result as an action. -/
def Search.ofExcept {α : Type} (result : Except SearchError α) : Search ω α :=
  ExceptT.mk (pure result)

/-- The query of a search, without its window: the given query with the filters as conditions and
the fields as terms of the order, and with what the resolver adds to it. -/
def compileQuery (context : Context ω) (resolver : Resolver ω) (base : SelectQuery)
    (filters : List String) (sort : List SortField) : Search ω SelectQuery := do
  let conditions ← filters.mapM (compileFilter context resolver)
  let terms ← sort.mapM (SortField.term resolver)
  Search.inWorld <| resolver.updateQuery
    { base with
      conditions := base.conditions ++ conditions
      orderTerms := base.orderTerms ++ terms }

/-- How many rows a query finds. -/
def fetchTotal (connection : Connection ω ρ) (query : SelectQuery) (column : Option String) :
    Search ω Int := do
  let statement ← Search.ofExcept (query.countStatement column connection.backend)
  return (← Search.inWorld (connection.fetchTotal statement)).getD 0

/-- The rows of a query. -/
def fetchRows (connection : Connection ω ρ) (query : SelectQuery) : Search ω (List ρ) := do
  let statement ← Search.ofExcept (query.dataStatement connection.backend)
  Search.inWorld (connection.fetchRows statement)

/-- The search that is asked for. -/
def runSearch (context : Context ω) (resolver : Resolver ω) (connection : Connection ω ρ)
    (request : SearchRequest) : Search ω (SearchPage ρ) := do
  let some base := request.query | throw .missingQuery
  if connection.backend ≠ .sqlite then throw (.unsupportedBackend connection.backend)
  Search.ofExcept (checkLimits context.config request)
  let query ← compileQuery context resolver base request.filters request.sort
  let perPage := pageSize context.config request.perPage
  let counted ←
    if request.skipTotal then pure none
    else do
      let total ← fetchTotal connection query request.countColumn
      pure (some (total, pageCount total perPage))
  let page := pageNumber request.page counted
  let items ← fetchRows connection
    { query with limit := some perPage, offset := some (pageOffset perPage page) }
  return {
    page
    perPage
    totalItems := (counted.map Prod.fst).getD (-1)
    totalPages := (counted.map fun (_, count) => (count : Int)).getD (-1)
    items }

end PagedSearch
