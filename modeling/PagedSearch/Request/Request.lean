import PagedSearch.Compile.Sort
import PagedSearch.Request.Values

/-!
# Search requests

What a single search is asked to do.  The program sets what it wants, and then reads what the client
wants: a page and its size take the place of those set before, and fields to sort by and a filter
come behind those set before.

## Main definitions

* `SearchRequest` — what a search is asked to do.
* `SearchRequest.read` — the request with what a client wants.
-/

namespace PagedSearch

/-- What a search is asked to do. -/
structure SearchRequest where
  /-- The query to search in. -/
  query : Option SelectQuery := none
  /-- The number of the wanted page, from 1 on. -/
  page : Int := 1
  /-- The wanted size of a page; none if it is not positive. -/
  perPage : Int := 0
  /-- The fields to sort by. -/
  sort : List SortField := []
  /-- The filters, all of which must hold. -/
  filters : List String := []
  /-- The column whose different values are counted, if not the rows. -/
  countColumn : Option String := none
  /-- Whether to leave out the count. -/
  skipTotal : Bool := false

namespace SearchRequest

/-- The request with the value of one parameter. -/
def set (request : SearchRequest) (param : QueryParam) (value : String) :
    Except SearchError SearchRequest :=
  match param with
  | .page => return { request with page := ← readInt .page value }
  | .perPage => return { request with perPage := ← readInt .perPage value }
  | .sort => return { request with sort := request.sort ++ SortField.parseList value }
  | .filter => return { request with filters := request.filters ++ [value] }
  | .skipTotal => return { request with skipTotal := ← readBool .skipTotal value }

/-- The request with the given parameters as far as they can be read, and the error at the first one
that cannot. -/
def readParams (values : QueryValues) :
    SearchRequest → List QueryParam → SearchRequest × Except SearchError Unit
  | request, [] => (request, .ok ())
  | request, param :: params =>
    match values.present? param with
    | none => readParams values request params
    | some value =>
      match request.set param value with
      | .ok request => readParams values request params
      | .error error => (request, .error error)

/-- The request with what a client has set, as far as it can be read, and the error if not all of it
can.  Empty values are not set. -/
def read (request : SearchRequest) (values : QueryValues) :
    SearchRequest × Except SearchError Unit :=
  readParams values request QueryParam.all

end SearchRequest

end PagedSearch
