import PagedSearch.Filter.Lexeme
import PagedSearch.Sql.Backend

/-!
# What can go wrong

Everything that makes a search fail, as causes.  The wording of a cause is `SearchError.message`,
and whether the client is to blame for it is `SearchError.isClientError`.

## Main definitions

* `SearchError` — a failed search.
* `SearchError.message` — its wording.
* `SearchError.isClientError` — whether what the client wrote caused it, rather than the program
  around the search or the database.
-/

namespace PagedSearch

/-- A side of a comparison. -/
inductive Side where
  /-- The left side. -/
  | left
  /-- The right side. -/
  | right
  deriving DecidableEq

/-- The name of a side. -/
def Side.describe : Side → String
  | left => "left"
  | right => "right"

/-- Why a function cannot be called. -/
inductive CallFault where
  /-- There is no such function. -/
  | unknown
  /-- The function takes a fixed number of arguments, and not as many as given. -/
  | argumentCount (expected given : Nat)
  /-- The function takes at least one argument. -/
  | noArgument
  /-- The first argument is not a text. -/
  | firstNotText
  /-- The argument with this number, counted from zero, is neither an identifier nor a number. -/
  | notIdentifierOrNumber (index : Nat)
  /-- The argument with this number, counted from zero, is itself a call. -/
  | nestedCall (index : Nat)
  /-- A reason of the function's own. -/
  | other (message : String)
  deriving DecidableEq

/-- The wording of a failed call. -/
def CallFault.message : CallFault → String
  | unknown => "unknown function"
  | argumentCount expected given =>
    "expected " ++ toString expected ++ " arguments, got " ++ toString given
  | noArgument => "expected at least 1 argument"
  | firstNotText => "the first argument must be a text literal"
  | notIdentifierOrNumber index =>
    "argument " ++ toString index ++ " must be an identifier or number"
  | nestedCall index => "argument " ++ toString index ++ " must be an identifier, number or text"
  | other message => message

/-- The parameters of a search that a client can set. -/
inductive QueryParam where
  /-- The number of the page. -/
  | page
  /-- The size of a page. -/
  | perPage
  /-- The fields to sort by. -/
  | sort
  /-- The filter. -/
  | filter
  /-- Whether to leave out the count. -/
  | skipTotal
  deriving DecidableEq

/-- The key of a parameter in a query string. -/
def QueryParam.key : QueryParam → String
  | page => "page"
  | perPage => "perPage"
  | sort => "sort"
  | filter => "filter"
  | skipTotal => "skipTotal"

/-- All parameters, in the order in which they are read. -/
def QueryParam.all : List QueryParam := [page, perPage, sort, filter, skipTotal]

/-- What a search is allowed only so much of. -/
inductive Limited where
  /-- The bytes of a filter. -/
  | filterLength
  /-- The fields to sort by. -/
  | sortFieldCount
  /-- The bytes of the name of such a field. -/
  | sortFieldLength
  deriving DecidableEq

/-- The name of what is limited. -/
def Limited.describe : Limited → String
  | filterLength => "filter expression length"
  | sortFieldCount => "number of sort fields"
  | sortFieldLength => "sort field length"

/-- Why a search fails. -/
inductive SearchError where
  /-- The filter cannot be read. -/
  | parse (error : ParseError)
  /-- The filter holds nothing. -/
  | emptyExpression
  /-- A side of a comparison means nothing; `literal` is that side as the client wrote it. -/
  | invalidOperand (side : Side) (literal : String) (cause : SearchError)
  /-- A text is no comparison operator. -/
  | unknownComparator (symbol : String)
  /-- A name to sort by does not stand for a column. -/
  | invalidSortField (name : String)
  /-- There is no query to search in. -/
  | missingQuery
  /-- A field is not one of those that may be searched. -/
  | unknownField (name : String)
  /-- A function cannot be called. -/
  | function (name : String) (fault : CallFault)
  /-- An entry of an allow-list is no pattern. -/
  | invalidPattern (pattern : String)
  /-- A parameter of the query string has a value of the wrong kind. -/
  | invalidQueryParam (param : QueryParam) (value : String)
  /-- The client asks for too much. -/
  | limitExceeded (limited : Limited) (limit : Nat)
  /-- A statement names a value that it does not bind. -/
  | missingParam (name : String)
  /-- A statement marks more places for arguments than it has arguments. -/
  | missingArgument
  /-- The database is of the wrong kind. -/
  | unsupportedBackend (backend : Backend)
  /-- The database reports an error. -/
  | database (report : String)
  deriving DecidableEq

namespace SearchError

/-- The wording of an error. -/
def message : SearchError → String
  | parse error => error.message
  | emptyExpression => "empty filter expression"
  | invalidOperand side literal cause =>
    "invalid " ++ side.describe ++ " operand " ++ Text.quoted literal ++ " - " ++ cause.message
  | unknownComparator symbol => unknownComparatorMessage symbol
  | invalidSortField name => "invalid sort field " ++ Text.quoted name
  | missingQuery => "search query is not set"
  | unknownField name => "failed to resolve field " ++ Text.quoted name
  | function name fault => "[" ++ name ++ "] " ++ fault.message
  | invalidPattern pattern => "invalid field pattern: " ++ pattern
  | invalidQueryParam param value =>
    "invalid " ++ param.key ++ " query parameter value " ++ Text.quoted value
  | limitExceeded limited limit =>
    limited.describe ++ " exceeds the limit of " ++ toString limit
  | missingParam name => "named parameter " ++ Text.quoted name ++ " is not bound"
  | missingArgument => "a marked place has no argument"
  | unsupportedBackend backend =>
    "unsupported database backend " ++ backend.describe ++ ", searches run on SQLite only"
  | database report => report

/-- Whether what the client wrote caused the error. -/
def isClientError : SearchError → Bool
  | missingQuery => false
  | invalidPattern _ => false
  | missingParam _ => false
  | missingArgument => false
  | unsupportedBackend _ => false
  | database _ => false
  | _ => true

end SearchError

end PagedSearch
