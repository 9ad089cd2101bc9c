import PagedSearch.Field.AllowList
import PagedSearch.Filter.Binding
import PagedSearch.Json.Record
import PagedSearch.Search.Names
import PagedSearch.Search.Run
import PagedSearch.Proofs.Grammar
import PagedSearch.Proofs.Language
import PagedSearch.Proofs.Assembly
import PagedSearch.Proofs.Literals
import PagedSearch.Proofs.Conditions
import PagedSearch.Proofs.Reading
import PagedSearch.Proofs.Closed
import PagedSearch.Proofs.Emitted
import PagedSearch.Proofs.Meaning
import PagedSearch.Proofs.Statements
import PagedSearch.Proofs.Narrowing
import PagedSearch.Proofs.Parameters
import PagedSearch.Proofs.Rendering
import PagedSearch.Proofs.Templates
import PagedSearch.Proofs.Substitution
import PagedSearch.Proofs.Interference
import PagedSearch.Proofs.Sharing
import PagedSearch.Proofs.Composition
import PagedSearch.Proofs.Counting
import PagedSearch.Proofs.Paging
import PagedSearch.Proofs.Neighbours
import PagedSearch.Proofs.Wildcards
import PagedSearch.Proofs.Arguments
import PagedSearch.Proofs.Phases
import PagedSearch.Proofs.Protocol
import PagedSearch.Proofs.Fitting
import PagedSearch.Proofs.Unmarked
import PagedSearch.Proofs.Conjuncts
import PagedSearch.Proofs.Blame
import PagedSearch.Proofs.Predicates
import PagedSearch.Proofs.Related
import PagedSearch.Proofs.Equality
import PagedSearch.Proofs.Containment
import PagedSearch.Proofs.PageSizes
import PagedSearch.Proofs.Occurrences
import PagedSearch.Proofs.Calls
import PagedSearch.Proofs.Asking
import PagedSearch.Proofs.EmptyAnswers
import PagedSearch.Proofs.Rounding
import PagedSearch.Proofs.Decimals
import PagedSearch.Proofs.NumberLiterals
import PagedSearch.Proofs.Scanning
import PagedSearch.Proofs.Viable
import PagedSearch.Proofs.FieldNames
import PagedSearch.Proofs.Orders
import PagedSearch.Proofs.Matching
import PagedSearch.Proofs.Prolonged
import PagedSearch.Proofs.Anchored
import PagedSearch.Proofs.AllowLists
import PagedSearch.Proofs.Periods
import PagedSearch.Proofs.QueryStrings
import PagedSearch.Proofs.OpaqueLiterals
import PagedSearch.Proofs.RelatedSources
import PagedSearch.Proofs.Connectives
