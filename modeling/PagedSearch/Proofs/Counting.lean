import PagedSearch.Proofs.Statements

/-!
# Counts and rows

The statement that counts the rows of a query and the one that returns a page of them are written
apart from each other, and a count has three shapes.  They agree in what lies between ` FROM ` and
the end of the conditions: it is printed by one function, and nothing that precedes it in either of
the statements binds a value, so the places of its values have the same numbers in both.

Columns and terms of an order bind nothing since they are printed without any parameters.

## Main definitions

* `Chunk.printed` — some parts of a statement as a text.
* `SelectQuery.withoutWindow` — all rows of a query, in no order.

## Main results

* `Chunk.printed_append`, `Chunk.values_append` — statements are printed part by part.
* `values_printText_empty` — what is printed without parameters binds nothing.
* `dataStatement_eq_ok`, `countStatement_eq_ok` — the statements of a query, clause by clause.
* `countStatement_counts` — a count is taken of the rows that the pages are cut from.
-/

namespace PagedSearch

open SelectQuery

/-! ### Parts of statements -/

namespace Chunk

variable {backend : Backend} {count : Nat}

/-- Some parts of a statement as a text, behind `count` values. -/
def printed (backend : Backend) (count : Nat) (chunks : List Chunk) : String :=
  String.ofList (textFrom backend count chunks)

theorem values_append (left right : List Chunk) :
    values (left ++ right) = values left ++ values right := by
  induction left with
  | nil => rfl
  | cons chunk rest ih =>
    cases chunk with
    | text chars => exact ih
    | value bound => exact congrArg (bound :: ·) ih

theorem textFrom_append (left right : List Chunk) :
    textFrom backend count (left ++ right) =
      textFrom backend count left ++ textFrom backend (count + (values left).length) right := by
  induction left generalizing count with
  | nil => rfl
  | cons chunk rest ih =>
    cases chunk with
    | text chars => simp only [List.cons_append, textFrom, values, ih, List.append_assoc]
    | value bound =>
      simp only [List.cons_append, textFrom, values, ih, List.append_assoc, List.length_cons,
        Nat.add_assoc, Nat.add_comm 1]

theorem printed_append (left right : List Chunk) :
    printed backend count (left ++ right) =
      printed backend count left ++ printed backend (count + (values left).length) right := by
  rw [printed, textFrom_append, String.ofList_append]
  rfl

/-- What follows a text that binds nothing is printed as if nothing preceded it. -/
theorem printed_append_of_nil {left : List Chunk} (h : values left = []) (right : List Chunk) :
    printed backend 0 (left ++ right) = printed backend 0 left ++ printed backend 0 right := by
  rw [printed_append, h]
  rfl

@[simp] theorem printed_plain_cons (text : String) (rest : List Chunk) :
    printed backend count (plain text :: rest) = text ++ printed backend count rest := by
  rw [printed, plain, textFrom, String.ofList_append, String.ofList_toList]
  rfl

@[simp] theorem values_plain_cons (text : String) (rest : List Chunk) :
    values (plain text :: rest) = values rest := rfl

@[simp] theorem values_identifier_cons (name : String) (rest : List Chunk) :
    values (identifier backend name :: rest) = values rest := rfl

/-- Places are numbered by the values in front of them, and by nothing else. -/
theorem printed_of_values_eq_nil {chunks : List Chunk} (h : values chunks = []) :
    printed backend count chunks = printed backend 0 chunks := by
  induction chunks with
  | nil => rfl
  | cons chunk rest ih =>
    cases chunk with
    | text chars =>
      have hrest : printed backend count rest = printed backend 0 rest := ih h
      rw [printed, printed, textFrom, textFrom, String.ofList_append, String.ofList_append]
      exact congrArg (String.ofList chars ++ ·) hrest
    | value bound => cases h

@[simp] theorem text_ofChunks (chunks : List Chunk) :
    (Statement.ofChunks backend chunks).text = printed backend 0 chunks := rfl

@[simp] theorem values_ofChunks (chunks : List Chunk) :
    (Statement.ofChunks backend chunks).values = values chunks := rfl

theorem values_commaSeparated (expressions : List (List Chunk)) :
    values (commaSeparated expressions) = expressions.flatMap values := by
  induction expressions with
  | nil => rfl
  | cons first rest ih =>
    cases rest with
    | nil => simp [commaSeparated]
    | cons second more =>
      rw [List.flatMap_cons, ← ih, commaSeparated, List.intercalate_cons_cons, values_append,
        values_append]
      exact List.append_nil _ ▸ rfl

theorem values_commaSeparated_eq_nil {expressions : List (List Chunk)}
    (h : ∀ chunks ∈ expressions, values chunks = []) : values (commaSeparated expressions) = [] := by
  rw [values_commaSeparated, List.flatMap_eq_nil_iff]
  exact h

end Chunk

/-! ### Printing without parameters -/

section Arguments

variable {backend : Backend}

/-- What a list is mapped to consists of what its members are mapped to. -/
theorem exists_of_mem_mapM {α β ε : Type} {f : α → Except ε β} {members : List α}
    {results : List β} (h : members.mapM f = .ok results) {b : β} (hb : b ∈ results) :
    ∃ a ∈ members, f a = .ok b := by
  induction members generalizing results with
  | nil =>
    obtain rfl := Except.ok.inj h
    cases hb
  | cons first rest ih =>
    rw [List.mapM_cons] at h
    obtain ⟨head, hhead, h⟩ := bind_eq_ok.mp h
    obtain ⟨tail, htail, h⟩ := bind_eq_ok.mp h
    obtain rfl := Except.ok.inj h
    rcases List.mem_cons.mp hb with rfl | hb
    · exact ⟨first, List.mem_cons_self, hhead⟩
    · obtain ⟨a, ha, hresult⟩ := ih htail hb
      exact ⟨a, List.mem_cons_of_mem _ ha, hresult⟩

theorem bind_empty_ne_value {piece : Marker} {item : Item} (h : piece.bind .empty = .ok item)
    (value : Value) : item ≠ .argument (.value value) := by
  rintro rfl
  cases piece with
  | param name => cases h
  | literal text =>
    rw [Marker.bind] at h
    split at h <;> cases h
  | column name | table name | char c => cases h

theorem argument_mem_of_mem_ofItemsFrom {items : List Item} {last : Option Char} {count : Nat}
    {argument : Argument}
    (h : argument ∈ (Template.ofItemsFrom backend last count items).arguments) :
    .argument argument ∈ items := by
  induction items generalizing last count with
  | nil => cases h
  | cons item rest ih =>
    cases item with
    | literal text => exact List.mem_cons_of_mem _ (ih h)
    | char c => exact List.mem_cons_of_mem _ (ih h)
    | argument first =>
      rcases List.mem_cons.mp h with rfl | h
      · exact List.mem_cons_self
      · exact List.mem_cons_of_mem _ (ih h)

/-- What a template prints has no values but those among its arguments. -/
theorem value_mem_of_mem_follow {arguments : List Argument} {index : Nat}
    {instructions : List Instruction} {chunks : List Chunk} {value : Value}
    (h : Template.follow backend arguments index instructions = .ok chunks)
    (hvalue : value ∈ Chunk.values chunks) : .value value ∈ arguments := by
  -- An argument is printed as a value only if it is one.
  have hchunk {argument : Argument} {rest : List Chunk} (hmem : argument ∈ arguments)
      (hmore : value ∈ Chunk.values rest → .value value ∈ arguments)
      (hvalue : value ∈ Chunk.values (argument.chunk backend :: rest)) :
      .value value ∈ arguments := by
    cases argument with
    | value bound =>
      rcases List.mem_cons.mp hvalue with rfl | hvalue
      · exact hmem
      · exact hmore hvalue
    | column name => exact hmore hvalue
    | verbatim text => exact hmore hvalue
  induction instructions generalizing index chunks with
  | nil =>
    obtain rfl := Except.ok.inj h
    cases hvalue
  | cons instruction instructions ih =>
    cases instruction with
    | copy text =>
      obtain ⟨rest, hrest, h⟩ := bind_eq_ok.mp h
      obtain rfl := Except.ok.inj h
      exact ih hrest hvalue
    | next =>
      rw [Template.follow] at h
      split at h
      · rename_i argument hget
        obtain ⟨rest, hrest, h⟩ := bind_eq_ok.mp h
        obtain rfl := Except.ok.inj h
        exact hchunk (List.mem_of_getElem? hget) (ih hrest) hvalue
      · cases h
    | numbered number =>
      cases number with
      | zero => cases h
      | succ number =>
        cases hget : arguments[number]? with
        | none =>
          simp only [Template.follow, Nat.add_sub_cancel, hget] at h
          cases h
        | some argument =>
          simp only [Template.follow, Nat.add_sub_cancel, hget] at h
          obtain ⟨rest, hrest, h⟩ := bind_eq_ok.mp h
          obtain rfl := Except.ok.inj h
          exact hchunk (List.mem_of_getElem? hget) (ih hrest) hvalue

/-- What is printed without parameters binds nothing. -/
theorem values_printText_empty {text : String} {chunks : List Chunk}
    (h : printText backend text .empty = .ok chunks) : Chunk.values chunks = [] := by
  obtain ⟨template, htemplate, h⟩ := bind_eq_ok.mp h
  obtain ⟨items, hitems, htemplate⟩ := bind_eq_ok.mp htemplate
  obtain rfl := Except.ok.inj htemplate
  rw [List.eq_nil_iff_forall_not_mem]
  intro value hvalue
  have hitem := argument_mem_of_mem_ofItemsFrom (value_mem_of_mem_follow h hvalue)
  obtain ⟨piece, -, hpiece⟩ := exists_of_mem_mapM hitems hitem
  exact bind_empty_ne_value hpiece value rfl

end Arguments

/-! ### Clauses -/

namespace SelectQuery

variable {query : SelectQuery} {backend : Backend}

/-- The selected expressions bind nothing. -/
theorem values_columnChunks {columns : List Chunk} (h : query.columnChunks backend = .ok columns) :
    Chunk.values columns = [] := by
  unfold columnChunks at h
  obtain ⟨printed, hprinted, h⟩ := bind_eq_ok.mp h
  obtain rfl := Except.ok.inj h
  have hcolumns : ∀ chunks ∈ (if printed.isEmpty then
      [[identifier backend query.tableName, plain ".*"]] else printed),
      Chunk.values chunks = [] := by
    intro chunks hchunks
    split at hchunks
    · rw [List.mem_singleton.mp hchunks]
      rfl
    · obtain ⟨column, -, hcolumn⟩ := exists_of_mem_mapM hprinted hchunks
      exact values_printText_empty hcolumn
  rw [Chunk.values_append, Chunk.values_commaSeparated_eq_nil hcolumns]
  split <;> rfl

/-- A term of an order binds nothing. -/
theorem values_orderChunks {term : String} {chunks : List Chunk}
    (h : orderChunks backend term = .ok chunks) : Chunk.values chunks = [] := by
  unfold orderChunks at h
  obtain ⟨printed, hprinted, h⟩ := bind_eq_ok.mp h
  obtain rfl := Except.ok.inj h
  rw [Chunk.values_append, values_printText_empty hprinted]
  rfl

/-- The order of the rows, given its terms. -/
def orderClause (terms : List (List Chunk)) : List Chunk :=
  if terms.isEmpty then [] else plain " ORDER BY " :: commaSeparated terms

theorem values_orderClause {terms : List (List Chunk)}
    (h : query.orderTerms.mapM (orderChunks backend) = .ok terms) :
    Chunk.values (orderClause terms) = [] := by
  unfold orderClause
  split
  · rfl
  · refine Chunk.values_commaSeparated_eq_nil fun chunks hchunks => ?_
    obtain ⟨term, -, hterm⟩ := exists_of_mem_mapM h hchunks
    exact values_orderChunks hterm

/-- The numbers of a window: the limit if there is one, and then the offset if there is one. -/
theorem values_windowChunks :
    Chunk.values query.windowChunks =
      query.limit.toList.map .unsigned ++ query.offset.toList.map .unsigned := by
  rw [windowChunks, Chunk.values_append]
  cases query.limit <;> cases query.offset <;> rfl

/-- All rows of a query, in no order. -/
def withoutWindow (query : SelectQuery) : SelectQuery :=
  { query with orderTerms := [], limit := none, offset := none }

/-! ### Statements clause by clause -/

theorem rowChunks_of_parts {columns source : List Chunk}
    (hcolumns : query.columnChunks backend = .ok columns)
    (hsource : query.sourceChunks backend = .ok source) :
    query.rowChunks backend = .ok (plain "SELECT " :: columns ++ source) := by
  rw [rowChunks, hcolumns, hsource]
  rfl

/-- A statement is made of the rows, their order and the window. -/
theorem dataStatement_eq_ok_iff {data : Statement} :
    query.dataStatement backend = .ok data ↔ ∃ rows terms,
      query.rowChunks backend = .ok rows ∧
      query.orderTerms.mapM (orderChunks backend) = .ok terms ∧
      data = .ofChunks backend (rows ++ orderClause terms ++ query.windowChunks) := by
  constructor
  · intro h
    obtain ⟨chunks, hchunks, h⟩ := bind_eq_ok.mp h
    obtain ⟨rows, hrows, hchunks⟩ := bind_eq_ok.mp hchunks
    obtain ⟨terms, hterms, hchunks⟩ := bind_eq_ok.mp hchunks
    obtain rfl := Except.ok.inj hchunks
    exact ⟨rows, terms, hrows, hterms, (Except.ok.inj h).symm⟩
  · rintro ⟨rows, terms, hrows, hterms, rfl⟩
    rw [dataStatement, dataChunks, hrows, hterms]
    rfl

theorem dataStatement_eq_ok {data : Statement} (h : query.dataStatement backend = .ok data) :
    ∃ columns source terms, query.columnChunks backend = .ok columns ∧
      query.sourceChunks backend = .ok source ∧
      query.orderTerms.mapM (orderChunks backend) = .ok terms ∧
      data = .ofChunks backend
        (plain "SELECT " :: columns ++ source ++ orderClause terms ++ query.windowChunks) := by
  obtain ⟨rows, terms, hrows, hterms, rfl⟩ := dataStatement_eq_ok_iff.mp h
  obtain ⟨columns, hcolumns, hrows⟩ := bind_eq_ok.mp hrows
  obtain ⟨source, hsource, hrows⟩ := bind_eq_ok.mp hrows
  obtain rfl := Except.ok.inj hrows
  exact ⟨columns, source, terms, hcolumns, hsource, hterms, rfl⟩

/-- All rows, given the columns and the source. -/
theorem dataStatement_withoutWindow {columns source : List Chunk}
    (hcolumns : query.columnChunks backend = .ok columns)
    (hsource : query.sourceChunks backend = .ok source) :
    query.withoutWindow.dataStatement backend =
      .ok (.ofChunks backend (plain "SELECT " :: columns ++ source)) := by
  have hrows : query.withoutWindow.rowChunks backend = .ok (plain "SELECT " :: columns ++ source) :=
    rowChunks_of_parts hcolumns hsource
  rw [dataStatement, dataChunks, hrows]
  show Except.ok (Statement.ofChunks backend (plain "SELECT " :: columns ++ source ++ [] ++ [])) = _
  rw [List.append_nil, List.append_nil]

/-- The name of the total, behind what is counted. -/
def totalChunks (backend : Backend) : List Chunk := [plain " AS ", identifier backend totalName]

theorem countStatement_of_column {name : String} {count : Statement}
    (h : query.countStatement (some name) backend = .ok count) :
    ∃ counted source, printText backend (Fragment.columnMarker name) .empty = .ok counted ∧
      query.sourceChunks backend = .ok source ∧
      count = .ofChunks backend
        (plain "SELECT COUNT(DISTINCT " :: counted ++ plain ")" :: totalChunks backend ++ source) := by
  obtain ⟨chunks, hchunks, h⟩ := bind_eq_ok.mp h
  obtain ⟨counted, hcounted, hchunks⟩ := bind_eq_ok.mp hchunks
  obtain ⟨source, hsource, hchunks⟩ := bind_eq_ok.mp hchunks
  obtain rfl := Except.ok.inj hchunks
  obtain rfl := Except.ok.inj h
  exact ⟨counted, source, hcounted, hsource, rfl⟩

theorem countStatement_of_distinct {count : Statement} (hdistinct : query.distinct = true)
    (h : query.countStatement none backend = .ok count) :
    ∃ columns source, query.columnChunks backend = .ok columns ∧
      query.sourceChunks backend = .ok source ∧
      count = .ofChunks backend (plain "SELECT COUNT(*)" :: totalChunks backend ++
        plain " FROM (" :: (plain "SELECT " :: columns ++ source) ++
        [plain ") AS ", identifier backend countedName]) := by
  obtain ⟨chunks, hchunks, h⟩ := bind_eq_ok.mp h
  rw [countChunks, if_pos hdistinct] at hchunks
  obtain ⟨rows, hrows, hchunks⟩ := bind_eq_ok.mp hchunks
  obtain ⟨columns, hcolumns, hrows⟩ := bind_eq_ok.mp hrows
  obtain ⟨source, hsource, hrows⟩ := bind_eq_ok.mp hrows
  obtain rfl := Except.ok.inj hrows
  obtain rfl := Except.ok.inj hchunks
  obtain rfl := Except.ok.inj h
  exact ⟨columns, source, hcolumns, hsource, rfl⟩

theorem countStatement_of_not_distinct {count : Statement} (hdistinct : ¬ query.distinct = true)
    (h : query.countStatement none backend = .ok count) :
    ∃ source, query.sourceChunks backend = .ok source ∧
      count = .ofChunks backend
        (plain "SELECT COUNT(*)" :: totalChunks backend ++ source) := by
  obtain ⟨chunks, hchunks, h⟩ := bind_eq_ok.mp h
  rw [countChunks, if_neg hdistinct] at hchunks
  obtain ⟨source, hsource, hchunks⟩ := bind_eq_ok.mp hchunks
  obtain rfl := Except.ok.inj hchunks
  obtain rfl := Except.ok.inj h
  exact ⟨source, hsource, rfl⟩

/-- What can be returned can be counted. -/
theorem exists_countStatement {data : Statement} (h : query.dataStatement backend = .ok data) :
    ∃ count, query.countStatement none backend = .ok count := by
  obtain ⟨columns, source, -, hcolumns, hsource, -, -⟩ := dataStatement_eq_ok h
  by_cases hdistinct : query.distinct = true
  · rw [countStatement, countChunks, if_pos hdistinct, rowChunks_of_parts hcolumns hsource]
    exact ⟨_, rfl⟩
  · rw [countStatement, countChunks, if_neg hdistinct, hsource]
    exact ⟨_, rfl⟩

/-! ### Counts and rows -/

/-- A name as a statement has it. -/
def quotedName (backend : Backend) (name : String) : String :=
  String.ofList (quoteIdentifier backend name.toList)

/-- The text of a count: of rows from the given source, of the different values of a column among
them, or of rows that are returned once, which are then selected as the pages select them. -/
def IsCountText (query : SelectQuery) (backend : Backend) (columns source : String) :
    Option String → String → Prop
  | some name, text => ∃ counted,
      printText backend (Fragment.columnMarker name) .empty = .ok counted ∧
      text = "SELECT COUNT(DISTINCT " ++ Chunk.printed backend 0 counted ++ ") AS " ++
        quotedName backend totalName ++ source
  | none, text =>
    if query.distinct then ∃ rows,
      query.withoutWindow.dataStatement backend = .ok rows ∧
      rows.text = "SELECT " ++ columns ++ source ∧
      text = "SELECT COUNT(*) AS " ++ quotedName backend totalName ++ " FROM (" ++ rows.text ++
        ") AS " ++ quotedName backend countedName
    else text = "SELECT COUNT(*) AS " ++ quotedName backend totalName ++ source

theorem printed_identifier (name : String) (count : Nat) :
    Chunk.printed backend count [identifier backend name] = quotedName backend name := by
  rw [Chunk.printed, identifier, Chunk.textFrom, Chunk.textFrom, List.append_nil, quotedName]

theorem printed_totalChunks (count : Nat) :
    Chunk.printed backend count (totalChunks backend) = " AS " ++ quotedName backend totalName := by
  rw [totalChunks, Chunk.printed_plain_cons, printed_identifier]

theorem countText_of_column {counted source : List Chunk} (hcounted : Chunk.values counted = []) :
    Chunk.printed backend 0
        (plain "SELECT COUNT(DISTINCT " :: counted ++ plain ")" :: totalChunks backend ++ source) =
      "SELECT COUNT(DISTINCT " ++ Chunk.printed backend 0 counted ++ ") AS " ++
        quotedName backend totalName ++ Chunk.printed backend 0 source := by
  have hname : ")" ++ (" AS " ++ quotedName backend totalName) =
      ") AS " ++ quotedName backend totalName := by
    rw [← String.append_assoc]
    rfl
  have hselect : Chunk.values (plain "SELECT COUNT(DISTINCT " :: counted) = [] := hcounted
  have hbefore : Chunk.values
      (plain "SELECT COUNT(DISTINCT " :: counted ++ plain ")" :: totalChunks backend) = [] := by
    rw [Chunk.values_append, hselect]
    rfl
  rw [Chunk.printed_append_of_nil hbefore, Chunk.printed_append_of_nil hselect,
    Chunk.printed_plain_cons, Chunk.printed_plain_cons, printed_totalChunks, hname,
    ← String.append_assoc]

theorem countText_of_rows (rows : List Chunk) :
    Chunk.printed backend 0 (plain "SELECT COUNT(*)" :: totalChunks backend ++
        plain " FROM (" :: rows ++ [plain ") AS ", identifier backend countedName]) =
      "SELECT COUNT(*) AS " ++ quotedName backend totalName ++ " FROM (" ++
        Chunk.printed backend 0 rows ++ ") AS " ++ quotedName backend countedName := by
  have hbefore : Chunk.values (plain "SELECT COUNT(*)" :: totalChunks backend) = [] := rfl
  rw [Chunk.printed_append, Chunk.printed_append_of_nil hbefore, Chunk.printed_plain_cons,
    Chunk.printed_plain_cons, Chunk.printed_plain_cons, printed_totalChunks, printed_identifier]
  simp only [← String.append_assoc]
  rfl

theorem countText_of_source (source : List Chunk) :
    Chunk.printed backend 0 (plain "SELECT COUNT(*)" :: totalChunks backend ++ source) =
      "SELECT COUNT(*) AS " ++ quotedName backend totalName ++ Chunk.printed backend 0 source := by
  have hbefore : Chunk.values (plain "SELECT COUNT(*)" :: totalChunks backend) = [] := rfl
  rw [Chunk.printed_append_of_nil hbefore, Chunk.printed_plain_cons, printed_totalChunks,
    ← String.append_assoc]
  rfl

/-- The values of a count are those of the source, and its text is made of the text of the source
with its places numbered from one. -/
theorem countStatement_eq_ok {column : Option String} {count : Statement}
    {columns source : List Chunk} (hcolumns : query.columnChunks backend = .ok columns)
    (hsource : query.sourceChunks backend = .ok source)
    (h : query.countStatement column backend = .ok count) :
    count.values = Chunk.values source ∧
      query.IsCountText backend (Chunk.printed backend 0 columns) (Chunk.printed backend 0 source)
        column count.text := by
  have hnone : Chunk.values columns = [] := values_columnChunks hcolumns
  cases column with
  | some name =>
    obtain ⟨counted, other, hcounted, hother, rfl⟩ := countStatement_of_column h
    obtain rfl := Except.ok.inj (hsource.symm.trans hother)
    have hcountedNone : Chunk.values counted = [] := values_printText_empty hcounted
    refine ⟨?_, counted, hcounted, countText_of_column hcountedNone⟩
    simp [Chunk.values_append, hcountedNone, totalChunks]
  | none =>
    by_cases hdistinct : query.distinct = true
    · obtain ⟨others, other, hothers, hother, rfl⟩ := countStatement_of_distinct hdistinct h
      obtain rfl := Except.ok.inj (hcolumns.symm.trans hothers)
      obtain rfl := Except.ok.inj (hsource.symm.trans hother)
      have hselect : Chunk.values (plain "SELECT " :: columns) = [] := hnone
      constructor
      · simp [Chunk.values_append, hnone, totalChunks, Chunk.values]
      · rw [IsCountText, if_pos hdistinct]
        refine ⟨_, dataStatement_withoutWindow hcolumns hsource, ?_, countText_of_rows _⟩
        rw [Chunk.text_ofChunks, Chunk.printed_append_of_nil hselect, Chunk.printed_plain_cons]
    · obtain ⟨other, hother, rfl⟩ := countStatement_of_not_distinct hdistinct h
      obtain rfl := Except.ok.inj (hsource.symm.trans hother)
      refine ⟨rfl, ?_⟩
      rw [IsCountText, if_neg hdistinct]
      exact countText_of_source source

end SelectQuery

/-- **A count is taken of the rows that the pages are cut from.**  Between the tables and the end of
the conditions both statements have the same text, with the same numbers for the places of values.
In front of it the one has its columns and the other what is counted; behind it the pages have their
order and their window, which bind the limit and the offset behind the values of the count.  A count
of rows that are returned once is taken of all of them, selected as the pages select them. -/
theorem countStatement_counts {query : SelectQuery} {backend : Backend} {column : Option String}
    {data count : Statement} (hdata : query.dataStatement backend = .ok data)
    (hcount : query.countStatement column backend = .ok count) :
    ∃ columns tables clause terms,
      query.columnChunks backend = .ok columns ∧
      query.sourceChunks backend = .ok (plain " FROM " :: tables ++ clause) ∧
      IsWhereClause backend query.condition clause ∧
      query.orderTerms.mapM (orderChunks backend) = .ok terms ∧
      data.text =
        "SELECT " ++ Chunk.printed backend 0 columns ++
          Chunk.printed backend 0 (plain " FROM " :: tables ++ clause) ++
          Chunk.printed backend 0 (orderClause terms) ++
          Chunk.printed backend count.values.length query.windowChunks ∧
      query.IsCountText backend (Chunk.printed backend 0 columns)
        (Chunk.printed backend 0 (plain " FROM " :: tables ++ clause)) column count.text ∧
      data.values =
        count.values ++ query.limit.toList.map .unsigned ++ query.offset.toList.map .unsigned := by
  obtain ⟨columns, source, terms, hcolumns, hsource, hterms, rfl⟩ := dataStatement_eq_ok hdata
  obtain ⟨tables, clause, hclause, rfl⟩ := sourceChunks_eq_ok hsource
  obtain ⟨hvalues, htext⟩ := countStatement_eq_ok hcolumns hsource hcount
  have hnone : Chunk.values columns = [] := values_columnChunks hcolumns
  have hselect : Chunk.values (plain "SELECT " :: columns) = [] := hnone
  have horder : Chunk.values (orderClause terms) = [] := values_orderClause hterms
  refine ⟨columns, tables, clause, terms, hcolumns, hsource, hclause, hterms, ?_, htext, ?_⟩
  · rw [hvalues, Chunk.text_ofChunks, Chunk.printed_append, Chunk.printed_append,
      Chunk.printed_append_of_nil hselect, Chunk.printed_of_values_eq_nil horder,
      Chunk.printed_plain_cons, Chunk.values_append, Chunk.values_append, hselect, horder,
      List.nil_append, List.append_nil, Nat.zero_add]
  · rw [hvalues, Chunk.values_ofChunks, Chunk.values_append, Chunk.values_append,
      Chunk.values_append (plain "SELECT " :: columns), hselect, horder, values_windowChunks,
      List.nil_append, List.append_nil, List.append_assoc]

/-- The third page of the authors of long articles, each of them once. -/
def sampleAuthors : SelectQuery where
  columns := ["[[author.name]]"]
  distinct := true
  table := "article"
  joins := [
    { kind := .left, table := "user", knownAs := some "author",
      condition := .raw "[[author.id]] = [[article.by]] AND [[author.role]] = \x7b:role\x7d"
        (.single "role" (.text "editor")) }]
  conditions := [.raw "[[length]] > \x7b:least\x7d" (.single "least" (.int 1000))]
  orderTerms := ["[[author.name]] DESC"]
  limit := some 10
  offset := some 20

theorem sampleAuthors_counted :
    ∃ data count, sampleAuthors.dataStatement .postgres = .ok data ∧
      sampleAuthors.countStatement none .postgres = .ok count ∧
      count.text = "SELECT COUNT(*) AS \"total\" FROM (SELECT DISTINCT \"author\".\"name\"" ++
        " FROM \"article\" LEFT JOIN \"user\" AS \"author\"" ++
        " ON \"author\".\"id\" = \"article\".\"by\" AND \"author\".\"role\" = $1" ++
        " WHERE \"length\" > $2) AS \"__count\"" ∧
      data.values = [.text "editor", .int 1000, .unsigned 10, .unsigned 20] := by
  obtain ⟨data, hdata⟩ : ∃ data, sampleAuthors.dataStatement .postgres = .ok data := by
    have hok : (sampleAuthors.dataStatement .postgres).toOption.isSome = true := by decide +kernel
    cases h : sampleAuthors.dataStatement .postgres with
    | ok data => exact ⟨data, rfl⟩
    | error e =>
      rw [h] at hok
      cases hok
  obtain ⟨count, hcount⟩ := exists_countStatement hdata
  have hstatement : (sampleAuthors.countStatement none .postgres).toOption = some {
      text := "SELECT COUNT(*) AS \"total\" FROM (SELECT DISTINCT \"author\".\"name\"" ++
        " FROM \"article\" LEFT JOIN \"user\" AS \"author\"" ++
        " ON \"author\".\"id\" = \"article\".\"by\" AND \"author\".\"role\" = $1" ++
        " WHERE \"length\" > $2) AS \"__count\""
      values := [.text "editor", .int 1000] } := by decide +kernel
  rw [hcount] at hstatement
  obtain ⟨-, -, -, -, -, -, -, -, -, -, hpage⟩ := countStatement_counts hdata hcount
  obtain rfl := Option.some.inj hstatement
  exact ⟨data, _, hdata, hcount, rfl, hpage⟩

end PagedSearch
