import Mathlib.Data.List.TakeWhile
import PagedSearch.Proofs.Bindings
import PagedSearch.Proofs.Rendering

/-!
# Where the names of fields end up

The name of a field is what a client wrote, and its parts between the dots are written into SQL: the
first one into the marker of a column, the others into a string literal that is a path into the
document in that column.  None of them can leave its place.  Whatever is in the name, the reader of
markers finds one column and at most one literal, with nothing in them but what was meant for them,
and different parts make different paths.

## Main definitions

* `isKeyChar` — the characters that a part of a name keeps.
* `IsSteps`, `IsPath` — paths as they are written.
* `fieldText`, `fieldPieces` — the text of a field, and its pieces.
* `Resolved.IsConfined` — what a field stands for, if all its parts stay in their places.

## Main results

* `IsSteps.unique` — a path has one reading.
* `markers_fieldText` — the pieces that are read are a column and a literal.
* `AllowList.resolve_isConfined` — the fields on a list stay in their places.
-/

namespace PagedSearch

/-! ### Parts of names -/

/-- The characters that a part of a name between two dots keeps. -/
def isKeyChar (c : Char) : Bool :=
  Text.isAlphanumeric c || ['_', '*', '-', '@', '#'].contains c

section Keys

variable {c mark : Char} {part parts' : List Char}

theorem isNamePart_eq (c : Char) : isNamePart c = (isKeyChar c || c == '.') := by
  have hparts : ['_', '.', '*', '-', '@', '#'].contains c =
      (['_', '*', '-', '@', '#'].contains c || c == '.') := by
    simp only [List.contains_cons, List.contains_nil, Bool.or_false]
    ac_rfl
  rw [isNamePart, isKeyChar, hparts, Bool.or_assoc]

theorem isKeyChar_iff : isKeyChar c = true ↔ isNamePart c = true ∧ c ≠ '.' := by
  have hdot : isKeyChar '.' = false := by decide +kernel
  rw [isNamePart_eq, Bool.or_eq_true, beq_iff_eq]
  constructor
  · intro hc
    refine ⟨.inl hc, ?_⟩
    rintro rfl
    rw [hdot] at hc
    cases hc
  · exact fun ⟨hc, hne⟩ => hc.resolve_right hne

theorem ne_of_isKeyChar (h : isKeyChar c = true) (hmark : isNamePart mark = false) : c ≠ mark :=
  ne_of_isNamePart (isKeyChar_iff.mp h).1 hmark

/-- What is left of a part of a name. -/
theorem isKeyChar_of_mem_sanitisedChars {part : List Char} (hpart : '.' ∉ part)
    (h : c ∈ sanitisedChars part) : isKeyChar c = true := by
  obtain ⟨hmem, hname⟩ := List.mem_filter.mp h
  refine isKeyChar_iff.mpr ⟨hname, ?_⟩
  rintro rfl
  exact hpart hmem

end Keys

/-! ### Paths -/

/-- A part of a path that counts the members of an array. -/
def IsIndex (part : List Char) : Prop := part ≠ [] ∧ ∀ c ∈ part, c.isDigit = true

instance (part : List Char) : Decidable (IsIndex part) :=
  inferInstanceAs (Decidable (_ ∧ _))

/-- The steps of a path as they are written, one for each part: a number in brackets, or a key
behind a dot. -/
inductive IsSteps : List (List Char) → List Char → Prop where
  /-- No step. -/
  | nil : IsSteps [] []
  /-- A member of an array, and more steps. -/
  | index {part text : List Char} {parts : List (List Char)} : IsIndex part → IsSteps parts text →
      IsSteps (part :: parts) ('[' :: (part ++ ']' :: text))
  /-- A member of an object, and more steps. -/
  | key {part text : List Char} {parts : List (List Char)} : ¬ IsIndex part → IsSteps parts text →
      IsSteps (part :: parts) ('.' :: (part ++ text))

/-- A path into a document: the document, and the steps behind it. -/
def IsPath (parts : List (List Char)) (path : List Char) : Prop :=
  ∃ steps, path = '$' :: steps ∧ IsSteps parts steps

section Paths

variable {part other rest more text : List Char} {parts others : List (List Char)}

/-- A text that none of the characters of a part starts. -/
def EndsPart (text : List Char) : Prop := ∀ c ∈ text.head?, isKeyChar c = false

theorem endsPart_cons {c : Char} (hc : isKeyChar c = false) : EndsPart (c :: text) := by
  rintro _ ⟨⟩
  exact hc

theorem IsSteps.endsPart (h : IsSteps parts text) : EndsPart text := by
  cases h with
  | nil => nofun
  | index => exact endsPart_cons (by decide +kernel)
  | key => exact endsPart_cons (by decide +kernel)

theorem takeWhile_part (hpart : ∀ c ∈ part, isKeyChar c = true) (hrest : EndsPart rest) :
    (part ++ rest).takeWhile isKeyChar = part := by
  have hnone : rest.takeWhile isKeyChar = [] := by
    cases rest with
    | nil => rfl
    | cons c rest => rw [List.takeWhile_cons_of_neg (by simp [hrest c rfl])]
  rw [List.takeWhile_append_of_pos hpart, hnone, List.append_nil]

/-- A part goes as far as its characters do. -/
theorem part_unique (hpart : ∀ c ∈ part, isKeyChar c = true)
    (hother : ∀ c ∈ other, isKeyChar c = true) (hrest : EndsPart rest) (hmore : EndsPart more)
    (h : part ++ rest = other ++ more) : part = other ∧ rest = more := by
  have hsame : part = other := by rw [← takeWhile_part hpart hrest, h, takeWhile_part hother hmore]
  subst hsame
  exact ⟨rfl, List.append_cancel_left h⟩

/-- **A path has one reading.** -/
theorem IsSteps.unique (h : IsSteps parts text)
    (hparts : ∀ part ∈ parts, ∀ c ∈ part, isKeyChar c = true)
    (h' : IsSteps others text) (hothers : ∀ part ∈ others, ∀ c ∈ part, isKeyChar c = true) :
    parts = others := by
  have hbracket : isKeyChar ']' = false := by decide +kernel
  induction h generalizing others with
  | nil =>
    cases h'
    rfl
  | @index part text parts _ hsteps ih =>
    generalize hwritten : '[' :: (part ++ ']' :: text) = written at h'
    cases h' with
    | nil => cases hwritten
    | key => cases hwritten
    | @index other text' others _ hsteps' =>
      rw [List.forall_mem_cons] at hparts hothers
      obtain ⟨rfl, htext⟩ := part_unique hparts.1 hothers.1 (endsPart_cons hbracket)
        (endsPart_cons hbracket) (List.cons.inj hwritten).2
      obtain rfl := (List.cons.inj htext).2
      rw [ih hparts.2 hsteps' hothers.2]
  | @key part text parts _ hsteps ih =>
    generalize hwritten : '.' :: (part ++ text) = written at h'
    cases h' with
    | nil => cases hwritten
    | index => cases hwritten
    | @key other text' others _ hsteps' =>
      rw [List.forall_mem_cons] at hparts hothers
      obtain ⟨rfl, rfl⟩ := part_unique hparts.1 hothers.1 hsteps.endsPart hsteps'.endsPart
        (List.cons.inj hwritten).2
      rw [ih hparts.2 hsteps' hothers.2]

theorem isIndex_iff : IsIndex part ↔ (!part.isEmpty && part.all Char.isDigit) = true := by
  simp [IsIndex]

/-- The path of a field has one step for each of its parts. -/
theorem isPath_jsonPath (parts : List (List Char)) :
    IsPath (parts.map sanitisedChars) (AllowList.jsonPath parts) := by
  refine ⟨_, rfl, ?_⟩
  induction parts with
  | nil => exact .nil
  | cons part parts ih =>
    rw [List.map_cons, List.flatMap_cons, AllowList.pathStep]
    by_cases hindex : IsIndex (sanitisedChars part)
    · rw [if_pos (isIndex_iff.mp hindex), List.append_assoc]
      exact .index hindex ih
    · rw [if_neg (mt isIndex_iff.mpr hindex)]
      exact .key hindex ih

end Paths

/-! ### The text of a field -/

/-- The text of what a path leads to in a document. -/
def extraction (document path : List Char) : List Char :=
  "JSON_EXTRACT(".toList ++ document ++ ", '".toList ++ path ++ "')".toList

/-- The pieces of the text of what a path leads to in the document in a column. -/
def extractionPieces (column path : List Char) : List Marker :=
  "JSON_EXTRACT(".toList.map .char ++
    [.column column, .char ',', .char ' ', .literal ('\'' :: (path ++ ['\''])), .char ')']

/-- The text of a field: a value, or what a path leads to in the document that the value is. -/
def fieldText (value : List Char) (parts : List (List Char)) (path : List Char) : List Char :=
  match parts with
  | [] => value
  | _ :: _ => extraction value path

/-- The pieces of a field's text. -/
def fieldPieces (column : List Char) (parts : List (List Char)) (path : List Char) : List Marker :=
  match parts with
  | [] => [.column column]
  | _ :: _ => extractionPieces column path

/-- The marker of a column as it is written. -/
abbrev columnText (column : List Char) : List Char := '[' :: '[' :: (column ++ [']', ']'])

section Texts

variable {column path : List Char} {parts : List (List Char)} {backend : Backend}

theorem flatMap_source_fieldPieces (column path : List Char) (parts : List (List Char)) :
    (fieldPieces column parts path).flatMap Marker.source =
      fieldText (columnText column) parts path := by
  cases parts with
  | nil => simp [fieldPieces, fieldText, Marker.source]
  | cons part parts =>
    rw [fieldPieces, fieldText]
    unfold extractionPieces extraction
    simp [Marker.source]

theorem isWritten_column (hcolumn : ∀ c ∈ column, isKeyChar c = true) (hne : column ≠ []) :
    (Marker.column column).IsWritten := by
  have hkept : sanitisedChars column = column := by
    rw [sanitisedChars, List.filter_eq_self]
    exact fun c hc => (isKeyChar_iff.mp (hcolumn c hc)).1
  refine ⟨?_, by rw [← hkept, trimChars_sanitisedChars]⟩
  have hheld (c : Char) (hc : c ∈ column) : (c ≠ ']' ∧ c ≠ '\n') ∧ c ≠ '\'' :=
    ⟨⟨ne_of_isKeyChar (hcolumn c hc) (by decide), ne_of_isKeyChar (hcolumn c hc) (by decide)⟩,
      ne_of_isKeyChar (hcolumn c hc) (by decide)⟩
  simpa [Marker.isName, hne] using hheld

theorem isWritten_of_mem_fieldPieces (hcolumn : ∀ c ∈ column, isKeyChar c = true)
    (hne : column ≠ []) (hpath : '\'' ∉ path) :
    ∀ piece ∈ fieldPieces column parts path, piece.IsWritten := by
  have hwritten := isWritten_column hcolumn hne
  cases parts with
  | nil => simpa [fieldPieces] using hwritten
  | cons part parts =>
    rw [fieldPieces]
    unfold extractionPieces
    rw [List.forall_mem_append]
    refine ⟨by decide +kernel, ?_⟩
    simpa [hwritten, isWritten_quoted hpath] using by decide +kernel

theorem isChain_fieldPieces (column path : List Char) (parts : List (List Char)) :
    (fieldPieces column parts path).IsChain Marker.Apart := by
  cases parts with
  | nil => exact .singleton _
  | cons part parts =>
    rw [fieldPieces]
    unfold extractionPieces
    simp [Marker.Apart, Marker.isChar, Marker.isBreak, Reading.isBreak]

theorem composed_fieldText (hcolumn : ∀ c ∈ column, isKeyChar c = true) (hne : column ≠ [])
    (hpath : '\'' ∉ path) : Composed (fieldText (columnText column) parts path) := by
  rw [← flatMap_source_fieldPieces]
  exact composed_flatMap_source (isWritten_of_mem_fieldPieces hcolumn hne hpath)
    (isChain_fieldPieces _ _ _)

/-- **The pieces of a field are read back as they are written**: a column, and a literal if there is
a path. -/
theorem markers_fieldText (hcolumn : ∀ c ∈ column, isKeyChar c = true) (hne : column ≠ [])
    (hpath : '\'' ∉ path) :
    markers (fieldText (columnText column) parts path) = fieldPieces column parts path := by
  rw [← flatMap_source_fieldPieces]
  exact markers_flatMap_source (isWritten_of_mem_fieldPieces hcolumn hne hpath)
    (isChain_fieldPieces _ _ _)

/-- A name without dots is the name of a column, unless it stands for all columns. -/
theorem Column.ofText_eq (hdot : '.' ∉ column) (hall : column ≠ ['*']) :
    Column.ofText column = .named [column] := by
  have hsplit : splitDots 2 column = [column] := by
    have hdrop : column.dropWhile (· ≠ '.') = [] := by
      refine List.dropWhile_eq_nil_iff.mpr fun c hc => ?_
      rw [decide_eq_true_eq]
      rintro rfl
      exact hdot hc
    rw [splitDots, hdrop]
  rw [Column.ofText, hsplit]
  split
  · rename_i heq
    exact absurd (List.cons.inj heq).1 hall
  · rename_i heq
    cases (List.cons.inj heq).2
  · rfl

/-- Characters that are no marks mean themselves in a template. -/
theorem ofItemsFrom_chars {chars : List Char} (h : backend.mark ∉ chars)
    (last : Option Char) (count : Nat) (items : List Item) :
    Template.ofItemsFrom backend last count (chars.map .char ++ items) =
      let rest := Template.ofItemsFrom backend (chars.getLast?.or last) count items
      { rest with text := chars ++ rest.text } := by
  induction chars generalizing last with
  | nil => rfl
  | cons c chars ih =>
    obtain ⟨hc, hchars⟩ := not_or.mp (List.mem_cons.not.mp h)
    have hlast : chars.getLast?.or (some c) = (c :: chars).getLast?.or last := by
      cases chars <;> simp [List.getLast?_cons]
    rw [List.map_cons, List.cons_append, Template.ofItemsFrom, ih hchars, hlast, Template.charText]
    simp [Ne.symm hc]

theorem mapM_bind_chars (params : Params) (chars : List Char) :
    (chars.map Marker.char).mapM (Marker.bind params) = .ok (chars.map Item.char) := by
  induction chars with
  | nil => rfl
  | cons c chars ih =>
    rw [List.map_cons, List.mapM_cons, ih]
    rfl

theorem ofItems_extraction (column path : List Char) (backend : Backend) :
    Template.ofItems backend ("JSON_EXTRACT(".toList.map .char ++
      [.argument (.column (.named [column])), .char ',', .char ' ',
        .literal ('\'' :: (path ++ ['\''])), .char ')']) =
      { text := extraction (argumentText backend 1) path
        arguments := [.column (.named [column])] } := by
  have hname : backend.mark ∉ "JSON_EXTRACT(".toList := by cases backend <;> decide +kernel
  have hother : backend.mark ∉ [',', ' ', ')'] := by cases backend <;> decide
  have hlast : "JSON_EXTRACT(".toList.getLast? = some '(' := by decide +kernel
  have hword : Template.isWordEnd '(' = false := by decide +kernel
  have hmark (last : Option Char) {c : Char} (hc : c ∈ [',', ' ', ')']) :
      Template.charText backend last c = [c] := by
    have hne : c ≠ backend.mark := fun heq => hother (heq ▸ hc)
    rw [Template.charText]
    simp [hne]
  rw [Template.ofItems, ofItemsFrom_chars hname, hlast]
  unfold extraction
  simp [Template.ofItemsFrom, markText_eq, hword, hmark]

/-- The template of a field has a mark for the column, and the literal as it is. -/
theorem ofText_fieldText (backend : Backend) {text : String} (params : Params)
    (htext : text.toList = fieldText (columnText column) parts path)
    (hcolumn : ∀ c ∈ column, isKeyChar c = true) (hne : column ≠ []) (hall : column ≠ ['*'])
    (hquote : '\'' ∉ path) (hescape : '\\' ∉ path) :
    Template.ofText backend text params =
      .ok { text := fieldText (argumentText backend 1) parts path
            arguments := [.column (.named [column])] } := by
  have hdot : '.' ∉ column := fun hmem => (isKeyChar_iff.mp (hcolumn _ hmem)).2 rfl
  rw [Template.ofText, htext, markers_fieldText hcolumn hne hquote]
  cases parts with
  | nil =>
    simp [fieldPieces, fieldText, Marker.bind, Column.ofText_eq hdot hall, Template.ofItems,
      Template.ofItemsFrom, markText_eq]
  | cons part parts =>
    rw [fieldPieces, fieldText, ← ofItems_extraction]
    unfold extractionPieces
    rw [List.mapM_append, mapM_bind_chars]
    simp [Marker.bind, Column.ofText_eq hdot hall, hescape]
    rfl

theorem filterMap_param?_fieldPieces (column path : List Char) (parts : List (List Char)) :
    (fieldPieces column parts path).filterMap Marker.param? = [] := by
  cases parts with
  | nil => rfl
  | cons part parts =>
    rw [fieldPieces]
    unfold extractionPieces
    simp [Marker.param?]

theorem renderFrom_fieldPieces (backend : Backend) (hdot : '.' ∉ column) (hall : column ≠ ['*']) :
    renderFrom backend 0 (fieldPieces column parts path) =
      fieldText (quoteIdentifier backend column) parts path := by
  have hquote : (Column.ofText column).quote backend = quoteIdentifier backend column := by
    rw [Column.ofText_eq hdot hall, Column.quote]
    simp
  cases parts with
  | nil => simp [fieldPieces, fieldText, renderFrom, hquote]
  | cons part parts =>
    rw [fieldPieces, fieldText]
    unfold extractionPieces extraction
    simp [renderFrom, hquote]

end Texts

/-! ### Fields on a list -/

/-- What a field stands for, if each of its parts stays in the place that is meant for it: the first
one is the name of a column, and the others are a path in a string literal. -/
structure Resolved.IsConfined (column : List Char) (parts : List (List Char)) (path : List Char)
    (resolved : Resolved) : Prop where
  /-- There are no values. -/
  params_eq : resolved.params = .empty
  /-- There are no related values. -/
  related : resolved.related = none
  /-- The comparison is not put into anything. -/
  wrap : resolved.wrap = none
  /-- The name of the column has no characters but these. -/
  column_keys : ∀ c ∈ column, isKeyChar c = true
  /-- And neither have the steps of the path. -/
  parts_keys : ∀ part ∈ parts, ∀ c ∈ part, isKeyChar c = true
  /-- The path has one step for each part. -/
  isPath : IsPath parts path
  /-- There is nothing in it that ends the literal, or that has a meaning in one. -/
  path_plain : ∀ c ∈ path, c ∉ ['\'', '"', '\x60', '\\', '{', '}', '(', ')', '<', '>']
  /-- No other parts make this path. -/
  path_unique : ∀ others, (∀ part ∈ others, ∀ c ∈ part, isKeyChar c = true) →
    IsPath others path → others = parts
  /-- The SQL is the column, or what the path leads to in the document in it. -/
  identifier_eq : resolved.identifier.toList = fieldText (columnText column) parts path
  /-- The reader of markers finds this column and no other argument. -/
  template_eq : column ≠ [] → column ≠ ['*'] → ∀ backend,
    Template.ofText backend resolved.identifier resolved.params =
      .ok { text := fieldText (argumentText backend 1) parts path
            arguments := [.column (.named [column])] }
  /-- And this is what becomes of it in a statement. -/
  prints : column ≠ [] → column ≠ ['*'] → resolved.identifier.length < 2 ^ 64 → ∀ backend,
    ∃ chunks, printText backend resolved.identifier resolved.params = .ok chunks ∧
      Chunk.textFrom backend 0 chunks = fieldText (quoteIdentifier backend column) parts path ∧
      Chunk.values chunks = []

section Lists

variable {column path : List Char} {parts : List (List Char)} {resolved : Resolved}

/-- It is enough to know the characters, the path and the SQL. -/
theorem Resolved.isConfined (hparams : resolved.params = .empty)
    (hrelated : resolved.related = none) (hwrap : resolved.wrap = none)
    (hcolumn : ∀ c ∈ column, isKeyChar c = true)
    (hparts : ∀ part ∈ parts, ∀ c ∈ part, isKeyChar c = true) (hpath : IsPath parts path)
    (hplain : ∀ c ∈ path, c ∉ ['\'', '"', '\x60', '\\', '{', '}', '(', ')', '<', '>'])
    (hidentifier : resolved.identifier.toList = fieldText (columnText column) parts path) :
    resolved.IsConfined column parts path where
  params_eq := hparams
  related := hrelated
  wrap := hwrap
  column_keys := hcolumn
  parts_keys := hparts
  isPath := hpath
  path_plain := hplain
  path_unique others hothers hpath' := by
    obtain ⟨steps, rfl, hsteps⟩ := hpath
    obtain ⟨steps', hsame, hsteps'⟩ := hpath'
    obtain rfl := (List.cons.inj hsame).2
    exact hsteps'.unique hothers hsteps hparts
  identifier_eq := hidentifier
  template_eq hne hall backend :=
    ofText_fieldText backend _ hidentifier hcolumn hne hall
      (fun hmem => hplain _ hmem (by decide)) (fun hmem => hplain _ hmem (by decide))
  prints hne hall hlength backend := by
    have hquote : '\'' ∉ path := fun hmem => hplain _ hmem (by decide)
    have hdot : '.' ∉ column := fun hmem => (isKeyChar_iff.mp (hcolumn _ hmem)).2 rfl
    have hmarkers : markers resolved.identifier.toList = fieldPieces column parts path := by
      rw [hidentifier, markers_fieldText hcolumn hne hquote]
    have hcomposed : Composed resolved.identifier.toList := by
      rw [hidentifier]
      exact composed_fieldText hcolumn hne hquote
    have hplaceholders : placeholders resolved.identifier.toList = [] := by
      rw [placeholders, hmarkers, filterMap_param?_fieldPieces]
    have hparams : ∀ name ∈ placeholders resolved.identifier.toList,
        (resolved.params.get? name).isSome = true := by simp [hplaceholders]
    obtain ⟨chunks, hchunks, htext, hvalues⟩ := printText_composed backend hcomposed hparams hlength
    refine ⟨chunks, hchunks, ?_, ?_⟩
    · rw [htext, hmarkers, renderFrom_fieldPieces backend hdot hall]
    · simpa [hplaceholders] using hvalues

/-- Nothing in a path ends a literal or has a meaning in one. -/
theorem plain_of_mem_jsonPath {parts : List (List Char)} {c : Char}
    (h : c ∈ AllowList.jsonPath parts) :
    c ∉ ['\'', '"', '\x60', '\\', '{', '}', '(', ')', '<', '>'] := by
  have hmarks : (['\'', '"', '\x60', '\\', '{', '}', '(', ')', '<', '>'].all fun mark =>
      !isNamePart mark && decide (mark ∉ ['$', '.', '[', ']'])) = true := by decide +kernel
  intro hmem
  have hmark := List.all_eq_true.mp hmarks c hmem
  rw [Bool.and_eq_true, Bool.not_eq_true', decide_eq_true_eq] at hmark
  exact ne_of_mem_jsonPath hmark.1 hmark.2 h rfl

/-- **The fields on a list stay in their places**, whatever characters are in their names. -/
theorem AllowList.resolve_isConfined (list : AllowList) {field : String} {resolved : Resolved}
    (h : list.resolve field = .ok resolved) :
    ∃ column parts path, (Text.split '.' field.toList).map sanitisedChars = column :: parts ∧
      (parts = [] ↔ '.' ∉ field.toList) ∧ resolved.IsConfined column parts path := by
  have hsql : resolved = AllowList.fieldSql field := by
    rw [AllowList.resolve] at h
    split at h
    · exact (Except.ok.inj h).symm
    · cases h
  subst hsql
  obtain ⟨first, rest, hsplit⟩ := List.exists_cons_of_ne_nil (Text.split_ne_nil '.' field.toList)
  have hkeys : ∀ part ∈ first :: rest, ∀ c ∈ sanitisedChars part, isKeyChar c = true := by
    intro part hpart c hc
    rw [← hsplit] at hpart
    exact isKeyChar_of_mem_sanitisedChars (Text.not_mem_of_mem_split hpart) hc
  refine ⟨sanitisedChars first, rest.map sanitisedChars, AllowList.jsonPath rest, ?_, ?_, ?_⟩
  · rw [hsplit, List.map_cons]
  · rw [List.map_eq_nil_iff, ← Text.length_split_eq_one_iff, hsplit]
    simp
  · rw [AllowList.fieldSql, hsplit]
    rw [List.forall_mem_cons] at hkeys
    have hparts : ∀ part ∈ rest.map sanitisedChars, ∀ c ∈ part, isKeyChar c = true := by
      intro part hpart
      obtain ⟨part, hmem, rfl⟩ := List.mem_map.mp hpart
      exact hkeys.2 part hmem
    cases rest with
    | nil =>
      refine Resolved.isConfined rfl rfl rfl hkeys.1 hparts (isPath_jsonPath _)
        (fun c hc => plain_of_mem_jsonPath hc) ?_
      simp [Resolved.ofIdentifier, Fragment.columnMarker, fieldText]
    | cons part rest =>
      refine Resolved.isConfined rfl rfl rfl hkeys.1 hparts (isPath_jsonPath _)
        (fun c hc => plain_of_mem_jsonPath hc) ?_
      rw [List.map_cons, fieldText]
      unfold extraction
      simp [Fragment.columnMarker]

/-- A list with a pattern for the fields of a document. -/
def documentFields : AllowList where
  entries := [.matching ((Pattern.ofText? "^data\\..+$").get (by decide +kernel))]

theorem hostileField_isConfined :
    documentFields.resolve "data.a') OR 1=1 --.0" =
        .ok (AllowList.fieldSql "data.a') OR 1=1 --.0") ∧
      ∃ column parts path,
        (Text.split '.' "data.a') OR 1=1 --.0".toList).map sanitisedChars = column :: parts ∧
        (parts = [] ↔ '.' ∉ "data.a') OR 1=1 --.0".toList) ∧
        (AllowList.fieldSql "data.a') OR 1=1 --.0").IsConfined column parts path := by
  have hresolve : documentFields.resolve "data.a') OR 1=1 --.0" =
      .ok (AllowList.fieldSql "data.a') OR 1=1 --.0") := if_pos (by decide +kernel)
  exact ⟨hresolve, documentFields.resolve_isConfined hresolve⟩

end Lists

end PagedSearch
