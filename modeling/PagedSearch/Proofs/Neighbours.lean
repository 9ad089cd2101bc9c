import PagedSearch.Proofs.Printing

/-!
# Pieces side by side

A fragment can be written with any pieces side by side: markers, closed string literals and
characters, with nothing between them.  Its text is read as these pieces, but for two string literals
side by side, which are one literal then, and for white space around the names of columns and tables.

What is read is also printed, unless two neighbours clash.  A mark is only told from what stands in
front of it, and not from what stands behind it.  So a column and a `?` behind it change places, and a
letter behind the number of a mark takes the value away.

## Main definitions

* `joinLiteral`, `settle` — the pieces that are read where others have been written.

## Main results

* `markers_flatMap_pieces` — the pieces that are read.
* `printText_pieces` — a text whose neighbours do not clash is printed piece by piece.
* `columnMark_swapped` — a column and a mark behind it change places.
-/

namespace PagedSearch

/-- A string literal in front of other pieces; in front of another literal it is one with it. -/
def joinLiteral (text : List Char) : List Marker → List Marker
  | .literal more :: rest => .literal (text ++ more) :: rest
  | rest => .literal text :: rest

/-- The pieces that are read where the given ones have been written. -/
def settle : List Marker → List Marker
  | [] => []
  | .literal text :: rest => joinLiteral text (settle rest)
  | piece :: rest => piece.settled :: settle rest

/-! ### Reading -/

section Reading

open Marker

variable {body tail : List Char}

/-- Between two literals there are two quotes, which end neither of them. -/
theorem literalLength_append_quote (h : isClosed body = true) (tail : List Char) :
    literalLength (body ++ '\'' :: tail) = body.length + 1 + literalLength tail := by
  fun_induction isClosed body with
  | case1 => cases h
  | case2 => simp [literalLength]; omega
  | case3 rest ih => simp [literalLength, ih h]; omega
  | case4 => cases h
  | case5 c rest hone htwo hquote ih =>
    have hc : c ≠ '\'' := fun heq => hquote heq
    simp [literalLength, hc, ih h]; omega

theorem isClosed_append_quote {more : List Char} (h : isClosed body = true)
    (hmore : isClosed more = true) : isClosed (body ++ '\'' :: more) = true := by
  fun_induction isClosed body with
  | case1 => cases h
  | case2 => exact hmore
  | case3 rest ih => exact ih h
  | case4 => cases h
  | case5 c rest hone htwo hquote ih =>
    have hc : c ≠ '\'' := fun heq => hquote heq
    rw [List.cons_append, isClosed.eq_def]
    simp [hc, ih h]

/-- Only a quote starts a literal. -/
theorem isLiteral_of_head? (htail : tail.head? ≠ some '\'') :
    ∀ piece ∈ (markers tail).head?, piece.isLiteral = false := by
  cases tail with
  | nil => nofun
  | cons c rest =>
    have hc : c ≠ '\'' := by simpa using htail
    unfold markers
    rw [Text.cut_cons]
    rintro piece ⟨⟩
    rw [Marker.read, if_neg hc]
    cases hread : read? c rest with
    | none => rfl
    | some found =>
      unfold read? at hread
      split at hread
      on_goal 4 => cases hread
      all_goals
        obtain ⟨name, -, rfl⟩ := Option.map_eq_some_iff.mp hread
        rfl

theorem joinLiteral_of_isLiteral {text : List Char} {pieces : List Marker}
    (h : ∀ piece ∈ pieces.head?, piece.isLiteral = false) :
    joinLiteral text pieces = .literal text :: pieces := by
  cases pieces with
  | nil => rfl
  | cons piece rest =>
    have hpiece : piece.isLiteral = false := h piece rfl
    cases piece with
    | literal more => cases hpiece
    | _ => rfl

/-- A closed literal is read by itself, or as one with the literal behind it. -/
theorem markers_literal_append (h : isClosed body = true) (tail : List Char) :
    markers ('\'' :: body ++ tail) = joinLiteral ('\'' :: body) (markers tail) := by
  by_cases htail : tail.head? = some '\''
  · obtain ⟨rest, rfl⟩ := List.head?_eq_some_iff.mp htail
    have hlength : literalLength (body ++ '\'' :: rest) = body.length + (literalLength rest + 1) := by
      rw [literalLength_append_quote h]
      omega
    unfold markers
    rw [List.cons_append, Text.cut_cons, Text.cut_cons]
    simp [Marker.read, hlength, joinLiteral, List.take_length_add_append,
      List.drop_length_add_append]
  · have hlength := literalLength_of_isClosed h htail
    rw [joinLiteral_of_isLiteral (isLiteral_of_head? htail)]
    unfold markers
    rw [List.cons_append, Text.cut_cons]
    simp [Marker.read, hlength]

/-- **The pieces that are read are those that were written**, but for literals side by side and for
white space around names. -/
theorem markers_flatMap_pieces {pieces : List Marker} (h : ∀ piece ∈ pieces, piece.IsPiece) :
    markers (pieces.flatMap source) = settle pieces := by
  induction pieces with
  | nil => rfl
  | cons piece rest ih =>
    obtain ⟨hpiece, hrest⟩ := List.forall_mem_cons.mp h
    have hread (hliteral : piece.isLiteral = false) :
        markers (piece.source ++ rest.flatMap source) = piece.settled :: settle rest := by
      rw [markers_piece_append hpiece hliteral, ih hrest]
    rw [List.flatMap_cons]
    cases piece with
    | literal text =>
      obtain ⟨body, rfl, hbody⟩ := hpiece
      rw [settle, ← ih hrest]
      exact markers_literal_append hbody _
    | _ => exact hread rfl

/-! ### What the pieces are read as -/

theorem Marker.param?_settled (piece : Marker) : piece.settled.param? = piece.param? := by
  cases piece <;> rfl

theorem Marker.isLiteral_settled (piece : Marker) : piece.settled.isLiteral = piece.isLiteral := by
  cases piece <;> rfl

theorem filterMap_joinLiteral (text : List Char) (pieces : List Marker) :
    (joinLiteral text pieces).filterMap param? = pieces.filterMap param? := by
  unfold joinLiteral
  split <;> rfl

/-- Literals side by side bind no values, so no value is lost. -/
theorem filterMap_settle (pieces : List Marker) :
    (settle pieces).filterMap param? = pieces.filterMap param? := by
  induction pieces with
  | nil => rfl
  | cons piece rest ih =>
    have hrest : (piece.settled :: settle rest).filterMap param? =
        (piece :: rest).filterMap param? := by
      rw [List.filterMap_cons, List.filterMap_cons, param?_settled, ih]
    cases piece with
    | literal text =>
      rw [settle, filterMap_joinLiteral]
      exact ih
    | _ => exact hrest

theorem isPlain_joinLiteral {pieces : List Marker} (hbody : isClosed body = true)
    (h : ∀ piece ∈ pieces, piece.IsPlain) :
    ∀ piece ∈ joinLiteral ('\'' :: body) pieces, piece.IsPlain := by
  unfold joinLiteral
  split
  · obtain ⟨⟨more, rfl, hmore⟩, hrest⟩ := List.forall_mem_cons.mp h
    exact List.forall_mem_cons.mpr ⟨⟨_, rfl, isClosed_append_quote hbody hmore⟩, hrest⟩
  · exact List.forall_mem_cons.mpr ⟨⟨body, rfl, hbody⟩, h⟩

/-- What is read where pieces have been written is closed again. -/
theorem isPlain_settle {pieces : List Marker} (h : ∀ piece ∈ pieces, piece.IsPiece) :
    ∀ piece ∈ settle pieces, piece.IsPlain := by
  induction pieces with
  | nil => nofun
  | cons piece rest ih =>
    obtain ⟨hpiece, hrest⟩ := List.forall_mem_cons.mp h
    have hplain : ∀ next ∈ piece.settled :: settle rest, next.IsPlain :=
      List.forall_mem_cons.mpr ⟨hpiece.isPlain_settled, ih hrest⟩
    cases piece with
    | literal text =>
      obtain ⟨body, rfl, hbody⟩ := hpiece
      exact isPlain_joinLiteral hbody (ih hrest)
    | _ => exact hplain

theorem isChain_joinLiteral (text : List Char) {pieces : List Marker}
    (h : pieces.IsChain Separate) : (joinLiteral text pieces).IsChain Separate := by
  unfold joinLiteral
  split
  · rename_i more rest
    rw [List.isChain_cons] at h ⊢
    exact h
  · rename_i hhead
    refine List.isChain_cons.mpr ⟨fun next hnext => .inr ?_, h⟩
    cases next with
    | literal more =>
      obtain ⟨rest, rfl⟩ := List.head?_eq_some_iff.mp hnext
      exact absurd rfl (hhead more rest)
    | _ => rfl

/-- No two literals are side by side in what is read. -/
theorem isChain_settle (pieces : List Marker) : (settle pieces).IsChain Separate := by
  induction pieces with
  | nil => exact .nil
  | cons piece rest ih =>
    have hchain (hliteral : piece.isLiteral = false) :
        (piece.settled :: settle rest).IsChain Separate :=
      List.isChain_cons.mpr
        ⟨fun _ _ => .inl (by rw [isLiteral_settled, hliteral]), ih⟩
    cases piece with
    | literal text => exact isChain_joinLiteral text ih
    | _ => exact hchain rfl

end Reading

/-! ### Printing -/

/-- **Pieces side by side are printed as they are**, if all values are there and no neighbours clash.
There is a template in any case.  Each column and table is quoted, each place of a value is marked,
and string literals and other characters are kept, behind one space where a marker or a literal with a
backslash stands directly behind a word or a mark.  The values are those of the places, in this
order.  The numbers of arguments are read as numbers below 2⁶⁴, so the text has to be shorter than
that. -/
theorem printText_pieces (backend : Backend) {pieces : List Marker} {params : Params}
    (hpieces : ∀ piece ∈ pieces, piece.IsPiece)
    (hparams : ∀ name ∈ pieces.filterMap Marker.param?, (params.get? name).isSome = true)
    (hlength : (pieces.flatMap Marker.source).length < 2 ^ 64) :
    (∃ template, Template.ofText backend (String.ofList (pieces.flatMap Marker.source)) params =
      .ok template) ∧
    (clashesFrom backend none false (settle pieces) = false →
      ∃ chunks, printText backend (String.ofList (pieces.flatMap Marker.source)) params =
          .ok chunks ∧
        (∀ count, Chunk.textFrom backend count chunks =
          renderFrom backend count (spacedFrom none (settle pieces))) ∧
        (Chunk.values chunks).map some =
          (pieces.filterMap Marker.param?).map params.get?) := by
  have hmarkers : markers (String.ofList (pieces.flatMap Marker.source)).toList = settle pieces := by
    rw [String.toList_ofList, markers_flatMap_pieces hpieces]
  have hnames : placeholders (String.ofList (pieces.flatMap Marker.source)).toList =
      pieces.filterMap Marker.param? := by
    rw [placeholders, hmarkers, filterMap_settle]
  rw [← hnames] at hparams
  refine ⟨exists_template backend hparams, fun hclash => ?_⟩
  have hprints := @printText_markers backend (String.ofList (pieces.flatMap Marker.source)) params
  rw [hmarkers, hnames] at hprints
  rw [hnames] at hparams
  exact hprints (isPlain_settle hpieces) (isChain_settle pieces) hclash hparams (by
    rwa [String.length_ofList])

/-- A column behind a word, literals that are one, a value and a mark, with nothing between them. -/
def crowdedPieces : List Marker :=
  [.char 'a', .column " b ".toList, .literal "'x'".toList, .literal "'y'".toList,
    .param ['v'], .char '+', .char '$']

theorem isPiece_of_mem_crowdedPieces : ∀ piece ∈ crowdedPieces, piece.IsPiece := by
  have hcolumn : (Marker.column " b ".toList).IsPiece := isHeld_of_isName (by decide) _
  have hparam : (Marker.param ['v']).IsPiece := isHeld_of_isName (by decide) _
  intro piece hpiece
  simp only [crowdedPieces, List.mem_cons, List.not_mem_nil, or_false] at hpiece
  rcases hpiece with rfl | rfl | rfl | rfl | rfl | rfl | rfl
  · show 'a' ∉ Marker.delimiters
    decide
  · exact hcolumn
  · exact ⟨"x'".toList, by decide, by decide⟩
  · exact ⟨"y'".toList, by decide, by decide⟩
  · exact hparam
  · show '+' ∉ Marker.delimiters
    decide
  · show '$' ∉ Marker.delimiters
    decide

/-- The one space is the one between the word and the column. -/
theorem crowdedPieces_printed :
    (∀ piece ∈ crowdedPieces, piece.IsPiece) ∧
      clashesFrom .postgres none false (settle crowdedPieces) = false ∧
      crowdedPieces.flatMap Marker.source = "a[[ b ]]'x''y'{:v}+$".toList ∧
      ∃ chunks, printText .postgres (String.ofList (crowdedPieces.flatMap Marker.source))
          (.single "v" (.text "z")) = .ok chunks ∧
        Chunk.textFrom .postgres 0 chunks = "a \"b\"'x''y'$1+$".toList ∧
        (Chunk.values chunks).map some = [some (.text "z")] := by
  have hclash : clashesFrom .postgres none false (settle crowdedPieces) = false := by decide
  have hparams : ∀ name ∈ crowdedPieces.filterMap Marker.param?,
      ((Params.single "v" (.text "z")).get? name).isSome = true := by decide
  obtain ⟨-, hprints⟩ := printText_pieces .postgres isPiece_of_mem_crowdedPieces hparams (by decide)
  obtain ⟨chunks, hchunks, htext, hvalues⟩ := hprints hclash
  refine ⟨isPiece_of_mem_crowdedPieces, hclash, by decide, chunks, hchunks, ?_, ?_⟩
  · rw [htext]
    decide
  · rw [hvalues]
    decide

/-- A column and a bare mark behind it: the bare mark is doubled, but the reader of the template finds
three marks and takes the first two of them for the doubled one.  So the bare mark is printed in front
of the column. -/
theorem columnMark_swapped :
    (∀ piece ∈ [Marker.column ['a'], .char '?'], piece.IsPiece) ∧
      printText .sqlite "[[a]]?" .empty = .ok [.text ['?'], .text "\"a\"".toList] ∧
      ¬ ∃ chunks, printText .sqlite "[[a]]?" .empty = .ok chunks ∧
        Chunk.textFrom .sqlite 0 chunks =
          renderFrom .sqlite 0 (spacedFrom none (settle [.column ['a'], .char '?'])) := by
  have hprinted : printText .sqlite "[[a]]?" .empty = .ok [.text ['?'], .text "\"a\"".toList] := by
    decide
  refine ⟨?_, hprinted, ?_⟩
  · intro piece hpiece
    rcases List.mem_pair.mp hpiece with rfl | rfl
    · exact isHeld_of_isName (by decide) _
    · show '?' ∉ Marker.delimiters
      decide
  · rintro ⟨chunks, hchunks, htext⟩
    rw [hprinted] at hchunks
    obtain rfl := Except.ok.inj hchunks
    exact absurd htext (by decide)

-- A letter behind the number of a mark makes it a word that is no number: nothing is printed then, and
-- the value is not bound.
example : printText .postgres "{:x}b" (.single "x" (.text "v")) = .ok [] := by decide

end PagedSearch
