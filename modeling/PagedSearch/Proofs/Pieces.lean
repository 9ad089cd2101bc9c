import Mathlib.Data.List.Chain
import PagedSearch.Proofs.Closed
import PagedSearch.Sql.Marker

/-!
# Texts made of pieces

The text of a fragment can be written piece by piece: characters, string literals and markers.  If
every marker and every literal stands between breaks, that is, between spaces, commas and
parentheses, then no piece can swallow a part of its neighbour, and reading the text finds the
pieces that it was written from.

## Main definitions

* `Marker.source` — a piece as it is written.
* `Marker.IsPiece`, `Marker.settled` — pieces that can be written, and how they are read.
* `Marker.IsWritten`, `Marker.Apart` — pieces that are read back as they are written, and pieces that
  can stand side by side.
* `Composed` — texts whose pieces stand between breaks.
* `placeholders` — the names of the bound values that a text refers to.
* `Refers` — composed texts that refer to given names.

## Main results

* `markers_piece_append` — a piece that is no literal is read by itself.
* `markers_flatMap_source` — the pieces that are read are those that were written.
* `Refers.append`, `Refers.separated`, `Refers.call` — how composed texts are put together.
-/

namespace PagedSearch

namespace Marker

/-! ### Pieces as they are written -/

/-- A piece as it is written in a text. -/
def source : Marker → List Char
  | literal text => text
  | column name => '[' :: '[' :: (name ++ [']', ']'])
  | table name => '{' :: '{' :: (name ++ ['}', '}'])
  | param name => '{' :: ':' :: (name ++ ['}'])
  | char c => [c]

/-- Whether the text behind an opening quote closes it at its end and not before. -/
def isClosed : List Char → Bool
  | [] => false
  | ['\''] => true
  | '\'' :: '\'' :: rest => isClosed rest
  | '\'' :: _ => false
  | _ :: rest => isClosed rest

/-- The characters that start or end a marker, a string literal or a quoted name. -/
def delimiters : List Char := ['\'', '"', '\x60', '[', ']', '{', '}']

/-- A name that can stand in a marker: it is not empty, there is no line break and no single quote in
it, and the marker does not end before it does. -/
structure IsHeld (close name : List Char) : Prop where
  /-- There is a name. -/
  ne_nil : name ≠ []
  /-- It is on one line. -/
  line : '\n' ∉ name
  /-- No literal starts in it. -/
  quote : '\'' ∉ name
  /-- The marker ends behind it and not before. -/
  close : ∀ before after, name ++ close = before ++ (close ++ after) → after = []

/-- A piece that can be written: a marker with its name, a closed string literal, or any character
but quotes, brackets and braces. -/
def IsPiece : Marker → Prop
  | literal text => ∃ body, text = '\'' :: body ∧ isClosed body = true
  | column name => IsHeld [']', ']'] name
  | table name => IsHeld ['}', '}'] name
  | param name => IsHeld ['}'] name
  | char c => c ∉ delimiters

/-- A piece as it is read, without white space around the name of a column or a table. -/
def settled : Marker → Marker
  | column name => column (Text.trimChars name)
  | table name => table (Text.trimChars name)
  | piece => piece

/-- Whether a piece is a string literal. -/
def isLiteral : Marker → Bool
  | literal _ => true
  | _ => false

/-- The characters with a meaning of their own for one of the readers of a fragment's text: quotes,
the brackets of markers, and the marks that templates have for values. -/
def specialChars : List Char := ['\'', '"', '\x60', '[', ']', '{', '}', '?', '$']

/-- A name that a marker with the given closing character can hold. -/
def isName (close : Char) (name : List Char) : Bool :=
  !name.isEmpty && name.all fun c => c ≠ close && c ≠ '\n' && c ≠ '\''

/-- A piece that is read back as it is written, if it is told from its neighbours. -/
def IsWritten : Marker → Prop
  | literal text => ∃ body, text = '\'' :: body ∧ isClosed body = true
  | column name => isName ']' name = true ∧ Text.trimChars name = name
  | table name => isName '}' name = true ∧ Text.trimChars name = name
  | param name => isName '}' name = true
  | char c => c ∉ specialChars

theorem isWritten_literal_iff {text : List Char} :
    (literal text).IsWritten ↔ text.head? = some '\'' ∧ isClosed text.tail = true := by
  cases text with
  | nil => simp [IsWritten]
  | cons c body => simp [IsWritten]

instance : (piece : Marker) → Decidable piece.IsWritten
  | literal _ => decidable_of_iff _ isWritten_literal_iff.symm
  | column name => inferInstanceAs (Decidable (isName ']' name = true ∧ Text.trimChars name = name))
  | table name => inferInstanceAs (Decidable (isName '}' name = true ∧ Text.trimChars name = name))
  | param name => inferInstanceAs (Decidable (isName '}' name = true))
  | char c => inferInstanceAs (Decidable (c ∉ specialChars))

/-- Whether a piece is a single character. -/
def isChar : Marker → Bool
  | char _ => true
  | _ => false

/-- Whether a piece is a character that ends whatever stands before it. -/
def isBreak : Marker → Bool
  | char c => Reading.isBreak c
  | _ => false

/-- Pieces that can stand side by side: next to a marker or a literal there is a break. -/
def Apart (piece next : Marker) : Prop :=
  (piece.isChar = true ∨ next.isBreak = true) ∧ (next.isChar = true ∨ piece.isBreak = true)

instance (piece next : Marker) : Decidable (piece.Apart next) :=
  inferInstanceAs (Decidable (_ ∧ _))

/-- The name of the bound value that a piece stands for. -/
def param? : Marker → Option String
  | param name => some (String.ofList name)
  | _ => none

theorem isChar_of_isBreak {piece : Marker} (h : piece.isBreak = true) : piece.isChar = true := by
  cases piece <;> simp_all [isBreak, isChar]

theorem apart_of_isBreak_left {piece : Marker} (h : piece.isBreak = true) (next : Marker) :
    piece.Apart next :=
  ⟨.inl (isChar_of_isBreak h), .inr h⟩

theorem apart_of_isBreak_right (piece : Marker) {next : Marker} (h : next.isBreak = true) :
    piece.Apart next :=
  ⟨.inr h, .inl (isChar_of_isBreak h)⟩

end Marker

/-- The names of the bound values that a text refers to, in the order of their places.  What is in a
string literal is no place. -/
def placeholders (text : List Char) : List String := (markers text).filterMap Marker.param?

/-! ### Reading pieces back -/

section Reading

open Marker

theorem literalLength_of_isClosed {body tail : List Char} (h : isClosed body = true)
    (htail : tail.head? ≠ some '\'') : literalLength (body ++ tail) = body.length := by
  fun_induction isClosed body with
  | case1 => cases h
  | case2 =>
    cases tail with
    | nil => rfl
    | cons c rest =>
      have hc : c ≠ '\'' := by simpa using htail
      simp [literalLength, hc]
  | case3 rest ih => simp [literalLength, ih h]
  | case4 => cases h
  | case5 c rest hone htwo hquote ih =>
    have hc : c ≠ '\'' := fun heq => hquote heq
    simp [literalLength, hc, ih h]

theorem before?_append {close name : List Char}
    (h : ∀ before after, name ++ close = before ++ (close ++ after) → after = [])
    (hclose : close ≠ []) (tail : List Char) :
    before? close (name ++ (close ++ tail)) = some name := by
  induction name with
  | nil =>
    obtain ⟨c, more, rfl⟩ := List.exists_cons_of_ne_nil hclose
    simp [before?]
  | cons c rest ih =>
    have hnot : close.isPrefixOf (c :: (rest ++ (close ++ tail))) = false := by
      refine Bool.eq_false_iff.mpr fun hprefix => ?_
      -- Otherwise the marker would end at the start of the name.
      have hclosePrefix : close <+: (c :: rest ++ close) ++ tail := by
        rw [List.append_assoc]
        exact List.isPrefixOf_iff_prefix.mp hprefix
      obtain ⟨after, hafter⟩ : close <+: c :: rest ++ close :=
        List.prefix_of_prefix_length_le hclosePrefix (List.prefix_append _ _) (by
          rw [List.length_append, List.length_cons]
          omega)
      obtain rfl : after = [] := h [] after hafter.symm
      have hlength := congrArg List.length hafter
      simp only [List.append_nil, List.length_append, List.length_cons] at hlength
      omega
    have hrest : before? close (rest ++ (close ++ tail)) = some rest :=
      ih fun before after heq => h (c :: before) after (by rw [List.cons_append, heq]; rfl)
    rw [List.cons_append, before?, hnot, hrest]
    rfl

theorem name?_append {close name : List Char} (h : IsHeld close name) (hclose : close ≠ [])
    (tail : List Char) : name? close (name ++ (close ++ tail)) = some name := by
  rw [name?, before?_append h.close hclose]
  simp [Option.filter, h.ne_nil, h.line, h.quote]

/-- A piece that is no literal is read by itself, whatever follows it. -/
theorem markers_piece_append {piece : Marker} (h : piece.IsPiece)
    (hliteral : piece.isLiteral = false) (tail : List Char) :
    markers (piece.source ++ tail) = piece.settled :: markers tail := by
  unfold markers
  cases piece with
  | literal text => cases hliteral
  | column name =>
    have hread := name?_append h (List.cons_ne_nil _ _) tail
    have hdrop : (name ++ ']' :: ']' :: tail).drop (name.length + 2) = tail := by
      simp [← List.drop_drop]
    simp only [List.cons_append, List.nil_append] at hread
    rw [source, List.cons_append, Text.cut_cons]
    simp [Marker.read, Marker.read?, hread, hdrop, settled]
  | table name =>
    have hread := name?_append h (List.cons_ne_nil _ _) tail
    have hdrop : (name ++ '}' :: '}' :: tail).drop (name.length + 2) = tail := by
      simp [← List.drop_drop]
    simp only [List.cons_append, List.nil_append] at hread
    rw [source, List.cons_append, Text.cut_cons]
    simp [Marker.read, Marker.read?, hread, hdrop, settled]
  | param name =>
    have hread := name?_append h (List.cons_ne_nil _ _) tail
    have hdrop : (name ++ '}' :: tail).drop (name.length + 1) = tail := by
      simp [← List.drop_drop]
    simp only [List.cons_append, List.nil_append] at hread
    rw [source, List.cons_append, Text.cut_cons]
    simp [Marker.read, Marker.read?, hread, hdrop, settled]
  | char c =>
    simp only [IsPiece, delimiters, List.mem_cons, List.not_mem_nil, or_false, not_or] at h
    rw [source, List.cons_append, Text.cut_cons]
    simp [Marker.read, Marker.read?, h, settled]

theorem isHeld_of_isName {close : Char} {name : List Char} (h : isName close name = true)
    (more : List Char) : IsHeld (close :: more) name := by
  simp only [isName, Bool.and_eq_true, Bool.not_eq_true', List.all_eq_true,
    decide_eq_true_eq] at h
  obtain ⟨hne, hall⟩ := h
  refine ⟨by simpa using hne, fun hmem => (hall _ hmem).1.2 rfl, fun hmem => (hall _ hmem).2 rfl, ?_⟩
  intro before after heq
  -- The closing character is not in the name, so it stands behind it.
  have hle : name.length ≤ before.length := by
    by_contra hlt
    have hget : name[before.length]? = some close := by
      rw [← List.getElem?_append_left (by omega), heq, List.getElem?_append_right (Nat.le_refl _),
        Nat.sub_self]
      rfl
    exact (hall _ (List.mem_of_getElem? hget)).1.1 rfl
  have hlength := congrArg List.length heq
  simp only [List.length_append, List.length_cons] at hlength
  exact List.length_eq_zero_iff.mp (by omega)

theorem Marker.IsWritten.isPiece {piece : Marker} (h : piece.IsWritten) : piece.IsPiece := by
  cases piece with
  | literal text => exact h
  | column name => exact isHeld_of_isName h.1 _
  | table name => exact isHeld_of_isName h.1 _
  | param name => exact isHeld_of_isName h _
  | char c =>
    have hstart : delimiters <+: specialChars := by decide
    exact fun hmem => h (hstart.subset hmem)

theorem Marker.IsWritten.settled_eq {piece : Marker} (h : piece.IsWritten) :
    piece.settled = piece := by
  cases piece with
  | column name => exact congrArg column h.2
  | table name => exact congrArg table h.2
  | _ => rfl

/-- The first piece of a text is the one that was written first, if what follows it is apart. -/
theorem markers_source_append {piece : Marker} (h : piece.IsWritten) {tail : List Char}
    (htail : piece.isChar = true ∨ tail.head? ≠ some '\'') :
    markers (piece.source ++ tail) = piece :: markers tail := by
  have hread (hliteral : piece.isLiteral = false) :
      markers (piece.source ++ tail) = piece :: markers tail := by
    rw [markers_piece_append h.isPiece hliteral, h.settled_eq]
  cases piece with
  | literal text =>
    obtain ⟨body, rfl, hbody⟩ := h
    have hlength := literalLength_of_isClosed hbody (htail.resolve_left (by simp [isChar]))
    unfold markers
    rw [source, List.cons_append, Text.cut_cons]
    simp [Marker.read, hlength]
  | _ => exact hread rfl

/-- The pieces that are read are those that were written, if all of them stand apart. -/
theorem markers_flatMap_source {pieces : List Marker} (h : ∀ piece ∈ pieces, piece.IsWritten)
    (hchain : pieces.IsChain Apart) : markers (pieces.flatMap source) = pieces := by
  induction pieces with
  | nil => rfl
  | cons piece rest ih =>
    rw [List.forall_mem_cons] at h
    obtain ⟨hpiece, hrest⟩ := h
    rw [List.isChain_cons] at hchain
    obtain ⟨hapart, hchain⟩ := hchain
    have htail : piece.isChar = true ∨ (rest.flatMap source).head? ≠ some '\'' := by
      cases rest with
      | nil => exact .inr (by simp)
      | cons next rest =>
        -- what ends a literal is a break, and no quote is a break
        refine (hapart next rfl).1.imp_right fun hbreak => ?_
        cases next with
        | char c =>
          simp only [List.flatMap_cons, source, List.cons_append, List.head?_cons]
          intro hquote
          rw [Option.some.inj hquote] at hbreak
          exact absurd hbreak (by decide)
        | _ => simp [Marker.isBreak] at hbreak
    rw [List.flatMap_cons, markers_source_append hpiece htail, ih hrest hchain]

end Reading

/-! ### Composed texts -/

section Composed

open Marker Reading

/-- A text that can be read back from its pieces, since every marker and every literal stands
between breaks. -/
structure Composed (text : List Char) : Prop where
  /-- The text is what its pieces are written as. -/
  source_eq : (markers text).flatMap Marker.source = text
  /-- The pieces can be read back. -/
  written : ∀ piece ∈ markers text, piece.IsWritten
  /-- They stand apart. -/
  apart : (markers text).IsChain Apart

instance (text : List Char) : Decidable (Composed text) :=
  decidable_of_iff ((markers text).flatMap Marker.source = text ∧
      (∀ piece ∈ markers text, piece.IsWritten) ∧ (markers text).IsChain Apart)
    ⟨fun ⟨h, h', h''⟩ => ⟨h, h', h''⟩, fun ⟨h, h', h''⟩ => ⟨h, h', h''⟩⟩

theorem composed_flatMap_source {pieces : List Marker} (h : ∀ piece ∈ pieces, piece.IsWritten)
    (hchain : pieces.IsChain Apart) : Composed (pieces.flatMap source) := by
  have hmarkers := markers_flatMap_source h hchain
  constructor
  · rw [hmarkers]
  · rwa [hmarkers]
  · rwa [hmarkers]

/-- A text that ends with a character that ends all before it. -/
def EndsApart (text : List Char) : Prop := ∃ c, text.getLast? = some c ∧ Reading.isBreak c = true

theorem getLast?_of_isClosed {body : List Char} (h : isClosed body = true) :
    body.getLast? = some '\'' := by
  fun_induction isClosed body with
  | case1 => cases h
  | case2 => rfl
  | case3 rest ih => simp [List.getLast?_cons, ih h]
  | case4 => cases h
  | case5 c rest hone htwo hquote ih => simp [List.getLast?_cons, ih h]

/-- Of all pieces only a character ends with a break. -/
theorem Marker.isBreak_of_getLast? {piece : Marker} (h : piece.IsWritten) {c : Char}
    (hc : Reading.isBreak c = true) (hlast : piece.source.getLast? = some c) :
    piece.isBreak = true := by
  have hclosed (mark : Char) (hmark : Reading.isBreak mark = false)
      (heq : piece.source.getLast? = some mark) : piece.isBreak = true := by
    rw [heq] at hlast
    obtain rfl := Option.some.inj hlast
    rw [hc] at hmark
    cases hmark
  cases piece with
  | literal text =>
    obtain ⟨body, rfl, hbody⟩ := h
    exact hclosed '\'' rfl (by simp [source, List.getLast?_cons, getLast?_of_isClosed hbody])
  | column name => exact hclosed ']' rfl (by simp [source, List.getLast?_cons])
  | table name => exact hclosed '}' rfl (by simp [source, List.getLast?_cons])
  | param name => exact hclosed '}' rfl (by simp [source, List.getLast?_cons])
  | char d =>
    obtain rfl := Option.some.inj hlast
    exact hc

/-- Of all pieces only a character starts with a break. -/
theorem Marker.isBreak_of_head? {piece : Marker} (h : piece.IsWritten) {c : Char}
    (hc : Reading.isBreak c = true) (hhead : piece.source.head? = some c) :
    piece.isBreak = true := by
  cases piece with
  | literal text =>
    obtain ⟨body, rfl, hbody⟩ := h
    obtain rfl := Option.some.inj hhead
    exact absurd hc (by decide)
  | char d =>
    obtain rfl := Option.some.inj hhead
    exact hc
  | _ =>
    obtain rfl := Option.some.inj hhead
    exact absurd hc (by decide)

theorem Marker.source_ne_nil {piece : Marker} (h : piece.IsWritten) : piece.source ≠ [] := by
  cases piece with
  | literal text =>
    obtain ⟨body, rfl, -⟩ := h
    exact List.cons_ne_nil _ _
  | _ => exact List.cons_ne_nil _ _

variable {first second middle text : List Char}

theorem Composed.isBreak_of_mem_getLast? (h : Composed text) (hends : EndsApart text) :
    ∀ piece ∈ (markers text).getLast?, piece.isBreak = true := by
  obtain ⟨c, htext, hc⟩ := hends
  intro piece hpiece
  obtain ⟨before, hbefore⟩ := List.getLast?_eq_some_iff.mp hpiece
  have hwritten : piece.IsWritten := h.written piece (List.mem_of_getLast? hpiece)
  have hlast : (before.flatMap source ++ piece.source).getLast? = some c := by
    have hsource := h.source_eq
    rw [hbefore, List.flatMap_append, List.flatMap_singleton] at hsource
    rw [hsource, htext]
  rw [List.getLast?_append_of_ne_nil _ (source_ne_nil hwritten)] at hlast
  exact isBreak_of_getLast? hwritten hc hlast

theorem Composed.isBreak_of_mem_head? (h : Composed text) (hstarts : StartsApart text) :
    ∀ piece ∈ (markers text).head?, piece.isBreak = true := by
  obtain ⟨c, rest, htext, hc⟩ := hstarts
  intro piece hpiece
  obtain ⟨after, hafter⟩ := List.head?_eq_some_iff.mp hpiece
  have hwritten : piece.IsWritten := h.written piece (List.mem_of_head? hpiece)
  have hhead : (piece.source ++ after.flatMap source).head? = some c := by
    have hsource := h.source_eq
    rw [hafter, List.flatMap_cons] at hsource
    rw [hsource, htext, List.head?_cons]
  rw [List.head?_append_of_ne_nil _ (source_ne_nil hwritten)] at hhead
  exact isBreak_of_head? hwritten hc hhead

theorem Composed.isChain_append (h : Composed first) (h' : Composed second)
    (hbetween : EndsApart first ∨ StartsApart second) :
    (markers first ++ markers second).IsChain Apart := by
  refine List.isChain_append.mpr ⟨h.apart, h'.apart, ?_⟩
  intro piece hpiece next hnext
  rcases hbetween with hends | hstarts
  · exact apart_of_isBreak_left (h.isBreak_of_mem_getLast? hends piece hpiece) next
  · exact apart_of_isBreak_right piece (h'.isBreak_of_mem_head? hstarts next hnext)

/-- The pieces of two composed texts with a break between them are the pieces of both. -/
theorem Composed.markers_append (h : Composed first) (h' : Composed second)
    (hbetween : EndsApart first ∨ StartsApart second) :
    markers (first ++ second) = markers first ++ markers second := by
  have hwritten : ∀ piece ∈ markers first ++ markers second, piece.IsWritten :=
    List.forall_mem_append.mpr ⟨h.written, h'.written⟩
  have hmarkers := markers_flatMap_source hwritten (h.isChain_append h' hbetween)
  rwa [List.flatMap_append, h.source_eq, h'.source_eq] at hmarkers

theorem Composed.append (h : Composed first) (h' : Composed second)
    (hbetween : EndsApart first ∨ StartsApart second) : Composed (first ++ second) := by
  have hwritten : ∀ piece ∈ markers first ++ markers second, piece.IsWritten :=
    List.forall_mem_append.mpr ⟨h.written, h'.written⟩
  have hcomposed := composed_flatMap_source hwritten (h.isChain_append h' hbetween)
  rwa [List.flatMap_append, h.source_eq, h'.source_eq] at hcomposed

/-! ### Texts that refer to values -/

/-- A composed text that refers to the values with the given names, in this order. -/
structure Refers (text : List Char) (names : List String) : Prop where
  /-- The text is composed. -/
  composed : Composed text
  /-- These are the names in it. -/
  placeholders_eq : placeholders text = names

instance (text : List Char) (names : List String) : Decidable (Refers text names) :=
  decidable_of_iff (Composed text ∧ placeholders text = names)
    ⟨fun ⟨h, h'⟩ => ⟨h, h'⟩, fun ⟨h, h'⟩ => ⟨h, h'⟩⟩

/-- A text without values that can stand between any two composed texts. -/
structure Divides (text : List Char) : Prop where
  /-- The text refers to no value. -/
  refers : Refers text []
  /-- It starts with a break. -/
  starts : StartsApart text
  /-- It ends with a break. -/
  ends : EndsApart text

/-- Whether a text refers to no value and can stand between any two composed texts. -/
def isDividing (text : List Char) : Bool :=
  text.head?.any Reading.isBreak && text.getLast?.any Reading.isBreak && decide (Refers text [])

theorem divides_of_isDividing (h : isDividing text = true) : Divides text := by
  unfold isDividing at h
  rw [Bool.and_eq_true, Bool.and_eq_true, decide_eq_true_eq] at h
  obtain ⟨⟨hstarts, hends⟩, hrefers⟩ := h
  refine ⟨hrefers, ?_, ?_⟩
  · cases text with
    | nil => cases hstarts
    | cons c rest => exact ⟨c, rest, rfl, hstarts⟩
  · cases hlast : text.getLast? with
    | none =>
      rw [hlast] at hends
      cases hends
    | some c =>
      rw [hlast] at hends
      exact ⟨c, hlast, hends⟩

variable {names others : List String}

theorem Refers.append (h : Refers first names) (h' : Refers second others)
    (hbetween : EndsApart first ∨ StartsApart second) :
    Refers (first ++ second) (names ++ others) := by
  refine ⟨h.composed.append h'.composed hbetween, ?_⟩
  rw [placeholders, h.composed.markers_append h'.composed hbetween, List.filterMap_append]
  exact congrArg₂ _ h.placeholders_eq h'.placeholders_eq

/-- Two composed texts with a text between them that divides them. -/
theorem Refers.divided (h : Refers first names) (hmiddle : Divides middle)
    (h' : Refers second others) : Refers (first ++ (middle ++ second)) (names ++ others) := by
  have hrest := hmiddle.refers.append h' (.inl hmiddle.ends)
  refine h.append hrest (.inr ?_)
  obtain ⟨c, rest, rfl, hc⟩ := hmiddle.starts
  exact ⟨c, _, rfl, hc⟩

theorem Refers.call {name : List Char} (hname : Refers name []) (h : Refers text names) :
    Refers (Reading.call name text) names := by
  have hopen : Divides ['('] := divides_of_isDividing (by decide)
  have hclose : Refers [')'] [] := by decide
  have hinside := h.append hclose (.inr ⟨_, _, rfl, rfl⟩)
  have hcall := hname.divided hopen hinside
  rwa [List.append_nil] at hcall

theorem Refers.parenthesised (h : Refers text names) : Refers ('(' :: (text ++ [')'])) names := by
  have hname : Refers [] [] := by decide
  exact hname.call h

/-- Several composed texts with a text between them that divides them. -/
theorem refers_intercalate {separator : String} (hseparator : Divides separator.toList)
    {texts : List String} (h : ∀ text ∈ texts, Composed text.toList) :
    Refers (separator.intercalate texts).toList
      (texts.flatMap fun text => placeholders text.toList) := by
  induction texts with
  | nil =>
    rw [String.intercalate_nil]
    decide
  | cons first rest ih =>
    have hfirst : Refers first.toList (placeholders first.toList) :=
      ⟨h first List.mem_cons_self, rfl⟩
    have hrest := ih fun text htext => h text (List.mem_cons_of_mem _ htext)
    cases rest with
    | nil =>
      rw [String.intercalate_singleton, List.flatMap_singleton]
      exact hfirst
    | cons second rest =>
      rw [String.intercalate_cons_cons, String.toList_append, String.toList_append,
        List.append_assoc]
      exact hfirst.divided hseparator hrest

theorem refers_of_isWritten {piece : Marker} (h : piece.IsWritten) :
    Refers piece.source piece.param?.toList := by
  have hwritten : ∀ one ∈ [piece], one.IsWritten := by simpa using h
  have hmarkers := markers_flatMap_source hwritten (List.isChain_singleton piece)
  have hcomposed := composed_flatMap_source hwritten (List.isChain_singleton piece)
  rw [List.flatMap_singleton] at hmarkers hcomposed
  refine ⟨hcomposed, ?_⟩
  rw [placeholders, hmarkers]
  cases piece <;> rfl

theorem isName_iff {close : Char} {name : List Char} :
    isName close name = true ↔ name ≠ [] ∧ ∀ c ∈ name, c ≠ close ∧ c ≠ '\n' ∧ c ≠ '\'' := by
  simp [isName, and_assoc]

theorem refers_paramMarker {name : String} (hne : name ≠ "")
    (h : ∀ c ∈ name.toList, c ≠ '}' ∧ c ≠ '\n' ∧ c ≠ '\'') :
    Refers (Fragment.paramMarker name).toList [name] := by
  have hwritten : (Marker.param name.toList).IsWritten := isName_iff.mpr ⟨by simpa using hne, h⟩
  have hrefers := refers_of_isWritten hwritten
  simpa [Fragment.paramMarker, source, param?] using hrefers

theorem refers_columnMarker {name : List Char} (hne : name ≠ [])
    (h : ∀ c ∈ name, c ≠ ']' ∧ c ≠ '\n' ∧ c ≠ '\'') (htrim : Text.trimChars name = name) :
    Refers (Fragment.columnMarker (String.ofList name)).toList [] := by
  have hwritten : (Marker.column name).IsWritten := ⟨isName_iff.mpr ⟨hne, h⟩, htrim⟩
  have hrefers := refers_of_isWritten hwritten
  simpa [Fragment.columnMarker, source, param?] using hrefers

/-- A text without quotes can be written as a literal. -/
theorem isWritten_quoted (h : '\'' ∉ text) :
    (Marker.literal ('\'' :: (text ++ ['\'']))).IsWritten := by
  refine ⟨_, rfl, ?_⟩
  induction text with
  | nil => rfl
  | cons c rest ih =>
    obtain ⟨hc, hrest⟩ : '\'' ≠ c ∧ '\'' ∉ rest := by simpa using h
    simpa [isClosed, hc.symm] using ih hrest

theorem refers_literal (h : '\'' ∉ text) : Refers ('\'' :: (text ++ ['\''])) [] :=
  refers_of_isWritten (isWritten_quoted h)

end Composed

end PagedSearch
