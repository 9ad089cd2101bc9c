import PagedSearch.Proofs.Conjuncts
import PagedSearch.Proofs.Neighbours

/-!
# String literals as the reader of a fragment sees them

The reader of a fragment comes to a string literal and leaves it behind its closing quote.  What is
in between is nothing to it.  Neither can it reach back: a marker that has been opened in front of
the literal and not closed there is no marker, since it would have a quote in its name.  So the
pieces in front of a literal and those behind it are the same whatever the literal says, and they
are those of the two texts by themselves.

## Main definitions

* `sqlLiteral` — a text as a string literal, its quotes doubled.
* `ComesTo` — the reader of a text comes to its second part with nothing open.

## Main results

* `read_append_quote` — a piece that ends in front of a quote does not depend on what is behind it.
* `markers_sqlLiteral_between` — the pieces around a literal are those of the texts around it.
* `literal_isOpaque` — the template of a fragment with a literal, for all literals in its place.
-/

namespace PagedSearch

/-! ### Literals -/

/-- A text as a string literal.  Its quotes are doubled. -/
def sqlLiteral (content : List Char) : List Char :=
  '\'' :: (content.flatMap (fun c => if c = '\'' then ['\'', '\''] else [c]) ++ ['\''])

/-- The reader of a text comes to its second part with nothing open: its first pieces are the first
part. -/
def ComesTo (before behind : List Char) : Prop :=
  ∃ pieces others, Text.cut Marker.read (before ++ behind) = pieces ++ others ∧
    pieces.flatMap Prod.snd = before

theorem isClosed_tail_sqlLiteral (content : List Char) :
    Marker.isClosed (sqlLiteral content).tail = true := by
  rw [sqlLiteral, List.tail_cons]
  induction content with
  | nil => rfl
  | cons c content ih =>
    by_cases hc : c = '\''
    · subst hc
      exact ih
    · simpa [Marker.isClosed, hc] using ih

theorem getLast?_sqlLiteral (content : List Char) :
    (sqlLiteral content).getLast? = some '\'' := by
  rw [sqlLiteral, ← List.cons_append, List.getLast?_concat]

theorem backslash_mem_sqlLiteral {content : List Char} :
    '\\' ∈ sqlLiteral content ↔ '\\' ∈ content := by
  have hdoubled (c : Char) :
      '\\' ∈ (if c = '\'' then ['\'', '\''] else [c]) ↔ c = '\\' := by
    by_cases hc : c = '\''
    · simp [hc]
    · simp [hc, eq_comm]
  simp [sqlLiteral, List.mem_flatMap, hdoubled]

/-! ### In front of a quote -/

section Quote

open Marker

variable {close body name : List Char}

theorem prefix_of_prefix_append_quote (hclose : '\'' ∉ close) {tail : List Char}
    (h : close <+: body ++ '\'' :: tail) : close <+: body := by
  rcases Nat.lt_or_ge body.length close.length with hlt | hge
  · have hquote : body ++ ['\''] <+: close :=
      List.prefix_of_prefix_length_le ⟨tail, by simp⟩ h (by
        rw [List.length_append, List.length_singleton]
        omega)
    exact absurd (hquote.subset (by simp)) hclose
  · exact List.prefix_of_prefix_length_le h (List.prefix_append _ _) hge

/-- If a marker is not closed in front of a quote but behind it, the quote is in its name. -/
theorem quote_mem_of_before? (hclose : '\'' ∉ close) {tail : List Char}
    (hnone : before? close body = none) (h : before? close (body ++ '\'' :: tail) = some name) :
    '\'' ∈ name := by
  induction body generalizing name with
  | nil =>
    have hempty : close.isPrefixOf ('\'' :: tail) = false := by
      refine Bool.eq_false_iff.mpr fun hprefix => ?_
      have hnil : close <+: [] :=
        prefix_of_prefix_append_quote hclose (List.isPrefixOf_iff_prefix.mp hprefix)
      rw [before?, List.prefix_nil.mp hnil] at hnone
      cases hnone
    rw [List.nil_append, before?, hempty, if_neg Bool.false_ne_true] at h
    obtain ⟨more, -, rfl⟩ := Option.map_eq_some_iff.mp h
    exact List.mem_cons_self
  | cons c rest ih =>
    rw [before?] at hnone
    split at hnone
    · cases hnone
    · rename_i hnot
      have hnot' : ¬ close.isPrefixOf (c :: (rest ++ '\'' :: tail)) = true := fun hprefix =>
        hnot (List.isPrefixOf_iff_prefix.mpr (prefix_of_prefix_append_quote hclose
          (List.isPrefixOf_iff_prefix.mp hprefix)))
      rw [List.cons_append, before?, if_neg hnot'] at h
      obtain ⟨more, hmore, rfl⟩ := Option.map_eq_some_iff.mp h
      exact List.mem_cons_of_mem _ (ih (Option.map_eq_none_iff.mp hnone) hmore)

/-- What is not closed in front of a quote is no marker. -/
theorem name?_append_quote (hne : close ≠ []) (hclose : '\'' ∉ close) (body tail : List Char) :
    name? close (body ++ '\'' :: tail) = name? close body := by
  unfold name?
  cases hbody : before? close body with
  | some name => rw [(before?_append_of_eq_some hne hbody _).1]
  | none =>
    cases hlonger : before? close (body ++ '\'' :: tail) with
    | none => rfl
    | some name =>
      have hquote : name.contains '\'' = true :=
        List.contains_iff_mem.mpr (quote_mem_of_before? hclose hbody hlonger)
      rw [Option.filter_some, hquote, Bool.not_true, Bool.and_false]
      rfl

theorem read?_append_quote (first : Char) (body tail : List Char) :
    read? first (body ++ '\'' :: tail) = read? first body := by
  cases body with
  | nil =>
    have hnone (rest : List Char) (hrest : ∀ c ∈ rest.head?, c = '\'') :
        read? first rest = none := by
      refine read?_eq_none ?_ ?_ ?_
      all_goals
        rintro body - rfl
        exact absurd (hrest _ rfl) (by decide)
    rw [List.nil_append, hnone _ (by simp), hnone _ (by simp)]
  | cons c body =>
    have hname {close : List Char} (hne : close ≠ []) (hclose : '\'' ∉ close) :=
      name?_append_quote hne hclose body tail
    unfold read?
    rw [List.cons_append]
    split
    on_goal 4 =>
      rename_i hcolumn htable hparam
      refine (read?_eq_none ?_ ?_ ?_).symm
      · rintro more rfl heq
        obtain ⟨rfl, -⟩ := List.cons.inj heq
        exact hcolumn _ rfl rfl
      · rintro more rfl heq
        obtain ⟨rfl, -⟩ := List.cons.inj heq
        exact htable _ rfl rfl
      · rintro more rfl heq
        obtain ⟨rfl, -⟩ := List.cons.inj heq
        exact hparam _ rfl rfl
    all_goals
      rename_i heq
      cases heq
      rw [hname (by decide) (by decide)]
      rfl

/-- A literal that ends in front of a quote ends at the same place by itself, whatever is behind the
quote. -/
theorem literalLength_append_quote_of_le {tail : List Char}
    (h : literalLength (body ++ '\'' :: tail) ≤ body.length) (other : List Char) :
    literalLength (body ++ '\'' :: other) = literalLength body := by
  fun_induction literalLength body with
  | case1 =>
    have hpos : 0 < literalLength ('\'' :: tail) := by
      rw [literalLength.eq_def]
      split
      · rename_i heq
        cases heq
      all_goals omega
    exact absurd h (Nat.not_le.mpr hpos)
  | case2 rest ih =>
    simp only [List.cons_append, literalLength, List.length_cons] at h ⊢
    rw [ih (by omega)]
  | case3 rest hone =>
    cases rest with
    | nil =>
      -- Two quotes side by side would be one in the literal, which goes on behind them.
      simp [literalLength] at h
    | cons c more =>
      have hc : c ≠ '\'' := fun heq => hone more (by rw [heq])
      simp [literalLength, hc]
  | case4 c rest htwo hquote ih =>
    have hcons (more : List Char) : literalLength (c :: more) = literalLength more + 1 := by
      rw [literalLength.eq_def]
      simp [show c ≠ '\'' from hquote]
    rw [List.cons_append, hcons, List.length_cons] at h
    rw [List.cons_append, hcons, ih (by omega)]

/-- A piece that ends in front of a quote is the piece that is read without what follows, whatever
is behind the quote. -/
theorem read_append_quote {first : Char} {tail : List Char}
    (h : (Marker.read first (body ++ '\'' :: tail)).2 ≤ body.length) (other : List Char) :
    Marker.read first (body ++ '\'' :: other) = Marker.read first body ∧
      (Marker.read first body).2 ≤ body.length := by
  by_cases hfirst : first = '\''
  · subst hfirst
    have hlength := literalLength_append_quote_of_le h
    have hle : literalLength body ≤ body.length := hlength tail ▸ h
    simp only [Marker.read, if_true]
    rw [hlength, List.take_append_of_le_length hle]
    exact ⟨rfl, hle⟩
  · rw [Marker.read, if_neg hfirst, read?_append_quote] at h
    simp only [Marker.read, if_neg hfirst]
    rw [read?_append_quote]
    exact ⟨rfl, h⟩

end Quote

/-! ### Around a literal -/

/-- The pieces in front of a quote are those of the text in front of it. -/
theorem cut_append_quote {before tail : List Char} (h : ComesTo before ('\'' :: tail))
    (other : List Char) :
    Text.cut Marker.read (before ++ '\'' :: other) =
      Text.cut Marker.read before ++ Text.cut Marker.read ('\'' :: other) := by
  obtain ⟨pieces, others, hcut, hpieces⟩ := h
  induction pieces generalizing before with
  | nil =>
    obtain rfl : [] = before := hpieces
    rfl
  | cons piece pieces ih =>
    cases before with
    | nil => rfl
    | cons first rest =>
      rw [List.cons_append, Text.cut_cons, List.cons_append] at hcut
      obtain ⟨rfl, hothers⟩ := List.cons.inj hcut
      rw [List.flatMap_cons, List.cons_append] at hpieces
      obtain ⟨-, hrest⟩ := List.cons.inj hpieces
      have hle : (Marker.read first (rest ++ '\'' :: tail)).2 ≤ rest.length := by
        have hlength := congrArg List.length hrest
        rw [List.length_append, List.length_take, List.length_append, List.length_cons] at hlength
        omega
      obtain ⟨hother, hself⟩ := read_append_quote hle other
      obtain ⟨htail, -⟩ := read_append_quote hle tail
      rw [htail] at hrest hothers
      rw [List.take_append_of_le_length hself] at hrest
      rw [List.drop_append_of_le_length hself] at hothers
      have hpieces : pieces.flatMap Prod.snd = rest.drop (Marker.read first rest).2 :=
        List.append_cancel_left (hrest.trans (List.take_append_drop _ rest).symm)
      rw [List.cons_append, Text.cut_cons, Text.cut_cons, hother,
        List.take_append_of_le_length hself, List.drop_append_of_le_length hself,
        ih hothers hpieces]
      rfl

/-- **The pieces around a literal are those of the texts around it.**  If the reader comes to some
literal with nothing open, then it does so for every literal in its place. -/
theorem markers_sqlLiteral_between {before behind content : List Char}
    (h : ComesTo before (sqlLiteral content ++ behind)) (hbehind : behind.head? ≠ some '\'')
    (other : List Char) :
    markers (before ++ (sqlLiteral other ++ behind)) =
      markers before ++ .literal (sqlLiteral other) :: markers behind := by
  have hliteral : markers (sqlLiteral other ++ behind) =
      .literal (sqlLiteral other) :: markers behind := by
    have hjoined := markers_literal_append (isClosed_tail_sqlLiteral other) behind
    rwa [joinLiteral_of_isLiteral (isLiteral_of_head? hbehind)] at hjoined
  rw [← hliteral]
  unfold markers
  rw [← List.map_append]
  exact congrArg (List.map Prod.fst) (cut_append_quote h ((sqlLiteral other).tail ++ behind))

/-! ### Templates -/

section Templates

variable {backend : Backend} {params : Params}

/-- A template in front of another one decides on its marks: they are numbered from the last one on,
and a space comes first if a word has just ended. -/
theorem ofItemsFrom_append (items others : List Item) (last : Option Char) (count : Nat) :
    let front := Template.ofItemsFrom backend last count items
    let rest := Template.ofItemsFrom backend (front.text.getLast?.or last)
      (count + front.arguments.length) others
    Template.ofItemsFrom backend last count (items ++ others) =
      { text := front.text ++ rest.text, arguments := front.arguments ++ rest.arguments } := by
  induction items generalizing last count with
  | nil => rfl
  | cons item items ih =>
    cases item with
    | literal text =>
      have hrest := ih (text.getLast?.or last) count
      simp only [List.cons_append, Template.ofItemsFrom, hrest, List.getLast?_append,
        Option.or_assoc, List.append_assoc]
    | char c =>
      have hrest := ih (some c) count
      simp only [List.cons_append, Template.ofItemsFrom, hrest, List.getLast?_append,
        getLast?_charText, Option.or_assoc, Option.some_or, List.append_assoc]
    | argument argument =>
      obtain ⟨c, hc, -⟩ := exists_getLast?_argumentText backend (count + 1)
      have hrest := ih (Template.markText backend last (count + 1)).getLast? (count + 1)
      rw [getLast?_markText, hc] at hrest
      simp only [List.cons_append, Template.ofItemsFrom, hrest, List.getLast?_append,
        getLast?_markText, hc, Option.or_assoc, Option.some_or, List.append_assoc,
        List.length_cons, Nat.add_assoc, Nat.add_comm 1]

/-- The arguments of a template do not depend on what precedes it. -/
theorem arguments_ofItemsFrom (items : List Item) (last : Option Char) (count : Nat) :
    (Template.ofItemsFrom backend last count items).arguments =
      (Template.ofItems backend items).arguments := by
  have hsame (last last' : Option Char) (count count' : Nat) :
      (Template.ofItemsFrom backend last count items).arguments =
        (Template.ofItemsFrom backend last' count' items).arguments := by
    induction items generalizing last last' count count' with
    | nil => rfl
    | cons item items ih =>
      cases item with
      | literal text | char c => exact ih _ _ _ _
      | argument argument => exact congrArg (argument :: ·) (ih _ _ _ _)
  exact hsame last none count 0

theorem missingParam_of_bind {piece : Marker} {error : SearchError}
    (h : piece.bind params = .error error) : ∃ name, error = .missingParam name := by
  cases piece with
  | param name =>
    rw [Marker.bind] at h
    split at h
    · cases h
    · exact ⟨_, (Except.error.inj h).symm⟩
  | literal text | column name | table name | char c => cases h

/-- If the pieces of a text have no template, then the value of one of them is missing. -/
theorem missingParam_of_mapM {pieces : List Marker} {error : SearchError}
    (h : pieces.mapM (Marker.bind params) = .error error) :
    ∃ name, error = .missingParam name := by
  induction pieces with
  | nil => cases h
  | cons piece pieces ih =>
    rw [List.mapM_cons] at h
    cases hpiece : piece.bind params with
    | error first =>
      rw [hpiece] at h
      obtain rfl : first = error := Except.error.inj h
      exact missingParam_of_bind hpiece
    | ok item =>
      rw [hpiece] at h
      cases hrest : pieces.mapM (Marker.bind params) with
      | error later =>
        rw [hrest] at h
        obtain rfl : later = error := Except.error.inj h
        exact ih hrest
      | ok items =>
        rw [hrest] at h
        cases h

theorem bind_sqlLiteral (params : Params) (content : List Char) :
    (Marker.literal (sqlLiteral content)).bind params =
      .ok (if '\\' ∈ content then .argument (.verbatim (sqlLiteral content))
        else .literal (sqlLiteral content)) := by
  rw [Marker.bind]
  simp only [List.contains_iff_mem, backslash_mem_sqlLiteral]

/-- **A string literal is opaque.**  Let the reader of a fragment come to a literal with nothing
open, and let no quote be behind it.  Then the fragment has a template if the two texts around the
literal have one, and otherwise the same value is missing whatever the literal says.  The template
is that of the text in front, then the literal, character by character, or the place of an argument
that is the literal if there is a backslash in it, and then what stands behind, with the same
arguments in any case. -/
theorem literal_isOpaque (backend : Backend) (params : Params) {before behind content : List Char}
    (hcomes : ComesTo before (sqlLiteral content ++ behind)) (hbehind : behind.head? ≠ some '\'') :
    (∃ name, ∀ other,
      Template.ofText backend (String.ofList (before ++ (sqlLiteral other ++ behind))) params =
        .error (.missingParam name)) ∨
    ∃ (front rest : Template) (marked plain : List Char),
      Template.ofText backend (String.ofList before) params = .ok front ∧
      Template.ofText backend (String.ofList behind) params = .ok rest ∧
      ∀ other,
        Template.ofText backend (String.ofList (before ++ (sqlLiteral other ++ behind))) params =
          .ok (if '\\' ∈ other then
            { text := front.text ++ (Template.markText backend front.text.getLast?
                (front.arguments.length + 1) ++ marked)
              arguments := front.arguments ++ .verbatim (sqlLiteral other) :: rest.arguments }
          else
            { text := front.text ++ (sqlLiteral other ++ plain)
              arguments := front.arguments ++ rest.arguments }) := by
  unfold Template.ofText
  simp only [String.toList_ofList, markers_sqlLiteral_between hcomes hbehind, List.mapM_append,
    List.mapM_cons, bind_sqlLiteral]
  cases hfront : (markers before).mapM (Marker.bind params) with
  | error error =>
    obtain ⟨name, rfl⟩ := missingParam_of_mapM hfront
    exact .inl ⟨name, fun _ => rfl⟩
  | ok items =>
    cases hrest : (markers behind).mapM (Marker.bind params) with
    | error error =>
      obtain ⟨name, rfl⟩ := missingParam_of_mapM hrest
      exact .inl ⟨name, fun _ => rfl⟩
    | ok others =>
      let front := Template.ofItems backend items
      let mark := Template.markText backend front.text.getLast? (front.arguments.length + 1)
      let marked := Template.ofItemsFrom backend mark.getLast? (front.arguments.length + 1) others
      let plain := Template.ofItemsFrom backend (some '\'') front.arguments.length others
      refine .inr ⟨front, _, marked.text, plain.text, rfl, rfl,
        fun other => congrArg Except.ok ?_⟩
      rw [Template.ofItems, ofItemsFrom_append, Option.or_none, Nat.zero_add,
        ← Template.ofItems]
      by_cases hescape : '\\' ∈ other
      · rw [if_pos hescape, if_pos hescape, Template.ofItemsFrom]
        dsimp only
        rw [arguments_ofItemsFrom]
      · rw [if_neg hescape, if_neg hescape, Template.ofItemsFrom, getLast?_sqlLiteral,
          Option.some_or]
        dsimp only
        rw [arguments_ofItemsFrom]

/-- A column that has been opened in front of a literal is not closed by one in it, so nothing of it
is a marker; the value behind the literal is bound in any case. -/
theorem openColumn_isOpaque :
    ComesTo "{:v} [[b=".toList (sqlLiteral "x]]{:w}".toList ++ "]]{:v}".toList) ∧
      "]]{:v}".toList.head? ≠ some '\'' ∧
      ∃ marked plain, ∀ other,
        Template.ofText .postgres
            (String.ofList ("{:v} [[b=".toList ++ (sqlLiteral other ++ "]]{:v}".toList)))
            (.single "v" .null) =
          .ok (if '\\' ∈ other then
            { text := "$1 [[b=".toList ++ ("$2".toList ++ marked)
              arguments := [.value .null, .verbatim (sqlLiteral other), .value .null] }
          else
            { text := "$1 [[b=".toList ++ (sqlLiteral other ++ plain)
              arguments := [.value .null, .value .null] }) := by
  have hcomes : ComesTo "{:v} [[b=".toList (sqlLiteral "x]]{:w}".toList ++ "]]{:v}".toList) :=
    ⟨_, _, (List.take_append_drop 6 _).symm, by decide⟩
  have hbehind : "]]{:v}".toList.head? ≠ some '\'' := by decide
  refine ⟨hcomes, hbehind, ?_⟩
  have hfront : Template.ofText .postgres (String.ofList "{:v} [[b=".toList) (.single "v" .null) =
      .ok { text := "$1 [[b=".toList, arguments := [.value .null] } := by
    decide
  have hrest : Template.ofText .postgres (String.ofList "]]{:v}".toList) (.single "v" .null) =
      .ok { text := "]]$1".toList, arguments := [.value .null] } := by
    decide
  have hplain : Template.ofText .postgres
      (String.ofList ("{:v} [[b=".toList ++ (sqlLiteral [] ++ "]]{:v}".toList)))
      (.single "v" .null) =
        .ok
          { text := "$1 [[b=''".toList ++ "]]$2".toList
            arguments := [.value .null, .value .null] } := by
    decide
  rcases literal_isOpaque .postgres (.single "v" .null) hcomes hbehind with
    ⟨name, hmissing⟩ | ⟨front, rest, marked, plain, hfront', hrest', hall⟩
  · cases (hmissing []).symm.trans hplain
  · obtain rfl := Except.ok.inj (hfront'.symm.trans hfront)
    obtain rfl := Except.ok.inj (hrest'.symm.trans hrest)
    exact ⟨marked, plain, hall⟩

end Templates

end PagedSearch
