import Mathlib.Algebra.Group.Nat.Defs
import PagedSearch.Proofs.Pieces
import PagedSearch.Sql.Statement

/-!
# What is printed

The template of a text is read once more when it is printed, by a reader that knows nothing of
markers and cuts it into words, quoted texts and single characters.  Whether that reader finds the
marks and literals where they were put depends on what stands next to them.

## Main definitions

* `renderFrom` — the text of pieces as a statement has it.
* `endsInWord` — whether a reader is inside a word behind a text.
* `Marker.clashes`, `clashesFrom` — neighbours that are not told apart when they are printed.
* `spacedFrom` — pieces with the spaces that come between a word and a marker.
* `Prints` — a template's text is printed as given pieces.

## Main results

* `tokens_append` — what comes before a mark or a literal is read by itself.
* `Prints.run`, `Prints.literal`, `Prints.argument`, `Prints.mark` — a template is printed from its
  parts.
* `printText_markers` — a text without clashes is printed piece by piece.
-/

namespace PagedSearch

/-! ### Pieces as statements have them -/

/-- The text of pieces as a statement has it, behind `count` values. -/
def renderFrom (backend : Backend) : Nat → List Marker → List Char
  | _, [] => []
  | count, .literal text :: rest => text ++ renderFrom backend count rest
  | count, .column name :: rest =>
    (Column.ofText name).quote backend ++ renderFrom backend count rest
  | count, .table name :: rest =>
    (Column.named [name]).quote backend ++ renderFrom backend count rest
  | count, .param _ :: rest =>
    backend.mark :: (if backend.isNumbered then decimalDigits (count + 1) else []) ++
      renderFrom backend (count + 1) rest
  | count, .char c :: rest => c :: renderFrom backend count rest

/-! ### Tokens -/

/-- A character that starts nothing but a word or white space, unless it is a mark. -/
abbrev IsBare (c : Char) : Prop := c ∉ Marker.delimiters

/-- Whether a reader is inside a word behind a character, given whether it was in front of it. -/
def Token.staysInWord (inside : Bool) (c : Char) : Bool :=
  isWordStart c || (inside && isWordPart c)

/-- Whether a reader is inside a word behind a text. -/
def endsInWord (text : List Char) : Bool := text.foldl Token.staysInWord false

section Tokens

open Token

variable {text tail : List Char}

theorem closing?_of_isBare {c : Char} (h : IsBare c) : closing? c = none := by
  unfold closing?
  split <;> first | rfl | exact absurd h (by decide)

theorem isWordPart_of_isWordStart {c : Char} (h : isWordStart c = true) : isWordPart c = true := by
  rw [isWordPart, h]
  rfl

theorem endsInWord_concat (text : List Char) (c : Char) :
    endsInWord (text ++ [c]) = staysInWord (endsInWord text) c := by
  rw [endsInWord, List.foldl_append]
  rfl

theorem isWordPart_of_endsInWord {c : Char} (h : endsInWord (text ++ [c]) = true) :
    isWordPart c = true := by
  rw [endsInWord_concat, staysInWord, Bool.or_eq_true, Bool.and_eq_true] at h
  exact h.elim isWordPart_of_isWordStart And.right

/-- In front of a character that no word goes on with, it does not matter where a reader is. -/
theorem foldl_staysInWord (h : ∀ c ∈ text.head?, isWordPart c = false) (hne : text ≠ [])
    (inside : Bool) : text.foldl staysInWord inside = endsInWord text := by
  cases text with
  | nil => exact absurd rfl hne
  | cons c rest =>
    have hc : isWordPart c = false := h c rfl
    rw [endsInWord, List.foldl_cons, List.foldl_cons, staysInWord, staysInWord, hc, Bool.and_false,
      Bool.and_false]

theorem foldl_staysInWord_of_all (h : ∀ c ∈ text, isWordPart c = true) :
    text.foldl staysInWord true = true := by
  induction text with
  | nil => rfl
  | cons c rest ih =>
    obtain ⟨hc, hrest⟩ := List.forall_mem_cons.mp h
    rw [List.foldl_cons, staysInWord, hc, Bool.and_true, Bool.or_true]
    exact ih hrest

/-- A reader that is inside a word behind the end of a text is so behind the whole text. -/
theorem endsInWord_of_suffix (before : List Char) (h : endsInWord text = true) :
    endsInWord (before ++ text) = true := by
  have hmono : ∀ (rest : List Char) (inside : Bool), rest.foldl staysInWord false = true →
      rest.foldl staysInWord inside = true := by
    intro rest inside hrest
    cases inside with
    | false => exact hrest
    | true =>
      induction rest with
      | nil => rfl
      | cons c rest ih =>
        rw [List.foldl_cons] at hrest ⊢
        by_cases hc : isWordStart c = true
        · rw [staysInWord, hc, Bool.true_or] at hrest ⊢
          exact hrest
        · rw [Bool.not_eq_true] at hc
          rw [staysInWord, hc, Bool.false_and, Bool.or_false] at hrest
          rw [staysInWord, hc, Bool.true_and, Bool.false_or]
          cases isWordPart c with
          | true => exact ih hrest
          | false => exact hrest
  rw [endsInWord, List.foldl_append]
  exact hmono text _ h

/-- The token in front of a tail does not reach into it, if no word or white space does. -/
theorem read_append {first : Char} (hfirst : IsBare first) {rest : List Char}
    (hspace : ∀ c ∈ tail.head?, isSpace c = false)
    (hword : endsInWord (first :: rest) = true → ∀ c ∈ tail.head?, isWordPart c = false) :
    Token.read first (rest ++ tail) = Token.read first rest ∧
      (Token.read first rest).2 ≤ rest.length := by
  have hspaces := Text.takeWhile_append_of_head? hspace rest
  unfold Token.read
  split
  · rw [hspaces]
    exact ⟨rfl, Text.length_takeWhile_le _ _⟩
  · split
    · rename_i hstart
      have hwords : (rest ++ tail).takeWhile isWordPart = rest.takeWhile isWordPart := by
        by_cases hall : ∀ c ∈ rest, isWordPart c = true
        · have hinside : endsInWord (first :: rest) = true := by
            rw [endsInWord, List.foldl_cons, staysInWord, hstart, Bool.true_or]
            exact foldl_staysInWord_of_all hall
          exact Text.takeWhile_append_of_head? (hword hinside) rest
        · -- The word ends before the tail.
          simp only [not_forall, Bool.not_eq_true] at hall
          obtain ⟨c, hmem, hc⟩ := hall
          exact Text.takeWhile_append_of_mem hmem hc tail
      rw [hwords]
      exact ⟨rfl, Text.length_takeWhile_le _ _⟩
    · rw [closing?_of_isBare hfirst]
      exact ⟨rfl, Nat.zero_le _⟩

/-- Bare characters are read by themselves, if no word or white space goes on behind them. -/
theorem tokens_append (htext : ∀ c ∈ text, IsBare c)
    (hspace : ∀ c ∈ tail.head?, isSpace c = false)
    (hword : endsInWord text = true → ∀ c ∈ tail.head?, isWordPart c = false) :
    tokens (text ++ tail) = tokens text ++ tokens tail := by
  induction hn : text.length using Nat.strongRecOn generalizing text with
  | _ n ih =>
    cases text with
    | nil => rfl
    | cons first rest =>
      obtain ⟨hfirst, hrest⟩ := List.forall_mem_cons.mp htext
      obtain ⟨hread, hlength⟩ := read_append hfirst hspace hword
      have hdrop : endsInWord (rest.drop (Token.read first rest).2) = true →
          ∀ c ∈ tail.head?, isWordPart c = false := by
        intro hinside
        have hsuffix := endsInWord_of_suffix (first :: rest.take (Token.read first rest).2) hinside
        rw [List.cons_append, List.take_append_drop] at hsuffix
        exact hword hsuffix
      unfold tokens at ih ⊢
      rw [List.cons_append, Text.cut_cons, Text.cut_cons, hread,
        List.take_append_of_le_length hlength, List.drop_append_of_le_length hlength,
        List.cons_append]
      rw [ih _ ?_ (fun c hc => hrest c (List.mem_of_mem_drop hc)) hdrop rfl]
      rw [← hn, List.length_drop, List.length_cons]
      omega

theorem isWordPart_of_isSpace {c : Char} (h : isSpace c = true) : isWordPart c = false := by
  simp only [isSpace, Bool.or_eq_true, beq_iff_eq] at h
  rcases h with ((rfl | rfl) | rfl) | rfl <;> decide

theorem endsInWord_of_isSpace (h : ∀ c ∈ text, isSpace c = true) : endsInWord text = false := by
  rcases List.eq_nil_or_concat text with rfl | ⟨before, c, rfl⟩
  · rfl
  · refine Bool.eq_false_iff.mpr fun hinside => ?_
    rw [List.concat_eq_append] at hinside h
    have hnot := isWordPart_of_isSpace (h c (by simp))
    rw [isWordPart_of_endsInWord hinside] at hnot
    cases hnot

/-- A token that ends inside a word reaches as far as the word. -/
theorem isWordPart_behind_token {first : Char} (hfirst : IsBare first) {rest : List Char}
    (h : endsInWord (first :: rest.take (Token.read first rest).2) = true) :
    ∀ c ∈ (rest.drop (Token.read first rest).2).head?, isWordPart c = false := by
  have htake (p : Char → Bool) : rest.take (rest.takeWhile p).length = rest.takeWhile p :=
    (List.prefix_iff_eq_take.mp (List.takeWhile_prefix p)).symm
  have hdrop (p : Char → Bool) : rest.drop (rest.takeWhile p).length = rest.dropWhile p := by
    have happend := List.prefix_iff_eq_append.mp (List.takeWhile_prefix p (l := rest))
    exact List.append_cancel_left (happend.trans List.takeWhile_append_dropWhile.symm)
  by_cases hspace : isSpace first = true
  · -- White space ends no word.
    rw [Token.read, if_pos hspace, htake] at h
    have hall : ∀ c ∈ first :: rest.takeWhile isSpace, isSpace c = true :=
      List.forall_mem_cons.mpr ⟨hspace, List.all_eq_true.mp List.all_takeWhile⟩
    rw [endsInWord_of_isSpace hall] at h
    cases h
  · by_cases hstart : isWordStart first = true
    · rw [Token.read, if_neg hspace, if_pos hstart, hdrop]
      intro c hc
      have hnot := List.head?_dropWhile_not isWordPart rest
      rw [Option.mem_def.mp hc] at hnot
      simpa using hnot
    · rw [Token.read, if_neg hspace, if_neg hstart, closing?_of_isBare hfirst] at h
      simp [endsInWord, staysInWord, hstart] at h

/-- Behind its first token a reader is inside a word of the rest of a text just where it is inside a
word of the whole text. -/
theorem endsInWord_of_drop {first : Char} (hfirst : IsBare first) {rest before after : List Char}
    {c : Char} (h : rest.drop (Token.read first rest).2 = before ++ c :: after) :
    (endsInWord (first :: rest.take (Token.read first rest).2 ++ before) && isWordPart c) =
      (endsInWord before && isWordPart c) := by
  have hbehind := @isWordPart_behind_token first hfirst rest
  rw [h] at hbehind
  rw [show endsInWord (first :: rest.take (Token.read first rest).2 ++ before) =
    before.foldl staysInWord (endsInWord (first :: rest.take (Token.read first rest).2)) from
      List.foldl_append]
  cases hinside : endsInWord (first :: rest.take (Token.read first rest).2) with
  | false => rfl
  | true =>
    have hhead := hbehind hinside
    cases before with
    | nil => rw [hhead c rfl, Bool.and_false, Bool.and_false]
    | cons next more =>
      have hnext : ∀ d ∈ (next :: more).head?, isWordPart d = false := hhead
      rw [foldl_staysInWord hnext (List.cons_ne_nil _ _)]

/-- A text in which each mark is a part of a word. -/
def IsUnmarked (backend : Backend) (text : List Char) : Prop :=
  ∀ before after, text = before ++ backend.mark :: after →
    (endsInWord before && isWordPart backend.mark) = true

theorem isUnmarked_nil (backend : Backend) : IsUnmarked backend [] := by
  intro before after h
  simp at h

theorem IsUnmarked.concat {backend : Backend} (h : IsUnmarked backend text) {c : Char}
    (hc : c = backend.mark → (endsInWord text && isWordPart backend.mark) = true) :
    IsUnmarked backend (text ++ [c]) := by
  intro before after heq
  rcases List.eq_nil_or_concat after with rfl | ⟨more, d, rfl⟩
  · obtain ⟨rfl, hlast⟩ := List.append_inj' heq rfl
    exact hc (List.cons.inj hlast).1
  · rw [List.concat_eq_append, ← List.cons_append, ← List.append_assoc] at heq
    exact h before more (List.append_inj' heq rfl).1

/-- No token of a text is a mark, if each mark in the text is a part of a word. -/
theorem isMark_of_isUnmarked {backend : Backend} (htext : ∀ c ∈ text, IsBare c)
    (h : IsUnmarked backend text) : ∀ token ∈ tokens text, isMark backend token = false := by
  induction hn : text.length using Nat.strongRecOn generalizing text with
  | _ n ih =>
    cases text with
    | nil => nofun
    | cons first rest =>
      obtain ⟨hfirst, hrest⟩ := List.forall_mem_cons.mp htext
      unfold tokens at ih ⊢
      rw [Text.cut_cons]
      intro token htoken
      rcases List.mem_cons.mp htoken with rfl | htoken
      · -- A token that is a mark would start the text outside a word.
        refine Bool.eq_false_iff.mpr fun hmark => ?_
        simp only [isMark, Bool.and_eq_true, beq_iff_eq, List.cons.injEq] at hmark
        have hword := h [] rest (by rw [hmark.2.1]; rfl)
        cases hword
      · refine ih _ ?_ (fun c hc => hrest c (List.mem_of_mem_drop hc)) ?_ rfl token htoken
        · rw [← hn, List.length_drop, List.length_cons]
          omega
        · intro before after heq
          rw [← endsInWord_of_drop hfirst heq]
          refine h _ after ?_
          rw [List.cons_append, List.cons_append, List.append_assoc, ← heq, List.take_append_drop]

end Tokens

/-! ### Printing -/

section Printing

variable (params : Params) (backend : Backend) (arguments : List Argument)

/-- The text of a template, printed from the argument with the index `next` on, is what the pieces
are in a statement.  Where marks have numbers, it does not matter which argument is next. -/
def Prints (next : Nat) (text : List Char) (pieces : List Marker) : Prop :=
  ∃ chunks, (∀ index, (backend.isNumbered = false → index = next) →
      Template.follow backend arguments index (instructions backend (tokens text)) =
        .ok chunks) ∧
    (∀ count, Chunk.textFrom backend count chunks = renderFrom backend count pieces) ∧
    (Chunk.values chunks).map some = (pieces.filterMap Marker.param?).map params.get?

variable {params backend arguments} {next : Nat} {text tail : List Char} {pieces : List Marker}

theorem prints_nil : Prints params backend arguments next [] [] :=
  ⟨[], fun _ _ => rfl, fun _ => rfl, rfl⟩

theorem instructionsFrom_append_of_forall {found more : List (Token × List Char)}
    (h : ∀ token ∈ found, isMark backend token = false) :
    instructionsFrom backend false (found ++ more) =
      (found.map Prod.snd).map .copy ++ instructionsFrom backend false more := by
  induction found with
  | nil => rfl
  | cons token rest ih =>
    obtain ⟨htoken, hrest⟩ := List.forall_mem_cons.mp h
    rw [List.cons_append, instructionsFrom, htoken, if_neg Bool.false_ne_true, ih hrest]
    rfl

theorem follow_copies (index : Nat) (texts : List (List Char)) (more : List Instruction) :
    Template.follow backend arguments index (texts.map .copy ++ more) =
      (Template.follow backend arguments index more).map (texts.map .text ++ ·) := by
  induction texts with
  | nil => cases h : Template.follow backend arguments index more <;> simp [Except.map, h]
  | cons first rest ih =>
    rw [List.map_cons, List.cons_append, Template.follow, ih]
    cases Template.follow backend arguments index more <;> rfl

theorem textFrom_texts (texts : List (List Char)) (chunks : List Chunk) (count : Nat) :
    Chunk.textFrom backend count (texts.map .text ++ chunks) =
      texts.flatten ++ Chunk.textFrom backend count chunks := by
  induction texts with
  | nil => rfl
  | cons first rest ih =>
    rw [List.map_cons, List.cons_append, Chunk.textFrom, ih, List.flatten_cons, List.append_assoc]

theorem values_texts (texts : List (List Char)) (chunks : List Chunk) :
    Chunk.values (texts.map .text ++ chunks) = Chunk.values chunks := by
  induction texts with
  | nil => rfl
  | cons first rest ih => rw [List.map_cons, List.cons_append, Chunk.values, ih]

/-- Tokens that are copied are printed as they are. -/
theorem Prints.copied {found : List (Token × List Char)} {copied : List Marker}
    (htokens : tokens (text ++ tail) = found ++ tokens tail)
    (hmark : ∀ token ∈ found, isMark backend token = false)
    (hcopied : ∀ count, renderFrom backend count (copied ++ pieces) =
      found.flatMap Prod.snd ++ renderFrom backend count pieces)
    (hparams : copied.filterMap Marker.param? = [])
    (h : Prints params backend arguments next tail pieces) :
    Prints params backend arguments next (text ++ tail) (copied ++ pieces) := by
  obtain ⟨chunks, hchunks, htext, hvalues⟩ := h
  refine ⟨(found.map Prod.snd).map .text ++ chunks, fun index hindex => ?_, fun count => ?_, ?_⟩
  · have hrest := hchunks index hindex
    unfold instructions at hrest
    rw [instructions, htokens, instructionsFrom_append_of_forall hmark, follow_copies, hrest]
    rfl
  · rw [textFrom_texts, htext, hcopied, List.flatMap_def]
  · rw [values_texts, hvalues, List.filterMap_append, hparams, List.nil_append]

theorem renderFrom_chars (run : List Char) (count : Nat) :
    renderFrom backend count (run.map .char ++ pieces) =
      run ++ renderFrom backend count pieces := by
  induction run with
  | nil => rfl
  | cons c rest ih => rw [List.map_cons, List.cons_append, renderFrom, ih, List.cons_append]

/-- Bare characters are printed as they are, if all marks among them are parts of words. -/
theorem Prints.run {run : List Char} (hrun : ∀ c ∈ run, IsBare c) (hmarks : IsUnmarked backend run)
    (hspace : ∀ c ∈ tail.head?, Token.isSpace c = false)
    (hword : endsInWord run = true → ∀ c ∈ tail.head?, Token.isWordPart c = false)
    (h : Prints params backend arguments next tail pieces) :
    Prints params backend arguments next (run ++ tail) (run.map .char ++ pieces) := by
  refine Prints.copied (tokens_append hrun hspace hword) (isMark_of_isUnmarked hrun hmarks)
    (fun count => ?_) ?_ h
  · rw [renderFrom_chars]
    exact congrArg (· ++ _) (Text.cut_covers Token.read run).symm
  · rw [List.filterMap_map]
    exact List.filterMap_eq_nil_iff.mpr fun c _ => rfl

/-- A literal without a backslash reaches up to its closing quote. -/
theorem quotedLength_of_isClosed {body : List Char} (h : Marker.isClosed body = true)
    (hbackslash : '\\' ∉ body) (htail : tail.head? ≠ some '\'') :
    Token.quotedLength '\'' false (body ++ tail) = body.length := by
  fun_induction Marker.isClosed body with
  | case1 => cases h
  | case2 =>
    cases tail with
    | nil => rfl
    | cons c rest =>
      have hc : c ≠ '\'' := by simpa using htail
      simp [Token.quotedLength, hc]
  | case3 rest ih =>
    have hrest : '\\' ∉ rest := by simpa using hbackslash
    simp [Token.quotedLength, ih h hrest]
  | case4 => cases h
  | case5 c rest hone htwo hquote ih =>
    obtain ⟨hc, hrest⟩ : '\\' ≠ c ∧ '\\' ∉ rest := by simpa using hbackslash
    have hopen : c ≠ '\'' := fun heq => hquote heq
    have hescape : (c == '\\') = false := by simpa using hc.symm
    rw [List.cons_append, Token.quotedLength.eq_def]
    simp [hopen, hescape, ih h hrest]

theorem Prints.literal {body : List Char} (hbody : Marker.isClosed body = true)
    (hbackslash : '\\' ∉ body) (htail : tail.head? ≠ some '\'')
    (h : Prints params backend arguments next tail pieces) :
    Prints params backend arguments next ('\'' :: body ++ tail)
      (.literal ('\'' :: body) :: pieces) := by
  have htokens : tokens ('\'' :: body ++ tail) = [(.quoted, '\'' :: body)] ++ tokens tail := by
    have hlength := quotedLength_of_isClosed hbody hbackslash htail
    have hread : Token.read '\'' (body ++ tail) = (.quoted, body.length) := by
      rw [← hlength]
      rfl
    unfold tokens
    rw [List.cons_append, Text.cut_cons, hread]
    simp
  show Prints params backend arguments next _ ([.literal ('\'' :: body)] ++ pieces)
  refine Prints.copied htokens ?_ (fun count => ?_) rfl h
  · simp [isMark]
  · simp [renderFrom]

/-! ### Arguments -/

theorem all_isDigit_decimalDigits (n : Nat) : (decimalDigits n).all Char.isDigit = true := by
  rw [List.all_eq_true]
  exact fun c hc => Nat.isDigit_of_mem_toDigits (by decide) (by decide) hc

/-- A number behind a mark is read as it was written. -/
theorem wordNumber?_decimalDigits {n : Nat} (h : n < 2 ^ 64) :
    wordNumber? (decimalDigits n) = some n := by
  have hvalue : digitsValue (decimalDigits n) = n :=
    Nat.ofDigitChars_toDigits (by decide) (by decide)
  rw [wordNumber?, if_pos (all_isDigit_decimalDigits n), hvalue]
  exact (Option.filter_some ..).trans (if_pos (decide_eq_true h))

theorem tokens_decimalDigits (n : Nat) (htail : ∀ c ∈ tail.head?, Token.isWordPart c = false) :
    tokens (decimalDigits n ++ tail) = (.word, decimalDigits n) :: tokens tail := by
  obtain ⟨first, rest, hdigits⟩ : ∃ first rest, decimalDigits n = first :: rest :=
    List.exists_cons_of_ne_nil Nat.toDigits_ne_nil
  have hall := all_isDigit_decimalDigits n
  rw [hdigits, List.all_cons, Bool.and_eq_true] at hall
  obtain ⟨hfirst, hrest⟩ := hall
  have hstart : Token.isWordStart first = true := by rw [Token.isWordStart, hfirst, Bool.or_true]
  have hspace : Token.isSpace first = false := by
    refine Bool.eq_false_iff.mpr fun hspace => ?_
    simp only [Token.isSpace, Bool.or_eq_true, beq_iff_eq] at hspace
    rcases hspace with ((rfl | rfl) | rfl) | rfl <;> exact absurd hfirst (by decide)
  have hall : rest.takeWhile Token.isWordPart = rest := by
    have hpart : ∀ c ∈ rest, Token.isWordPart c = true := fun c hc => by
      simp [Token.isWordPart, Token.isWordStart, List.all_eq_true.mp hrest c hc]
    have htake : (rest ++ []).takeWhile Token.isWordPart = rest ++ [].takeWhile Token.isWordPart :=
      List.takeWhile_append_of_pos hpart
    simpa using htake
  have hread : Token.read first (rest ++ tail) = (.word, rest.length) := by
    rw [Token.read, if_neg (by simp [hspace]), if_pos hstart, Text.takeWhile_append_of_head? htail,
      hall]
  unfold tokens
  rw [hdigits, List.cons_append, Text.cut_cons, hread]
  simp

theorem tokens_mark (rest : List Char) :
    tokens (backend.mark :: rest) = (.punctuation, [backend.mark]) :: tokens rest := by
  have hread : Token.read backend.mark rest = (.punctuation, 0) := by cases backend <;> rfl
  unfold tokens
  rw [Text.cut_cons, hread]
  rfl

theorem isMark_head (htail : ∀ c ∈ tail.head?, c ≠ backend.mark) :
    ∀ token ∈ (tokens tail).head?, isMark backend token = false := by
  cases tail with
  | nil => simp [tokens]
  | cons c rest =>
    intro token htoken
    unfold tokens at htoken
    rw [Text.cut_cons, List.head?_cons, Option.mem_some_iff] at htoken
    refine Bool.eq_false_iff.mpr fun hmark => ?_
    simp only [isMark, Bool.and_eq_true, beq_iff_eq, ← htoken, List.cons.injEq] at hmark
    exact htail c rfl hmark.2.1

theorem isMark_mark : isMark backend (.punctuation, [backend.mark]) = true := by
  cases backend <;> rfl

/-- Two marks are printed as one. -/
theorem Prints.mark (h : Prints params backend arguments next tail pieces) :
    Prints params backend arguments next (backend.mark :: backend.mark :: tail)
      (.char backend.mark :: pieces) := by
  obtain ⟨chunks, hchunks, htext, hvalues⟩ := h
  refine ⟨.text [backend.mark] :: chunks, fun index hindex => ?_, fun count => ?_, hvalues⟩
  · have hrest := hchunks index hindex
    unfold instructions at hrest
    rw [tokens_mark, tokens_mark, instructions, instructionsFrom, if_pos isMark_mark,
      instructionsFrom, if_pos isMark_mark, Template.follow, hrest]
    rfl
  · rw [Chunk.textFrom, renderFrom, htext]
    rfl

/-- Where marks have no numbers, a mark alone takes the next argument. -/
theorem instructionsFrom_true (hnumbered : backend.isNumbered = false)
    {found : List (Token × List Char)}
    (h : ∀ token ∈ found.head?, isMark backend token = false) :
    instructionsFrom backend true found = .next :: instructionsFrom backend false found := by
  cases found with
  | nil => rfl
  | cons token rest =>
    have htoken := h token rfl
    simp [instructionsFrom, htoken, hnumbered]

/-- The text for an argument where nothing can be taken for a part of its mark. -/
def argumentText (backend : Backend) (number : Nat) : List Char :=
  backend.mark :: (if backend.isNumbered then decimalDigits number else [])

theorem textFrom_argument {piece : Marker} {argument : Argument}
    (hpiece : piece.bind params = .ok (.argument argument)) {chunks : List Chunk}
    (h : ∀ count, Chunk.textFrom backend count chunks = renderFrom backend count pieces)
    (count : Nat) :
    Chunk.textFrom backend count (argument.chunk backend :: chunks) =
      renderFrom backend count (piece :: pieces) := by
  cases piece with
  | literal text =>
    rw [Marker.bind] at hpiece
    split at hpiece
    · obtain rfl := Item.argument.inj (Except.ok.inj hpiece)
      rw [Argument.chunk, Chunk.textFrom, renderFrom, h]
    · cases Except.ok.inj hpiece
  | column name | table name =>
    obtain rfl := Item.argument.inj (Except.ok.inj hpiece)
    rw [Argument.chunk, Chunk.textFrom, renderFrom, h]
  | param name =>
    rw [Marker.bind] at hpiece
    split at hpiece
    · obtain rfl := Item.argument.inj (Except.ok.inj hpiece)
      rw [Argument.chunk, Chunk.textFrom, renderFrom, h]
    · cases hpiece
  | char c => cases Except.ok.inj hpiece

theorem values_argument {piece : Marker} {argument : Argument}
    (hpiece : piece.bind params = .ok (.argument argument)) {chunks : List Chunk}
    (h : (Chunk.values chunks).map some = (pieces.filterMap Marker.param?).map params.get?) :
    (Chunk.values (argument.chunk backend :: chunks)).map some =
      ((piece :: pieces).filterMap Marker.param?).map params.get? := by
  cases piece with
  | literal text =>
    rw [Marker.bind] at hpiece
    split at hpiece
    · obtain rfl := Item.argument.inj (Except.ok.inj hpiece)
      exact h
    · cases Except.ok.inj hpiece
  | column name | table name =>
    obtain rfl := Item.argument.inj (Except.ok.inj hpiece)
    exact h
  | param name =>
    rw [Marker.bind] at hpiece
    split at hpiece
    · rename_i value hvalue
      obtain rfl := Item.argument.inj (Except.ok.inj hpiece)
      rw [Argument.chunk, Chunk.values, List.map_cons, h, ← hvalue]
      rfl
    · cases hpiece
  | char c => cases Except.ok.inj hpiece

/-- Whether a character cannot be taken for a part of the mark in front of it. -/
def endsMark (backend : Backend) (c : Char) : Bool :=
  if backend.isNumbered then !Token.isWordPart c else c != backend.mark

/-- A mark is printed as the argument that it stands for. -/
theorem Prints.argument {piece : Marker} {argument : Argument}
    (hpiece : piece.bind params = .ok (.argument argument))
    (hget : arguments[next]? = some argument) (hlt : next + 1 < 2 ^ 64)
    (htail : ∀ c ∈ tail.head?, endsMark backend c = true)
    (h : Prints params backend arguments (next + 1) tail pieces) :
    Prints params backend arguments next (argumentText backend (next + 1) ++ tail)
      (piece :: pieces) := by
  obtain ⟨chunks, hchunks, htext, hvalues⟩ := h
  refine ⟨argument.chunk backend :: chunks, fun index hindex => ?_, textFrom_argument hpiece htext,
    values_argument hpiece hvalues⟩
  rw [argumentText, List.cons_append, tokens_mark, instructions, instructionsFrom, if_pos isMark_mark]
  unfold endsMark at htail
  cases hnumbered : backend.isNumbered with
  | true =>
    -- The word behind the mark is the number of the argument.
    have hword : isMark backend (.word, decimalDigits (next + 1)) = false := by
      simp [isMark]
    have hbehind : ∀ c ∈ tail.head?, Token.isWordPart c = false := by
      simpa only [hnumbered, if_true, Bool.not_eq_true'] using htail
    rw [if_pos rfl, tokens_decimalDigits _ hbehind, instructionsFrom, hword,
      if_neg Bool.false_ne_true]
    simp only [hnumbered, beq_self_eq_true, Bool.and_self, if_true, wordNumber?_decimalDigits hlt]
    have hrest := hchunks index (by simp [hnumbered])
    unfold instructions at hrest
    simp only [Template.follow, Nat.add_sub_cancel, hget, hrest]
    rfl
  | false =>
    obtain rfl := hindex hnumbered
    have hrest := hchunks (index + 1) fun _ => rfl
    have hbehind : ∀ c ∈ tail.head?, c ≠ backend.mark := by
      simpa [hnumbered] using htail
    unfold instructions at hrest
    rw [if_neg Bool.false_ne_true, List.nil_append,
      instructionsFrom_true hnumbered (isMark_head hbehind), Template.follow, hget, hrest]
    rfl

end Printing

/-! ### Neighbours -/

/-- Whether a template has an argument for a piece. -/
def Marker.isArgument : Marker → Bool
  | literal text => text.contains '\\'
  | char _ => false
  | _ => true

/-- Whether a space comes between a piece and an argument behind it. -/
def Marker.wantsSpace : Marker → Bool
  | char c => Template.isWordEnd c || c == '?'
  | piece => piece.isArgument

/-- Pieces with the spaces that a template has between words and arguments, behind the piece
`previous`. -/
def spacedFrom : Option Marker → List Marker → List Marker
  | _, [] => []
  | previous, piece :: rest =>
    (if piece.isArgument && previous.any Marker.wantsSpace then [.char ' '] else []) ++
      piece :: spacedFrom (some piece) rest

/-- Whether a piece and a character behind it are not told apart when they are printed, given whether
a reader is inside a word behind the piece.  This is so for a `$` in no word behind a character that
could be the end of one, and for a character that is taken for a part of the mark in front of it.
Where marks have no numbers, a mark behind the place of a value is told from it by nothing, but then
it does not matter which of them is which. -/
def Marker.clashes (backend : Backend) (inside : Bool) : Marker → Char → Bool
  | char d, c => c == backend.mark && c == '$' && Template.isWordEnd d && !inside
  | param _, c => backend.isNumbered && !endsMark backend c
  | piece, c => piece.isArgument && !endsMark backend c

/-- Whether two neighbours are not told apart, behind the piece `previous`. -/
def clashesFrom (backend : Backend) : Option Marker → Bool → List Marker → Bool
  | _, _, [] => false
  | previous, inside, .char c :: rest =>
    previous.any (Marker.clashes backend inside · c) ||
      clashesFrom backend (some (.char c)) (Token.staysInWord inside c) rest
  | _, _, piece :: rest => clashesFrom backend (some piece) false rest

/-- A piece that a reader of templates tells from what is around it, but for its neighbours: string
literals are closed, and no other character starts a quoted text. -/
def Marker.IsPlain : Marker → Prop
  | literal text => ∃ body, text = '\'' :: body ∧ isClosed body = true
  | char c => IsBare c
  | _ => True

theorem Marker.IsPiece.isPlain_settled {piece : Marker} (h : piece.IsPiece) :
    piece.settled.IsPlain := by
  cases piece with
  | literal text => exact h
  | char c => exact h
  | column name | table name | param name => trivial

theorem Marker.IsWritten.isPlain {piece : Marker} (h : piece.IsWritten) : piece.IsPlain := by
  have hplain := h.isPiece.isPlain_settled
  rwa [h.settled_eq] at hplain

/-- Pieces of which at most one is a string literal. -/
def Marker.Separate (piece next : Marker) : Prop := piece.isLiteral = false ∨ next.isLiteral = false

/-- How a template ends whose last piece is `previous`: with the character `last`, and with `run`
behind its last mark or literal. -/
inductive Ends (backend : Backend) : Option Marker → Option Char → List Char → Prop where
  /-- Nothing has been written. -/
  | start : Ends backend none none []
  /-- A character stands for itself. -/
  | char (run : List Char) (c : Char) : Ends backend (some (.char c)) (some c) (run ++ [c])
  /-- A mark has been doubled. -/
  | mark : Ends backend (some (.char backend.mark)) (some backend.mark) []
  /-- An argument ends with its mark or with a digit. -/
  | argument {piece : Marker} {c : Char} (hpiece : piece.isArgument = true)
    (hc : (Template.isWordEnd c || c == '?') = true) : Ends backend (some piece) (some c) []
  /-- A literal ends with a quote. -/
  | literal {text : List Char} (htext : text.contains '\\' = false) :
    Ends backend (some (.literal text)) (some '\'') []

section Neighbours

variable {params : Params} {backend : Backend} {pieces : List Marker} {items : List Item}
  {previous : Option Marker} {last : Option Char} {run : List Char}

theorem toNat_lt_of_isDigit {c : Char} (h : c.isDigit = true) : c.toNat < 128 := by
  simp only [Char.isDigit, Bool.and_eq_true, decide_eq_true_eq, UInt32.le_iff_toNat_le] at h
  have hle : c.toNat ≤ 57 := h.2
  omega

theorem isAlphanumeric_of_isWordStart {c : Char} (h : Token.isWordStart c = true) :
    Text.isAlphanumeric c = true := by
  rw [Token.isWordStart, Bool.or_eq_true] at h
  by_cases hascii : c.toNat < 128
  · rw [Text.isAlphabetic, if_pos hascii] at h
    rw [Text.isAlphanumeric, if_pos hascii, Char.isAlphanum, Bool.or_eq_true]
    exact h
  · rcases h with h | h
    · rw [Text.isAlphabetic, if_neg hascii] at h
      rw [Text.isAlphanumeric, if_neg hascii, h, Bool.true_or]
    · exact absurd (toNat_lt_of_isDigit h) hascii

theorem isWordEnd_of_isWordPart {c : Char} (h : Token.isWordPart c = true) :
    Template.isWordEnd c = true := by
  simp only [Token.isWordPart, Bool.or_eq_true] at h
  simp only [Template.isWordEnd, Bool.or_eq_true]
  exact h.imp_left (Or.imp_left isAlphanumeric_of_isWordStart)

theorem Ends.any_last (h : Ends backend previous last run) :
    (last.any fun c => Template.isWordEnd c || c == '?') = previous.any Marker.wantsSpace := by
  cases h with
  | start | char | mark => rfl
  | @argument piece c hpiece hc =>
    rw [Option.any_some, Option.any_some, hc]
    cases piece with
    | char d => cases hpiece
    | _ => exact hpiece.symm
  | literal htext =>
    rw [Option.any_some, Option.any_some, Marker.wantsSpace, Marker.isArgument, htext]
    · decide
    · simp

/-- Behind a character that no word ends with, a reader is in no word. -/
theorem Ends.outside (h : Ends backend previous last run)
    (hlast : last.any Template.isWordEnd = false) : endsInWord run = false := by
  cases h with
  | char run c =>
    refine Bool.eq_false_iff.mpr fun hinside => ?_
    rw [Option.any_some, isWordEnd_of_isWordPart (isWordPart_of_endsInWord hinside)] at hlast
    cases hlast
  | _ => rfl

/-- A word does not go on with a mark that is doubled. -/
theorem Ends.apart_from_mark (h : Ends backend previous last run)
    (hdoubled : backend.mark ≠ '$' ∨ last.any Template.isWordEnd = false) :
    (endsInWord run && Token.isWordPart backend.mark) = false := by
  rcases hdoubled with hmark | hlast
  · have hpart : Token.isWordPart backend.mark = false := by
      cases backend with
      | postgres => exact absurd rfl hmark
      | mysql | sqlite => decide
    rw [hpart, Bool.and_false]
  · rw [h.outside hlast, Bool.false_and]

theorem bind_eq_char {piece : Marker} {c : Char} (h : piece.bind params = .ok (.char c)) :
    piece = .char c := by
  cases piece with
  | char d => rw [Item.char.inj (Except.ok.inj h)]
  | literal text => rw [Marker.bind] at h; split at h <;> cases h
  | param name => rw [Marker.bind] at h; split at h <;> cases h
  | column name | table name => cases h

theorem bind_eq_literal {piece : Marker} {text : List Char}
    (h : piece.bind params = .ok (.literal text)) :
    piece = .literal text ∧ text.contains '\\' = false := by
  cases piece with
  | literal other =>
    rw [Marker.bind] at h
    split at h
    · cases h
    · rename_i hnot
      obtain rfl := Item.literal.inj (Except.ok.inj h)
      exact ⟨rfl, by simpa using hnot⟩
  | param name => rw [Marker.bind] at h; split at h <;> cases h
  | column name | table name | char c => cases h

theorem isArgument_of_bind {piece : Marker} {argument : Argument}
    (h : piece.bind params = .ok (.argument argument)) : piece.isArgument = true := by
  cases piece with
  | literal text =>
    rw [Marker.bind] at h
    split at h
    · assumption
    · cases h
  | char c => cases h
  | column name | table name | param name => rfl

/-- The text for an argument ends like a word, or with a mark. -/
theorem exists_getLast?_argumentText (backend : Backend) (number : Nat) :
    ∃ c, (argumentText backend number).getLast? = some c ∧
      (Template.isWordEnd c || c == '?') = true := by
  have hdigit {c : Char} (hc : c.isDigit = true) : (Template.isWordEnd c || c == '?') = true := by
    have hpart : Token.isWordPart c = true := by
      rw [Token.isWordPart, Token.isWordStart, hc, Bool.or_true, Bool.true_or, Bool.true_or]
    rw [isWordEnd_of_isWordPart hpart, Bool.true_or]
  rw [argumentText]
  cases backend with
  | postgres =>
    obtain ⟨c, hlast⟩ : ∃ c, (decimalDigits number).getLast? = some c :=
      ⟨_, List.getLast?_eq_some_getLast Nat.toDigits_ne_nil⟩
    have hc : c.isDigit = true :=
      List.all_eq_true.mp (all_isDigit_decimalDigits number) c (List.mem_of_getLast? hlast)
    refine ⟨c, ?_, hdigit hc⟩
    rw [if_pos (by rfl), List.getLast?_cons, hlast]
    rfl
  | mysql | sqlite => exact ⟨'?', rfl, rfl⟩

theorem markText_eq (backend : Backend) (last : Option Char) (number : Nat) :
    Template.markText backend last number =
      (if last.any fun c => Template.isWordEnd c || c == '?' then [' '] else []) ++
        argumentText backend number := rfl

theorem getLast?_markText (backend : Backend) (last : Option Char) (number : Nat) :
    (Template.markText backend last number).getLast? =
      (argumentText backend number).getLast? := by
  rw [markText_eq, List.getLast?_append_of_ne_nil]
  exact List.cons_ne_nil _ _

theorem head?_charText (backend : Backend) (last : Option Char) (c : Char) :
    (Template.charText backend last c).head? = some c := by
  unfold Template.charText
  split <;> rfl

theorem getLast?_charText (backend : Backend) (last : Option Char) (c : Char) :
    (Template.charText backend last c).getLast? = some c := by
  unfold Template.charText
  split <;> rfl

/-- A template goes on with a character, with the quote of a literal, or with a mark that a space may
precede. -/
theorem head?_ofItemsFrom (h : List.Forall₂ (fun piece item => piece.bind params = .ok item)
      pieces items) (hplain : ∀ piece ∈ pieces, piece.IsPlain) {count : Nat} {c : Char}
    (hc : (Template.ofItemsFrom backend last count items).text.head? = some c) :
    (∃ rest, pieces = .char c :: rest) ∨
    (c = '\'' ∧ ∃ text rest, pieces = .literal text :: rest) ∨
    c = if last.any fun c => Template.isWordEnd c || c == '?' then ' ' else backend.mark := by
  cases h with
  | nil => cases hc
  | @cons piece item rest items hpiece hrest =>
    cases item with
    | char d =>
      obtain rfl := bind_eq_char hpiece
      rw [Template.ofItemsFrom, List.head?_append, head?_charText] at hc
      obtain rfl := Option.some.inj hc
      exact .inl ⟨rest, rfl⟩
    | literal text =>
      obtain ⟨rfl, -⟩ := bind_eq_literal hpiece
      obtain ⟨body, rfl, -⟩ := hplain _ List.mem_cons_self
      obtain rfl := Option.some.inj hc
      exact .inr (.inl ⟨rfl, _, rest, rfl⟩)
    | argument argument =>
      rw [Template.ofItemsFrom, markText_eq, argumentText] at hc
      by_cases hspace : (last.any fun c => Template.isWordEnd c || c == '?') = true
      · rw [if_pos hspace] at hc ⊢
        exact .inr (.inr (Option.some.inj hc).symm)
      · rw [if_neg hspace] at hc ⊢
        exact .inr (.inr (Option.some.inj hc).symm)

/-- A mark that is not doubled is a part of a word, if it does not clash with what precedes it. -/
theorem Ends.inside_of_not_clashes (h : Ends backend previous last run)
    (hmark : backend.mark = '$') (hlast : last.any Template.isWordEnd = true)
    (hclash : (previous.any (Marker.clashes backend (endsInWord run) · '$')) = false) :
    endsInWord run = true := by
  obtain rfl : backend = .postgres := by cases backend <;> first | rfl | cases hmark
  cases h with
  | start => cases hlast
  | char run d =>
    rw [Option.any_some] at hlast hclash
    simpa [Marker.clashes, Backend.mark, hlast] using hclash
  | mark => exact absurd hclash (by decide)
  | @argument piece c hpiece hc =>
    rw [Option.any_some] at hclash
    cases piece with
    | char d => cases hpiece
    | param name =>
      rw [Marker.clashes] at hclash
      exact absurd hclash (by decide)
    | _ =>
      simp only [Marker.clashes, hpiece, Bool.true_and] at hclash
      exact absurd hclash (by decide)
  | literal htext => exact absurd hlast (by decide)

/-! ### Templates -/

/-- However a template ends, with the given pieces behind it it is printed as they are. -/
def PrintsFrom (params : Params) (backend : Backend) (pieces : List Marker) (items : List Item) :
    Prop :=
  ∀ ⦃previous last run⦄, Ends backend previous last run → (∀ c ∈ run, IsBare c) →
    IsUnmarked backend run → clashesFrom backend previous (endsInWord run) pieces = false →
    ∀ before : List Argument, before.length + pieces.length < 2 ^ 64 →
    Prints params backend
      (before ++ (Template.ofItemsFrom backend last before.length items).arguments) before.length
      (run ++ (Template.ofItemsFrom backend last before.length items).text)
      (run.map .char ++ spacedFrom previous pieces)

theorem printsFrom_nil : PrintsFrom params backend [] [] := by
  intro previous last run _ hrun hmarks _ before _
  exact prints_nil.run hrun hmarks (by simp [Template.ofItemsFrom])
    (by simp [Template.ofItemsFrom])

theorem PrintsFrom.char {c : Char} (hc : IsBare c) {rest : List Marker}
    (h : PrintsFrom params backend rest items) :
    PrintsFrom params backend (.char c :: rest) (.char c :: items) := by
  intro previous last run hends hrun hmarks hclash before hlength
  rw [clashesFrom, Bool.or_eq_false_iff] at hclash
  obtain ⟨hnext, hrest⟩ := hclash
  rw [List.length_cons] at hlength
  have hspaced : spacedFrom previous (.char c :: rest) =
      .char c :: spacedFrom (some (.char c)) rest := rfl
  rw [hspaced, Template.ofItemsFrom]
  dsimp only
  by_cases hdouble : (c = backend.mark && !(c == '$' && last.any Template.isWordEnd)) = true
  · have htext : Template.charText backend last c = [c, c] := if_pos hdouble
    simp only [Bool.and_eq_true, decide_eq_true_eq, Bool.not_eq_true', Bool.and_eq_false_iff,
      beq_eq_false_iff_ne] at hdouble
    obtain ⟨rfl, hlast⟩ := hdouble
    have hapart := hends.apart_from_mark hlast
    have hfresh : Token.staysInWord (endsInWord run) backend.mark = endsInWord [] := by
      rw [Token.staysInWord, hapart, Bool.or_false]
      cases backend <;> rfl
    rw [hfresh] at hrest
    have hprints := h .mark (by simp) (isUnmarked_nil backend) hrest before (by omega)
    rw [htext]
    refine hprints.mark.run hrun hmarks ?_ ?_
    · rintro d ⟨⟩
      cases backend <;> decide
    · rintro hinside d ⟨⟩
      rwa [hinside, Bool.true_and] at hapart
  · have htext : Template.charText backend last c = [c] := if_neg hdouble
    have hword : c = backend.mark → (endsInWord run && Token.isWordPart backend.mark) = true := by
      rintro rfl
      simp only [decide_true, Bool.true_and, Bool.not_eq_true', Bool.not_eq_false,
        Bool.and_eq_true, beq_iff_eq] at hdouble
      obtain ⟨hmark, hlast⟩ := hdouble
      rw [hmark] at hnext ⊢
      rw [hends.inside_of_not_clashes hmark hlast hnext]
      decide
    have hbare : ∀ d ∈ run ++ [c], IsBare d :=
      List.forall_mem_append.mpr ⟨hrun, by simpa using hc⟩
    have hprints := h (.char run c) hbare (hmarks.concat hword)
      (by rwa [endsInWord_concat]) before (by omega)
    rw [htext]
    simpa using hprints

theorem PrintsFrom.literal {body : List Char} (hbody : Marker.isClosed body = true)
    (hbackslash : ('\'' :: body).contains '\\' = false) {rest : List Marker}
    (hall : List.Forall₂ (fun piece item => piece.bind params = .ok item) rest items)
    (hplain : ∀ piece ∈ rest, piece.IsPlain)
    (hnext : ∀ piece ∈ rest.head?, piece.isLiteral = false)
    (h : PrintsFrom params backend rest items) :
    PrintsFrom params backend (.literal ('\'' :: body) :: rest) (.literal ('\'' :: body) :: items) := by
  intro previous last run hends hrun hmarks hclash before hlength
  have hspaced : spacedFrom previous (.literal ('\'' :: body) :: rest) =
      .literal ('\'' :: body) :: spacedFrom (some (.literal ('\'' :: body))) rest := by
    rw [spacedFrom, Marker.isArgument, hbackslash]
    rfl
  have hlast : ('\'' :: body).getLast?.or last = some '\'' := by
    rw [List.getLast?_cons, getLast?_of_isClosed hbody]
    rfl
  rw [List.length_cons] at hlength
  rw [hspaced, Template.ofItemsFrom, hlast]
  have hprints := h (.literal hbackslash) (by simp) (isUnmarked_nil backend) hclash before (by omega)
  -- No other literal follows, so the literal ends where it is closed.
  have hhead : (Template.ofItemsFrom backend (some '\'') before.length items).text.head? ≠
      some '\'' := by
    intro hquote
    rcases head?_ofItemsFrom hall hplain hquote with
      ⟨more, rfl⟩ | ⟨-, text, more, rfl⟩ | hmark
    · exact hplain _ List.mem_cons_self (by decide)
    · cases hnext _ rfl
    · cases backend <;> exact absurd hmark (by decide)
  have hnot : '\\' ∉ body := by simp_all
  refine (hprints.literal hbody hnot hhead).run hrun hmarks ?_ ?_
  · rintro c ⟨⟩
    decide
  · rintro - c ⟨⟩
    decide

/-- A mark, with a space in front of it where one is wanted, can follow any end of a template. -/
theorem Ends.prints_mark (hends : Ends backend previous last run) (hrun : ∀ c ∈ run, IsBare c)
    (hmarks : IsUnmarked backend run) {arguments : List Argument} {next : Nat} {tail : List Char}
    (h : Prints params backend arguments next (backend.mark :: tail) pieces) :
    Prints params backend arguments next
      (run ++ ((if last.any fun c => Template.isWordEnd c || c == '?' then [' '] else []) ++
        backend.mark :: tail))
      (run.map .char ++ ((if previous.any Marker.wantsSpace then [.char ' '] else []) ++ pieces)) := by
  have hhead : ∀ c ∈ (backend.mark :: tail).head?, Token.isSpace c = false := by
    rintro c ⟨⟩
    cases backend <;> decide
  rw [hends.any_last]
  cases hspace : previous.any Marker.wantsSpace with
  | true =>
    have hbare : ∀ c ∈ run ++ [' '], IsBare c :=
      List.forall_mem_append.mpr ⟨hrun, List.forall_mem_singleton.mpr (by decide)⟩
    have hunmarked : IsUnmarked backend (run ++ [' ']) :=
      hmarks.concat fun hmark => by cases backend <;> exact absurd hmark (by decide)
    have houtside : endsInWord (run ++ [' ']) = false := by
      rw [endsInWord_concat, Token.staysInWord]
      cases endsInWord run <;> decide
    have hprints := h.run hbare hunmarked hhead fun hinside => by
      rw [houtside] at hinside
      cases hinside
    simpa using hprints
  | false =>
    have hlast : last.any Template.isWordEnd = false := by
      rw [← hends.any_last] at hspace
      cases last with
      | none => rfl
      | some c => exact (Bool.or_eq_false_iff.mp hspace).1
    exact h.run hrun hmarks hhead fun hinside => by
      rw [hends.outside hlast] at hinside
      cases hinside

/-- Spaces bind no values. -/
theorem filterMap_spacedFrom (previous : Option Marker) (pieces : List Marker) :
    (spacedFrom previous pieces).filterMap Marker.param? = pieces.filterMap Marker.param? := by
  induction pieces generalizing previous with
  | nil => rfl
  | cons piece rest ih =>
    have hspace : (if piece.isArgument && previous.any Marker.wantsSpace then
        [Marker.char ' '] else []).filterMap Marker.param? = [] := by
      split <;> rfl
    rw [spacedFrom, List.filterMap_append, hspace, List.nil_append, ← List.singleton_append,
      List.filterMap_append, ih, ← List.filterMap_append]
    rfl

theorem spacedFrom_argument {piece : Marker} (hpiece : piece.isArgument = true)
    (rest : List Marker) :
    spacedFrom previous (piece :: rest) =
      (if previous.any Marker.wantsSpace then [.char ' '] else []) ++
        piece :: spacedFrom (some piece) rest := by
  rw [spacedFrom, hpiece, Bool.true_and]

theorem clashesFrom_argument {piece : Marker} (hpiece : piece.isArgument = true) (inside : Bool)
    (rest : List Marker) :
    clashesFrom backend previous inside (piece :: rest) =
      clashesFrom backend (some piece) false rest := by
  cases piece with
  | char c => cases hpiece
  | _ => rfl

theorem PrintsFrom.argument {piece : Marker} {argument : Argument} {rest : List Marker}
    (hpiece : piece.bind params = .ok (.argument argument))
    (hall : List.Forall₂ (fun piece item => piece.bind params = .ok item) rest items)
    (hplain : ∀ piece ∈ rest, piece.IsPlain)
    (hnext : ∀ c more, rest = .char c :: more → piece.clashes backend false c = false →
      endsMark backend c = true)
    (h : PrintsFrom params backend rest items) :
    PrintsFrom params backend (piece :: rest) (.argument argument :: items) := by
  intro previous last run hends hrun hmarks hclash before hlength
  have hargument : piece.isArgument = true := isArgument_of_bind hpiece
  rw [List.length_cons] at hlength
  rw [clashesFrom_argument hargument] at hclash
  obtain ⟨c, hlast, hc⟩ := exists_getLast?_argumentText backend (before.length + 1)
  rw [Template.ofItemsFrom, spacedFrom_argument hargument, getLast?_markText, hlast, markText_eq]
  have hprints := h (.argument hargument hc) (by simp) (isUnmarked_nil backend) hclash
    (before ++ [argument]) (by
      rw [List.length_append, List.length_singleton]
      omega)
  rw [List.length_append, List.length_singleton, List.append_assoc] at hprints
  have hget : (before ++ argument :: (Template.ofItemsFrom backend (some c) (before.length + 1)
      items).arguments)[before.length]? = some argument := by simp
  have htail : ∀ d ∈ (Template.ofItemsFrom backend (some c) (before.length + 1) items).text.head?,
      endsMark backend d = true := by
    intro d hd
    rcases head?_ofItemsFrom hall hplain hd with ⟨more, rfl⟩ | ⟨rfl, -⟩ | hspace
    · rw [clashesFrom, Bool.or_eq_false_iff] at hclash
      exact hnext d more rfl hclash.1
    · cases backend <;> decide
    · rw [Option.any_some, hc, if_pos rfl] at hspace
      rw [hspace]
      cases backend <;> decide
  have hmarked := hprints.argument hpiece hget (by omega) htail
  rw [argumentText, List.cons_append] at hmarked
  have hbehind := hends.prints_mark hrun hmarks hmarked
  rw [argumentText]
  simpa only [List.append_assoc, List.cons_append, List.map_nil, List.nil_append] using hbehind

/-- Where marks have no numbers, the place of a value and a mark can change places. -/
theorem Prints.swap (hnumbered : backend.isNumbered = false) {arguments : List Argument} {next : Nat}
    {text name : List Char}
    (h : Prints params backend arguments next text (.char backend.mark :: .param name :: pieces)) :
    Prints params backend arguments next text (.param name :: .char backend.mark :: pieces) := by
  obtain ⟨chunks, hchunks, htext, hvalues⟩ := h
  refine ⟨chunks, hchunks, fun count => ?_, hvalues⟩
  rw [htext, renderFrom, renderFrom, renderFrom, renderFrom, hnumbered]
  rfl

/-- Where marks have no numbers, nothing clashes with the place of a value. -/
theorem clashesFrom_param (hnumbered : backend.isNumbered = false) {name : List Char} {inside : Bool}
    {rest : List Marker} (h : clashesFrom backend previous inside rest = false) :
    clashesFrom backend (some (.param name)) inside rest = false := by
  cases rest with
  | nil => rfl
  | cons piece more =>
    cases piece with
    | char c =>
      rw [clashesFrom, Bool.or_eq_false_iff] at h
      rw [clashesFrom, Option.any_some, Marker.clashes, hnumbered]
      exact h.2
    | _ => exact h

/-- A mark behind the place of a value is printed in front of it where marks have no numbers. -/
theorem PrintsFrom.swapped (hnumbered : backend.isNumbered = false) {name : List Char}
    {argument : Argument} {rest : List Marker}
    (h : PrintsFrom params backend (.param name :: rest) (.argument argument :: items)) :
    PrintsFrom params backend (.param name :: .char backend.mark :: rest)
      (.argument argument :: .char backend.mark :: items) := by
  intro previous last run hends hrun hmarks hclash before hlength
  have hmark : backend.mark = '?' := by cases backend <;> first | rfl | cases hnumbered
  have hrest : clashesFrom backend (some (.char backend.mark)) false rest = false := by
    rw [clashesFrom_argument rfl, clashesFrom, Bool.or_eq_false_iff] at hclash
    rw [hmark] at hclash ⊢
    exact hclash.2
  rw [List.length_cons, List.length_cons] at hlength
  have hprints := h .start (by simp) (isUnmarked_nil backend)
    (by rw [clashesFrom_argument rfl]; exact clashesFrom_param hnumbered hrest) before (by
      rw [List.length_cons]
      omega)
  have hargument (count : Nat) : argumentText backend count = [backend.mark] := by
    rw [argumentText, hnumbered]
    rfl
  have hchar : Template.charText backend (some backend.mark) backend.mark =
      [backend.mark, backend.mark] := by
    rw [Template.charText, hmark]
    rfl
  have hspaced : spacedFrom (some (.char backend.mark)) rest =
      spacedFrom (some (.param name)) rest := by
    cases rest with
    | nil => rfl
    | cons piece more =>
      rw [spacedFrom, spacedFrom, hmark]
      rfl
  have hlast (last : Option Char) (count : Nat) :
      (Template.markText backend last count).getLast? = some backend.mark := by
    rw [getLast?_markText, hargument]
    rfl
  rw [Template.ofItemsFrom, hlast] at hprints
  rw [Template.ofItemsFrom, hlast, Template.ofItemsFrom, hchar, markText_eq, hargument,
    spacedFrom_argument rfl]
  rw [markText_eq, hargument, spacedFrom_argument rfl] at hprints
  have hbehind := hends.prints_mark hrun hmarks (hprints.mark.swap hnumbered)
  simpa [spacedFrom, Marker.isArgument, hspaced] using hbehind

/-- What follows an argument ends its mark, if it does not clash with it and is no mark that can
change places with it. -/
theorem endsMark_of_not_clashes {piece : Marker} (hpiece : piece.isArgument = true)
    (hswap : ¬ (backend.isNumbered = false ∧ ∃ name, piece = .param name)) {c : Char}
    (hclash : piece.clashes backend false c = false) : endsMark backend c = true := by
  cases piece with
  | char d => cases hpiece
  | param name =>
    have hnumbered : backend.isNumbered = true := by
      by_contra hnot
      exact hswap ⟨by simpa using hnot, name, rfl⟩
    simpa [Marker.clashes, hnumbered] using hclash
  | _ => simpa [Marker.clashes, hpiece] using hclash

/-- **Pieces without clashes are printed as they are.**  The induction is on their number, since a
mark that changes places with a value is taken out from behind it. -/
theorem printsFrom (h : List.Forall₂ (fun piece item => piece.bind params = .ok item) pieces items)
    (hplain : ∀ piece ∈ pieces, piece.IsPlain) (hchain : pieces.IsChain Marker.Separate) :
    PrintsFrom params backend pieces items := by
  induction hn : pieces.length using Nat.strongRecOn generalizing pieces items with
  | _ n ih =>
    cases h with
    | nil => exact printsFrom_nil
    | @cons piece item rest items hpiece hrest =>
      obtain ⟨hfirst, hplainRest⟩ := List.forall_mem_cons.mp hplain
      rw [List.isChain_cons] at hchain
      obtain ⟨hseparate, hchainRest⟩ := hchain
      rw [List.length_cons] at hn
      have hprintsRest : PrintsFrom params backend rest items :=
        ih _ (by omega) hrest hplainRest hchainRest rfl
      cases item with
      | char c =>
        obtain rfl := bind_eq_char hpiece
        exact .char hfirst hprintsRest
      | literal text =>
        obtain ⟨rfl, hbackslash⟩ := bind_eq_literal hpiece
        obtain ⟨body, rfl, hbody⟩ := hfirst
        refine .literal hbody hbackslash hrest hplainRest (fun next hnext => ?_) hprintsRest
        exact (hseparate next hnext).resolve_left (by simp [Marker.isLiteral])
      | argument argument =>
        by_cases hswap : backend.isNumbered = false ∧ ∃ name, piece = .param name
        · obtain ⟨hnumbered, name, rfl⟩ := hswap
          by_cases hmark : ∃ more, rest = .char backend.mark :: more
          · obtain ⟨more, rfl⟩ := hmark
            cases hrest with
            | @cons _ item _ moreItems hitem hmore =>
              obtain rfl := Except.ok.inj hitem
              refine .swapped hnumbered (ih (more.length + 1) ?_ (.cons hpiece hmore) ?_ ?_ rfl)
              · rw [← hn, List.length_cons]
                omega
              · exact List.forall_mem_cons.mpr ⟨trivial, fun next hnext =>
                  hplainRest next (List.mem_cons_of_mem _ hnext)⟩
              · rw [List.isChain_cons] at hchainRest ⊢
                exact ⟨fun _ _ => .inl rfl, hchainRest.2⟩
          · refine .argument hpiece hrest hplainRest (fun c more hmore _ => ?_) hprintsRest
            rw [endsMark, hnumbered, if_neg Bool.false_ne_true, bne_iff_ne]
            rintro rfl
            exact hmark ⟨more, hmore⟩
        · exact .argument hpiece hrest hplainRest
            (fun c _ _ => endsMark_of_not_clashes (isArgument_of_bind hpiece) hswap) hprintsRest

end Neighbours

/-! ### Texts -/

/-- A piece whose value is known is bound. -/
theorem exists_items {params : Params} {pieces : List Marker}
    (h : ∀ name ∈ pieces.filterMap Marker.param?, (params.get? name).isSome = true) :
    ∃ items, pieces.mapM (Marker.bind params) = .ok items ∧
      List.Forall₂ (fun piece item => piece.bind params = .ok item) pieces items := by
  induction pieces with
  | nil => exact ⟨[], rfl, .nil⟩
  | cons piece rest ih =>
    obtain ⟨item, hitem⟩ : ∃ item, piece.bind params = .ok item := by
      cases piece with
      | param name =>
        obtain ⟨value, hvalue⟩ := Option.isSome_iff_exists.mp
          (h (String.ofList name) List.mem_cons_self)
        exact ⟨.argument (.value value), by rw [Marker.bind, hvalue]⟩
      | _ => exact ⟨_, rfl⟩
    obtain ⟨items, hitems, hall⟩ := ih fun name hname => h name (by
      rw [← List.singleton_append, List.filterMap_append]
      exact List.mem_append_right _ hname)
    refine ⟨item :: items, ?_, .cons hitem hall⟩
    rw [List.mapM_cons, hitem, hitems]
    rfl

/-- A text has a template if all values that it refers to are there. -/
theorem exists_template (backend : Backend) {text : String} {params : Params}
    (h : ∀ name ∈ placeholders text.toList, (params.get? name).isSome = true) :
    ∃ template, Template.ofText backend text params = .ok template := by
  obtain ⟨items, hitems, -⟩ := exists_items h
  refine ⟨Template.ofItems backend items, ?_⟩
  rw [Template.ofText, hitems]
  rfl

/-- **A text without clashes is printed piece by piece**, if all values that it refers to are there.
The numbers of arguments are read as numbers below 2⁶⁴, so the text has to be shorter than that. -/
theorem printText_markers (backend : Backend) {text : String} {params : Params}
    (hplain : ∀ piece ∈ markers text.toList, piece.IsPlain)
    (hchain : (markers text.toList).IsChain Marker.Separate)
    (hclash : clashesFrom backend none false (markers text.toList) = false)
    (hparams : ∀ name ∈ placeholders text.toList, (params.get? name).isSome = true)
    (hlength : text.length < 2 ^ 64) :
    ∃ chunks, printText backend text params = .ok chunks ∧
      (∀ count, Chunk.textFrom backend count chunks =
        renderFrom backend count (spacedFrom none (markers text.toList))) ∧
      (Chunk.values chunks).map some = (placeholders text.toList).map params.get? := by
  obtain ⟨items, hitems, hall⟩ := exists_items hparams
  have hcount : (markers text.toList).length ≤ text.length := by
    rw [markers, List.length_map, ← String.length_toList]
    exact Text.length_cut_le _ _
  obtain ⟨chunks, hchunks, htext, hvalues⟩ := printsFrom hall hplain hchain .start (by simp)
    (isUnmarked_nil backend) hclash [] (by
      rw [List.length_nil]
      omega)
  refine ⟨chunks, ?_, htext, ?_⟩
  · unfold printText Template.ofText
    rw [hitems]
    exact hchunks 0 fun _ => rfl
  · rw [hvalues, List.map_nil, List.nil_append, filterMap_spacedFrom]
    rfl

end PagedSearch
