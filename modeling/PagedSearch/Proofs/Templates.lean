import PagedSearch.Filter.Binding
import PagedSearch.Proofs.Lexemes
import PagedSearch.Proofs.Substitution

/-!
# Values in templates

A template is read like a filter, except that the place of a value is read as a name.  If each place
stands alone, outside of quoted texts and comments and with separators around it, then the filter in
which the literals are put is read as the template, with one atom in each place.  Nothing in a value
can change how the rest is read, as long as its literal is read as one lexeme.  The literals of
constants are, whatever they contain.

## Main definitions

* `Binding.place`, `Binding.IsBound` — the places of values in templates.
* `lexTemplate`, `parseTemplate` — a template with its places read as names.
* `Binding.StandsAlone` — each place of a value is an operand by itself.
* `Json.atom`, `Binding.atom?` — the atom that a value is, and the one in the place of a value.
* `Json.IsLegible` — the literal of a value is read as one lexeme.
* `Binding.constant?` — the constant for the name that a place is read as.

## Main results

* `Json.isLegible_of_not_isNumber` — the literal of a constant is read as one lexeme.
* `readPiece_append` — what is read in front of a literal does not depend on it.
* `bindTemplate_filled` — a template with its values is read as the template.
* `bindTemplate_replaced` — the same for values that are constants.
-/

namespace PagedSearch

open Lexing

/-! ### Places -/

namespace Binding

/-- How a template says that the value with the given name belongs somewhere. -/
def place (name : List Char) : List Char := '{' :: ':' :: (name ++ ['}'])

/-- The name in the place at the start of a text. -/
def placeName? : List Char → Option (List Char)
  | [] => none
  | first :: rest => (readPlace first rest).1

/-- The value for a name; of several with the same name the last one counts. -/
def value? (values : List (String × Json)) (name : List Char) : Option Json :=
  values.reverse.lookup (String.ofList name)

/-- A name for which there is a value. -/
structure IsBound (values : List (String × Json)) (name : List Char) : Prop where
  /-- The name is not empty. -/
  ne_nil : name ≠ []
  /-- It can be written in a template. -/
  isNamePart : name.all isNamePart = true
  /-- It has a value. -/
  isSome_value? : (value? values name).isSome = true

/-- In a template, the place of a value stands between `before` and `after`. -/
def IsPlace (values : List (String × Json)) (template before after : List Char) : Prop :=
  ∃ name, IsBound values name ∧ template = before ++ place name ++ after

/-- The characters that can stand both in front of an operand and behind it. -/
def isSeparator (c : Char) : Bool :=
  Text.isBlank c || isComparatorPart c || c == ',' || c == '&' || c == '|'

/-- Whether a piece is a quoted text, with or without its closing quote, or a comment. -/
def isSealed (text : List Char) : Bool :=
  text.head? = some '\'' || text.head? = some '"' || text.take 2 = ['/', '/']

/-- Whether the character at a position is in none of the quoted texts and comments among the pieces
of a text. -/
def isOutside : List (Piece × List Char) → Nat → Bool
  | [], _ => true
  | (_, text) :: rest, position =>
    if position < text.length then !isSealed text else isOutside rest (position - text.length)

end Binding

/-! ### Reading templates -/

section Reading

open Binding

variable (values : List (String × Json))

/-- The piece of a template that starts with `first`, and how many characters of `rest` are in it.
The place of a value is read as a name, and all else as in a filter. -/
def readTemplate (first : Char) (rest : List Char) : Piece × Nat :=
  match readPlace first rest with
  | (some name, count) =>
    if (value? values name).isSome then
      (.lexeme (.identifier (String.ofList (place name))), count)
    else readPiece first rest
  | (none, _) => readPiece first rest

/-- The lexemes of a template, up to its end or to the first fault. -/
def lexTemplate (template : String) : List Located × Except ParseError Nat :=
  collect 0 (Text.cut (readTemplate values) template.toList)

/-- The tree of a template, or the first fault in it. -/
def parseTemplate (template : String) : Except ParseError (List Group) :=
  let (lexemes, ending) := lexTemplate values template
  Parsing.parseLexemes lexemes ending

/-- Between `before` and `after`, the place of a value is an operand by itself. -/
structure Binding.IsAlone (template before after : List Char) : Prop where
  /-- It is at the start of the template, or behind a separator or a parenthesis. -/
  opened : ∀ c ∈ before.getLast?, isSeparator c = true ∨ c = '('
  /-- It is at the end of the template, or in front of a separator or a parenthesis. -/
  closed : ∀ c ∈ after.head?, isSeparator c = true ∨ c = ')'
  /-- It does not start inside of a quoted text or a comment. -/
  outside : isOutside (Text.cut (readTemplate values) template) before.length = true

/-- Each place of a value is an operand by itself. -/
def Binding.StandsAlone (template : List Char) : Prop :=
  ∀ before after, IsPlace values template before after → IsAlone values template before after

end Reading

/-! ### Constants for values -/

/-- What a value is in a filter.  A list or an object is its text.  Numbers are no constants, since
a filter has no way to write an exponent. -/
def Json.constant? : Json → Option Constant
  | .null => some (.named "null")
  | .bool value => some (.named (if value then "true" else "false"))
  | .number _ => none
  | .string content => some (.text content)
  | .array elements => some (.text (Json.array elements).text)
  | .members list => some (.text (Json.members list).text)

/-- Whether a value is a number. -/
def Json.isNumber : Json → Bool
  | .number _ => true
  | _ => false

/-- The constant for the name that the place of a value is read as. -/
def Binding.constant? (values : List (String × Json)) (name : String) : Option Constant :=
  (placeName? name.toList).bind fun name => (value? values name).bind Json.constant?

/-- The double that a number of a JSON document stands for. -/
def JsonNumber.toDouble : JsonNumber → Double
  | .integer value => .ofRatio (value < 0) value.natAbs 1
  | .double value => value

/-- What a value is in a filter, if its literal can be read.  A list or an object is its text. -/
def Json.atom : Json → Atom
  | .null => .named "null"
  | .bool value => .named (if value then "true" else "false")
  | .number value => .number value.toDouble
  | .string content => .text content
  | .array elements => .text (Json.array elements).text
  | .members list => .text (Json.members list).text

/-- The atom for the name that the place of a value is read as. -/
def Binding.atom? (values : List (String × Json)) (name : String) : Option Atom :=
  (placeName? name.toList).bind fun name => (value? values name).map Json.atom

/-- The fault at which reading has ended. -/
def Lexing.fault? : Except ParseError Nat → Option ParseFault
  | .ok _ => none
  | .error e => some e.fault

namespace Binding

variable {values : List (String × Json)} {name : List Char}

/-! ### Where places are -/

theorem readPlace_place (hne : name ≠ []) (hname : name.all isNamePart = true)
    (after : List Char) :
    readPlace '{' (':' :: (name ++ '}' :: after)) = (some name, name.length + 2) := by
  have htake : (name ++ '}' :: after).takeWhile isNamePart = name := by
    have hbrace : isNamePart '}' = false := by decide
    rw [List.takeWhile_append_of_pos (by simpa using hname),
      List.takeWhile_cons_of_neg (by simp [hbrace]), List.append_nil]
  simp [readPlace, htake, hne]

theorem placeName?_place (hne : name ≠ []) (hname : name.all isNamePart = true)
    (after : List Char) : placeName? (place name ++ after) = some name := by
  simp [placeName?, place, readPlace_place hne hname after]

/-- The place that is read at the start of a text stands there. -/
theorem readPlace_eq_some {first : Char} {rest : List Char}
    (h : (readPlace first rest).1 = some name) :
    (readPlace first rest).2 = name.length + 2 ∧ name ≠ [] ∧ name.all isNamePart = true ∧
      ∃ after, first :: rest = place name ++ after := by
  unfold readPlace at h ⊢
  split at h
  · rename_i body
    dsimp only at h ⊢
    split at h
    · rename_i hplace
      obtain rfl := Option.some.inj h
      obtain ⟨hne, hbrace⟩ : body.takeWhile isNamePart ≠ [] ∧
          (body.drop (body.takeWhile isNamePart).length).head? = some '}' := by
        simpa using hplace
      rw [if_pos hplace]
      refine ⟨rfl, hne, List.all_takeWhile, ?_⟩
      rw [drop_length_takeWhile] at hbrace
      obtain ⟨after, hafter⟩ : ∃ after, body.dropWhile isNamePart = '}' :: after := by
        cases h : body.dropWhile isNamePart <;> simp_all
      refine ⟨after, ?_⟩
      have hsplit := List.takeWhile_append_dropWhile (p := isNamePart) (l := body)
      rw [hafter] at hsplit
      simpa [place] using hsplit.symm
    · cases h
  · cases h

theorem readPlace_eq_none {first : Char} {rest : List Char}
    (h : (readPlace first rest).1 = none) : readPlace first rest = (none, 0) := by
  unfold readPlace at h ⊢
  split at h
  · dsimp only at h ⊢
    split at h
    · cases h
    · rename_i hplace
      rw [if_neg hplace]
  · rfl

theorem readPlace_of_ne {first : Char} (h : first ≠ '{') (rest : List Char) :
    readPlace first rest = (none, 0) := by
  unfold readPlace
  split
  · exact absurd rfl h
  · rfl

/-- A text that starts with the place of a value. -/
def StartsPlace (values : List (String × Json)) (text : List Char) : Prop :=
  ∃ after, IsPlace values text [] after

theorem startsPlace_of_readPlace {first : Char} {rest : List Char}
    (h : (readPlace first rest).1 = some name) (hvalue : (value? values name).isSome = true) :
    StartsPlace values (first :: rest) := by
  obtain ⟨-, hne, hname, after, hafter⟩ := readPlace_eq_some h
  exact ⟨after, name, ⟨hne, hname, hvalue⟩, hafter⟩

theorem readTemplate_place (h : IsBound values name) (after : List Char) :
    readTemplate values '{' (':' :: (name ++ '}' :: after)) =
      (.lexeme (.identifier (String.ofList (place name))), name.length + 2) := by
  simp [readTemplate, readPlace_place h.ne_nil h.isNamePart, h.isSome_value?]

theorem readTemplate_of_not_startsPlace {first : Char} {rest : List Char}
    (h : ¬StartsPlace values (first :: rest)) :
    readTemplate values first rest = readPiece first rest := by
  unfold readTemplate
  split
  · rename_i name count hread
    rw [if_neg]
    exact fun hvalue => h (startsPlace_of_readPlace (congrArg Prod.fst hread) hvalue)
  · rfl

theorem atom?_place (hne : name ≠ []) (hname : name.all isNamePart = true) :
    atom? values (String.ofList (place name)) = (value? values name).map Json.atom := by
  have hplace := placeName?_place hne hname []
  rw [List.append_nil] at hplace
  rw [atom?, String.toList_ofList, hplace]
  rfl

instance {template before after : List Char} : Decidable (IsAlone values template before after) :=
  decidable_of_iff
    ((before.getLast?.all fun c => isSeparator c || c == '(') = true ∧
      (after.head?.all fun c => isSeparator c || c == ')') = true ∧
      isOutside (Text.cut (readTemplate values) template) before.length = true)
    (by
      simp only [Option.all_eq_true, Bool.or_eq_true, beq_iff_eq]
      exact ⟨fun ⟨hopened, hclosed, houtside⟩ => ⟨hopened, hclosed, houtside⟩,
        fun ⟨hopened, hclosed, houtside⟩ => ⟨hopened, hclosed, houtside⟩⟩)

/-- Whether the places of a template stand alone is checked where their names can be read. -/
theorem standsAlone_iff {template : List Char} :
    StandsAlone values template ↔
      ∀ i < template.length, ∀ name ∈ placeName? (template.drop i),
        (value? values name).isSome = true →
          IsAlone values template (template.take i) (template.drop (i + (place name).length)) := by
  constructor
  · intro h i hi name hname hvalue
    obtain ⟨first, rest, hdrop⟩ := List.exists_cons_of_ne_nil
      (fun hnil : template.drop i = [] => Nat.not_le_of_lt hi (List.drop_eq_nil_iff.mp hnil))
    rw [hdrop] at hname
    obtain ⟨-, hne, hpart, after, hafter⟩ := readPlace_eq_some hname
    have htail : template.drop (i + (place name).length) = after := by
      rw [← List.drop_drop, hdrop, hafter, List.drop_left' rfl]
    refine h _ _ ⟨name, ⟨hne, hpart, hvalue⟩, ?_⟩
    rw [htail, List.append_assoc, ← hafter, ← hdrop, List.take_append_drop]
  · rintro h before after ⟨name, hbound, rfl⟩
    have hdrop : (before ++ place name ++ after).drop before.length = place name ++ after := by
      simp
    have hname := placeName?_place hbound.ne_nil hbound.isNamePart after
    have halone := h before.length (by simp [place]) name (by rw [hdrop, hname]; rfl)
      hbound.isSome_value?
    have htake : (before ++ place name ++ after).take before.length = before := by simp
    have htail : (before ++ place name ++ after).drop (before.length + (place name).length) =
        after := by
      rw [← List.drop_drop, hdrop, List.drop_left' rfl]
    rwa [htake, htail] at halone

instance {template : List Char} : Decidable (StandsAlone values template) :=
  decidable_of_iff _ standsAlone_iff.symm

/-! ### Filling places -/

/-- A text with the given values in their places. -/
def fillIn (values : List (String × Json)) (text : List Char) : List Char :=
  (Text.cut readPlace text).flatMap (fill values.reverse)

/-- What has no place in it stays as it is. -/
theorem fillIn_append_of_notMem {text : List Char} (h : '{' ∉ text) (tail : List Char) :
    fillIn values (text ++ tail) = text ++ fillIn values tail := by
  induction text with
  | nil => rfl
  | cons first rest ih =>
    rw [List.mem_cons, not_or] at h
    rw [fillIn, List.cons_append, Text.cut_cons, readPlace_of_ne (Ne.symm h.1), List.flatMap_cons]
    exact congrArg (first :: ·) (ih h.2)

theorem notMem_placeTail (hname : name.all isNamePart = true) :
    '{' ∉ ':' :: (name ++ ['}']) := by
  have hbrace : '{' ∉ name := fun hmem =>
    absurd (List.all_eq_true.mp hname _ hmem) (by decide)
  simp [hbrace]

/-- A value is put in its place. -/
theorem fillIn_place {value : Json} (hbound : IsBound values name)
    (hvalue : value? values name = some value) (after : List Char) :
    fillIn values (place name ++ after) = value.literal.toList ++ fillIn values after := by
  have hread := readPlace_place hbound.ne_nil hbound.isNamePart after
  have htext : place name ++ after = '{' :: ':' :: (name ++ '}' :: after) := by simp [place]
  have hlookup : values.reverse.lookup (String.ofList name) = some value := hvalue
  rw [fillIn, htext, Text.cut_cons, hread, List.flatMap_cons]
  have hdrop : (':' :: (name ++ '}' :: after)).drop (name.length + 2) = after := by
    simp
  rw [hdrop]
  simp [fill, hlookup, fillIn]

/-- A character stays as it is unless the place of a value starts with it. -/
theorem fillIn_cons {first : Char} {rest : List Char} (h : ¬StartsPlace values (first :: rest)) :
    fillIn values (first :: rest) = first :: fillIn values rest := by
  cases hread : (readPlace first rest).1 with
  | none =>
    rw [fillIn, Text.cut_cons, List.flatMap_cons, readPlace_eq_none hread]
    rfl
  | some name =>
    -- The name has no value: its place is kept, and no other place starts inside of it.
    obtain ⟨hcount, hne, hname, after, hafter⟩ := readPlace_eq_some hread
    have hlookup : values.reverse.lookup (String.ofList name) = none :=
      Option.not_isSome_iff_eq_none.mp fun hvalue => h ⟨after, name, ⟨hne, hname, hvalue⟩, hafter⟩
    obtain ⟨rfl, hrest⟩ : first = '{' ∧ rest = ':' :: (name ++ ['}']) ++ after := by
      simpa [place] using hafter
    have hlength : (':' :: (name ++ ['}'])).length = name.length + 2 := by simp
    have hdrop : rest.drop (name.length + 2) = after := hrest ▸ List.drop_left' hlength
    have htake : rest.take (name.length + 2) = ':' :: (name ++ ['}']) :=
      hrest ▸ List.take_left' hlength
    rw [fillIn, Text.cut_cons, List.flatMap_cons, hread, hcount, hdrop, htake]
    rw [hrest, fillIn_append_of_notMem (notMem_placeTail hname)]
    simp [fill, hlookup, fillIn]

/-- Up to the place of a value, a text stays as it is. -/
theorem fillIn_eq_take_append (count : Nat) {text : List Char}
    (h : ∀ k < count, ¬StartsPlace values (text.drop k)) :
    fillIn values text = text.take count ++ fillIn values (text.drop count) := by
  induction count generalizing text with
  | zero => rfl
  | succ count ih =>
    cases text with
    | nil => rfl
    | cons first rest =>
      rw [fillIn_cons (h 0 (Nat.succ_pos _)), ih fun k hk => h (k + 1) (Nat.succ_lt_succ hk)]
      rfl

theorem not_startsPlace_nil : ¬StartsPlace values [] := by
  rintro ⟨after, name, -, heq⟩
  cases heq

/-- A text has no place of a value in it, or a first one. -/
theorem first_place (text : List Char) :
    (∀ k, ¬StartsPlace values (text.drop k)) ∨
      ∃ run name after, IsBound values name ∧ text = run ++ (place name ++ after) ∧
        ∀ k < run.length, ¬StartsPlace values (text.drop k) := by
  induction text with
  | nil => exact .inl fun k => by simpa using not_startsPlace_nil
  | cons c rest ih =>
    by_cases hstart : StartsPlace values (c :: rest)
    · obtain ⟨after, name, hbound, heq⟩ := hstart
      exact .inr ⟨[], name, after, hbound, heq, nofun⟩
    · -- No place starts here, so the first one is that of the rest.
      rcases ih with hfree | ⟨run, name, after, hbound, rfl, hfree⟩
      · refine .inl fun k => ?_
        cases k with
        | zero => exact hstart
        | succ k => exact hfree k
      · refine .inr ⟨c :: run, name, after, hbound, rfl, fun k hk => ?_⟩
        cases k with
        | zero => exact hstart
        | succ k => exact hfree k (Nat.lt_of_succ_lt_succ hk)

/-- A text without places stays as it is. -/
theorem fillIn_of_free {text : List Char} (hfree : ∀ k, ¬StartsPlace values (text.drop k)) :
    fillIn values text = text := by
  have hfill := fillIn_eq_take_append text.length fun k _ => hfree k
  rw [List.take_length, List.drop_length] at hfill
  simpa [fillIn] using hfill

/-- What is behind a character in front of the first place is filled as it is in the whole text. -/
theorem fillIn_drop {value : Json} {run after : List Char} (hbound : IsBound values name)
    (hvalue : value? values name = some value)
    (hfree : ∀ k < run.length, ¬StartsPlace values ((run ++ (place name ++ after)).drop k))
    {count : Nat} (hcount : count ≤ run.length) :
    fillIn values ((run ++ (place name ++ after)).drop count) =
      run.drop count ++ (value.literal.toList ++ fillIn values after) := by
  have hlength : (run.drop count).length = run.length - count := List.length_drop
  rw [List.drop_append_of_le_length hcount,
    fillIn_eq_take_append (run.length - count) fun k hk => ?_, List.take_left' hlength,
    List.drop_left' hlength, fillIn_place hbound hvalue]
  have hnot := hfree (count + k) (by omega)
  rw [← List.drop_drop, List.drop_append_of_le_length hcount] at hnot
  exact hnot

theorem mem_of_value? {value : Json} (h : value? values name = some value) :
    (String.ofList name, value) ∈ values := by
  obtain ⟨before, after, hpair, -⟩ := List.lookup_eq_some_iff.mp h
  rw [← List.mem_reverse, hpair]
  simp

end Binding

/-! ### Literals -/

section Literals

open Binding

/-- A character that can stand behind an operand ends a name. -/
theorem not_isIdentifierPart_of_isSeparator {c : Char} (h : isSeparator c = true) :
    isIdentifierPart c = false := by
  simp only [isSeparator, isComparatorPart, Bool.or_eq_true, beq_iff_eq] at h
  rcases h with ((((hblank | hmark) | rfl) | rfl) | rfl)
  · exact eq_false_of_isBlank (by decide +kernel) hblank
  · rcases hmark with ((((rfl | rfl) | rfl) | rfl) | rfl) | rfl <;> decide
  all_goals decide

/-- Between its quotes, a literal is written for the text. -/
theorem exists_quotes (content : String) :
    ∃ body, (quoteLiteral content).toList = '\'' :: (body ++ ['\'']) ∧
      Quotes '\'' content.toList body := by
  refine ⟨_, String.toList_ofList, ?_⟩
  induction content.toList with
  | nil => exact .nil
  | cons c content ih =>
    rw [List.flatMap_cons]
    split
    · rename_i hc
      simp only [Bool.or_eq_true, decide_eq_true_eq] at hc
      exact .escaped hc.symm ih
    · rename_i hc
      simp only [Bool.or_eq_true, decide_eq_true_eq, not_or] at hc
      exact .plain hc.2 hc.1 ih

/-- Whether a character goes on with no operator, join or comment that is in front of it. -/
def startsLiteral (c : Char) : Bool := !isComparatorPart c && c != '/' && c != '&' && c != '|'

/-- The literal of a value is one lexeme in front of whatever can stand behind an operand. -/
def Json.IsLegible (value : Json) : Prop :=
  ∃ first rest, value.literal.toList = first :: rest ∧ startsLiteral first = true ∧
    ∀ tail : List Char, (∀ c ∈ tail.head?, isSeparator c = true ∨ c = ')') →
      readPiece first (rest ++ tail) = (.lexeme value.atom.lexeme, rest.length)

variable {tail : List Char}

/-- The literal of a text is read as that text. -/
theorem readPiece_quoteLiteral (content : String) :
    ∃ first rest, (quoteLiteral content).toList = first :: rest ∧ startsLiteral first = true ∧
      ∀ tail, readPiece first (rest ++ tail) = (.lexeme (.text content), rest.length) := by
  obtain ⟨body, hliteral, hbody⟩ := exists_quotes content
  refine ⟨_, _, hliteral, by decide, fun tail => ?_⟩
  have hread := hbody.readText (by decide) tail
  simp [readPiece, Text.isBlank, hread]

theorem Json.isLegible_of_quoteLiteral {value : Json} {content : String}
    (hliteral : value.literal = quoteLiteral content) (hatom : value.atom = .text content) :
    value.IsLegible := by
  obtain ⟨first, rest, hquoted, hfirst, hread⟩ := readPiece_quoteLiteral content
  exact ⟨first, rest, hliteral ▸ hquoted, hfirst, fun tail _ => hatom ▸ hread tail⟩

/-- A name in front of something that can stand behind an operand ends there. -/
theorem readPiece_named {first : Char} {more : List Char} (hfirst : isIdentifierStart first = true)
    (hmore : more.all isIdentifierPart = true)
    (htail : ∀ c ∈ tail.head?, isSeparator c = true ∨ c = ')') :
    readPiece first (more ++ tail) =
      (.lexeme (.identifier (String.ofList (first :: more))), more.length) := by
  have hends : ∀ c ∈ tail.head?, isIdentifierPart c = false ∧ c ≠ '(' := by
    intro c hc
    rcases htail c hc with hseparator | rfl
    · refine ⟨not_isIdentifierPart_of_isSeparator hseparator, ?_⟩
      rintro rfl
      exact absurd hseparator (by decide)
    · decide
  have htake : tail.takeWhile isIdentifierPart = [] := by
    cases tail with
    | nil => rfl
    | cons c rest => simp [(hends c rfl).1]
  have hparen : (tail.dropWhile isIdentifierPart).head? ≠ some '(' := by
    cases tail with
    | nil => simp
    | cons c rest => simpa [(hends c rfl).1] using (hends c rfl).2
  rw [readPiece_name hfirst hmore, htake, if_neg hparen, List.append_nil]

/-- The literal of a constant is read as that constant, whatever it contains. -/
theorem Json.isLegible_of_not_isNumber {value : Json} (h : value.isNumber = false) :
    value.IsLegible := by
  cases value with
  | null =>
    exact ⟨'n', ['u', 'l', 'l'], rfl, by decide,
      fun tail htail => readPiece_named (by decide) (by decide) htail⟩
  | bool value =>
    cases value with
    | false =>
      exact ⟨'f', ['a', 'l', 's', 'e'], rfl, by decide,
        fun tail htail => readPiece_named (by decide) (by decide) htail⟩
    | true =>
      exact ⟨'t', ['r', 'u', 'e'], rfl, by decide,
        fun tail htail => readPiece_named (by decide) (by decide) htail⟩
  | number value => cases h
  | string content => exact isLegible_of_quoteLiteral rfl rfl
  | array elements => exact isLegible_of_quoteLiteral rfl rfl
  | members list => exact isLegible_of_quoteLiteral rfl rfl

end Literals

/-! ### What is in front of a literal -/

section Before

open Binding

theorem head?_append_eq_some {run tail : List Char} {c d : Char} (h : d ≠ c) :
    (run ++ d :: tail).head? = some c ↔ run.head? = some c := by
  cases run <;> simp [h]

/-- A quoted text or a comment at the start of a text ends in it. -/
structure EndsWithin (first : Char) (run : List Char) : Prop where
  /-- A quoted text has its closing quote. -/
  text : first = '\'' ∨ first = '"' → (readText first run).isSome = true
  /-- A comment has the end of its line. -/
  comment : first = '/' → run.head? = some '/' → '\n' ∈ run

/-- `Agree found alone bound` says that both are the same fault, or the same piece, which has less
than `bound` characters behind the first. -/
def Agree (found alone : Piece × Nat) (bound : Nat) : Prop :=
  (∃ fault offset, found.1 = .fault fault offset ∧ alone.1 = .fault fault offset) ∨
    found = alone ∧ alone.2 < bound

theorem Agree.of_alone {found other alone : Piece × Nat} {bound : Nat}
    (h : Agree found alone bound) (hother : Agree other alone bound) : Agree found other bound := by
  rcases h with ⟨fault, offset, hfound, halone⟩ | ⟨rfl, hlt⟩
  · rcases hother with ⟨fault', offset', hother, halone'⟩ | ⟨rfl, -⟩
    · rw [halone] at halone'
      exact .inl ⟨fault, offset, hfound, by rw [hother, halone']⟩
    · exact .inl ⟨fault, offset, hfound, halone⟩
  · rcases hother with ⟨fault, offset, hother, halone⟩ | ⟨rfl, -⟩
    · exact .inl ⟨fault, offset, halone, hother⟩
    · exact .inr ⟨rfl, hlt⟩

/-- What stands beside an operand is no part of a number. -/
theorem not_isDigit_beside {c : Char} (h : isSeparator c = true ∨ c = '(' ∨ c = ')') :
    c.isDigit = false ∧ c ≠ '.' := by
  constructor
  · refine Bool.eq_false_iff.mpr fun hdigit => ?_
    obtain ⟨hblank, hcomparator, -, hmark⟩ := not_special_of_isDigit hdigit
    simp only [List.mem_cons, List.not_mem_nil, or_false, not_or] at hmark
    simp [isSeparator, hblank, hcomparator, hmark] at h
  · rintro rfl
    exact absurd h (by decide)

/-- A number in front of the last character of a text does not depend on what is behind that. -/
theorem readNumber_append (negative : Bool) {text : List Char} (hne : text ≠ [])
    (hlast : ∀ c ∈ text.getLast?, c.isDigit = false ∧ c ≠ '.') (tail : List Char) :
    Agree (readNumber negative (text ++ tail)) (readNumber negative text)
      (text.length + (signText negative).length) := by
  have hsign : (signText negative).length = if negative then 1 else 0 := by
    cases negative <;> rfl
  have hget := List.getLast?_eq_some_getLast hne
  have hmem := List.getLast_mem hne
  generalize text.getLast hne = last at hget hmem
  obtain ⟨hdigit, hdot⟩ := hlast last hget
  have htake : (text ++ tail).takeWhile Char.isDigit = text.takeWhile Char.isDigit :=
    Text.takeWhile_append_of_mem hmem hdigit tail
  have hlength := Text.length_takeWhile_lt hmem hdigit
  have hsplit := List.takeWhile_append_dropWhile (p := Char.isDigit) (l := text)
  simp only [readNumber, htake, List.drop_append_of_le_length (Nat.le_of_lt hlength),
    drop_length_takeWhile, ← hsign]
  generalize text.takeWhile Char.isDigit = whole at hsplit hlength
  -- What is behind the digits decides how the number goes on.
  rcases htail : text.dropWhile Char.isDigit with _ | ⟨c, rest⟩
  · rw [htail, List.append_nil] at hsplit
    rw [hsplit] at hlength
    exact absurd hlength (Nat.lt_irrefl _)
  · rw [htail] at hsplit
    have hlengths := congrArg List.length hsplit
    rw [List.length_append, List.length_cons] at hlengths
    by_cases hc : c = '.'
    · subst hc
      -- The last character is behind the decimal point, and behind all digits there.
      have hrest : last ∈ rest := by
        have hlater : ('.' :: rest).getLast? = some last := by
          rw [← hget, ← hsplit, List.getLast?_append, List.getLast?_cons]
          rfl
        rcases List.mem_cons.mp (List.mem_of_getLast? hlater) with rfl | hrest
        · exact absurd rfl hdot
        · exact hrest
      have htakeRest : (rest ++ tail).takeWhile Char.isDigit = rest.takeWhile Char.isDigit :=
        Text.takeWhile_append_of_mem hrest hdigit tail
      have hfraction := Text.length_takeWhile_lt hrest hdigit
      simp only [List.cons_append, htakeRest]
      split
      · exact .inl ⟨_, _, rfl, rfl⟩
      · refine .inr ⟨rfl, ?_⟩
        dsimp only
        omega
    · refine .inr ⟨?_, ?_⟩
      · simp [hc]
      · split
        · simp_all
        · dsimp only
          omega

/-- A name that is in front of an operand ends before it. -/
theorem exists_mem_of_isIdentifierStart {first : Char} {run : List Char}
    (hfirst : isIdentifierStart first = true)
    (hlast : ∀ c ∈ (first :: run).getLast?, isSeparator c = true ∨ c = '(') :
    ∃ c ∈ run, isIdentifierPart c = false := by
  have hget := List.getLast?_eq_some_getLast (List.cons_ne_nil first run)
  have hmem := List.getLast_mem (List.cons_ne_nil first run)
  generalize (first :: run).getLast (List.cons_ne_nil first run) = c at hget hmem
  have hc := hlast c hget
  rcases List.mem_cons.mp hmem with rfl | hmem
  · -- What a name starts with is no separator.
    obtain ⟨hblank, hcomparator, -, hmark⟩ := not_special_of_isIdentifierStart hfirst
    simp only [List.mem_cons, List.not_mem_nil, or_false, not_or] at hmark
    simp [isSeparator, hblank, hcomparator, hmark] at hc
  · refine ⟨c, hmem, ?_⟩
    rcases hc with hseparator | rfl
    · exact not_isIdentifierPart_of_isSeparator hseparator
    · decide

/-- What is found of a name in front of an operand does not depend on that. -/
theorem name_append {first : Char} {run : List Char} (hfirst : isIdentifierStart first = true)
    (hlast : ∀ c ∈ (first :: run).getLast?, isSeparator c = true ∨ c = '(') (tail : List Char) :
    (run.takeWhile isIdentifierPart).length < run.length ∧
      (run ++ tail).takeWhile isIdentifierPart = run.takeWhile isIdentifierPart ∧
      ((run ++ tail).drop (run.takeWhile isIdentifierPart).length).head? =
        (run.drop (run.takeWhile isIdentifierPart).length).head? := by
  obtain ⟨c, hc, hpart⟩ := exists_mem_of_isIdentifierStart hfirst hlast
  have hlength := Text.length_takeWhile_lt hc hpart
  refine ⟨hlength, Text.takeWhile_append_of_mem hc hpart _, ?_⟩
  rw [List.drop_append_of_le_length (Nat.le_of_lt hlength), List.drop_eq_getElem_cons hlength]
  rfl

/-- What starts with `first` does not depend on the literal or the place behind `run`, if there can
be an operand. -/
theorem readPiece_append {first d : Char} {run : List Char} (hd : startsLiteral d = true)
    (hlast : ∀ c ∈ (first :: run).getLast?, isSeparator c = true ∨ c = '(')
    (hwithin : EndsWithin first run) (tail : List Char) :
    Agree (readPiece first (run ++ d :: tail)) (readPiece first run) (run.length + 1) := by
  obtain ⟨⟨⟨hcomparator, hslash⟩, hand⟩, hor⟩ :
      ((isComparatorPart d = false ∧ d ≠ '/') ∧ d ≠ '&') ∧ d ≠ '|' := by
    simpa [startsLiteral] using hd
  have hhead {c : Char} (hc : c ∈ ['/', '&', '|']) :
      (run ++ d :: tail).head? = some c ↔ run.head? = some c := by
    refine head?_append_eq_some ?_
    rintro rfl
    simp [hslash, hand, hor] at hc
  have hslash : (run ++ d :: tail).head? = some '/' ↔ run.head? = some '/' := hhead (by decide)
  -- A minus in front of an operand has something between them.
  have hminus : (first = '-' && (run ++ d :: tail).head?.any Char.isDigit) =
      (first = '-' && run.head?.any Char.isDigit) := by
    cases run with
    | nil =>
      have hfirst : first ≠ '-' := by
        rintro rfl
        exact absurd (hlast '-' rfl) (by decide)
      simp [hfirst]
    | cons c rest => rfl
  have hrun (p : Char → Bool) (hp : p d = false) :
      (run ++ d :: tail).takeWhile p = run.takeWhile p :=
    Text.takeWhile_append_of_head? (by simpa using hp) run
  -- The conditions of each branch are on `first` and on what `run` starts with or consists of.
  fun_cases readPiece first run with
  | case1 hblank => exact .inr ⟨by simp [readPiece, hblank], Nat.succ_pos _⟩
  | case2 hblank hcomment =>
    obtain ⟨rfl, hnext⟩ : first = '/' ∧ run.head? = some '/' := by simpa using hcomment
    have hline := hwithin.comment rfl hnext
    have htake := Text.takeWhile_append_of_mem (p := fun c => c != '\n') hline (by decide)
      (d :: tail)
    refine .inr ⟨?_, Nat.succ_lt_succ (Text.length_takeWhile_lt hline (by decide))⟩
    simp [readPiece, Text.isBlank, hnext, htake]
  | case3 _ _ hfirst | case4 _ _ _ hfirst | case5 _ _ _ _ hfirst =>
    subst hfirst
    exact .inr ⟨rfl, Nat.succ_pos _⟩
  | case6 _ _ _ _ _ hquote content count hread =>
    obtain ⟨body, after, rfl, rfl, hbody⟩ := quotes_of_readText hread
    have hne : first ≠ '\\' := by
      rintro rfl
      exact absurd hquote (by decide)
    have hread' := hbody.readText hne (after ++ d :: tail)
    refine .inr ⟨?_, by simp⟩
    simp only [readPiece, *, ↓reduceIte, Bool.false_eq_true]
    simp [hread']
  | case7 _ _ _ _ _ hquote hread =>
    have hsome := hwithin.text (by simpa using hquote)
    rw [hread] at hsome
    cases hsome
  | case8 _ _ _ _ _ _ hjoin hsame =>
    refine .inr ⟨?_, ?_⟩
    · rcases (by simpa using hjoin : first = '&' ∨ first = '|') with rfl | rfl <;>
        simp only [readPiece, (hhead (by decide)).mpr hsame] <;> rfl
    · cases run <;> simp at hsame ⊢
  | case9 _ _ _ _ _ _ hjoin hsame =>
    have hfirst : first ∈ ['/', '&', '|'] := by
      rcases (by simpa using hjoin : first = '&' ∨ first = '|') with rfl | rfl <;> decide
    refine .inl ⟨_, _, ?_, rfl⟩
    simp only [readPiece, *, ↓reduceIte, Bool.false_eq_true]
  | case10 _ _ _ _ _ _ _ _ more symbol _ hsymbol =>
    refine .inr ⟨?_, Nat.lt_succ_of_le (Text.length_takeWhile_le _ _)⟩
    simp only [symbol, more] at hsymbol
    simp only [readPiece, hrun _ hcomparator, more, *, ↓reduceIte, Bool.false_eq_true]
  | case11 _ _ _ _ _ _ _ _ more symbol hsymbol =>
    refine .inl ⟨_, _, ?_, rfl⟩
    simp only [symbol, more] at hsymbol
    simp only [readPiece, hrun _ hcomparator, symbol, more, *, ↓reduceIte, Bool.false_eq_true]
  | case12 =>
    have hagree := readNumber_append false (List.cons_ne_nil first run)
      (fun c hc => not_isDigit_beside ((hlast c hc).imp_right .inl)) (d :: tail)
    simp only [readPiece, *, ↓reduceIte, Bool.false_eq_true]
    exact hagree
  | case13 _ _ _ _ _ _ _ _ _ hnegative =>
    have hne : run ≠ [] := by
      rintro rfl
      simp at hnegative
    have hlast' : ∀ c ∈ run.getLast?, c.isDigit = false ∧ c ≠ '.' := by
      intro c hc
      have hopened := hlast c (by rw [List.getLast?_cons, Option.mem_def.mp hc]; rfl)
      exact not_isDigit_beside (hopened.imp_right .inl)
    have hagree := readNumber_append true hne hlast' (d :: tail)
    simp only [readPiece, *, ↓reduceIte, Bool.false_eq_true]
    exact hagree
  | case14 _ _ _ _ _ _ _ _ _ _ hname more name hparen =>
    obtain ⟨hlength, htake, hdrop⟩ := name_append hname hlast (d :: tail)
    refine .inr ⟨?_, Nat.succ_lt_succ hlength⟩
    simp only [more] at hparen
    simp only [readPiece, name, more, *, ↓reduceIte, Bool.false_eq_true]
  | case15 _ _ _ _ _ _ _ _ _ _ hname more name hparen =>
    obtain ⟨hlength, htake, hdrop⟩ := name_append hname hlast (d :: tail)
    refine .inr ⟨?_, Nat.lt_succ_of_lt hlength⟩
    simp only [more] at hparen
    simp only [readPiece, name, more, *, ↓reduceIte, Bool.false_eq_true]
  | case16 =>
    refine .inl ⟨_, _, ?_, rfl⟩
    simp only [readPiece, *, ↓reduceIte, Bool.false_eq_true]

end Before

/-! ### What is read of a template -/

section Filling

open Binding

variable {values : List (String × Json)}

theorem Binding.exists_value (hvalues : ∀ pair ∈ values, pair.2.IsLegible) {name : List Char}
    (hbound : IsBound values name) :
    ∃ value, value? values name = some value ∧ value.IsLegible := by
  obtain ⟨value, hvalue⟩ := Option.isSome_iff_exists.mp hbound.isSome_value?
  exact ⟨value, hvalue, hvalues _ (mem_of_value? hvalue)⟩

/-- A quoted text or a comment that does not reach over `run` has its end there. -/
theorem endsWithin_of_le {first d : Char} {run tail : List Char}
    (hle : isSealed (first :: (run ++ d :: tail).take (readPiece first (run ++ d :: tail)).2) =
        true → (readPiece first (run ++ d :: tail)).2 ≤ run.length) :
    EndsWithin first run := by
  refine ⟨fun hquote => ?_, fun hslash hnext => ?_⟩
  · have hle' := hle (by rcases hquote with rfl | rfl <;> rfl)
    have hread : readPiece first (run ++ d :: tail) =
        ((readText first (run ++ d :: tail)).elim
          (.fault .unterminatedText 0, (run ++ d :: tail).length)
          fun found => (.lexeme (.text (String.ofList found.1)), found.2)) := by
      unfold readPiece
      rcases hquote with rfl | rfl
      all_goals
        generalize readText _ _ = found
        cases found <;> rfl
    rw [hread] at hle'
    cases htext : readText first (run ++ d :: tail) with
    | none =>
      rw [htext, Option.elim_none, List.length_append, List.length_cons] at hle'
      omega
    | some found =>
      obtain ⟨content, count⟩ := found
      rw [htext, Option.elim_some] at hle'
      obtain ⟨body, after, heq, rfl, hbody⟩ := quotes_of_readText htext
      -- The closing quote is the last character of a text that ends in `run`.
      obtain ⟨more, rfl⟩ : ∃ more, run = body ++ first :: more := by
        have htake := congrArg (List.take (body.length + 1)) heq
        rw [List.take_append_of_le_length hle', List.append_cons body,
          List.take_left' (by simp)] at htake
        refine ⟨run.drop (body.length + 1), ?_⟩
        rw [List.append_cons, ← htake, List.take_append_drop]
      have hne : first ≠ '\\' := by rcases hquote with rfl | rfl <;> decide
      rw [hbody.readText hne]
      rfl
  · subst hslash
    refine Decidable.byContradiction fun hline => ?_
    obtain ⟨more, rfl⟩ : ∃ more, run = '/' :: more := by cases run <;> simp_all
    have hread : readPiece '/' ('/' :: more ++ d :: tail) =
        (.blank, (('/' :: more ++ d :: tail).takeWhile (· != '\n')).length + 1) := rfl
    have hle' := hle (by rw [hread]; rfl)
    rw [hread, takeWhile_of_no_newline hline, List.length_append] at hle'
    dsimp only at hle'
    omega

/-- What is behind a piece stands alone, too. -/
theorem Binding.StandsAlone.drop {first : Char} {rest : List Char}
    (h : StandsAlone values (first :: rest)) :
    StandsAlone values (rest.drop (readTemplate values first rest).2) := by
  rintro before after ⟨name, hbound, heq⟩
  have hcut := Text.cut_cons (readTemplate values) first rest
  generalize readTemplate values first rest = piece at *
  have hplace : IsPlace values (first :: rest) (first :: rest.take piece.2 ++ before) after :=
    ⟨name, hbound, by simp [← heq]⟩
  obtain ⟨hopened, hclosed, houtside⟩ := h _ _ hplace
  refine ⟨fun c hc => hopened c ?_, hclosed, ?_⟩
  · rw [List.getLast?_append, Option.mem_def.mp hc]
    rfl
  · rw [hcut, isOutside, List.length_append, if_neg (by omega), Nat.add_sub_cancel_left] at houtside
    exact houtside

/-- A quoted text or a comment in front of the place of a value ends there. -/
theorem Binding.StandsAlone.sealed_le {first : Char} {rest run after : List Char}
    (h : StandsAlone values (first :: rest)) (hstart : ¬StartsPlace values (first :: rest))
    (hplace : IsPlace values (first :: rest) (first :: run) after)
    (hsealed : isSealed (first :: rest.take (readPiece first rest).2) = true) :
    (readPiece first rest).2 ≤ run.length := by
  have houtside := (h _ _ hplace).outside
  obtain ⟨name, -, heq⟩ := hplace
  have hlength := congrArg List.length heq
  simp only [List.length_append, List.length_cons, place] at hlength
  rw [Text.cut_cons, readTemplate_of_not_startsPlace hstart, isOutside, hsealed] at houtside
  split at houtside
  · cases houtside
  · rename_i hle
    rw [List.length_cons, List.length_cons, List.length_take] at hle
    omega

/-- In front of the first place of a value, the filled text is read as the template. -/
theorem readPiece_fillIn {first : Char} {rest : List Char}
    (halone : StandsAlone values (first :: rest)) (hvalues : ∀ pair ∈ values, pair.2.IsLegible)
    (hstart : ¬StartsPlace values (first :: rest)) :
    (∃ fault offset, (readPiece first (fillIn values rest)).1 = .fault fault offset ∧
        (readPiece first rest).1 = .fault fault offset) ∨
      readPiece first (fillIn values rest) = readPiece first rest ∧
        (fillIn values rest).drop (readPiece first rest).2 =
          fillIn values (rest.drop (readPiece first rest).2) := by
  rcases first_place rest with hfree | ⟨run, name, after, hbound, hrest, hfree⟩
  · -- No place is left, so nothing is put in.
    have hsame (count : Nat) : fillIn values (rest.drop count) = rest.drop count :=
      fillIn_of_free fun k => by
        rw [List.drop_drop]
        exact hfree _
    have hrest : fillIn values rest = rest := hsame 0
    exact .inr ⟨by rw [hrest], by rw [hrest, hsame]⟩
  · obtain ⟨value, hvalue, c, more, hliteral, hc, -⟩ := exists_value hvalues hbound
    have hplace : IsPlace values (first :: rest) (first :: run) after :=
      ⟨name, hbound, by rw [hrest]; simp⟩
    have htemplate : rest = run ++ '{' :: (':' :: (name ++ ['}']) ++ after) := by
      rw [hrest]
      rfl
    rw [hrest] at hfree
    have hfill {count : Nat} (hcount : count ≤ run.length) :
        fillIn values (rest.drop count) = run.drop count ++ c :: (more ++ fillIn values after) := by
      rw [hrest, fillIn_drop hbound hvalue hfree hcount, hliteral]
      rfl
    have hfound : fillIn values rest = run ++ c :: (more ++ fillIn values after) :=
      hfill (Nat.zero_le _)
    have hlast := (halone _ _ hplace).opened
    have hwithin : EndsWithin first run := by
      have hle := halone.sealed_le hstart hplace
      rw [htemplate] at hle
      exact endsWithin_of_le hle
    -- Up to the place, both texts are read as if they ended there.
    have hbefore := readPiece_append (d := '{') (by decide) hlast hwithin
      (':' :: (name ++ ['}']) ++ after)
    have hafter := readPiece_append hc hlast hwithin (more ++ fillIn values after)
    rw [← htemplate] at hbefore
    rw [← hfound] at hafter
    rcases hafter.of_alone hbefore with hfault | ⟨hsame, hlt⟩
    · exact .inl hfault
    · have hle := Nat.le_of_lt_succ hlt
      refine .inr ⟨hsame, ?_⟩
      rw [hfill hle, hfound, List.drop_append_of_le_length hle]

/-- `FillsIn values found template` says that `found` is what was read of a template, with atoms for
the places of values, and the same fault at its end, if there was one. -/
structure FillsIn (values : List (String × Json))
    (found template : List Located × Except ParseError Nat) : Prop where
  /-- The lexemes are those of the template, with atoms in them. -/
  lexemes : found.1.map Located.lexeme =
    (template.1.map Located.lexeme).map (Lexeme.filled (Binding.atom? values))
  /-- The fault is that of the template. -/
  fault : fault? found.2 = fault? template.2

theorem ok_iff_of_fault? {ending other : Except ParseError Nat} (h : fault? ending = fault? other) :
    (∃ position, ending = .ok position) ↔ ∃ position, other = .ok position := by
  cases ending <;> cases other <;> simp [fault?] at h ⊢

section FillsIn

variable {found template : List (Piece × List Char)} {position other : Nat}

theorem fillsIn_blank {text blank : List Char}
    (h : ∀ position other, FillsIn values (collect position found) (collect other template)) :
    FillsIn values (collect position ((.blank, text) :: found))
      (collect other ((.blank, blank) :: template)) :=
  h _ _

theorem fillsIn_lexeme {text word : List Char} {lexeme origin : Lexeme}
    (horigin : origin.filled (Binding.atom? values) = lexeme)
    (h : ∀ position other, FillsIn values (collect position found) (collect other template)) :
    FillsIn values (collect position ((.lexeme lexeme, text) :: found))
      (collect other ((.lexeme origin, word) :: template)) := by
  have hrest := h (position + byteLength text) (other + byteLength word)
  refine ⟨?_, hrest.fault⟩
  simp only [collect, List.map_cons, horigin, hrest.lexemes]

theorem fillsIn_fault {text rest : List Char} {fault : ParseFault} {offset : Nat} :
    FillsIn values (collect position ((.fault fault offset, text) :: found))
      (collect other ((.fault fault offset, rest) :: template)) :=
  ⟨rfl, rfl⟩

end FillsIn

/-- No lexeme of a filter is the place of a value. -/
theorem filled_of_readPiece {first : Char} {rest : List Char} {lexeme : Lexeme}
    (h : (readPiece first rest).1 = .lexeme lexeme) :
    lexeme.filled (Binding.atom? values) = lexeme := by
  have hspells := fits_readPiece first rest (.lexeme lexeme) (by rw [h]; rfl)
  generalize first :: rest.take (readPiece first rest).2 = word at hspells
  cases hspells with
  | @identifier first more hfirst hmore =>
    have hbrace : first ≠ '{' := by
      rintro rfl
      exact absurd hfirst (by decide)
    have hname : Binding.atom? values (String.ofList (first :: more)) = none := by
      rw [Binding.atom?, String.toList_ofList, placeName?, readPlace_of_ne hbrace]
      rfl
    rw [Lexeme.filled, hname]
    rfl
  | _ => rfl

/-- What stands behind a place stands behind the literal. -/
theorem head?_fillIn {after : List Char}
    (h : ∀ c ∈ after.head?, isSeparator c = true ∨ c = ')') :
    ∀ c ∈ (fillIn values after).head?, isSeparator c = true ∨ c = ')' := by
  cases after with
  | nil => simp [fillIn]
  | cons first rest =>
    have hfirst := h first rfl
    have hstart : ¬StartsPlace values (first :: rest) := by
      rintro ⟨tail, name, -, heq⟩
      obtain rfl : first = '{' := (List.cons.inj heq).1
      exact absurd hfirst (by decide)
    rw [fillIn_cons hstart]
    intro c hc
    obtain rfl : first = c := Option.some.inj hc
    exact hfirst

/-- A filled template is read as the template. -/
theorem collect_filled {text : List Char} (halone : StandsAlone values text)
    (hvalues : ∀ pair ∈ values, pair.2.IsLegible) (position other : Nat) :
    FillsIn values (collect position (Text.cut readPiece (fillIn values text)))
      (collect other (Text.cut (readTemplate values) text)) := by
  induction hn : text.length using Nat.strongRecOn generalizing text position other with
  | _ n ih =>
    cases text with
    | nil => exact ⟨rfl, rfl⟩
    | cons first rest =>
      have hlt (count : Nat) : (rest.drop count).length < n := by
        rw [← hn, List.length_drop, List.length_cons]
        omega
      by_cases hstart : StartsPlace values (first :: rest)
      · -- The literal is one lexeme, and what is behind it can stand behind an operand.
        obtain ⟨after, hplace⟩ := hstart
        obtain ⟨name, hbound, heq⟩ := hplace
        obtain ⟨value, hvalue, start, more, hliteral, -, hlegible⟩ := exists_value hvalues hbound
        have hclosed := (halone [] after ⟨name, hbound, heq⟩).closed
        have hread := hlegible (fillIn values after) (head?_fillIn hclosed)
        have hdrop := halone.drop
        obtain ⟨rfl, rfl⟩ : first = '{' ∧ rest = ':' :: (name ++ '}' :: after) := by
          simpa [place] using heq
        have hafter : (':' :: (name ++ '}' :: after)).drop (name.length + 2) = after := by simp
        have hfill : fillIn values ('{' :: ':' :: (name ++ '}' :: after)) =
            start :: (more ++ fillIn values after) := by
          rw [heq, List.nil_append, fillIn_place hbound hvalue, hliteral]
          rfl
        have hfilled : (Lexeme.identifier (String.ofList (place name))).filled
            (Binding.atom? values) = value.atom.lexeme := by
          rw [Lexeme.filled, atom?_place hbound.ne_nil hbound.isNamePart, hvalue]
          rfl
        have hlength := hlt (name.length + 2)
        rw [readTemplate_place hbound, hafter] at hdrop
        rw [hafter] at hlength
        rw [hfill, Text.cut_cons, Text.cut_cons, hread, readTemplate_place hbound, hafter,
          List.drop_left' rfl]
        exact fillsIn_lexeme hfilled fun position other => ih _ hlength hdrop position other rfl
      · -- What is read here is read in both texts, and what is behind it is filled.
        have hdrop := halone.drop
        rw [readTemplate_of_not_startsPlace hstart] at hdrop
        rw [fillIn_cons hstart, Text.cut_cons, Text.cut_cons,
          readTemplate_of_not_startsPlace hstart]
        rcases readPiece_fillIn halone hvalues hstart with
          ⟨fault, offset, hfound, htemplate⟩ | ⟨hsame, hfill⟩
        · rw [hfound, htemplate]
          exact fillsIn_fault
        · rw [hsame, hfill]
          have hrest (position other : Nat) := ih _ (hlt _) hdrop position other rfl
          cases hpiece : (readPiece first rest).1 with
          | blank => exact fillsIn_blank hrest
          | lexeme lexeme => exact fillsIn_lexeme (filled_of_readPiece hpiece) hrest
          | fault fault offset => exact fillsIn_fault

/-- A template with its values is read as the template, if each place of a value stands alone and
the literal of each value is one lexeme. -/
theorem bindTemplate_filled {template : String}
    (halone : StandsAlone values template.toList)
    (hlegible : ∀ pair ∈ values, pair.2.IsLegible) :
    (lex (bindTemplate template values)).1.map Located.lexeme =
        ((lexTemplate values template).1.map Located.lexeme).map
          (Lexeme.filled (atom? values)) ∧
      fault? (lex (bindTemplate template values)).2 = fault? (lexTemplate values template).2 ∧
      ∀ groups, parse (bindTemplate template values) = .ok groups ↔
        ∃ tree, parseTemplate values template = .ok tree ∧
          groups = Group.allFilled (atom? values) tree := by
  have hread : FillsIn values (lex (bindTemplate template values))
      (lexTemplate values template) := by
    unfold lex bindTemplate lexTemplate
    rw [String.toList_ofList]
    exact collect_filled halone hlegible 0 0
  refine ⟨hread.lexemes, hread.fault, fun groups => ?_⟩
  exact Parsing.parseLexemes_filled_iff hread.lexemes (ok_iff_of_fault? hread.fault)

end Filling

/-! ### Constants -/

section Constants

open Binding

variable {values : List (String × Json)}

/-- What is no number is a constant. -/
theorem Binding.atom?_eq_constant? (hvalues : ∀ pair ∈ values, pair.2.isNumber = false)
    (name : String) : atom? values name = (constant? values name).map Constant.atom := by
  unfold atom? constant?
  cases placeName? name.toList with
  | none => rfl
  | some name =>
    rw [Option.bind_some, Option.bind_some]
    cases hvalue : value? values name with
    | none => rfl
    | some value =>
      have hconstant := hvalues _ (mem_of_value? hvalue)
      cases value with
      | number value => cases hconstant
      | _ => rfl

/-- `ReadsAs values found template` says that `found` is what was read of a template, with constants
for the places of values, and the same fault at its end, if there was one. -/
structure ReadsAs (values : List (String × Json))
    (found template : List Located × Except ParseError Nat) : Prop where
  /-- The lexemes are those of the template, with constants in them. -/
  lexemes : found.1.map Located.lexeme =
    (template.1.map Located.lexeme).map (Lexeme.replaced (Binding.constant? values))
  /-- The fault is that of the template. -/
  fault : fault? found.2 = fault? template.2

/-- A template that is filled with constants is read as the template. -/
theorem collect_fillIn {text : List Char} (halone : StandsAlone values text)
    (hvalues : ∀ pair ∈ values, pair.2.isNumber = false) (position other : Nat) :
    ReadsAs values (collect position (Text.cut readPiece (fillIn values text)))
      (collect other (Text.cut (readTemplate values) text)) := by
  have hfilled := collect_filled halone
    (fun pair hpair => Json.isLegible_of_not_isNumber (hvalues pair hpair)) position other
  refine ⟨hfilled.lexemes.trans (List.map_congr_left fun lexeme _ => ?_), hfilled.fault⟩
  exact (lexeme.replaced_eq_filled (atom?_eq_constant? hvalues)).symm

end Constants

/-- A template with its values is read as the template, if each place of a value stands alone and no
value is a number.  The lexemes are those of the template, with exactly one constant in each place:
the name of `null`, `true` or `false`, or the text of any other value, whatever it contains.  If the
template has a fault, the filter has the same; and if it has a tree, the filter has that tree with
the constants in it, and no other. -/
theorem bindTemplate_replaced {template : String} {values : List (String × Json)}
    (halone : Binding.StandsAlone values template.toList)
    (hvalues : ∀ pair ∈ values, pair.2.isNumber = false) :
    (lex (bindTemplate template values)).1.map Located.lexeme =
        ((lexTemplate values template).1.map Located.lexeme).map
          (Lexeme.replaced (Binding.constant? values)) ∧
      fault? (lex (bindTemplate template values)).2 = fault? (lexTemplate values template).2 ∧
      ∀ groups, parse (bindTemplate template values) = .ok groups ↔
        ∃ tree, parseTemplate values template = .ok tree ∧
          groups = Group.allReplaced (Binding.constant? values) tree := by
  have hread : ReadsAs values (lex (bindTemplate template values))
      (lexTemplate values template) := by
    unfold lex bindTemplate lexTemplate
    rw [String.toList_ofList]
    exact collect_fillIn halone hvalues 0 0
  refine ⟨hread.lexemes, hread.fault, fun groups => ?_⟩
  exact Parsing.parseLexemes_replaced_iff hread.lexemes (ok_iff_of_fault? hread.fault)

/-- Values that are made to break out of a template. -/
def hostileValues : List (String × Json) :=
  [("text", .string "\\' || 1 = 1 // \n&& \x7b:flag\x7d) \""), ("flag", .bool false),
    ("list", .array [.string "it's", .null])]

/-- A template with places next to operators and parentheses, and something like a place in a
quoted text. -/
def tightTemplate : String :=
  "title~\x7b:text\x7d&&(f(\x7b:list\x7d,\x7b:flag\x7d)=\x7b:text\x7d||a = '\x7b:other\x7d')"

theorem tightTemplate_replaced :
    Binding.StandsAlone hostileValues tightTemplate.toList ∧
      (∀ pair ∈ hostileValues, pair.2.isNumber = false) ∧
      (lex (bindTemplate tightTemplate hostileValues)).1.map Located.lexeme =
        [.identifier "title", .comparator .like,
          .text "\\' || 1 = 1 // \n&& \x7b:flag\x7d) \"", .join .and, .openParen, .callStart "f",
          .text "[\"it's\",null]", .comma, .identifier "false", .closeParen, .comparator .equal,
          .text "\\' || 1 = 1 // \n&& \x7b:flag\x7d) \"", .join .or, .identifier "a",
          .comparator .equal, .text "\x7b:other\x7d", .closeParen] ∧
      ∃ groups, parse (bindTemplate tightTemplate hostileValues) = .ok groups := by
  have halone : Binding.StandsAlone hostileValues tightTemplate.toList := by decide +kernel
  have hvalues : ∀ pair ∈ hostileValues, pair.2.isNumber = false := by decide
  obtain ⟨hlexemes, -, hparse⟩ := bindTemplate_replaced halone hvalues
  refine ⟨halone, hvalues, hlexemes.trans (by decide +kernel), ?_⟩
  have hok : (parseTemplate hostileValues tightTemplate).isOk = true := by decide +kernel
  obtain ⟨tree, htree⟩ : ∃ tree, parseTemplate hostileValues tightTemplate = .ok tree := by
    cases h : parseTemplate hostileValues tightTemplate with
    | ok tree => exact ⟨tree, rfl⟩
    | error e => simp [h, Except.isOk, Except.toBool] at hok
  exact ⟨_, (hparse _).mpr ⟨tree, htree, rfl⟩⟩

end PagedSearch
