import PagedSearch.Filter.Lexing

/-!
# What lexemes look like

A filter is a row of stretches: blanks, lexemes, and runs of operator characters, where each stretch
is as long as any that could stand in its place.  Runs that are no operator count when stretches are
measured, so an operator is always a whole run, but no filter contains one.

`lex` finds exactly these stretches.  The proof compares it, one piece at a time, with every stretch
that starts in the same place: none reaches further than the piece, and one that reaches as far is
the piece.

## Main definitions

* `Quotes` — how the content of a text is written between its quotes.
* `Spells` — what a stretch of a filter can be.
* `IsLongest` — a stretch that is as long as any in its place.
* `Splits` — the lexemes of a text, white space and comments left out.

## Main results

* `Spells.found` — how a stretch compares with the piece that `readPiece` finds in its place.
* `Spells.length_le` — no stretch reaches further than the piece that `readPiece` finds.
* `fits_readPiece` — the piece is itself a stretch, unless it is a fault.
* `splits_iff` — `lex` ends without a fault on a text that splits, and returns its lexemes.
-/

namespace PagedSearch.Lexing

/-! ### The stretches of a filter -/

/-- What a stretch of a filter can be. -/
inductive Stretch where
  /-- White space or a comment. -/
  | blank
  /-- A lexeme. -/
  | lexeme (lexeme : Lexeme)
  /-- A run of operator characters, whether it is an operator or not. -/
  | run

/-- `Quotes quote content body` says that `body`, between two quotes, stands for `content`. -/
inductive Quotes (quote : Char) : List Char → List Char → Prop where
  /-- The empty text. -/
  | nil : Quotes quote [] []
  /-- A quote or a backslash, which a backslash precedes. -/
  | escaped {c : Char} {content body : List Char} :
    c = quote ∨ c = '\\' → Quotes quote content body →
      Quotes quote (c :: content) ('\\' :: c :: body)
  /-- A backslash that precedes neither. -/
  | backslash {c : Char} {content body : List Char} :
    c ≠ quote → c ≠ '\\' → Quotes quote content (c :: body) →
      Quotes quote ('\\' :: content) ('\\' :: c :: body)
  /-- Any other character. -/
  | plain {c : Char} {content body : List Char} :
    c ≠ quote → c ≠ '\\' → Quotes quote content body → Quotes quote (c :: content) (c :: body)

/-- The sign of a number. -/
def signText (negative : Bool) : List Char := if negative then ['-'] else []

/-- `Spells stretch word` says that `word` can be written for `stretch`. -/
inductive Spells : Stretch → List Char → Prop where
  /-- A character of white space. -/
  | space {c : Char} : Text.isBlank c → Spells .blank [c]
  /-- A comment at the end of a filter. -/
  | comment {body : List Char} : '\n' ∉ body → Spells .blank ('/' :: '/' :: body)
  /-- A comment with the end of its line. -/
  | commentLine {body : List Char} : '\n' ∉ body → Spells .blank ('/' :: '/' :: (body ++ ['\n']))
  /-- A parenthesis that opens a group. -/
  | openParen : Spells (.lexeme .openParen) ['(']
  /-- A parenthesis that closes a group or the arguments of a function. -/
  | closeParen : Spells (.lexeme .closeParen) [')']
  /-- A comma. -/
  | comma : Spells (.lexeme .comma) [',']
  /-- A text in single or double quotes. -/
  | text {quote : Char} {content body : List Char} :
    quote = '\'' ∨ quote = '"' → Quotes quote content body →
      Spells (.lexeme (.text (String.ofList content))) (quote :: (body ++ [quote]))
  /-- A join. -/
  | join (join : Join) : Spells (.lexeme (.join join)) join.symbol.toList
  /-- An operator. -/
  | comparator (comparator : Comparator) :
    Spells (.lexeme (.comparator comparator)) comparator.symbol.toList
  /-- A run of operator characters. -/
  | run {symbol : List Char} : symbol ≠ [] → symbol.all isComparatorPart → Spells .run symbol
  /-- A whole number. -/
  | integer (negative : Bool) {whole : List Char} :
    whole ≠ [] → whole.all Char.isDigit →
      Spells (.lexeme (.number (Double.ofDecimal negative (digitsValue whole) 0)))
        (signText negative ++ whole)
  /-- A number with digits behind a decimal point. -/
  | decimal (negative : Bool) {whole fraction : List Char} :
    whole ≠ [] → whole.all Char.isDigit → fraction ≠ [] → fraction.all Char.isDigit →
      Spells
        (.lexeme (.number
          (Double.ofDecimal negative (digitsValue (whole ++ fraction)) (-fraction.length))))
        (signText negative ++ whole ++ '.' :: fraction)
  /-- A name. -/
  | identifier {first : Char} {more : List Char} :
    isIdentifierStart first → more.all isIdentifierPart →
      Spells (.lexeme (.identifier (String.ofList (first :: more)))) (first :: more)
  /-- A name with a parenthesis directly behind it. -/
  | callStart {first : Char} {more : List Char} :
    isIdentifierStart first → more.all isIdentifierPart →
      Spells (.lexeme (.callStart (String.ofList (first :: more)))) (first :: (more ++ ['(']))

/-- `text` starts with `word`, which is written for `stretch`, and with no longer stretch. -/
structure IsLongest (text word : List Char) (stretch : Stretch) : Prop where
  /-- The word is written for the stretch. -/
  spells : Spells stretch word
  /-- The text starts with it. -/
  isPrefix : word <+: text
  /-- No stretch at the start of the text is longer. -/
  length_le : ∀ other longer, Spells other longer → longer <+: text → longer.length ≤ word.length

/-- `Splits text lexemes` says that `text` is a row of blanks and of the words for `lexemes`, each
as long as it can be. -/
inductive Splits : List Char → List Lexeme → Prop where
  /-- The empty text. -/
  | nil : Splits [] []
  /-- A blank. -/
  | blank {word rest : List Char} {lexemes : List Lexeme} :
    IsLongest (word ++ rest) word .blank → Splits rest lexemes → Splits (word ++ rest) lexemes
  /-- A lexeme. -/
  | lexeme {word rest : List Char} {lexeme : Lexeme} {lexemes : List Lexeme} :
    IsLongest (word ++ rest) word (.lexeme lexeme) → Splits rest lexemes →
      Splits (word ++ rest) (lexeme :: lexemes)

/-! ### Characters -/

/-- The code points of white space. -/
def blankCodes : List Nat :=
  [32, 9, 10, 11, 12, 13, 0x85, 0xa0, 0x1680, 0x2028, 0x2029, 0x202f, 0x205f, 0x3000] ++
    List.range' 0x2000 11

theorem toNat_mem_blankCodes {c : Char} (h : Text.isBlank c = true) : c.toNat ∈ blankCodes := by
  simp only [Text.isBlank, Bool.or_eq_true, Bool.and_eq_true, beq_iff_eq, decide_eq_true_eq,
    List.contains_eq_mem] at h
  simp only [blankCodes, List.mem_append, List.mem_range'_1]
  rcases h with ((rfl | h) | h) | h
  · exact .inl (by decide)
  · left
    simp only [List.mem_cons, List.not_mem_nil, or_false]
    omega
  · left
    simp only [List.mem_cons, List.not_mem_nil, or_false] at h ⊢
    omega
  · right
    omega

/-- There are few characters of white space, so each can be tried. -/
theorem eq_false_of_isBlank {p : Char → Bool} (hcodes : ∀ n ∈ blankCodes, p (Char.ofNat n) = false)
    {c : Char} (h : Text.isBlank c = true) : p c = false := by
  have hc := hcodes _ (toNat_mem_blankCodes h)
  rwa [Char.ofNat_toNat] at hc

theorem not_isBlank_of_isAlphabetic {c : Char} (h : Text.isAlphabetic c = true) :
    Text.isBlank c = false := by
  refine Bool.eq_false_iff.mpr fun hblank => ?_
  have hnot := eq_false_of_isBlank (p := Text.isAlphabetic) (by decide +kernel) hblank
  rw [h] at hnot
  cases hnot

/-- The digits. -/
def digits : List Char := ['0', '1', '2', '3', '4', '5', '6', '7', '8', '9']

theorem mem_digits {c : Char} (h : c.isDigit = true) : c ∈ digits := by
  have hcodes : ∀ n ∈ List.range' 48 10, Char.ofNat n ∈ digits := by decide
  simp only [Char.isDigit, Bool.and_eq_true, decide_eq_true_eq, UInt32.le_iff_toNat_le,
    ge_iff_le] at h
  change 48 ≤ c.toNat ∧ c.toNat ≤ 57 at h
  have hmem := hcodes c.toNat (by rw [List.mem_range'_1]; omega)
  rwa [Char.ofNat_toNat] at hmem

theorem not_special_of_isDigit {c : Char} (h : c.isDigit = true) :
    Text.isBlank c = false ∧ isComparatorPart c = false ∧ isIdentifierStart c = false ∧
      c ∉ ['/', '(', ')', ',', '\'', '"', '&', '|'] := by
  have hmem := mem_digits h
  simp only [digits, List.mem_cons, List.not_mem_nil, or_false] at hmem
  rcases hmem with rfl | rfl | rfl | rfl | rfl | rfl | rfl | rfl | rfl | rfl <;> decide

theorem not_special_of_isIdentifierStart {c : Char} (h : isIdentifierStart c = true) :
    Text.isBlank c = false ∧ isComparatorPart c = false ∧ c.isDigit = false ∧
      c ∉ ['/', '(', ')', ',', '\'', '"', '&', '|', '-'] := by
  refine ⟨?_, ?_, ?_, ?_⟩
  · simp only [isIdentifierStart, Bool.or_eq_true, beq_iff_eq] at h
    rcases h with ((h | rfl) | rfl) | rfl
    · exact not_isBlank_of_isAlphabetic h
    all_goals decide
  · refine Bool.eq_false_iff.mpr fun hc => ?_
    simp only [isComparatorPart, Bool.or_eq_true, beq_iff_eq] at hc
    rcases hc with ((((rfl | rfl) | rfl) | rfl) | rfl) | rfl <;> exact absurd h (by decide)
  · refine Bool.eq_false_iff.mpr fun hc => ?_
    exact absurd h (by rw [(not_special_of_isDigit hc).2.2.1]; decide)
  · intro hmark
    simp only [List.mem_cons, List.not_mem_nil, or_false] at hmark
    rcases hmark with rfl | rfl | rfl | rfl | rfl | rfl | rfl | rfl | rfl <;>
      exact absurd h (by decide)

/-! ### What `readPiece` makes of a stretch -/

theorem drop_length_takeWhile (p : Char → Bool) (text : List Char) :
    text.drop (text.takeWhile p).length = text.dropWhile p := by
  induction text with
  | nil => rfl
  | cons c rest ih => cases h : p c <;> simp [h, ih]

/-- A name reaches as far as its characters do, and over a parenthesis behind them. -/
theorem readPiece_name {first : Char} {more : List Char} (hfirst : isIdentifierStart first = true)
    (hmore : more.all isIdentifierPart = true) (tail : List Char) :
    readPiece first (more ++ tail) =
      let name := more ++ tail.takeWhile isIdentifierPart
      if (tail.dropWhile isIdentifierPart).head? = some '(' then
        (.lexeme (.callStart (String.ofList (first :: name))), name.length + 1)
      else (.lexeme (.identifier (String.ofList (first :: name))), name.length) := by
  obtain ⟨hblank, hrun, hdigit, hmark⟩ := not_special_of_isIdentifierStart hfirst
  simp only [List.mem_cons, List.not_mem_nil, or_false, not_or] at hmark
  have htake : (more ++ tail).takeWhile isIdentifierPart =
      more ++ tail.takeWhile isIdentifierPart :=
    List.takeWhile_append_of_pos (by simpa using hmore)
  have hdrop : (more ++ tail).drop (more ++ tail.takeWhile isIdentifierPart).length =
      tail.dropWhile isIdentifierPart := by
    rw [← htake, drop_length_takeWhile]
    exact List.dropWhile_append_of_pos (by simpa using hmore)
  simp only [readPiece, hblank, hrun, hdigit, hfirst, htake, hdrop]
  simp [hmark]

/-- A run of operator characters reaches as far as they do, and is an operator or a fault. -/
theorem readPiece_run {first : Char} {more : List Char}
    (hrun : (first :: more).all isComparatorPart = true) (tail : List Char) :
    readPiece first (more ++ tail) =
      let run := more ++ tail.takeWhile isComparatorPart
      match Comparator.ofSymbol? (String.ofList (first :: run)) with
      | some comparator => (.lexeme (.comparator comparator), run.length)
      | none =>
        (.fault (.unknownComparator (String.ofList (first :: run))) 0, (more ++ tail).length) := by
  rw [List.all_cons, Bool.and_eq_true] at hrun
  obtain ⟨hfirst, hmore⟩ := hrun
  have htake : (more ++ tail).takeWhile isComparatorPart =
      more ++ tail.takeWhile isComparatorPart :=
    List.takeWhile_append_of_pos (by simpa using hmore)
  rw [← htake]
  simp only [isComparatorPart, Bool.or_eq_true, beq_iff_eq] at hfirst
  rcases hfirst with ((((rfl | rfl) | rfl) | rfl) | rfl) | rfl <;> rfl

/-- A digit, or a minus with a digit behind it, starts a number. -/
theorem readPiece_number {negative : Bool} {first : Char} {more whole : List Char}
    (hword : signText negative ++ whole = first :: more) (hwhole : whole ≠ [])
    (hdigits : whole.all Char.isDigit = true) (tail : List Char) :
    readPiece first (more ++ tail) = readNumber negative (whole ++ tail) := by
  obtain ⟨d, ds, rfl⟩ := List.exists_cons_of_ne_nil hwhole
  have hd : d.isDigit = true := by simp_all
  obtain ⟨hblank, hrun, -, hmark⟩ := not_special_of_isDigit hd
  simp only [List.mem_cons, List.not_mem_nil, or_false, not_or] at hmark
  cases negative with
  | false =>
    obtain ⟨rfl, rfl⟩ : d = first ∧ ds = more := by simpa [signText] using hword
    simp only [readPiece, hblank, hrun, hd]
    simp [hmark]
  | true =>
    obtain ⟨rfl, rfl⟩ : '-' = first ∧ d :: ds = more := by simpa [signText] using hword
    simp [readPiece, Text.isBlank, isComparatorPart, hd]

/-- A number reaches as far as its digits do, and over a decimal point with digits behind it. -/
theorem readNumber_digits (negative : Bool) {whole : List Char}
    (hdigits : whole.all Char.isDigit = true) (tail : List Char) :
    readNumber negative (whole ++ tail) =
      let digits := whole ++ tail.takeWhile Char.isDigit
      let length := digits.length + (signText negative).length
      match tail.dropWhile Char.isDigit with
      | '.' :: rest =>
        let fraction := rest.takeWhile Char.isDigit
        if fraction.isEmpty then (.fault .missingFraction (length + 1), (whole ++ tail).length)
        else
          (.lexeme (.number
            (Double.ofDecimal negative (digitsValue (digits ++ fraction)) (-fraction.length))),
            length + fraction.length)
      | _ =>
        (.lexeme (.number (Double.ofDecimal negative (digitsValue digits) 0)), length - 1) := by
  have htake : (whole ++ tail).takeWhile Char.isDigit = whole ++ tail.takeWhile Char.isDigit :=
    List.takeWhile_append_of_pos (by simpa using hdigits)
  have hdrop : (whole ++ tail).drop ((whole ++ tail).takeWhile Char.isDigit).length =
      tail.dropWhile Char.isDigit := by
    rw [drop_length_takeWhile]
    exact List.dropWhile_append_of_pos (by simpa using hdigits)
  have hsign : (signText negative).length = if negative then 1 else 0 := by
    cases negative <;> rfl
  rw [← hdrop, ← htake, hsign]
  rfl

theorem takeWhile_eq_nil_iff {p : Char → Bool} {tail : List Char} :
    tail.takeWhile p = [] ↔ ∀ c ∈ tail.head?, p c = false := by
  cases tail with
  | nil => simp
  | cons c rest => cases hc : p c <;> simp [hc]

theorem dropWhile_eq_self {p : Char → Bool} {tail : List Char}
    (h : ∀ c ∈ tail.head?, p c = false) : tail.dropWhile p = tail := by
  cases tail with
  | nil => rfl
  | cons c rest => simp [h c rfl]

/-- A whole number ends where no digit and no decimal point follows. -/
theorem readPiece_integer {negative : Bool} {whole : List Char} (hne : whole ≠ [])
    (hall : whole.all Char.isDigit = true) {first : Char} {more : List Char}
    (hword : signText negative ++ whole = first :: more) {tail : List Char}
    (htail : ∀ c ∈ tail.head?, c.isDigit = false ∧ c ≠ '.') :
    readPiece first (more ++ tail) =
      (.lexeme (.number (Double.ofDecimal negative (digitsValue whole) 0)), more.length) := by
  have hdigit : ∀ c ∈ tail.head?, c.isDigit = false := fun c hc => (htail c hc).1
  have hlength : whole.length + (signText negative).length - 1 = more.length := by
    have := congrArg List.length hword
    simp only [List.length_append, List.length_cons] at this
    omega
  rw [readPiece_number hword hne hall, readNumber_digits negative hall,
    takeWhile_eq_nil_iff.mpr hdigit, dropWhile_eq_self hdigit, List.append_nil]
  dsimp only
  rw [hlength]
  cases tail with
  | nil => rfl
  | cons c rest => simp [(htail c rfl).2]

/-- A number with digits behind a decimal point ends where no digit follows. -/
theorem readPiece_decimal {negative : Bool} {whole fraction : List Char} (hne : whole ≠ [])
    (hall : whole.all Char.isDigit = true) (hnef : fraction ≠ [])
    (hallf : fraction.all Char.isDigit = true) {first : Char} {init : List Char}
    (hinit : signText negative ++ whole = first :: init) {tail : List Char}
    (htail : ∀ c ∈ tail.head?, c.isDigit = false) :
    readPiece first (init ++ '.' :: fraction ++ tail) =
      (.lexeme (.number
        (Double.ofDecimal negative (digitsValue (whole ++ fraction)) (-fraction.length))),
        (init ++ '.' :: fraction).length) := by
  -- The dot ends the digits in front of it.
  have hdot : Char.isDigit '.' = false := by decide
  have hfraction : (fraction ++ tail).takeWhile Char.isDigit = fraction := by
    rw [List.takeWhile_append_of_pos (by simpa using hallf), takeWhile_eq_nil_iff.mpr htail,
      List.append_nil]
  have hlength : whole.length + (signText negative).length + fraction.length =
      (init ++ '.' :: fraction).length := by
    have := congrArg List.length hinit
    simp only [List.length_append, List.length_cons] at this ⊢
    omega
  have hread := readPiece_number hinit hne hall ('.' :: fraction ++ tail)
  rw [readNumber_digits negative hall, List.cons_append,
    List.takeWhile_cons_of_neg (by simp [hdot]), List.dropWhile_cons_of_neg (by simp [hdot]),
    List.append_nil] at hread
  simp only [hfraction] at hread
  rwa [if_neg (by simp [hnef]), ← List.cons_append, ← List.append_assoc, hlength] at hread

theorem Quotes.readText {quote : Char} {content body : List Char} (h : Quotes quote content body)
    (hquote : quote ≠ '\\') (tail : List Char) :
    readText quote (body ++ quote :: tail) = some (content, body.length + 1) := by
  induction h with
  | nil => rw [List.nil_append, Lexing.readText.eq_def]; split <;> simp_all
  | @escaped c content body hc _ ih =>
    rw [List.cons_append, List.cons_append, Lexing.readText, if_pos (by simpa using hc), ih]
    rfl
  | @backslash c content body hq hb _ ih =>
    rw [List.cons_append, List.cons_append, Lexing.readText, if_neg (by simp [hq, hb])]
    rw [List.cons_append] at ih
    rw [ih]
    rfl
  | @plain c content body hq hb _ ih =>
    rw [List.cons_append, Lexing.readText.eq_3 _ _ _ (by simp_all), if_neg hq, ih]
    rfl

theorem quotes_of_readText {quote : Char} {text content : List Char}
    {count : Nat} (h : readText quote text = some (content, count)) :
    ∃ body tail, text = body ++ quote :: tail ∧ count = body.length + 1 ∧
      Quotes quote content body := by
  fun_induction Lexing.readText quote text generalizing content count with
  | case1 => simp at h
  | case2 c rest hc ih =>
    obtain ⟨⟨content, count⟩, hread, heq⟩ := Option.map_eq_some_iff.mp h
    obtain ⟨body, tail, rfl, rfl, hbody⟩ := ih hread
    obtain ⟨rfl, rfl⟩ : _ ∧ _ := by simpa using heq
    exact ⟨'\\' :: c :: body, tail, rfl, rfl, .escaped (by simpa using hc) hbody⟩
  | case3 c rest hc ih =>
    obtain ⟨⟨content, count⟩, hread, heq⟩ := Option.map_eq_some_iff.mp h
    obtain ⟨body, tail, hrest, rfl, hbody⟩ := ih hread
    obtain ⟨rfl, rfl⟩ : _ ∧ _ := by simpa using heq
    simp only [Bool.or_eq_true, decide_eq_true_eq, not_or] at hc
    -- The character behind the backslash is no quote, so the body has not ended yet.
    cases body with
    | nil => exact absurd (List.cons.inj hrest).1 hc.1
    | cons c' body =>
      obtain ⟨rfl, rfl⟩ := List.cons.inj hrest
      exact ⟨'\\' :: c :: body, tail, rfl, rfl, .backslash hc.1 hc.2 hbody⟩
  | case4 rest =>
    obtain ⟨rfl, rfl⟩ : _ ∧ _ := by simpa using h.symm
    exact ⟨[], rest, rfl, rfl, .nil⟩
  | case5 c rest hescape hc ih =>
    obtain ⟨⟨content, count⟩, hread, heq⟩ := Option.map_eq_some_iff.mp h
    obtain ⟨body, tail, rfl, rfl, hbody⟩ := ih hread
    obtain ⟨rfl, rfl⟩ : _ ∧ _ := by simpa using heq
    refine ⟨c :: body, tail, rfl, rfl, .plain hc ?_ hbody⟩
    -- A backslash would have been read together with what is behind it.
    rintro rfl
    cases body with
    | nil => exact hescape _ _ rfl rfl
    | cons c' body => exact hescape _ _ rfl rfl

/-! ### Stretches and pieces -/

/-- The piece that a stretch is.  A run counts as a piece only if it is an operator. -/
def Stretch.piece? : Stretch → Option Piece
  | blank => some .blank
  | lexeme l => some (.lexeme l)
  | run => none

theorem Spells.ne_nil {stretch : Stretch} {word : List Char} (h : Spells stretch word) :
    word ≠ [] := by
  cases h with
  | join join => cases join <;> decide
  | comparator comparator => cases comparator <;> decide
  | run hne _ => exact hne
  | integer negative hne _ => simp [hne]
  | _ => simp

theorem Spells.head_ne_dot {stretch : Stretch} {word : List Char} (h : Spells stretch word) :
    word.head? ≠ some '.' := by
  intro hdot
  cases h with
  | space hblank =>
    obtain rfl := Option.some.inj hdot
    exact absurd hblank (by decide)
  | text hquote _ =>
    obtain rfl := Option.some.inj hdot
    simp at hquote
  | join join => cases join <;> exact absurd hdot (by decide)
  | comparator comparator => cases comparator <;> exact absurd hdot (by decide)
  | @run symbol hne hall =>
    obtain ⟨c, rest, rfl⟩ := List.exists_cons_of_ne_nil hne
    obtain rfl := Option.some.inj hdot
    simp [isComparatorPart] at hall
  | @integer negative whole hne hall =>
    obtain ⟨d, ds, rfl⟩ := List.exists_cons_of_ne_nil hne
    cases negative <;> simp [signText] at hdot
    simp [hdot] at hall
  | @decimal negative whole fraction hne hall _ _ =>
    obtain ⟨d, ds, rfl⟩ := List.exists_cons_of_ne_nil hne
    cases negative <;> simp [signText] at hdot
    simp [hdot] at hall
  | identifier hfirst _ =>
    obtain rfl := Option.some.inj hdot
    exact absurd hfirst (by decide)
  | callStart hfirst _ =>
    obtain rfl := Option.some.inj hdot
    exact absurd hfirst (by decide)
  | _ => simp at hdot

theorem ofSymbol?_symbol (comparator : Comparator) :
    Comparator.ofSymbol? comparator.symbol = some comparator := by
  cases comparator <;> decide

theorem all_isComparatorPart_symbol (comparator : Comparator) :
    comparator.symbol.toList.all isComparatorPart = true := by
  cases comparator <;> decide

/-- A longer stretch than `first :: more` starts in the same place of `first :: more ++ tail`. -/
def Exceeded (first : Char) (more tail : List Char) : Prop :=
  ∃ other further, Spells other (first :: (more ++ further)) ∧ further ≠ [] ∧ further <+: tail

theorem takeWhile_cases (p : Char → Bool) (tail : List Char) :
    (tail.takeWhile p = [] ∧ tail.dropWhile p = tail) ∨
      tail.takeWhile p ≠ [] ∧ (tail.takeWhile p).all p = true ∧ tail.takeWhile p <+: tail := by
  by_cases h : tail.takeWhile p = []
  · refine .inl ⟨h, ?_⟩
    have happend := List.takeWhile_append_dropWhile (p := p) (l := tail)
    rwa [h, List.nil_append] at happend
  · exact .inr ⟨h, by simp, List.takeWhile_prefix p⟩

/-- A whole number with a point behind it, which would be a number with a fraction if a digit
followed the point. -/
def AwaitsFraction (stretch : Stretch) (word tail : List Char) : Prop :=
  (∃ value, stretch = .lexeme (.number value)) ∧ '.' ∉ word ∧ tail.head? = some '.'

/-- What `readPiece` finds where `first :: more` is written for a stretch, in front of `tail`. -/
inductive Found (stretch : Stretch) (first : Char) (more tail : List Char) : Prop where
  /-- The stretch. -/
  | piece {piece : Piece} (count : Nat) :
    stretch.piece? = some piece → readPiece first (more ++ tail) = (piece, count) →
      more.length ≤ count → (more ++ tail).drop count = tail → Found stretch first more tail
  /-- A stretch that is longer. -/
  | longer : Exceeded first more tail → Found stretch first more tail
  /-- Something that is not shorter, if the stretch is a run, or a whole number with a dot behind
  it. -/
  | reaching :
    stretch.piece? = none ∨ AwaitsFraction stretch (first :: more) tail →
      more.length ≤ (readPiece first (more ++ tail)).2 → Found stretch first more tail

theorem takeWhile_of_no_newline {body : List Char} (hbody : '\n' ∉ body) (tail : List Char) :
    (body ++ tail).takeWhile (· != '\n') = body ++ tail.takeWhile (· != '\n') := by
  refine List.takeWhile_append_of_pos fun c hc => ?_
  rw [bne_iff_ne]
  rintro rfl
  exact hbody hc

/-- A comment is found where the filter ends behind it, and a longer one where it does not. -/
theorem found_comment {body : List Char} (hbody : '\n' ∉ body) (tail : List Char) :
    Found .blank '/' ('/' :: body) tail := by
  cases tail with
  | nil =>
    have htake : body.takeWhile (· != '\n') = body := by
      simpa using takeWhile_of_no_newline hbody []
    refine .piece (body.length + 2) rfl ?_ (by simp) (by simp)
    simp [readPiece, Text.isBlank, htake]
  | cons c tail =>
    refine .longer ⟨.blank, [c], ?_, by simp, by simp⟩
    by_cases hc : c = '\n'
    · subst hc
      exact .commentLine hbody
    · exact .comment (by simp [hbody, Ne.symm hc])

theorem found_commentLine {body : List Char} (hbody : '\n' ∉ body) (tail : List Char) :
    Found .blank '/' ('/' :: (body ++ ['\n'])) tail := by
  have htake : (body ++ '\n' :: tail).takeWhile (· != '\n') = body := by
    simpa using takeWhile_of_no_newline hbody ('\n' :: tail)
  refine .piece (body.length + 2) rfl ?_ (by simp) (by simp)
  simp [readPiece, Text.isBlank, htake]

theorem found_text {quote : Char} {content body : List Char} (hquote : quote = '\'' ∨ quote = '"')
    (hbody : Quotes quote content body) (tail : List Char) :
    Found (.lexeme (.text (String.ofList content))) quote (body ++ [quote]) tail := by
  have hne : quote ≠ '\\' := by rcases hquote with rfl | rfl <;> decide
  have hread := hbody.readText hne tail
  refine .piece (body.length + 1) rfl ?_ (by simp) (by simp)
  rcases hquote with rfl | rfl <;> simp [readPiece, Text.isBlank, hread]

/-- An operator is found where the run of operator characters ends behind it. -/
theorem found_comparator {comparator : Comparator} {first : Char} {more : List Char}
    (hword : comparator.symbol.toList = first :: more) (tail : List Char) :
    Found (.lexeme (.comparator comparator)) first more tail := by
  have hall := all_isComparatorPart_symbol comparator
  rw [hword] at hall
  rcases takeWhile_cases isComparatorPart tail with ⟨htake, -⟩ | ⟨hne, hrun, hprefix⟩
  · refine .piece more.length rfl ?_ (Nat.le_refl _) (by simp)
    rw [readPiece_run hall, htake, List.append_nil]
    dsimp only
    rw [← hword, String.ofList_toList, ofSymbol?_symbol]
  · -- The whole run is a stretch, whether it is an operator or not.
    refine .longer ⟨.run, _, .run (by simp) ?_, hne, hprefix⟩
    rw [← List.cons_append, List.all_append, hall, hrun]
    rfl

/-- A whole number is found where no digit follows, unless a dot does. -/
theorem found_integer {negative : Bool} {whole : List Char} (hne : whole ≠ [])
    (hall : whole.all Char.isDigit = true) {first : Char} {more : List Char}
    (hword : signText negative ++ whole = first :: more) (tail : List Char) :
    Found (.lexeme (.number (Double.ofDecimal negative (digitsValue whole) 0)))
      first more tail := by
  have hlength : more.length + 1 = whole.length + (signText negative).length := by
    have := congrArg List.length hword
    simp only [List.length_append, List.length_cons] at this
    omega
  have hread := readPiece_number hword hne hall tail
  rw [readNumber_digits negative hall] at hread
  rcases takeWhile_cases Char.isDigit tail with ⟨htake, hdrop⟩ | ⟨hne', hall', hprefix⟩
  · rw [htake, hdrop, List.append_nil] at hread
    by_cases hdot : tail.head? = some '.'
    · -- Behind the dot there are digits, or they are missing and the piece is a fault.
      refine .reaching (.inr ⟨⟨_, rfl⟩, ?_, hdot⟩) ?_
      · rw [← hword, List.mem_append, not_or]
        refine ⟨by cases negative <;> decide, fun hmem => ?_⟩
        exact absurd (List.all_eq_true.mp hall '.' hmem) (by decide)
      obtain ⟨rest, rfl⟩ : ∃ rest, tail = '.' :: rest := by
        cases tail <;> simp_all
      have hsign : (signText negative).length ≤ 1 := by cases negative <;> decide
      simp only [hread]
      cases (rest.takeWhile Char.isDigit).isEmpty with
      | true =>
        rw [if_pos rfl, List.length_append, List.length_cons]
        dsimp only
        omega
      | false =>
        rw [if_neg Bool.false_ne_true]
        dsimp only
        omega
    · refine .piece more.length rfl (readPiece_integer hne hall hword fun c hc => ⟨?_, ?_⟩)
        (Nat.le_refl _) (by simp)
      · exact takeWhile_eq_nil_iff.mp htake c hc
      · rintro rfl
        exact hdot hc
  · have hall'' : (whole ++ tail.takeWhile Char.isDigit).all Char.isDigit = true := by
      rw [List.all_append, hall, hall', Bool.and_self]
    have hlonger := Spells.integer negative (by simp [hne]) hall''
    rw [← List.append_assoc, hword, List.cons_append] at hlonger
    exact .longer ⟨_, tail.takeWhile Char.isDigit, hlonger, hne', hprefix⟩

/-- A number with digits behind a decimal point is found where no digit follows. -/
theorem found_decimal {negative : Bool} {whole fraction : List Char} (hne : whole ≠ [])
    (hall : whole.all Char.isDigit = true) (hnef : fraction ≠ [])
    (hallf : fraction.all Char.isDigit = true) {first : Char} {init : List Char}
    (hinit : signText negative ++ whole = first :: init) (tail : List Char) :
    Found (.lexeme (.number
        (Double.ofDecimal negative (digitsValue (whole ++ fraction)) (-fraction.length))))
      first (init ++ '.' :: fraction) tail := by
  rcases takeWhile_cases Char.isDigit tail with ⟨htake, -⟩ | ⟨hne', hall', hprefix⟩
  · exact .piece _ rfl (readPiece_decimal hne hall hnef hallf hinit (takeWhile_eq_nil_iff.mp htake))
      (Nat.le_refl _) (by simp)
  · have hallf' : (fraction ++ tail.takeWhile Char.isDigit).all Char.isDigit = true := by
      rw [List.all_append, hallf, hall', Bool.and_self]
    have hlonger := Spells.decimal negative hne hall (by simp [hnef]) hallf'
    rw [hinit] at hlonger
    have hassoc : first :: init ++ '.' :: (fraction ++ tail.takeWhile Char.isDigit) =
        first :: (init ++ '.' :: fraction ++ tail.takeWhile Char.isDigit) := by simp
    rw [hassoc] at hlonger
    exact .longer ⟨_, tail.takeWhile Char.isDigit, hlonger, hne', hprefix⟩

/-- A name is found where it ends, unless a parenthesis directly behind it makes it a call. -/
theorem found_identifier {first : Char} {name : List Char} (hfirst : isIdentifierStart first = true)
    (hname : name.all isIdentifierPart = true) (tail : List Char) :
    Found (.lexeme (.identifier (String.ofList (first :: name)))) first name tail := by
  have hread := readPiece_name hfirst hname tail
  rcases takeWhile_cases isIdentifierPart tail with ⟨htake, hdrop⟩ | ⟨hne, hall, hprefix⟩
  · rw [htake, hdrop, List.append_nil] at hread
    by_cases hparen : tail.head? = some '('
    · refine .longer ⟨_, ['('], .callStart hfirst hname, by simp, ?_⟩
      cases tail <;> simp_all
    · exact .piece name.length rfl (by simpa [hparen] using hread) (Nat.le_refl _)
        (by simp)
  · exact .longer ⟨_, _, .identifier hfirst (by simp [hname, hall]), hne, hprefix⟩

theorem found_callStart {first : Char} {name : List Char} (hfirst : isIdentifierStart first = true)
    (hname : name.all isIdentifierPart = true) (tail : List Char) :
    Found (.lexeme (.callStart (String.ofList (first :: name)))) first (name ++ ['(']) tail := by
  have hread := readPiece_name hfirst hname ('(' :: tail)
  refine .piece (name.length + 1) rfl ?_ (by simp) (by simp)
  have hpart : isIdentifierPart '(' = false := by decide
  simpa [hpart] using hread

/-- A stretch is the piece that `readPiece` finds, or a longer one starts in the same place, or it
is a run, or it is a number with a dot behind it. -/
theorem Spells.found {stretch : Stretch} {word : List Char} (h : Spells stretch word) {first : Char}
    {more : List Char} (hword : word = first :: more) (tail : List Char) :
    Found stretch first more tail := by
  cases h with
  | space hblank =>
    obtain ⟨rfl, rfl⟩ := List.cons.inj hword
    exact .piece 0 rfl (by simp [readPiece, hblank]) (Nat.le_refl _) rfl
  | comment hbody =>
    obtain ⟨rfl, rfl⟩ := List.cons.inj hword
    exact found_comment hbody tail
  | commentLine hbody =>
    obtain ⟨rfl, rfl⟩ := List.cons.inj hword
    exact found_commentLine hbody tail
  | openParen =>
    obtain ⟨rfl, rfl⟩ := List.cons.inj hword
    exact .piece 0 rfl rfl (Nat.le_refl _) rfl
  | closeParen =>
    obtain ⟨rfl, rfl⟩ := List.cons.inj hword
    exact .piece 0 rfl rfl (Nat.le_refl _) rfl
  | comma =>
    obtain ⟨rfl, rfl⟩ := List.cons.inj hword
    exact .piece 0 rfl rfl (Nat.le_refl _) rfl
  | text hquote hbody =>
    obtain ⟨rfl, rfl⟩ := List.cons.inj hword
    exact found_text hquote hbody tail
  | join join =>
    cases join <;> obtain ⟨rfl, rfl⟩ := List.cons.inj hword.symm <;>
      exact .piece 1 rfl rfl (Nat.le_refl _) rfl
  | comparator comparator => exact found_comparator hword tail
  | run _ hall =>
    subst hword
    refine .reaching (.inl rfl) ?_
    rw [readPiece_run hall]
    dsimp only
    split <;> simp
  | integer negative hne hall => exact found_integer hne hall hword tail
  | @decimal negative whole fraction hne hall hnef hallf =>
    obtain ⟨init, hinit, rfl⟩ : ∃ init, signText negative ++ whole = first :: init ∧
        more = init ++ '.' :: fraction := by
      cases hsigned : signText negative ++ whole with
      | nil => simp [hne] at hsigned
      | cons c init =>
        rw [hsigned] at hword
        obtain ⟨rfl, rfl⟩ := List.cons.inj hword
        exact ⟨init, rfl, rfl⟩
    exact found_decimal hne hall hnef hallf hinit tail
  | identifier hfirst hname =>
    obtain ⟨rfl, rfl⟩ := List.cons.inj hword
    exact found_identifier hfirst hname tail
  | callStart hfirst hname =>
    obtain ⟨rfl, rfl⟩ := List.cons.inj hword
    exact found_callStart hfirst hname tail

/-- No stretch reaches further than the piece that starts in its place. -/
theorem Spells.length_le {stretch : Stretch} {first : Char} {more : List Char}
    (h : Spells stretch (first :: more)) (tail : List Char) :
    more.length ≤ (readPiece first (more ++ tail)).2 := by
  -- By induction on what is behind the stretch, since a longer one may itself be exceeded.
  induction hn : tail.length using Nat.strongRecOn generalizing stretch more tail with
  | _ n ih =>
    cases h.found rfl tail with
    | piece count _ hread hle _ => rwa [hread]
    | longer hlonger =>
      -- The longer stretch leaves less of the text behind it.
      obtain ⟨other, further, hother, hne, tail', rfl⟩ := hlonger
      have hlt : tail'.length < n := by
        have := List.length_pos_iff.mpr hne
        rw [← hn, List.length_append]
        omega
      have hle := ih _ hlt hother tail' rfl
      rw [List.length_append, List.append_assoc] at hle
      omega
    | reaching _ hle => exact hle

/-- Each stretch that `found` can stand for is written where `found` is. -/
def Fits (first : Char) (rest : List Char) (found : Piece × Nat) : Prop :=
  ∀ stretch, Stretch.piece? stretch = some found.1 → Spells stretch (first :: rest.take found.2)

section Fits

variable {first : Char} {rest : List Char} {count : Nat}

theorem fits_blank (h : Spells .blank (first :: rest.take count)) :
    Fits first rest (.blank, count) := by
  rintro (_ | _ | _) hpiece <;> simp [Stretch.piece?] at hpiece
  exact h

theorem fits_lexeme {lexeme : Lexeme} (h : Spells (.lexeme lexeme) (first :: rest.take count)) :
    Fits first rest (.lexeme lexeme, count) := by
  rintro (_ | _ | _) hpiece <;> simp [Stretch.piece?] at hpiece
  subst hpiece
  exact h

theorem fits_fault {fault : ParseFault} {offset : Nat} :
    Fits first rest (.fault fault offset, count) := by
  rintro (_ | _ | _) hpiece <;> simp [Stretch.piece?] at hpiece

theorem take_length_takeWhile (p : Char → Bool) (text : List Char) :
    text.take (text.takeWhile p).length = text.takeWhile p :=
  (List.prefix_iff_eq_take.mp (List.takeWhile_prefix p)).symm

theorem takeWhile_ne_nil {p : Char → Bool} {text : List Char} (h : text.head?.any p = true) :
    text.takeWhile p ≠ [] := by
  cases text with
  | nil => simp at h
  | cons c rest =>
    have hc : p c = true := by simpa using h
    simp [hc]

theorem line_cases (text : List Char) :
    '\n' ∉ text.takeWhile (· != '\n') ∧
      (text = text.takeWhile (· != '\n') ∨
        ∃ tail, text = text.takeWhile (· != '\n') ++ '\n' :: tail) := by
  induction text with
  | nil => simp
  | cons c rest ih =>
    obtain ⟨hnot, hrest⟩ := ih
    by_cases hc : c = '\n'
    · subst hc
      exact ⟨by simp, .inr ⟨rest, by simp⟩⟩
    · rw [List.takeWhile_cons_of_pos (by simpa using hc)]
      refine ⟨by simp [Ne.symm hc, hnot], ?_⟩
      rcases hrest with heq | ⟨tail, heq⟩
      · exact .inl (congrArg (c :: ·) heq)
      · exact .inr ⟨tail, congrArg (c :: ·) heq⟩

/-- A comment takes the end of its line with it, if the line ends. -/
theorem fits_comment (h : rest.head? = some '/') :
    Fits '/' rest (.blank, (rest.takeWhile (· != '\n')).length + 1) := by
  obtain ⟨body, rfl⟩ : ∃ body, rest = '/' :: body := by cases rest <;> simp_all
  have hslash : ('/' != '\n') = true := by decide
  rw [List.takeWhile_cons_of_pos (p := fun c => c != '\n') hslash]
  apply fits_blank
  rw [List.length_cons, List.take_succ_cons]
  obtain ⟨hline, hbody⟩ := line_cases body
  generalize body.takeWhile (· != '\n') = line at hline hbody
  rcases hbody with rfl | ⟨tail, rfl⟩
  · rw [List.take_of_length_le (Nat.le_succ _)]
    exact .comment hline
  · have htake : (line ++ '\n' :: tail).take (line.length + 1) = line ++ ['\n'] := by
      rw [List.append_cons]
      exact List.take_left' (by simp)
    rw [htake]
    exact .commentLine hline

theorem fits_text (hquote : first = '\'' ∨ first = '"') {content : List Char}
    (h : readText first rest = some (content, count)) :
    Fits first rest (.lexeme (.text (String.ofList content)), count) := by
  obtain ⟨body, tail, rfl, rfl, hbody⟩ := quotes_of_readText h
  apply fits_lexeme
  have htake : (body ++ first :: tail).take (body.length + 1) = body ++ [first] := by
    rw [List.append_cons]
    exact List.take_left' (by simp)
  rw [htake]
  exact .text hquote hbody

theorem fits_comparator {comparator : Comparator}
    (h : Comparator.ofSymbol? (String.ofList (first :: rest.takeWhile isComparatorPart)) =
      some comparator) :
    Fits first rest (.lexeme (.comparator comparator),
      (rest.takeWhile isComparatorPart).length) := by
  have hsymbol : comparator.symbol.toList = first :: rest.takeWhile isComparatorPart := by
    have := List.find?_some h
    rw [beq_iff_eq] at this
    rw [this, String.toList_ofList]
  apply fits_lexeme
  rw [take_length_takeWhile, ← hsymbol]
  exact .comparator comparator

/-- A number takes all its digits, and those behind a decimal point. -/
theorem fits_number (negative : Bool) {text : List Char}
    (htext : signText negative ++ text = first :: rest)
    (hdigit : text.head?.any Char.isDigit = true) :
    Fits first rest (readNumber negative text) := by
  have hsign : (signText negative).length = if negative then 1 else 0 := by
    cases negative <;> rfl
  have hne := takeWhile_ne_nil hdigit
  have hall : (text.takeWhile Char.isDigit).all Char.isDigit = true := by simp
  have hsplit := List.takeWhile_append_dropWhile (p := Char.isDigit) (l := text)
  simp only [readNumber, drop_length_takeWhile, ← hsign]
  generalize text.takeWhile Char.isDigit = whole at hne hall hsplit
  have hlength : 0 < whole.length := List.length_pos_iff.mpr hne
  split
  · rename_i tail hdrop
    rw [hdrop] at hsplit
    split
    · exact fits_fault
    · rename_i hempty
      have hnef : tail.takeWhile Char.isDigit ≠ [] := by simpa using hempty
      have hallf : (tail.takeWhile Char.isDigit).all Char.isDigit = true := by simp
      obtain ⟨after, hafter⟩ := List.takeWhile_prefix Char.isDigit (l := tail)
      generalize tail.takeWhile Char.isDigit = fraction at hnef hallf hafter
      apply fits_lexeme
      have htake : first :: rest.take
          (whole.length + (signText negative).length + fraction.length) =
          signText negative ++ whole ++ '.' :: fraction := by
        rw [← List.take_succ_cons, ← htext, ← hsplit, ← hafter, ← List.cons_append,
          ← List.append_assoc, ← List.append_assoc]
        apply List.take_left'
        simp only [List.length_append, List.length_cons]
        omega
      rw [htake]
      exact .decimal negative hne hall hnef hallf
  · apply fits_lexeme
    have htake : first :: rest.take (whole.length + (signText negative).length - 1) =
        signText negative ++ whole := by
      rw [← List.take_succ_cons, ← htext, ← hsplit, ← List.append_assoc]
      apply List.take_left'
      rw [List.length_append]
      omega
    rw [htake]
    exact .integer negative hne hall

theorem fits_join (hmark : first = '&' ∨ first = '|') (hsame : rest.head? = some first) :
    Fits first rest (.lexeme (.join (if first = '&' then .and else .or)), 1) := by
  obtain ⟨rest, rfl⟩ : ∃ rest', rest = first :: rest' := by cases rest <;> simp_all
  apply fits_lexeme
  rcases hmark with rfl | rfl
  · exact .join .and
  · exact .join .or

/-- A name takes all its characters, and a parenthesis behind them. -/
theorem fits_name (hstart : isIdentifierStart first = true)
    (hparen : (rest.drop (rest.takeWhile isIdentifierPart).length).head? = some '(') :
    Fits first rest
      (.lexeme (.callStart (String.ofList (first :: rest.takeWhile isIdentifierPart))),
        (rest.takeWhile isIdentifierPart).length + 1) := by
  have hall : (rest.takeWhile isIdentifierPart).all isIdentifierPart = true := by simp
  have hsplit := List.takeWhile_append_dropWhile (p := isIdentifierPart) (l := rest)
  rw [drop_length_takeWhile] at hparen
  obtain ⟨after, hafter⟩ : ∃ after, rest.dropWhile isIdentifierPart = '(' :: after := by
    cases h : rest.dropWhile isIdentifierPart <;> simp_all
  rw [hafter, List.append_cons] at hsplit
  generalize rest.takeWhile isIdentifierPart = name at hsplit hall
  apply fits_lexeme
  rw [← hsplit, List.take_left' (by simp)]
  exact .callStart hstart hall

/-- The piece that starts with a character is written there, unless it is a fault. -/
theorem fits_readPiece (first : Char) (rest : List Char) :
    Fits first rest (readPiece first rest) := by
  fun_cases readPiece first rest with
  | case1 hblank => exact fits_blank (.space hblank)
  | case2 _ hcomment =>
    obtain ⟨rfl, hslash⟩ : first = '/' ∧ rest.head? = some '/' := by simpa using hcomment
    exact fits_comment hslash
  | case3 _ _ hparen =>
    subst hparen
    exact fits_lexeme .openParen
  | case4 _ _ _ hparen =>
    subst hparen
    exact fits_lexeme .closeParen
  | case5 _ _ _ _ hcomma =>
    subst hcomma
    exact fits_lexeme .comma
  | case6 _ _ _ _ _ hquote content count hread => exact fits_text (by simpa using hquote) hread
  | case8 _ _ _ _ _ _ hmark hsame => exact fits_join (by simpa using hmark) hsame
  | case10 _ _ _ _ _ _ _ _ _ _ comparator hsymbol => exact fits_comparator hsymbol
  | case12 => exact fits_number false rfl (by simpa)
  | case13 _ _ _ _ _ _ _ _ _ hminus =>
    obtain ⟨rfl, hdigit⟩ : first = '-' ∧ rest.head?.any Char.isDigit = true := by
      simpa using hminus
    exact fits_number true rfl hdigit
  | case14 _ _ _ _ _ _ _ _ _ _ hstart _ _ hparen => exact fits_name hstart hparen
  | case15 _ _ _ _ _ _ _ _ _ _ hstart =>
    apply fits_lexeme
    rw [take_length_takeWhile]
    exact .identifier hstart List.all_takeWhile
  | case7 | case9 | case11 | case16 => exact fits_fault

end Fits

/-! ### Rows of stretches -/

/-- The piece that starts with a character is the longest stretch there. -/
theorem isLongest_readPiece {first : Char} {rest : List Char} {stretch : Stretch}
    (hpiece : stretch.piece? = some (readPiece first rest).1) :
    IsLongest (first :: rest) (first :: rest.take (readPiece first rest).2) stretch where
  spells := fits_readPiece first rest stretch hpiece
  isPrefix := ⟨rest.drop (readPiece first rest).2, by simp⟩
  length_le := by
    rintro other longer hother hprefix
    obtain ⟨c, more, rfl⟩ := List.exists_cons_of_ne_nil hother.ne_nil
    obtain ⟨rfl, tail, rfl⟩ := List.cons_prefix_cons.mp hprefix
    have hle := hother.length_le tail
    simp only [List.length_cons, List.length_take, List.length_append]
    omega

/-- The longest stretch at the start of a text is the piece there, unless it awaits a fraction. -/
theorem IsLongest.readPiece {word rest : List Char} {stretch : Stretch} {piece : Piece}
    (h : IsLongest (word ++ rest) word stretch) (hpiece : stretch.piece? = some piece)
    (hwhole : ¬ AwaitsFraction stretch word rest) :
    ∃ first more count, word = first :: more ∧
      Lexing.readPiece first (more ++ rest) = (piece, count) ∧
      (more ++ rest).drop count = rest := by
  obtain ⟨first, more, rfl⟩ := List.exists_cons_of_ne_nil h.spells.ne_nil
  cases h.spells.found rfl rest with
  | piece count hpiece' hread _ hdrop =>
    obtain rfl := Option.some.inj (hpiece.symm.trans hpiece')
    exact ⟨first, more, count, rfl, hread, hdrop⟩
  | longer hlonger =>
    obtain ⟨other, further, hother, hne, tail, rfl⟩ := hlonger
    have hle := h.length_le other _ hother ⟨tail, by simp⟩
    have := List.length_pos_iff.mpr hne
    simp only [List.length_cons, List.length_append] at hle
    omega
  | reaching hkind _ =>
    rcases hkind with hrun | hawaits
    · simp [hrun] at hpiece
    · exact absurd hawaits hwhole

theorem Splits.head_ne_dot {text : List Char} {lexemes : List Lexeme} (h : Splits text lexemes) :
    text.head? ≠ some '.' := by
  cases h with
  | nil => simp
  | blank hlongest _ =>
    obtain ⟨c, more, rfl⟩ := List.exists_cons_of_ne_nil hlongest.spells.ne_nil
    exact hlongest.spells.head_ne_dot
  | lexeme hlongest _ =>
    obtain ⟨c, more, rfl⟩ := List.exists_cons_of_ne_nil hlongest.spells.ne_nil
    exact hlongest.spells.head_ne_dot

/-- The lexemes of a text that splits are found, and no fault. -/
theorem Splits.collect {text : List Char} {lexemes : List Lexeme} (h : Splits text lexemes)
    (position : Nat) :
    ∃ found stop, Lexing.collect position (Text.cut Lexing.readPiece text) = (found, .ok stop) ∧
      found.map Located.lexeme = lexemes := by
  induction h generalizing position with
  | nil => exact ⟨[], position, rfl, rfl⟩
  | @blank word rest lexemes hlongest hrest ih =>
    obtain ⟨first, more, count, rfl, hread, hdrop⟩ :=
      hlongest.readPiece rfl fun hawaits => hrest.head_ne_dot hawaits.2.2
    rw [List.cons_append, Text.cut_cons, hread, hdrop]
    exact ih _
  | @lexeme word rest lexeme lexemes hlongest hrest ih =>
    obtain ⟨first, more, count, rfl, hread, hdrop⟩ :=
      hlongest.readPiece rfl fun hawaits => hrest.head_ne_dot hawaits.2.2
    rw [List.cons_append, Text.cut_cons, hread, hdrop]
    obtain ⟨found, stop, hfound, rfl⟩ :=
      ih (position + byteLength (first :: (more ++ rest).take count))
    exact ⟨_, stop, by rw [Lexing.collect, hfound], rfl⟩

/-- A text in which no fault is found splits into the lexemes found. -/
theorem splits_of_collect {text : List Char} {position stop : Nat} {found : List Located}
    (h : collect position (Text.cut readPiece text) = (found, .ok stop)) :
    Splits text (found.map Located.lexeme) := by
  induction hn : text.length using Nat.strongRecOn generalizing text position found with
  | _ n ih =>
    cases text with
    | nil =>
      obtain ⟨rfl, -⟩ := Prod.mk.inj h
      exact .nil
    | cons first rest =>
      have hlt : (rest.drop (readPiece first rest).2).length < n := by
        rw [← hn, List.length_drop, List.length_cons]
        omega
      have hlongest : ∀ stretch, Stretch.piece? stretch = some (readPiece first rest).1 →
          IsLongest ((first :: rest.take (readPiece first rest).2) ++
              rest.drop (readPiece first rest).2)
            (first :: rest.take (readPiece first rest).2) stretch := by
        intro stretch hpiece
        rw [List.cons_append, List.take_append_drop]
        exact isLongest_readPiece hpiece
      have htext : first :: rest = (first :: rest.take (readPiece first rest).2) ++
          rest.drop (readPiece first rest).2 := by
        rw [List.cons_append, List.take_append_drop]
      rw [Text.cut_cons] at h
      rw [htext]
      cases hpiece : (readPiece first rest).1 with
      | blank =>
        rw [hpiece, collect] at h
        exact .blank (hlongest _ (by rw [hpiece]; rfl)) (ih _ hlt h rfl)
      | lexeme lexeme =>
        rw [hpiece, collect] at h
        obtain ⟨rfl, hending⟩ := Prod.mk.inj h
        exact .lexeme (hlongest _ (by rw [hpiece]; rfl)) (ih _ hlt (Prod.ext rfl hending) rfl)
      | fault fault offset =>
        rw [hpiece, collect] at h
        exact absurd (Prod.mk.inj h).2 (by simp)

/-- A text splits into lexemes if and only if no fault is found in it, and then into the lexemes
found. -/
theorem splits_iff {text : String} {lexemes : List Lexeme} :
    Splits text.toList lexemes ↔
      ∃ found stop, lex text = (found, .ok stop) ∧ found.map Located.lexeme = lexemes := by
  constructor
  · exact fun h => h.collect 0
  · rintro ⟨found, stop, hlex, rfl⟩
    exact splits_of_collect hlex

end PagedSearch.Lexing
