import PagedSearch.Proofs.Decimals
import PagedSearch.Proofs.Runs
import PagedSearch.Proofs.Templates

/-!
# Numbers in templates

A number is put in a template as its JSON text.  A whole number, and a double that is neither large
nor small, is read back from it: its text is one lexeme, and stands for the same double.  All other
doubles are written with an exponent.  Filters have no exponents, so the text is cut in two in front
of it.

## Main definitions

* `JsonNumber.IsFinite`, `Json.IsFinite` — the numbers of JSON documents.
* `JsonNumber.IsPlain`, `Json.IsPlain` — the numbers that are written without an exponent.
* `Binding.SameNames` — values in the same places.

## Main results

* `JsonNumber.spells_text` — a plain number is written as filters write it.
* `JsonNumber.lex_text_iff` — exactly the plain numbers are read back from their text.
* `bindTemplate_numbers` — what is read of a template with numbers.
-/

namespace PagedSearch

open Lexing

/-! ### How numbers are written -/

/-- The numbers that JSON documents can contain. -/
def JsonNumber.IsFinite : JsonNumber → Prop
  | .integer _ => True
  | .double (.finite _ significand exponent) => Double.IsCanonical significand exponent
  | .double _ => False

instance {significand : Nat} {exponent : Int} :
    Decidable (Double.IsCanonical significand exponent) :=
  decidable_of_iff
    (significand < 2 ^ 53 ∧ -1074 ≤ exponent ∧ exponent ≤ 971 ∧
      (2 ^ 52 ≤ significand ∨ exponent = -1074))
    ⟨fun ⟨hlt, hge, hle, hnormal⟩ => ⟨hlt, hge, hle, hnormal⟩,
      fun ⟨hlt, hge, hle, hnormal⟩ => ⟨hlt, hge, hle, hnormal⟩⟩

instance : DecidablePred JsonNumber.IsFinite
  | .integer _ => .isTrue trivial
  | .double (.finite _ significand exponent) =>
    inferInstanceAs (Decidable (Double.IsCanonical significand exponent))
  | .double (.infinite _) => .isFalse id
  | .double .nan => .isFalse id

/-- Whole numbers, zeros, and the doubles that are neither large nor small. -/
def JsonNumber.IsPlain : JsonNumber → Prop
  | .integer _ => True
  | .double (.finite _ significand exponent) =>
    significand = 0 ∨
      (10 : ℚ) ^ (-5 : Int) ≤ significand * 2 ^ exponent ∧
        (significand * 2 ^ exponent : ℚ) < 10 ^ (16 : Int)
  | .double _ => False

/-- A number ends where no digit and no decimal point follows. -/
theorem readPiece_of_spells_number {value : Double} {word : List Char}
    (h : Spells (.lexeme (.number value)) word) {first : Char} {more : List Char}
    (hword : word = first :: more) {tail : List Char}
    (htail : ∀ c ∈ tail.head?, c.isDigit = false ∧ c ≠ '.') :
    readPiece first (more ++ tail) = (.lexeme (.number value), more.length) := by
  cases h with
  | integer negative hne hwhole => exact readPiece_integer hne hwhole hword htail
  | @decimal negative whole fraction hne hwhole hneFraction hfraction =>
    obtain ⟨c, init, hinit⟩ :=
      List.exists_cons_of_ne_nil (List.append_ne_nil_of_right_ne_nil (signText negative) hne)
    rw [hinit] at hword
    obtain ⟨rfl, rfl⟩ := List.cons.inj hword
    exact readPiece_decimal hne hwhole hneFraction hfraction hinit fun c hc => (htail c hc).1

/-- A whole number is written as it is read. -/
theorem spells_integer (value : Int) :
    Spells (.lexeme (.number (JsonNumber.integer value).toDouble))
      (JsonNumber.integer value).text.toList := by
  have hvalue : Double.ofDecimal (value < 0) (digitsValue (decimalDigits value.natAbs)) 0 =
      (JsonNumber.integer value).toDouble := by
    rw [digitsValue_decimalDigits, JsonNumber.toDouble, Double.ofDecimal]
    split_ifs with hzero
    · rw [hzero]
      rfl
    · exact congrArg (Double.ofRatio _ · 1) (Nat.mul_one _)
  have htext : (JsonNumber.integer value).text.toList =
      signText (value < 0) ++ decimalDigits value.natAbs := by
    cases value with
    | ofNat n => exact String.toList_ofList
    | negSucc n =>
      refine (String.toList_append ..).trans ?_
      rw [Nat.repr, String.toList_ofList, String.toList_ofList,
        decide_eq_true (Int.negSucc_lt_zero n)]
      rfl
  have hdigits : (decimalDigits value.natAbs).all Char.isDigit = true :=
    List.all_eq_true.mpr fun c hc => Nat.isDigit_of_mem_toDigits (by decide) (by decide) hc
  rw [← hvalue, htext]
  exact .integer _ Nat.toDigits_ne_nil hdigits

/-- With an exponent, digits stand in front of an `e`. -/
theorem Decimal.exists_exponent {d : Decimal} (hne : d.digits ≠ [])
    (hdigits : d.digits.all Char.isDigit = true) (negative : Bool) :
    ∃ word value rest, signText negative ++ d.scientific = word ++ 'e' :: rest ∧
      Spells (.lexeme (.number value)) word := by
  obtain ⟨first, fraction, heq⟩ := List.exists_cons_of_ne_nil hne
  rw [heq, List.all_cons, Bool.and_eq_true] at hdigits
  have hfirst : [first].all Char.isDigit = true := by simpa using hdigits.1
  obtain ⟨behind, hbehind⟩ : ∃ behind, d.scientific =
      [first] ++ (if fraction.isEmpty then [] else '.' :: fraction) ++ 'e' :: behind := by
    rw [scientific, heq]
    exact ⟨_, List.append_assoc ..⟩
  rw [hbehind]
  cases fraction with
  | nil =>
    exact ⟨signText negative ++ [first], _, behind, by simp, .integer negative (by simp) hfirst⟩
  | cons c fraction =>
    exact ⟨signText negative ++ [first] ++ '.' :: c :: fraction, _, behind, by simp,
      .decimal negative (by simp) hfirst (by simp) hdigits.2⟩

section Double

variable {significand : Nat} {exponent : Int}

/-- The digits of a double in front of the decimal point and behind it are read as the double. -/
theorem Decimal.LaidOut.ofDecimal_eq (hcanonical : Double.IsCanonical significand exponent)
    (hpos : 0 < significand) {d : Decimal} (hrounds : Double.Rounds significand exponent d.value)
    {text whole fraction : List Char} (h : d.LaidOut text whole fraction) (negative : Bool) :
    Double.ofDecimal negative (digitsValue (whole ++ fraction)) (-fraction.length) =
      .finite negative significand exponent := by
  rw [← h.value_eq] at hrounds
  refine Double.ofDecimal_of_rounds hcanonical (Nat.pos_of_ne_zero fun hzero => ?_) hrounds negative
  have hvalue := hrounds.pos hpos
  rw [hzero, Nat.cast_zero, zero_mul] at hvalue
  exact lt_irrefl _ hvalue

/-- The text of a double has its sign and the shortest digits. -/
theorem text_double (negative : Bool) :
    (JsonNumber.double (.finite negative significand exponent)).text.toList =
      signText negative ++
        if significand = 0 then ['0', '.', '0']
        else
          let decimal := Double.shortest .even significand exponent
          if JsonNumber.doubleFormat.positional (decimal.point - 1) then
            decimal.positional ['.', '0']
          else decimal.scientific :=
  String.toList_ofList

/-- Digits are written without an exponent exactly if the double is neither large nor small. -/
theorem positional_iff (hcanonical : Double.IsCanonical significand exponent)
    (hpos : 0 < significand) (negative : Bool) :
    JsonNumber.doubleFormat.positional ((Double.shortest .even significand exponent).point - 1) =
        true ↔ (JsonNumber.double (.finite negative significand exponent)).IsPlain := by
  have hpoint := Double.point_shortest_iff hcanonical hpos .even
  rw [JsonNumber.IsPlain, ← hpoint]
  simp [JsonNumber.doubleFormat, hpos.ne']

/-- A double that is neither large nor small is written as it is read. -/
theorem spells_double (hcanonical : Double.IsCanonical significand exponent) {negative : Bool}
    (h : (JsonNumber.double (.finite negative significand exponent)).IsPlain) :
    Spells (.lexeme (.number (.finite negative significand exponent)))
      (JsonNumber.double (.finite negative significand exponent)).text.toList := by
  rw [text_double]
  rcases Nat.eq_zero_or_pos significand with rfl | hpos
  · -- A zero has the smallest exponent.
    obtain rfl : exponent = -1074 := hcanonical.normal.resolve_left (by norm_num)
    have hdigit : ['0'].all Char.isDigit = true := by decide
    have hspells :=
      Spells.decimal negative (List.cons_ne_nil _ _) hdigit (List.cons_ne_nil _ _) hdigit
    rw [List.append_assoc] at hspells
    exact hspells
  · obtain ⟨whole, fraction, hlaid⟩ := Decimal.exists_laidOut
      (Double.shortest_ne_nil hcanonical hpos .even)
      (Double.all_isDigit_shortest hcanonical hpos .even)
    have hspells := Spells.decimal negative hlaid.whole_ne_nil hlaid.isDigit_whole
      hlaid.fraction_ne_nil hlaid.isDigit_fraction
    have hrounds := Double.shortest_rounds hcanonical hpos .even
    rw [hlaid.ofDecimal_eq hcanonical hpos hrounds, List.append_assoc, ← hlaid.text_eq] at hspells
    dsimp only
    rwa [if_neg hpos.ne', if_pos ((positional_iff hcanonical hpos negative).mpr h)]

/-- A large or a small double is written with an exponent. -/
theorem exists_exponent_double (hcanonical : Double.IsCanonical significand exponent)
    {negative : Bool}
    (h : ¬(JsonNumber.double (.finite negative significand exponent)).IsPlain) :
    ∃ word value rest,
      (JsonNumber.double (.finite negative significand exponent)).text.toList =
        word ++ 'e' :: rest ∧ Spells (.lexeme (.number value)) word := by
  have hpos : 0 < significand := Nat.pos_of_ne_zero fun hzero => h (.inl hzero)
  rw [text_double, if_neg hpos.ne']
  dsimp only
  rw [if_neg (mt (positional_iff hcanonical hpos negative).mp h)]
  exact Decimal.exists_exponent (Double.shortest_ne_nil hcanonical hpos .even)
    (Double.all_isDigit_shortest hcanonical hpos .even) negative

end Double

section Text

variable {n : JsonNumber}

/-- A plain number is written as it is read. -/
theorem JsonNumber.spells_text (hfinite : n.IsFinite) (h : n.IsPlain) :
    Spells (.lexeme (.number n.toDouble)) n.text.toList := by
  cases n with
  | integer value => exact spells_integer value
  | double value =>
    cases value with
    | finite negative significand exponent => exact spells_double hfinite h
    | _ => cases hfinite

/-- Any other number is written with an exponent. -/
theorem JsonNumber.exists_exponent (hfinite : n.IsFinite) (h : ¬n.IsPlain) :
    ∃ word value rest, n.text.toList = word ++ 'e' :: rest ∧
      Spells (.lexeme (.number value)) word := by
  cases n with
  | integer value => exact absurd trivial h
  | double value =>
    cases value with
    | finite negative significand exponent => exact exists_exponent_double hfinite h
    | _ => cases hfinite

end Text

/-! ### How numbers are read -/

section Reading

variable {n : JsonNumber}

/-- A number starts with a sign or a digit. -/
theorem startsLiteral_of_spells_number {value : Double} {word : List Char}
    (h : Spells (.lexeme (.number value)) word) : ∀ c ∈ word.head?, startsLiteral c = true := by
  have hstart {negative : Bool} {whole : List Char} (hne : whole ≠ [])
      (hwhole : whole.all Char.isDigit = true) (tail : List Char) :
      ∀ c ∈ (signText negative ++ whole ++ tail).head?, startsLiteral c = true := by
    obtain ⟨d, ds, rfl⟩ := List.exists_cons_of_ne_nil hne
    rw [List.all_cons, Bool.and_eq_true] at hwhole
    intro c hc
    cases negative with
    | true =>
      obtain rfl := Option.some.inj hc
      decide
    | false =>
      obtain rfl := Option.some.inj hc
      obtain ⟨-, hcomparator, -, hmark⟩ := not_special_of_isDigit hwhole.1
      simp only [List.mem_cons, List.not_mem_nil, or_false, not_or] at hmark
      simp [startsLiteral, hcomparator, hmark]
  cases h with
  | integer negative hne hwhole => simpa using hstart hne hwhole []
  | decimal negative hne hwhole => exact hstart hne hwhole _

/-- A plain number is read as one lexeme, wherever an operand can stand. -/
theorem JsonNumber.isLegible (hfinite : n.IsFinite) (h : n.IsPlain) :
    (Json.number n).IsLegible := by
  have hspells := spells_text hfinite h
  obtain ⟨first, rest, htext⟩ := List.exists_cons_of_ne_nil hspells.ne_nil
  have hfirst := startsLiteral_of_spells_number hspells first (by rw [htext]; rfl)
  refine ⟨first, rest, htext, hfirst, fun tail htail => ?_⟩
  exact readPiece_of_spells_number hspells htext fun c hc =>
    not_isDigit_beside ((htail c hc).imp_right .inr)

/-- Behind a number, an exponent is read as a name. -/
theorem two_le_length_of_exponent {value : Double} {word : List Char}
    (h : Spells (.lexeme (.number value)) word) (rest : List Char) (position : Nat) :
    2 ≤ (collect position (Text.cut readPiece (word ++ 'e' :: rest))).1.length := by
  obtain ⟨first, more, hword⟩ := List.exists_cons_of_ne_nil h.ne_nil
  have htail : ∀ c ∈ ('e' :: rest).head?, c.isDigit = false ∧ c ≠ '.' := by
    intro c hc
    obtain rfl := Option.some.inj hc
    decide
  have hread := readPiece_of_spells_number h hword htail
  have hstart : isIdentifierStart 'e' = true := by decide
  obtain ⟨name, hname⟩ : ∃ lexeme, (readPiece 'e' rest).1 = .lexeme lexeme := by
    have hpiece := readPiece_name hstart (List.all_nil ..) rest
    rw [List.nil_append] at hpiece
    rw [hpiece]
    dsimp only
    split_ifs <;> exact ⟨_, rfl⟩
  rw [hword, List.cons_append, Text.cut_cons, hread, List.drop_left' rfl, Text.cut_cons, hname]
  simp only [collect, List.length_cons]
  omega

/-- Exactly the plain numbers are read back from their text. -/
theorem JsonNumber.lex_text_iff (hfinite : n.IsFinite) :
    ((lex n.text).1.map Located.lexeme = [.number n.toDouble] ∧ fault? (lex n.text).2 = none) ↔
      n.IsPlain := by
  constructor
  · rintro ⟨hone, -⟩
    by_contra h
    obtain ⟨word, value, rest, htext, hspells⟩ := exists_exponent hfinite h
    have htwo := two_le_length_of_exponent hspells rest 0
    have hlength := congrArg List.length hone
    rw [List.length_map, lex, htext, List.length_singleton] at hlength
    omega
  · intro h
    have hspells := spells_text hfinite h
    obtain ⟨first, rest, htext⟩ := List.exists_cons_of_ne_nil hspells.ne_nil
    have hnone : ∀ c ∈ ([] : List Char).head?, c.isDigit = false ∧ c ≠ '.' := nofun
    have hread := readPiece_of_spells_number hspells htext hnone
    rw [List.append_nil] at hread
    rw [lex, htext, Text.cut_cons, hread, List.drop_length]
    exact ⟨rfl, rfl⟩

end Reading

/-! ### Templates -/

/-- A value that is finite if it is a number. -/
def Json.IsFinite : Json → Prop
  | .number n => n.IsFinite
  | _ => True

instance : DecidablePred Json.IsFinite
  | .number n => inferInstanceAs (Decidable n.IsFinite)
  | .null | .bool _ | .string _ | .array _ | .members _ => .isTrue trivial

/-- A value that is plain if it is a number. -/
def Json.IsPlain : Json → Prop
  | .number n => n.IsPlain
  | _ => True

theorem Json.isLegible_of_isPlain {value : Json} (hfinite : value.IsFinite) (h : value.IsPlain) :
    value.IsLegible := by
  cases value with
  | number n => exact n.isLegible hfinite h
  | _ => exact isLegible_of_not_isNumber rfl

section Templates

open Binding

variable {values others : List (String × Json)} {template : String}

/-- There are values for the same names. -/
def Binding.SameNames (values others : List (String × Json)) : Prop :=
  ∀ name, (value? others name).isSome = (value? values name).isSome

theorem Binding.SameNames.readTemplate_eq (h : SameNames values others) :
    readTemplate others = readTemplate values := by
  funext first rest
  simp only [readTemplate, h _]

theorem Binding.SameNames.standsAlone {text : List Char} (h : SameNames values others)
    (halone : StandsAlone values text) : StandsAlone others text := by
  rintro before after ⟨name, hbound, heq⟩
  have hbound' : IsBound values name :=
    ⟨hbound.ne_nil, hbound.isNamePart, h name ▸ hbound.isSome_value?⟩
  obtain ⟨hopened, hclosed, houtside⟩ := halone before after ⟨name, hbound', heq⟩
  exact ⟨hopened, hclosed, by rwa [h.readTemplate_eq]⟩

/-- A filter has a tree if the template has one. -/
theorem exists_parse_iff (halone : StandsAlone values template.toList)
    (hlegible : ∀ pair ∈ values, pair.2.IsLegible) :
    (∃ groups, parse (bindTemplate template values) = .ok groups) ↔
      ∃ tree, parseTemplate values template = .ok tree := by
  obtain ⟨-, -, hparse⟩ := bindTemplate_filled halone hlegible
  simp only [hparse]
  exact ⟨fun ⟨_, tree, htree, _⟩ => ⟨tree, htree⟩, fun ⟨tree, htree⟩ => ⟨_, tree, htree, rfl⟩⟩

end Templates

/-- A template with finite numbers among its values, each of whose places stands alone.  Whole
numbers, zeros, and doubles from `10 ^ -5` to less than `10 ^ 16` are read back from their text, as
one lexeme for the double that the number is; other doubles are not.  If there are no others, the
lexemes of the filter are those of the template with exactly that one lexeme in each place of a
number; the filter has the fault of the template, if there is one, and the tree of the template with
the numbers in it, and no other; and it has a tree exactly if there is one with any other such
values in these places. -/
theorem bindTemplate_numbers {template : String} {values : List (String × Json)}
    (halone : Binding.StandsAlone values template.toList)
    (hfinite : ∀ pair ∈ values, pair.2.IsFinite) :
    (∀ name n, (name, Json.number n) ∈ values →
      ((lex n.text).1.map Located.lexeme = [.number n.toDouble] ∧ fault? (lex n.text).2 = none ↔
        n.IsPlain)) ∧
    ((∀ pair ∈ values, pair.2.IsPlain) →
      (lex (bindTemplate template values)).1.map Located.lexeme =
          ((lexTemplate values template).1.map Located.lexeme).map
            (Lexeme.filled (Binding.atom? values)) ∧
        fault? (lex (bindTemplate template values)).2 = fault? (lexTemplate values template).2 ∧
        (∀ groups, parse (bindTemplate template values) = .ok groups ↔
          ∃ tree, parseTemplate values template = .ok tree ∧
            groups = Group.allFilled (Binding.atom? values) tree) ∧
        ∀ others, Binding.SameNames values others →
          (∀ pair ∈ others, pair.2.IsFinite ∧ pair.2.IsPlain) →
            ((∃ groups, parse (bindTemplate template others) = .ok groups) ↔
              ∃ groups, parse (bindTemplate template values) = .ok groups)) := by
  refine ⟨fun name n hmem => n.lex_text_iff (hfinite _ hmem), fun hplain => ?_⟩
  have hlegible : ∀ pair ∈ values, pair.2.IsLegible := fun pair hpair =>
    Json.isLegible_of_isPlain (hfinite pair hpair) (hplain pair hpair)
  obtain ⟨hlexemes, hfault, hparse⟩ := bindTemplate_filled halone hlegible
  refine ⟨hlexemes, hfault, hparse, fun others hnames hothers => ?_⟩
  have hlegible' : ∀ pair ∈ others, pair.2.IsLegible := fun pair hpair =>
    Json.isLegible_of_isPlain (hothers pair hpair).1 (hothers pair hpair).2
  rw [exists_parse_iff (hnames.standsAlone halone) hlegible', exists_parse_iff halone hlegible,
    parseTemplate, lexTemplate, hnames.readTemplate_eq]
  rfl

/-- A fraction, a whole number and a negative zero. -/
def priceValues : List (String × Json) :=
  [("low", .number (.double (.finite false 7205759403792794 (-56)))),
    ("count", .number (.integer (-12))), ("none", .number (.double (.zero true)))]

/-- A template with places next to operators and parentheses. -/
def priceTemplate : String :=
  "price>=\x7b:low\x7d&&(f(\x7b:low\x7d,\x7b:none\x7d)=1||\x7b:count\x7d < stock)"

theorem priceTemplate_numbers :
    Binding.StandsAlone priceValues priceTemplate.toList ∧
      (∀ pair ∈ priceValues, pair.2.IsFinite) ∧ (∀ pair ∈ priceValues, pair.2.IsPlain) ∧
      (lex (bindTemplate priceTemplate priceValues)).1.map Located.lexeme =
        [.identifier "price", .comparator .greaterEqual,
          .number (.finite false 7205759403792794 (-56)), .join .and, .openParen, .callStart "f",
          .number (.finite false 7205759403792794 (-56)), .comma, .number (.zero true), .closeParen,
          .comparator .equal, .number (.finite false (2 ^ 52) (-52)), .join .or,
          .number (.finite true (3 * 2 ^ 51) (-49)), .comparator .less, .identifier "stock",
          .closeParen] ∧
      ∃ groups, parse (bindTemplate priceTemplate priceValues) = .ok groups := by
  have halone : Binding.StandsAlone priceValues priceTemplate.toList := by decide +kernel
  have hfinite : ∀ pair ∈ priceValues, pair.2.IsFinite := by decide +kernel
  have hplain : ∀ pair ∈ priceValues, pair.2.IsPlain := by
    simp only [priceValues, List.forall_mem_cons]
    refine ⟨.inr ⟨by norm_num, by norm_num⟩, trivial, .inl rfl, nofun⟩
  obtain ⟨hlexemes, -, hparse, -⟩ := (bindTemplate_numbers halone hfinite).2 hplain
  refine ⟨halone, hfinite, hplain, hlexemes.trans (by decide +kernel), ?_⟩
  have hok : (parseTemplate priceValues priceTemplate).isOk = true := by decide +kernel
  obtain ⟨tree, htree⟩ := Search.exists_ok_of_isOk hok
  exact ⟨_, (hparse _).mpr ⟨tree, htree, rfl⟩⟩

/-- The double `10 ^ 16`. -/
def largeValues : List (String × Json) :=
  [("n", .number (.double (.finite false (5 * 10 ^ 15) 1)))]

/-- The number `10 ^ 16` is finite, but its text is read as two lexemes and a fault, and the filter
has no tree, although it has one with the number 1. -/
theorem largeValue_cut :
    Binding.StandsAlone largeValues "a = \x7b:n\x7d".toList ∧
      (∀ pair ∈ largeValues, pair.2.IsFinite) ∧
      bindTemplate "a = \x7b:n\x7d" largeValues = "a = 1e+16" ∧
      (lex (bindTemplate "a = \x7b:n\x7d" largeValues)).1.map Located.lexeme =
        [.identifier "a", .comparator .equal, .number (.finite false (2 ^ 52) (-52)),
          .identifier "e"] ∧
      fault? (lex (bindTemplate "a = \x7b:n\x7d" largeValues)).2 = some (.unexpectedCharacter '+') ∧
      (¬∃ groups, parse (bindTemplate "a = \x7b:n\x7d" largeValues) = .ok groups) ∧
      ∃ groups, parse (bindTemplate "a = \x7b:n\x7d" [("n", .number (.integer 1))]) =
        .ok groups := by
  refine ⟨by decide +kernel, by decide +kernel, by decide +kernel, by decide +kernel,
    by decide +kernel, ?_, Search.exists_ok_of_isOk (by decide +kernel)⟩
  rintro ⟨groups, hparse⟩
  have hok : (parse (bindTemplate "a = \x7b:n\x7d" largeValues)).isOk = false := by decide +kernel
  rw [hparse] at hok
  cases hok

end PagedSearch
