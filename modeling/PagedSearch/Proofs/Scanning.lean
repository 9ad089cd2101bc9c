import PagedSearch.Proofs.Lexemes

/-!
# Where scanning stops

A text is scanned from its start to its end, or to the first place where neither a blank nor a
lexeme is read.  What has been scanned up to some place does not depend on how the text goes on
after it, but for its next character: `Scans` says what lexemes are in front of a text that is
still to be scanned.

A stretch is read where it is the longest, with one exception: a whole number in front of a decimal
point is read only with the digits behind the point.

## Main definitions

* `IsRead` — a blank or a lexeme at the start of a text.
* `Scans` — the lexemes in front of a text.
* `Collects` — a text up to its end or to the first fault, with the places of its lexemes.

## Main results

* `isRead_readPiece`, `not_isRead_of_fault` — `readPiece` finds what is read, and a fault only where
  nothing is.
* `exists_taken_of_fault` — the place of a fault lies between two characters.
* `collects` — what `collect` returns.
-/

namespace PagedSearch.Lexing

/-! ### Blanks and lexemes -/

/-- In front of `rest`, the word of a blank or of a lexeme is read: it is as long as any stretch
there, and no whole number that awaits a fraction. -/
structure IsRead (word rest : List Char) (stretch : Stretch) : Prop where
  /-- No stretch is longer. -/
  isLongest : IsLongest (word ++ rest) word stretch
  /-- It is a blank or a lexeme. -/
  isPiece : stretch.piece?.isSome = true
  /-- No fraction is missing behind it. -/
  isComplete : ¬ AwaitsFraction stretch word rest

/-- A number is read together with the point and the digits behind it. -/
theorem not_awaitsFraction_readPiece {first : Char} {rest : List Char} {stretch : Stretch}
    (hpiece : stretch.piece? = some (readPiece first rest).1) :
    ¬ AwaitsFraction stretch (first :: rest.take (readPiece first rest).2)
      (rest.drop (readPiece first rest).2) := by
  rintro ⟨⟨value, rfl⟩, hdot, htail⟩
  have hspells := fits_readPiece first rest _ hpiece
  obtain ⟨tail, htail⟩ := List.head?_eq_some_iff.mp htail
  have hpiece : (readPiece first rest).1 = .lexeme (.number value) :=
    (Option.some.inj hpiece).symm
  generalize hcount : (readPiece first rest).2 = count at hspells hdot htail
  -- The number is `first :: more`, and a point is behind it.
  obtain ⟨more, hmore⟩ : ∃ more, rest.take count = more := ⟨_, rfl⟩
  have hrest : rest = more ++ '.' :: tail := by
    rw [← hmore, ← htail, List.take_append_drop]
  have hlength : count = more.length := by
    have hlt : 0 < (rest.drop count).length := by
      rw [htail]
      exact Nat.succ_pos _
    rw [List.length_drop] at hlt
    rw [← hmore, List.length_take]
    omega
  rw [hmore] at hspells hdot
  generalize hword : first :: more = word at hspells
  cases hspells with
  | decimal negative _ _ _ _ =>
    refine hdot ?_
    rw [hword]
    simp
  | @integer negative whole hne hall =>
    have hread := readPiece_number hword.symm hne hall ('.' :: tail)
    have hpoint : Char.isDigit '.' = false := by decide
    have htake : ('.' :: tail).takeWhile Char.isDigit = [] := by simp [hpoint]
    have hdrop : ('.' :: tail).dropWhile Char.isDigit = '.' :: tail := by simp [hpoint]
    rw [← hrest, readNumber_digits negative hall, htake, hdrop] at hread
    by_cases hfraction : (tail.takeWhile Char.isDigit).isEmpty = true
    · simp only [if_pos hfraction] at hread
      rw [hread] at hpiece
      cases hpiece
    · -- With the digits behind the point, the number is longer than it is.
      have hpos : 0 < (tail.takeWhile Char.isDigit).length :=
        List.length_pos_iff.mpr (by simpa using hfraction)
      have hlength' := congrArg List.length hword
      simp only [if_neg hfraction] at hread
      rw [hread] at hcount
      simp only [List.length_cons, List.length_append, List.length_nil] at hlength' hcount
      omega

/-- What `readPiece` finds is read there, unless it is a fault. -/
theorem isRead_readPiece {first : Char} {rest : List Char} {stretch : Stretch}
    (hpiece : stretch.piece? = some (readPiece first rest).1) :
    IsRead (first :: rest.take (readPiece first rest).2) (rest.drop (readPiece first rest).2)
      stretch where
  isLongest := by
    rw [List.cons_append, List.take_append_drop]
    exact isLongest_readPiece hpiece
  isPiece := by rw [hpiece]; rfl
  isComplete := not_awaitsFraction_readPiece hpiece

/-- Where `readPiece` finds a fault, neither a blank nor a lexeme is read. -/
theorem not_isRead_of_fault {first : Char} {rest : List Char} {fault : ParseFault} {offset : Nat}
    (hfault : (readPiece first rest).1 = .fault fault offset) {word more : List Char}
    {stretch : Stretch} (htext : first :: rest = word ++ more) : ¬ IsRead word more stretch := by
  intro h
  obtain ⟨piece, hpiece⟩ := Option.isSome_iff_exists.mp h.isPiece
  obtain ⟨first', more', count, rfl, hread, -⟩ := h.isLongest.readPiece hpiece h.isComplete
  rw [List.cons_append] at htext
  obtain ⟨rfl, rfl⟩ := List.cons.inj htext
  rw [hread] at hfault
  obtain rfl : piece = .fault fault offset := hfault
  cases stretch <;> simp [Stretch.piece?] at hpiece

/-! ### Faults -/

/-- The fault is one of scanning. -/
def IsLexical : ParseFault → Prop
  | .unexpected _ _ => False
  | .emptyGroup => False
  | _ => True

/-- `taken` is what a fault takes of the text in front of its place: nothing, or a whole number and
a point with no digit behind it. -/
def FaultTakes (fault : ParseFault) (taken rest : List Char) : Prop :=
  taken = [] ∧ fault ≠ .missingFraction ∨
    fault = .missingFraction ∧ (∀ c ∈ rest.head?, c.isDigit = false) ∧
      ∃ value word, Spells (.lexeme (.number value)) word ∧ '.' ∉ word ∧ taken = word ++ ['.']

theorem byteLength_append (text more : List Char) :
    byteLength (text ++ more) = byteLength text + byteLength more := by
  induction text with
  | nil => simp [byteLength]
  | cons c rest ih =>
    simp only [byteLength, List.cons_append, List.map_cons, List.foldr_cons] at ih ⊢
    omega

/-- A character of ASCII is one byte. -/
theorem byteLength_eq_length {text : List Char} (h : ∀ c ∈ text, c.utf8Size = 1) :
    byteLength text = text.length := by
  induction text with
  | nil => rfl
  | cons c rest ih =>
    obtain ⟨hc, hrest⟩ := List.forall_mem_cons.mp h
    rw [← List.singleton_append, byteLength_append, ih hrest]
    simp [byteLength, hc]
    omega

theorem utf8Size_of_isDigit {c : Char} (h : c.isDigit = true) : c.utf8Size = 1 := by
  have hmem := mem_digits h
  simp only [digits, List.mem_cons, List.not_mem_nil, or_false] at hmem
  rcases hmem with rfl | rfl | rfl | rfl | rfl | rfl | rfl | rfl | rfl | rfl <;> rfl

/-- A number is at fault only behind a point without digits. -/
theorem readNumber_fault (negative : Bool) {text : List Char} {fault : ParseFault} {offset : Nat}
    (hdigit : text.head?.any Char.isDigit = true)
    (h : (readNumber negative text).1 = .fault fault offset) :
    IsLexical fault ∧ ∃ taken rest, signText negative ++ text = taken ++ rest ∧
      offset = byteLength taken ∧ FaultTakes fault taken rest := by
  have hne := takeWhile_ne_nil hdigit
  have hall : (text.takeWhile Char.isDigit).all Char.isDigit = true := by simp
  have hsplit := List.takeWhile_append_dropWhile (p := Char.isDigit) (l := text)
  simp only [readNumber, drop_length_takeWhile] at h
  generalize text.takeWhile Char.isDigit = whole at hne hall hsplit h
  split at h
  · rename_i rest hdrop
    split at h
    · rename_i hempty
      obtain ⟨rfl, rfl⟩ : ParseFault.missingFraction = fault ∧ _ = offset := by simpa using h
      have hword : ∀ c ∈ signText negative ++ whole ++ ['.'], c.utf8Size = 1 := by
        intro c hc
        rcases List.mem_append.mp hc with hc | hc
        · rcases List.mem_append.mp hc with hc | hc
          · obtain rfl : c = '-' := by cases negative <;> simp_all [signText]
            rfl
          · exact utf8Size_of_isDigit (List.all_eq_true.mp hall c hc)
        · obtain rfl := List.mem_singleton.mp hc
          rfl
      refine ⟨trivial, signText negative ++ whole ++ ['.'], rest, ?_, ?_, ?_⟩
      · rw [← hsplit, hdrop]
        simp
      · rw [byteLength_eq_length hword]
        cases negative <;> simp [signText]
      · refine .inr ⟨rfl, takeWhile_eq_nil_iff.mp (List.isEmpty_iff.mp hempty), _, _,
          .integer negative hne hall, ?_, rfl⟩
        rw [List.mem_append, not_or]
        refine ⟨by cases negative <;> decide, fun hmem => ?_⟩
        exact absurd (List.all_eq_true.mp hall '.' hmem) (by decide)
    · cases h
  · cases h

/-- The place of a fault lies between two characters, and only a missing fraction is not noted where
the number starts. -/
theorem exists_taken_of_fault {first : Char} {rest : List Char} {fault : ParseFault} {offset : Nat}
    (h : (readPiece first rest).1 = .fault fault offset) :
    IsLexical fault ∧ ∃ taken after, first :: rest = taken ++ after ∧
      offset = byteLength taken ∧ FaultTakes fault taken after := by
  -- All faults but those in numbers are noted at the first character.
  have hstart {fault : ParseFault} (hlexical : IsLexical fault)
      (hnumber : fault ≠ .missingFraction) :
      IsLexical fault ∧ ∃ taken after, first :: rest = taken ++ after ∧
        0 = byteLength taken ∧ FaultTakes fault taken after :=
    ⟨hlexical, [], first :: rest, rfl, rfl, .inl ⟨rfl, hnumber⟩⟩
  revert h
  fun_cases readPiece first rest with
  | case7 | case9 | case11 | case16 =>
    intro h
    obtain ⟨rfl, rfl⟩ : _ = fault ∧ 0 = offset := by simpa using h
    exact hstart trivial (by simp)
  | case12 =>
    intro h
    exact readNumber_fault false (by simpa) h
  | case13 _ _ _ _ _ _ _ _ _ hminus =>
    intro h
    obtain ⟨rfl, hdigit⟩ : first = '-' ∧ rest.head?.any Char.isDigit = true := by
      simpa using hminus
    exact readNumber_fault true hdigit h
  | _ => intro h; cases h

/-! ### Scanned texts -/

/-- `Scans before lexemes rest` says that, in front of `rest`, the text `before` is read as blanks
and the given lexemes. -/
inductive Scans : List Char → List Lexeme → List Char → Prop where
  /-- Nothing. -/
  | nil (rest : List Char) : Scans [] [] rest
  /-- A blank. -/
  | blank {word before rest : List Char} {lexemes : List Lexeme} :
    IsRead word (before ++ rest) .blank → Scans before lexemes rest →
      Scans (word ++ before) lexemes rest
  /-- A lexeme. -/
  | lexeme {word before rest : List Char} {lexeme : Lexeme} {lexemes : List Lexeme} :
    IsRead word (before ++ rest) (.lexeme lexeme) → Scans before lexemes rest →
      Scans (word ++ before) (lexeme :: lexemes) rest

theorem Scans.append {before between rest : List Char} {lexemes more : List Lexeme}
    (h : Scans before lexemes (between ++ rest)) (hmore : Scans between more rest) :
    Scans (before ++ between) (lexemes ++ more) rest := by
  generalize hall : between ++ rest = all at h
  induction h with
  | nil => exact hmore
  | blank hread _ ih =>
    subst hall
    rw [List.append_assoc]
    exact .blank (by rwa [List.append_assoc]) (ih rfl)
  | lexeme hread _ ih =>
    subst hall
    rw [List.append_assoc]
    exact .lexeme (by rwa [List.append_assoc]) (ih rfl)

/-- `Collects position text found ending` says that a text which starts at `position` is read as
blanks and the lexemes `found`, up to its end or to a fault. -/
inductive Collects : Nat → List Char → List Located → Except ParseError Nat → Prop where
  /-- The end of the text. -/
  | done (position : Nat) : Collects position [] [] (.ok position)
  /-- A blank. -/
  | blank {position : Nat} {word rest : List Char} {found : List Located}
    {ending : Except ParseError Nat} :
    IsRead word rest .blank → Collects (position + byteLength word) rest found ending →
      Collects position (word ++ rest) found ending
  /-- A lexeme. -/
  | lexeme {position : Nat} {word rest : List Char} {lexeme : Lexeme} {found : List Located}
    {ending : Except ParseError Nat} :
    IsRead word rest (.lexeme lexeme) → Collects (position + byteLength word) rest found ending →
      Collects position (word ++ rest) (⟨lexeme, position⟩ :: found) ending
  /-- A fault. -/
  | fault (position : Nat) {first : Char} {rest : List Char} {fault : ParseFault} {offset : Nat} :
    (readPiece first rest).1 = .fault fault offset →
      Collects position (first :: rest) [] (.error ⟨fault, position + offset⟩)

/-- What `collect` returns is what is read. -/
theorem collects (position : Nat) (text : List Char) :
    Collects position text (collect position (Text.cut readPiece text)).1
      (collect position (Text.cut readPiece text)).2 := by
  induction hn : text.length using Nat.strongRecOn generalizing text position with
  | _ n ih =>
    cases text with
    | nil => exact .done position
    | cons first rest =>
      have hlt : (rest.drop (readPiece first rest).2).length < n := by
        rw [← hn, List.length_drop, List.length_cons]
        omega
      have hmore (position : Nat) := ih _ hlt position (rest.drop (readPiece first rest).2) rfl
      have htext : first :: rest = (first :: rest.take (readPiece first rest).2) ++
          rest.drop (readPiece first rest).2 := by
        rw [List.cons_append, List.take_append_drop]
      rw [Text.cut_cons]
      cases hpiece : (readPiece first rest).1 with
      | blank =>
        have hread : IsRead _ _ .blank := isRead_readPiece (by rw [hpiece]; rfl)
        have h := Collects.blank hread (hmore (position + byteLength _))
        rwa [← htext] at h
      | lexeme lexeme =>
        have hread : IsRead _ _ (.lexeme lexeme) := isRead_readPiece (by rw [hpiece]; rfl)
        have h := Collects.lexeme hread (hmore (position + byteLength _))
        rwa [← htext] at h
      | fault fault offset => exact .fault position hpiece

namespace Collects

variable {position : Nat} {text : List Char} {found : List Located}

/-- The first lexeme that is found, with what is in front of it and behind it. -/
theorem first {lexeme : Located} {ending : Except ParseError Nat}
    (h : Collects position text (lexeme :: found) ending) :
    ∃ before word rest, text = before ++ (word ++ rest) ∧ Scans before [] (word ++ rest) ∧
      IsRead word rest (.lexeme lexeme.lexeme) ∧ lexeme.position = position + byteLength before ∧
      Collects (position + byteLength (before ++ word)) rest found ending := by
  generalize hall : lexeme :: found = all at h
  induction h with
  | done => cases hall
  | fault => cases hall
  | @lexeme position word rest _ _ _ hread hrest =>
    obtain ⟨rfl, rfl⟩ := List.cons.inj hall
    exact ⟨[], word, rest, rfl, .nil _, hread, rfl, hrest⟩
  | @blank position blank rest _ _ hread _ ih =>
    obtain ⟨before, word, rest, rfl, hscans, hword, hposition, hrest⟩ := ih hall
    refine ⟨blank ++ before, word, rest, (List.append_assoc ..).symm, .blank hread hscans, hword,
      ?_, ?_⟩
    · rw [hposition, byteLength_append, Nat.add_assoc]
    · rwa [List.append_assoc, byteLength_append, ← Nat.add_assoc]

/-- A lexeme that is found, with what is in front of it and behind it. -/
theorem at_append {before : List Located} {lexeme : Located} {ending : Except ParseError Nat}
    (h : Collects position text (before ++ lexeme :: found) ending) :
    ∃ start word rest, text = start ++ (word ++ rest) ∧
      Scans start (before.map Located.lexeme) (word ++ rest) ∧
      IsRead word rest (.lexeme lexeme.lexeme) ∧ lexeme.position = position + byteLength start ∧
      Collects (position + byteLength (start ++ word)) rest found ending := by
  induction before generalizing position text with
  | nil => exact h.first
  | cons other before ih =>
    obtain ⟨start, word, rest, rfl, hscans, hread, -, hrest⟩ := h.first
    obtain ⟨start', word', rest', rfl, hscans', hread', hposition, hrest'⟩ := ih hrest
    refine ⟨start ++ (word ++ start'), word', rest', by simp, ?_, hread', ?_, ?_⟩
    · exact Scans.append (by rwa [List.append_assoc]) (.lexeme hread hscans')
    · rw [hposition]
      simp only [byteLength_append]
      omega
    · rw [List.append_assoc, ← List.append_assoc start, ← List.append_assoc]
      rwa [List.append_assoc (start ++ word), byteLength_append (start ++ word), ← Nat.add_assoc]

/-- A text without a fault is scanned to its end. -/
theorem scans {stop : Nat} (h : Collects position text found (.ok stop)) :
    Scans text (found.map Located.lexeme) [] ∧ stop = position + byteLength text := by
  generalize hending : (Except.ok stop : Except ParseError Nat) = ending at h
  induction h with
  | done position =>
    obtain rfl := Except.ok.inj hending
    exact ⟨.nil _, rfl⟩
  | fault => cases hending
  | blank hread _ ih =>
    obtain ⟨hscans, rfl⟩ := ih hending
    exact ⟨.blank (by rwa [List.append_nil]) hscans, by rw [byteLength_append, Nat.add_assoc]⟩
  | lexeme hread _ ih =>
    obtain ⟨hscans, rfl⟩ := ih hending
    exact ⟨.lexeme (by rwa [List.append_nil]) hscans, by rw [byteLength_append, Nat.add_assoc]⟩

/-- A text with a fault is scanned up to the piece that is at fault. -/
theorem fault_at {e : ParseError} (h : Collects position text found (.error e)) :
    ∃ before first rest offset, text = before ++ first :: rest ∧
      Scans before (found.map Located.lexeme) (first :: rest) ∧
      (readPiece first rest).1 = .fault e.fault offset ∧
      e.position = position + byteLength before + offset := by
  generalize hending : (Except.error e : Except ParseError Nat) = ending at h
  induction h with
  | done => cases hending
  | @fault position first rest fault offset hfault =>
    obtain rfl := Except.error.inj hending
    exact ⟨[], first, rest, offset, rfl, .nil _, hfault, rfl⟩
  | @blank position word _ _ _ hread _ ih =>
    obtain ⟨before, first, rest, offset, rfl, hscans, hfault, hposition⟩ := ih hending
    refine ⟨word ++ before, first, rest, offset, by simp, .blank hread hscans, hfault, ?_⟩
    rw [hposition, byteLength_append, Nat.add_assoc position]
  | @lexeme position word _ _ _ _ hread _ ih =>
    obtain ⟨before, first, rest, offset, rfl, hscans, hfault, hposition⟩ := ih hending
    refine ⟨word ++ before, first, rest, offset, by simp, .lexeme hread hscans, hfault, ?_⟩
    rw [hposition, byteLength_append, Nat.add_assoc position]

end Collects

end PagedSearch.Lexing
