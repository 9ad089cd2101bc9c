import PagedSearch.Proofs.Printing
import PagedSearch.Proofs.Statements

/-!
# Texts with enough arguments

Where marks have no numbers, the printer of a template takes one argument after the other, and it
fails when it finds more marks than there are arguments.  Marks and arguments are put there one for
one, but the printer may find other marks: of three in a row it takes the first two for a doubled
one, and in what it takes for a quoted text it finds none at all.  What stands behind a text can
change where quoted texts end, and so bring to light marks that were hidden.

So it is counted how many arguments the printer takes.  Whatever stands behind a text, the printer
takes no more arguments than before and one for each `?` in what has been added.

## Main definitions

* `taken` — how many arguments the printer takes for some tokens.
* `templateFrom` — the text of the template of some pieces, which does not depend on their values.
* `Fits` — pieces for which there are enough arguments.

## Main results

* `taken_tokens_append` — what more text costs.
* `exists_printText_iff` — the texts that are printed.
* `Fits.append` — more pieces without a `?` of their own can follow.
-/

namespace PagedSearch

/-! ### Arguments that are taken -/

/-- How many arguments the printer takes for some tokens, `marked` saying whether a mark precedes
them that nothing has been printed for. -/
def taken (marked : Bool) (found : List (Token × List Char)) : Nat :=
  (instructionsFrom .sqlite marked found).count .next

@[simp] theorem taken_nil (marked : Bool) : taken marked [] = marked.toNat := by
  cases marked <;> rfl

theorem taken_cons (marked : Bool) (token : Token × List Char) (rest : List (Token × List Char)) :
    taken marked (token :: rest) =
      if isMark .sqlite token then taken (!marked) rest else marked.toNat + taken false rest := by
  cases hmark : isMark .sqlite token with
  | true => cases marked <;> simp [taken, instructionsFrom, hmark]
  | false =>
    cases marked <;> simp [taken, instructionsFrom, hmark, Backend.isNumbered, Nat.add_comm]

/-- No argument is taken without a mark. -/
theorem taken_le (marked : Bool) (found : List (Token × List Char)) :
    taken marked found ≤ marked.toNat + (found.flatMap Prod.snd).count '?' := by
  induction found generalizing marked with
  | nil => simp
  | cons token rest ih =>
    rw [taken_cons, List.flatMap_cons, List.count_append]
    split
    · rename_i hmark
      have hword : token.2 = ['?'] := by
        simp only [isMark, Bool.and_eq_true, beq_iff_eq] at hmark
        exact hmark.2
      have hle := ih (!marked)
      have hone : (!marked).toNat ≤ 1 := Bool.toNat_le _
      rw [hword, List.count_singleton_self]
      omega
    · have hle := ih false
      rw [Bool.toNat_false] at hle
      omega

theorem taken_tokens_le (marked : Bool) (text : List Char) :
    taken marked (tokens text) ≤ marked.toNat + text.count '?' := by
  have hle := taken_le marked (tokens text)
  rwa [tokens, Text.cut_covers] at hle

/-! ### More text -/

section Tokens

open Token

/-- A run of characters goes on behind a text only from the end of the text. -/
theorem takeWhile_append_cases (p : Char → Bool) (text tail : List Char) :
    ((text ++ tail).takeWhile p = text.takeWhile p) ∨
      (text.length ≤ ((text ++ tail).takeWhile p).length ∧
        text.length ≤ (text.takeWhile p).length) := by
  by_cases hall : ∀ c ∈ text, p c = true
  · refine .inr ⟨?_, ?_⟩
    · rw [List.takeWhile_append_of_pos hall, List.length_append]
      omega
    · have hself : (text ++ []).takeWhile p = text ++ [].takeWhile p :=
        List.takeWhile_append_of_pos hall
      rw [List.append_nil, List.takeWhile_nil, List.append_nil] at hself
      rw [hself]
  · simp only [not_forall, Bool.not_eq_true] at hall
    obtain ⟨c, hmem, hc⟩ := hall
    exact .inl (Text.takeWhile_append_of_mem hmem hc tail)

/-- A quoted text goes on behind a text only from the end of the text. -/
theorem quotedLength_append_cases (close : Char) (escaped : Bool) (text tail : List Char) :
    (quotedLength close escaped (text ++ tail) = quotedLength close escaped text ∧
        quotedLength close escaped text ≤ text.length) ∨
      (text.length ≤ quotedLength close escaped (text ++ tail) ∧
        text.length ≤ quotedLength close escaped text) := by
  fun_induction quotedLength close escaped text with
  | case1 => exact .inr ⟨Nat.zero_le _, Nat.zero_le _⟩
  | case2 escaped c hclose next more hdoubled ih =>
    simp only [List.cons_append, quotedLength, hclose, hdoubled, if_true, List.length_cons]
    rcases ih with ⟨heq, hle⟩ | ⟨hle, hle'⟩
    · exact .inl ⟨by rw [heq], by omega⟩
    · exact .inr ⟨by omega, by omega⟩
  | case3 escaped c hclose next more hdoubled =>
    simp only [List.cons_append, quotedLength, hclose, hdoubled, if_true, List.length_cons]
    exact .inl ⟨rfl, by omega⟩
  | case4 escaped c hclose =>
    -- The last character ends the quoted text, unless it is doubled behind the text.
    refine .inr ⟨?_, Nat.le_refl _⟩
    rw [List.cons_append, List.nil_append, quotedLength.eq_def]
    simp only [hclose, if_true]
    cases tail with
    | nil => exact Nat.le_refl _
    | cons d rest =>
      dsimp only
      split <;> simp
  | case5 escaped c rest hopen ih =>
    rw [List.cons_append, quotedLength.eq_def]
    simp only [hopen, List.length_cons]
    rcases ih with ⟨heq, hle⟩ | ⟨hle, hle'⟩
    · exact .inl ⟨by simp [heq], by omega⟩
    · exact .inr ⟨by simpa using hle, by omega⟩

/-- A token is the same in front of more text, unless it reaches up to the end of its own text. -/
theorem read_append_cases (first : Char) (rest tail : List Char) :
    (Token.read first (rest ++ tail) = Token.read first rest ∧
        (Token.read first rest).2 ≤ rest.length) ∨
      (Token.read first (rest ++ tail)).1 = (Token.read first rest).1 ∧
        (Token.read first rest).1 ≠ .punctuation ∧
        rest.length ≤ (Token.read first (rest ++ tail)).2 ∧
        rest.length ≤ (Token.read first rest).2 := by
  unfold Token.read
  split
  · rcases takeWhile_append_cases isSpace rest tail with heq | ⟨hle, hle'⟩
    · exact .inl ⟨by rw [heq], Text.length_takeWhile_le _ _⟩
    · exact .inr ⟨rfl, nofun, hle, hle'⟩
  · split
    · rcases takeWhile_append_cases isWordPart rest tail with heq | ⟨hle, hle'⟩
      · exact .inl ⟨by rw [heq], Text.length_takeWhile_le _ _⟩
      · exact .inr ⟨rfl, nofun, hle, hle'⟩
    · split
      · rename_i close _
        rcases quotedLength_append_cases close false rest tail with ⟨heq, hle⟩ | ⟨hle, hle'⟩
        · exact .inl ⟨by rw [heq], hle⟩
        · exact .inr ⟨rfl, nofun, hle, hle'⟩
      · exact .inl ⟨rfl, Nat.zero_le _⟩

/-- **What more text costs.**  With more text behind it, a text takes no more arguments than it took
by itself, and one for each mark in what has been added.  The induction is on the text that is there;
only its last token can reach into what has been added. -/
theorem taken_tokens_append (marked : Bool) (text tail : List Char) :
    taken marked (tokens (text ++ tail)) ≤ taken marked (tokens text) + tail.count '?' := by
  induction hn : text.length using Nat.strongRecOn generalizing marked text with
  | _ n ih =>
    cases text with
    | nil =>
      have hnil : tokens [] = [] := rfl
      rw [hnil, taken_nil]
      exact taken_tokens_le marked tail
    | cons first rest =>
      unfold tokens at ih ⊢
      rw [List.cons_append, Text.cut_cons, Text.cut_cons, taken_cons, taken_cons]
      rcases read_append_cases first rest tail with ⟨hread, hle⟩ | ⟨hkind, hne, hend, hend'⟩
      · have hlt : (rest.drop (Token.read first rest).2).length < n := by
          rw [← hn, List.length_drop, List.length_cons]
          omega
        rw [hread, List.take_append_of_le_length hle, List.drop_append_of_le_length hle]
        split
        · exact ih _ hlt _ _ rfl
        · have hrest := ih _ hlt false _ rfl
          omega
      · -- The token is no mark, and what follows it is a part of what has been added.
        have hunmarked (word : List Char) :
            isMark .sqlite ((Token.read first rest).1, word) = false := by
          simp [isMark, hne]
        rw [hkind, hunmarked, hunmarked, List.drop_eq_nil_of_le hend', List.drop_append,
          List.drop_eq_nil_of_le hend, List.nil_append]
        have hbehind := taken_tokens_le false
          (tail.drop ((Token.read first (rest ++ tail)).2 - rest.length))
        have hcount := (List.drop_sublist
          ((Token.read first (rest ++ tail)).2 - rest.length) tail).count_le '?'
        rw [tokens, Bool.toNat_false] at hbehind
        simp only [Bool.false_eq_true, if_false, Text.cut_nil, taken_nil, Bool.toNat_false]
        omega

end Tokens

/-! ### Templates without values -/

namespace Marker

/-- A piece in a template, behind the character `last`. -/
def inTemplate (last : Option Char) : Marker → List Char
  | literal text => if text.contains '\\' then Template.markText .sqlite last 1 else text
  | char c => Template.charText .sqlite last c
  | _ => Template.markText .sqlite last 1

/-- Whether there is a `?` in a piece that stands for itself. -/
def hasMark : Marker → Bool
  | literal text => text.contains '?'
  | char c => c == '?'
  | _ => false

end Marker

/-- The text of the template of some pieces, behind the character `last`. -/
def templateFrom : Option Char → List Marker → List Char
  | _, [] => []
  | last, piece :: rest =>
    let text := piece.inTemplate last
    text ++ templateFrom (text.getLast?.or last) rest

section Templates

variable {params : Params} {pieces more : List Marker} {items : List Item}

theorem inTemplate_of_isArgument {piece : Marker} (h : piece.isArgument = true)
    (last : Option Char) : piece.inTemplate last = Template.markText .sqlite last 1 := by
  cases piece with
  | literal text => exact if_pos h
  | char c => cases h
  | _ => rfl

theorem getLast?_markText_sqlite (last : Option Char) (number : Nat) :
    (Template.markText .sqlite last number).getLast? = some '?' := by
  simp [Template.markText, Backend.isNumbered, Backend.mark]

/-- Whatever the values are, the template has the same text and as many arguments. -/
theorem ofItemsFrom_eq
    (h : List.Forall₂ (fun piece item => piece.bind params = .ok item) pieces items)
    (last : Option Char) (count : Nat) :
    (Template.ofItemsFrom .sqlite last count items).text = templateFrom last pieces ∧
      (Template.ofItemsFrom .sqlite last count items).arguments.length =
        pieces.countP Marker.isArgument := by
  induction h generalizing last count with
  | nil => exact ⟨rfl, rfl⟩
  | @cons piece item rest items hpiece _ ih =>
    cases item with
    | char c =>
      obtain rfl := bind_eq_char hpiece
      obtain ⟨htext, hlength⟩ := ih (some c) count
      have hlast : (Template.charText .sqlite last c).getLast?.or last = some c := by
        rw [getLast?_charText, Option.some_or]
      refine ⟨?_, hlength⟩
      rw [Template.ofItemsFrom, templateFrom, Marker.inTemplate, hlast, ← htext]
    | literal text =>
      obtain ⟨rfl, hbackslash⟩ := bind_eq_literal hpiece
      obtain ⟨htext, hlength⟩ := ih (text.getLast?.or last) count
      have hpart : (Marker.literal text).inTemplate last = text :=
        if_neg (by rw [hbackslash]; decide)
      have hargument : (Marker.literal text).isArgument = false := hbackslash
      refine ⟨?_, ?_⟩
      · rw [Template.ofItemsFrom, templateFrom, hpart, ← htext]
      · rw [Template.ofItemsFrom, List.countP_cons_of_neg (by rw [hargument]; decide), ← hlength]
    | argument argument =>
      have hargument : piece.isArgument = true := isArgument_of_bind hpiece
      obtain ⟨htext, hlength⟩ := ih (some '?') (count + 1)
      refine ⟨?_, ?_⟩
      · rw [Template.ofItemsFrom, templateFrom, inTemplate_of_isArgument hargument,
          getLast?_markText_sqlite, getLast?_markText_sqlite, Option.some_or, ← htext]
        rfl
      · rw [Template.ofItemsFrom, List.countP_cons_of_pos hargument, getLast?_markText_sqlite,
          List.length_cons, hlength]

theorem templateFrom_append (last : Option Char) (pieces more : List Marker) :
    ∃ behind, templateFrom last (pieces ++ more) =
      templateFrom last pieces ++ templateFrom behind more := by
  induction pieces generalizing last with
  | nil => exact ⟨last, rfl⟩
  | cons piece rest ih =>
    obtain ⟨behind, hrest⟩ := ih ((piece.inTemplate last).getLast?.or last)
    exact ⟨behind, by rw [List.cons_append, templateFrom, hrest, templateFrom, List.append_assoc]⟩

/-- All that counts in front of a template is whether its first mark needs a space. -/
theorem templateFrom_congr {last last' : Option Char}
    (h : (last.any fun c => Template.isWordEnd c || c == '?') =
      last'.any fun c => Template.isWordEnd c || c == '?') (pieces : List Marker) :
    templateFrom last pieces = templateFrom last' pieces := by
  induction pieces generalizing last last' with
  | nil => rfl
  | cons piece rest ih =>
    have hpiece : piece.inTemplate last = piece.inTemplate last' := by
      have hmark : Template.markText .sqlite last 1 = Template.markText .sqlite last' 1 := by
        rw [Template.markText, Template.markText, h]
      have hchar (c : Char) :
          Template.charText .sqlite last c = Template.charText .sqlite last' c := by
        unfold Template.charText
        by_cases hc : c = '?' <;> simp [hc, Backend.mark]
      cases piece with
      | literal text => rw [Marker.inTemplate, Marker.inTemplate, hmark]
      | char c => exact hchar c
      | _ => exact hmark
    rw [templateFrom, templateFrom, hpiece]
    refine congrArg _ (ih ?_)
    cases (piece.inTemplate last').getLast? with
    | none => exact h
    | some c => rfl

/-- Pieces without marks of their own have one mark for each argument in their template. -/
theorem count_templateFrom (h : ∀ piece ∈ pieces, piece.hasMark = false) (last : Option Char) :
    (templateFrom last pieces).count '?' = pieces.countP Marker.isArgument := by
  induction pieces generalizing last with
  | nil => rfl
  | cons piece rest ih =>
    obtain ⟨hpiece, hrest⟩ := List.forall_mem_cons.mp h
    rw [templateFrom, List.count_append, ih hrest]
    cases hargument : piece.isArgument with
    | true =>
      have hmark : (Template.markText .sqlite last 1).count '?' = 1 := by
        unfold Template.markText
        split <;> rfl
      rw [inTemplate_of_isArgument hargument, hmark, List.countP_cons_of_pos hargument, Nat.add_comm]
    | false =>
      have hnone : (piece.inTemplate last).count '?' = 0 := by
        cases piece with
        | literal text =>
          have hbackslash : text.contains '\\' = false := hargument
          rw [Marker.inTemplate, if_neg (by rw [hbackslash]; decide), List.count_eq_zero]
          simpa [Marker.hasMark] using hpiece
        | char c =>
          have hc : c ≠ '?' := by simpa [Marker.hasMark] using hpiece
          simp [Marker.inTemplate, Template.charText, Backend.mark, hc]
        | column name | table name | param name => cases hargument
      rw [hnone, List.countP_cons_of_neg (by rw [hargument]; decide), Nat.zero_add]

end Templates

/-! ### Pieces with enough arguments -/

/-- There are enough arguments for the template of the pieces. -/
def Fits (pieces : List Marker) : Prop :=
  taken false (tokens (templateFrom none pieces)) ≤ pieces.countP Marker.isArgument

section Fits

variable {pieces more : List Marker}

theorem fits_nil : Fits [] := Nat.le_refl 0

/-- Pieces without marks of their own can follow. -/
theorem Fits.append (h : Fits pieces) (hmore : ∀ piece ∈ more, piece.hasMark = false) :
    Fits (pieces ++ more) := by
  obtain ⟨behind, htemplate⟩ := templateFrom_append none pieces more
  have hle := taken_tokens_append false (templateFrom none pieces) (templateFrom behind more)
  rw [count_templateFrom hmore] at hle
  rw [Fits, htemplate, List.countP_append]
  exact Nat.le_trans hle (Nat.add_le_add_right h _)

theorem fits_of_unmarked (h : ∀ piece ∈ pieces, piece.hasMark = false) : Fits pieces :=
  fits_nil.append h

/-- A parenthesis in front is read by itself. -/
theorem Fits.opened (h : Fits pieces) : Fits (.char '(' :: pieces) := by
  have htemplate : templateFrom none (.char '(' :: pieces) = '(' :: templateFrom none pieces :=
    congrArg ('(' :: ·) (templateFrom_congr (by decide) pieces)
  have htokens (text : List Char) : tokens ('(' :: text) = (.punctuation, ['(']) :: tokens text := by
    unfold tokens
    rw [Text.cut_cons]
    rfl
  have hmark : isMark .sqlite (.punctuation, ['(']) = false := by decide
  unfold Fits at h ⊢
  rw [htemplate, htokens, taken_cons, hmark, List.countP_cons_of_neg (by decide)]
  simpa using h

end Fits

/-! ### Printing -/

section Printing

variable {arguments : List Argument} {params : Params}

theorem numbered_notMem (marked : Bool) (found : List (Token × List Char)) (number : Nat) :
    .numbered number ∉ instructionsFrom .sqlite marked found := by
  induction found generalizing marked with
  | nil => cases marked <;> simp [instructionsFrom]
  | cons token rest ih =>
    have hfalse := ih false
    have htrue := ih true
    cases hmark : isMark .sqlite token <;> cases marked <;>
      simp [instructionsFrom, hmark, Backend.isNumbered, hfalse, htrue]

/-- Instructions without numbers are followed if there are arguments for all of them. -/
theorem exists_follow_iff {steps : List Instruction} (h : ∀ number, .numbered number ∉ steps)
    {next : Nat} (hnext : next ≤ arguments.length) :
    (∃ chunks, Template.follow .sqlite arguments next steps = .ok chunks) ↔
      next + steps.count .next ≤ arguments.length := by
  induction steps generalizing next with
  | nil => simpa [Template.follow] using hnext
  | cons step rest ih =>
    have hrest : ∀ number, .numbered number ∉ rest :=
      fun number hmem => h number (List.mem_cons_of_mem _ hmem)
    have hbind {first : Chunk} {result : Except SearchError (List Chunk)} :
        (∃ chunks, (return first :: (← result) : Except SearchError (List Chunk)) = .ok chunks) ↔
          ∃ chunks, result = .ok chunks := by
      cases result with
      | error e => simp [bind, Except.bind]
      | ok chunks => exact ⟨fun _ => ⟨chunks, rfl⟩, fun _ => ⟨first :: chunks, rfl⟩⟩
    cases step with
    | numbered number => exact absurd List.mem_cons_self (h number)
    | copy text =>
      have hne : Instruction.copy text ≠ .next := by simp
      rw [Template.follow, hbind, ih hrest hnext, List.count_cons_of_ne hne]
    | next =>
      rw [Template.follow, List.count_cons_self]
      cases hget : arguments[next]? with
      | none =>
        have hle := List.getElem?_eq_none_iff.mp hget
        exact iff_of_false (by simp) (by omega)
      | some argument =>
        obtain ⟨hlt, -⟩ := List.getElem?_eq_some_iff.mp hget
        rw [hbind, ih hrest hlt]
        omega

theorem forall₂_of_mapM {α β ε : Type} {f : α → Except ε β} {members : List α} {results : List β}
    (h : members.mapM f = .ok results) : List.Forall₂ (fun a b => f a = .ok b) members results := by
  induction members generalizing results with
  | nil =>
    obtain rfl := Except.ok.inj h
    exact .nil
  | cons first rest ih =>
    rw [List.mapM_cons] at h
    obtain ⟨head, hhead, h⟩ := bind_eq_ok.mp h
    obtain ⟨tail, htail, h⟩ := bind_eq_ok.mp h
    obtain rfl := Except.ok.inj h
    exact .cons hhead (ih htail)

theorem isSome_of_bind {pieces : List Marker} {items : List Item}
    (h : List.Forall₂ (fun piece item => piece.bind params = .ok item) pieces items) {name : String}
    (hname : name ∈ pieces.filterMap Marker.param?) : (params.get? name).isSome = true := by
  obtain ⟨piece, hmem, hparam⟩ := List.mem_filterMap.mp hname
  obtain ⟨index, hlt, rfl⟩ := List.mem_iff_getElem.mp hmem
  have hbind := h.get hlt (h.length_eq ▸ hlt)
  rw [List.get_eq_getElem] at hbind
  cases hpiece : pieces[index] with
  | param written =>
    rw [hpiece] at hparam hbind
    obtain rfl := Option.some.inj hparam
    rw [Marker.bind] at hbind
    split at hbind
    · rename_i value hvalue
      rw [hvalue]
      rfl
    · cases hbind
  | _ =>
    rw [hpiece] at hparam
    cases hparam

/-- **A text is printed just if all values that it refers to are there and its pieces fit.** -/
theorem exists_printText_iff {text : String} :
    (∃ chunks, printText .sqlite text params = .ok chunks) ↔
      (∀ name ∈ placeholders text.toList, (params.get? name).isSome = true) ∧
        Fits (markers text.toList) := by
  have hfits {items : List Item} (h : List.Forall₂
      (fun piece item => piece.bind params = .ok item) (markers text.toList) items) :
      (∃ chunks, (Template.ofItems .sqlite items).chunks .sqlite = .ok chunks) ↔
        Fits (markers text.toList) := by
    obtain ⟨htext, hlength⟩ := ofItemsFrom_eq h none 0
    unfold Template.chunks instructions
    rw [exists_follow_iff (numbered_notMem false _) (Nat.zero_le _), Fits, ← htext, ← hlength,
      Nat.zero_add]
    rfl
  constructor
  · rintro ⟨chunks, hchunks⟩
    obtain ⟨template, htemplate, hchunks⟩ := bind_eq_ok.mp hchunks
    obtain ⟨items, hitems, htemplate⟩ := bind_eq_ok.mp htemplate
    obtain rfl := Except.ok.inj htemplate
    have hall := forall₂_of_mapM hitems
    exact ⟨fun name => isSome_of_bind hall, (hfits hall).mp ⟨chunks, hchunks⟩⟩
  · rintro ⟨hbound, hpieces⟩
    obtain ⟨items, hitems, hall⟩ := exists_items hbound
    obtain ⟨chunks, hchunks⟩ := (hfits hall).mpr hpieces
    refine ⟨chunks, ?_⟩
    unfold printText Template.ofText
    rw [hitems]
    exact hchunks

/-! ### Texts without marks -/

theorem exists_read_of_mem_markers {text : List Char} {piece : Marker} (h : piece ∈ markers text) :
    ∃ before first rest, text = before ++ first :: rest ∧ piece = (Marker.read first rest).1 := by
  induction hn : text.length using Nat.strongRecOn generalizing text with
  | _ n ih =>
    cases text with
    | nil => cases h
    | cons first rest =>
      unfold markers at ih h
      rw [Text.cut_cons, List.map_cons, List.mem_cons] at h
      rcases h with rfl | h
      · exact ⟨[], first, rest, rfl, rfl⟩
      · have hlt : (rest.drop (Marker.read first rest).2).length < n := by
          rw [← hn, List.length_drop, List.length_cons]
          omega
        obtain ⟨before, next, more, hrest, hpiece⟩ := ih _ hlt h rfl
        refine ⟨first :: rest.take (Marker.read first rest).2 ++ before, next, more, ?_, hpiece⟩
        rw [List.append_assoc, ← hrest, List.cons_append, List.take_append_drop]

theorem hasMark_of_notMem {text : List Char} (h : '?' ∉ text) :
    ∀ piece ∈ markers text, piece.hasMark = false := by
  intro piece hpiece
  obtain ⟨before, first, rest, rfl, rfl⟩ := exists_read_of_mem_markers hpiece
  have hfirst : first ≠ '?' := by
    rintro rfl
    exact h (by simp)
  have hrest : '?' ∉ rest := fun hmem => h (by simp [hmem])
  unfold Marker.read
  split
  · have htake : '?' ∉ rest.take (Marker.literalLength rest) :=
      fun hmem => hrest (List.mem_of_mem_take hmem)
    simp [Marker.hasMark, hfirst.symm, htake]
  · cases hread : Marker.read? first rest with
    | none => simpa [Marker.hasMark] using hfirst
    | some found =>
      unfold Marker.read? at hread
      split at hread
      on_goal 4 => cases hread
      all_goals
        obtain ⟨name, -, rfl⟩ := Option.map_eq_some_iff.mp hread
        rfl

theorem placeholders_of_notMem {text : List Char} (h : '{' ∉ text) : placeholders text = [] := by
  refine List.filterMap_eq_nil_iff.mpr fun piece hpiece => ?_
  obtain ⟨before, first, rest, rfl, rfl⟩ := exists_read_of_mem_markers hpiece
  have hfirst : first ≠ '{' := by
    rintro rfl
    exact h (by simp)
  unfold Marker.read
  split
  · rfl
  · unfold Marker.read?
    split
    · cases Marker.name? [']', ']'] _ <;> rfl
    · exact absurd rfl hfirst
    · exact absurd rfl hfirst
    · rfl

/-- A text without marks is printed if all values that it refers to are there. -/
theorem exists_printText_of_notMem {text : String} (hmark : '?' ∉ text.toList)
    (hbound : ∀ name ∈ placeholders text.toList, (params.get? name).isSome = true) :
    ∃ chunks, printText .sqlite text params = .ok chunks :=
  exists_printText_iff.mpr ⟨hbound, fits_of_unmarked (hasMark_of_notMem hmark)⟩

end Printing

end PagedSearch
