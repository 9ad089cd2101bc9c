import PagedSearch.Proofs.Counting
import PagedSearch.Proofs.Phases
import PagedSearch.Proofs.Unmarked

/-!
# Conditions behind those of a program

The conditions of a program are any texts at all.  Those of a client come behind them, and the whole
is read as one text.  If the text of the program is closed, that is, if no string literal and no
marker in it is left open, then nothing that comes behind it becomes a part of its pieces.  So if the
statements of the program can be printed, then they can be printed with complete conditions and more
terms of an order, too.

## Main definitions

* `leavesOpen` — whether a string literal or a marker is open at the end of a text.

## Main results

* `markers_append_of_closed` — a closed text is read by itself.
* `Fragment.fits_joinTexts_append` — what conditions behind a closed text refer to.
* `leavesOpen_condition` — the conditions of a query are closed if each of them is.
* `exists_printText_all_append` — complete conditions can be printed behind a closed text.
* `exists_statements_refined` — the statements of a query with more conditions and terms.
-/

namespace PagedSearch

open Reading

/-! ### Closed texts -/

namespace Marker

/-- Whether a string literal or a marker starts with `first`, and `rest` does not have what closes
it. -/
def isOpen : Char → List Char → Bool
  | '\'', rest => !isClosed (rest.take (literalLength rest))
  | '[', '[' :: body => (before? [']', ']'] body).isNone
  | '{', '{' :: body => (before? ['}', '}'] body).isNone
  | '{', ':' :: body => (before? ['}'] body).isNone
  | _, _ => false

end Marker

/-- Whether a string literal or a marker is open at the end of a text. -/
def leavesOpen (text : List Char) : Bool :=
  (Text.cut (fun first rest => (Marker.isOpen first rest, (Marker.read first rest).2)) text).any
    Prod.fst

section Closed

open Marker

variable {text tail : List Char}

/-- What closes a marker is found at the same place in front of more text. -/
theorem before?_append_of_eq_some {close body name : List Char} (hclose : close ≠ [])
    (h : before? close body = some name) (tail : List Char) :
    before? close (body ++ tail) = some name ∧ name.length + close.length ≤ body.length := by
  induction body generalizing name with
  | nil =>
    rw [before?, if_neg (by simpa using hclose)] at h
    cases h
  | cons c rest ih =>
    rw [before?] at h
    rw [List.cons_append, before?]
    by_cases hprefix : close.isPrefixOf (c :: rest) = true
    · have hstart : close <+: c :: rest := List.isPrefixOf_iff_prefix.mp hprefix
      have hmore : close.isPrefixOf (c :: (rest ++ tail)) = true :=
        List.isPrefixOf_iff_prefix.mpr (hstart.trans (List.prefix_append (c :: rest) tail))
      rw [if_pos hprefix] at h
      obtain rfl := Option.some.inj h
      rw [if_pos hmore]
      exact ⟨rfl, by simpa using hstart.length_le⟩
    · rw [if_neg hprefix] at h
      obtain ⟨more, hmore, rfl⟩ := Option.map_eq_some_iff.mp h
      obtain ⟨hrest, hle⟩ := ih hmore
      have hnot : ¬ close.isPrefixOf (c :: (rest ++ tail)) = true := by
        intro hstart
        refine hprefix (List.isPrefixOf_iff_prefix.mpr ?_)
        -- There is room for what closes the marker, since it comes later.
        exact List.prefix_of_prefix_length_le (List.isPrefixOf_iff_prefix.mp hstart)
          (List.prefix_append (c :: rest) tail) (by rw [List.length_cons]; omega)
      rw [if_neg hnot, hrest]
      exact ⟨rfl, by rw [List.length_cons, List.length_cons]; omega⟩

theorem name?_append_of_isNone_eq_false {close body : List Char} (hclose : close ≠ [])
    (h : (before? close body).isNone = false) (tail : List Char) :
    (before? close (body ++ tail)).isNone = false ∧ name? close (body ++ tail) = name? close body ∧
      ∀ name, name? close body = some name → name.length + close.length ≤ body.length := by
  obtain ⟨name, hname⟩ := Option.isSome_iff_exists.mp (Option.isNone_eq_false_iff.mp h)
  obtain ⟨happend, hle⟩ := before?_append_of_eq_some hclose hname tail
  unfold name?
  rw [happend, hname]
  refine ⟨rfl, rfl, fun found hfound => ?_⟩
  obtain ⟨hsome, -⟩ := Option.filter_eq_some_iff.mp hfound
  rwa [← Option.some.inj hsome]

/-- A closed literal ends at the same place in front of more text. -/
theorem literalLength_append_of_isClosed {rest : List Char}
    (h : isClosed (rest.take (literalLength rest)) = true) (htail : tail.head? ≠ some '\'') :
    literalLength (rest ++ tail) = literalLength rest ∧ literalLength rest ≤ rest.length := by
  fun_induction literalLength rest with
  | case1 => cases h
  | case2 rest ih =>
    obtain ⟨heq, hle⟩ := ih h
    simp only [List.cons_append, literalLength, heq, List.length_cons]
    exact ⟨trivial, by omega⟩
  | case3 rest hone =>
    refine ⟨?_, by simp⟩
    cases rest with
    | nil =>
      cases tail with
      | nil => rfl
      | cons c more =>
        have hc : c ≠ '\'' := by simpa using htail
        simp [literalLength, hc]
    | cons c more =>
      have hc : c ≠ '\'' := fun heq => hone more (by rw [heq])
      simp [literalLength, hc]
  | case4 c rest htwo hquote ih =>
    have hc : c ≠ '\'' := fun heq => hquote heq
    have hrest : isClosed (rest.take (literalLength rest)) = true := by
      simpa [isClosed, hc] using h
    obtain ⟨heq, hle⟩ := ih hrest
    simp only [List.cons_append, List.length_cons]
    exact ⟨by simp [literalLength, hc, heq], by omega⟩

/-- No marker starts with a character that is not followed by what starts one. -/
theorem read?_eq_none {first : Char} {rest : List Char}
    (hcolumn : ∀ body, first = '[' → rest ≠ '[' :: body)
    (htable : ∀ body, first = '{' → rest ≠ '{' :: body)
    (hparam : ∀ body, first = '{' → rest ≠ ':' :: body) : read? first rest = none := by
  unfold read?
  split
  · exact absurd rfl (hcolumn _ rfl)
  · exact absurd rfl (htable _ rfl)
  · exact absurd rfl (hparam _ rfl)
  · rfl

/-- Nothing is left open then, unless the character is a quote. -/
theorem isOpen_eq_false {first : Char} {rest : List Char} (hquote : first ≠ '\'')
    (hcolumn : ∀ body, first = '[' → rest ≠ '[' :: body)
    (htable : ∀ body, first = '{' → rest ≠ '{' :: body)
    (hparam : ∀ body, first = '{' → rest ≠ ':' :: body) : isOpen first rest = false := by
  unfold isOpen
  split
  · exact absurd rfl hquote
  · exact absurd rfl (hcolumn _ rfl)
  · exact absurd rfl (htable _ rfl)
  · exact absurd rfl (hparam _ rfl)
  · rfl

/-- What follows the text starts with a break, which is not the second character of a marker. -/
theorem append_ne_cons {mark : Char} {rest : List Char} (hmark : Reading.isBreak mark = false)
    (h : ∀ body, rest ≠ mark :: body) (htail : StartsApart tail) (body : List Char) :
    rest ++ tail ≠ mark :: body := by
  obtain ⟨c, more, rfl, hc⟩ := htail
  rintro heq
  cases rest with
  | nil =>
    obtain ⟨rfl, -⟩ := List.cons.inj heq
    cases hmark.symm.trans hc
  | cons d rest =>
    obtain ⟨rfl, -⟩ := List.cons.inj heq
    exact h rest rfl

theorem snd_getD_map_le {found : Option (List Char)} {read : List Char → Marker} {piece : Marker}
    {extra bound : Nat} (h : ∀ name, found = some name → name.length + extra ≤ bound) :
    ((found.map fun name => (read name, name.length + extra)).getD (piece, 0)).2 ≤ bound := by
  cases found with
  | none => exact Nat.zero_le _
  | some name => exact h name rfl

/-- A piece that is not left open does not depend on what follows the text. -/
theorem read_append_of_not_isOpen {first : Char} {rest : List Char} (h : isOpen first rest = false)
    (htail : StartsApart tail) :
    Marker.read first (rest ++ tail) = Marker.read first rest ∧
      (Marker.read first rest).2 ≤ rest.length ∧ isOpen first (rest ++ tail) = false := by
  unfold isOpen at h
  split at h
  · have hquote : tail.head? ≠ some '\'' := by
      obtain ⟨c, more, rfl, hc⟩ := htail
      rintro ⟨⟩
      cases hc
    have hclosed : isClosed (rest.take (literalLength rest)) = true := by simpa using h
    obtain ⟨heq, hle⟩ := literalLength_append_of_isClosed hclosed hquote
    simp only [Marker.read, isOpen, if_true]
    rw [heq, List.take_append_of_le_length hle, hclosed]
    exact ⟨rfl, hle, rfl⟩
  on_goal 4 =>
    rename_i hquote hcolumn htable hparam
    have hrest : read? first rest = none := read?_eq_none hcolumn htable hparam
    have hcolumn' (body : List Char) (hfirst : first = '[') : rest ++ tail ≠ '[' :: body :=
      append_ne_cons (by decide) (fun body => hcolumn body hfirst) htail body
    have htable' (body : List Char) (hfirst : first = '{') : rest ++ tail ≠ '{' :: body :=
      append_ne_cons (by decide) (fun body => htable body hfirst) htail body
    have hparam' (body : List Char) (hfirst : first = '{') : rest ++ tail ≠ ':' :: body :=
      append_ne_cons (by decide) (fun body => hparam body hfirst) htail body
    rw [Marker.read, Marker.read, if_neg hquote, if_neg hquote, hrest,
      read?_eq_none hcolumn' htable' hparam']
    exact ⟨rfl, Nat.zero_le _, isOpen_eq_false hquote hcolumn' htable' hparam'⟩
  all_goals
    rename_i body
    obtain ⟨hsome, heq, hle⟩ := name?_append_of_isNone_eq_false (List.cons_ne_nil _ _) h tail
    refine ⟨by simp [Marker.read, read?, heq], snd_getD_map_le fun name hname => ?_, hsome⟩
    have hlength := hle name hname
    simp only [List.length_cons, List.length_nil] at hlength ⊢
    omega

/-- **A closed text is read by itself**, and leaves nothing open for what follows it. -/
theorem markers_append_of_closed (h : leavesOpen text = false) (htail : StartsApart tail) :
    markers (text ++ tail) = markers text ++ markers tail ∧
      leavesOpen (text ++ tail) = leavesOpen tail := by
  induction hn : text.length using Nat.strongRecOn generalizing text with
  | _ n ih =>
    cases text with
    | nil => exact ⟨rfl, rfl⟩
    | cons first rest =>
      unfold leavesOpen at ih h ⊢
      rw [Text.cut_cons, List.any_cons, Bool.or_eq_false_iff] at h
      obtain ⟨hfirst, hrest⟩ := h
      obtain ⟨hread, hle, hopen⟩ := read_append_of_not_isOpen hfirst htail
      have hlt : (rest.drop (Marker.read first rest).2).length < n := by
        rw [← hn, List.length_drop, List.length_cons]
        omega
      unfold markers at ih ⊢
      obtain ⟨hmarkers, hopens⟩ := ih _ hlt hrest rfl
      rw [List.cons_append, Text.cut_cons, Text.cut_cons, Text.cut_cons, hread,
        List.drop_append_of_le_length hle, List.map_cons, List.map_cons, List.cons_append, hmarkers,
        List.any_cons, hopen, hopens, Bool.false_or]
      exact ⟨rfl, rfl⟩

/-- A character that starts no string literal and no marker leaves nothing open. -/
theorem leavesOpen_cons {first : Char} (h : first ∉ ['\'', '[', '{']) (text : List Char) :
    leavesOpen (first :: text) = leavesOpen text := by
  obtain ⟨hquote, hbracket, hbrace⟩ : first ≠ '\'' ∧ first ≠ '[' ∧ first ≠ '{' := by simpa using h
  have hcolumn (body : List Char) (hfirst : first = '[') : text ≠ '[' :: body :=
    absurd hfirst hbracket
  have htable (body : List Char) (hfirst : first = '{') : text ≠ '{' :: body :=
    absurd hfirst hbrace
  have hparam (body : List Char) (hfirst : first = '{') : text ≠ ':' :: body :=
    absurd hfirst hbrace
  have hread : Marker.read first text = (.char first, 0) := by
    rw [Marker.read, if_neg hquote, read?_eq_none hcolumn htable hparam]
    rfl
  unfold leavesOpen
  rw [Text.cut_cons, List.any_cons, isOpen_eq_false hquote hcolumn htable hparam, hread]
  rfl

/-- What comes behind a closed text does not change what it refers to, and takes no argument from
it. -/
theorem fits_append_of_closed {names : List String} (hclosed : leavesOpen text = false)
    (hfits : Fits (markers text)) (htail : Refers tail names) (hstarts : StartsApart tail)
    (hmark : '?' ∉ tail) :
    placeholders (text ++ tail) = placeholders text ++ names ∧ Fits (markers (text ++ tail)) := by
  rw [placeholders, (markers_append_of_closed hclosed hstarts).1, List.filterMap_append]
  exact ⟨congrArg (_ ++ ·) htail.placeholders_eq, hfits.append (hasMark_of_notMem hmark)⟩

/-- A parenthesis can stand in front of any text. -/
theorem fits_opened (h : Fits (markers text)) :
    placeholders ('(' :: text) = placeholders text ∧ Fits (markers ('(' :: text)) := by
  have hpiece : (Marker.char '(').IsPiece := by
    show '(' ∉ delimiters
    decide
  have hread : markers ('(' :: text) = .char '(' :: markers text :=
    markers_piece_append hpiece rfl text
  rw [placeholders, hread]
  exact ⟨rfl, h.opened⟩

end Closed

/-! ### Joined conditions -/

namespace Fragment

/-- The text of conditions that come behind others. -/
def conjuncts (texts : List String) : String :=
  " AND " ++ " AND ".intercalate (texts.map parenthesised)

variable {texts more : List String}

theorem filter_ne_empty (h : ∀ text ∈ texts, text ≠ "") : texts.filter (· ≠ "") = texts :=
  List.filter_eq_self.mpr fun text htext => decide_eq_true (h text htext)

/-- Conditions behind others: one condition in front of them is put in parentheses, and several are in
parentheses already. -/
theorem joinTexts_append (hmore : ∀ text ∈ more, text ≠ "") (hne : more ≠ []) :
    (joinTexts " AND " texts = "" ∧
        joinTexts " AND " (texts ++ more) = joinTexts " AND " more) ∨
      joinTexts " AND " (texts ++ more) =
        parenthesised (joinTexts " AND " texts) ++ conjuncts more ∨
      joinTexts " AND " (texts ++ more) = joinTexts " AND " texts ++ conjuncts more := by
  have hparenthesised : more.map parenthesised ≠ [] := by simpa using hne
  unfold joinTexts conjuncts
  rw [List.filter_append, filter_ne_empty hmore]
  rcases texts.filter (· ≠ "") with _ | ⟨first, _ | ⟨second, rest⟩⟩
  · exact .inl ⟨rfl, rfl⟩
  · refine .inr (.inl ?_)
    obtain ⟨next, others, rfl⟩ := List.exists_cons_of_ne_nil hne
    show " AND ".intercalate ([parenthesised first] ++ (next :: others).map parenthesised) = _
    rw [String.intercalate_append_of_ne_nil (List.cons_ne_nil _ _) hparenthesised,
      String.intercalate_singleton, String.append_assoc]
  · refine .inr (.inr ?_)
    show " AND ".intercalate ((first :: second :: rest ++ more).map parenthesised) =
      " AND ".intercalate ((first :: second :: rest).map parenthesised) ++ _
    rw [List.map_append, String.intercalate_append_of_ne_nil (by simp) hparenthesised,
      String.append_assoc]

/-- Parentheses around a closed text leave nothing open. -/
theorem leavesOpen_parenthesised_append {text : String} (h : leavesOpen text.toList = false)
    (tail : List Char) : leavesOpen ((parenthesised text).toList ++ tail) = leavesOpen tail := by
  have hclosing : StartsApart (')' :: tail) := ⟨')', tail, rfl, rfl⟩
  have hread : leavesOpen (text.toList ++ ')' :: tail) = leavesOpen (')' :: tail) :=
    (markers_append_of_closed h hclosing).2
  rw [toList_parenthesised, List.cons_append, List.append_assoc, leavesOpen_cons (by decide),
    List.singleton_append, hread, leavesOpen_cons (by decide)]

theorem leavesOpen_intercalate (h : ∀ text ∈ texts, leavesOpen text.toList = false) :
    leavesOpen (" AND ".intercalate (texts.map parenthesised)).toList = false := by
  induction texts with
  | nil => rfl
  | cons first rest ih =>
    obtain ⟨hfirst, hrest⟩ := List.forall_mem_cons.mp h
    cases rest with
    | nil =>
      have hone := leavesOpen_parenthesised_append hfirst []
      rw [List.append_nil] at hone
      exact hone
    | cons second more =>
      rw [List.map_cons, List.map_cons, String.intercalate_cons_cons, String.toList_append,
        String.toList_append, List.append_assoc, leavesOpen_parenthesised_append hfirst,
        ← List.map_cons]
      exact ih hrest

/-- Conditions that are closed have a closed conjunction. -/
theorem leavesOpen_joinTexts (h : ∀ text ∈ texts, leavesOpen text.toList = false) :
    leavesOpen (joinTexts " AND " texts).toList = false := by
  have hkept : ∀ text ∈ texts.filter (· ≠ ""), leavesOpen text.toList = false :=
    fun text htext => h text (List.mem_filter.mp htext).1
  unfold joinTexts
  split
  · rfl
  · rename_i text hone
    exact hkept text (by rw [hone]; exact List.mem_singleton_self text)
  · exact leavesOpen_intercalate hkept

section Composed

variable (h : ∀ text ∈ texts, Composed text.toList)

include h

/-- Parentheses do not change what conditions refer to. -/
theorem refers_parenthesised_texts :
    Refers (" AND ".intercalate (texts.map parenthesised)).toList
      (texts.flatMap fun text => placeholders text.toList) := by
  have hseparator : Divides " AND ".toList := divides_of_isDividing (by decide)
  have hinside (text : String) (htext : text ∈ texts) :
      Refers (parenthesised text).toList (placeholders text.toList) := by
    have hrefers : Refers text.toList (placeholders text.toList) := ⟨h text htext, rfl⟩
    rw [toList_parenthesised]
    exact hrefers.parenthesised
  have hall := refers_intercalate hseparator fun text htext => by
    obtain ⟨inner, hinner, rfl⟩ := List.mem_map.mp htext
    exact (hinside inner hinner).composed
  refine ⟨hall.composed, ?_⟩
  rw [hall.placeholders_eq, List.flatMap_map]
  exact List.flatMap_congr fun text htext => (hinside text htext).placeholders_eq

theorem refers_conjuncts :
    Refers (conjuncts texts).toList (texts.flatMap fun text => placeholders text.toList) := by
  have hseparator : Divides " AND ".toList := divides_of_isDividing (by decide)
  rw [conjuncts, String.toList_append]
  exact hseparator.refers.append (refers_parenthesised_texts h) (.inl hseparator.ends)

theorem refers_joinTexts (hne : ∀ text ∈ texts, text ≠ "") :
    Refers (joinTexts " AND " texts).toList
      (texts.flatMap fun text => placeholders text.toList) := by
  unfold joinTexts
  rw [filter_ne_empty hne]
  split
  · decide
  · rename_i text
    rw [List.flatMap_singleton]
    exact ⟨h text List.mem_cons_self, rfl⟩
  · exact refers_parenthesised_texts h

end Composed

theorem startsApart_conjuncts (texts : List String) : StartsApart (conjuncts texts).toList := by
  rw [conjuncts, String.toList_append]
  exact ⟨' ', _, rfl, rfl⟩

theorem notMem_conjuncts (h : ∀ text ∈ texts, '?' ∉ text.toList) :
    '?' ∉ (conjuncts texts).toList := by
  have hlist : '?' ∉ (" AND ".intercalate (texts.map parenthesised)).toList := by
    refine notMem_intercalate (by decide) fun text htext => ?_
    obtain ⟨inner, hinner, rfl⟩ := List.mem_map.mp htext
    exact notMem_parenthesised (h inner hinner) (by decide) (by decide)
  rw [conjuncts, String.toList_append, List.mem_append, not_or]
  exact ⟨by decide, hlist⟩

/-- **Conditions behind a closed text** are a tail of the whole that starts with a break, unless they
are the whole: so nothing is referred to but what the text and the conditions refer to by themselves,
and no mark takes a value from another place. -/
theorem fits_joinTexts_append (hclosed : leavesOpen (joinTexts " AND " texts).toList = false)
    (hfits : Fits (markers (joinTexts " AND " texts).toList)) (hempty : ∀ text ∈ more, text ≠ "")
    (hcomposed : ∀ text ∈ more, Composed text.toList)
    (hunmarked : ∀ text ∈ more, '?' ∉ text.toList) :
    (∀ name ∈ placeholders (joinTexts " AND " (texts ++ more)).toList,
      name ∈ placeholders (joinTexts " AND " texts).toList ∨
        name ∈ more.flatMap fun text => placeholders text.toList) ∧
      Fits (markers (joinTexts " AND " (texts ++ more)).toList) := by
  by_cases hne : more = []
  · rw [hne, List.append_nil]
    exact ⟨fun _ => .inl, hfits⟩
  have hconjuncts := refers_conjuncts hcomposed
  have hmark := notMem_conjuncts hunmarked
  rcases @joinTexts_append texts more hempty hne with ⟨-, heq⟩ | heq | heq
  · rw [heq, (refers_joinTexts hcomposed hempty).placeholders_eq]
    exact ⟨fun _ => .inr, fits_of_unmarked (hasMark_of_notMem
      (notMem_joinTexts (by decide) (by decide) (by decide) hunmarked))⟩
  · have htext : (joinTexts " AND " (texts ++ more)).toList =
        '(' :: ((joinTexts " AND " texts).toList ++ ([')'] ++ (conjuncts more).toList)) := by
      rw [heq, String.toList_append, toList_parenthesised]
      simp
    have hclosing : Refers [')'] [] := by decide
    obtain ⟨hnames, hpieces⟩ := fits_append_of_closed hclosed hfits
      (hclosing.append hconjuncts (.inr (startsApart_conjuncts more))) ⟨')', _, rfl, rfl⟩
      (by simpa using hmark)
    obtain ⟨hnames', hpieces'⟩ := fits_opened hpieces
    rw [htext, hnames', hnames]
    exact ⟨fun name hname => List.mem_append.mp hname, hpieces'⟩
  · obtain ⟨hnames, hpieces⟩ := fits_append_of_closed hclosed hfits hconjuncts
      (startsApart_conjuncts more) hmark
    rw [heq, String.toList_append, hnames]
    exact ⟨fun name hname => List.mem_append.mp hname, hpieces⟩

theorem isSome_get?_partsParams {parts : List Fragment} {part : Fragment} (hpart : part ∈ parts)
    {name : String} (h : (part.params.get? name).isSome = true) :
    ((partsParams parts).get? name).isSome = true := by
  induction parts with
  | nil => cases hpart
  | cons first rest ih =>
    rw [partsParams, Params.get?_merge, Option.isSome_or, Bool.or_eq_true]
    rcases List.mem_cons.mp hpart with rfl | hpart
    · exact .inr h
    · exact .inl (ih hpart)

/-- Adding conditions takes no value away. -/
theorem isSome_get?_all_append {parts more : List Fragment} {name : String}
    (h : ((all parts).params.get? name).isSome = true ∨
      ∃ part ∈ more, (part.params.get? name).isSome = true) :
    ((all (parts ++ more)).params.get? name).isSome = true := by
  have hparams : (all (parts ++ more)).params = (all parts).params.merge (partsParams more) :=
    partsParams_append parts more
  rw [hparams, Params.get?_merge, Option.isSome_or, Bool.or_eq_true]
  rcases h with h | ⟨part, hpart, h⟩
  · exact .inr h
  · exact .inl (isSome_get?_partsParams hpart h)

end Fragment

open Fragment in
/-- **Complete conditions can be printed behind a closed text**, if the text can be printed by
itself. -/
theorem exists_printText_all_append {parts more : List Fragment}
    (hclosed : leavesOpen (Fragment.all parts).text.toList = false)
    (hprinted : ∃ chunks, printText .sqlite (Fragment.all parts).text (Fragment.all parts).params =
      .ok chunks)
    (hmore : ∀ condition ∈ more, condition.IsComplete) :
    ∃ chunks, printText .sqlite (Fragment.all (parts ++ more)).text
      (Fragment.all (parts ++ more)).params = .ok chunks := by
  obtain ⟨hbound, hfits⟩ := exists_printText_iff.mp hprinted
  have hempty : ∀ text ∈ more.map Fragment.text, text ≠ "" :=
    List.forall_mem_map.mpr fun condition hcondition => (hmore condition hcondition).ne_empty
  have hcomposed : ∀ text ∈ more.map Fragment.text, Composed text.toList :=
    List.forall_mem_map.mpr fun condition hcondition => (hmore condition hcondition).composed
  have hunmarked : ∀ text ∈ more.map Fragment.text, '?' ∉ text.toList :=
    List.forall_mem_map.mpr fun condition hcondition => (hmore condition hcondition).unmarked
  rw [text_all] at hclosed hbound hfits
  obtain ⟨hnames, hpieces⟩ := fits_joinTexts_append hclosed hfits hempty hcomposed hunmarked
  rw [← List.map_append, ← text_all] at hnames hpieces
  refine exists_printText_iff.mpr ⟨fun name hname => ?_, hpieces⟩
  rcases hnames name hname with hname | hname
  · exact isSome_get?_all_append (.inl (hbound name hname))
  · rw [List.flatMap_map] at hname
    obtain ⟨condition, hcondition, hname⟩ := List.mem_flatMap.mp hname
    exact isSome_get?_all_append
      (.inr ⟨condition, hcondition, (hmore condition hcondition).bound name hname⟩)

/-! ### Statements with more conditions -/

theorem exists_mapM_iff {α β ε : Type} {f : α → Except ε β} {members : List α} :
    (∃ results, members.mapM f = .ok results) ↔ ∀ a ∈ members, ∃ b, f a = .ok b := by
  constructor
  · rintro ⟨results, h⟩ a ha
    have hall := forall₂_of_mapM h
    obtain ⟨index, hlt, rfl⟩ := List.mem_iff_getElem.mp ha
    exact ⟨_, hall.get hlt (hall.length_eq ▸ hlt)⟩
  · intro h
    induction members with
    | nil => exact ⟨[], rfl⟩
    | cons first rest ih =>
      obtain ⟨⟨b, hfirst⟩, hrest⟩ := List.forall_mem_cons.mp h
      obtain ⟨results, hresults⟩ := ih hrest
      refine ⟨b :: results, ?_⟩
      rw [List.mapM_cons, hfirst, hresults]
      rfl

namespace SelectQuery

open Fragment

variable {base query : SelectQuery} {backend : Backend}

/-- The conditions of a query are closed if each of them is. -/
theorem leavesOpen_condition
    (h : ∀ condition ∈ query.conditions, leavesOpen condition.text.toList = false) :
    leavesOpen query.condition.text.toList = false := by
  have htext : query.condition.text =
      joinTexts " AND " (query.conditions.map Fragment.text) := text_all query.conditions
  rw [htext]
  exact leavesOpen_joinTexts (List.forall_mem_map.mpr h)

/-- What a count and a page have in common is printed if the joins and the conditions are; no
conditions are printed as nothing. -/
theorem exists_sourceChunks_iff :
    (∃ chunks, query.sourceChunks backend = .ok chunks) ↔
      (∃ joins, query.joins.mapM (joinChunks backend) = .ok joins) ∧
        ∃ chunks, printText backend query.condition.text query.condition.params = .ok chunks := by
  unfold sourceChunks
  dsimp only
  constructor
  · rintro ⟨chunks, hchunks⟩
    obtain ⟨joins, hjoins, hchunks⟩ := bind_eq_ok.mp hchunks
    refine ⟨⟨joins, hjoins⟩, ?_⟩
    by_cases hempty : query.condition.text = ""
    · rw [hempty]
      exact ⟨[], rfl⟩
    · rw [if_neg hempty] at hchunks
      obtain ⟨clause, hclause, -⟩ := bind_eq_ok.mp hchunks
      cases hprinted : printText backend query.condition.text query.condition.params with
      | ok printed => exact ⟨printed, rfl⟩
      | error e =>
        rw [hprinted] at hclause
        cases hclause
  · rintro ⟨⟨joins, hjoins⟩, printed, hprinted⟩
    rw [hjoins, hprinted]
    split <;> exact ⟨_, rfl⟩

/-- **A query that can be returned and counted can be returned and counted with more conditions and
in another order**, if its own conditions are closed, the others are complete, and the terms of the
order are printed. -/
theorem exists_statements_refined {column : Option String} {conditions : List Fragment}
    {terms : List String} (hclosed : leavesOpen base.condition.text.toList = false)
    (hdata : ∃ data, base.dataStatement .sqlite = .ok data)
    (hcount : ∃ count, base.countStatement column .sqlite = .ok count)
    (hconditions : ∀ condition ∈ conditions, condition.IsComplete)
    (hterms : ∀ term ∈ terms, ∃ chunks, orderChunks .sqlite term = .ok chunks) :
    (∃ count, (base.refined conditions terms).countStatement column .sqlite = .ok count) ∧
      ∀ limit offset, ∃ data,
        { base.refined conditions terms with limit, offset }.dataStatement .sqlite = .ok data := by
  obtain ⟨data, hdata⟩ := hdata
  obtain ⟨columns, source, ordered, hcolumns, hsource, hordered, -⟩ := dataStatement_eq_ok hdata
  obtain ⟨source', hsource'⟩ : ∃ source,
      (base.refined conditions terms).sourceChunks .sqlite = .ok source := by
    obtain ⟨hjoins, hprinted⟩ := exists_sourceChunks_iff.mp ⟨source, hsource⟩
    exact exists_sourceChunks_iff.mpr
      ⟨hjoins, exists_printText_all_append hclosed hprinted hconditions⟩
  obtain ⟨ordered', hordered'⟩ : ∃ ordered,
      (base.orderTerms ++ terms).mapM (orderChunks .sqlite) = .ok ordered :=
    exists_mapM_iff.mpr
      (List.forall_mem_append.mpr ⟨exists_mapM_iff.mp ⟨ordered, hordered⟩, hterms⟩)
  have hpages (limit offset : Option Nat) : ∃ data,
      { base.refined conditions terms with limit, offset }.dataStatement .sqlite = .ok data := by
    have hrows : { base.refined conditions terms with limit, offset }.rowChunks .sqlite =
        .ok (plain "SELECT " :: columns ++ source') := rowChunks_of_parts hcolumns hsource'
    have horder : { base.refined conditions terms with limit, offset }.orderTerms.mapM
        (orderChunks .sqlite) = .ok ordered' := hordered'
    unfold dataStatement dataChunks
    rw [hrows, horder]
    exact ⟨_, rfl⟩
  refine ⟨?_, hpages⟩
  cases column with
  | none =>
    obtain ⟨page, hpage⟩ := hpages base.limit base.offset
    exact exists_countStatement hpage
  | some name =>
    obtain ⟨count, hcount⟩ := hcount
    obtain ⟨counted, -, hcounted, -, -⟩ := countStatement_of_column hcount
    unfold countStatement countChunks
    dsimp only
    rw [hcounted, hsource']
    exact ⟨_, rfl⟩

end SelectQuery

end PagedSearch
