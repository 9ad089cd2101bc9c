import PagedSearch.Proofs.Grammar
import PagedSearch.Proofs.Lexemes

/-!
# The language of filters

A filter is accepted exactly when its text splits into lexemes that the grammar derives, and its
tree is the tree of the derivation.

## Main definitions

* `Operand.lexemes`, `Group.lexemes` — a tree written out as lexemes.
* `IsProper`, `AreProper` — no parentheses are empty, and the first group of each level carries
  `and`.
* `Derives` — the language of filters.

## Main results

* `IsGroups.lexemes_eq`, `IsGroups.areProper` — what the tree of a derivation looks like.
* `parse_eq_ok_iff_derives` — `parse` accepts the language, and nothing else.
-/

namespace PagedSearch

/-! ### Trees written out -/

mutual

/-- The lexemes of an operand. -/
def Operand.lexemes : Operand → List Lexeme
  | .identifier name => [.identifier name]
  | .text content => [.text content]
  | .number value => [.number value]
  | .call name [] => [.callStart name, .closeParen]
  | .call name (first :: rest) =>
    .callStart name :: (first.lexemes ++ Operand.laterLexemes rest ++ [.closeParen])

/-- The lexemes of operands behind others, each with a comma before it. -/
def Operand.laterLexemes : List Operand → List Lexeme
  | [] => []
  | first :: rest => .comma :: (first.lexemes ++ Operand.laterLexemes rest)

end

mutual

/-- The lexemes of a group, without its join. -/
def Group.lexemes : Group → List Lexeme
  | .comparison _ c => c.left.lexemes ++ .comparator c.comparator :: c.right.lexemes
  | .nested _ [] => [.openParen, .closeParen]
  | .nested _ (first :: rest) =>
    .openParen :: (first.lexemes ++ Group.laterLexemes rest ++ [.closeParen])

/-- The lexemes of groups behind others, each with its join before it. -/
def Group.laterLexemes : List Group → List Lexeme
  | [] => []
  | first :: rest => .join first.join :: (first.lexemes ++ Group.laterLexemes rest)

end

/-- The lexemes of a list of groups: each group but the first has its join before it. -/
def Group.rowLexemes : List Group → List Lexeme
  | [] => []
  | first :: rest => first.lexemes ++ Group.laterLexemes rest

mutual

/-- A group has no empty parentheses in it, and the first group of each level carries `and`. -/
inductive IsProper : Group → Prop where
  /-- A comparison. -/
  | comparison (join : Join) (comparison : Comparison) : IsProper (.comparison join comparison)
  /-- A list of groups in parentheses. -/
  | nested (join : Join) {groups : List Group} :
    groups ≠ [] → AreProper groups → IsProper (.nested join groups)

/-- The first group of a list carries `and`, and each group is proper. -/
inductive AreProper : List Group → Prop where
  /-- No groups. -/
  | nil : AreProper []
  /-- Some groups. -/
  | cons {first : Group} {rest : List Group} :
    first.join = .and → (∀ group ∈ first :: rest, IsProper group) → AreProper (first :: rest)

end

namespace Parsing

mutual

/-- The tree of an operand, written out, is what it was derived from. -/
theorem IsOperand.lexemes_eq {lexemes : List Lexeme} {operand : Operand}
    (h : IsOperand lexemes operand) : lexemes = operand.lexemes := by
  cases h with
  | identifier name => rfl
  | text content => rfl
  | number value => rfl
  | callEmpty name => rfl
  | call name hoperands =>
    obtain ⟨first, rest, rfl, rfl⟩ := hoperands.lexemes_eq
    rfl

/-- The trees of operands, written out, are what they were derived from. -/
theorem IsOperands.lexemes_eq {lexemes : List Lexeme} {operands : List Operand}
    (h : IsOperands lexemes operands) :
    ∃ first rest, operands = first :: rest ∧
      lexemes = first.lexemes ++ Operand.laterLexemes rest := by
  cases h with
  | @last _ operand hoperand =>
    exact ⟨operand, [], rfl, by simp [hoperand.lexemes_eq, Operand.laterLexemes]⟩
  | @more _ _ operand operands hoperand hrest =>
    obtain ⟨first, rest, rfl, rfl⟩ := hrest.lexemes_eq
    exact ⟨operand, first :: rest, rfl, by rw [hoperand.lexemes_eq, Operand.laterLexemes]⟩

end

mutual

/-- The tree of an item, written out, is what it was derived from. -/
theorem IsItem.lexemes_eq {join : Join} {lexemes : List Lexeme} {group : Group}
    (h : IsItem join lexemes group) : group.join = join ∧ lexemes = group.lexemes := by
  cases h with
  | comparison _ comparator hleft hright =>
    exact ⟨rfl, by rw [hleft.lexemes_eq, hright.lexemes_eq, Group.lexemes]⟩
  | nested _ hgroups =>
    obtain ⟨first, rest, rfl, -, rfl⟩ := hgroups.lexemes_eq
    exact ⟨rfl, by rw [Group.lexemes]⟩

/-- The tree of a list of groups, written out, is what it was derived from. -/
theorem IsGroups.lexemes_eq {join : Join} {lexemes : List Lexeme} {groups : List Group}
    (h : IsGroups join lexemes groups) :
    ∃ first rest, groups = first :: rest ∧ first.join = join ∧
      lexemes = first.lexemes ++ Group.laterLexemes rest := by
  cases h with
  | @last _ _ group hitem =>
    obtain ⟨hjoin, rfl⟩ := hitem.lexemes_eq
    exact ⟨group, [], rfl, hjoin, by simp [Group.laterLexemes]⟩
  | @more _ _ _ _ group groups hitem hrest =>
    obtain ⟨hjoin, rfl⟩ := hitem.lexemes_eq
    obtain ⟨first, rest, rfl, rfl, rfl⟩ := hrest.lexemes_eq
    exact ⟨group, first :: rest, rfl, hjoin, by rw [Group.laterLexemes]⟩

end

mutual

theorem IsItem.isProper {join : Join} {lexemes : List Lexeme} {group : Group}
    (h : IsItem join lexemes group) : IsProper group := by
  cases h with
  | comparison _ _ _ _ => exact .comparison _ _
  | nested _ hgroups =>
    -- The grammar derives no empty list, so the parentheses have a first group.
    have hproper := hgroups.forall_isProper
    obtain ⟨first, rest, rfl, hjoin, -⟩ := hgroups.lexemes_eq
    exact .nested _ (List.cons_ne_nil _ _) (.cons hjoin hproper)

theorem IsGroups.forall_isProper {join : Join} {lexemes : List Lexeme} {groups : List Group}
    (h : IsGroups join lexemes groups) : ∀ group ∈ groups, IsProper group := by
  cases h with
  | last hitem =>
    have hproper := hitem.isProper
    intro group hmem
    obtain rfl := List.mem_singleton.mp hmem
    exact hproper
  | more hitem hrest =>
    have hproper := hitem.isProper
    have hproper' := hrest.forall_isProper
    intro group hmem
    rcases List.mem_cons.mp hmem with rfl | hmem
    · exact hproper
    · exact hproper' group hmem

end

/-- The tree of a derivation is proper on all its levels. -/
theorem IsGroups.areProper {lexemes : List Lexeme} {groups : List Group}
    (h : IsGroups .and lexemes groups) : AreProper groups := by
  obtain ⟨first, rest, rfl, hjoin, -⟩ := h.lexemes_eq
  exact .cons hjoin h.forall_isProper

end Parsing

/-! ### The language -/

/-- `Derives filter groups` says that the text of `filter` splits into lexemes, and that there are
none of them, or the grammar derives them with the tree `groups`. -/
def Derives (filter : String) (groups : List Group) : Prop :=
  ∃ lexemes, Lexing.Splits filter.toList lexemes ∧
    (lexemes = [] ∧ groups = [] ∨ Parsing.IsGroups .and lexemes groups)

/-- The parser accepts the language of filters. -/
theorem parse_eq_ok_iff {filter : String} {groups : List Group} :
    parse filter = .ok groups ↔ Derives filter groups := by
  unfold parse Derives
  dsimp only
  rw [Parsing.parseLexemes_eq_ok_iff]
  constructor
  · rintro ⟨⟨stop, hstop⟩, h⟩
    refine ⟨_, Lexing.splits_iff.mpr ⟨_, stop, Prod.ext rfl hstop, rfl⟩, ?_⟩
    rwa [List.map_eq_nil_iff]
  · rintro ⟨lexemes, hsplits, h⟩
    obtain ⟨found, stop, hlex, rfl⟩ := Lexing.splits_iff.mp hsplits
    rw [List.map_eq_nil_iff] at h
    rw [hlex]
    exact ⟨⟨stop, rfl⟩, h⟩

/-- A text of white space splits into no lexemes. -/
theorem splits_of_isBlank {text : List Char} (h : ∀ c ∈ text, Text.isBlank c = true) :
    Lexing.Splits text [] := by
  induction text with
  | nil => exact .nil
  | cons c rest ih =>
    have hread : Lexing.readPiece c rest = (.blank, 0) := by
      simp [Lexing.readPiece, h c List.mem_cons_self]
    -- Each blank is a stretch by itself, whatever is behind it.
    have hlongest : Lexing.IsLongest ([c] ++ rest) [c] .blank := by
      have hpiece : Lexing.Stretch.blank.piece? = some (Lexing.readPiece c rest).1 := by
        rw [hread]
        rfl
      have hlongest := Lexing.isLongest_readPiece hpiece
      rwa [hread] at hlongest
    exact .blank hlongest (ih fun d hd => h d (List.mem_cons_of_mem c hd))

/-- `parse` accepts the language of filters and nothing else.  The tree of a filter is the only one
that it can have; written out, with the join of each group before it, it is the filter again, as a
list of lexemes; and it is proper on all its levels.  A blank filter has no groups. -/
theorem parse_eq_ok_iff_derives (filter : String) :
    (∀ groups, parse filter = .ok groups ↔ Derives filter groups) ∧
      (∀ groups, Derives filter groups →
        (∀ other, Derives filter other → other = groups) ∧
          Lexing.Splits filter.toList (Group.rowLexemes groups) ∧ AreProper groups) ∧
      ((∀ c ∈ filter.toList, Text.isBlank c = true) → parse filter = .ok []) := by
  refine ⟨fun _ => parse_eq_ok_iff, ?_, ?_⟩
  · intro groups hgroups
    refine ⟨?_, ?_⟩
    · -- the parser is a function, so what it accepts has one tree
      intro other hother
      have hparse := (parse_eq_ok_iff.mpr hother).symm.trans (parse_eq_ok_iff.mpr hgroups)
      exact Except.ok.inj hparse
    · obtain ⟨lexemes, hsplits, ⟨rfl, rfl⟩ | hderived⟩ := hgroups
      · exact ⟨hsplits, .nil⟩
      · refine ⟨?_, hderived.areProper⟩
        obtain ⟨first, rest, rfl, -, rfl⟩ := hderived.lexemes_eq
        exact hsplits
  · intro hblank
    exact parse_eq_ok_iff.mpr ⟨[], splits_of_isBlank hblank, .inl ⟨rfl, rfl⟩⟩

end PagedSearch
