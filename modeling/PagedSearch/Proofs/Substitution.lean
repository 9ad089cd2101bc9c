import PagedSearch.Proofs.Grammar

/-!
# Constants in the place of names

A name in a filter can be replaced by an atom, which is an operand of one lexeme: another name, a
quoted text or a number.  The grammar treats all atoms alike, so the tree that comes out is the tree
that was there, with the atoms in it; and a filter that has no tree does not get one.  The constants
are the atoms that are no numbers.

## Main definitions

* `Atom` — what can be put in the place of a name.
* `Lexeme.filled`, `Operand.filled`, `Group.filled` — lexemes and trees with atoms in the place of
  names.
* `Constant` — an atom that is no number.
* `Lexeme.replaced`, `Operand.replaced`, `Group.replaced` — lexemes and trees with constants in the
  place of names.

## Main results

* `isGroups_filled_iff` — what the grammar derives from the lexemes with the atoms.
* `parseLexemes_filled_iff` — what the parser makes of them.
* `parseLexemes_replaced_iff` — what the parser makes of lexemes with constants.
-/

namespace PagedSearch

/-- What can be put in the place of a name. -/
inductive Atom where
  /-- A name. -/
  | named (name : String)
  /-- A quoted text. -/
  | text (content : String)
  /-- A number. -/
  | number (value : Double)
  deriving DecidableEq

/-- An atom as a lexeme. -/
def Atom.lexeme : Atom → Lexeme
  | named name => .identifier name
  | text content => .text content
  | number value => .number value

/-- An atom as an operand. -/
def Atom.operand : Atom → Operand
  | named name => .identifier name
  | text content => .text content
  | number value => .number value

/-! ### Atoms in the place of names -/

section Filled

variable (atoms : String → Option Atom)

/-- A lexeme, or the atom that is to be put in its place. -/
def Lexeme.filled : Lexeme → Lexeme
  | .identifier name => ((atoms name).map Atom.lexeme).getD (.identifier name)
  | lexeme => lexeme

mutual

/-- An operand with atoms in the place of names. -/
def Operand.filled : Operand → Operand
  | .identifier name => ((atoms name).map Atom.operand).getD (.identifier name)
  | .call name arguments => .call name (Operand.allFilled arguments)
  | operand => operand

/-- Operands with atoms in the place of names. -/
def Operand.allFilled : List Operand → List Operand
  | [] => []
  | operand :: rest => operand.filled :: Operand.allFilled rest

end

/-- A comparison with atoms in the place of names. -/
def Comparison.filled (c : Comparison) : Comparison :=
  { c with left := c.left.filled atoms, right := c.right.filled atoms }

mutual

/-- A group with atoms in the place of names. -/
def Group.filled : Group → Group
  | .comparison join c => .comparison join (c.filled atoms)
  | .nested join groups => .nested join (Group.allFilled groups)

/-- Groups with atoms in the place of names. -/
def Group.allFilled : List Group → List Group
  | [] => []
  | group :: rest => group.filled :: Group.allFilled rest

end

/-- Whether a lexeme is an operand by itself. -/
def Lexeme.isOperand : Lexeme → Bool
  | .identifier _ | .text _ | .number _ => true
  | _ => false

variable {atoms}

/-- Only names are filled, and only by operands. -/
theorem Lexeme.eq_of_filled_eq {lexeme mark : Lexeme} (h : lexeme.filled atoms = mark)
    (hmark : mark.isOperand = false) : lexeme = mark := by
  cases lexeme with
  | identifier name =>
    cases hname : atoms name with
    | none => simpa [Lexeme.filled, hname] using h
    | some atom =>
      obtain rfl : atom.lexeme = mark := by simpa [Lexeme.filled, hname] using h
      cases atom <;> simp [Atom.lexeme, Lexeme.isOperand] at hmark
  | _ => exact h

namespace Parsing

/-! ### Derivations with atoms -/

/-- A name is an operand, and so is what takes its place. -/
theorem isOperand_filled_identifier (name : String) :
    IsOperand [(Lexeme.identifier name).filled atoms]
      ((Operand.identifier name).filled atoms) := by
  simp only [Lexeme.filled, Operand.filled]
  cases atoms name with
  | none => exact .identifier name
  | some atom =>
    cases atom with
    | named other => exact .identifier other
    | text content => exact .text content
    | number value => exact .number value

mutual

theorem IsOperand.filled {lexemes : List Lexeme} {operand : Operand}
    (h : IsOperand lexemes operand) :
    IsOperand (lexemes.map (Lexeme.filled atoms)) (operand.filled atoms) := by
  cases h with
  | identifier name => exact isOperand_filled_identifier name
  | text content => exact .text content
  | number value => exact .number value
  | callEmpty name => exact .callEmpty name
  | call name hoperands =>
    rw [List.map_cons, List.map_append]
    exact .call name hoperands.filled

theorem IsOperands.filled {lexemes : List Lexeme} {operands : List Operand}
    (h : IsOperands lexemes operands) :
    IsOperands (lexemes.map (Lexeme.filled atoms))
      (Operand.allFilled atoms operands) := by
  cases h with
  | last hoperand => exact .last hoperand.filled
  | more hoperand hrest =>
    rw [List.map_append, List.map_cons]
    exact .more hoperand.filled hrest.filled

end

mutual

theorem IsItem.filled {join : Join} {lexemes : List Lexeme} {group : Group}
    (h : IsItem join lexemes group) :
    IsItem join (lexemes.map (Lexeme.filled atoms)) (group.filled atoms) := by
  cases h with
  | comparison _ comparator hleft hright =>
    rw [List.map_append, List.map_cons]
    exact .comparison join comparator hleft.filled hright.filled
  | nested _ hgroups =>
    rw [List.map_cons, List.map_append]
    exact .nested join hgroups.filled

theorem IsGroups.filled {join : Join} {lexemes : List Lexeme} {groups : List Group}
    (h : IsGroups join lexemes groups) :
    IsGroups join (lexemes.map (Lexeme.filled atoms))
      (Group.allFilled atoms groups) := by
  cases h with
  | last hitem => exact .last hitem.filled
  | more hitem hrest =>
    rw [List.map_append, List.map_cons]
    exact .more hitem.filled hrest.filled

end

/-! ### Derivations of what atoms were put in -/

/-- What a lexeme becomes is an operand only if the lexeme was one. -/
theorem exists_isOperand_of_filled {lexeme : Lexeme} {operand : Operand}
    (h : IsOperand [lexeme.filled atoms] operand) :
    ∃ origin, IsOperand [lexeme] origin ∧ origin.filled atoms = operand := by
  cases lexeme with
  | identifier name =>
    refine ⟨.identifier name, .identifier name, ?_⟩
    simp only [Lexeme.filled] at h
    simp only [Operand.filled]
    generalize atoms name = found at h
    rcases found with _ | _ | _ | _ <;> cases h <;> rfl
  | text content =>
    cases h
    exact ⟨.text content, .text content, rfl⟩
  | number value =>
    cases h
    exact ⟨.number value, .number value, rfl⟩
  | callStart name =>
    -- Behind the start of a call at least its end is still to come.
    generalize hlexemes : [(Lexeme.callStart name).filled atoms] = lexemes at h
    cases h <;> simp [Lexeme.filled] at hlexemes
  | comparator _ | join _ | openParen | closeParen | comma => cases h

mutual

/-- The operand that was there before atoms were put in. -/
theorem IsOperand.exists_of_filled {found lexemes : List Lexeme} {operand : Operand}
    (h : IsOperand found operand) (hfound : lexemes.map (Lexeme.filled atoms) = found) :
    ∃ origin, IsOperand lexemes origin ∧ origin.filled atoms = operand := by
  cases h with
  | identifier name =>
    obtain ⟨lexeme, rfl, hlexeme⟩ := List.map_eq_singleton_iff.mp hfound
    exact exists_isOperand_of_filled (hlexeme ▸ .identifier name)
  | text content =>
    obtain ⟨lexeme, rfl, hlexeme⟩ := List.map_eq_singleton_iff.mp hfound
    exact exists_isOperand_of_filled (hlexeme ▸ .text content)
  | number value =>
    obtain ⟨lexeme, rfl, hlexeme⟩ := List.map_eq_singleton_iff.mp hfound
    exact exists_isOperand_of_filled (hlexeme ▸ .number value)
  | callEmpty name =>
    obtain ⟨start, rest, rfl, hstart, hrest⟩ := List.map_eq_cons_iff.mp hfound
    obtain ⟨mark, rfl, hmark⟩ := List.map_eq_singleton_iff.mp hrest
    obtain rfl := Lexeme.eq_of_filled_eq hstart rfl
    obtain rfl := Lexeme.eq_of_filled_eq hmark rfl
    exact ⟨.call name [], .callEmpty name, rfl⟩
  | call name hoperands =>
    obtain ⟨start, rest, rfl, hstart, hrest⟩ := List.map_eq_cons_iff.mp hfound
    obtain ⟨inner, last, rfl, hinner, hlast⟩ := List.map_eq_append_iff.mp hrest
    obtain ⟨mark, rfl, hmark⟩ := List.map_eq_singleton_iff.mp hlast
    obtain rfl := Lexeme.eq_of_filled_eq hstart rfl
    obtain rfl := Lexeme.eq_of_filled_eq hmark rfl
    obtain ⟨origins, horigins, rfl⟩ := hoperands.exists_of_filled hinner
    exact ⟨.call name origins, .call name horigins, rfl⟩

/-- The operands that were there before atoms were put in. -/
theorem IsOperands.exists_of_filled {found lexemes : List Lexeme} {operands : List Operand}
    (h : IsOperands found operands) (hfound : lexemes.map (Lexeme.filled atoms) = found) :
    ∃ origins, IsOperands lexemes origins ∧ Operand.allFilled atoms origins = operands := by
  cases h with
  | last hoperand =>
    obtain ⟨origin, horigin, rfl⟩ := hoperand.exists_of_filled hfound
    exact ⟨[origin], .last horigin, rfl⟩
  | more hoperand hrest =>
    obtain ⟨before, after, rfl, hbefore, hafter⟩ := List.map_eq_append_iff.mp hfound
    obtain ⟨mark, later, rfl, hmark, hlater⟩ := List.map_eq_cons_iff.mp hafter
    obtain rfl := Lexeme.eq_of_filled_eq hmark rfl
    obtain ⟨origin, horigin, rfl⟩ := hoperand.exists_of_filled hbefore
    obtain ⟨origins, horigins, rfl⟩ := hrest.exists_of_filled hlater
    exact ⟨origin :: origins, .more horigin horigins, rfl⟩

end

mutual

/-- The group that was there before atoms were put in. -/
theorem IsItem.exists_of_filled {join : Join} {found lexemes : List Lexeme} {group : Group}
    (h : IsItem join found group) (hfound : lexemes.map (Lexeme.filled atoms) = found) :
    ∃ origin, IsItem join lexemes origin ∧ origin.filled atoms = group := by
  cases h with
  | comparison _ comparator hleft hright =>
    obtain ⟨before, after, rfl, hbefore, hafter⟩ := List.map_eq_append_iff.mp hfound
    obtain ⟨mark, later, rfl, hmark, hlater⟩ := List.map_eq_cons_iff.mp hafter
    obtain rfl := Lexeme.eq_of_filled_eq hmark rfl
    obtain ⟨left, hleft', rfl⟩ := hleft.exists_of_filled hbefore
    obtain ⟨right, hright', rfl⟩ := hright.exists_of_filled hlater
    exact ⟨.comparison join { left, comparator, right },
      .comparison join comparator hleft' hright', rfl⟩
  | nested _ hgroups =>
    obtain ⟨start, rest, rfl, hstart, hrest⟩ := List.map_eq_cons_iff.mp hfound
    obtain ⟨inner, last, rfl, hinner, hlast⟩ := List.map_eq_append_iff.mp hrest
    obtain ⟨mark, rfl, hmark⟩ := List.map_eq_singleton_iff.mp hlast
    obtain rfl := Lexeme.eq_of_filled_eq hstart rfl
    obtain rfl := Lexeme.eq_of_filled_eq hmark rfl
    obtain ⟨origins, horigins, rfl⟩ := hgroups.exists_of_filled hinner
    exact ⟨.nested join origins, .nested join horigins, rfl⟩

/-- The groups that were there before atoms were put in. -/
theorem IsGroups.exists_of_filled {join : Join} {found lexemes : List Lexeme}
    {groups : List Group} (h : IsGroups join found groups)
    (hfound : lexemes.map (Lexeme.filled atoms) = found) :
    ∃ origins, IsGroups join lexemes origins ∧ Group.allFilled atoms origins = groups := by
  cases h with
  | last hitem =>
    obtain ⟨origin, horigin, rfl⟩ := hitem.exists_of_filled hfound
    exact ⟨[origin], .last horigin, rfl⟩
  | more hitem hrest =>
    obtain ⟨before, after, rfl, hbefore, hafter⟩ := List.map_eq_append_iff.mp hfound
    obtain ⟨mark, later, rfl, hmark, hlater⟩ := List.map_eq_cons_iff.mp hafter
    obtain rfl := Lexeme.eq_of_filled_eq hmark rfl
    obtain ⟨origin, horigin, rfl⟩ := hitem.exists_of_filled hbefore
    obtain ⟨origins, horigins, rfl⟩ := hrest.exists_of_filled hlater
    exact ⟨origin :: origins, .more horigin horigins, rfl⟩

end

/-- The grammar derives from lexemes with atoms what it derives from the lexemes, with the
atoms in it. -/
theorem isGroups_filled_iff {join : Join} {lexemes : List Lexeme} {groups : List Group} :
    IsGroups join (lexemes.map (Lexeme.filled atoms)) groups ↔
      ∃ origins, IsGroups join lexemes origins ∧ groups = Group.allFilled atoms origins := by
  constructor
  · intro h
    obtain ⟨origins, horigins, heq⟩ := h.exists_of_filled rfl
    exact ⟨origins, horigins, heq.symm⟩
  · rintro ⟨origins, horigins, rfl⟩
    exact horigins.filled

/-- The parser makes of lexemes with atoms what it makes of the lexemes, with the atoms in
it, wherever the lexemes stand. -/
theorem parseLexemes_filled_iff {found origin : List Located}
    {ending originEnding : Except ParseError Nat} {groups : List Group}
    (hfound : found.map Located.lexeme =
      (origin.map Located.lexeme).map (Lexeme.filled atoms))
    (hending : (∃ position, ending = .ok position) ↔ ∃ position, originEnding = .ok position) :
    parseLexemes found ending = .ok groups ↔
      ∃ tree, parseLexemes origin originEnding = .ok tree ∧
        groups = Group.allFilled atoms tree := by
  have hempty : found = [] ↔ origin = [] := by
    rw [← List.map_eq_nil_iff (f := Located.lexeme), hfound, List.map_eq_nil_iff,
      List.map_eq_nil_iff]
  simp only [parseLexemes_eq_ok_iff, hending, hempty, hfound, isGroups_filled_iff]
  constructor
  · rintro ⟨hstop, ⟨hnone, rfl⟩ | ⟨tree, htree, rfl⟩⟩
    · exact ⟨[], ⟨hstop, .inl ⟨hnone, rfl⟩⟩, rfl⟩
    · exact ⟨tree, ⟨hstop, .inr htree⟩, rfl⟩
  · rintro ⟨tree, ⟨hstop, ⟨hnone, rfl⟩ | htree⟩, rfl⟩
    · exact ⟨hstop, .inl ⟨hnone, rfl⟩⟩
    · exact ⟨hstop, .inr ⟨tree, htree, rfl⟩⟩

end Parsing

end Filled

/-! ### Constants in the place of names -/

/-- What can be put in the place of a name, apart from numbers. -/
inductive Constant where
  /-- A name. -/
  | named (name : String)
  /-- A quoted text. -/
  | text (content : String)
  deriving DecidableEq

/-- A constant as a lexeme. -/
def Constant.lexeme : Constant → Lexeme
  | named name => .identifier name
  | text content => .text content

/-- A constant as an operand. -/
def Constant.operand : Constant → Operand
  | named name => .identifier name
  | text content => .text content

/-- A constant as an atom. -/
def Constant.atom : Constant → Atom
  | named name => .named name
  | text content => .text content

section Replaced

variable (constants : String → Option Constant)

/-- A lexeme, or the constant that is to be put in its place. -/
def Lexeme.replaced : Lexeme → Lexeme
  | .identifier name => ((constants name).map Constant.lexeme).getD (.identifier name)
  | lexeme => lexeme

mutual

/-- An operand with constants in the place of names. -/
def Operand.replaced : Operand → Operand
  | .identifier name => ((constants name).map Constant.operand).getD (.identifier name)
  | .call name arguments => .call name (Operand.allReplaced arguments)
  | operand => operand

/-- Operands with constants in the place of names. -/
def Operand.allReplaced : List Operand → List Operand
  | [] => []
  | operand :: rest => operand.replaced :: Operand.allReplaced rest

end

/-- A comparison with constants in the place of names. -/
def Comparison.replaced (c : Comparison) : Comparison :=
  { c with left := c.left.replaced constants, right := c.right.replaced constants }

mutual

/-- A group with constants in the place of names. -/
def Group.replaced : Group → Group
  | .comparison join c => .comparison join (c.replaced constants)
  | .nested join groups => .nested join (Group.allReplaced groups)

/-- Groups with constants in the place of names. -/
def Group.allReplaced : List Group → List Group
  | [] => []
  | group :: rest => group.replaced :: Group.allReplaced rest

end

variable {constants}

/-! ### Constants are atoms -/

theorem Constant.lexeme_atom (constant : Constant) : constant.atom.lexeme = constant.lexeme := by
  cases constant <;> rfl

theorem Constant.operand_atom (constant : Constant) :
    constant.atom.operand = constant.operand := by
  cases constant <;> rfl

variable {atoms : String → Option Atom}

theorem Lexeme.replaced_eq_filled
    (h : ∀ name, atoms name = (constants name).map Constant.atom) (lexeme : Lexeme) :
    lexeme.replaced constants = lexeme.filled atoms := by
  cases lexeme with
  | identifier name =>
    rw [Lexeme.replaced, Lexeme.filled, h, Option.map_map]
    cases constants name with
    | none => rfl
    | some constant => exact constant.lexeme_atom.symm
  | _ => rfl

mutual

theorem Operand.replaced_eq_filled
    (h : ∀ name, atoms name = (constants name).map Constant.atom) (operand : Operand) :
    operand.replaced constants = operand.filled atoms := by
  cases operand with
  | identifier name =>
    rw [Operand.replaced, Operand.filled, h, Option.map_map]
    cases constants name with
    | none => rfl
    | some constant => exact constant.operand_atom.symm
  | call name arguments =>
    rw [Operand.replaced, Operand.filled, Operand.allReplaced_eq_allFilled h arguments]
  | _ => rfl

theorem Operand.allReplaced_eq_allFilled
    (h : ∀ name, atoms name = (constants name).map Constant.atom) (operands : List Operand) :
    Operand.allReplaced constants operands = Operand.allFilled atoms operands := by
  cases operands with
  | nil => rfl
  | cons operand rest =>
    rw [Operand.allReplaced, Operand.allFilled, Operand.replaced_eq_filled h operand,
      Operand.allReplaced_eq_allFilled h rest]

end

mutual

theorem Group.replaced_eq_filled
    (h : ∀ name, atoms name = (constants name).map Constant.atom) (group : Group) :
    group.replaced constants = group.filled atoms := by
  cases group with
  | comparison join c =>
    rw [Group.replaced, Group.filled, Comparison.replaced, Comparison.filled,
      Operand.replaced_eq_filled h, Operand.replaced_eq_filled h]
  | nested join groups =>
    rw [Group.replaced, Group.filled, Group.allReplaced_eq_allFilled h groups]

theorem Group.allReplaced_eq_allFilled
    (h : ∀ name, atoms name = (constants name).map Constant.atom) (groups : List Group) :
    Group.allReplaced constants groups = Group.allFilled atoms groups := by
  cases groups with
  | nil => rfl
  | cons group rest =>
    rw [Group.allReplaced, Group.allFilled, Group.replaced_eq_filled h group,
      Group.allReplaced_eq_allFilled h rest]

end

/-- The parser makes of lexemes with constants what it makes of the lexemes, with the constants in
it, wherever the lexemes stand. -/
theorem Parsing.parseLexemes_replaced_iff {found origin : List Located}
    {ending originEnding : Except ParseError Nat} {groups : List Group}
    (hfound : found.map Located.lexeme =
      (origin.map Located.lexeme).map (Lexeme.replaced constants))
    (hending : (∃ position, ending = .ok position) ↔ ∃ position, originEnding = .ok position) :
    parseLexemes found ending = .ok groups ↔
      ∃ tree, parseLexemes origin originEnding = .ok tree ∧
        groups = Group.allReplaced constants tree := by
  have hatoms (name : String) :
      (constants name).map Constant.atom = (constants name).map Constant.atom := rfl
  simp only [Group.allReplaced_eq_allFilled hatoms]
  refine parseLexemes_filled_iff ?_ hending
  rw [hfound]
  exact List.map_congr_left fun lexeme _ => lexeme.replaced_eq_filled hatoms

end Replaced

end PagedSearch
