import PagedSearch.Number.Shortest

/-!
# Filters

A filter is what a client writes to select rows: comparisons such as `title ~ 'lorem'`, joined by
`&&` and `||` and grouped with parentheses.  This module holds its tree.

Joins have no precedence.  Every group says how it is joined to the groups before it in the same
list, and the list is read from left to right; the join of the first group of a list is `and`.

## Main definitions

* `Join`, `Comparator` — the two joins and the eight comparison operators, with their symbols.
* `Operand`, `Comparison`, `Group` — the tree.
* `Operand.literal` — an operand as messages show it.
-/

namespace PagedSearch

/-- How a group is joined to the groups before it. -/
inductive Join where
  /-- Both must hold. -/
  | and
  /-- One must hold. -/
  | or
  deriving DecidableEq

/-- The symbol of a join. -/
def Join.symbol : Join → String
  | and => "&&"
  | or => "||"

/-- All joins. -/
def Join.all : List Join := [.and, .or]

/-- The comparison operators. -/
inductive Comparator where
  /-- `=` -/
  | equal
  /-- `!=` -/
  | notEqual
  /-- `~`: the left side contains the right side. -/
  | like
  /-- `!~`: it does not. -/
  | notLike
  /-- `<` -/
  | less
  /-- `<=` -/
  | lessEqual
  /-- `>` -/
  | greater
  /-- `>=` -/
  | greaterEqual
  deriving DecidableEq

namespace Comparator

/-- The symbol of a comparison operator. -/
def symbol : Comparator → String
  | equal => "="
  | notEqual => "!="
  | like => "~"
  | notLike => "!~"
  | less => "<"
  | lessEqual => "<="
  | greater => ">"
  | greaterEqual => ">="

/-- All comparison operators. -/
def all : List Comparator :=
  [equal, notEqual, like, notLike, less, lessEqual, greater, greaterEqual]

/-- The operator with the given symbol. -/
def ofSymbol? (symbol : String) : Option Comparator :=
  all.find? (·.symbol == symbol)

end Comparator

/-- One side of a comparison. -/
inductive Operand where
  /-- The name of a field, of a time, or of a constant. -/
  | identifier (name : String)
  /-- A quoted text. -/
  | text (content : String)
  /-- A number. -/
  | number (value : Double)
  /-- A function applied to operands. -/
  | call (name : String) (arguments : List Operand)

mutual

/-- An operand as the client wrote it, but for quotes and spaces. -/
def Operand.literal : Operand → String
  | .identifier name => name
  | .text content => content
  | .number value => value.text
  | .call name arguments => name ++ "(" ++ ", ".intercalate (Operand.literals arguments) ++ ")"

/-- The operands of a list, each as the client wrote it. -/
def Operand.literals : List Operand → List String
  | [] => []
  | operand :: rest => operand.literal :: Operand.literals rest

end

/-- Two operands and the operator between them. -/
structure Comparison where
  /-- The operand before the operator. -/
  left : Operand
  /-- The operator. -/
  comparator : Comparator
  /-- The operand after the operator. -/
  right : Operand

/-- A comparison as messages show it. -/
def Comparison.literal (c : Comparison) : String :=
  c.left.literal ++ " " ++ c.comparator.symbol ++ " " ++ c.right.literal

/-- A comparison or a parenthesised list of groups, with its join to the groups before it. -/
inductive Group where
  /-- A comparison. -/
  | comparison (join : Join) (comparison : Comparison)
  /-- A list of groups in parentheses. -/
  | nested (join : Join) (groups : List Group)

/-- How a group is joined to the groups before it. -/
def Group.join : Group → Join
  | .comparison join _ => join
  | .nested join _ => join

/-! ### Equality -/

mutual

/-- Operands can be compared. -/
def Operand.decidableEq : (a b : Operand) → Decidable (a = b)
  | .identifier m, .identifier n => if h : m = n then isTrue (h ▸ rfl) else isFalse (by simpa using h)
  | .text s, .text t => if h : s = t then isTrue (h ▸ rfl) else isFalse (by simpa using h)
  | .number v, .number w => if h : v = w then isTrue (h ▸ rfl) else isFalse (by simpa using h)
  | .call m as, .call n bs =>
    match decEq m n, Operand.decidableEqList as bs with
    | isTrue h, isTrue h' => isTrue (h ▸ h' ▸ rfl)
    | isFalse h, _ => isFalse (by simp [h])
    | _, isFalse h => isFalse (by simp [h])
  | .identifier _, .text _ | .identifier _, .number _ | .identifier _, .call .. => isFalse nofun
  | .text _, .identifier _ | .text _, .number _ | .text _, .call .. => isFalse nofun
  | .number _, .identifier _ | .number _, .text _ | .number _, .call .. => isFalse nofun
  | .call .., .identifier _ | .call .., .text _ | .call .., .number _ => isFalse nofun

/-- Lists of operands can be compared. -/
def Operand.decidableEqList : (as bs : List Operand) → Decidable (as = bs)
  | [], [] => isTrue rfl
  | a :: as, b :: bs =>
    match Operand.decidableEq a b, Operand.decidableEqList as bs with
    | isTrue h, isTrue h' => isTrue (h ▸ h' ▸ rfl)
    | isFalse h, _ => isFalse (by simp [h])
    | _, isFalse h => isFalse (by simp [h])
  | [], _ :: _ | _ :: _, [] => isFalse nofun

end

instance : DecidableEq Operand := Operand.decidableEq

deriving instance DecidableEq for Comparison

mutual

/-- Groups can be compared. -/
def Group.decidableEq : (a b : Group) → Decidable (a = b)
  | .comparison j c, .comparison k d =>
    match decEq j k, decEq c d with
    | isTrue h, isTrue h' => isTrue (h ▸ h' ▸ rfl)
    | isFalse h, _ => isFalse (by simp [h])
    | _, isFalse h => isFalse (by simp [h])
  | .nested j gs, .nested k hs =>
    match decEq j k, Group.decidableEqList gs hs with
    | isTrue h, isTrue h' => isTrue (h ▸ h' ▸ rfl)
    | isFalse h, _ => isFalse (by simp [h])
    | _, isFalse h => isFalse (by simp [h])
  | .comparison .., .nested .. | .nested .., .comparison .. => isFalse nofun

/-- Lists of groups can be compared. -/
def Group.decidableEqList : (as bs : List Group) → Decidable (as = bs)
  | [], [] => isTrue rfl
  | a :: as, b :: bs =>
    match Group.decidableEq a b, Group.decidableEqList as bs with
    | isTrue h, isTrue h' => isTrue (h ▸ h' ▸ rfl)
    | isFalse h, _ => isFalse (by simp [h])
    | _, isFalse h => isFalse (by simp [h])
  | [], _ :: _ | _ :: _, [] => isFalse nofun

end

instance : DecidableEq Group := Group.decidableEq

end PagedSearch
