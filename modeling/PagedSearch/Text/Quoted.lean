import PagedSearch.Text.Character
import PagedSearch.Text.Hex

/-!
# Quoted text

How a message shows a text: between quotes, with everything that a reader could not see or could
mistake for a quote written as an escape.

## Main definitions

* `escape` — one character inside a given quote.
* `quoted`, `quotedChar` — a text between double quotes, a character between single quotes.
-/

namespace PagedSearch.Text

/-- How `c` is written between two `quote`s. -/
def escape (quote c : Char) : List Char :=
  if c = '\x00' then ['\\', '0']
  else if c = '\t' then ['\\', 't']
  else if c = '\r' then ['\\', 'r']
  else if c = '\n' then ['\\', 'n']
  else if c = '\\' || c = quote then ['\\', c]
  else if isGraphemeExtend c || !isPrintable c then
    ['\\', 'u', '\x7b'] ++ hexDigits c.toNat ++ ['\x7d']
  else [c]

/-- A text between double quotes. -/
def quoted (text : String) : String :=
  String.ofList ('"' :: text.toList.flatMap (escape '"') ++ ['"'])

/-- A character between single quotes. -/
def quotedChar (c : Char) : String :=
  String.ofList ('\'' :: escape '\'' c ++ ['\''])

end PagedSearch.Text
