/-!
# Bytes and characters

Texts travel as bytes of UTF-8.  Bytes that are no text are read leniently: each longest piece that
could have become a character, but did not, becomes one replacement character.

## Main definitions

* `utf8Bytes` — the bytes of a text.
* `Pending`, `pendingAfter?` — a character of which some bytes have been read.
* `decodeLossy` — the text of any bytes.
-/

namespace PagedSearch.Text

/-- The bytes of a character. -/
def utf8Char (c : Char) : List Nat :=
  let n := c.toNat
  if n < 0x80 then [n]
  else if n < 0x800 then [0xc0 + n / 64, 0x80 + n % 64]
  else if n < 0x10000 then [0xe0 + n / 4096, 0x80 + n / 64 % 64, 0x80 + n % 64]
  else [0xf0 + n / 262144, 0x80 + n / 4096 % 64, 0x80 + n / 64 % 64, 0x80 + n % 64]

/-- The bytes of a text. -/
def utf8Bytes (text : List Char) : List Nat := text.flatMap utf8Char

/-- The character that takes the place of bytes that are no text. -/
def replacement : Char := '\ufffd'

/-- A character of which some bytes have been read. -/
structure Pending where
  /-- How many bytes are missing; at least one. -/
  missing : Nat
  /-- The least next byte. -/
  least : Nat
  /-- The greatest next byte. -/
  greatest : Nat
  /-- The code that the bytes make so far. -/
  code : Nat
  deriving DecidableEq

/-- The character that starts with a byte above 0x7f, if one does. -/
def pendingAfter? (byte : Nat) : Option Pending :=
  if 0xc2 ≤ byte ∧ byte ≤ 0xdf then some ⟨1, 0x80, 0xbf, byte - 0xc0⟩
  else if byte = 0xe0 then some ⟨2, 0xa0, 0xbf, 0⟩
  else if byte = 0xed then some ⟨2, 0x80, 0x9f, 0xd⟩
  else if 0xe1 ≤ byte ∧ byte ≤ 0xef then some ⟨2, 0x80, 0xbf, byte - 0xe0⟩
  else if byte = 0xf0 then some ⟨3, 0x90, 0xbf, 0⟩
  else if 0xf1 ≤ byte ∧ byte ≤ 0xf3 then some ⟨3, 0x80, 0xbf, byte - 0xf0⟩
  else if byte = 0xf4 then some ⟨3, 0x80, 0x8f, 4⟩
  else none

/-- What a byte makes that starts something new: characters, and a character that goes on. -/
def startByte (byte : Nat) : List Char × Option Pending :=
  if byte < 0x80 then ([Char.ofNat byte], none)
  else
    match pendingAfter? byte with
    | some pending => ([], some pending)
    | none => ([replacement], none)

/-- What a byte makes behind a character of which some bytes have been read. -/
def nextByte (pending : Pending) (byte : Nat) : List Char × Option Pending :=
  if pending.least ≤ byte ∧ byte ≤ pending.greatest then
    let code := 64 * pending.code + (byte - 0x80)
    if pending.missing = 1 then ([Char.ofNat code], none)
    else ([], some ⟨pending.missing - 1, 0x80, 0xbf, code⟩)
  else
    let (text, next) := startByte byte
    (replacement :: text, next)

/-- The text of bytes behind a character of which some bytes may have been read. -/
def decodeFrom : Option Pending → List Nat → List Char
  | none, [] => []
  | some _, [] => [replacement]
  | none, byte :: bytes =>
    let (text, next) := startByte byte
    text ++ decodeFrom next bytes
  | some pending, byte :: bytes =>
    let (text, next) := nextByte pending byte
    text ++ decodeFrom next bytes

/-- The text of bytes, with a replacement character for each piece that is no text. -/
def decodeLossy (bytes : List Nat) : List Char := decodeFrom none bytes

end PagedSearch.Text
