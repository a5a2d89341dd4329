/-!
# Reading bytes as text, with replacement

Bytes are read as UTF-8.  A byte that starts no character is replaced by `U+FFFD`, and so is a
character that breaks off, all of its bytes up to the first one that cannot continue it counting
as one; reading goes on with that byte.  A lead byte narrows the range of the byte after it, which
excludes overlong forms, surrogates and code points above `U+10FFFF`.
-/

namespace Backbone.Text

/-- The character that stands for bytes which are no text. -/
def replacement : Char := '\uFFFD'

/-- A character of which the first bytes are read. -/
structure Unfinished where
  /-- The bits read so far. -/
  bits : Nat
  /-- The number of bytes still to come. -/
  missing : Nat
  /-- The smallest byte that may come next. -/
  low : Nat
  /-- The largest byte that may come next. -/
  high : Nat

/-- The character that a lead byte begins. -/
def Unfinished.ofLead? (byte : Nat) : Option Unfinished :=
  if 0xc2 ≤ byte && byte ≤ 0xdf then some ⟨byte - 0xc0, 1, 0x80, 0xbf⟩
  else if byte == 0xe0 then some ⟨0, 2, 0xa0, 0xbf⟩
  else if byte == 0xed then some ⟨0xd, 2, 0x80, 0x9f⟩
  else if 0xe1 ≤ byte && byte ≤ 0xef then some ⟨byte - 0xe0, 2, 0x80, 0xbf⟩
  else if byte == 0xf0 then some ⟨0, 3, 0x90, 0xbf⟩
  else if 0xf1 ≤ byte && byte ≤ 0xf3 then some ⟨byte - 0xf0, 3, 0x80, 0xbf⟩
  else if byte == 0xf4 then some ⟨4, 3, 0x80, 0x8f⟩
  else none

/-- The text of a byte at which no character is open: what it writes and what it opens. -/
def startCharacter (byte : Nat) : List Char × Option Unfinished :=
  if byte < 0x80 then ([Char.ofNat byte], none)
  else match Unfinished.ofLead? byte with
    | some opened => ([], some opened)
    | none => ([replacement], none)

/-- One more byte: what it writes and what is open after it. -/
def nextByte (current : Option Unfinished) (byte : Nat) : List Char × Option Unfinished :=
  match current with
  | none => startCharacter byte
  | some u =>
    if u.low ≤ byte && byte ≤ u.high then
      let bits := u.bits * 64 + (byte - 0x80)
      if u.missing ≤ 1 then ([Char.ofNat bits], none)
      else ([], some ⟨bits, u.missing - 1, 0x80, 0xbf⟩)
    else
      let (written, opened) := startCharacter byte
      (replacement :: written, opened)

/-- The text of the bytes that follow, given the character that is open. -/
def decodeFrom : Option Unfinished → List UInt8 → List Char
  | none, [] => []
  | some _, [] => [replacement]
  | current, byte :: bytes =>
    let (written, opened) := nextByte current byte.toNat
    written ++ decodeFrom opened bytes

/-- The text of a list of bytes. -/
def decodeLossy (bytes : List UInt8) : List Char := decodeFrom none bytes

end Backbone.Text
