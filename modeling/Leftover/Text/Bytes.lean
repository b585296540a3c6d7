/-
# Texts as bytes

The name of a file is a row of bytes. A text stands for the bytes of its characters in UTF-8, and a byte that
belongs to no character stands in a text as a code point of its own: the second half of a pair that comes `0xdc00`
after the byte.

* `Text.bytes?` : the bytes that a text stands for, if it stands for any
* `Text.ofBytes` : the text that stands for some bytes
* `Text.mended` : a text whose stray bytes are replaced by a mark
-/
import Leftover.Text

namespace Leftover

/-! ## Writing -/

/-- The byte that continues a character with the six bits that `n` ends with. -/
def continuation (n : Nat) : UInt8 := .ofNat (0x80 + n % 64)

namespace CodePoint

/-- The bytes of a character with a number. -/
def bytesOf (n : Nat) : List UInt8 :=
  if n < 0x80 then [.ofNat n]
  else if n < 0x800 then [.ofNat (0xc0 + n / 64), continuation n]
  else if n < 0x10000 then [.ofNat (0xe0 + n / 4096), continuation (n / 64), continuation n]
  else [.ofNat (0xf0 + n / 262144), continuation (n / 4096), continuation (n / 64), continuation n]

/-- The code point that a stray byte stands as. -/
def ofStray (b : UInt8) : CodePoint := .ofNat (0xdc00 + b.toNat)

/-- The bytes that a code point stands for: those of its character, or a stray byte beyond ASCII. -/
def bytes? (p : CodePoint) : Option (List UInt8) :=
  if p.toChar?.isSome then some (bytesOf p.val)
  else if 0xdc80 ≤ p.val && p.val ≤ 0xdcff then some [.ofNat (p.val - 0xdc00)]
  else none

end CodePoint

/-- The bytes that a text stands for, if it stands for any. -/
def Text.bytes? (t : Text) : Option (List UInt8) := (t.points.mapM CodePoint.bytes?).map List.flatten

/-! ## Reading -/

/-- A piece of a row of bytes: a character, or stray bytes that look like the beginning of one. -/
inductive BytePiece : Type where
  | point (p : CodePoint)
  | stray (bytes : List UInt8)

/-- The ranges in which the bytes after a first byte lie; none for a byte that no character begins with. -/
def followers? (first : UInt8) : Option (List (Nat × Nat)) :=
  let n := first.toNat
  if n < 0x80 then some []
  else if n < 0xc2 then none
  else if n < 0xe0 then some [(0x80, 0xbf)]
  else if n < 0xf0 then some [(if n = 0xe0 then 0xa0 else 0x80, if n = 0xed then 0x9f else 0xbf), (0x80, 0xbf)]
  else if n < 0xf5 then
    some [(if n = 0xf0 then 0x90 else 0x80, if n = 0xf4 then 0x8f else 0xbf), (0x80, 0xbf), (0x80, 0xbf)]
  else none

/-- The bytes at the head of a row that lie in the ranges, up to the first one that does not. -/
def takeFollowers : List (Nat × Nat) → List UInt8 → List UInt8
  | (least, most) :: ranges, b :: rest =>
    if least ≤ b.toNat && b.toNat ≤ most then b :: takeFollowers ranges rest else []
  | _, _ => []

/-- The code point of the bytes of one character. -/
def pointOfBytes (first : UInt8) (followers : List UInt8) : CodePoint :=
  let head := match followers.length with
    | 0 => first.toNat
    | 1 => first.toNat - 0xc0
    | 2 => first.toNat - 0xe0
    | _ => first.toNat - 0xf0
  .ofNat (followers.foldl (fun n b => 64 * n + (b.toNat - 0x80)) head)

/-- The pieces of a row of bytes. Each takes a byte at least, so the length of the row is enough fuel. -/
def piecesFrom : Nat → List UInt8 → List BytePiece
  | 0, _ => []
  | _ + 1, [] => []
  | fuel + 1, first :: rest =>
    match followers? first with
    | none => .stray [first] :: piecesFrom fuel rest
    | some ranges =>
      let found := takeFollowers ranges rest
      let piece := if found.length = ranges.length then .point (pointOfBytes first found) else .stray (first :: found)
      piece :: piecesFrom fuel (rest.drop found.length)

namespace Text

/-- A text from the pieces of a row of bytes; `strays` shows stray bytes. -/
def ofPieces (strays : List UInt8 → List CodePoint) (bytes : List UInt8) : Text :=
  ⟨(piecesFrom bytes.length bytes).flatMap fun
    | .point p => [p]
    | .stray bytes => strays bytes⟩

/-- The text that stands for some bytes. -/
def ofBytes (bytes : List UInt8) : Text := ofPieces (·.map .ofStray) bytes

/-- A text read again from its bytes, with one mark for what cannot be read; a text that stands for no bytes stays as
it is. -/
def mended (t : Text) : Text :=
  (t.bytes?.map fun bytes => ofPieces (fun _ => [.ofChar '\ufffd']) bytes).getD t

/-- The number of bytes that a text stands for; none if it stands for no bytes. -/
def byteLength (t : Text) : Nat := (t.bytes?.getD []).length

end Text

end Leftover
