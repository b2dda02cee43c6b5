import Turtle.Text.Graphic
import Turtle.Text.Utf8

/-! Text in double quotes on one line.
Quotes, backslashes and the usual controls have escapes of their own; characters without a glyph
are written by code point, and bytes that are no text by value. -/
namespace Turtle.Text

def hexDigits (n : Nat) : List Char := Nat.toDigits 16 n

def escaped (c : Char) : List Char :=
  match c with
  | '\x00' => ['\\', '0']
  | '\t' => ['\\', 't']
  | '\n' => ['\\', 'n']
  | '\r' => ['\\', 'r']
  | '"' => ['\\', '"']
  | '\\' => ['\\', '\\']
  | _ =>
    if (0x20 ≤ c.toNat ∧ c.toNat < 0x7F) ∨ (0x7F ≤ c.toNat ∧ isGraphic c) then [c]
    else '\\' :: 'u' :: '\x7b' :: hexDigits c.toNat ++ ['\x7d']

def escapedByte (b : UInt8) : List Char :=
  let digits := (hexDigits b.toNat).map Char.toUpper
  '\\' :: 'x' :: List.replicate (2 - digits.length) '0' ++ digits

def Piece.escaped : Piece → List Char
  | char c => Text.escaped c
  | stray b => escapedByte b

def quotedPieces (pieces : List Piece) : String :=
  String.ofList ('"' :: pieces.flatMap Piece.escaped ++ ['"'])

def quoted (text : String) : String := quotedPieces (text.toList.map Piece.char)

end Turtle.Text
