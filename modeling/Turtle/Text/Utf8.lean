/-! UTF-8, read from bytes and written.
The well-formed sequences are the shortest ones of each scalar value. Reading byte by byte, a byte
that begins no such sequence is kept as it is. -/
namespace Turtle.Text

abbrev Bytes := List UInt8

/-- What one place of a byte string holds. -/
inductive Piece where
  | char (c : Char)
  | stray (b : UInt8)
  deriving DecidableEq, Repr

/-- The low six bits of a continuation byte. -/
def continuation? (b : UInt8) : Option Nat :=
  if 0x80 ≤ b.toNat ∧ b.toNat < 0xC0 then some (b.toNat - 0x80) else none

/-- A scalar value that is not below `least`, and so not written too long. -/
def scalar? (least code : Nat) : Option Char :=
  if h : least ≤ code ∧ code.isValidChar then some (Char.ofNatAux code h.2) else none

/-- The character that begins here, and how many bytes follow its first. -/
def firstChar? : Bytes → Option (Char × Nat)
  | [] => none
  | lead :: rest =>
    let n := lead.toNat
    if n < 0x80 then (scalar? 0 n).map (·, 0)
    else match rest with
      | [] => none
      | b :: rest =>
        (continuation? b).bind fun second =>
          if 0xC0 ≤ n ∧ n < 0xE0 then
            (scalar? 0x80 ((n - 0xC0) * 64 + second)).map (·, 1)
          else match rest with
            | [] => none
            | b :: rest =>
              (continuation? b).bind fun third =>
                if 0xE0 ≤ n ∧ n < 0xF0 then
                  (scalar? 0x800 (((n - 0xE0) * 64 + second) * 64 + third)).map (·, 2)
                else match rest with
                  | [] => none
                  | b :: _ =>
                    (continuation? b).bind fun fourth =>
                      if 0xF0 ≤ n ∧ n < 0xF8 then
                        (scalar? 0x10000
                          ((((n - 0xF0) * 64 + second) * 64 + third) * 64 + fourth)).map (·, 3)
                      else none

/-- The pieces of a byte string, of which `skip` bytes belong to the piece before. -/
def piecesFrom : (skip : Nat) → Bytes → List Piece
  | _, [] => []
  | skip + 1, _ :: rest => piecesFrom skip rest
  | 0, b :: rest =>
    match firstChar? (b :: rest) with
    | some (c, skip) => .char c :: piecesFrom skip rest
    | none => .stray b :: piecesFrom 0 rest

def pieces (bytes : Bytes) : List Piece := piecesFrom 0 bytes

def Piece.char? : Piece → Option Char
  | char c => some c
  | stray _ => none

/-- The characters of a byte string that is wholly well-formed. -/
def decode? (bytes : Bytes) : Option (List Char) := (pieces bytes).mapM Piece.char?

/-- The bytes of a text. -/
def encode (text : List Char) : Bytes := text.flatMap String.utf8EncodeChar

end Turtle.Text
