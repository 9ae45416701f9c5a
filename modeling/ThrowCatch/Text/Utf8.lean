/-!
Reading bytes as UTF-8 when they may be damaged. A file is sliced by byte
offsets that come from outside, so a slice can begin or end inside a
character; such a piece reads as the replacement character.
-/

namespace ThrowCatch.Text

def replacement : Char := Char.ofNat 0xfffd

/-- A character whose first bytes have been read: how many bytes are missing,
the range the next one must lie in, and the bits so far. -/
structure Opened where
  missing : Nat
  lo : Nat
  hi : Nat
  bits : Nat
  deriving DecidableEq, Repr

/-- What a byte means at the start of a character. -/
def openByte (b : Nat) : List Char × Option Opened :=
  if b < 0x80 then ([Char.ofNat b], none)
  else if b < 0xc2 then ([replacement], none)
  else if b < 0xe0 then ([], some ⟨1, 0x80, 0xbf, b - 0xc0⟩)
  else if b == 0xe0 then ([], some ⟨2, 0xa0, 0xbf, 0⟩)
  else if b == 0xed then ([], some ⟨2, 0x80, 0x9f, 0xd⟩)
  else if b < 0xf0 then ([], some ⟨2, 0x80, 0xbf, b - 0xe0⟩)
  else if b == 0xf0 then ([], some ⟨3, 0x90, 0xbf, 0⟩)
  else if b < 0xf4 then ([], some ⟨3, 0x80, 0xbf, b - 0xf0⟩)
  else if b == 0xf4 then ([], some ⟨3, 0x80, 0x8f, 4⟩)
  else ([replacement], none)

/-- Decodes from a state. A byte that cannot continue the opened character
closes it as one replacement character and is then read afresh. -/
def decodeFrom : Option Opened → List UInt8 → List Char
  | none, [] => []
  | some _, [] => [replacement]
  | none, b :: bs =>
    let (out, state) := openByte b.toNat
    out ++ decodeFrom state bs
  | some o, b :: bs =>
    if o.lo ≤ b.toNat && b.toNat ≤ o.hi then
      let bits := o.bits * 64 + (b.toNat - 0x80)
      if o.missing ≤ 1 then Char.ofNat bits :: decodeFrom none bs
      else decodeFrom (some ⟨o.missing - 1, 0x80, 0xbf, bits⟩) bs
    else
      let (out, state) := openByte b.toNat
      replacement :: (out ++ decodeFrom state bs)

/-- The text of a byte sequence, with one replacement character for each
longest beginning of a character that is not continued. -/
def decode (bytes : List UInt8) : String :=
  String.ofList (decodeFrom none bytes)

/-- The text of a byte sequence that is UTF-8 throughout. -/
def decodeStrict? (bytes : ByteArray) : Option String :=
  String.fromUTF8? bytes

end ThrowCatch.Text
