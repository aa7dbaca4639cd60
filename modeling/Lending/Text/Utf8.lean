/-
  Lending.Text.Utf8 — text from bytes that may be damaged.

  Bytes are read as UTF-8. Each longest run that begins a character but does not complete
  one, and each byte that begins none, becomes one replacement character.
-/

namespace Lending.Text

def replacement : Char := Char.ofNat 0xfffd

/-- A character whose first bytes were read. -/
structure PartialChar where
  /-- How many bytes are still to come. -/
  missing : Nat
  /-- The bounds of the next one. -/
  low : Nat
  high : Nat
  /-- The bits so far. -/
  bits : Nat

/-- What a byte begins: a character of its own, or a longer one. A byte that begins none is
    replaced. -/
def beginChar (b : Nat) : List Char × Option PartialChar :=
  if b < 0x80 then ([Char.ofNat b], none)
  else if 0xc2 ≤ b && b ≤ 0xdf then ([], some ⟨1, 0x80, 0xbf, b - 0xc0⟩)
  else if b == 0xe0 then ([], some ⟨2, 0xa0, 0xbf, 0⟩)
  else if b == 0xed then ([], some ⟨2, 0x80, 0x9f, 0xd⟩)
  else if 0xe1 ≤ b && b ≤ 0xef then ([], some ⟨2, 0x80, 0xbf, b - 0xe0⟩)
  else if b == 0xf0 then ([], some ⟨3, 0x90, 0xbf, 0⟩)
  else if 0xf1 ≤ b && b ≤ 0xf3 then ([], some ⟨3, 0x80, 0xbf, b - 0xf0⟩)
  else if b == 0xf4 then ([], some ⟨3, 0x80, 0x8f, 4⟩)
  else ([replacement], none)

def decodeFrom : Option PartialChar → List UInt8 → List Char
  | none, [] => []
  | some _, [] => [replacement]
  | none, b :: rest =>
    let begun := beginChar b.toNat
    begun.1 ++ decodeFrom begun.2 rest
  | some p, b :: rest =>
    if p.low ≤ b.toNat && b.toNat ≤ p.high then
      let bits := 64 * p.bits + (b.toNat - 0x80)
      if p.missing ≤ 1 then Char.ofNat bits :: decodeFrom none rest
      else decodeFrom (some ⟨p.missing - 1, 0x80, 0xbf, bits⟩) rest
    else
      let begun := beginChar b.toNat
      replacement :: begun.1 ++ decodeFrom begun.2 rest

def decodeUtf8 (bytes : List UInt8) : String := String.ofList (decodeFrom none bytes)

end Lending.Text
