/-!
# Bytes read as text

Decoding of UTF-8 in two ways: exact, which refuses malformed bytes, and forgiving, which puts one
replacement character for each maximal piece of an ill-formed sequence.
-/

namespace Liquid
namespace Text

def replacement : Char := '\uFFFD'

/-- The number of bytes that a leading byte announces after itself, the range in which the first
of them must lie, and the bits that it contributes itself.  Bytes that lead no sequence give
`none`; so do those that could only lead an overlong form or a number above U+10FFFF. -/
def leading? (b : UInt8) : Option (Nat × UInt8 × UInt8 × Nat) :=
  if b < 0x80 then some (0, 0x80, 0xBF, b.toNat)
  else if b < 0xC2 then none
  else if b < 0xE0 then some (1, 0x80, 0xBF, b.toNat - 0xC0)
  else if b == 0xE0 then some (2, 0xA0, 0xBF, 0)
  else if b == 0xED then some (2, 0x80, 0x9F, 0xD)
  else if b < 0xF0 then some (2, 0x80, 0xBF, b.toNat - 0xE0)
  else if b == 0xF0 then some (3, 0x90, 0xBF, 0)
  else if b < 0xF4 then some (3, 0x80, 0xBF, b.toNat - 0xF0)
  else if b == 0xF4 then some (3, 0x80, 0x8F, 4)
  else none

/-- A sequence under way: how many bytes are missing, the range of the next one, and the number
read so far. -/
structure Pending where
  missing : Nat
  least : UInt8
  greatest : UInt8
  number : Nat

/-- Takes a byte outside any sequence: the characters it yields, and the sequence it opens. -/
def beginSequence (b : UInt8) : List (Option Char) × Option Pending :=
  match leading? b with
  | none => ([none], none)
  | some (0, _, _, n) => ([some (Char.ofNat n)], none)
  | some (k + 1, lo, hi, n) => ([], some ⟨k + 1, lo, hi, n⟩)

/-- Reads bytes from the left; `none` stands for each maximal piece that is no character. -/
def decodeFrom : Option Pending → List UInt8 → List (Option Char)
  | none, [] => []
  | some _, [] => [none]
  | none, b :: bs =>
    let (cs, pending) := beginSequence b
    cs ++ decodeFrom pending bs
  | some p, b :: bs =>
    if p.least ≤ b && b ≤ p.greatest then
      let n := p.number * 64 + (b.toNat - 0x80)
      if p.missing ≤ 1 then some (Char.ofNat n) :: decodeFrom none bs
      else decodeFrom (some ⟨p.missing - 1, 0x80, 0xBF, n⟩) bs
    else
      -- the sequence ends unfinished, and this byte starts afresh
      let (cs, pending) := beginSequence b
      none :: (cs ++ decodeFrom pending bs)

/-- The text of the bytes, with a replacement character for each ill-formed piece. -/
def decodeForgiving (bytes : List UInt8) : String :=
  String.ofList ((decodeFrom none bytes).map (Option.getD · replacement))

/-- The text of the bytes, unless they are ill-formed somewhere. -/
def decode? (bytes : List UInt8) : Option String :=
  ((decodeFrom none bytes).mapM id).map String.ofList

end Text
end Liquid
