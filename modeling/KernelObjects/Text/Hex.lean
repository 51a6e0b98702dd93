import KernelObjects.Fault

/-!
# Hexadecimal text

Numbers and bytes in lower-case hexadecimal digits; upper-case digits are read too.
-/
namespace KernelObjects.Text.Hex

/-- `n` in hexadecimal, padded with zeros to `width`. -/
def padded (width n : Nat) : List Char :=
  let ds := Nat.toDigits 16 n
  List.replicate (width - ds.length) '0' ++ ds

/-- Two digits for each byte. -/
def encode (bs : List UInt8) : List Char :=
  bs.flatMap fun b => padded 2 b.toNat

/-- Blanks between pairs of digits: the space, and the tabs, feeds and returns of ASCII. -/
def isBlank (c : Char) : Bool :=
  c == ' ' || ('\t' ≤ c && c ≤ '\r')

/-- What a digit stands for. -/
def digit? (c : Char) : Option Nat :=
  if '0' ≤ c ∧ c ≤ '9' then some (c.toNat - '0'.toNat)
  else if 'a' ≤ c ∧ c ≤ 'f' then some (c.toNat - 'a'.toNat + 10)
  else if 'A' ≤ c ∧ c ≤ 'F' then some (c.toNat - 'A'.toNat + 10)
  else none

/-- The bytes that pairs of digits stand for; blanks may stand between pairs. -/
def decode? : List Char → Option (List UInt8)
  | [] => some []
  | [a] => if isBlank a then some [] else none
  | a :: b :: rest =>
    if isBlank a then decode? (b :: rest)
    else do
      let high ← digit? a
      let low ← digit? b
      return UInt8.ofNat (16 * high + low) :: (← decode? rest)

/-- The bytes that pairs of digits stand for, or a fault. -/
def decode (s : List Char) : Except Fault (List UInt8) :=
  match decode? s with
  | some bytes => .ok bytes
  | none => .error .unreadable

end KernelObjects.Text.Hex
