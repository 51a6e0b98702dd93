import KernelObjects.Text.Hex
import KernelObjects.Text.Unprintable

/-!
# Quoted text for messages

A text in a message stands between quotes: apostrophes, or double quotes if the text holds an
apostrophe and no double quote. The quote in use, the backslash and everything that cannot be shown
as it is are escaped.
-/
namespace KernelObjects.Text.Quoted

/-- The quote that goes around the text. -/
def mark (s : List Char) : Char :=
  if '\x27' ∈ s ∧ '"' ∉ s then '"' else '\x27'

/-- One character between the quotes `q`. -/
def escape (q c : Char) : List Char :=
  if c = q ∨ c = '\\' then ['\\', c]
  else if c = '\t' then ['\\', 't']
  else if c = '\n' then ['\\', 'n']
  else if c = '\r' then ['\\', 'r']
  else if Unprintable.contains c then
    if c.toNat ≤ 0xff then '\\' :: 'x' :: Hex.padded 2 c.toNat
    else if c.toNat ≤ 0xffff then '\\' :: 'u' :: Hex.padded 4 c.toNat
    else '\\' :: 'U' :: Hex.padded 8 c.toNat
  else [c]

/-- The text between its quotes. -/
def render (s : List Char) : List Char :=
  mark s :: s.flatMap (escape (mark s)) ++ [mark s]

end KernelObjects.Text.Quoted
