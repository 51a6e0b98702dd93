/-!
# Blank characters

The blanks around a name or a numeral. Both classes hold the characters with the Unicode property
White_Space; around a name the four information separators U+001C to U+001F are blank too.

Results:
* `trimBy_subset`: nothing is added to a text that is trimmed.
-/
namespace KernelObjects.Text.Blank

/-- The characters with the property White_Space. -/
def isSpace (c : Char) : Bool :=
  let n := c.toNat
  (0x9 ≤ n && n ≤ 0xd) || n == 0x20 || n == 0x85 || n == 0xa0 || n == 0x1680 ||
    (0x2000 ≤ n && n ≤ 0x200a) || n == 0x2028 || n == 0x2029 || n == 0x202f || n == 0x205f ||
    n == 0x3000

/-- White space and the information separators. -/
def isBlank (c : Char) : Bool :=
  isSpace c || (0x1c ≤ c.toNat && c.toNat ≤ 0x1f)

/-- The text without the characters of a class at its two ends. -/
def trimBy (p : Char → Bool) (s : List Char) : List Char :=
  ((s.dropWhile p).reverse.dropWhile p).reverse

/-- The text without blanks at its two ends. -/
def trim (s : List Char) : List Char :=
  trimBy isBlank s

theorem trimBy_subset (p : Char → Bool) (s : List Char) : trimBy p s ⊆ s := by
  intro c hc
  rw [trimBy, List.mem_reverse] at hc
  have hfront := List.dropWhile_subset p hc
  rw [List.mem_reverse] at hfront
  exact List.dropWhile_subset p hfront

end KernelObjects.Text.Blank
