/-!
# Reading bytes as UTF-8

`decode` reads bytes one by one and gives one item for each well-formed sequence and one for each
maximal part that cannot belong to any well-formed sequence. The strict view `text?` exists if
there is no such part; the lossy view `lossy` has U+FFFD in its place.

Results:
* `text?_eq_some_iff`: the strict view exists exactly if every item is a character.
-/
namespace KernelObjects.Text.Utf8

/-- A sequence that has begun: the bits read so far, the range of the next byte, and how many
bytes follow that one. -/
structure Pending where
  code : Nat
  lo : Nat
  hi : Nat
  more : Nat

/-- What a byte is when no sequence has begun. -/
inductive Start where
  | single (c : Char)
  | lead (p : Pending)
  | stray

/-- The well-formed lead bytes. The second byte of some is restricted, which keeps out overlong
forms, surrogates and code points above U+10FFFF. -/
def start (b : UInt8) : Start :=
  let n := b.toNat
  if n < 0x80 then .single (Char.ofNat n)
  else if n < 0xc2 then .stray
  else if n < 0xe0 then .lead ⟨n - 0xc0, 0x80, 0xbf, 0⟩
  else if n = 0xe0 then .lead ⟨0, 0xa0, 0xbf, 1⟩
  else if n = 0xed then .lead ⟨0xd, 0x80, 0x9f, 1⟩
  else if n < 0xf0 then .lead ⟨n - 0xe0, 0x80, 0xbf, 1⟩
  else if n = 0xf0 then .lead ⟨0, 0x90, 0xbf, 2⟩
  else if n < 0xf4 then .lead ⟨n - 0xf0, 0x80, 0xbf, 2⟩
  else if n = 0xf4 then .lead ⟨4, 0x80, 0x8f, 2⟩
  else .stray

/-- Reads on from a sequence that has begun, or from none. `none` in the result is an ill-formed
part; a byte that breaks a sequence off is read again as a first byte. -/
def decodeFrom : Option Pending → List UInt8 → List (Option Char)
  | none, [] => []
  | some _, [] => [none]
  | none, b :: bs =>
    match start b with
    | .single c => some c :: decodeFrom none bs
    | .lead p => decodeFrom (some p) bs
    | .stray => none :: decodeFrom none bs
  | some p, b :: bs =>
    if p.lo ≤ b.toNat ∧ b.toNat ≤ p.hi then
      let code := 64 * p.code + (b.toNat - 0x80)
      match p.more with
      | 0 => some (Char.ofNat code) :: decodeFrom none bs
      | n + 1 => decodeFrom (some ⟨code, 0x80, 0xbf, n⟩) bs
    else
      none ::
        match start b with
        | .single c => some c :: decodeFrom none bs
        | .lead q => decodeFrom (some q) bs
        | .stray => none :: decodeFrom none bs

/-- The characters of the bytes, `none` for each ill-formed part. -/
def decode (bs : List UInt8) : List (Option Char) :=
  decodeFrom none bs

/-- The text, if the bytes are well-formed. -/
def text? (bs : List UInt8) : Option String :=
  ((decode bs).mapM id).map String.ofList

/-- The text, with U+FFFD for each ill-formed part. -/
def lossy (bs : List UInt8) : String :=
  String.ofList ((decode bs).map fun c => c.getD '\uFFFD')

/-- The bytes of a text. -/
def encode (s : String) : List UInt8 :=
  s.toUTF8.data.toList

theorem mapM_id_eq_some_iff {α : Type} (xs : List (Option α)) (ys : List α) :
    xs.mapM id = some ys ↔ xs = ys.map some := by
  induction xs generalizing ys with
  | nil => cases ys <;> simp
  | cons x xs ih =>
    cases x with
    | none => cases ys <;> simp
    | some a =>
      cases ys with
      | nil => cases h : xs.mapM id <;> simp [h]
      | cons b bs =>
        have := ih bs
        cases h : xs.mapM id <;> simp_all

theorem text?_eq_some_iff (bs : List UInt8) (s : String) :
    text? bs = some s ↔ decode bs = s.toList.map some := by
  unfold text?
  constructor
  · intro h
    obtain ⟨cs, hcs, rfl⟩ := Option.map_eq_some_iff.1 h
    simpa using (mapM_id_eq_some_iff _ _).1 hcs
  · intro h
    rw [(mapM_id_eq_some_iff _ _).2 h]
    simp

end KernelObjects.Text.Utf8
