/-!
# Percent: bytes written with a percent sign

A byte that may not stand for itself is written as a percent sign and two hexadecimal digits in
upper case; a character is written byte by byte, in UTF-8.

Reading takes a written character back to its bytes (`decode_encodedChar`), and the bytes of
characters back to the characters (`text?_utf8`).
-/

namespace FeedGraph.Percent

def hexDigit (n : Nat) : Char := (Nat.digitChar n).toUpper

/-- A byte behind a percent sign. -/
def encodedByte (b : UInt8) : List Char := ['%', hexDigit (b.toNat / 16), hexDigit (b.toNat % 16)]

/-- A character, byte by byte. -/
def encodedChar (c : Char) : List Char := (String.utf8EncodeChar c).flatMap encodedByte

/-- Encodes the characters for which it is asked. -/
def encode (escapes : Char → Bool) (chars : List Char) : List Char :=
  chars.flatMap fun c => if escapes c then encodedChar c else [c]

/-- The value of a hexadecimal digit. -/
def hexValue? (c : Char) : Option Nat :=
  if c.isDigit then some (c.toNat - '0'.toNat)
  else if 'a' ≤ c ∧ c ≤ 'f' then some (c.toNat - 'a'.toNat + 10)
  else if 'A' ≤ c ∧ c ≤ 'F' then some (c.toNat - 'A'.toNat + 10)
  else none

/-- The bytes that some characters stand for. A percent sign without two digits stands for
itself. -/
def decode : List Char → List UInt8
  | [] => []
  | '%' :: high :: low :: rest =>
    match hexValue? high, hexValue? low with
    | some h, some l => UInt8.ofNat (16 * h + l) :: decode rest
    | _, _ => '%'.toUInt8 :: decode (high :: low :: rest)
  | c :: rest => String.utf8EncodeChar c ++ decode rest

/-- The text that some bytes are in UTF-8. -/
def text? (bytes : List UInt8) : Option String := String.fromUTF8? bytes.toByteArray

/-! ## Reading what is written -/

/-- The bytes of characters are read as these characters. -/
theorem text?_utf8 (chars : List Char) :
    text? (chars.flatMap String.utf8EncodeChar) = some (String.ofList chars) := by
  have valid : (chars.flatMap String.utf8EncodeChar).toByteArray.IsValidUTF8 := ⟨chars, rfl⟩
  rw [text?, String.fromUTF8?, dif_pos valid]
  rfl

theorem hexValue?_hexDigit : ∀ n < 16, hexValue? (hexDigit n) = some n := by decide

theorem decode_encodedByte (b : UInt8) (rest : List Char) :
    decode (encodedByte b ++ rest) = b :: decode rest := by
  have high : hexValue? (hexDigit (b.toNat / 16)) = some (b.toNat / 16) :=
    hexValue?_hexDigit _ (by have := b.toNat_lt; omega)
  have low : hexValue? (hexDigit (b.toNat % 16)) = some (b.toNat % 16) :=
    hexValue?_hexDigit _ (by omega)
  have whole : 16 * (b.toNat / 16) + b.toNat % 16 = b.toNat := by omega
  simp [encodedByte, decode, high, low, whole]

/-- A character written byte by byte is read as its bytes. -/
theorem decode_encodedChar (c : Char) (rest : List Char) :
    decode (encodedChar c ++ rest) = String.utf8EncodeChar c ++ decode rest := by
  rw [encodedChar]
  induction String.utf8EncodeChar c with
  | nil => rfl
  | cons b bytes ih =>
    rw [List.flatMap_cons, List.append_assoc, decode_encodedByte, ih]
    rfl

theorem decode_cons_of_ne {c : Char} (rest : List Char) (h : c ≠ '%') :
    decode (c :: rest) = String.utf8EncodeChar c ++ decode rest := by
  rw [decode]
  intro _ _ _ e
  exact absurd e h

end FeedGraph.Percent
