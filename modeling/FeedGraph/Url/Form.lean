import FeedGraph.Url.Percent

/-!
# Form: queries made of names and values

Pairs are separated by ampersands, and a name is separated from its value by an equals sign. In
both, letters, digits and four marks of ASCII stand for themselves, a space is a plus sign, and
everything else is written with percent signs. So what a value holds cannot end it or begin another
pair, and reading what was written gives it back (`decode?_encode`).
-/

namespace FeedGraph.Form

def isPlain (c : Char) : Bool :=
  c.isAlphanum || c == '*' || c == '-' || c == '.' || c == '_'

/-- A character of a name or value. -/
def encodedChar (c : Char) : List Char :=
  if c = ' ' then ['+'] else if isPlain c then [c] else Percent.encodedChar c

def encode (text : String) : String := String.ofList (text.toList.flatMap encodedChar)

/-- Written characters with spaces for plus signs. -/
def spaced (written : List Char) : List Char := written.map fun c => if c = '+' then ' ' else c

/-- The name or value that is written, if it is a text at all. -/
def decode? (written : String) : Option String :=
  Percent.text? (Percent.decode (spaced written.toList))

def pair (name value : String) : String := encode name ++ "=" ++ encode value

/-- Adds a pair behind those that are there. -/
def append (query? : Option String) (name value : String) : String :=
  match query? with
  | none => pair name value
  | some query => if query.isEmpty then pair name value else query ++ "&" ++ pair name value

/-! ## Reading what is written -/

theorem hexDigit_ne_plus : ∀ n < 16, Percent.hexDigit n ≠ '+' := by decide

/-- There are no plus signs in a character written with percent signs. -/
theorem spaced_encodedChar (c : Char) : spaced (Percent.encodedChar c) = Percent.encodedChar c := by
  have fixed : ∀ x ∈ Percent.encodedChar c, (if x = '+' then ' ' else x) = id x := by
    intro x hx
    obtain ⟨b, _, hx⟩ := List.mem_flatMap.mp hx
    have hb := b.toNat_lt
    simp only [Percent.encodedByte, List.mem_cons, List.not_mem_nil, or_false] at hx
    rcases hx with rfl | rfl | rfl
    · rfl
    · exact if_neg (hexDigit_ne_plus (b.toNat / 16) (by omega))
    · exact if_neg (hexDigit_ne_plus (b.toNat % 16) (by omega))
  rw [spaced, List.map_congr_left fixed, List.map_id]

/-- Written characters are read as their bytes. A plus sign is never one of them, so that spaces are
put back in the right places only. -/
theorem decode_spaced (chars : List Char) :
    Percent.decode (spaced (chars.flatMap encodedChar)) = chars.flatMap String.utf8EncodeChar := by
  induction chars with
  | nil => rfl
  | cons c rest ih =>
    rw [List.flatMap_cons, List.flatMap_cons, spaced, List.map_append]
    rw [spaced] at ih
    by_cases hs : c = ' '
    · subst hs
      exact (Percent.decode_cons_of_ne _ (by decide)).trans (congrArg _ ih)
    · by_cases hp : isPlain c = true
      · -- a plain character is none of the two marks that reading replaces
        have plus : c ≠ '+' := by intro h; subst h; exact absurd hp (by decide)
        have percent : c ≠ '%' := by intro h; subst h; exact absurd hp (by decide)
        rw [encodedChar, if_neg hs, if_pos hp, List.map_cons, List.map_nil, if_neg plus]
        exact (Percent.decode_cons_of_ne _ percent).trans (congrArg _ ih)
      · rw [encodedChar, if_neg hs, if_neg hp, ← spaced, spaced_encodedChar,
          Percent.decode_encodedChar, ih]

/-- Reading what was written for a text gives the text: so two values never make one query. -/
theorem decode?_encode (text : String) : decode? (encode text) = some text := by
  rw [decode?, encode, String.toList_ofList, decode_spaced, Percent.text?_utf8,
    String.ofList_toList]

end FeedGraph.Form
