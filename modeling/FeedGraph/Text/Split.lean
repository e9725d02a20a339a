/-!
# Split: cutting characters at marks

Characters are cut at every mark, at the first or at the last. Cutting at every mark gives one part
more than there are marks (`length_pieces`), so that there always is a first part.
-/

namespace FeedGraph.Text

/-- The parts of some characters between those that separate them. -/
def pieces (separates : Char → Bool) : List Char → List (List Char)
  | [] => [[]]
  | c :: rest =>
    match pieces separates rest with
    | [] => [[c]]
    | first :: others => if separates c then [] :: first :: others else (c :: first) :: others

/-- What stands before the first of some mark, and what behind it if there is one. -/
def cut (mark : Char) : List Char → List Char × Option (List Char)
  | [] => ([], none)
  | c :: rest =>
    if c = mark then ([], some rest)
    else
      let (before, behind?) := cut mark rest
      (c :: before, behind?)

/-- What stands before the last of some mark, if there is one, and what behind it. -/
def cutLast (mark : Char) (chars : List Char) : Option (List Char) × List Char :=
  match cut mark chars.reverse with
  | (behind, none) => (none, behind.reverse)
  | (behind, some before) => (some before.reverse, behind.reverse)

/-- There is one part more than there are marks. -/
theorem length_pieces (separates : Char → Bool) (chars : List Char) :
    (pieces separates chars).length = chars.countP separates + 1 := by
  induction chars with
  | nil => rfl
  | cons c rest ih =>
    rw [pieces]
    split
    · next h => simp [h] at ih
    · next first others h =>
      rw [h] at ih
      by_cases hc : separates c = true <;> simp_all

end FeedGraph.Text
