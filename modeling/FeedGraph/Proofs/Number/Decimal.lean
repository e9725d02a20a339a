import FeedGraph.Number.IntegerFormat

/-!
# Decimal: which texts are integers, and what is wrong with the others

A text stands for an integer if it consists of one or more digits, behind a sign or none
(`Numeral`). Of the others, and of those whose integer is out of range, the first character that
does not pass says what is wrong (`Spoilt`, `Misspelt`). Every text is one or the other, and a
format reads it as just that: `IntegerFormat.read_eq_ok_iff` and `IntegerFormat.read_eq_error_iff`.
What carries the proof is that digits which have been read are as good as the number that they stand
for (`readDigits_append`).

Integers are read as they are written (`IntegerFormat.numeral_toString`), so no two natural numbers
have the same digits (`IntegerFormat.digits_injective`).
-/

namespace FeedGraph

namespace IntegerFormat

/-! ## Digits -/

/-- The number that digits stand for. -/
def numberOf (digits : List Char) : Nat := Nat.ofDigitChars 10 digits 0

theorem numberOf_concat (digits : List Char) (c : Char) :
    numberOf (digits ++ [c]) = 10 * numberOf digits + (c.toNat - '0'.toNat) := by
  rw [numberOf, Nat.ofDigitChars_append]
  rfl

theorem le_ofDigitChars (n : Nat) (digits : List Char) : n ≤ Nat.ofDigitChars 10 digits n := by
  induction digits generalizing n with
  | nil => exact Nat.le_refl n
  | cons c rest ih =>
    have hnext : n ≤ 10 * n + (c.toNat - '0'.toNat) := by omega
    exact Nat.le_trans hnext (ih _)

/-- Reading goes on behind digits from the number that they stand for, as long as that is within the
limit. On the way there it is within the limit, too, by `le_ofDigitChars`, so that no fault is found
earlier. -/
theorem readDigits_append {limit n : Nat} {beyond : IntegerFault} {digits : List Char}
    (hdigits : ∀ c ∈ digits, c.isDigit = true) (hlimit : Nat.ofDigitChars 10 digits n ≤ limit)
    (rest : List Char) : readDigits limit beyond n (digits ++ rest) =
      readDigits limit beyond (Nat.ofDigitChars 10 digits n) rest := by
  induction digits generalizing n with
  | nil => rfl
  | cons c others ih =>
    -- what has been read so far is not above what will have been read
    have hnext : 10 * n + (c.toNat - '0'.toNat) ≤ limit :=
      Nat.le_trans (le_ofDigitChars _ others) hlimit
    rw [List.cons_append, readDigits, if_pos (hdigits c List.mem_cons_self), if_pos hnext]
    exact ih (fun d hd => hdigits d (List.mem_cons_of_mem _ hd)) hlimit

/-! ## Signs -/

def withSign (negative : Bool) (n : Nat) : Int := if negative then -n else n

/-- What is wrong with an integer that is out of range, on one side or the other. -/
def beyond (negative : Bool) : IntegerFault := if negative then .tooSmall else .tooLarge

/-- How far a format goes on one side of zero. -/
def limit (format : IntegerFormat) (negative : Bool) : Nat :=
  if negative then format.depth else format.highest

theorem holds_withSign_iff {format : IntegerFormat} {negative : Bool} {n : Nat} :
    format.Holds (withSign negative n) ↔ n ≤ format.limit negative := by
  rw [Holds, withSign, limit]
  cases negative with
  | false =>
    rw [if_neg Bool.false_ne_true, if_neg Bool.false_ne_true]
    omega
  | true =>
    rw [if_pos rfl, if_pos rfl]
    omega

/-- The numbers of so many bits: half of them are negative, or none. -/
theorem holds_iff {format : IntegerFormat} {n : Int} : format.Holds n ↔
    if format.signed then
      -(Nat.pow 2 (format.bits - 1) : Int) ≤ n ∧ n < (Nat.pow 2 (format.bits - 1) : Int)
    else 0 ≤ n ∧ n < (Nat.pow 2 format.bits : Int) := by
  rw [Holds, highest, depth]
  split
  · have hpos : 0 < Nat.pow 2 (format.bits - 1) := Nat.two_pow_pos _
    omega
  · have hpos : 0 < Nat.pow 2 format.bits := Nat.two_pow_pos _
    omega

theorem nonneg_of_holds {format : IntegerFormat} {n : Int} (hunsigned : format.signed = false)
    (h : format.Holds n) : 0 ≤ n := by
  have hdepth : format.depth = 0 := by simp [depth, hunsigned]
  have hbelow := h.1
  rw [hdepth] at hbelow
  exact hbelow

/-- The sign of a text, and what stands behind it. A minus sign is a sign only where negative
numbers are; elsewhere it is a character like others, and no digit. -/
inductive Signed (format : IntegerFormat) : List Char → Bool → List Char → Prop where
  /-- a plus sign -/
  | plus (rest : List Char) : Signed format ('+' :: rest) false rest
  /-- a minus sign -/
  | minus (rest : List Char) : format.signed = true → Signed format ('-' :: rest) true rest
  /-- no sign -/
  | bare {text : List Char} : text.head? ≠ some '+' →
      (format.signed = true → text.head? ≠ some '-') → Signed format text false text

variable {format : IntegerFormat} {text digits : List Char} {negative : Bool} {n : Int}
  {fault : IntegerFault}

theorem exists_signed (format : IntegerFormat) (text : List Char) :
    ∃ negative rest, Signed format text negative rest := by
  by_cases hplus : text.head? = some '+'
  · obtain ⟨rest, rfl⟩ := List.head?_eq_some_iff.mp hplus
    exact ⟨false, rest, .plus rest⟩
  · by_cases hminus : format.signed = true ∧ text.head? = some '-'
    · obtain ⟨hsigned, hhead⟩ := hminus
      obtain ⟨rest, rfl⟩ := List.head?_eq_some_iff.mp hhead
      exact ⟨true, rest, .minus rest hsigned⟩
    · exact ⟨false, text, .bare hplus fun hsigned hhead => hminus ⟨hsigned, hhead⟩⟩

/-- Behind its sign, a text is read up to the limit on this side. -/
theorem read_of_signed (h : Signed format text negative digits) (hne : text ≠ []) :
    format.read text =
      withSign negative <$> readSigned (format.limit negative) (beyond negative) digits := by
  cases h with
  | plus rest => rfl
  | minus rest hsigned =>
    rw [read, if_pos hsigned]
    rfl
  | bare hplus hminus =>
    rw [read.eq_def]
    split
    · exact absurd rfl hne
    · exact absurd rfl hplus
    · have hsigned : ¬format.signed = true := fun hsigned => hminus hsigned rfl
      rw [if_neg hsigned]
      rfl
    · cases text with
      | nil => exact absurd rfl hne
      | cons c rest => rfl

/-! ## Numerals -/

structure Digits (digits : List Char) : Prop where
  /-- there is one -/
  ne_nil : digits ≠ []
  /-- and all are digits of ASCII -/
  isDigit : ∀ c ∈ digits, c.isDigit = true

/-- The texts that stand for an integer: one or more digits, behind a sign or none. There may be
zeros in front. Whether the integer is in range is not part of it. -/
inductive Numeral (format : IntegerFormat) : List Char → Int → Prop where
  /-- without a sign -/
  | bare {digits : List Char} : Digits digits → Numeral format digits (numberOf digits)
  /-- behind a plus sign -/
  | plus {digits : List Char} : Digits digits → Numeral format ('+' :: digits) (numberOf digits)
  /-- behind a minus sign, where negative numbers are -/
  | minus {digits : List Char} : format.signed = true → Digits digits →
      Numeral format ('-' :: digits) (-numberOf digits)

theorem Digits.signed (h : Digits digits) : Signed format digits false digits := by
  have hhead : ∀ c, digits.head? = some c → c.isDigit = true := fun c hc =>
    h.isDigit c (List.mem_of_mem_head? hc)
  refine .bare (fun hplus => ?_) (fun _ hminus => ?_)
  · exact absurd (hhead '+' hplus) (by decide)
  · exact absurd (hhead '-' hminus) (by decide)

theorem Signed.numeral (h : Signed format text negative digits) (hdigits : Digits digits) :
    Numeral format text (withSign negative (numberOf digits)) := by
  cases h with
  | plus rest => exact .plus hdigits
  | minus rest hsigned => exact .minus hsigned hdigits
  | bare _ _ => exact .bare hdigits

theorem Numeral.exists_signed (h : Numeral format text n) : ∃ negative digits,
    Signed format text negative digits ∧ Digits digits ∧ n = withSign negative (numberOf digits) := by
  cases h with
  | bare hdigits => exact ⟨false, _, hdigits.signed, hdigits, rfl⟩
  | plus hdigits => exact ⟨false, _, .plus _, hdigits, rfl⟩
  | minus hsigned hdigits => exact ⟨true, _, .minus _ hsigned, hdigits, rfl⟩

/-! ## Faults -/

/-- Digits behind a sign that stand for a number in range. Then so do the first of them, since
digits that follow do not make a number smaller. -/
structure Passes (format : IntegerFormat) (negative : Bool) (digits : List Char) : Prop where
  /-- all are digits of ASCII -/
  isDigit : ∀ c ∈ digits, c.isDigit = true
  /-- the number is in range -/
  holds : format.Holds (withSign negative (numberOf digits))

/-- What the first character says that does not pass, from the left: that it is no digit, or that
the number is out of range with it. Characters behind it are not looked at. -/
inductive Spoilt (format : IntegerFormat) (negative : Bool) : List Char → IntegerFault → Prop where
  /-- it is no digit -/
  | stray {before : List Char} {c : Char} (after : List Char) : Passes format negative before →
      c.isDigit = false → Spoilt format negative (before ++ c :: after) .invalidDigit
  /-- it is a digit that leads out of range -/
  | beyond {before : List Char} {c : Char} (after : List Char) : Passes format negative before →
      c.isDigit = true → ¬format.Holds (withSign negative (numberOf (before ++ [c]))) →
        Spoilt format negative (before ++ c :: after) (beyond negative)

/-- What is wrong with a text that is no integer of a format. -/
inductive Misspelt (format : IntegerFormat) : List Char → IntegerFault → Prop where
  /-- there is no text -/
  | empty : Misspelt format [] .empty
  /-- there is only a sign -/
  | sign {text : List Char} {negative : Bool} : text ≠ [] → Signed format text negative [] →
      Misspelt format text .invalidDigit
  /-- something behind the sign does not pass -/
  | spoilt {text digits : List Char} {negative : Bool} {fault : IntegerFault} :
      Signed format text negative digits → Spoilt format negative digits fault →
        Misspelt format text fault

theorem passes_nil : Passes format negative [] :=
  ⟨fun _ hc => absurd hc List.not_mem_nil, holds_withSign_iff.mpr (Nat.zero_le _)⟩

theorem Passes.concat {c : Char} (h : Passes format negative digits) (hdigit : c.isDigit = true)
    (hholds : format.Holds (withSign negative (numberOf (digits ++ [c])))) :
    Passes format negative (digits ++ [c]) :=
  ⟨fun d hd => (List.mem_append.mp hd).elim (h.isDigit d) fun hd =>
    List.mem_singleton.mp hd ▸ hdigit, hholds⟩

/-- Behind digits that pass, all pass, or there is a first one that does not. The induction is on
what is behind. -/
theorem Passes.append_or_spoilt {before : List Char} (h : Passes format negative before)
    (rest : List Char) : Passes format negative (before ++ rest) ∨
      ∃ fault, Spoilt format negative (before ++ rest) fault := by
  induction rest generalizing before with
  | nil => exact .inl (by rwa [List.append_nil])
  | cons c after ih =>
    by_cases hdigit : c.isDigit = true
    · by_cases hholds : format.Holds (withSign negative (numberOf (before ++ [c])))
      · have hafter := ih (h.concat hdigit hholds)
        rwa [List.append_assoc] at hafter
      · exact .inr ⟨_, .beyond after h hdigit hholds⟩
    · exact .inr ⟨_, .stray after h (Bool.eq_false_iff.mpr hdigit)⟩

/-- A text stands for an integer of a format, or something is wrong with it. As both are read as
such, it follows that nothing else is read as the one or the other. -/
theorem numeral_or_misspelt (format : IntegerFormat) (text : List Char) :
    (∃ n, Numeral format text n ∧ format.Holds n) ∨ ∃ fault, Misspelt format text fault := by
  by_cases hne : text = []
  · exact .inr ⟨.empty, hne ▸ Misspelt.empty⟩
  · obtain ⟨negative, digits, hsigned⟩ := exists_signed format text
    by_cases hdigits : digits = []
    · exact .inr ⟨_, .sign hne (hdigits ▸ hsigned)⟩
    · have hnil : Passes format negative [] := passes_nil
      rcases hnil.append_or_spoilt digits with hpasses | ⟨fault, hspoilt⟩
      · exact .inl ⟨_, hsigned.numeral ⟨hdigits, hpasses.isDigit⟩, hpasses.holds⟩
      · exact .inr ⟨fault, .spoilt hsigned hspoilt⟩

theorem Spoilt.ne_nil (h : Spoilt format negative digits fault) : digits ≠ [] := by
  cases h with
  | stray after _ _ => exact List.append_ne_nil_of_right_ne_nil _ (List.cons_ne_nil _ _)
  | beyond after _ _ _ => exact List.append_ne_nil_of_right_ne_nil _ (List.cons_ne_nil _ _)

/-! ## Reading -/

/-- `readDigits_append` from the start, where the number is 0. -/
theorem Passes.readDigits_append {before : List Char} (h : Passes format negative before)
    (rest : List Char) :
    readDigits (format.limit negative) (IntegerFormat.beyond negative) 0 (before ++ rest) =
      readDigits (format.limit negative) (IntegerFormat.beyond negative) (numberOf before) rest :=
  IntegerFormat.readDigits_append h.isDigit (holds_withSign_iff.mp h.holds) rest

theorem Spoilt.readDigits_eq (h : Spoilt format negative digits fault) :
    readDigits (format.limit negative) (IntegerFormat.beyond negative) 0 digits = .error fault := by
  cases h with
  | stray after hbefore hstray =>
    rw [hbefore.readDigits_append, readDigits, if_neg (by simp [hstray])]
  | beyond after hbefore hdigit hbeyond =>
    rw [holds_withSign_iff, numberOf_concat] at hbeyond
    rw [hbefore.readDigits_append, readDigits, if_pos hdigit, if_neg hbeyond]

theorem Signed.read_eq (h : Signed format text negative digits) (hne : digits ≠ []) :
    format.read text = withSign negative <$>
      readDigits (format.limit negative) (IntegerFormat.beyond negative) 0 digits := by
  have htext : text ≠ [] := by
    rintro rfl
    cases h
    exact hne rfl
  rw [read_of_signed h htext]
  cases digits with
  | nil => exact absurd rfl hne
  | cons c rest => rfl

theorem read_of_numeral (h : Numeral format text n) (hholds : format.Holds n) :
    format.read text = .ok n := by
  obtain ⟨negative, digits, hsigned, hdigits, rfl⟩ := h.exists_signed
  have hread := (Passes.mk hdigits.isDigit hholds).readDigits_append []
  rw [List.append_nil] at hread
  rw [hsigned.read_eq hdigits.ne_nil, hread]
  rfl

theorem read_of_misspelt (h : Misspelt format text fault) : format.read text = .error fault := by
  cases h with
  | empty => rfl
  | sign hne hsigned =>
    rw [read_of_signed hsigned hne]
    rfl
  | spoilt hsigned hspoilt =>
    rw [hsigned.read_eq hspoilt.ne_nil, hspoilt.readDigits_eq]
    rfl

/-- Exactly the texts that stand for an integer of a format are read, as this integer. For the
direction from left to right, `numeral_or_misspelt` leaves one other case, in which there would be
an error. -/
theorem read_eq_ok_iff : format.read text = .ok n ↔ Numeral format text n ∧ format.Holds n := by
  refine ⟨fun h => ?_, fun ⟨hnumeral, hholds⟩ => read_of_numeral hnumeral hholds⟩
  rcases numeral_or_misspelt format text with ⟨m, hnumeral, hholds⟩ | ⟨fault, hmisspelt⟩
  · rw [read_of_numeral hnumeral hholds] at h
    exact Except.ok.inj h ▸ ⟨hnumeral, hholds⟩
  · rw [read_of_misspelt hmisspelt] at h
    cases h

/-- Of all others it is said what is wrong with them; the argument is the same with the cases
exchanged. -/
theorem read_eq_error_iff : format.read text = .error fault ↔ Misspelt format text fault := by
  refine ⟨fun h => ?_, read_of_misspelt⟩
  rcases numeral_or_misspelt format text with ⟨m, hnumeral, hholds⟩ | ⟨fault', hmisspelt⟩
  · rw [read_of_numeral hnumeral hholds] at h
    cases h
  · rw [read_of_misspelt hmisspelt] at h
    exact Except.error.inj h ▸ hmisspelt

theorem holds_of_read (h : format.read text = .ok n) : format.Holds n := (read_eq_ok_iff.mp h).2

/-! ## Writing -/

theorem digits_toDigits (n : Nat) : Digits (Nat.toDigits 10 n) :=
  ⟨Nat.toDigits_ne_nil, fun _ hc => Nat.isDigit_of_mem_toDigits (by decide) (by decide) hc⟩

theorem numberOf_toDigits (n : Nat) : numberOf (Nat.toDigits 10 n) = n :=
  Nat.ofDigitChars_ten_toDigits

theorem toList_toString (n : Nat) : (toString n).toList = Nat.toDigits 10 n := by
  rw [Nat.toString_eq_repr, Nat.toList_repr]

/-- An integer of a format is written as one of the texts that stand for it. -/
theorem numeral_toString (h : format.Holds n) : Numeral format (toString n).toList n := by
  cases n with
  | ofNat m =>
    have hdigits : (toString (Int.ofNat m)).toList = Nat.toDigits 10 m := toList_toString m
    have hnumeral : Numeral format (Nat.toDigits 10 m) (numberOf (Nat.toDigits 10 m)) :=
      .bare (digits_toDigits m)
    rwa [numberOf_toDigits, ← hdigits] at hnumeral
  | negSucc m =>
    have hdigits : (toString (Int.negSucc m)).toList = '-' :: Nat.toDigits 10 (m + 1) := by
      rw [← toList_toString]
      exact String.toList_append
    have hsigned : format.signed = true := by
      cases hsigned : format.signed with
      | true => rfl
      | false => exact absurd (nonneg_of_holds hsigned h) (Int.not_le.mpr (Int.negSucc_lt_zero m))
    have hnumeral := Numeral.minus hsigned (digits_toDigits (m + 1))
    rwa [numberOf_toDigits, ← hdigits] at hnumeral

theorem read_toString (format : IntegerFormat) {n : Nat} (h : n ≤ format.highest) :
    format.read (toString n).toList = .ok n := by
  have hholds : format.Holds (withSign false n) := holds_withSign_iff.mpr h
  exact read_of_numeral (numeral_toString hholds) hholds

/-- No two natural numbers are written alike, since the number can be read again from the digits. -/
theorem digits_injective {m n : Nat} (h : toString m = toString n) : m = n := by
  have hdigits : Nat.toDigits 10 m = Nat.toDigits 10 n := by
    rw [← toList_toString, h, toList_toString]
  rw [← numberOf_toDigits m, hdigits, numberOf_toDigits]

end IntegerFormat

end FeedGraph
