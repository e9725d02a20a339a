import FeedGraph.Proofs.Number.Decimal
import FeedGraph.Settings.Config
import Mathlib.Data.List.TakeWhile

/-!
# Numbers: settings that are numbers

A setting that is a number is either not there, or stands for an integer in range, blanks around it
aside, or is refused with its text as it was given and what is wrong with it. These are all cases,
and reading a setting comes to just the one that it is in. So a number of the configuration is never
anything but what its text stands for, and what is set is never taken for what is not. The main
statement is `Environment.integer_exact`.
-/

namespace FeedGraph

/-! ## Blanks -/

namespace Text

/-- A text without the blanks around it. -/
structure Trims (chars core : List Char) : Prop where
  /-- around it there are only blanks -/
  around : ∃ before after, chars = before ++ core ++ after ∧
    (∀ c ∈ before, isBlank c = true) ∧ ∀ c ∈ after, isBlank c = true
  /-- it does not begin with a blank -/
  head : ∀ c, core.head? = some c → isBlank c = false
  /-- nor end with one -/
  last : ∀ c, core.getLast? = some c → isBlank c = false

theorem dropWhile_isBlank_eq_self {chars : List Char}
    (h : ∀ c, chars.head? = some c → isBlank c = false) : chars.dropWhile isBlank = chars := by
  cases chars with
  | nil => rfl
  | cons c rest => rw [List.dropWhile_cons_of_neg (by simp [h c rfl])]

theorem isBlank_head_dropWhile {chars : List Char} {c : Char}
    (h : (chars.dropWhile isBlank).head? = some c) : isBlank c = false := by
  have hhead := List.head?_dropWhile_not isBlank chars
  rw [h] at hhead
  exact hhead

theorem trims_trimmed (chars : List Char) : Trims chars (trimmed chars) := by
  -- first the front is cut off, then the back
  have hfront : chars.takeWhile isBlank ++ chars.dropWhile isBlank = chars :=
    List.takeWhile_append_dropWhile
  have hback : trimmed chars ++ ((chars.dropWhile isBlank).reverse.takeWhile isBlank).reverse =
      chars.dropWhile isBlank := by
    rw [trimmed, ← List.reverse_append, List.takeWhile_append_dropWhile, List.reverse_reverse]
  refine ⟨⟨chars.takeWhile isBlank, ((chars.dropWhile isBlank).reverse.takeWhile isBlank).reverse,
    ?_, fun c hc => List.mem_takeWhile_imp hc,
    fun c hc => List.mem_takeWhile_imp (List.mem_reverse.mp hc)⟩, fun c hc => ?_, fun c hc => ?_⟩
  · rw [List.append_assoc, hback, hfront]
  · have hhead : (chars.dropWhile isBlank).head? = some c := by
      rw [← hback, List.head?_append, hc]
      rfl
    exact isBlank_head_dropWhile hhead
  · rw [trimmed, List.getLast?_reverse] at hc
    exact isBlank_head_dropWhile hc

theorem Trims.trimmed_eq {chars core : List Char} (h : Trims chars core) : trimmed chars = core := by
  obtain ⟨⟨before, after, rfl, hbefore, hafter⟩, hhead, hlast⟩ := h
  have hcore : core.reverse.dropWhile isBlank = core.reverse :=
    dropWhile_isBlank_eq_self fun c hc => hlast c (List.head?_reverse ▸ hc)
  rw [trimmed, List.append_assoc, List.dropWhile_append_of_pos hbefore]
  -- if nothing is left, all is cut off from the front; else the front ends where the rest begins
  cases core with
  | nil =>
    rw [List.nil_append, List.dropWhile_eq_nil_iff.mpr hafter]
    rfl
  | cons c rest =>
    rw [List.cons_append, List.dropWhile_cons_of_neg (by simp [hhead c rfl]), ← List.cons_append,
      List.reverse_append, List.dropWhile_append_of_pos fun c hc => hafter c (List.mem_reverse.mp hc),
      hcore, List.reverse_reverse]

/-- What is left of a text without the blanks around it is determined: `Trims` says which it is, and
`trimmed` finds it. -/
theorem trims_iff {chars core : List Char} : Trims chars core ↔ trimmed chars = core :=
  ⟨Trims.trimmed_eq, fun h => h ▸ trims_trimmed chars⟩

theorem trims_self {chars : List Char} (h : ∀ c ∈ chars, isBlank c = false) : Trims chars chars :=
  ⟨⟨[], [], (List.append_nil _).symm, fun _ hc => absurd hc List.not_mem_nil,
    fun _ hc => absurd hc List.not_mem_nil⟩, fun c hc => h c (List.mem_of_mem_head? hc),
    fun c hc => h c (List.mem_of_getLast? hc)⟩

theorem isBlank_eq_false_of_isDigit {c : Char} (h : c.isDigit = true) : isBlank c = false := by
  have hrange : 48 ≤ c.toNat ∧ c.toNat ≤ 57 := Char.isDigit_iff_toNat.mp h
  simp [isBlank]
  omega

end Text

/-- There are no blanks in the texts that stand for integers, so that nothing of them is cut off. -/
theorem IntegerFormat.Numeral.isBlank_eq_false {format : IntegerFormat} {text : List Char} {n : Int}
    (h : format.Numeral text n) {c : Char} (hc : c ∈ text) : Text.isBlank c = false := by
  cases h with
  | bare hdigits => exact Text.isBlank_eq_false_of_isDigit (hdigits.isDigit c hc)
  | plus hdigits =>
    rcases List.mem_cons.mp hc with rfl | hc
    · decide
    · exact Text.isBlank_eq_false_of_isDigit (hdigits.isDigit c hc)
  | minus _ hdigits =>
    rcases List.mem_cons.mp hc with rfl | hc
    · decide
    · exact Text.isBlank_eq_false_of_isDigit (hdigits.isDigit c hc)

namespace Environment

variable {environment : Environment} {name : String} {format : IntegerFormat} {n : Int}
  {error : SettingError}

/-! ## Settings -/

/-- The text of a setting, without the blanks around it, stands for an integer. -/
def Denotes (environment : Environment) (name : String) (format : IntegerFormat) (n : Int) : Prop :=
  ∃ text core, environment name = some text ∧ Text.Trims text.toList core ∧ format.Numeral core n

/-- Something is wrong with the text of a setting, without the blanks around it. The error has the
text as it was given. -/
def Refuses (environment : Environment) (name : String) (format : IntegerFormat)
    (error : SettingError) : Prop :=
  ∃ text core fault, environment name = some text ∧ Text.Trims text.toList core ∧
    format.Misspelt core fault ∧ error = .invalidValue name text (.integer fault)

/-- What reading a setting comes to. -/
inductive Reads (environment : Environment) (name : String) (format : IntegerFormat) :
    Except SettingError (Option Int) → Prop where
  /-- the setting is not there -/
  | unset : environment name = none → Reads environment name format (.ok none)
  /-- it stands for an integer in range -/
  | number {n : Int} : environment.Denotes name format n → format.Holds n →
      Reads environment name format (.ok (some n))
  /-- something is wrong with it -/
  | refused {error : SettingError} : environment.Refuses name format error →
      Reads environment name format (.error error)

/-- Reading a setting comes to one of the cases. -/
theorem reads_integer (environment : Environment) (name : String) (format : IntegerFormat) :
    environment.Reads name format (environment.integer name format) := by
  rw [integer, parsed]
  cases htext : environment name with
  | none => exact .unset htext
  | some text =>
    have htrims := Text.trims_trimmed text.toList
    cases hread : format.read (Text.trimmed text.toList) with
    | ok n =>
      obtain ⟨hnumeral, hholds⟩ := IntegerFormat.read_eq_ok_iff.mp hread
      simp only [hread, Except.mapError]
      exact .number ⟨text, _, htext, htrims, hnumeral⟩ hholds
    | error fault =>
      have hmisspelt := IntegerFormat.read_eq_error_iff.mp hread
      simp only [hread, Except.mapError]
      exact .refused ⟨text, _, fault, htext, htrims, hmisspelt, rfl⟩

/-- And to just the one that the setting is in. -/
theorem Reads.eq {outcome : Except SettingError (Option Int)}
    (h : environment.Reads name format outcome) : environment.integer name format = outcome := by
  rw [integer, parsed]
  cases h with
  | unset hnone => rw [hnone]
  | number hdenotes hholds =>
    obtain ⟨text, core, htext, htrims, hnumeral⟩ := hdenotes
    obtain rfl := htrims.trimmed_eq
    simp only [htext, IntegerFormat.read_of_numeral hnumeral hholds, Except.mapError]
  | refused hrefuses =>
    obtain ⟨text, core, fault, htext, htrims, hmisspelt, rfl⟩ := hrefuses
    obtain rfl := htrims.trimmed_eq
    simp only [htext, IntegerFormat.read_of_misspelt hmisspelt, Except.mapError]

theorem integer_eq_iff {outcome : Except SettingError (Option Int)} :
    environment.integer name format = outcome ↔ environment.Reads name format outcome :=
  ⟨fun h => h ▸ environment.reads_integer name format, Reads.eq⟩

/-- A setting that is used in some way, if it can be read. The numbers of the configuration are of
this form, each with a function for the case in which it is not set. -/
theorem map_integer_eq_ok_iff {α : Type} {f : Option Int → α} {a : α} :
    (environment.integer name format).map f = .ok a ↔
      (environment name = none ∧ f none = a) ∨
        ∃ n, environment.Denotes name format n ∧ format.Holds n ∧ f (some n) = a := by
  constructor
  · intro h
    obtain ⟨outcome, houtcome⟩ : ∃ outcome, environment.integer name format = outcome := ⟨_, rfl⟩
    rw [houtcome] at h
    cases integer_eq_iff.mp houtcome with
    | unset hnone => exact .inl ⟨hnone, Except.ok.inj h⟩
    | number hdenotes hholds => exact .inr ⟨_, hdenotes, hholds, Except.ok.inj h⟩
    | refused _ => cases h
  · rintro (⟨hnone, rfl⟩ | ⟨n, hdenotes, hholds, rfl⟩)
    · rw [(Reads.unset hnone).eq]
      rfl
    · rw [(Reads.number hdenotes hholds).eq]
      rfl

theorem map_integer_eq_error_iff {α : Type} {f : Option Int → α} :
    (environment.integer name format).map f = .error error ↔
      environment.Refuses name format error := by
  constructor
  · intro h
    obtain ⟨outcome, houtcome⟩ : ∃ outcome, environment.integer name format = outcome := ⟨_, rfl⟩
    rw [houtcome] at h
    cases integer_eq_iff.mp houtcome with
    | unset _ => cases h
    | number _ _ => cases h
    | refused hrefuses => exact Except.error.inj h ▸ hrefuses
  · intro hrefuses
    rw [(Reads.refused hrefuses).eq]
    rfl

end Environment

/-! ## The configuration -/

theorem IntegerFormat.holds_natural_iff {bits : Nat} {n : Int} :
    Holds ⟨false, bits⟩ n ↔ ∃ m : Nat, n = m ∧ m < Nat.pow 2 bits := by
  rw [holds_iff, if_neg Bool.false_ne_true]
  change 0 ≤ n ∧ n < (Nat.pow 2 bits : Int) ↔ _
  constructor
  · rintro ⟨hnonneg, hlt⟩
    exact ⟨n.toNat, by omega, by omega⟩
  · rintro ⟨m, rfl, hlt⟩
    exact ⟨Int.natCast_nonneg m, by omega⟩

theorem Environment.map_natural_eq_ok_iff {environment : Environment} {name : String} {bits : Nat}
    {α : Type} {f : Option Nat → α} {a : α} :
    (environment.integer name ⟨false, bits⟩).map (fun n? => f (n?.map Int.toNat)) = .ok a ↔
      (environment name = none ∧ f none = a) ∨
        ∃ m : Nat, environment.Denotes name ⟨false, bits⟩ m ∧ m < Nat.pow 2 bits ∧
          f (some m) = a := by
  rw [map_integer_eq_ok_iff]
  refine or_congr Iff.rfl ⟨?_, ?_⟩
  · rintro ⟨n, hdenotes, hholds, rfl⟩
    obtain ⟨m, rfl, hlt⟩ := IntegerFormat.holds_natural_iff.mp hholds
    exact ⟨m, hdenotes, hlt, rfl⟩
  · rintro ⟨m, hdenotes, hlt, rfl⟩
    exact ⟨m, hdenotes, IntegerFormat.holds_natural_iff.mpr ⟨m, rfl, hlt⟩, rfl⟩

namespace Config

variable {environment : Environment} {name : String} {bits other m : Nat} {error : SettingError}

/-- A number of the configuration is what its setting stands for, or what it is if that is not
set. -/
theorem naturalD_eq_ok_iff : naturalD environment name ⟨false, bits⟩ other = .ok m ↔
    environment name = none ∧ m = other ∨
      environment.Denotes name ⟨false, bits⟩ m ∧ m < Nat.pow 2 bits := by
  have hread : naturalD environment name ⟨false, bits⟩ other = .ok m ↔ _ :=
    Environment.map_natural_eq_ok_iff (f := fun n? => n?.getD other)
  refine hread.trans (or_congr (and_congr_right fun _ => eq_comm) ⟨?_, ?_⟩)
  · rintro ⟨_, hdenotes, hlt, rfl⟩
    exact ⟨hdenotes, hlt⟩
  · rintro ⟨hdenotes, hlt⟩
    exact ⟨m, hdenotes, hlt, rfl⟩

theorem naturalD_eq_error_iff {format : IntegerFormat} :
    naturalD environment name format other = .error error ↔
      environment.Refuses name format error :=
  Environment.map_integer_eq_error_iff

/-- The time that the catalog has is what its setting stands for, and without end if that is not
set. -/
theorem catalogTimeout_eq_ok_iff {timeout? : Option Nat} :
    catalogTimeout environment = .ok timeout? ↔
      environment "FEED_CATALOG_TIMEOUT_MS" = none ∧ timeout? = none ∨
        ∃ timeout : Nat, timeout? = some timeout ∧
          environment.Denotes "FEED_CATALOG_TIMEOUT_MS" .natural64 timeout ∧
            timeout < UInt64.size := by
  have hread : catalogTimeout environment = .ok timeout? ↔ _ :=
    Environment.map_natural_eq_ok_iff (f := fun n? => n?)
  refine hread.trans (or_congr (and_congr_right fun _ => eq_comm) (exists_congr fun timeout => ?_))
  rw [← and_assoc, and_comm, eq_comm]
  exact Iff.rfl

end Config

namespace Environment

variable {environment : Environment} {name : String} {format : IntegerFormat} {n : Int}

theorem denotes_toString (h : environment name = some (toString n)) (hholds : format.Holds n) :
    environment.Denotes name format n := by
  have hnumeral := IntegerFormat.numeral_toString hholds
  exact ⟨_, _, h, Text.trims_self fun _ => hnumeral.isBlank_eq_false, hnumeral⟩

/-- What reading an integer comes to, in any environment, under any name and in any format. There is
none exactly if the setting is not there, and it is `n` exactly if the text of the setting, without
the blanks around it, stands for `n` and `n` is in range; else there is an error, with the text as
it was given and what the first character says that does not pass. Every integer in range is read as
it is written. The numbers of the configuration are read like this: each is the one that its text
stands for, or what it is by default if it is not set; and if something is wrong with its text, this
is the error. -/
theorem integer_exact (environment : Environment) (name : String) (format : IntegerFormat) :
    (environment.integer name format = .ok none ↔ environment name = none) ∧
      (∀ n, environment.integer name format = .ok (some n) ↔
        environment.Denotes name format n ∧ format.Holds n) ∧
      (∀ error, environment.integer name format = .error error ↔
        environment.Refuses name format error) ∧
      (∀ n, format.Holds n → environment name = some (toString n) →
        environment.integer name format = .ok (some n)) ∧
      (∀ port, Config.port environment = .ok port ↔
        environment "FEED_SERVER_PORT" = none ∧ port = 4000 ∨
          environment.Denotes "FEED_SERVER_PORT" .natural16 port ∧ port < UInt16.size) ∧
      (∀ depthLimit, Config.depthLimit environment = .ok depthLimit ↔
        environment "FEED_QUERY_DEPTH_LIMIT" = none ∧ depthLimit = 16 ∨
          environment.Denotes "FEED_QUERY_DEPTH_LIMIT" .natural64 depthLimit ∧
            depthLimit < UInt64.size) ∧
      (∀ timeout?, Config.catalogTimeout environment = .ok timeout? ↔
        environment "FEED_CATALOG_TIMEOUT_MS" = none ∧ timeout? = none ∨
          ∃ timeout : Nat, timeout? = some timeout ∧
            environment.Denotes "FEED_CATALOG_TIMEOUT_MS" .natural64 timeout ∧
              timeout < UInt64.size) ∧
      ∀ error,
        (Config.port environment = .error error ↔
          environment.Refuses "FEED_SERVER_PORT" .natural16 error) ∧
        (Config.depthLimit environment = .error error ↔
          environment.Refuses "FEED_QUERY_DEPTH_LIMIT" .natural64 error) ∧
        (Config.catalogTimeout environment = .error error ↔
          environment.Refuses "FEED_CATALOG_TIMEOUT_MS" .natural64 error) := by
  refine ⟨⟨fun h => ?_, fun hnone => (Reads.unset hnone).eq⟩,
    fun n => ⟨fun h => ?_, fun ⟨hdenotes, hholds⟩ => (Reads.number hdenotes hholds).eq⟩,
    fun error => ⟨fun h => ?_, fun hrefuses => (Reads.refused hrefuses).eq⟩,
    fun n hholds h => (Reads.number (denotes_toString h hholds) hholds).eq,
    fun _ => Config.naturalD_eq_ok_iff, fun _ => Config.naturalD_eq_ok_iff,
    fun _ => Config.catalogTimeout_eq_ok_iff, fun _ => ⟨Config.naturalD_eq_error_iff,
      Config.naturalD_eq_error_iff, map_integer_eq_error_iff⟩⟩
  · cases integer_eq_iff.mp h with
    | unset hnone => exact hnone
  · cases integer_eq_iff.mp h with
    | number hdenotes hholds => exact ⟨hdenotes, hholds⟩
  · cases integer_eq_iff.mp h with
    | refused hrefuses => exact hrefuses

end Environment

/-! ## A harbour -/

namespace Harbour

/-- Settings of which one is blanks and zeros around a number, one is too large before it is
anything else, and one is at the end of its range. -/
def environment : Environment :=
  .ofPairs [("FEED_SERVER_PORT", "\t+0443 "), ("FEED_QUERY_DEPTH_LIMIT", "99999999999999999999x"),
    ("DEPTH", "-2147483648")]

theorem denotes_port : environment.Denotes "FEED_SERVER_PORT" .natural16 443 := by
  have htrims : Text.Trims "\t+0443 ".toList ('+' :: "0443".toList) :=
    Text.trims_iff.mpr (by decide)
  have hdigits : IntegerFormat.Digits "0443".toList :=
    ⟨by decide, List.all_eq_true.mp (by decide)⟩
  exact ⟨_, _, by decide, htrims, .plus hdigits⟩

theorem refuses_depthLimit : environment.Refuses "FEED_QUERY_DEPTH_LIMIT" .natural64
    (.invalidValue "FEED_QUERY_DEPTH_LIMIT" "99999999999999999999x" (.integer .tooLarge)) := by
  have htrims : Text.Trims "99999999999999999999x".toList
      ("9999999999999999999".toList ++ '9' :: ['x']) := Text.trims_iff.mpr (by decide)
  -- the twentieth digit leads out of range, before what is no digit is reached
  have hspoilt : IntegerFormat.Spoilt .natural64 false
      ("9999999999999999999".toList ++ '9' :: ['x']) .tooLarge :=
    .beyond ['x'] ⟨List.all_eq_true.mp (by decide), IntegerFormat.holds_withSign_iff.mpr (by decide)⟩
      (by decide) (mt IntegerFormat.holds_withSign_iff.mp (by decide))
  exact ⟨_, _, _, by decide, htrims, .spoilt (.bare (by decide) (by decide)) hspoilt, rfl⟩

theorem reads_harbour : IntegerFormat.integer32.Holds (-2147483648) ∧
    environment.integer "DEPTH" .integer32 = .ok (some (-2147483648)) ∧
    Config.port environment = .ok 443 ∧
    Config.depthLimit environment = .error
      (.invalidValue "FEED_QUERY_DEPTH_LIMIT" "99999999999999999999x" (.integer .tooLarge)) := by
  obtain ⟨-, -, -, hwritten, hport, -, -, hrefused⟩ :=
    Environment.integer_exact environment "DEPTH" .integer32
  have hholds : IntegerFormat.integer32.Holds (-2147483648) := by
    rw [IntegerFormat.holds_iff]
    decide
  exact ⟨hholds, hwritten _ hholds (by decide), (hport 443).mpr (.inr ⟨denotes_port, by decide⟩),
    (hrefused _).2.1.mpr refuses_depthLimit⟩

end Harbour

end FeedGraph
