import FeedGraph.Number.IntegerFormat
import FeedGraph.Text.Blank
import FeedGraph.Text.LowerCase

/-!
# Environment: settings as texts

An environment gives some names a text. A setting that is not there is not an error; a setting that
is there but cannot be read is, and never counts as one that is not there.
-/

namespace FeedGraph

/-- The texts that settings are given. -/
abbrev Environment : Type := String → Option String

/-- Why the text of a setting cannot be read. -/
inductive SettingFault where
  /-- it is not an integer -/
  | integer (fault : IntegerFault)
  /-- it is not a truth value -/
  | boolean
  deriving DecidableEq

def SettingFault.message : SettingFault → String
  | .integer fault => fault.message
  | .boolean => "provided string was not `true` or `false`"

/-- A setting that cannot be read, with its text as it was given. -/
inductive SettingError where
  /-- neither on nor off -/
  | invalidBoolean (name text : String)
  /-- not of the kind of value that is expected -/
  | invalidValue (name text : String) (fault : SettingFault)
  deriving DecidableEq

def SettingError.message : SettingError → String
  | .invalidBoolean name text =>
    s!"Invalid value for {name}: {text}. Expected true, 1, yes, on, enabled, enable OR " ++
      "false, 0, no, off, disabled, disable"
  | .invalidValue name text fault => s!"Invalid value '{text}' for {name}: {fault.message}"

namespace Environment

/-- The environment of some pairs; of a repeated name the last counts. -/
def ofPairs (pairs : List (String × String)) : Environment := fun name =>
  (pairs.reverse.find? (·.1 = name)).map (·.2)

def getD (environment : Environment) (name other : String) : String :=
  (environment name).getD other

def onWords : List String := ["true", "1", "yes", "on", "enabled", "enable"]

def offWords : List String := ["false", "0", "no", "off", "disabled", "disable"]

/-- Whether a setting is on; it is as given if there is no text. The case of the word does not
matter, blanks around it do. -/
def enabled (environment : Environment) (name : String) (other : Bool) : Except SettingError Bool :=
  match environment name with
  | none => .ok other
  | some text =>
    let word := Text.lowerCase text
    if onWords.contains word then .ok true
    else if offWords.contains word then .ok false
    else .error (.invalidBoolean name text)

/-- Reads the text of a setting, without the blanks around it. -/
def parsed {α : Type} (environment : Environment) (name : String)
    (read : List Char → Except SettingFault α) : Except SettingError (Option α) :=
  match environment name with
  | none => .ok none
  | some text =>
    match read (Text.trimmed text.toList) with
    | .ok value => .ok (some value)
    | .error fault => .error (.invalidValue name text fault)

/-- The number that a setting gives, if it is there. -/
def integer (environment : Environment) (name : String) (format : IntegerFormat) :
    Except SettingError (Option Int) :=
  environment.parsed name fun text => (format.read text).mapError .integer

def readBoolean (text : List Char) : Except SettingFault Bool :=
  if text = "true".toList then .ok true
  else if text = "false".toList then .ok false
  else .error .boolean

def boolean (environment : Environment) (name : String) : Except SettingError (Option Bool) :=
  environment.parsed name readBoolean

end Environment

end FeedGraph
