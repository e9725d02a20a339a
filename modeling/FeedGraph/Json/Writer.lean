import FeedGraph.Json.Basic

/-!
# Writer: compact JSON text

No blanks between tokens. In texts only quotes, backslashes and characters below the space are
escaped, with a letter where there is one and by number otherwise.
-/

namespace FeedGraph.Json

def hexDigit (n : Nat) : Char := (Nat.digitChar n).toLower

/-- A character as it stands in a text. -/
def escaped (c : Char) : String :=
  if c = '"' then "\\\""
  else if c = '\\' then "\\\\"
  else if c = '\x08' then "\\b"
  else if c = '\x0c' then "\\f"
  else if c = '\n' then "\\n"
  else if c = '\r' then "\\r"
  else if c = '\t' then "\\t"
  else if c.toNat < 0x20 then
    "\\u00" ++ String.ofList [hexDigit (c.toNat / 16), hexDigit (c.toNat % 16)]
  else c.toString

def quoted (s : String) : String :=
  s.toList.foldl (fun written c => written ++ escaped c) "\"" ++ "\""

mutual

/-- The text of a value, with members in the order in which they are kept. -/
def text : Json → String
  | .null => "null"
  | .boolean b => if b then "true" else "false"
  | .number n => n.text
  | .string s => quoted s
  | .array items => "[" ++ itemTexts items ++ "]"
  | .object members => "\x7b" ++ memberTexts members ++ "\x7d"

def itemTexts : List Json → String
  | [] => ""
  | [item] => item.text
  | item :: rest => item.text ++ "," ++ itemTexts rest

def memberTexts : List (String × Json) → String
  | [] => ""
  | [(name, value)] => quoted name ++ ":" ++ value.text
  | (name, value) :: rest => quoted name ++ ":" ++ value.text ++ "," ++ memberTexts rest

end

end FeedGraph.Json
