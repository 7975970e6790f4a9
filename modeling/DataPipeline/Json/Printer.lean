import DataPipeline.Json.Basic
import DataPipeline.Decimal.Shortest

namespace DataPipeline

namespace Json

def hexDigit (n : Nat) : Char :=
  if n < 10 then Char.ofNat (48 + n) else Char.ofNat (87 + n)

/-- A character inside quotes: the quote, the backslash and control characters are escaped. -/
def escapeChar (c : Char) : List Char :=
  if c = '"' then ['\\', '"']
  else if c = '\\' then ['\\', '\\']
  else if c = '\x08' then ['\\', 'b']
  else if c = '\t' then ['\\', 't']
  else if c = '\n' then ['\\', 'n']
  else if c = '\x0c' then ['\\', 'f']
  else if c = '\r' then ['\\', 'r']
  else if c.toNat < 32 then
    ['\\', 'u', '0', '0', hexDigit (c.toNat / 16), hexDigit (c.toNat % 16)]
  else [c]

def quotedChars (s : String) : List Char := '"' :: s.toList.flatMap escapeChar ++ ['"']

end Json

def Number.chars : Number → List Char
  | .int n => (toString n).toList
  | .double x => Decimal.shortestChars x

def Number.text (n : Number) : String := String.ofList n.chars

namespace Json

mutual

/-- The compact text. -/
def chars : Json → List Char
  | .null => ['n', 'u', 'l', 'l']
  | .bool true => ['t', 'r', 'u', 'e']
  | .bool false => ['f', 'a', 'l', 's', 'e']
  | .number n => n.chars
  | .string s => quotedChars s
  | .array [] => ['[', ']']
  | .array (v :: rest) => '[' :: chars v ++ charsItems rest
  | .object [] => ['{', '}']
  | .object ((k, v) :: rest) => '{' :: quotedChars k ++ ':' :: chars v ++ charsFields rest

/-- The items after the first, and the closing bracket. -/
def charsItems : List Json → List Char
  | [] => [']']
  | v :: rest => ',' :: chars v ++ charsItems rest

/-- The fields after the first, and the closing brace. -/
def charsFields : List (String × Json) → List Char
  | [] => ['}']
  | (k, v) :: rest => ',' :: quotedChars k ++ ':' :: chars v ++ charsFields rest

end

def compact (v : Json) : String := String.ofList v.chars

/-- A new line indented by a number of levels. -/
def newline (level : Nat) : List Char := '\n' :: List.replicate (2 * level) ' '

mutual

/-- The indented text; `level` is the level of the line the value starts on. -/
def prettyChars (level : Nat) : Json → List Char
  | .array (v :: rest) =>
    '[' :: newline (level + 1) ++ prettyChars (level + 1) v ++ prettyItems level rest
  | .object ((k, v) :: rest) =>
    '{' :: newline (level + 1) ++ quotedChars k ++ [':', ' '] ++ prettyChars (level + 1) v ++
      prettyFields level rest
  | .null => ['n', 'u', 'l', 'l']
  | .bool true => ['t', 'r', 'u', 'e']
  | .bool false => ['f', 'a', 'l', 's', 'e']
  | .number n => n.chars
  | .string s => quotedChars s
  | .array [] => ['[', ']']
  | .object [] => ['{', '}']

def prettyItems (level : Nat) : List Json → List Char
  | [] => newline level ++ [']']
  | v :: rest => ',' :: newline (level + 1) ++ prettyChars (level + 1) v ++
      prettyItems level rest

def prettyFields (level : Nat) : List (String × Json) → List Char
  | [] => newline level ++ ['}']
  | (k, v) :: rest =>
    ',' :: newline (level + 1) ++ quotedChars k ++ [':', ' '] ++ prettyChars (level + 1) v ++
      prettyFields level rest

end

def pretty (v : Json) : String := String.ofList (v.prettyChars 0)

end Json

end DataPipeline
