import ReportSql.Json.Value

/-!
The text of a JSON value, without blanks. Characters outside of ASCII stand for themselves.
-/

namespace ReportSql.Json

def hexChar (n : Nat) : Char := "0123456789abcdef".toList.getD n '0'

def escapeChar (c : Char) : List Char :=
  if c == '"' then ['\\', '"']
  else if c == '\\' then ['\\', '\\']
  else if c == '\n' then ['\\', 'n']
  else if c == '\r' then ['\\', 'r']
  else if c == '\t' then ['\\', 't']
  else if c.toNat < 0x20 then
    ['\\', 'u', '0', '0', hexChar (c.toNat / 16), hexChar (c.toNat % 16)]
  else [c]

def quoted (s : String) : String :=
  "\"" ++ String.ofList (s.toList.flatMap escapeChar) ++ "\""

mutual

def Value.render : Value → String
  | .null => "null"
  | .boolean b => if b then "true" else "false"
  | .number digits => digits
  | .text s => quoted s
  | .brokenText => "\"\""
  | .array items => "[" ++ String.intercalate "," (itemTexts items) ++ "]"
  | .object members => "\x7b" ++ String.intercalate "," (memberTexts members) ++ "\x7d"

def itemTexts : List Value → List String
  | [] => []
  | v :: rest => v.render :: itemTexts rest

def memberTexts : List Member → List String
  | [] => []
  | ⟨key, value⟩ :: rest => (quoted (key.getD "") ++ ":" ++ value.render) :: memberTexts rest

end

end ReportSql.Json
