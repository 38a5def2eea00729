import GameSetup.Text.Quoted

/-!
# Strings of a JSON document

Only what the format forbids is escaped: the quote, the backslash and the characters below
space, five of which have a short form. Everything else is written as it is.
-/

namespace GameSetup.Text

/-- One character of a JSON string. -/
def jsonChar (c : Char) : List Char :=
  if c == '"' then ['\\', '"']
  else if c == '\\' then ['\\', '\\']
  else if c == '\x08' then ['\\', 'b']
  else if c == '\x0c' then ['\\', 'f']
  else if c == '\n' then ['\\', 'n']
  else if c == '\r' then ['\\', 'r']
  else if c == '\t' then ['\\', 't']
  else if c.toNat < 0x10 then "\\u000".toList ++ hexDigits c.toNat
  else if c.toNat < 0x20 then "\\u00".toList ++ hexDigits c.toNat
  else [c]

/-- A text as a JSON string. -/
def jsonString (text : String) : String :=
  String.ofList ('"' :: text.toList.flatMap jsonChar ++ ['"'])

example : jsonString "a\x01\x1f\n/" = "\"a\\u0001\\u001f\\n/\"" := by decide +kernel

end GameSetup.Text
