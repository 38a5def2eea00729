/-!
# Quoted text

How a message shows a text that may hold anything: between double quotes, with the quote, the
backslash and the control characters written as escapes. Apostrophes and letters of any script
stay as they are. Printable characters only are expected otherwise.
-/

namespace GameSetup.Text

/-- Control characters: below space, and from delete to the end of the second control block. -/
def isControl (c : Char) : Bool :=
  c.toNat < 0x20 || (0x7f ≤ c.toNat && c.toNat ≤ 0x9f)

/-- The hexadecimal digits of a number, without padding. -/
def hexDigits (n : Nat) : List Char :=
  Nat.toDigits 16 n

/-- One character inside quotes. -/
def quotedChar (c : Char) : List Char :=
  if c == '"' then ['\\', '"']
  else if c == '\\' then ['\\', '\\']
  else if c == '\t' then ['\\', 't']
  else if c == '\n' then ['\\', 'n']
  else if c == '\r' then ['\\', 'r']
  else if c == '\x00' then ['\\', '0']
  else if isControl c then "\\u\x7b".toList ++ hexDigits c.toNat ++ ['\x7d']
  else [c]

/-- A text between double quotes. -/
def quoted (text : String) : String :=
  String.ofList ('"' :: text.toList.flatMap quotedChar ++ ['"'])

/-- Texts between square brackets, each quoted. -/
def quotedList (texts : List String) : String :=
  "[" ++ ", ".intercalate (texts.map quoted) ++ "]"

example : quoted "a\tb\"\\'\x1b" = "\"a\\tb\\\"\\\\'\\u\x7b1b\x7d\"" := by decide +kernel

end GameSetup.Text
