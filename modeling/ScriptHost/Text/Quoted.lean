import ScriptHost.Unicode.Standalone
/-!
# Quoted texts

A quoted text stands between double quotes. Quotes, backslashes and the usual
control characters are escaped by a backslash, and every other character that
does not stand alone is written by its code point.
-/

namespace ScriptHost.Text.Quoted

/-- The escape by code point: `\u`, and the number in lower-case hexadecimal in braces. -/
def codePoint (c : Char) : List Char :=
  '\\' :: 'u' :: '{' :: (Nat.toDigits 16 c.toNat ++ ['}'])

/-- How a character is written between the quotes. -/
def escape (c : Char) : List Char :=
  if c = '\x00' then ['\\', '0']
  else if c = '\t' then ['\\', 't']
  else if c = '\n' then ['\\', 'n']
  else if c = '\r' then ['\\', 'r']
  else if c = '"' then ['\\', '"']
  else if c = '\\' then ['\\', '\\']
  else if Unicode.isStandalone c then [c]
  else codePoint c

/-- The characters of a quoted text, quotes included. -/
def encode (s : List Char) : List Char :=
  '"' :: (s.flatMap escape ++ ['"'])

end ScriptHost.Text.Quoted

namespace ScriptHost.Text

def quote (s : String) : String :=
  String.ofList (Quoted.encode s.toList)

end ScriptHost.Text
