import ScriptHost.Unicode.CaseContext
import ScriptHost.Unicode.LetterCase
/-!
# Upper and lower case of texts

Each character is mapped by itself, except for the Greek capital sigma, whose
lower case depends on whether it ends a word.
-/

namespace ScriptHost.Text

def toUpper (s : List Char) : List Char :=
  s.flatMap Unicode.upper

/-- Whether the first character that is not passed over is cased. -/
def startsCased (s : List Char) : Bool :=
  (s.dropWhile Unicode.isCaseIgnorable).head?.any Unicode.isCased

/-- The lower case of a sigma between two texts, of which `before` is read backwards. At the end
of a word it is the final sigma. -/
def lowerSigma (before behind : List Char) : Char :=
  if startsCased before && !startsCased behind then 'ς' else 'σ'

/-- The lower case of a text that follows `before`, which is read backwards. -/
def toLowerAfter (before : List Char) : List Char → List Char
  | [] => []
  | c :: cs =>
    (if c = 'Σ' then [lowerSigma before cs] else Unicode.lower c) ++ toLowerAfter (c :: before) cs

def toLower (s : List Char) : List Char :=
  toLowerAfter [] s

end ScriptHost.Text
