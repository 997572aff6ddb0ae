import ScriptHost.Unicode.Blank
/-!
# Words

The words of a text are what white space separates. Trimming removes the
white space around a text.
-/

namespace ScriptHost.Text

/-- The longest stretches without white space. -/
def words (s : List Char) : List (List Char) :=
  (s.splitOnP Unicode.isBlank).filter fun w => !w.isEmpty

/-- The text without the white space at its two ends. -/
def trim (s : List Char) : List Char :=
  ((s.dropWhile Unicode.isBlank).reverse.dropWhile Unicode.isBlank).reverse

end ScriptHost.Text
