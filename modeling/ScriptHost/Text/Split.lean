import ScriptHost.Text.Search
/-!
# Splitting texts

A text is split around a separator into at most so many pieces, the last of
which holds all that is left. An empty separator splits between characters.
-/

namespace ScriptHost.Text

/-- At most `limit` pieces of one character each. The last piece of a full count is the rest. -/
def splitChars : Nat → List Char → List (List Char)
  | 0, _ => []
  | _, [] => []
  | 1, c :: cs => [c :: cs]
  | n + 2, c :: cs => [c] :: splitChars (n + 1) cs

/-- At most `limit` pieces, cut at the first occurrences of `sep`. -/
def splitAround (sep : List Char) : Nat → List Char → List (List Char)
  | 0, _ => []
  | 1, s => [s]
  | n + 2, s =>
    match cut? sep s with
    | some (before, behind) => before :: splitAround sep (n + 1) behind
    | none => [s]

def splitN (s sep : List Char) (limit : Nat) : List (List Char) :=
  if sep.isEmpty then splitChars limit s else splitAround sep limit s

/-- All pieces of `s` around `sep`. There is at most one more than there are characters. -/
def split (s sep : List Char) : List (List Char) :=
  splitN s sep (s.length + 1)

def join (pieces : List (List Char)) (sep : List Char) : List Char :=
  (pieces.intersperse sep).flatten

@[simp] theorem join_nil (sep : List Char) : join [] sep = [] := rfl

@[simp] theorem join_singleton (p sep : List Char) : join [p] sep = p := by
  simp [join]

@[simp] theorem join_cons_cons (p q : List Char) (ps : List (List Char)) (sep : List Char) :
    join (p :: q :: ps) sep = p ++ sep ++ join (q :: ps) sep := by
  simp [join]

end ScriptHost.Text
