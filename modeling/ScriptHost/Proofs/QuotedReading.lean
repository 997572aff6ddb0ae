import Mathlib.Tactic.SplitIfs
import ScriptHost.Text.Quoted
/-!
# Reading quoted texts back

What is written between the quotes can be read one character at a time, and a
quote that is not escaped is no character. So a quoted text determines the text
it stands for, and where it ends, whatever comes after it.
-/

namespace ScriptHost.Text.Quoted

/-! ### Code points -/

def hexDigitValue (c : Char) : Nat :=
  if c.toNat < 'a'.toNat then c.toNat - '0'.toNat else c.toNat - 'a'.toNat + 10

/-- Reads the digits of a number up to the closing brace, behind digits that stand for `n`. -/
def readNumber (n : Nat) : List Char → Option (Nat × List Char)
  | [] => none
  | '}' :: x => some (n, x)
  | c :: x => readNumber (16 * n + hexDigitValue c) x

variable {c d : Char} {s t x y : List Char} {n : Nat}

theorem hexDigitValue_digitChar (hn : n < 16) : hexDigitValue n.digitChar = n := by
  revert n
  decide

theorem digitChar_ne_brace (hn : n < 16) : n.digitChar ≠ '}' := by
  revert n
  decide

theorem readNumber_cons (hc : c ≠ '}') (n : Nat) (x : List Char) :
    readNumber n (c :: x) = readNumber (16 * n + hexDigitValue c) x := by
  simp [readNumber]

/-- The digits of a number are read from the front although they are made from the back. -/
theorem readNumber_toDigits_append (n : Nat) (x : List Char) :
    readNumber 0 (Nat.toDigits 16 n ++ x) = readNumber n x := by
  induction n using Nat.base_induction 16 (by decide) generalizing x with
  | single m hm =>
    rw [Nat.toDigits_of_lt_base hm, List.singleton_append, readNumber_cons (digitChar_ne_brace hm),
      hexDigitValue_digitChar hm, Nat.mul_zero, Nat.zero_add]
  | digit m k hk hm ih =>
    rw [← Nat.toDigits_append_toDigits (by decide) hm hk, List.append_assoc, ih,
      Nat.toDigits_of_lt_base hk, List.singleton_append, readNumber_cons (digitChar_ne_brace hk),
      hexDigitValue_digitChar hk]

/-! ### One character -/

/-- Reads what stands behind a backslash. -/
def readEscape? : List Char → Option (Char × List Char)
  | '0' :: x => some ('\x00', x)
  | 't' :: x => some ('\t', x)
  | 'n' :: x => some ('\n', x)
  | 'r' :: x => some ('\r', x)
  | '"' :: x => some ('"', x)
  | '\\' :: x => some ('\\', x)
  | 'u' :: '{' :: x => (readNumber 0 x).map fun p => (Char.ofNat p.1, p.2)
  | _ => none

/-- Reads a character between the quotes and gives what comes after it. -/
def unescape? : List Char → Option (Char × List Char)
  | [] => none
  | c :: x => if c = '"' then none else if c = '\\' then readEscape? x else some (c, x)

theorem unescape?_quote (x : List Char) : unescape? ('"' :: x) = none :=
  rfl

theorem unescape?_codePoint_append (c : Char) (x : List Char) :
    unescape? (codePoint c ++ x) = some (c, x) := by
  have hnumber : readNumber 0 (Nat.toDigits 16 c.toNat ++ ['}'] ++ x) = some (c.toNat, x) := by
    rw [List.append_assoc, readNumber_toDigits_append]
    rfl
  have hread : unescape? (codePoint c ++ x) =
      (readNumber 0 (Nat.toDigits 16 c.toNat ++ ['}'] ++ x)).map
        fun p => (Char.ofNat p.1, p.2) := rfl
  rw [hread, hnumber, Option.map_some, Char.ofNat_toNat]

theorem unescape?_escape_append (c : Char) (x : List Char) :
    unescape? (escape c ++ x) = some (c, x) := by
  unfold escape
  split_ifs with hnul htab hline hreturn hquote hback
  any_goals
    subst c
    rfl
  · simp [unescape?, hquote, hback]
  · exact unescape?_codePoint_append c x

/-! ### The whole text -/

/-- Texts are told apart by their quoted forms, and no quoted form goes on into another. -/
theorem encode_append_inj (h : encode s ++ x = encode t ++ y) : s = t ∧ x = y := by
  simp only [encode, List.cons_append, List.append_assoc, List.cons.injEq, true_and] at h
  induction s generalizing t with
  | nil =>
    cases t with
    | nil => exact ⟨rfl, by simpa using h⟩
    | cons d t =>
      have hread := congrArg unescape? h
      simp [unescape?_escape_append, unescape?_quote] at hread
  | cons c s ih =>
    have hread := congrArg unescape? h
    cases t with
    | nil => simp [unescape?_escape_append, unescape?_quote] at hread
    | cons d t =>
      simp only [List.flatMap_cons, List.append_assoc, unescape?_escape_append, Option.some.injEq,
        Prod.mk.injEq] at hread
      obtain ⟨rfl, hrest⟩ := hread
      obtain ⟨rfl, hxy⟩ := ih hrest
      exact ⟨rfl, hxy⟩

end ScriptHost.Text.Quoted
