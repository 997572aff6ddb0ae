import Mathlib.Data.String.Basic
import ScriptHost.Text.Utf8
/-!
# The order of texts and of their bytes

Texts are ordered by their characters and bytes by their numbers. A greater
character begins with greater bytes, so that the two orders are the same.
-/

namespace ScriptHost.Text

open String (utf8EncodeChar)

namespace Utf8

/-- The bytes of a number: a lead byte above `base` with the first digits, and `more` bytes with
six bits each. -/
def bytesOf (base : Nat) : Nat → Nat → List UInt8
  | 0, n => [UInt8.ofNat (n + base)]
  | more + 1, n => bytesOf base more (n / 64) ++ [UInt8.ofNat (n % 64 + 0x80)]

theorem cons_ofNat_lt {m n : Nat} (h : m < n) (hn : n < 256) (s t : List UInt8) :
    UInt8.ofNat m :: s < UInt8.ofNat n :: t :=
  .rel ((UInt8.ofNat_lt_iff_lt (h.trans hn) hn).2 h)

/-- The byte with the digit at a place, of those with six bits each. -/
def digit (k n : Nat) : Nat :=
  n / 64 ^ k % 64 + 0x80

/-- The bytes with the last digits of a number. -/
def trail : Nat → Nat → List UInt8
  | 0, _ => []
  | k + 1, n => UInt8.ofNat (digit k n) :: trail k n

theorem trail_succ (k n : Nat) :
    trail (k + 1) n = trail k (n / 64) ++ [UInt8.ofNat (n % 64 + 0x80)] := by
  induction k with
  | zero => rw [trail, trail, trail, digit, pow_zero, Nat.div_one, List.nil_append]
  | succ k ih =>
    have hdigit : digit (k + 1) n = digit k (n / 64) := by
      rw [digit, digit, Nat.div_div_eq_div_mul, ← pow_succ']
    rw [trail, ih, hdigit, trail, List.cons_append]

theorem bytesOf_eq_cons (base more n : Nat) :
    bytesOf base more n = UInt8.ofNat (n / 64 ^ more + base) :: trail more n := by
  induction more generalizing n with
  | zero => rw [pow_zero, Nat.div_one, bytesOf, trail]
  | succ more ih =>
    rw [bytesOf, ih, trail_succ, List.cons_append, Nat.div_div_eq_div_mul, ← pow_succ']

theorem bytesOf_append_lt_of_lead {base base' more more' m n : Nat}
    (h : m / 64 ^ more + base < n / 64 ^ more' + base') (hn : n / 64 ^ more' + base' < 256)
    (s t : List UInt8) : bytesOf base more m ++ s < bytesOf base' more' n ++ t := by
  rw [bytesOf_eq_cons, bytesOf_eq_cons]
  exact cons_ofNat_lt h hn _ _

theorem bytesOf_append_lt {base more m n : Nat} (h : m < n) (hn : n / 64 ^ more + base < 256)
    (s t : List UInt8) : bytesOf base more m ++ s < bytesOf base more n ++ t := by
  induction more generalizing m n s t with
  | zero => exact bytesOf_append_lt_of_lead (by simpa using h) hn s t
  | succ more ih =>
    rw [pow_succ', ← Nat.div_div_eq_div_mul] at hn
    rw [bytesOf, bytesOf, List.append_assoc, List.append_assoc]
    -- The numbers differ before their last digit or in it.
    rcases Nat.lt_or_eq_of_le (Nat.div_le_div_right h.le : m / 64 ≤ n / 64) with hdiv | hdiv
    · exact ih hdiv hn _ _
    · rw [hdiv]
      exact List.append_left_lt (cons_ofNat_lt (by omega) (by omega) s t)

theorem char_toNat_lt (c : Char) : c.toNat < 0x110000 := by
  rcases c.valid with hc | ⟨-, hc⟩
  · exact Nat.lt_trans hc (by decide)
  · exact hc

/-- What the lead byte of a number stands above, and how many bytes come after it. -/
def form (n : Nat) : Nat × Nat :=
  if n < 0x80 then (0, 0)
  else if n < 0x800 then (0xC0, 1)
  else if n < 0x10000 then (0xE0, 2)
  else (0xF0, 3)

def leadByte (n : Nat) : Nat :=
  n / 64 ^ (form n).2 + (form n).1

theorem leadByte_lt {n : Nat} (hn : n < 0x110000) : leadByte n < 256 := by
  simp only [leadByte, form]
  split_ifs <;> simp <;> omega

theorem form_eq_or_leadByte_lt {m n : Nat} (h : m < n) :
    form m = form n ∨ leadByte m < leadByte n := by
  simp only [leadByte, form]
  split_ifs <;> simp <;> omega

theorem utf8EncodeChar_eq_bytesOf (c : Char) :
    utf8EncodeChar c = bytesOf (form c.toNat).1 (form c.toNat).2 c.toNat := by
  have hc := char_toNat_lt c
  simp only [utf8EncodeChar, form, Nat.lt_succ_iff, Char.toNat_val]
  split_ifs with h1 h2 h3
  · rfl
  · rw [Nat.mod_eq_of_lt (by omega : c.toNat / 64 < 32)]
    rfl
  · rw [Nat.mod_eq_of_lt (by omega : c.toNat / 4096 < 16)]
    simp only [bytesOf, Nat.div_div_eq_div_mul]
    rfl
  · rw [Nat.mod_eq_of_lt (by omega : c.toNat / 262144 < 8)]
    simp only [bytesOf, Nat.div_div_eq_div_mul]
    rfl

theorem exists_utf8EncodeChar_eq_cons (c : Char) : ∃ b rest, utf8EncodeChar c = b :: rest :=
  List.exists_cons_of_ne_nil String.utf8EncodeChar_ne_nil

/-- Of two characters the greater has the greater bytes, whatever comes after them. -/
theorem utf8EncodeChar_append_lt {c d : Char} (h : c < d) (s t : List UInt8) :
    utf8EncodeChar c ++ s < utf8EncodeChar d ++ t := by
  have hnumber : c.toNat < d.toNat := h
  have hlead : leadByte d.toNat < 256 := leadByte_lt (char_toNat_lt d)
  rw [utf8EncodeChar_eq_bytesOf, utf8EncodeChar_eq_bytesOf]
  rcases form_eq_or_leadByte_lt hnumber with hform | hlt
  · rw [hform]
    exact bytesOf_append_lt hnumber hlead s t
  · exact bytesOf_append_lt_of_lead hlt hlead s t

theorem encode_lt {s t : List Char} (h : s < t) : encode s < encode t := by
  induction h with
  | @nil d t =>
    obtain ⟨b, rest, hd⟩ := exists_utf8EncodeChar_eq_cons d
    rw [encode, encode, List.flatMap_cons, hd]
    exact List.nil_lt_cons b _
  | cons h ih => exact List.append_left_lt ih
  | rel h => exact utf8EncodeChar_append_lt h _ _

end Utf8

/-- Texts are compared by what they are written as whenever the writing keeps their order: it then
tells any two of them apart. -/
theorem map_lt_iff_of_mono {β : Type} [LT β] [Std.Irrefl (α := β) (· < ·)]
    [Trans (α := β) (β := β) (γ := β) (· < ·) (· < ·) (· < ·)] {f : String → List β}
    (hmono : ∀ {s t}, s < t → f s < f t) {s t : String} : f s < f t ↔ s < t := by
  constructor
  · intro h
    rcases lt_trichotomy s t with hst | rfl | hts
    · exact hst
    · exact absurd h (List.lt_irrefl _)
    · exact absurd (List.lt_trans h (hmono hts)) (List.lt_irrefl _)
  · exact hmono

/-- A text comes before another exactly if its bytes do. -/
theorem toBytes_lt_iff {s t : String} : toBytes s < toBytes t ↔ s < t :=
  map_lt_iff_of_mono fun h => Utf8.encode_lt (String.lt_iff_toList_lt.1 h)

end ScriptHost.Text
