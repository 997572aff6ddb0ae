import Mathlib.Data.List.Induction
import ScriptHost.Proofs.TextFunctions
/-!
# Integers as texts

A text is read as an integer exactly if it is a sign or none and then one or
more decimal digits, and 64 bits can hold what it stands for. Of the texts that
stand for one integer, its printed text is the only one that has no plus, no
needless zero in front, and no minus before zero.
-/

namespace ScriptHost.Text

/-- One or more decimal digits, and the number that they stand for. -/
inductive Numeral : List Char → Nat → Prop where
  | digit {d : Nat} (hd : d < 10) : Numeral [d.digitChar] d
  | append {ds : List Char} {n d : Nat} (hds : Numeral ds n) (hd : d < 10) :
    Numeral (ds ++ [d.digitChar]) (10 * n + d)

/-- A numeral behind at most one sign, and the integer that it stands for. -/
inductive Spells : List Char → Int → Prop where
  | unsigned {ds : List Char} {n : Nat} (hds : Numeral ds n) : Spells ds n
  | plus {ds : List Char} {n : Nat} (hds : Numeral ds n) : Spells ('+' :: ds) n
  | minus {ds : List Char} {n : Nat} (hds : Numeral ds n) : Spells ('-' :: ds) (-n)

/-- Nothing is written that could be left out. -/
structure Terse (cs : List Char) : Prop where
  no_plus : ∀ ds, cs ≠ '+' :: ds
  no_leading_zero : ∀ c ds, cs ≠ '0' :: c :: ds ∧ cs ≠ '-' :: '0' :: c :: ds
  no_minus_zero : cs ≠ ['-', '0']

variable {cs ds : List Char} {c : Char} {m n : Nat}

/-! ### Numerals -/

theorem digitChar_toNat_sub (hc : c.isDigit = true) :
    c.toNat - '0'.toNat < 10 ∧ (c.toNat - '0'.toNat).digitChar = c := by
  obtain ⟨hle, hge⟩ := Char.isDigit_iff_toNat.1 hc
  have hlow : '0'.toNat = 48 := rfl
  have hhigh : '9'.toNat = 57 := rfl
  have hlt : c.toNat - '0'.toNat < 10 := by
    omega
  refine ⟨hlt, Char.toNat_inj.1 ?_⟩
  rw [Nat.toNat_digitChar_of_lt_ten hlt]
  omega

theorem ofDigitChars_concat (hn : n < 10) (ds : List Char) :
    Nat.ofDigitChars 10 (ds ++ [n.digitChar]) 0 = 10 * Nat.ofDigitChars 10 ds 0 + n := by
  rw [Nat.ofDigitChars_append, Nat.ofDigitChars_cons_digitChar_of_lt_ten hn, Nat.ofDigitChars_nil]

theorem Numeral.ne_nil (hds : Numeral ds n) : ds ≠ [] := by
  cases hds with
  | digit hd => exact List.cons_ne_nil _ _
  | append hds hd => exact List.append_ne_nil_of_right_ne_nil _ (List.cons_ne_nil _ _)

theorem Numeral.isDigit (hds : Numeral ds n) : ∀ c ∈ ds, c.isDigit = true := by
  induction hds with
  | digit hd => simpa using hd
  | append hds hd ih =>
    intro c hc
    obtain hc | hc := List.mem_append.1 hc
    · exact ih c hc
    · rw [List.mem_singleton.1 hc]
      simpa using hd

theorem Numeral.ofDigitChars_eq (hds : Numeral ds n) : Nat.ofDigitChars 10 ds 0 = n := by
  induction hds with
  | digit hd => exact (ofDigitChars_concat hd []).trans (by simp)
  | append hds hd ih => rw [ofDigitChars_concat hd, ih]

theorem numeral_ofDigitChars (hne : ds ≠ []) (hds : ∀ c ∈ ds, c.isDigit = true) :
    Numeral ds (Nat.ofDigitChars 10 ds 0) := by
  induction ds using List.reverseRecOn with
  | nil => exact absurd rfl hne
  | append_singleton ds c ih =>
    obtain ⟨hlt, hc⟩ := digitChar_toNat_sub (hds c (by simp))
    rw [← hc, ofDigitChars_concat hlt]
    by_cases hnil : ds = []
    · subst hnil
      simpa using Numeral.digit hlt
    · exact .append (ih hnil fun c hc => hds c (List.mem_append_left _ hc)) hlt

theorem natural?_eq_some_iff : natural? ds = some n ↔ Numeral ds n := by
  rw [natural?, Option.ite_none_right_eq_some, Option.some.injEq]
  constructor
  · rintro ⟨hds, rfl⟩
    simp only [Bool.and_eq_true, Bool.not_eq_true', List.isEmpty_eq_false_iff, List.all_eq_true]
      at hds
    exact numeral_ofDigitChars hds.1 hds.2
  · intro hds
    simpa [hds.ne_nil, hds.ofDigitChars_eq] using hds.isDigit

theorem numeral_toDigits (n : Nat) : Numeral (Nat.toDigits 10 n) n := by
  have hdigits : ∀ c ∈ Nat.toDigits 10 n, c.isDigit = true :=
    fun c hc => Nat.isDigit_of_mem_toDigits (by decide) (by decide) hc
  simpa using numeral_ofDigitChars Nat.toDigits_ne_nil hdigits

/-- Without needless zeros in front there is only one way to write a number. -/
theorem Numeral.eq_toDigits (hds : Numeral ds n) (hzero : ∀ c cs, ds ≠ '0' :: c :: cs) :
    ds = Nat.toDigits 10 n := by
  induction hds with
  | digit hd => exact (Nat.toDigits_of_lt_base hd).symm
  | @append ds n d hds hd ih =>
    have hds' : ds = Nat.toDigits 10 n := by
      refine ih fun c cs h => hzero c (cs ++ [d.digitChar]) ?_
      rw [h]
      rfl
    have hpos : 0 < n := by
      refine Nat.pos_of_ne_zero fun hn => hzero d.digitChar [] ?_
      rw [hds', hn, Nat.toDigits_zero]
      rfl
    rw [hds', ← Nat.toDigits_of_lt_base hd, Nat.toDigits_append_toDigits (by decide) hpos hd]

theorem toDigits_ne_zero_cons (n : Nat) (c : Char) (cs : List Char) :
    Nat.toDigits 10 n ≠ '0' :: c :: cs := by
  induction n using Nat.base_induction 10 (by decide) generalizing c cs with
  | single m hm => simp [Nat.toDigits_of_lt_base hm]
  | digit m k hk hm ih =>
    rw [← Nat.toDigits_append_toDigits (by decide) hm hk, Nat.toDigits_of_lt_base hk]
    intro h
    cases hds : Nat.toDigits 10 m with
    | nil => exact Nat.toDigits_ne_nil hds
    | cons x ds =>
      rw [hds, List.cons_append, List.cons.injEq] at h
      obtain ⟨rfl, -⟩ := h
      cases ds with
      | nil =>
        have hzero := Nat.ofDigitChars_ten_toDigits (n := m)
        rw [hds] at hzero
        exact Nat.ne_of_lt hm hzero
      | cons x ds => exact ih x ds hds

/-! ### Integers -/

theorem integer?_eq_some_iff {n : Int} : integer? cs = some n ↔ Spells cs n := by
  have hsigned {c : Char} {ds : List Char} {m : Nat} (hc : c.isDigit = false) :
      ¬ Numeral (c :: ds) m := by
    intro hds
    simpa [hc] using hds.isDigit c List.mem_cons_self
  unfold integer?
  split
  · next ds =>
    simp only [Option.map_eq_some_iff, natural?_eq_some_iff]
    constructor
    · rintro ⟨m, hds, rfl⟩
      exact .plus hds
    · intro h
      cases h with
      | unsigned hds => exact absurd hds (hsigned rfl)
      | plus hds => exact ⟨_, hds, rfl⟩
  · next ds =>
    simp only [bind_pure_comp, Option.map_eq_map, Option.map_eq_some_iff, natural?_eq_some_iff]
    constructor
    · rintro ⟨-, ⟨m, hds, rfl⟩, rfl⟩
      exact .minus hds
    · intro h
      cases h with
      | unsigned hds => exact absurd hds (hsigned rfl)
      | minus hds => exact ⟨_, ⟨_, hds, rfl⟩, rfl⟩
  · next hplus hminus =>
    simp only [Option.map_eq_some_iff, natural?_eq_some_iff]
    constructor
    · rintro ⟨m, hds, rfl⟩
      exact .unsigned hds
    · intro h
      cases h with
      | unsigned hds => exact ⟨_, hds, rfl⟩
      | plus hds => exact absurd rfl (hplus _)
      | minus hds => exact absurd rfl (hminus _)

theorem int64?_eq_some_iff {s : String} {n : Int64} :
    int64? s = some n ↔ Spells s.toList n.toInt := by
  rw [← integer?_eq_some_iff, int64?]
  have hlow : -0x8000000000000000 ≤ n.toInt := n.le_toInt
  have hhigh : n.toInt < 0x8000000000000000 := n.toInt_lt
  cases integer? s.toList with
  | none => simp
  | some m =>
    simp only [Option.ite_none_right_eq_some, Option.some.injEq]
    constructor
    · rintro ⟨⟨hle, hlt⟩, rfl⟩
      exact (Int64.toInt_ofInt_of_le hle hlt).symm
    · rintro rfl
      exact ⟨⟨hlow, hhigh⟩, Int64.ofInt_toInt n⟩

theorem int64?_eq_none_iff {s : String} :
    int64? s = none ↔
      ∀ m, Spells s.toList m → ¬ (-0x8000000000000000 ≤ m ∧ m ≤ 0x7FFFFFFFFFFFFFFF) := by
  rw [Option.eq_none_iff_forall_ne_some]
  simp only [ne_eq, int64?_eq_some_iff]
  constructor
  · rintro h m hm ⟨hlow, hhigh⟩
    have hm' := Int64.toInt_ofInt_of_le hlow (Int.lt_add_one_of_le hhigh)
    exact h (Int64.ofInt m) (hm'.symm ▸ hm)
  · intro h n hn
    exact h n.toInt hn ⟨n.le_toInt, Int.le_of_lt_add_one n.toInt_lt⟩

end ScriptHost.Text

namespace ScriptHost.Library.TextModule

open Text (Spells Terse Numeral)

theorem toList_formatInt (n : Int64) :
    (formatInt n).toList =
      if 0 ≤ n.toInt then Nat.toDigits 10 n.toInt.toNat
      else '-' :: Nat.toDigits 10 (-n.toInt).toNat := by
  rw [formatInt, Int.toString_eq_repr, Int.repr_eq_if]
  split
  · exact Nat.toList_repr
  · rw [String.toList_append, Nat.toList_repr]
    rfl

theorem spells_formatInt (n : Int64) : Spells (formatInt n).toList n.toInt := by
  rw [toList_formatInt]
  split
  · next hn =>
    have h := Spells.unsigned (Text.numeral_toDigits n.toInt.toNat)
    rwa [Int.toNat_of_nonneg hn] at h
  · next hn =>
    have h := Spells.minus (Text.numeral_toDigits (-n.toInt).toNat)
    rwa [Int.toNat_of_nonneg (by omega), Int.neg_neg] at h

theorem terse_formatInt (n : Int64) : Terse (formatInt n).toList := by
  rw [toList_formatInt]
  have hsign (m : Nat) {c : Char} {ds : List Char} (hc : c.isDigit = false) :
      Nat.toDigits 10 m ≠ c :: ds := by
    intro h
    have hdigit := (Text.numeral_toDigits m).isDigit c (h ▸ List.mem_cons_self)
    rw [hc] at hdigit
    cases hdigit
  split
  · exact ⟨fun _ => hsign _ rfl, fun c ds => ⟨Text.toDigits_ne_zero_cons _ c ds, hsign _ rfl⟩,
      hsign _ rfl⟩
  · next hn =>
    refine ⟨fun ds h => absurd (List.cons.inj h).1 (by decide), fun c ds =>
      ⟨fun h => absurd (List.cons.inj h).1 (by decide), fun h => ?_⟩, fun h => ?_⟩
    · exact Text.toDigits_ne_zero_cons _ c ds (List.cons.inj h).2
    · have hzero := Nat.ofDigitChars_ten_toDigits (n := (-n.toInt).toNat)
      rw [(List.cons.inj h).2] at hzero
      have : (-n.toInt).toNat = 0 := hzero.symm
      omega

theorem eq_formatInt_of_terse {cs : List Char} {n : Int64} (hcs : Spells cs n.toInt)
    (hterse : Terse cs) : cs = (formatInt n).toList := by
  rw [toList_formatInt]
  generalize n.toInt = k at hcs
  cases hcs with
  | @unsigned ds m hds =>
    rw [if_pos (Int.natCast_nonneg m), Int.toNat_natCast]
    exact hds.eq_toDigits fun c ds => (hterse.no_leading_zero c ds).1
  | plus hds => exact absurd rfl (hterse.no_plus _)
  | @minus ds m hds =>
    have heq : ds = Nat.toDigits 10 m :=
      hds.eq_toDigits fun c cs h => (hterse.no_leading_zero c cs).2 (congrArg _ h)
    have hpos : 0 < m := by
      refine Nat.pos_of_ne_zero fun hm => hterse.no_minus_zero ?_
      rw [heq, hm, Nat.toDigits_zero]
    rw [if_neg (by omega), Int.neg_neg, Int.toNat_natCast, heq]

/-! ### Calls -/

variable (handler : CallHandler) (w : World)

theorem call_atoi (s : String) :
    call handler "atoi" [.string s] w =
      some (.ok (match Text.int64? s with
        | some n => .int n
        | none => .error (.string ("invalid integer: " ++ Text.quote s))), w) := by
  have hname : declared? "atoi" members =
      some (Signature.lift ⟨[.string], .fallible (.native .int)⟩
        fun xs => (readInt xs.1).mapError Failure.message) := by
    simp [declared?, members]
  have hxs : Arguments.Denotes w.heap [.string] [.string s] (s, ()) := ⟨rfl, trivial⟩
  rw [call_lift hname hxs]
  simp only [readInt]
  cases Text.int64? s with
  | some n => rfl
  | none => rfl

theorem call_formatInt (n : Int64) :
    call handler "format_int" [.int n] w = some (.ok (.string (formatInt n)), w) := by
  have hname : declared? "format_int" members =
      some (Signature.lift ⟨[.int], .value (.native .string)⟩ fun xs => formatInt xs.1) := by
    simp [declared?, members]
  have hxs : Arguments.Denotes w.heap [.int] [.int n] (n, ()) := ⟨rfl, trivial⟩
  rw [call_lift hname hxs]
  rfl

theorem call_atoi_eq_int_iff {s : String} {n : Int64} :
    call handler "atoi" [.string s] w = some (.ok (.int n), w) ↔ Spells s.toList n.toInt := by
  rw [call_atoi, ← Text.int64?_eq_some_iff]
  cases Text.int64? s with
  | some m => simp
  | none => simp

/-- Texts are read as integers by the grammar of signs and digits, as far as 64 bits reach, and
every other text is answered by an error value that quotes it. Reading undoes printing. Printing
undoes reading but for what could have been left out. -/
theorem atoi_reads_decimal_integers :
    (∀ s n, call handler "atoi" [.string s] w = some (.ok (.int n), w) ↔
      Spells s.toList n.toInt) ∧
    (∀ s, (∀ m, Spells s.toList m → ¬ (-0x8000000000000000 ≤ m ∧ m ≤ 0x7FFFFFFFFFFFFFFF)) →
      call handler "atoi" [.string s] w =
        some (.ok (.error (.string ("invalid integer: " ++ Text.quote s))), w)) ∧
    (∀ n, ∃ t, call handler "format_int" [.int n] w = some (.ok (.string t), w) ∧
      call handler "atoi" [.string t] w = some (.ok (.int n), w)) ∧
    ∀ s n, call handler "atoi" [.string s] w = some (.ok (.int n), w) →
      ∃ t, call handler "format_int" [.int n] w = some (.ok (.string t), w) ∧
        ∀ u, call handler "atoi" [.string u] w = some (.ok (.int n), w) ∧ Terse u.toList ↔
          u = t := by
  have hback (n : Int64) :
      call handler "atoi" [.string (formatInt n)] w = some (.ok (.int n), w) :=
    (call_atoi_eq_int_iff handler w).2 (spells_formatInt n)
  refine ⟨fun s n => call_atoi_eq_int_iff handler w, fun s hs => ?_,
    fun n => ⟨_, call_formatInt handler w n, hback n⟩,
    fun s n _ => ⟨_, call_formatInt handler w n, fun u => ⟨?_, ?_⟩⟩⟩
  · rw [call_atoi, Text.int64?_eq_none_iff.2 hs]
  · rintro ⟨hu, hterse⟩
    rw [call_atoi_eq_int_iff] at hu
    exact String.toList_injective (eq_formatInt_of_terse hu hterse)
  · rintro rfl
    exact ⟨hback n, terse_formatInt n⟩

end ScriptHost.Library.TextModule
