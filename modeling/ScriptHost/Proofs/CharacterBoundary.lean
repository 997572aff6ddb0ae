import Mathlib.Order.Bounds.Basic
import ScriptHost.Proofs.ByteOrder
import ScriptHost.Text.Search
/-!
# Where the bytes of a text can occur

In UTF-8 a byte tells whether it begins a character. So the bytes of a text
that is not empty occur in the bytes of another only where a character begins,
and the characters of the text occur there too. The first occurrence among the
characters is therefore the first among the bytes.
-/

namespace ScriptHost.Text

open String (utf8EncodeChar)

variable {c d : Char} {s t sub before behind : List Char} {j n : Nat}

/-! ### Lengths in bytes -/

@[simp] theorem byteLength_append (s t : List Char) :
    byteLength (s ++ t) = byteLength s + byteLength t := by
  induction s with
  | nil => simp [byteLength]
  | cons c s ih => simp only [List.cons_append, byteLength, ih, Nat.add_assoc]

namespace Utf8

@[simp] theorem encode_nil : encode [] = [] := rfl

@[simp] theorem encode_cons (c : Char) (s : List Char) :
    encode (c :: s) = utf8EncodeChar c ++ encode s :=
  List.flatMap_cons

@[simp] theorem encode_append (s t : List Char) : encode (s ++ t) = encode s ++ encode t :=
  List.flatMap_append

@[simp] theorem length_encode (s : List Char) : (encode s).length = byteLength s := by
  induction s with
  | nil => rfl
  | cons c s ih => simp [byteLength, ih]

/-! ### Bytes that begin a character -/

theorem utf8EncodeChar_append_inj {b b' : List UInt8}
    (h : utf8EncodeChar c ++ b = utf8EncodeChar d ++ b') : c = d ∧ b = b' := by
  rcases lt_trichotomy c d with hlt | rfl | hlt
  · exact absurd (h ▸ utf8EncodeChar_append_lt hlt b b') (List.lt_irrefl _)
  · exact ⟨rfl, List.append_cancel_left h⟩
  · exact absurd (h ▸ utf8EncodeChar_append_lt hlt b' b) (List.lt_irrefl _)

theorem encode_prefix_iff : encode sub <+: encode s ↔ sub <+: s := by
  constructor
  · intro h
    induction sub generalizing s with
    | nil => exact List.nil_prefix
    | cons c sub ih =>
      obtain ⟨b, hb⟩ := h
      rw [encode_cons, List.append_assoc] at hb
      cases s with
      | nil =>
        have hnil := (List.append_eq_nil_iff.1 hb).1
        exact absurd hnil String.utf8EncodeChar_ne_nil
      | cons d s =>
        rw [encode_cons] at hb
        obtain ⟨rfl, hrest⟩ := utf8EncodeChar_append_inj hb
        exact (List.prefix_cons_inj c).2 (ih ⟨b, hrest⟩)
  · rintro ⟨t, rfl⟩
    exact ⟨encode t, (encode_append sub t).symm⟩

theorem exists_encode_eq_cons (hs : s ≠ []) :
    ∃ b rest, encode s = b :: rest ∧ b.IsUTF8FirstByte := by
  obtain ⟨c, s, rfl⟩ := List.exists_cons_of_ne_nil hs
  obtain ⟨b, rest, hc⟩ := exists_utf8EncodeChar_eq_cons c
  refine ⟨b, rest ++ encode s, by rw [encode_cons, hc, List.cons_append], ?_⟩
  have hpos : 0 < (utf8EncodeChar c).length := by simp [hc]
  have hb : (utf8EncodeChar c)[0] = b := by simp [hc]
  exact hb ▸ UInt8.isUTF8FirstByte_getElem_utf8EncodeChar.2 rfl

/-- A byte that begins a character stands behind whole characters. -/
theorem exists_append_of_drop_eq_cons {b : UInt8} {rest : List UInt8}
    (hdrop : (encode s).drop j = b :: rest) (hb : b.IsUTF8FirstByte) :
    ∃ before behind, s = before ++ behind ∧ byteLength before = j := by
  induction s generalizing j with
  | nil => simp at hdrop
  | cons c s ih =>
    have hlength : (utf8EncodeChar c).length = c.utf8Size := String.length_utf8EncodeChar c
    by_cases hj : j < c.utf8Size
    · -- Of the bytes of a character only the first can be `b`.
      have hj' : j < (utf8EncodeChar c).length := hlength ▸ hj
      rw [encode_cons, List.drop_append_of_le_length hj'.le, List.drop_eq_getElem_cons hj'] at hdrop
      obtain ⟨rfl, -⟩ := List.cons.inj hdrop
      obtain rfl : j = 0 := UInt8.isUTF8FirstByte_getElem_utf8EncodeChar.1 hb
      exact ⟨[], c :: s, rfl, rfl⟩
    · obtain ⟨k, rfl⟩ := Nat.le.dest (Nat.not_lt.1 hj)
      rw [encode_cons, ← hlength, List.drop_length_add_append] at hdrop
      obtain ⟨before, behind, rfl, hk⟩ := ih hdrop
      exact ⟨c :: before, behind, rfl, by rw [byteLength, hk]⟩

theorem drop_encode_append (before behind : List Char) :
    (encode (before ++ behind)).drop (byteLength before) = encode behind := by
  rw [encode_append, ← length_encode, List.drop_left]

theorem encode_prefix_drop_iff (hsub : sub ≠ []) :
    encode sub <+: (encode s).drop j ↔
      ∃ before behind, s = before ++ behind ∧ byteLength before = j ∧ sub <+: behind := by
  constructor
  · intro h
    obtain ⟨b, rest, hencode, hb⟩ := exists_encode_eq_cons hsub
    obtain ⟨more, hmore⟩ := h
    rw [hencode, List.cons_append] at hmore
    obtain ⟨before, behind, rfl, rfl⟩ := exists_append_of_drop_eq_cons hmore.symm hb
    refine ⟨before, behind, rfl, rfl, ?_⟩
    rw [← encode_prefix_iff, ← drop_encode_append before behind, ← hmore, hencode]
    exact List.prefix_append _ more
  · rintro ⟨before, behind, rfl, rfl, hprefix⟩
    rw [drop_encode_append]
    exact encode_prefix_iff.2 hprefix

end Utf8

/-! ### The first occurrence -/

/-- The positions in bytes at which the bytes of one text occur in those of another. -/
def occurrences (sub s : List Char) : Set Nat :=
  {j | Utf8.encode sub <+: (Utf8.encode s).drop j}

theorem mem_occurrences : j ∈ occurrences sub s ↔ Utf8.encode sub <+: (Utf8.encode s).drop j :=
  Iff.rfl

theorem mem_occurrences_of_append (before behind : List Char) :
    byteLength before ∈ occurrences sub (before ++ sub ++ behind) := by
  rw [mem_occurrences, List.append_assoc, Utf8.drop_encode_append]
  exact Utf8.encode_prefix_iff.2 (List.prefix_append sub behind)

theorem infix_of_mem_occurrences (hj : j ∈ occurrences sub s) : sub <:+: s := by
  by_cases hsub : sub = []
  · subst hsub
    exact List.nil_infix
  · obtain ⟨before, behind, rfl, -, hprefix⟩ := (Utf8.encode_prefix_drop_iff hsub).1 hj
    exact hprefix.isInfix.trans (List.suffix_append before behind).isInfix

/-- No occurrence in bytes is before the first among the characters. -/
theorem byteLength_le_of_cut? (hcut : cut? sub s = some (before, behind))
    (hj : j ∈ occurrences sub s) : byteLength before ≤ j := by
  have hs : s = before ++ sub ++ behind := append_of_cut? hcut
  by_cases hsub : sub = []
  · have hnil : before = [] := by
      by_contra hne
      exact not_prefix_of_cut? hcut (List.length_pos_iff.2 hne) (hsub ▸ List.nil_prefix)
    rw [hnil]
    exact Nat.zero_le j
  · obtain ⟨before', behind', hs', rfl, hprefix⟩ := (Utf8.encode_prefix_drop_iff hsub).1 hj
    have hle : before.length ≤ before'.length := by
      refine Nat.not_lt.1 fun hlt => not_prefix_of_cut? hcut hlt ?_
      rwa [hs', List.drop_left]
    have hlonger : before <+: before' := by
      refine List.prefix_of_prefix_length_le ?_ (hs' ▸ List.prefix_append before' behind') hle
      rw [hs, List.append_assoc]
      exact List.prefix_append before _
    obtain ⟨more, rfl⟩ := hlonger
    rw [byteLength_append]
    exact Nat.le_add_right _ _

theorem index?_eq_some_iff : index? s sub = some n ↔ IsLeast (occurrences sub s) n := by
  have hleast {before behind : List Char} (hcut : cut? sub s = some (before, behind)) :
      IsLeast (occurrences sub s) (byteLength before) := by
    refine ⟨?_, fun j => byteLength_le_of_cut? hcut⟩
    rw [append_of_cut? hcut]
    exact mem_occurrences_of_append before behind
  rw [index?, Option.map_eq_some_iff]
  constructor
  · rintro ⟨⟨before, behind⟩, hcut, rfl⟩
    exact hleast hcut
  · intro hn
    obtain ⟨before, behind, hcut⟩ := exists_cut?_of_infix (infix_of_mem_occurrences hn.1)
    exact ⟨_, hcut, (hleast hcut).unique hn⟩

theorem index?_eq_none_iff : index? s sub = none ↔ occurrences sub s = ∅ := by
  rw [index?, Option.map_eq_none_iff, cut?_eq_none_iff, Set.eq_empty_iff_forall_notMem]
  constructor
  · intro hfree j hj
    exact hfree (infix_of_mem_occurrences hj)
  · rintro hempty ⟨before, behind, rfl⟩
    exact hempty _ (mem_occurrences_of_append before behind)

/-- The first occurrence is between two characters. -/
theorem exists_append_of_index? (hn : index? s sub = some n) :
    ∃ before behind, s = before ++ behind ∧ byteLength before = n := by
  obtain ⟨⟨before, behind⟩, hcut, rfl⟩ := Option.map_eq_some_iff.1 hn
  exact ⟨before, sub ++ behind, by rw [append_of_cut? hcut, List.append_assoc], rfl⟩

end ScriptHost.Text
