import ScriptHost.Proofs.CharacterBoundary
import ScriptHost.Proofs.Splitting
/-!
# Searching in texts

All search functions tell of the same first occurrence. Its position is counted
in bytes and lies between two characters; the other functions say whether there
is one, whether it is at the beginning, and what is in front of it.
-/

namespace ScriptHost

namespace Text

variable {sep s sub : List Char} {n : Nat}

theorem contains_eq_isSome_index? (s sub : List Char) :
    contains s sub = (index? s sub).isSome := by
  rw [contains, index?, Option.isSome_map]

theorem contains_iff_nonempty : contains s sub = true ↔ (occurrences sub s).Nonempty := by
  rw [contains_eq_isSome_index?, Option.isSome_iff_ne_none, ne_eq, index?_eq_none_iff,
    Set.nonempty_iff_ne_empty]

theorem isPrefixOf_iff_zero_mem : sub.isPrefixOf s = true ↔ 0 ∈ occurrences sub s := by
  rw [List.isPrefixOf_iff_prefix, mem_occurrences, List.drop_zero, Utf8.encode_prefix_iff]

theorem split_eq_singleton_iff (hsep : sep ≠ []) :
    split s sep = [s] ↔ contains s sep = false := by
  have hfree : contains s sep = false ↔ ¬ sep <:+: s := by
    rw [contains, Option.isSome_eq_false_iff, Option.isNone_iff_eq_none, cut?_eq_none_iff]
  rw [hfree]
  constructor
  · intro hsplit
    exact (pieces_split hsep s).not_infix_of_mem hsep (hsplit ▸ List.mem_singleton_self s)
  · intro h
    exact (Pieces.last h).split_eq hsep

/-- The first piece is what is in front of the first occurrence. -/
theorem exists_split_eq_cons (hsep : sep ≠ []) (hn : index? s sep = some n) :
    ∃ p ps, split s sep = p :: ps ∧ byteLength p = n := by
  obtain ⟨⟨before, behind⟩, hcut, rfl⟩ := Option.map_eq_some_iff.1 hn
  have hpieces := pieces_split hsep s
  generalize split s sep = ps at hpieces ⊢
  cases hpieces with
  | last hfree => exact absurd (cut?_eq_none_iff.2 hfree) (by simp [hcut])
  | cut hfirst hrest =>
    rw [cut?_append hfirst.not_before] at hcut
    cases hcut
    exact ⟨_, _, rfl, rfl⟩

theorem utf8ByteSize_ofList (s : List Char) : (String.ofList s).utf8ByteSize = byteLength s := by
  induction s with
  | nil => rfl
  | cons c s ih =>
    rw [String.ofList_cons, String.utf8ByteSize_append, String.utf8ByteSize_singleton, ih,
      byteLength]

theorem isValid_of_index? {s sub : String} (hn : index? s.toList sub.toList = some n) :
    String.Pos.Raw.IsValid s ⟨n⟩ := by
  obtain ⟨before, behind, hs, rfl⟩ := exists_append_of_index? hn
  refine String.Pos.Raw.isValid_iff_exists_append.2 ⟨.ofList before, .ofList behind, ?_, ?_⟩
  · rw [← String.ofList_append, ← hs, String.ofList_toList]
  · rw [String.Pos.Raw.ext_iff, String.byteIdx_rawEndPos, utf8ByteSize_ofList]

end Text

namespace Library.TextModule

open Text (occurrences)

variable {s sub : String} {i : Int64} {n : Nat}

/-- The position of the first occurrence, which is between two characters, or `-1` if there is
none. -/
inductive Locates (s sub : String) (i : Int64) : Prop where
  | found {n : Nat} (hi : i.toInt = n) (hfirst : IsLeast (occurrences sub.toList s.toList) n)
      (hboundary : String.Pos.Raw.IsValid s ⟨n⟩)
  | missing (hi : i = -1) (hnone : occurrences sub.toList s.toList = ∅)

theorem toInt_index (hs : (Text.toBytes s).length < 0x8000000000000000)
    (hn : Text.index? s.toList sub.toList = some n) : (index s sub).toInt = n := by
  obtain ⟨before, behind, heq, rfl⟩ := Text.exists_append_of_index? hn
  rw [Text.toBytes, Text.Utf8.length_encode, heq, Text.byteLength_append] at hs
  have hlt : Text.byteLength before < 0x8000000000000000 := by omega
  simp only [index, hn, hlt, if_true]
  exact Int64.toInt_ofNat_of_lt hlt

theorem locates_index (hs : (Text.toBytes s).length < 0x8000000000000000) (sub : String) :
    Locates s sub (index s sub) := by
  cases hindex : Text.index? s.toList sub.toList with
  | none => exact .missing (by simp only [index, hindex]) (Text.index?_eq_none_iff.1 hindex)
  | some n =>
    exact .found (toInt_index hs hindex) (Text.index?_eq_some_iff.1 hindex)
      (Text.isValid_of_index? hindex)

namespace Locates

theorem nonneg_iff (hi : Locates s sub i) :
    0 ≤ i ↔ (occurrences sub.toList s.toList).Nonempty := by
  rw [Int64.le_iff_toInt_le, Int64.toInt_zero]
  cases hi with
  | @found n hi hfirst _ => exact iff_of_true (hi ▸ Int.natCast_nonneg n) ⟨n, hfirst.1⟩
  | missing hi hnone =>
    subst hi
    exact iff_of_false (by decide) (hnone ▸ Set.not_nonempty_empty)

theorem eq_zero_iff (hi : Locates s sub i) :
    i = 0 ↔ 0 ∈ occurrences sub.toList s.toList := by
  rw [← Int64.toInt_inj, Int64.toInt_zero]
  cases hi with
  | @found n hi hfirst _ =>
    rw [hi, Int.natCast_eq_zero]
    constructor
    · rintro rfl
      exact hfirst.1
    · intro hzero
      exact Nat.le_zero.1 (hfirst.2 hzero)
  | missing hi hnone =>
    subst hi
    exact iff_of_false (by decide) (hnone ▸ Set.notMem_empty 0)

end Locates

theorem isSuffixOf_iff_exists_append :
    sub.toList.isSuffixOf s.toList = true ↔ ∃ t, s = t ++ sub := by
  rw [List.isSuffixOf_iff_suffix]
  constructor
  · rintro ⟨t, ht⟩
    refine ⟨.ofList t, String.toList_injective ?_⟩
    rw [String.toList_append, String.toList_ofList, ht]
  · rintro ⟨t, rfl⟩
    rw [String.toList_append]
    exact List.suffix_append t.toList sub.toList

theorem split_eq_singleton_iff (hsub : sub ≠ "") :
    split s sub = [s] ↔ Text.contains s.toList sub.toList = false := by
  rw [← map_toList_inj, map_toList_split, List.map_singleton,
    Text.split_eq_singleton_iff (by simpa using hsub)]

theorem exists_split_eq_cons (hs : (Text.toBytes s).length < 0x8000000000000000)
    (hsub : sub ≠ "") (hcontains : Text.contains s.toList sub.toList = true) :
    ∃ p ps, split s sub = p :: ps ∧ (p.utf8ByteSize : Int) = (index s sub).toInt := by
  rw [Text.contains_eq_isSome_index?, Option.isSome_iff_exists] at hcontains
  obtain ⟨n, hn⟩ := hcontains
  obtain ⟨p, ps, hsplit, hp⟩ := Text.exists_split_eq_cons (by simpa using hsub) hn
  refine ⟨.ofList p, ps.map .ofList, by rw [split, hsplit, List.map_cons], ?_⟩
  rw [Text.utf8ByteSize_ofList, hp, toInt_index hs hn]

/-- What the functions that search return. -/
structure Answers (handler : CallHandler) (w : World) (s sub : String) (i : Int64)
    (within first last : Bool) (pieces : List String) : Prop where
  index_eq : call handler "index" [.string s, .string sub] w = some (.ok (.int i), w)
  contains_eq : call handler "contains" [.string s, .string sub] w = some (.ok (.bool within), w)
  hasPrefix_eq : call handler "has_prefix" [.string s, .string sub] w = some (.ok (.bool first), w)
  hasSuffix_eq : call handler "has_suffix" [.string s, .string sub] w = some (.ok (.bool last), w)
  split_eq : ∃ r h', ReturnsTexts handler "split" [.string s, .string sub] w pieces r h'

theorem answers (handler : CallHandler) (w : World) (s sub : String) :
    Answers handler w s sub (index s sub) (Text.contains s.toList sub.toList)
      (sub.toList.isPrefixOf s.toList) (sub.toList.isSuffixOf s.toList) (split s sub) where
  index_eq := call_index handler s sub w
  contains_eq := call_relation handler (by simp [declared?, members]) s sub w
  hasPrefix_eq :=
    call_relation handler (p := fun s t => t.isPrefixOf s) (by simp [declared?, members]) s sub w
  hasSuffix_eq :=
    call_relation handler (p := fun s t => t.isSuffixOf s) (by simp [declared?, members]) s sub w
  split_eq := exists_returnsTexts_split handler w s sub

/-- The functions that search agree about the first occurrence, in any text that fits into
memory. -/
theorem search_functions_agree (handler : CallHandler)
    (hs : (Text.toBytes s).length < 0x8000000000000000) (sub : String) (w : World) :
    ∃ i within first last pieces, Answers handler w s sub i within first last pieces ∧
      Locates s sub i ∧ (within = true ↔ 0 ≤ i) ∧ (first = true ↔ i = 0) ∧
      (last = true ↔ ∃ t, s = t ++ sub) ∧
      (sub ≠ "" → (pieces = [s] ↔ within = false) ∧
        (within = true → ∃ p ps, pieces = p :: ps ∧ (p.utf8ByteSize : Int) = i.toInt)) := by
  have hlocates := locates_index hs sub
  refine ⟨_, _, _, _, _, answers handler w s sub, hlocates, ?_, ?_,
    isSuffixOf_iff_exists_append, ?_⟩
  · rw [hlocates.nonneg_iff, Text.contains_iff_nonempty]
  · rw [hlocates.eq_zero_iff, Text.isPrefixOf_iff_zero_mem]
  · intro hsub
    exact ⟨split_eq_singleton_iff hsub, exists_split_eq_cons hs hsub⟩

/-- A character of three bytes is found behind characters of one and two, before it comes again. -/
theorem search_functions_agree_threeBytes :
    (Text.toBytes "aé€é€").length < 0x8000000000000000 ∧
      ∃ first last pieces, Answers (fun _ _ _ => none) ∅ "aé€é€" "€" 3 true first last pieces ∧
        Locates "aé€é€" "€" 3 ∧ ∃ p ps, pieces = p :: ps ∧ p.utf8ByteSize = 3 := by
  have hs : (Text.toBytes "aé€é€").length < 0x8000000000000000 := by decide
  obtain ⟨i, within, first, last, pieces, hanswers, hlocates, hwithin, -, -, hsplit⟩ :=
    search_functions_agree (fun _ _ _ => none) hs "€" ∅
  have hcall := hanswers.index_eq.symm.trans (call_index _ "aé€é€" "€" ∅)
  obtain rfl : i = 3 := by
    rw [show index "aé€é€" "€" = 3 by decide] at hcall
    cases hcall
    rfl
  obtain rfl : within = true := hwithin.2 (by decide)
  obtain ⟨p, ps, hpieces, hp⟩ := (hsplit (by decide)).2 rfl
  exact ⟨hs, first, last, pieces, hanswers, hlocates, p, ps, hpieces, Int.ofNat.inj hp⟩

end Library.TextModule

end ScriptHost
