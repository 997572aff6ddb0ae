/-!
# Searching in texts

Texts are lists of characters here, and a position is counted in bytes of
UTF-8.
-/

namespace ScriptHost.Text

def byteLength : List Char → Nat
  | [] => 0
  | c :: cs => c.utf8Size + byteLength cs

/-- What is before and behind the first occurrence of `sep`. -/
def cut? (sep : List Char) : List Char → Option (List Char × List Char)
  | [] => if sep.isEmpty then some ([], []) else none
  | c :: cs =>
    if sep.isPrefixOf (c :: cs) then some ([], (c :: cs).drop sep.length)
    else (cut? sep cs).map fun (before, behind) => (c :: before, behind)

def contains (s sub : List Char) : Bool :=
  (cut? sub s).isSome

/-- Where `sub` occurs first in `s`, in bytes. -/
def index? (s sub : List Char) : Option Nat :=
  (cut? sub s).map fun (before, _) => byteLength before

theorem append_of_cut? {sep s before behind : List Char} (h : cut? sep s = some (before, behind)) :
    s = before ++ sep ++ behind := by
  induction s generalizing before with
  | nil =>
    simp only [cut?] at h
    split at h <;> simp_all
  | cons c cs ih =>
    simp only [cut?] at h
    split at h
    · next hp =>
      obtain ⟨rest, hr⟩ := List.isPrefixOf_iff_prefix.1 hp
      cases h
      simp [← hr]
    · obtain ⟨⟨b, a⟩, h', hb⟩ := Option.map_eq_some_iff.1 h
      cases hb
      simp [ih h']

theorem cut?_eq_none_iff {sep s : List Char} : cut? sep s = none ↔ ¬ sep <:+: s := by
  induction s with
  | nil => simp [cut?]
  | cons c cs ih =>
    rw [cut?, List.infix_cons_iff, not_or, ← ih, ← List.isPrefixOf_iff_prefix]
    split
    · next hp => simp [hp]
    · next hp => simp [hp]

theorem not_prefix_of_cut? {sep s before behind : List Char}
    (h : cut? sep s = some (before, behind)) {i : Nat} (hi : i < before.length) :
    ¬ sep <+: s.drop i := by
  induction s generalizing before i with
  | nil =>
    simp only [cut?] at h
    split at h <;> simp_all
  | cons c cs ih =>
    simp only [cut?] at h
    split at h
    · cases h
      simp at hi
    · next hp =>
      obtain ⟨⟨b, a⟩, h', hb⟩ := Option.map_eq_some_iff.1 h
      cases hb
      cases i with
      | zero => simpa [List.isPrefixOf_iff_prefix] using hp
      | succ i => exact ih h' (Nat.lt_of_succ_lt_succ hi)

theorem exists_cut?_of_infix {sep s : List Char} (h : sep <:+: s) :
    ∃ before behind, cut? sep s = some (before, behind) := by
  obtain ⟨⟨before, behind⟩, hcut⟩ :=
    Option.ne_none_iff_exists'.1 fun hnone => cut?_eq_none_iff.1 hnone h
  exact ⟨before, behind, hcut⟩

theorem cut?_append {sep before behind : List Char}
    (h : ∀ i < before.length, ¬ sep <+: (before ++ sep ++ behind).drop i) :
    cut? sep (before ++ sep ++ behind) = some (before, behind) := by
  obtain ⟨b, a, hcut⟩ := exists_cut?_of_infix (List.infix_append before sep behind)
  have heq : before ++ sep ++ behind = b ++ sep ++ a := append_of_cut? hcut
  -- Neither occurrence is before the other, since the separator stands where the text is cut.
  have hle : before.length ≤ b.length := by
    refine Nat.not_lt.1 fun hlt => h b.length hlt ?_
    rw [heq, List.append_assoc, List.drop_left]
    exact List.prefix_append sep a
  have hge : b.length ≤ before.length := by
    refine Nat.not_lt.1 fun hlt => not_prefix_of_cut? hcut hlt ?_
    rw [List.append_assoc, List.drop_left]
    exact List.prefix_append sep behind
  rw [List.append_assoc, List.append_assoc] at heq
  obtain ⟨rfl, hrest⟩ := List.append_inj heq (by omega)
  cases List.append_cancel_left hrest
  exact hcut

end ScriptHost.Text
