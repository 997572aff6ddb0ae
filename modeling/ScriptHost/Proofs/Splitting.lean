import ScriptHost.Proofs.TextFunctions
import ScriptHost.Proofs.TextPieces
/-!
# Splitting and joining texts

A text that was split is the join of its pieces, and a limit changes the pieces
only by joining the last of them. A list of texts that was joined by a character
is found again by splitting, if the character is in none of them.
-/

namespace ScriptHost.Library.TextModule

open Text (FirstAt gather)

variable {s sep : String} {n : Int64} {parts : List String} {k : Nat}

theorem map_toList_map_ofList (ps : List (List Char)) :
    (ps.map String.ofList).map String.toList = ps := by
  simp

theorem map_ofList_map_toList (parts : List String) :
    (parts.map String.toList).map String.ofList = parts := by
  simp

theorem map_toList_inj {ps qs : List String} :
    ps.map String.toList = qs.map String.toList ↔ ps = qs :=
  (List.map_injective_iff.2 fun _ _ => String.toList_injective).eq_iff

theorem map_toList_split (s sep : String) :
    (split s sep).map String.toList = Text.split s.toList sep.toList :=
  map_toList_map_ofList _

theorem join_split (s sep : String) : join (split s sep) sep = s := by
  rw [join, map_toList_split, Text.join_split, String.ofList_toList]

/-! ### Limits -/

theorem splitN_of_neg (hn : n < 0) (s sep : String) : splitN s sep n = split s sep :=
  if_pos hn

theorem map_toList_splitN (hn : ¬ n < 0) (s sep : String) :
    (splitN s sep n).map String.toList =
      gather sep.toList n.toInt.toNat ((split s sep).map String.toList) := by
  rw [splitN, if_neg hn, map_toList_map_ofList, Text.splitN_eq_gather, map_toList_split]

theorem toNat_toInt_pos (hn : 0 < n) : 0 < n.toInt.toNat := by
  have := Int64.lt_iff_toInt_lt.1 hn
  simp only [Int64.toInt_zero] at this
  omega

theorem splitN_zero (s sep : String) : splitN s sep 0 = [] := by
  have hpieces := map_toList_splitN (by decide : ¬ (0 : Int64) < 0) s sep
  exact List.map_eq_nil_iff.1 hpieces

theorem splitN_of_pos (hn : 0 < n) (s sep : String) :
    splitN s sep n =
      if ((split s sep).length : Int) ≤ n.toInt then split s sep
      else
        (split s sep).take (n.toInt.toNat - 1) ++
          [join ((split s sep).drop (n.toInt.toNat - 1)) sep] := by
  have hpos := toNat_toInt_pos hn
  have hpieces := map_toList_splitN (Int64.not_lt.2 (Int64.le_of_lt hn)) s sep
  rw [← map_ofList_map_toList (splitN s sep n), hpieces]
  split
  · next hle =>
    rw [Text.gather_of_length_le (by rw [List.length_map]; omega), map_ofList_map_toList]
  · next hlt =>
    obtain ⟨k, hk⟩ : ∃ k, n.toInt.toNat = k + 1 := ⟨n.toInt.toNat - 1, by omega⟩
    have hlength : k < ((split s sep).map String.toList).length := by
      rw [List.length_map]
      omega
    rw [hk, Text.gather_succ_of_lt_length hlength, Nat.add_sub_cancel, List.map_append,
      ← List.map_take, ← List.map_drop, map_ofList_map_toList]
    rfl

theorem length_splitN_le (hn : 0 < n) (s sep : String) :
    ((splitN s sep n).length : Int) ≤ n.toInt := by
  have hpos := toNat_toInt_pos hn
  have hpieces := map_toList_splitN (Int64.not_lt.2 (Int64.le_of_lt hn)) s sep
  have hle := Text.length_gather_le sep.toList n.toInt.toNat ((split s sep).map String.toList)
  rw [← hpieces, List.length_map] at hle
  omega

theorem join_splitN (hn : n ≠ 0) (s sep : String) : join (splitN s sep n) sep = s := by
  by_cases hneg : n < 0
  · rw [splitN_of_neg hneg, join_split]
  · have hpos : 0 < n := Int64.lt_of_le_of_ne (Int64.not_lt.1 hneg) (Ne.symm hn)
    obtain ⟨k, hk⟩ : ∃ k, n.toInt.toNat = k + 1 :=
      ⟨n.toInt.toNat - 1, by have := toNat_toInt_pos hpos; omega⟩
    rw [join, map_toList_splitN hneg, hk, Text.join_gather_succ]
    exact join_split s sep

/-! ### Pieces -/

theorem split_ne_nil (hsep : sep.toList ≠ []) (s : String) : split s sep ≠ [] := by
  have hpieces := (Text.pieces_split hsep s.toList).ne_nil
  rw [← map_toList_split] at hpieces
  exact fun hnil => hpieces (by rw [hnil, List.map_nil])

theorem not_infix_of_mem_split (hsep : sep.toList ≠ []) {p : String} (hp : p ∈ split s sep) :
    ¬ sep.toList <:+: p.toList := by
  apply (Text.pieces_split hsep s.toList).not_infix_of_mem hsep
  rw [← map_toList_split]
  exact List.mem_map_of_mem hp

theorem firstAt_split (hsep : sep.toList ≠ []) {before behind : List String} {p : String}
    (hsplit : split s sep = before ++ p :: behind) (hbehind : behind ≠ []) :
    ∃ rest, s = String.join (before.map (· ++ sep)) ++ (p ++ sep ++ rest) ∧
      FirstAt sep.toList (p ++ sep ++ rest).toList p.length := by
  have hpieces := congrArg (List.map String.toList) hsplit
  rw [map_toList_split, List.map_append, List.map_cons] at hpieces
  have hmore : behind.map String.toList ≠ [] := by simpa using hbehind
  obtain ⟨rest, hs, hat⟩ := (Text.pieces_split hsep s.toList).firstAt hpieces hmore
  refine ⟨String.ofList rest, ?_, ?_⟩
  · apply String.toList_injective
    simp [hs, List.flatten_eq_flatMap, List.flatMap_map]
  · simpa [String.length_toList] using hat

theorem split_empty (s : String) : split s "" = s.toList.map String.singleton := by
  rw [split, String.toList_empty, Text.split_empty, List.map_map]
  rfl

/-- Splitting loses nothing, and a limit joins the last pieces. Around a text that is not empty the
pieces are what is between its occurrences, found from the left; around the empty text they are the
characters. -/
theorem splitN_without_loss (handler : CallHandler) (s sep : String) (w : World) :
    (∃ r h', ReturnsTexts handler "split" [.string s, .string sep] w (split s sep) r h') ∧
      (∀ n, ∃ r h',
        ReturnsTexts handler "split_n" [.string s, .string sep, .int n] w (splitN s sep n) r h' ∧
          (n ≠ 0 → call handler "join" [.array r, .string sep] { w with heap := h' } =
            some (.ok (.string s), { w with heap := h' }))) ∧
      splitN s sep 0 = [] ∧
      (∀ n < 0, splitN s sep n = split s sep) ∧
      (∀ n > 0, ((splitN s sep n).length : Int) ≤ n.toInt ∧
        splitN s sep n =
          if ((split s sep).length : Int) ≤ n.toInt then split s sep
          else
            (split s sep).take (n.toInt.toNat - 1) ++
              [join ((split s sep).drop (n.toInt.toNat - 1)) sep]) ∧
      (sep ≠ "" → split s sep ≠ [] ∧ (∀ p ∈ split s sep, ¬ sep.toList <:+: p.toList) ∧
        ∀ before p behind, split s sep = before ++ p :: behind → behind ≠ [] →
          ∃ rest, s = String.join (before.map (· ++ sep)) ++ (p ++ sep ++ rest) ∧
            FirstAt sep.toList (p ++ sep ++ rest).toList p.length) ∧
      (sep = "" → split s sep = s.toList.map String.singleton) := by
  refine ⟨exists_returnsTexts_split handler w s sep, ?_, splitN_zero s sep,
    fun n hn => splitN_of_neg hn s sep,
    fun n hn => ⟨length_splitN_le hn s sep, splitN_of_pos hn s sep⟩, ?_, ?_⟩
  · intro n
    obtain ⟨r, h', hreturns⟩ := exists_returnsTexts_splitN handler w s sep n
    refine ⟨r, h', hreturns, fun hn => ?_⟩
    have hjoin := call_join handler (w := { w with heap := h' }) hreturns.items_eq sep
    rwa [join_splitN hn] at hjoin
  · intro hsep
    have hne : sep.toList ≠ [] := by simpa using hsep
    exact ⟨split_ne_nil hne s, fun p => not_infix_of_mem_split hne,
      fun before p behind => firstAt_split hne⟩
  · rintro rfl
    exact split_empty s

/-! ### Parts joined by a character -/

theorem split_join_singleton (c : Char) (p : String) (ps : List String) :
    split (join (p :: ps) (.singleton c)) (.singleton c) =
      (p :: ps).flatMap fun q => split q (.singleton c) := by
  have hpieces (q : String) :
      split q (.singleton c) = (Text.split q.toList [c]).map String.ofList := by
    rw [split, String.toList_singleton]
  rw [hpieces, join, String.toList_ofList, String.toList_singleton, List.map_cons,
    Text.split_join_singleton, ← List.map_cons, List.map_flatMap, List.flatMap_map]
  exact List.flatMap_congr fun q _ => (hpieces q).symm

theorem split_join_singleton_eq_iff {c : Char} (hne : parts ≠ []) :
    split (join parts (.singleton c)) (.singleton c) = parts ↔ ∀ p ∈ parts, c ∉ p.toList := by
  rw [← map_toList_inj, map_toList_split, join, String.toList_ofList, String.toList_singleton,
    Text.split_join_eq_iff (by simpa using hne), List.forall_mem_map]

/-- An array of texts that was joined by a character is found again by splitting. -/
theorem split_undoes_join (handler : CallHandler) {c : Char} (hne : parts ≠ [])
    (hc : ∀ p ∈ parts, c ∉ p.toList) {w : World} {a : Ref}
    (ha : w.heap.items a = parts.map .string) :
    ∃ t, call handler "join" [.array a, .string (.singleton c)] w = some (.ok (.string t), w) ∧
      (∃ r h', ReturnsTexts handler "split" [.string t, .string (.singleton c)] w parts r h') ∧
      ∀ n ≥ 1, ∃ r h',
        ReturnsTexts handler "split_n" [.string t, .string (.singleton c), .int n] w
          (if n.toInt < parts.length then
            parts.take (n.toInt.toNat - 1) ++
              [join (parts.drop (n.toInt.toNat - 1)) (.singleton c)]
          else parts) r h' := by
  have hsplit := (split_join_singleton_eq_iff hne).2 hc
  refine ⟨_, call_join handler ha _, ?_, ?_⟩
  · have hreturns :=
      exists_returnsTexts_split handler w (join parts (.singleton c)) (.singleton c)
    rwa [hsplit] at hreturns
  · intro n hn
    have hreturns :=
      exists_returnsTexts_splitN handler w (join parts (.singleton c)) (.singleton c) n
    have hpos : 0 < n := Int64.lt_of_lt_of_le (by decide) hn
    rw [splitN_of_pos hpos, hsplit] at hreturns
    rw [← ite_not] at hreturns
    simpa only [Int.not_le] using hreturns

def dotted : World :=
  ⟨⟨#[[.string "", .string "a.b", .string "é"]]⟩, #[], #[], 0⟩

theorem split_undoes_join_dotted :
    (["", "a.b", "é"] : List String) ≠ [] ∧ (∀ p ∈ ["", "a.b", "é"], '·' ∉ p.toList) ∧
      dotted.heap.items ⟨0⟩ = ["", "a.b", "é"].map .string ∧
      ∃ t, call (fun _ _ _ => none) "join" [.array ⟨0⟩, .string "·"] dotted =
          some (.ok (.string t), dotted) ∧
        ∃ r h', ReturnsTexts (fun _ _ _ => none) "split_n" [.string t, .string "·", .int 2]
          dotted ["", "a.b·é"] r h' := by
  have hne : (["", "a.b", "é"] : List String) ≠ [] := List.cons_ne_nil _ _
  have hc : ∀ p ∈ ["", "a.b", "é"], '·' ∉ p.toList := by decide
  have hitems : dotted.heap.items ⟨0⟩ = ["", "a.b", "é"].map .string := rfl
  obtain ⟨t, hjoin, -, hlimited⟩ := split_undoes_join (fun _ _ _ => none) hne hc hitems
  exact ⟨hne, hc, hitems, t, hjoin, hlimited 2 (by decide)⟩

end ScriptHost.Library.TextModule
