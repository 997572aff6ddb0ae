import Mathlib.Data.Finset.Card
import ScriptHost.Debug
import ScriptHost.Evaluation
import ScriptHost.Proofs.ByteOrder
import ScriptHost.Proofs.PartialEquivalence
import ScriptHost.Serialization
/-!
# Collected maps

A map is collected from a list of bindings. Of the bindings of a key the last
one counts, and nothing else of the list can be seen in the map: its keys are
in the order of their bytes, which is also the order that scripts see.
-/

namespace ScriptHost

namespace Dict

variable {α : Type} {l l' : List (String × α)} {m n : Dict α} {j k : String} {a b : α}

/-- The last entry of the key has this value. -/
def LastBinding (l : List (String × α)) (k : String) (a : α) : Prop :=
  ∃ before behind, l = before ++ (k, a) :: behind ∧ k ∉ behind.map Prod.fst

theorem not_lastBinding_nil : ¬ LastBinding [] k a := by
  rintro ⟨before, behind, h, -⟩
  exact List.append_ne_nil_of_right_ne_nil before (List.cons_ne_nil _ _) h.symm

theorem lastBinding_cons_iff {e : String × α} :
    LastBinding (e :: l) k a ↔ LastBinding l k a ∨ k ∉ l.map Prod.fst ∧ e = (k, a) := by
  constructor
  · rintro ⟨before, behind, h, hk⟩
    cases before with
    | nil =>
      obtain ⟨rfl, rfl⟩ := List.cons.inj h
      exact .inr ⟨hk, rfl⟩
    | cons _ before =>
      obtain ⟨rfl, rfl⟩ := List.cons.inj h
      exact .inl ⟨before, behind, rfl, hk⟩
  · rintro (⟨before, behind, rfl, hk⟩ | ⟨hk, rfl⟩)
    · exact ⟨e :: before, behind, rfl, hk⟩
    · exact ⟨[], l, rfl, hk⟩

theorem LastBinding.mem_keys (h : LastBinding l k a) : k ∈ l.map Prod.fst := by
  obtain ⟨before, behind, rfl, -⟩ := h
  simp

/-! ### Looking up in a collected map -/

/-- Each entry of the list goes over what was bound before it. -/
theorem get?_foldl_insert (m : Dict α) :
    (l.foldl (fun m e => m.insert e.1 e.2) m).get? k = some a ↔
      LastBinding l k a ∨ k ∉ l.map Prod.fst ∧ m.get? k = some a := by
  -- The induction is for all maps, as every entry is put into what those before it made.
  induction l generalizing m with
  | nil => simp [not_lastBinding_nil]
  | cons e l ih =>
    obtain ⟨k', a'⟩ := e
    rw [List.foldl_cons, ih, get?_insert, lastBinding_cons_iff]
    by_cases hk : k = k'
    · subst hk
      simp
    · have hk' : ¬ k' = k := fun h => hk h.symm
      simp [hk, hk']

theorem get?_ofList_eq_some_iff : (ofList l).get? k = some a ↔ LastBinding l k a := by
  rw [ofList, get?_foldl_insert]
  simp

theorem LastBinding.unique (ha : LastBinding l k a) (hb : LastBinding l k b) : a = b := by
  rw [← get?_ofList_eq_some_iff] at ha hb
  exact Option.some.inj (ha.symm.trans hb)

theorem exists_lastBinding_iff : (∃ a, LastBinding l k a) ↔ k ∈ l.map Prod.fst := by
  constructor
  · rintro ⟨a, ha⟩
    exact ha.mem_keys
  · intro hk
    induction l with
    | nil => cases hk
    | cons e l ih =>
      simp only [lastBinding_cons_iff]
      by_cases hl : k ∈ l.map Prod.fst
      · obtain ⟨a, ha⟩ := ih hl
        exact ⟨a, .inl ha⟩
      · rcases List.mem_cons.1 hk with rfl | hk
        · exact ⟨e.2, .inr ⟨hl, rfl⟩⟩
        · exact absurd hk hl

theorem mem_keys_ofList : k ∈ (ofList l).keys ↔ k ∈ l.map Prod.fst := by
  simp only [mem_keys_iff, get?_ofList_eq_some_iff, exists_lastBinding_iff]

theorem contains_ofList_iff : (ofList l).contains k = true ↔ k ∈ l.map Prod.fst := by
  rw [contains_iff, mem_keys_ofList]

theorem get?_ofList_eq_none_iff : (ofList l).get? k = none ↔ k ∉ l.map Prod.fst := by
  rw [← contains_ofList_iff, contains, Option.not_isSome_iff_eq_none]

theorem mem_entries_ofList_iff : (k, a) ∈ (ofList l).entries ↔ LastBinding l k a := by
  rw [← get?_eq_some_iff, get?_ofList_eq_some_iff]

theorem keys_ofList_eq_iff :
    (ofList l).keys = (ofList l').keys ↔ ∀ k, k ∈ l.map Prod.fst ↔ k ∈ l'.map Prod.fst := by
  simp only [keys_eq_iff, mem_keys_ofList]

theorem size_ofList (l : List (String × α)) :
    (ofList l).size = (l.map Prod.fst).toFinset.card := by
  have hkeys : (ofList l).keys.toFinset = (l.map Prod.fst).toFinset := by
    ext k
    rw [List.mem_toFinset, List.mem_toFinset, mem_keys_ofList]
  rw [← hkeys, List.toFinset_card_of_nodup (ofList l).nodup_keys, size]

/-- A map is what looking up in it says. -/
theorem ext_get? (h : ∀ k a, m.get? k = some a ↔ n.get? k = some a) : m = n := by
  have hentries (m : Dict α) : m.entries.Pairwise fun d e => d.1 < e.1 := by
    rw [← List.pairwise_map, map_fst_entries]
    exact m.sorted
  have hnodup (m : Dict α) : m.entries.Nodup :=
    .of_map Prod.fst (by rw [map_fst_entries]; exact m.nodup_keys)
  have hperm : m.entries.Perm n.entries :=
    (List.perm_ext_iff_of_nodup (hnodup m) (hnodup n)).2 fun {e} => by
      simpa only [get?_eq_some_iff] using h e.1 e.2
  ext1
  refine hperm.eq_of_pairwise (fun d e _ _ hde hed => ?_) (hentries m) (hentries n)
  exact (String.lt_irrefl _ (String.lt_trans hde hed)).elim

theorem ofList_eq_iff : ofList l = ofList l' ↔ ∀ k a, LastBinding l k a ↔ LastBinding l' k a := by
  simp only [← get?_ofList_eq_some_iff]
  constructor
  · intro h k a
    rw [h]
  · exact ext_get?

end Dict

namespace Heap

open Dict

variable {h : Heap} {l l' : List (String × Value)} {s t : String}

theorem apply_less_strings_iff :
    h.apply (.compare .less) (.string s) (.string t) = .ok (.bool true, h) ↔
      Text.toBytes s < Text.toBytes t := by
  have happly : h.apply (.compare .less) (.string s) (.string t) =
      .ok (.bool (compare s t == .lt), h) := rfl
  rw [happly, Text.toBytes_lt_iff, ← compare_lt_iff_lt]
  simp

/-- Maps are equal if they bind the same keys and the last bindings of each are equal. -/
theorem equals_ofList_iff :
    h.equals (.map (ofList l)) (.map (ofList l')) = true ↔
      (∀ k, k ∈ l.map Prod.fst ↔ k ∈ l'.map Prod.fst) ∧
        ∀ k a b, LastBinding l k a → LastBinding l' k b → h.equals a b = true := by
  rw [equals, equalsUnder_map, Bool.and_eq_true, beq_iff_eq, List.all_eq_true,
    keys_ofList_eq_iff]
  refine and_congr_right fun hkeys => ?_
  have hsame := keys_ofList_eq_iff.2 hkeys
  constructor
  · intro hvalues k a b ha hb
    exact hvalues (a, b) ((mem_zip_values_iff hsame).2
      ⟨k, get?_ofList_eq_some_iff.2 ha, get?_ofList_eq_some_iff.2 hb⟩)
  · rintro hvalues ⟨a, b⟩ hab
    obtain ⟨k, ha, hb⟩ := (mem_zip_values_iff hsame).1 hab
    exact hvalues k a b (get?_ofList_eq_some_iff.1 ha) (get?_ofList_eq_some_iff.1 hb)

/-- Equality of maps with the same last bindings fails only where NaN is not equal to itself. -/
theorem equals_ofList_iff_of_lastBinding (hsame : ∀ k a, LastBinding l k a ↔ LastBinding l' k a) :
    h.equals (.map (ofList l)) (.map (ofList l')) = true ↔
      ∀ k a, LastBinding l k a → ∀ x, a.Shows (.float x) → x.isNaN = false := by
  have hkeys (k : String) : k ∈ l.map Prod.fst ↔ k ∈ l'.map Prod.fst := by
    simp only [← exists_lastBinding_iff, hsame]
  rw [equals_ofList_iff, and_iff_right hkeys]
  constructor
  · intro hvalues k a ha
    exact equals_self_iff.1 (hvalues k a a ha ((hsame k a).1 ha))
  · intro hfree k a b ha hb
    obtain rfl : a = b := ha.unique ((hsame k b).2 hb)
    exact equals_self_iff.2 (hfree k a ha)

/-- Of a list of bindings, the last of each key are all that a map keeps. It lists them by the bytes
of the keys, which is how scripts compare keys, and it does not remember in what order they came. -/
theorem collected_map_keeps_last_bindings (h : Heap) (l : List (String × Value)) :
    (∀ k a, (ofList l).get? k = some a ↔ LastBinding l k a) ∧
      (∀ k, (ofList l).get? k = none ↔ k ∉ l.map Prod.fst) ∧
      (∀ k, (ofList l).contains k = true ↔ k ∈ l.map Prod.fst) ∧
      (ofList l).size = (l.map Prod.fst).toFinset.card ∧
      (∀ k a, (k, a) ∈ (ofList l).entries ↔ LastBinding l k a) ∧
      (ofList l).entries.map Prod.fst = (ofList l).keys ∧
      (ofList l).entries.map Prod.snd = (ofList l).values ∧
      ((ofList l).keys.Pairwise fun j k => Text.toBytes j < Text.toBytes k ∧
        h.apply (.compare .less) (.string j) (.string k) = .ok (.bool true, h)) ∧
      ∀ l', (∀ k a, LastBinding l k a ↔ LastBinding l' k a) →
        (h.equals (.map (ofList l)) (.map (ofList l')) = true ↔
          ∀ k a, LastBinding l k a → ∀ x, a.Shows (.float x) → x.isNaN = false) ∧
        h.display (.map (ofList l)) = h.display (.map (ofList l')) ∧
        h.debug (.map (ofList l)) = h.debug (.map (ofList l')) ∧
        h.serialize (.map (ofList l)) = h.serialize (.map (ofList l')) := by
  refine ⟨fun _ _ => get?_ofList_eq_some_iff, fun _ => get?_ofList_eq_none_iff,
    fun _ => contains_ofList_iff, size_ofList l, fun _ _ => mem_entries_ofList_iff,
    map_fst_entries _, rfl, ?_, fun l' hsame => ?_⟩
  · refine (ofList l).sorted.imp fun {j k} hlt => ?_
    rw [apply_less_strings_iff, and_self, Text.toBytes_lt_iff]
    exact hlt
  · refine ⟨equals_ofList_iff_of_lastBinding hsame, ?_⟩
    rw [ofList_eq_iff.2 hsame]
    exact ⟨rfl, rfl, rfl⟩

/-- A key that is bound twice, around another key. -/
def rebound : List (String × Value) :=
  [("é", .int 1), ("a", .undefined), ("é", .bool true)]

theorem collected_map_keeps_last_bindings_rebound :
    (∀ k a, LastBinding rebound k a ↔ LastBinding rebound.tail.reverse k a) ∧
      Heap.display ⟨#[]⟩ (.map (ofList rebound)) =
        Heap.display ⟨#[]⟩ (.map (ofList rebound.tail.reverse)) := by
  have hsame (k : String) (a : Value) :
      LastBinding rebound k a ↔ LastBinding rebound.tail.reverse k a := by
    simp [rebound, lastBinding_cons_iff, not_lastBinding_nil]
    grind
  obtain ⟨-, -, -, -, -, -, -, -, hseen⟩ := collected_map_keeps_last_bindings ⟨#[]⟩ rebound
  exact ⟨hsame, (hseen rebound.tail.reverse hsame).2.1⟩

end Heap

end ScriptHost
