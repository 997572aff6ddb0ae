import ScriptHost.Proofs.EqualValues
import ScriptHost.Proofs.OperatorTable
/-!
# Exact conversions

A script value is extracted as a native value of a type exactly if it is of the
kind of the type, and an array only if it holds nothing but texts. Extraction
undoes wrapping, and wrapping makes a value that is equal to the one that was
extracted. No value is extracted as two types.
-/

namespace ScriptHost

/-- The value is of the kind of the type. If it is an array, its elements are texts. -/
structure NativeType.Fits (h : Heap) (t : NativeType) (v : Value) : Prop where
  kind_eq : v.kind = t.kind
  texts : ∀ r, v = .array r → ∀ u ∈ h.items r, u.kind = .string

/-- In the second heap a value was made that is like one of the first heap. -/
structure Heap.Remakes (h : Heap) (v : Value) (h' : Heap) (v' : Value) : Prop where
  grows : h.Extends h'
  equals_iff : h'.equals v' v = true ↔ ∀ x, v = .float x → x.isNaN = false
  atom_eq : ∀ a, v = .atom a → v' = .atom a
  items_eq : ∀ r, v = .array r → ∃ r', v' = .array r' ∧ r' ∉ h ∧ h'.items r' = h.items r

variable {h h' : Heap} {t t' : NativeType} {v v' : Value} {vs : List Value} {r : Ref}

/-! ### What can be extracted -/

theorem exists_eq_map_string_iff :
    (∃ l : List String, vs = l.map .string) ↔ ∀ u ∈ vs, u.kind = .string := by
  simp only [Value.kind_eq_string_iff]
  induction vs with
  | nil => simp
  | cons v vs ih =>
    rw [List.forall_mem_cons, ← ih]
    constructor
    · rintro ⟨_ | ⟨s, l⟩, hl⟩
      · cases hl
      · obtain ⟨hs, hl⟩ := List.cons.inj hl
        exact ⟨⟨s, hs⟩, l, hl⟩
    · rintro ⟨⟨s, rfl⟩, l, rfl⟩
      exact ⟨s :: l, rfl⟩

namespace NativeType

theorem kind_injective (hkind : t.kind = t'.kind) : t = t' := by
  revert hkind
  cases t <;> cases t' <;> decide

theorem Denotes.kind_eq {x : t.Carrier} (hx : t.Denotes h v x) : v.kind = t.kind := by
  cases t with
  | strings =>
    obtain ⟨r, rfl, -⟩ := hx
    rfl
  | _ =>
    cases hx
    rfl

theorem Denotes.fits {x : t.Carrier} (hx : t.Denotes h v x) : t.Fits h v where
  kind_eq := hx.kind_eq
  texts r hr := by
    subst hr
    cases t with
    | strings =>
      obtain ⟨s, hs, hitems⟩ := hx
      cases hs
      exact exists_eq_map_string_iff.1 ⟨x, hitems⟩
    | _ => cases hx

theorem Fits.exists_denotes (hv : t.Fits h v) : ∃ x, t.Denotes h v x := by
  obtain ⟨hkind, htexts⟩ := hv
  cases v with
  | atom a => cases a <;> cases t <;> cases hkind <;> exact ⟨_, rfl⟩
  | array r =>
    cases t <;> cases hkind
    obtain ⟨l, hl⟩ := exists_eq_map_string_iff.2 (htexts r rfl)
    exact ⟨l, r, rfl, hl⟩
  | map m => cases t <;> cases hkind
  | error p => cases t <;> cases hkind

theorem exists_extract?_eq_some_iff : (∃ x, t.extract? h v = some x) ↔ t.Fits h v := by
  simp only [extract?_eq_some_iff]
  exact ⟨fun ⟨_, hx⟩ => hx.fits, Fits.exists_denotes⟩

theorem extractArgument_of_eq_some {x : t.Carrier} (hx : t.extract? h v = some x)
    (position : Nat) : t.extractArgument h position v = .ok x := by
  rw [extractArgument, hx]

theorem extractArgument_of_not_fits (hv : ¬ t.Fits h v) (position : Nat) :
    t.extractArgument h position v = .error (.wrongKind position t.kind v.kind) := by
  have hnone : t.extract? h v = none := by
    rw [Option.eq_none_iff_forall_ne_some]
    intro x hx
    exact hv (exists_extract?_eq_some_iff.1 ⟨x, hx⟩)
  rw [extractArgument, hnone]

theorem eq_of_extract?_eq_some {x : t.Carrier} {y : t'.Carrier} (hx : t.extract? h v = some x)
    (hy : t'.extract? h v = some y) : t = t' := by
  rw [extract?_eq_some_iff] at hx hy
  exact kind_injective (hx.kind_eq.symm.trans hy.kind_eq)

end NativeType

/-! ### Wrapping what was extracted -/

theorem Heap.items_alloc_nil (h : Heap) (r : Ref) : (h.alloc []).2.items r = h.items r := by
  by_cases hr : r ∈ h
  · exact items_alloc_of_mem [] hr
  · rw [items_eq_nil_of_not_mem hr]
    by_cases hnew : r ∈ (h.alloc []).2
    · rw [eq_of_mem_alloc hnew hr, items_alloc_self]
    · exact items_eq_nil_of_not_mem hnew

theorem Heap.equals_atom_self_iff {a : Atom} :
    h.equals (.atom a) (.atom a) = true ↔ ∀ x, Value.atom a = .float x → x.isNaN = false := by
  simp only [equals, equalsUnder_atom, Atom.equals_iff_same, Atom.same_self_iff, Value.atom.injEq]

/-- Wrapping changes nothing of what was extracted, also if that was an array that does not exist,
which reads as an empty one. -/
theorem NativeType.Denotes.exists_run_wrap {w : World} {x : t.Carrier}
    (hx : t.Denotes w.heap v x) (handler : CallHandler) :
    ∃ v' h', (t.wrap x).run handler w = some (v', { w with heap := h' }) ∧
      w.heap.Makes h' [v'] ∧ t.Denotes h' v' x ∧ t.Denotes h' v x := by
  obtain ⟨v', h', hrun, hmakes, hx'⟩ := t.run_wrap handler x w
  refine ⟨v', h', hrun, hmakes, hx', hx.keep ?_⟩
  intro r hr
  obtain rfl : v = .array r := (List.mem_singleton.1 hr).symm
  by_cases hmem : r ∈ w.heap
  · exact hmakes.grows.items_eq r hmem
  · cases t with
    | strings =>
      obtain ⟨s, hs, hitems⟩ := hx
      cases hs
      rw [Heap.items_eq_nil_of_not_mem hmem] at hitems
      obtain rfl : x = [] := List.map_eq_nil_iff.1 hitems.symm
      cases hrun
      exact Heap.items_alloc_nil w.heap r
    | _ => cases hx

theorem NativeType.Denotes.equals_iff {x : t.Carrier} (hv' : t.Denotes h v' x)
    (hv : t.Denotes h v x) : h.equals v' v = true ↔ ∀ y, v = .float y → y.isNaN = false := by
  cases t with
  | strings =>
    obtain ⟨r', rfl, hr'⟩ := hv'
    obtain ⟨r, rfl, hr⟩ := hv
    refine iff_of_true (Heap.equals_iff_related.2 (.array (Heap.bisimilar_of_items ?_))) nofun
    rw [hr', hr, List.forall₂_map_left_iff, List.forall₂_map_right_iff, List.forall₂_same]
    exact fun s _ => .atom (.string s)
  | _ =>
    cases hv'
    cases hv
    exact Heap.equals_atom_self_iff

theorem NativeType.Denotes.exists_remakes {w : World} {x : t.Carrier}
    (hx : t.Denotes w.heap v x) (handler : CallHandler) :
    ∃ v' h', (t.wrap x).run handler w = some (v', { w with heap := h' }) ∧
      w.heap.Remakes v h' v' := by
  obtain ⟨v', h', hrun, hmakes, hv', hv⟩ := hx.exists_run_wrap handler
  refine ⟨v', h', hrun, hmakes.grows, hv'.equals_iff hv, ?_, ?_⟩
  · rintro a rfl
    cases t with
    | strings =>
      obtain ⟨r, hr, -⟩ := hx
      cases hr
    | _ => exact hv'.trans hv.symm
  · rintro r rfl
    cases t with
    | strings =>
      obtain ⟨s, hs, hitems⟩ := hx
      cases hs
      obtain ⟨r', rfl, hr'⟩ := hv'
      exact ⟨r', rfl, (hmakes.fresh r' (List.mem_singleton_self _)).2, hr'.trans hitems.symm⟩
    | _ => cases hx

namespace NativeType

/-- Extraction gives back what was wrapped. It succeeds exactly on the values that fit the type,
and wrapping then makes a value like the one extracted; any other value is rejected at its
position. No value is extracted as two types, so integers and floats are not taken for each
other. -/
theorem extraction_inverts_wrapping (handler : CallHandler) :
    (∀ (t : NativeType) (x : t.Carrier) w, ∃ v h',
      (t.wrap x).run handler w = some (v, { w with heap := h' }) ∧ w.heap.Extends h' ∧
        t.extract? h' v = some x) ∧
      (∀ (t : NativeType) (w : World) v,
        ((∃ x, t.extract? w.heap v = some x) ↔ t.Fits w.heap v) ∧
          (∀ x, t.extract? w.heap v = some x →
            (∀ position, t.extractArgument w.heap position v = .ok x) ∧
              ∃ v' h', (t.wrap x).run handler w = some (v', { w with heap := h' }) ∧
                w.heap.Remakes v h' v') ∧
          (¬ t.Fits w.heap v → ∀ position,
            t.extractArgument w.heap position v = .error (.wrongKind position t.kind v.kind))) ∧
      (∀ h v (t t' : NativeType) x y, t.extract? h v = some x → t'.extract? h v = some y →
        t = t') ∧
      (∀ h n, float.extract? h (.int n) = none) ∧ ∀ h y, int.extract? h (.float y) = none := by
  refine ⟨?_, ?_, ?_, fun _ _ => rfl, fun _ _ => rfl⟩
  · intro t x w
    obtain ⟨v, h', hrun, hmakes, hx⟩ := t.run_wrap handler x w
    exact ⟨v, h', hrun, hmakes.grows, extract?_eq_some_iff.2 hx⟩
  · intro t w v
    refine ⟨exists_extract?_eq_some_iff, ?_, extractArgument_of_not_fits⟩
    intro x hx
    exact ⟨extractArgument_of_eq_some hx, (extract?_eq_some_iff.1 hx).exists_remakes handler⟩
  · intro h v t t' x y
    exact eq_of_extract?_eq_some

/-- An array that holds a text and itself, and an array of two texts. -/
def knotted : World :=
  ⟨⟨#[[.string "a", .array ⟨0⟩], [.string "a", .string "é"]]⟩, #[], #[], 0⟩

/-- The array that holds itself is rejected although it is an array, and the other one is extracted
and made again. -/
theorem extraction_inverts_wrapping_knotted :
    ¬ strings.Fits knotted.heap (.array ⟨0⟩) ∧
      strings.extractArgument knotted.heap 1 (.array ⟨0⟩) =
        .error (.wrongKind 1 .array .array) ∧
      strings.extractArgument knotted.heap 1 (.array ⟨1⟩) = .ok ["a", "é"] ∧
      ∃ r' h', (strings.wrap ["a", "é"]).run (fun _ _ _ => none) knotted =
          some (.array r', { knotted with heap := h' }) ∧
        r' ∉ knotted.heap ∧ h'.items r' = knotted.heap.items ⟨1⟩ ∧
        h'.equals (.array r') (.array ⟨1⟩) = true := by
  obtain ⟨-, hvalues, -⟩ := extraction_inverts_wrapping fun _ _ _ => none
  have hbad : ¬ strings.Fits knotted.heap (.array ⟨0⟩) := by
    intro hfits
    exact absurd (hfits.texts ⟨0⟩ rfl (.array ⟨0⟩) (by simp [knotted, Heap.items])) (by decide)
  obtain ⟨-, -, hrejected⟩ := hvalues strings knotted (.array ⟨0⟩)
  obtain ⟨-, haccepted, -⟩ := hvalues strings knotted (.array ⟨1⟩)
  obtain ⟨hargument, v', h', hrun, hmade⟩ := haccepted ["a", "é"] rfl
  obtain ⟨r', rfl, hnew, hitems⟩ := hmade.items_eq ⟨1⟩ rfl
  have hequals : h'.equals (.array r') (.array ⟨1⟩) = true := by
    refine hmade.equals_iff.2 ?_
    rintro x ⟨⟩
  exact ⟨hbad, hrejected hbad 1, hargument 1, r', h', hrun, hnew, hitems, hequals⟩

end NativeType

end ScriptHost
