import ScriptHost.Proofs.Bisimilarity
import ScriptHost.Proofs.FloatBits
/-!
# Equality is a partial equivalence

Equality is symmetric and transitive: a bisimulation can be turned round, and
two of them can be followed one after the other. A value is equal to itself
unless it shows a NaN without an array being entered, since an array shares
storage with itself.
-/

namespace ScriptHost

variable {R S : Ref → Ref → Prop} {a b c : Atom} {u v w : Value}

theorem Atom.Same.symm (hab : a.Same b) : b.Same a := by
  cases hab with
  | float h => exact .float (float_beq_symm h)
  | undefined => exact .undefined
  | bool b => exact .bool b
  | int n => exact .int n
  | string s => exact .string s
  | bytes b => exact .bytes b
  | builtin f => exact .builtin f

theorem Atom.Same.trans (hab : a.Same b) (hbc : b.Same c) : a.Same c := by
  cases hab with
  | float h =>
    cases hbc with
    | float h' => exact .float (float_beq_trans h h')
  | undefined => exact hbc
  | bool b => exact hbc
  | int n => exact hbc
  | string s => exact hbc
  | bytes b => exact hbc
  | builtin f => exact hbc

theorem Atom.same_self_iff {a : Atom} : a.Same a ↔ ∀ x, a = .float x → x.isNaN = false := by
  constructor
  · rintro h x rfl
    cases h with
    | float h => exact beq_self_iff_isNaN.1 h
  · intro h
    cases a with
    | float x => exact .float (beq_self_iff_isNaN.2 (h x rfl))
    | undefined => exact .undefined
    | bool b => exact .bool b
    | int n => exact .int n
    | string s => exact .string s
    | bytes b => exact .bytes b
    | builtin f => exact .builtin f

namespace Value.Related

theorem symm (hvw : v.Related R w) : w.Related (fun r s => R s r) v := by
  induction hvw with
  | atom same => exact .atom same.symm
  | array related => exact .array related
  | map keys values ih => exact .map (fun k => (keys k).symm) fun k v w hv hw => ih k w v hw hv
  | error payload ih => exact .error ih

theorem trans (hvw : v.Related R w) (hwu : w.Related S u) :
    v.Related (Relation.Comp R S) u := by
  induction hvw generalizing u with
  | atom same =>
    cases hwu with
    | atom same' => exact .atom (same.trans same')
  | array related =>
    cases hwu with
    | array related' => exact .array ⟨_, related, related'⟩
  | @map m n keys values ih =>
    cases hwu with
    | map keys' values' =>
      apply Value.Related.map fun k => (keys k).trans (keys' k)
      intro k v u hv hu
      have hk : k ∈ n.keys := (keys k).1 (Dict.mem_keys_iff.2 ⟨v, hv⟩)
      obtain ⟨w, hw⟩ := Dict.mem_keys_iff.1 hk
      exact ih k v w hv hw (values' k w u hw hu)
  | error payload ih =>
    cases hwu with
    | error payload' => exact .error (ih payload')

end Value.Related

theorem forall₂_comp {α : Type} {P Q : α → α → Prop} {l m n : List α}
    (hlm : List.Forall₂ P l m) (hmn : List.Forall₂ Q m n) :
    List.Forall₂ (Relation.Comp P Q) l n := by
  induction hlm generalizing n with
  | nil =>
    cases hmn
    exact .nil
  | cons hab _ ih =>
    cases hmn with
    | cons hbc htail => exact .cons ⟨_, hab, hbc⟩ (ih htail)

/-- What is found in a value without an array being entered: the value itself, and what is found
in the values of a dictionary and in the payload of an error. -/
inductive Value.Shows : Value → Value → Prop where
  | refl (v : Value) : Shows v v
  | entry {m : Dict Value} {e : String × Value} {w : Value} (he : e ∈ m.entries)
    (hw : Shows e.2 w) : Shows (.map m) w
  | payload {p w : Value} (hw : Shows p w) : Shows (.error p) w

namespace Heap

variable {h : Heap} {r s t : Ref}

/-! ### Bisimilar arrays -/

theorem Bisimilar.refl (h : Heap) (r : Ref) : h.Bisimilar r r :=
  ⟨Eq, fun _ _ hrs => .inl hrs, rfl⟩

theorem Bisimilar.symm (hrs : h.Bisimilar r s) : h.Bisimilar s r := by
  refine ⟨fun a b => h.Bisimilar b a, ?_, hrs⟩
  intro a b hab
  rcases h.bisimulation_bisimilar b a hab with heq | hitems
  · exact .inl heq.symm
  · exact .inr (hitems.flip.imp fun _ _ hvw => hvw.symm)

theorem bisimulation_comp (h : Heap) : h.Bisimulation (Relation.Comp h.Bisimilar h.Bisimilar) := by
  rintro r t ⟨s, hrs, hst⟩
  -- Arrays that share storage need not have related elements, so that step is left out.
  rcases h.bisimulation_bisimilar r s hrs with rfl | hleft
  · refine (h.bisimulation_bisimilar r t hst).imp id fun hright => hright.imp fun _ _ hvw => ?_
    exact hvw.mono fun a b hab => ⟨a, .refl h a, hab⟩
  · rcases h.bisimulation_bisimilar s t hst with rfl | hright
    · refine .inr (hleft.imp fun _ _ hvw => ?_)
      exact hvw.mono fun a b hab => ⟨b, hab, .refl h b⟩
    · refine .inr ((forall₂_comp hleft hright).imp ?_)
      rintro v u ⟨w, hvw, hwu⟩
      exact hvw.trans hwu

theorem Bisimilar.trans (hrs : h.Bisimilar r s) (hst : h.Bisimilar s t) : h.Bisimilar r t :=
  ⟨_, h.bisimulation_comp, s, hrs, hst⟩

theorem equals_symm (hvw : h.equals v w = true) : h.equals w v = true := by
  rw [equals_iff_related] at hvw ⊢
  exact hvw.symm.mono fun _ _ => Bisimilar.symm

theorem equals_comm (h : Heap) (v w : Value) : h.equals v w = h.equals w v :=
  Bool.eq_iff_iff.2 ⟨equals_symm, equals_symm⟩

theorem equals_trans (hvw : h.equals v w = true) (hwu : h.equals w u = true) :
    h.equals v u = true := by
  rw [equals_iff_related] at hvw hwu ⊢
  refine (hvw.trans hwu).mono ?_
  rintro r t ⟨s, hrs, hst⟩
  exact hrs.trans hst

/-! ### Values equal to themselves -/

theorem related_self_iff (hR : ∀ r, R r r) (v : Value) :
    v.Related R v ↔ ∀ x, v.Shows (.float x) → x.isNaN = false := by
  induction v with
  | atom a =>
    constructor
    · rintro ⟨same⟩ x ⟨⟩
      exact Atom.same_self_iff.1 same x rfl
    · intro hx
      refine .atom (Atom.same_self_iff.2 ?_)
      rintro x rfl
      exact hx x (.refl _)
  | array r =>
    refine iff_of_true (.array (hR r)) ?_
    rintro x ⟨⟩
  | map m ih =>
    constructor
    · intro hself x hshown
      cases hself with
      | map keys values =>
        cases hshown with
        | @entry _ e _ he hx =>
          have hvalue := Dict.get?_eq_some_iff.2 he
          exact (ih e he).1 (values e.1 e.2 e.2 hvalue hvalue) x hx
    · intro hx
      apply Value.Related.map fun k => Iff.rfl
      intro k v w hv hw
      cases hv.symm.trans hw
      have he := Dict.get?_eq_some_iff.1 hv
      exact (ih (k, v) he).2 fun x hshown => hx x (.entry he hshown)
  | error p ih =>
    constructor
    · intro hself x hshown
      cases hself with
      | error payload =>
        cases hshown with
        | payload hx => exact ih.1 payload x hx
    · intro hx
      exact .error (ih.2 fun x hshown => hx x (.payload hshown))

theorem equals_self_iff :
    h.equals v v = true ↔ ∀ x, v.Shows (.float x) → x.isNaN = false := by
  rw [equals_iff_related]
  exact related_self_iff (Bisimilar.refl h) v

/-- Equality is symmetric and transitive on every heap, and a value is equal to itself if and only
if payloads and keys alone never lead to a NaN. -/
theorem equals_partial_equivalence (h : Heap) :
    (∀ v w, h.equals v w = h.equals w v) ∧
      (∀ u v w, h.equals u v = true → h.equals v w = true → h.equals u w = true) ∧
        ∀ v, h.equals v v = true ↔ ∀ x, v.Shows (.float x) → x.isNaN = false := by
  refine ⟨h.equals_comm, ?_, ?_⟩
  · intro u v w huv hvw
    exact equals_trans huv hvw
  · intro v
    exact equals_self_iff

/-- An array that holds itself, and two arrays that hold each other. -/
def rings : Heap := ⟨#[[.array ⟨0⟩], [.array ⟨2⟩], [.array ⟨1⟩]]⟩

theorem exists_items_rings (hr : r ∈ rings) : ∃ s ∈ rings, rings.items r = [.array s] := by
  obtain ⟨i⟩ := r
  have hi : i < 3 := hr
  interval_cases i
  · exact ⟨⟨0⟩, by decide, rfl⟩
  · exact ⟨⟨2⟩, by decide, rfl⟩
  · exact ⟨⟨1⟩, by decide, rfl⟩

theorem equals_rings (hr : r ∈ rings) (hs : s ∈ rings) :
    rings.equals (.array r) (.array s) = true := by
  apply equals_iff_related.2
  refine .array ⟨fun a b => a ∈ rings ∧ b ∈ rings, ?_, hr, hs⟩
  rintro a b ⟨ha, hb⟩
  obtain ⟨c, hc, hac⟩ := exists_items_rings ha
  obtain ⟨d, hd, hbd⟩ := exists_items_rings hb
  rw [hac, hbd]
  exact .inr (.cons (.array ⟨hc, hd⟩) .nil)

/-- Cycles of different lengths are equal if what is met on them is. -/
theorem equals_partial_equivalence_rings :
    rings.equals (.array ⟨0⟩) (.array ⟨1⟩) = true ∧ rings.equals (.array ⟨1⟩) (.array ⟨2⟩) = true ∧
      rings.equals (.array ⟨0⟩) (.array ⟨2⟩) = true := by
  have hshorter : rings.equals (.array ⟨0⟩) (.array ⟨1⟩) = true :=
    equals_rings (by decide) (by decide)
  have hturned : rings.equals (.array ⟨1⟩) (.array ⟨2⟩) = true :=
    equals_rings (by decide) (by decide)
  obtain ⟨_, htrans, _⟩ := equals_partial_equivalence rings
  exact ⟨hshorter, hturned, htrans _ _ _ hshorter hturned⟩

end Heap

end ScriptHost
