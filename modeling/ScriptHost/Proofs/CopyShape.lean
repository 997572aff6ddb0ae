import ScriptHost.Debug
import ScriptHost.Display
import ScriptHost.Proofs.Copying
import ScriptHost.Proofs.PartialEquivalence
import ScriptHost.Proofs.SameTree
/-!
# A copy has the same shape

The arrays of a copy stand for the paths into the original that end in an
array and meet no array twice. Along every path the copy has the face of the
original, so its texts are the same. It is equal to the original unless a NaN
is reached, for that is the one part that is not equal to itself.
-/

namespace ScriptHost

namespace Heap

variable {h h' : Heap} {v w c a b : Value} {st : Step} {p : List Step} {r s : Ref}

/-! ### One array for each path -/

theorem mapsTo_follow?_copy (hcopy : h.copy v = (c, h')) :
    Set.MapsTo (h'.follow? c) {p | h.ArrayPath v p}
      {w | ∃ s, w = some (.array s) ∧ h'.Reaches c (.array s)} := by
  intro p hp
  have hmade := List.mem_map_of_mem (f := h'.follow? c) (mem_arrayPaths_tree.2 hp)
  rw [follow?_copy hcopy, List.mem_map] at hmade
  obtain ⟨s, _, hs⟩ := hmade
  exact ⟨s, hs.symm, p, hs.symm⟩

theorem injOn_follow?_copy (hcopy : h.copy v = (c, h')) :
    Set.InjOn (h'.follow? c) {p | h.ArrayPath v p} := by
  intro p hp q hq hpq
  have hnodup : ((h.tree v).arrayPaths.map (h'.follow? c)).Nodup := by
    rw [follow?_copy hcopy]
    exact (nodup_made h h').map fun r s hrs => by simpa using hrs
  exact List.inj_on_of_nodup_map hnodup (mem_arrayPaths_tree.2 hp) (mem_arrayPaths_tree.2 hq) hpq

theorem surjOn_follow?_copy (hcopy : h.copy v = (c, h')) :
    Set.SurjOn (h'.follow? c) {p | h.ArrayPath v p}
      {w | ∃ s, w = some (.array s) ∧ h'.Reaches c (.array s)} := by
  rintro _ ⟨s, rfl, hs⟩
  have hmem := List.mem_map_of_mem (f := fun r => some (Value.array r))
    ((reaches_copy_iff hcopy).1 hs)
  rw [← follow?_copy hcopy, List.mem_map] at hmem
  obtain ⟨p, hp, hps⟩ := hmem
  exact ⟨p, mem_arrayPaths_tree.1 hp, hps⟩

/-! ### Equal to the original -/

/-- No float that the value reaches is NaN. -/
def FreeOfNaN (h : Heap) (v : Value) : Prop :=
  ∀ x, h.Reaches v (.float x) → x.isNaN = false

theorem FreeOfNaN.of_part? (hv : h.FreeOfNaN v) (hw : h.part? v st = some w) : h.FreeOfNaN w :=
  fun x hx => hv x ((Reaches.of_part? hw).trans hx)

/-- Arrays alike, the second free of NaN. -/
def AlikeArrays (h : Heap) (r s : Ref) : Prop :=
  h.Alike h (.array r) (.array s) ∧ h.FreeOfNaN (.array s)

theorem related_of_alike (hvw : h.Alike h v w) (hw : h.FreeOfNaN w) :
    v.Related h.AlikeArrays w := by
  have hface := hvw.face_eq
  induction v generalizing w with
  | atom a =>
    cases w <;> simp only [face, Face.atom.injEq, reduceCtorEq] at hface
    subst hface
    refine .atom (Atom.same_self_iff.2 ?_)
    rintro x rfl
    exact hw x (.refl h _)
  | array r =>
    cases w <;> simp only [face, reduceCtorEq] at hface
    exact .array ⟨hvw, hw⟩
  | error u ih =>
    cases w with
    | error q =>
      have hu : h.part? (.error u) .payload = some u := rfl
      have hq : h.part? (.error q) .payload = some q := rfl
      obtain ⟨q', hq', hpayload⟩ := hvw.exists_part? hu
      obtain rfl : q' = q := Option.some.inj (hq'.symm.trans hq)
      exact .error (ih hpayload (hw.of_part? hq) hpayload.face_eq)
    | _ => simp [face] at hface
  | map m ih =>
    cases w with
    | map n =>
      simp only [face, Face.map.injEq] at hface
      refine .map ?_ ?_
      · intro k
        rw [hface]
      intro k a b ha hb
      have ha : h.part? (.map m) (.key k) = some a := ha
      have hb : h.part? (.map n) (.key k) = some b := hb
      obtain ⟨b', hb', hab⟩ := hvw.exists_part? ha
      obtain rfl : b' = b := Option.some.inj (hb'.symm.trans hb)
      exact ih (k, a) (Dict.get?_eq_some_iff.1 ha) hab (hw.of_part? hb) hab.face_eq
    | _ => simp [face] at hface

theorem bisimulation_alikeArrays (h : Heap) : h.Bisimulation h.AlikeArrays := by
  rintro r s ⟨hrs, hs⟩
  have hlen : (h.items r).length = (h.items s).length := by simpa [face] using hrs.face_eq
  refine .inr (List.forall₂_iff_get.2 ⟨hlen, ?_⟩)
  intro i hi hi'
  have ha : h.part? (.array r) (.item i) = some ((h.items r).get ⟨i, hi⟩) := by
    simp [part?, get?, hi]
  have hb : h.part? (.array s) (.item i) = some ((h.items s).get ⟨i, hi'⟩) := by
    simp [part?, get?, hi']
  obtain ⟨b, hb', hab⟩ := hrs.exists_part? ha
  obtain rfl := Option.some.inj (hb'.symm.trans hb)
  exact related_of_alike hab (hs.of_part? hb)

theorem equals_of_alike (hvw : h.Alike h v w) (hw : h.FreeOfNaN w) : h.equals v w = true := by
  apply equals_iff_related.2
  apply (related_of_alike hvw hw).mono
  intro r s hrs
  exact ⟨h.AlikeArrays, h.bisimulation_alikeArrays, hrs⟩

/-- Parts of values that are equal but not one array are equal. -/
theorem related_part? (hvw : v.Related h.Bisimilar w) (hne : ∀ r, v = .array r → w ≠ .array r)
    (ha : h.part? v st = some a) (hb : h.part? w st = some b) : a.Related h.Bisimilar b := by
  cases hvw with
  | atom same => cases st <;> simp [part?] at ha
  | @array r s related =>
    rcases h.bisimulation_bisimilar r s related with rfl | hitems
    · exact absurd rfl (hne r rfl)
    · obtain ⟨i, rfl, hi⟩ := part?_array_eq_some.1 ha
      obtain ⟨_, ⟨⟩, hi'⟩ := part?_array_eq_some.1 hb
      obtain ⟨hlt, rfl⟩ := List.getElem?_eq_some_iff.1 hi
      obtain ⟨hlt', rfl⟩ := List.getElem?_eq_some_iff.1 hi'
      exact hitems.get hlt hlt'
  | map keys values =>
    cases st with
    | key k => exact values k a b ha hb
    | item i => cases ha
    | payload => cases ha
  | error payload =>
    cases st with
    | payload =>
      cases ha
      cases hb
      exact payload
    | item i => cases ha
    | key k => cases ha

theorem related_follow? (hvw : v.Related h.Bisimilar w)
    (hapart : ∀ r, h.Reaches v (.array r) → ¬h.Reaches w (.array r))
    (ha : h.follow? v p = some a) (hb : h.follow? w p = some b) : a.Related h.Bisimilar b := by
  induction p generalizing v w with
  | nil =>
    cases ha
    cases hb
    exact hvw
  | cons st p ih =>
    obtain ⟨v', hv', ha⟩ := Option.bind_eq_some_iff.1 ha
    obtain ⟨w', hw', hb⟩ := Option.bind_eq_some_iff.1 hb
    have hne (r : Ref) (hv : v = .array r) : w ≠ .array r := by
      rintro rfl
      exact hapart r (hv ▸ .refl h v) (.refl h _)
    refine ih (related_part? hvw hne hv' hw') ?_ ha hb
    intro r hvr hwr
    exact hapart r ((Reaches.of_part? hv').trans hvr) ((Reaches.of_part? hw').trans hwr)

theorem freeOfNaN_of_related (hvw : v.Related h.Bisimilar w)
    (hapart : ∀ r, h.Reaches v (.array r) → ¬h.Reaches w (.array r)) (halike : h.Alike h v w) :
    h.FreeOfNaN w := by
  rintro x ⟨p, hp⟩
  have hp' := (halike.follow?_eq_atom_iff p _).1 hp
  cases related_follow? hvw hapart hp' hp with
  | atom same =>
    cases same with
    | float hx => exact beq_self_iff_isNaN.1 hx

theorem equals_copy_iff (hcopy : h.copy v = (c, h')) (hv : h.Owns v) :
    h'.equals c v = true ↔ h.FreeOfNaN v := by
  have hgrow := extends_copy hcopy
  have hagree : h.Agrees h' v := hgrow.agrees hv
  have halike : h'.Alike h' c v :=
    alike_of_tree_eq ((tree_copy hcopy).trans hagree.tree_eq.symm)
  have hfree : h'.FreeOfNaN v ↔ h.FreeOfNaN v := by simp only [FreeOfNaN, hagree.reaches_iff]
  rw [← hfree]
  constructor
  · intro heq
    refine freeOfNaN_of_related (equals_iff_related.1 heq) ?_ halike
    intro r hcr hvr
    obtain ⟨_, hnew⟩ := (mem_made hgrow).1 ((reaches_copy_iff hcopy).1 hcr)
    exact hnew (hv r (hagree.reaches_iff.1 hvr))
  · exact equals_of_alike halike

/-- The arrays of a copy stand for the paths to arrays of the original. Where the original steps
back into an array it is inside of, the copy steps back into the array that stands for it. At the
end of every path the copy shows what the original shows. So both have the same texts, and they
are equal if and only if no NaN is reached. -/
theorem copy_keeps_shape (hcopy : h.copy v = (c, h')) :
    Set.BijOn (h'.follow? c) {p | h.ArrayPath v p}
        {w | ∃ s, w = some (.array s) ∧ h'.Reaches c (.array s)} ∧
      (∀ p q st r, (h.met v p).Nodup → q <+: p → h.follow? v q = some (.array r) →
        h.follow? v (p ++ [st]) = some (.array r) →
          h'.follow? c (p ++ [st]) = h'.follow? c q) ∧
      (∀ p, (h'.follow? c p).map h'.face = (h.follow? v p).map h.face) ∧
      h'.display c = h.display v ∧ h'.debug c = h.debug v ∧
      (h.Owns v → (h'.equals c v = true ↔ h.FreeOfNaN v)) := by
  have htree := (tree_copy hcopy).symm
  refine ⟨⟨mapsTo_follow?_copy hcopy, injOn_follow?_copy hcopy, surjOn_follow?_copy hcopy⟩,
    ?_, ?_, ?_, ?_, equals_copy_iff hcopy⟩
  · intro p q st r hnodup hq hqr hr
    exact follow?_back_of_tree_eq htree hnodup hq hqr hr
  · intro p
    exact ((alike_of_tree_eq htree).map_face_follow? p).symm
  · rw [display, display, htree]
  · rw [debug, debug, htree]

def twice : Heap := ⟨#[[.array ⟨1⟩, .array ⟨1⟩], []]⟩

/-- The same with a copy, which holds two empty arrays. -/
def twiceCopied : Heap := ⟨#[[.array ⟨1⟩, .array ⟨1⟩], [], [.array ⟨3⟩, .array ⟨4⟩], [], []]⟩

theorem copy_twice : twice.copy (.array ⟨0⟩) = (.array ⟨2⟩, twiceCopied) := by
  have htree : twice.tree (.array ⟨0⟩) = .array [.array [], .array []] := by
    rw [tree, unfold_array_of_not_mem List.not_mem_nil]
    simp [twice, items, unfold_array_of_not_mem]
  rw [copy_eq_storeInside, htree]
  rfl

theorem reaches_twice (hv : twice.Reaches (.array ⟨0⟩) v) : ∃ r ∈ twice, v = .array r := by
  refine hv.induct (P := fun v => ∃ r ∈ twice, v = .array r) ⟨⟨0⟩, by decide, rfl⟩ ?_
  rintro _ st w ⟨⟨i⟩, hi, rfl⟩ hw
  have hmem := mem_items_of_part? hw
  refine ⟨⟨1⟩, by decide, ?_⟩
  match i, hi with
  | 0, _ => simpa [twice, items] using hmem
  | 1, _ => simp [twice, items] at hmem

/-- The two elements of the copy are different arrays, and the copy is equal to the original. -/
theorem copy_keeps_shape_twice :
    twiceCopied.follow? (.array ⟨2⟩) [.item 0] ≠ twiceCopied.follow? (.array ⟨2⟩) [.item 1] ∧
      twiceCopied.display (.array ⟨2⟩) = twice.display (.array ⟨0⟩) ∧
      twiceCopied.equals (.array ⟨2⟩) (.array ⟨0⟩) = true := by
  obtain ⟨harrays, _, _, hdisplay, _, hequals⟩ := copy_keeps_shape copy_twice
  have hfirst : twice.ArrayPath (.array ⟨0⟩) [.item 0] := ⟨⟨⟨1⟩, rfl⟩, by decide⟩
  have hsecond : twice.ArrayPath (.array ⟨0⟩) [.item 1] := ⟨⟨⟨1⟩, rfl⟩, by decide⟩
  refine ⟨?_, hdisplay, (hequals ?_).2 ?_⟩
  · intro heq
    have hsame := harrays.injOn hfirst hsecond heq
    simp at hsame
  · intro r hr
    obtain ⟨s, hs, heq⟩ := reaches_twice hr
    cases heq
    exact hs
  · intro x hx
    obtain ⟨s, _, heq⟩ := reaches_twice hx
    cases heq

end Heap

end ScriptHost
