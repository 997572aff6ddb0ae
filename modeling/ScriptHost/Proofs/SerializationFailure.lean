import Mathlib.Data.List.Forall2
import ScriptHost.Proofs.Cycle
import ScriptHost.Serialization
/-!
# When a value cannot be written

Writing always ends, and it leaves the list of arrays that are being written
as it was, also when it fails in the middle. It fails if and only if the value
has a cycle. So in a sequence of values each is written, or refused, as if it
were the only one.
-/

namespace ScriptHost

namespace Writing

variable {α β γ : Type} {x : Writing α} {f : α → Writing β} {a : α} {b : β} {writing : List Ref}

/-- The action ends with a result and leaves the list as it was. -/
def Ends (x : Writing α) (writing : List Ref) (a : α) : Prop :=
  x writing = some (a, writing)

theorem Ends.pure (a : α) (writing : List Ref) : Ends (pure a) writing a := rfl

theorem Ends.bind (hx : Ends x writing a) (hf : Ends (f a) writing b) :
    Ends (x >>= f) writing b := by
  change (x writing).bind (fun p => f p.1 p.2) = some (b, writing)
  rw [hx]
  exact hf

theorem Ends.map (g : α → β) (hx : Ends x writing a) :
    Ends (x >>= fun a => Pure.pure (g a)) writing (g a) :=
  hx.bind (.pure _ writing)

theorem Ends.get_bind {f : List Ref → Writing β} (hf : Ends (f writing) writing b) :
    Ends (get >>= f) writing b :=
  hf

/-- What is put on the list is taken off it again. -/
theorem Ends.inside {r : Ref} (g : α → β) (hx : Ends x (r :: writing) a) :
    Ends (do
      set (r :: writing)
      let a ← x
      modify List.tail
      return g a) writing (g a) := by
  change (x (r :: writing)).bind (fun p => some (g p.1, p.2.tail)) = some (g a, writing)
  rw [hx]
  rfl

theorem Ends.mapM {act : γ → Writing α} {g : γ → α} {l : List γ}
    (hl : ∀ c ∈ l, Ends (act c) writing (g c)) : Ends (l.mapM act) writing (l.map g) := by
  induction l with
  | nil => exact .pure [] writing
  | cons c l ih =>
    have hrest := ih fun d hd => hl d (List.mem_cons_of_mem c hd)
    rw [List.mapM_cons]
    exact (hl c List.mem_cons_self).bind (hrest.map _)

end Writing

namespace MessagePack

variable {α β : Type} {b? : Option (List UInt8)}

/-- What comes of writing, if there is a binary form and if there is none. -/
def written : Option (List UInt8) → Except String (List UInt8)
  | some b => .ok b
  | none => .error cyclicMessage

theorem map_written (f : List UInt8 → List UInt8) (b? : Option (List UInt8)) :
    (written b?).map f = written (b?.map f) := by
  cases b? <;> rfl

theorem exists_written_eq_ok_iff : (∃ b, written b? = .ok b) ↔ b? ≠ none := by
  cases b? <;> simp [written]

theorem exists_written_eq_error_iff : (∃ message, written b? = .error message) ↔ b? = none := by
  cases b? <;> simp [written]

theorem eq_cyclicMessage_of_written {message : String} (h : written b? = .error message) :
    message = cyclicMessage := by
  cases b? with
  | none => exact (Except.error.inj h).symm
  | some b => cases h

theorem length_of_collect {l : List (Option α)} {as : List α} (has : collect l = some as) :
    as.length = l.length := by
  rw [collect_eq_some_iff.1 has, List.length_map]

/-- The number of the members of a list is known before they are collected. -/
theorem map_collect_congr {l : List (Option α)} {f g : List α → β}
    (hfg : ∀ as, as.length = l.length → f as = g as) : (collect l).map f = (collect l).map g := by
  cases has : collect l with
  | none => rfl
  | some as => rw [Option.map_some, Option.map_some, hfg as (length_of_collect has)]

theorem map_flatten_collect_cons (b? : Option (List UInt8)) (l : List (Option (List UInt8))) :
    (collect (b? :: l)).map List.flatten =
      b?.bind fun b => ((collect l).map List.flatten).map (b ++ ·) := by
  cases b? with
  | none => rfl
  | some b =>
    rw [collect, Option.map_map, Option.bind_some, Option.map_map]
    rfl

theorem map_flatten_collect_entries (f : α → Option (List UInt8)) (es : List (String × α)) :
    (collect (es.map fun e => (f e.2).map (e.1, ·))).map (·.flatMap fun e => text e.1 ++ e.2) =
      (collect (es.map fun e => (f e.2).map (text e.1 ++ ·))).map List.flatten := by
  induction es with
  | nil => rfl
  | cons e es ih =>
    rw [List.map_cons, List.map_cons, map_flatten_collect_cons, ← ih]
    cases f e.2 with
    | none => rfl
    | some b =>
      rw [Option.map_some, Option.map_some, Option.bind_some, collect, Option.map_map,
        Option.map_map]
      rfl

theorem encode?_array_eq_header {ts : List Tree} :
    encode? (.array ts) =
      ((collect (ts.map encode?)).map List.flatten).map (arrayHeader ts.length ++ ·) := by
  rw [encode?_array, Option.map_map]
  apply map_collect_congr
  intro bs hbs
  simp [hbs]

theorem encode?_map_eq_header {m : Dict Tree} :
    encode? (.map m) =
      ((collect (m.entries.map fun e => (encode? e.2).map (text e.1 ++ ·))).map
        List.flatten).map (mapHeader m.size ++ ·) := by
  rw [encode?_map, ← map_flatten_collect_entries, Option.map_map]
  apply map_collect_congr
  intro es hes
  simp [entries, hes, m.length_entries]

theorem encode?_error_eq_header {t : Tree} :
    encode? (.error t) =
      ((collect [(encode? t).map (text "error" ++ ·)]).map List.flatten).map
        (mapHeader 1 ++ ·) := by
  rw [encode?_error]
  cases encode? t <;> rfl

end MessagePack

namespace Heap

open MessagePack Writing

variable {h : Heap} {v : Value} {r : Ref} {writing : List Ref}

theorem ends_serializeItems {f : Value → Option (List UInt8)} {vs : List Value}
    (hvs : ∀ v ∈ vs, Ends (h.serialize v) writing (written (f v))) :
    Ends (h.serializeItems vs) writing (written ((collect (vs.map f)).map List.flatten)) := by
  induction vs with
  | nil =>
    rw [serializeItems]
    exact .pure _ writing
  | cons v vs ih =>
    have hv := hvs v List.mem_cons_self
    have hrest := ih fun w hw => hvs w (List.mem_cons_of_mem v hw)
    rw [serializeItems, List.map_cons, map_flatten_collect_cons]
    apply hv.bind
    cases f v with
    | none => exact .pure _ writing
    | some b =>
      rw [Option.bind_some, ← map_written]
      exact hrest.map (Except.map (b ++ ·))

theorem ends_serializeEntries (f : Value → Option (List UInt8)) (es : List (String × Value))
    (hes : ∀ e ∈ es, Ends (h.serialize e.2) writing (written (f e.2))) :
    Ends (h.serializeEntries es) writing
      (written ((collect (es.map fun e => (f e.2).map (text e.1 ++ ·))).map List.flatten)) := by
  induction es with
  | nil =>
    rw [serializeEntries]
    exact .pure _ writing
  | cons e es ih =>
    obtain ⟨k, v⟩ := e
    have hv := hes (k, v) List.mem_cons_self
    have hrest := ih fun w hw => hes w (List.mem_cons_of_mem (k, v) hw)
    rw [serializeEntries, List.map_cons, map_flatten_collect_cons]
    apply hv.bind
    cases f v with
    | none => exact .pure _ writing
    | some b =>
      rw [Option.map_some, Option.bind_some, ← map_written]
      exact hrest.map (Except.map ((text k ++ b) ++ ·))

theorem ends_serialize_ancestor (hr : r ∈ writing) :
    Ends (h.serialize (.array r)) writing (.error cyclicMessage) := by
  rw [serialize]
  apply Ends.get_bind
  rw [if_pos hr]
  exact .pure _ writing

theorem ends_serialize_array (hr : r ∉ writing) {result : Except String (List UInt8)}
    (hitems : Ends (h.serializeItems (h.items r)) (r :: writing) result) :
    Ends (h.serialize (.array r)) writing
      (result.map (arrayHeader (h.items r).length ++ ·)) := by
  rw [serialize]
  apply Ends.get_bind
  rw [if_neg hr]
  exact hitems.inside _

/-- A value is written as its tree is, where the arrays that are being written already are those
that the tree is written out inside of. -/
theorem ends_serialize (h : Heap) (writing : List Ref) (v : Value) :
    Ends (h.serialize v) writing (written (encode? (h.unfold writing v))) := by
  induction writing, v using traversal_induct h with
  | atom writing a =>
    rw [serialize, unfold_atom, encode?_atom]
    exact .pure _ writing
  | ancestor writing r up hr =>
    have hmem : r ∈ writing := List.isSome_idxOf?.1 (by rw [hr]; rfl)
    rw [unfold_array_of_idxOf? hr, encode?_ancestor]
    exact ends_serialize_ancestor hmem
  | array writing r hr ih =>
    rw [unfold_array_of_not_mem hr, encode?_array_eq_header, List.map_map, List.length_map,
      ← map_written]
    exact ends_serialize_array hr (ends_serializeItems ih)
  | map writing m ih =>
    have hes := ends_serializeEntries (fun v => encode? (h.unfold writing v)) m.entries ih
    rw [serialize, unfold_map, encode?_map_eq_header, ← map_written, Dict.entries_map,
      List.map_map]
    exact hes.map (Except.map (mapHeader m.size ++ ·))
  | error writing p ih =>
    have hes := ends_serializeEntries (fun v => encode? (h.unfold writing v)) [("error", p)]
      (by simpa using ih)
    rw [serialize, unfold_error, encode?_error_eq_header, ← map_written]
    exact hes.map _

theorem serialize_eq_ok {b : List UInt8} (hb : encode? (h.tree v) = some b) :
    h.serialize v [] = some (.ok b, []) := by
  have hends := ends_serialize h [] v
  rwa [← tree, hb] at hends

/-- Of several values, written one after the other, each is written or refused as if it were the
only one, whether or not an earlier one was refused. It is refused, as a cyclic array, if and only
if it has a cycle. -/
theorem serialize_fails_iff_cyclic (requests : List (Heap × Value)) :
    ∃ outcomes, (requests.mapM fun q : Heap × Value => q.1.serialize q.2) [] = some (outcomes, []) ∧
      List.Forall₂ (fun (q : Heap × Value) o => q.1.serialize q.2 [] = some (o, []) ∧
        ((∃ message, o = .error message) ↔ q.1.Cyclic q.2) ∧
        (∀ message, o = .error message → message = "cannot serialize a cyclic array") ∧
        ((∃ b, o = .ok b) ↔ ¬q.1.Cyclic q.2)) requests outcomes := by
  have halone (q : Heap × Value) :
      Ends (q.1.serialize q.2) [] (written (encode? (q.1.tree q.2))) :=
    ends_serialize q.1 [] q.2
  refine ⟨requests.map fun q => written (encode? (q.1.tree q.2)), ?_, ?_⟩
  · exact Ends.mapM fun q _ => halone q
  · rw [List.forall₂_map_right_iff]
    apply List.forall₂_same.2
    intro q _
    refine ⟨halone q, ?_, ?_, ?_⟩
    · rw [exists_written_eq_error_iff, encode?_tree_eq_none_iff]
    · intro message hmessage
      exact eq_cyclicMessage_of_written hmessage
    · rw [exists_written_eq_ok_iff, ne_eq, encode?_tree_eq_none_iff]

end Heap

end ScriptHost
