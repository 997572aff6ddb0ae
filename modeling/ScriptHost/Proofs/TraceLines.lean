import ScriptHost.Proofs.Splitting
import ScriptHost.Trace.Operation
/-!
# The lines of a trace

Records are written one below the other. What a line break in the name of a
function or in a message does to that is told for all records: the lines are the
texts of the records exactly if there is none, and otherwise a record has
several lines, which can be the lines of other records.
-/

namespace ScriptHost

open Library

@[simp] theorem newline_not_mem_toDigits (n : Nat) : '\n' ∉ Nat.toDigits 10 n := by
  intro hmem
  have hdigit := Nat.isDigit_of_mem_toDigits (by decide) (by decide) hmem
  simp at hdigit

theorem Decimal.newline_not_mem_placesText (places n : Nat) : '\n' ∉ placesText places n := by
  have hpadded (k : Nat) : '\n' ∉ List.replicate k '0' ++ Nat.toDigits 10 n := by simp
  rw [placesText]
  split
  · exact newline_not_mem_toDigits n
  · intro hmem
    rcases List.mem_append.1 hmem with hwhole | hfraction
    · exact hpadded _ (List.mem_of_mem_take hwhole)
    · cases hfraction with
      | tail _ hfraction => exact hpadded _ (List.mem_of_mem_drop hfraction)

theorem Kind.newline_not_mem_name (k : Kind) : '\n' ∉ k.name.toList := by
  cases k <;> decide

theorem Rejection.newline_not_mem_message (reason : Rejection) : '\n' ∉ reason.message.toList := by
  rw [message.eq_def]
  cases reason with
  | wrongCount expected found => simp
  | wrongKind position expected found => simp [Kind.newline_not_mem_name]

namespace Trace

theorem newline_not_mem_timeText (ns : Nat) : '\n' ∉ (timeText ns).toList := by
  have hplaces (x : Decimal.Magnitude) : '\n' ∉ (x.toPlaces 3).toList := by
    rw [Decimal.Magnitude.toPlaces, String.toList_ofList]
    exact Decimal.newline_not_mem_placesText 3 _
  rw [timeText]
  split
  · simp
  · split <;> simp [hplaces]

theorem mem_toList_padLeft_iff {c fill : Char} (hc : c ≠ fill) {width : Nat} {s : String} :
    c ∈ (padLeft width fill s).toList ↔ c ∈ s.toList := by
  simp [padLeft, hc]

/-- What the event was recorded with has no line break in it. -/
def Event.OneLine : Event → Prop
  | .errorValue f m => '\n' ∉ f.toList ∧ '\n' ∉ m.toList
  | .call f _ | .returned f _ | .rejected f _ => '\n' ∉ f.toList

theorem Event.newline_not_mem_text_iff {e : Event} : '\n' ∉ e.text.toList ↔ e.OneLine := by
  cases e with
  | call f n => simp [text, OneLine]
  | returned f k => simp [text, OneLine, Kind.newline_not_mem_name]
  | errorValue f m => simp [text, OneLine]
  | rejected f r => simp [text, OneLine, Rejection.newline_not_mem_message]

theorem LineStyle.newline_not_mem_text_iff {style : LineStyle} {r : Record} :
    '\n' ∉ (style.text r).toList ↔ r.event.OneLine := by
  rw [← Event.newline_not_mem_text_iff, text]
  cases style.ids <;> cases style.timestamps <;>
    simp [mem_toList_padLeft_iff, newline_not_mem_timeText]

theorem LineStyle.textOfAll_eq_join (style : LineStyle) (rs : List Record) :
    style.textOfAll rs = TextModule.join (rs.map style.text) (.singleton '\n') := by
  apply String.toList_injective
  rw [textOfAll, String.toList_intercalate, TextModule.join, String.toList_ofList,
    String.toList_singleton, String.toList_ofList]
  rfl

/-- The lines of a trace are the lines of its records, one record after the other. They are the
texts of the records exactly if no name and no message has a line break. -/
theorem LineStyle.lines_eq_texts_iff (style : LineStyle) (r : Record) (rs : List Record) :
    TextModule.split (style.textOfAll (r :: rs)) "\n" =
        (r :: rs).flatMap (fun q => TextModule.split (style.text q) "\n") ∧
      (TextModule.split (style.textOfAll (r :: rs)) "\n" = (r :: rs).map style.text ↔
        ∀ q ∈ r :: rs, q.event.OneLine) := by
  have hnewline : "\n" = String.singleton '\n' := rfl
  rw [textOfAll_eq_join, hnewline]
  constructor
  · rw [List.map_cons, TextModule.split_join_singleton, ← List.map_cons, List.flatMap_map]
  · rw [List.map_cons, TextModule.split_join_singleton_eq_iff (List.cons_ne_nil _ _),
      ← List.map_cons, List.forall_mem_map]
    exact forall₂_congr fun _ _ => newline_not_mem_text_iff

/-- An event whose message has a second line, which is written like an event of its own. -/
def twoLines : Record :=
  ⟨0, 0, .errorValue "f" "stop\nCALL g/0"⟩

/-- A tracer records the event of a function that returned such a message. Its text has two lines
and is that of two records. -/
theorem LineStyle.lines_ne_texts_twoLines :
    ((Tracer.ofSettings { enabled := true }).perform 0
        (.returned ∅ "f" (.failure "stop\nCALL g/0"))).ring.records = [twoLines] ∧
      TextModule.split (textOfAll ⟨false, false⟩ [twoLines]) "\n" =
        ["  ERROR f: stop", "CALL g/0"] ∧
      TextModule.split (textOfAll ⟨false, false⟩ [twoLines]) "\n" ≠
        [twoLines].map (text ⟨false, false⟩) ∧
      textOfAll ⟨false, false⟩ [twoLines] =
        textOfAll ⟨false, false⟩ [⟨0, 0, .errorValue "f" "stop"⟩, ⟨1, 0, .call "g" 0⟩] := by
  refine ⟨rfl, ?_, ?_, ?_⟩
  · decide +kernel
  · decide +kernel
  · decide +kernel

end Trace

end ScriptHost
