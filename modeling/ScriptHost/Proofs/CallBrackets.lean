import Mathlib.Data.List.Forall2
import ScriptHost.Proofs.AppendedRecords
/-!
# Traces of nested calls

The events that a call leaves with a tracer are a word of brackets. Every
traced call opens with an event that names it, and closes, after the events of
the calls inside it, with one event that says how it ended. A reader of the
events finds the pairs with a stack, and sees from the closing events which
calls failed.
-/

namespace ScriptHost

open Trace

namespace Trace

/-- What the event says with which a call of a function closes. -/
inductive Reports (h : Heap) (function : String) : Outcome → Event → Prop where
  | rejected (reason : Rejection) :
    Reports h function (.error reason) (.rejected function reason)
  | text (s : String) : Reports h function (.ok (.error (.string s))) (.errorValue function s)
  | payload (p : Value) (hp : ∀ s, p ≠ .string s) :
    Reports h function (.ok (.error p)) (.errorValue function (h.display p))
  | returned (v : Value) (hv : ∀ p, v ≠ .error p) :
    Reports h function (.ok v) (.returned function v.kind)

/-- Pairs opening events with the events that close them, in the order in which they are closed.
The innermost call that is open comes first in the first list. There are no pairs if one is left
open, or if an event closes a call of another function. -/
def pairUp : List Event → List Event → Option (List (Event × Event))
  | [], [] => some []
  | _ :: _, [] => none
  | opened, e :: es =>
    if e.isCall then pairUp (e :: opened) es
    else
      match opened with
      | [] => none
      | c :: opened =>
        if c.function = e.function then (pairUp opened es).map ((c, e) :: ·) else none

variable {h : Heap} {function : String} {o : Outcome} {e : Event}

theorem reports_ofReturn (h : Heap) (function : String) (v : Value) :
    Reports h function (.ok v) (.ofReturn h function v) := by
  unfold Event.ofReturn
  split
  · next s => exact .text s
  · next p hp => exact .payload p fun s hs => hp s hs
  · next hv => exact .returned v hv

theorem reports_ofOutcome (h : Heap) (function : String) (o : Outcome) :
    Reports h function o (.ofOutcome h function o) := by
  cases o with
  | error reason => exact .rejected reason
  | ok v => exact reports_ofReturn h function v

theorem Reports.closes (he : Reports h function o e) :
    e.isCall = false ∧ e.function = function := by
  cases he with
  | rejected reason => exact ⟨rfl, rfl⟩
  | text s => exact ⟨rfl, rfl⟩
  | payload p hp => exact ⟨rfl, rfl⟩
  | returned v hv => exact ⟨rfl, rfl⟩

theorem pairUp_call (opened es : List Event) (function : String) (argCount : Nat) :
    pairUp opened (.call function argCount :: es) =
      pairUp (.call function argCount :: opened) es := by
  cases opened with
  | nil => rfl
  | cons c opened => rfl

theorem Reports.pairUp_eq (he : Reports h function o e) (opened es : List Event)
    (argCount : Nat) :
    pairUp (.call function argCount :: opened) (e :: es) =
      (pairUp opened es).map ((.call function argCount, e) :: ·) := by
  obtain ⟨hcall, hfunction⟩ := he.closes
  rw [pairUp, hcall, if_neg Bool.false_ne_true, hfunction]
  exact if_pos rfl

end Trace

namespace TracedCall

/-- The call was rejected, or it returned an error value. -/
def Failed (c : TracedCall) : Prop :=
  (∃ reason, c.outcome = .error reason) ∨ ∃ p, c.outcome = .ok (.error p)

def ends (c : TracedCall) : Event × Event :=
  (c.opening, c.closing)

mutual

/-- The traced calls of one tracer, in the order in which they ended. -/
def ended (id : TracerId) : TracedCall → List TracedCall
  | ⟨tracer, name, args, inside, heap, outcome⟩ =>
    if tracer = id then endedAll id inside ++ [⟨tracer, name, args, inside, heap, outcome⟩]
    else endedAll id inside
termination_by structural c => c

def endedAll (id : TracerId) : List TracedCall → List TracedCall
  | [] => []
  | c :: rest => c.ended id ++ endedAll id rest
termination_by structural calls => calls

end

/-- The words of brackets that lists of traced calls leave with a tracer. -/
inductive Word (id : TracerId) : List TracedCall → List Event → Prop where
  | nil : Word id [] []
  | own {c : TracedCall} {rest : List TracedCall} {inner more : List Event} {e : Event}
    (hid : c.tracer = id) (hinner : Word id c.inside inner)
    (he : Reports c.heap c.name c.outcome e) (hmore : Word id rest more) :
    Word id (c :: rest) (.call c.name c.args.length :: inner ++ e :: more)
  | other {c : TracedCall} {rest : List TracedCall} {inner more : List Event}
    (hid : c.tracer ≠ id) (hinner : Word id c.inside inner) (hmore : Word id rest more) :
    Word id (c :: rest) (inner ++ more)

theorem sizeOf_inside_lt (c : TracedCall) : sizeOf c.inside < sizeOf c := by
  cases c
  simp only [mk.sizeOf_spec]
  omega

/-- To prove a property of lists of traced calls, it may be assumed of the calls inside the first
and of the calls after it. -/
theorem induct {P : List TracedCall → Prop} (nil : P [])
    (cons : ∀ c rest, P c.inside → P rest → P (c :: rest)) (calls : List TracedCall) :
    P calls :=
  match calls with
  | [] => nil
  | c :: rest => cons c rest (induct nil cons c.inside) (induct nil cons rest)
termination_by sizeOf calls
decreasing_by
  · have := c.sizeOf_inside_lt
    simp only [List.cons.sizeOf_spec]
    omega
  · simp only [List.cons.sizeOf_spec]
    omega

variable {id : TracerId} {c : TracedCall}

theorem ended_of_eq (hid : c.tracer = id) : c.ended id = endedAll id c.inside ++ [c] := by
  cases c
  exact if_pos hid

theorem ended_of_ne (hid : c.tracer ≠ id) : c.ended id = endedAll id c.inside := by
  cases c
  exact if_neg hid

theorem reports_closing (c : TracedCall) : Reports c.heap c.name c.outcome c.closing :=
  reports_ofOutcome c.heap c.name c.outcome

theorem isFailure_closing_iff (c : TracedCall) : c.closing.isFailure = true ↔ c.Failed := by
  unfold Failed
  have he := c.reports_closing
  generalize c.closing = e at he
  generalize c.outcome = o at he
  cases he with
  | rejected reason => exact ⟨fun _ => .inl ⟨reason, rfl⟩, fun _ => rfl⟩
  | text s => exact ⟨fun _ => .inr ⟨.string s, rfl⟩, fun _ => rfl⟩
  | payload p hp => exact ⟨fun _ => .inr ⟨p, rfl⟩, fun _ => rfl⟩
  | returned v hv => simp [Event.isFailure, hv]

theorem word_eventsAll (id : TracerId) (calls : List TracedCall) :
    Word id calls (eventsAll id calls) := by
  induction calls using induct with
  | nil => exact .nil
  | cons c rest hinside hrest =>
    rw [eventsAll]
    by_cases hid : c.tracer = id
    · rw [events_of_eq hid, List.append_assoc]
      exact .own hid hinside c.reports_closing hrest
    · rw [events_of_ne hid]
      exact .other hid hinside hrest

/-- A stack pairs up what traced calls leave, whatever is open before and comes after. -/
theorem pairUp_eventsAll_append (id : TracerId) (calls : List TracedCall)
    (opened es : List Event) :
    pairUp opened (eventsAll id calls ++ es) =
      (pairUp opened es).map ((endedAll id calls).map ends ++ ·) := by
  induction calls using induct generalizing opened es with
  | nil => exact Option.map_id'.symm
  | cons c rest hinside hrest =>
    rw [eventsAll, endedAll]
    by_cases hid : c.tracer = id
    · -- The opening event goes on the stack, the calls inside leave it there, and the closing
      -- event takes it off.
      rw [events_of_eq hid, ended_of_eq hid]
      simp only [List.append_assoc, List.cons_append, List.nil_append]
      rw [opening, pairUp_call, hinside, c.reports_closing.pairUp_eq, hrest, Option.map_map,
        Option.map_map]
      apply congrArg (Option.map · (pairUp opened es))
      funext pairs
      simp [ends, opening]
    · rw [events_of_ne hid, ended_of_ne hid, List.append_assoc, hinside, hrest, Option.map_map]
      apply congrArg (Option.map · (pairUp opened es))
      funext pairs
      simp

theorem pairUp_eventsAll (id : TracerId) (calls : List TracedCall) :
    pairUp [] (eventsAll id calls) = some ((endedAll id calls).map ends) := by
  have h := pairUp_eventsAll_append id calls [] []
  simpa [pairUp] using h

end TracedCall

/-! ### A tracer with enough room -/

/-- What a call appends to a tracer that is enabled and has no filter and room enough is the word
of brackets of the traced calls in it. Each of these calls contributes one pair of an opening and a
closing event, and the closing event is a failure just when the call failed. A call that is traced
itself is the one that all others are inside of. -/
theorem World.call_appends_brackets {depth : Nat} {f : Builtin} {args : List Value} {w w' : World}
    {o : Outcome} (hcall : World.call depth f args w = some (o, w')) :
    ∃ calls, World.watch depth f args w = some (o, w', calls) ∧
      (∀ name inner tracer, w.callable? f = some (.traced name inner tracer) →
        ∃ inside, calls = [⟨tracer, name, args, inside, w'.heap, o⟩]) ∧
      ∀ id t, w.tracer? id = some t → t.isEnabled = true → t.settings.filter = [] →
        t.ring.size + (TracedCall.eventsAll id calls).length ≤ t.ring.capacity →
        ∃ t' added pairs, w'.tracer? id = some t' ∧
          t'.ring.records = t.ring.records ++ added ∧
          TracedCall.Word id calls (added.map Record.event) ∧
          pairUp [] (added.map Record.event) = some pairs ∧
          List.Forall₂
            (fun c p => p.1 = .call c.name c.args.length ∧
              Reports c.heap c.name c.outcome p.2 ∧ (p.2.isFailure = true ↔ c.Failed))
            (TracedCall.endedAll id calls) pairs := by
  obtain ⟨calls, hwatch⟩ := World.exists_watch hcall
  have hrecorded := World.recorded_watch hwatch
  refine ⟨calls, hwatch, ?_, ?_⟩
  · intro name inner tracer hf
    exact World.watch_traced hf hwatch
  · intro id t ht henabled hfilter hroom
    obtain ⟨added, hadded, hevents⟩ :=
      Tracer.exists_records_recordAll henabled hfilter hroom w.now
    have ht' : w'.tracer? id = some (t.recordAll w.now (TracedCall.eventsAll id calls)) := by
      rw [hrecorded.tracer, ht, Option.map_some]
    refine ⟨_, added, (TracedCall.endedAll id calls).map TracedCall.ends, ht', hadded, ?_, ?_, ?_⟩
    · rw [hevents]
      exact TracedCall.word_eventsAll id calls
    · rw [hevents]
      exact TracedCall.pairUp_eventsAll id calls
    · rw [List.forall₂_map_right_iff, List.forall₂_same]
      intro c hc
      exact ⟨rfl, c.reports_closing, c.isFailure_closing_iff⟩

/-- A world with one tracer, where a traced function calls another with an argument too many. -/
def World.withRejectedCall : World where
  heap := ∅
  functions :=
    #[.traced "outer" (.variadic fun _ => .call ⟨"inner", ⟨1⟩⟩ [.undefined] fun _ =>
        .done (.ok .undefined)) ⟨0⟩,
      .traced "inner" (.native (.exact 0) fun _ => .done (.ok .undefined)) ⟨0⟩]
  tracers := #[.ofSettings { enabled := true, capacity := 4 }]
  now := 7

/-- The inner pair is closed first. -/
theorem World.call_withRejectedCall_appends_brackets :
    ∃ w' t', World.call 2 ⟨"outer", ⟨0⟩⟩ [] withRejectedCall = some (.ok .undefined, w') ∧
      w'.tracer? ⟨0⟩ = some t' ∧
      pairUp [] (t'.ring.records.map Record.event) =
        some [(.call "inner" 1, .rejected "inner" (.wrongCount 0 1)),
          (.call "outer" 0, .returned "outer" .undefined)] := by
  have hcall : World.call 2 ⟨"outer", ⟨0⟩⟩ [] withRejectedCall = some (.ok .undefined, _) := rfl
  obtain ⟨calls, hwatch, -, hbrackets⟩ := World.call_appends_brackets hcall
  cases hwatch
  have hroom : 0 + 4 ≤ 4 := Nat.le_refl 4
  obtain ⟨t', added, pairs, ht', hadded, -, hpairs, -⟩ :=
    hbrackets ⟨0⟩ _ rfl rfl rfl hroom
  refine ⟨_, t', hcall, ht', ?_⟩
  rw [hadded]
  refine hpairs.trans (congrArg some ?_)
  cases ht'
  cases hadded
  exact Option.some.inj hpairs.symm

end ScriptHost
