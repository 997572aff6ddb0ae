import ScriptHost.Action
import ScriptHost.Display
import ScriptHost.Trace.Tracer
/-!
# Operations on tracers

What is done with a tracer: it is switched on and off, redirected and cleared,
and it is told that a call begins and how it ended. Nothing is recorded while
the tracer is switched off.
-/

namespace ScriptHost.Trace

/-- The event of a call that returned a value. The message of an error is its text, or the display
text of whatever else it wraps. -/
def Event.ofReturn (h : Heap) (function : String) : Value → Event
  | .error (.string s) => .errorValue function s
  | .error p => .errorValue function (h.display p)
  | v => .returned function v.kind

def Event.ofOutcome (h : Heap) (function : String) : Outcome → Event
  | .ok v => ofReturn h function v
  | .error reason => .rejected function reason

namespace Tracer

def call (t : Tracer) (timestamp : Nat) (function : String) (argCount : Nat) : Tracer :=
  if t.isEnabled then t.record timestamp (.call function argCount) else t

def returned (t : Tracer) (timestamp : Nat) (h : Heap) (function : String) (v : Value) : Tracer :=
  if t.isEnabled then t.record timestamp (.ofReturn h function v) else t

def rejected (t : Tracer) (timestamp : Nat) (function : String) (reason : Rejection) : Tracer :=
  if t.isEnabled then t.record timestamp (.rejected function reason) else t

def ended (t : Tracer) (timestamp : Nat) (h : Heap) (function : String) : Outcome → Tracer
  | .ok v => t.returned timestamp h function v
  | .error reason => t.rejected timestamp function reason

variable {t : Tracer} {timestamp : Nat} {event : Event}

theorem record_of_not_isEnabled (ht : t.isEnabled = false) : t.record timestamp event = t := by
  simp [record, ht]

/-- It makes no difference to look twice whether a tracer is enabled. -/
theorem ite_isEnabled_record :
    (if t.isEnabled then t.record timestamp event else t) = t.record timestamp event := by
  split
  · rfl
  · next ht => rw [record_of_not_isEnabled (by simpa using ht)]

theorem call_eq_record (t : Tracer) (timestamp : Nat) (function : String) (argCount : Nat) :
    t.call timestamp function argCount = t.record timestamp (.call function argCount) :=
  ite_isEnabled_record

theorem returned_eq_record (t : Tracer) (timestamp : Nat) (h : Heap) (function : String)
    (v : Value) :
    t.returned timestamp h function v = t.record timestamp (.ofReturn h function v) :=
  ite_isEnabled_record

theorem rejected_eq_record (t : Tracer) (timestamp : Nat) (function : String)
    (reason : Rejection) :
    t.rejected timestamp function reason = t.record timestamp (.rejected function reason) :=
  ite_isEnabled_record

theorem ended_eq_record (t : Tracer) (timestamp : Nat) (h : Heap) (function : String)
    (o : Outcome) :
    t.ended timestamp h function o = t.record timestamp (.ofOutcome h function o) := by
  cases o with
  | ok v => exact returned_eq_record t timestamp h function v
  | error reason => exact rejected_eq_record t timestamp function reason

end Tracer

/-- Something that is done with a tracer. -/
inductive Operation where
  | enable
  | disable
  | redirect (destination : Destination)
  | clear
  | record (event : Event)
  | call (function : String) (argCount : Nat)
  | returned (h : Heap) (function : String) (v : Value)
  | rejected (function : String) (reason : Rejection)

def Tracer.perform (t : Tracer) (timestamp : Nat) : Operation → Tracer
  | .enable => t.enable
  | .disable => t.disable
  | .redirect destination => t.redirect destination
  | .clear => t.clear
  | .record event => t.record timestamp event
  | .call function argCount => t.call timestamp function argCount
  | .returned h function v => t.returned timestamp h function v
  | .rejected function reason => t.rejected timestamp function reason

/-- Whatever brings an event records it. -/
theorem Tracer.perform_eq (t : Tracer) (timestamp : Nat) (op : Operation) :
    t.perform timestamp op =
      match op with
      | .enable => t.enable
      | .disable => t.disable
      | .redirect destination => t.redirect destination
      | .clear => t.clear
      | .record event => t.record timestamp event
      | .call function argCount => t.record timestamp (.call function argCount)
      | .returned h function v => t.record timestamp (.ofReturn h function v)
      | .rejected function reason => t.record timestamp (.rejected function reason) := by
  cases op with
  | enable => rfl
  | disable => rfl
  | redirect destination => rfl
  | clear => rfl
  | record event => rfl
  | call function argCount => exact t.call_eq_record timestamp function argCount
  | returned h function v => exact t.returned_eq_record timestamp h function v
  | rejected function reason => exact t.rejected_eq_record timestamp function reason

end ScriptHost.Trace
