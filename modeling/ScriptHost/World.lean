import ScriptHost.Callable
import ScriptHost.Trace.Operation
/-!
# The world that scripts and host functions share

A world holds the arrays, the registered callables and the tracers. It carries
out the actions of host functions and the calls among them. Calls may be
nested without end, so a call is given the depth up to which it may nest.
-/

namespace ScriptHost

/-- The state that scripts and host functions share. -/
structure World where
  heap : Heap
  functions : Array Callable
  tracers : Array Trace.Tracer
  /-- What the clock shows, in nanoseconds. -/
  now : Nat

namespace World

instance : EmptyCollection World where
  emptyCollection := ⟨∅, #[], #[], 0⟩

instance : Inhabited World where
  default := ∅

def register (w : World) (c : Callable) : FunctionId × World :=
  (⟨w.functions.size⟩, { w with functions := w.functions.push c })

/-- Registers a callable as a value that scripts can hold. -/
def newBuiltin (w : World) (name : String) (c : Callable) : Builtin × World :=
  let (id, w) := w.register c
  (⟨name, id⟩, w)

def callable? (w : World) (f : Builtin) : Option Callable :=
  w.functions[f.function.index]?

def addTracer (w : World) (t : Trace.Tracer) : TracerId × World :=
  (⟨w.tracers.size⟩, { w with tracers := w.tracers.push t })

def tracer? (w : World) (id : TracerId) : Option Trace.Tracer :=
  w.tracers[id.index]?

def modifyTracer (w : World) (id : TracerId) (f : Trace.Tracer → Trace.Tracer) : World :=
  { w with tracers := w.tracers.modify id.index f }

/-- Does something with a tracer, if the tracer is enabled. -/
def withTracer (w : World) (id : TracerId) (f : Trace.Tracer → Trace.Tracer) : World :=
  w.modifyTracer id fun t => if t.isEnabled then f t else t

def record (w : World) (id : TracerId) (event : Trace.Event) : World :=
  w.modifyTracer id fun t => t.record w.now event

theorem withTracer_call (w : World) (id : TracerId) (function : String) (argCount : Nat) :
    (w.withTracer id fun t => t.call w.now function argCount) =
      w.record id (.call function argCount) := by
  simp only [withTracer, record, Trace.Tracer.call_eq_record, Trace.Tracer.ite_isEnabled_record]

theorem withTracer_ended (w : World) (id : TracerId) (h : Heap) (function : String)
    (o : Outcome) :
    (w.withTracer id fun t => t.ended w.now h function o) =
      w.record id (.ofOutcome h function o) := by
  simp only [withTracer, record, Trace.Tracer.ended_eq_record, Trace.Tracer.ite_isEnabled_record]

end World

/-- How a builtin is called in a world. There is no answer if calls nest too deeply. -/
abbrev CallHandler : Type :=
  Builtin → List Value → World → Option (Outcome × World)

/-- Carries out an action, with a handler for the calls in it. -/
def Action.run {α : Type} (handler : CallHandler) : Action α → World → Option (α × World)
  | done a, w => some (a, w)
  | read next, w => (next w.heap).run handler w
  | alloc items next, w =>
    let (r, h) := w.heap.alloc items
    (next r).run handler { w with heap := h }
  | push r v next, w => next.run handler { w with heap := w.heap.push r v }
  | set r i v next, w =>
    match w.heap.set? r i v with
    | some h => (next true).run handler { w with heap := h }
    | none => (next false).run handler w
  | call f args next, w =>
    match handler f args w with
    | some (o, w) => (next o).run handler w
    | none => none

theorem Action.run_bind {α β : Type} (handler : CallHandler) (a : Action α) (f : α → Action β)
    (w : World) :
    (a.bind f).run handler w = (a.run handler w).bind fun p => (f p.1).run handler p.2 := by
  induction a generalizing w with
  | done a => rfl
  | read next ih => exact ih w.heap w
  | alloc items next ih => exact ih _ _
  | push r v next ih => exact ih _
  | set r i v next ih =>
    simp only [Action.bind, Action.run]
    split
    · exact ih _ _
    · exact ih _ _
  | call g args next ih =>
    simp only [Action.bind, Action.run]
    split
    · exact ih _ _
    · rfl

/-- Calls a callable, with a handler for the calls that it makes. The events of a traced call are
recorded before and after it, and the tracer is free in between. -/
def Callable.run (handler : CallHandler) :
    Callable → List Value → World → Option (Outcome × World)
  | native arity body, args, w =>
    if arity.accepts args.length then (body args).run handler w
    else some (.error (.wrongCount arity.least args.length), w)
  | named _ inner, args, w => inner.run handler args w
  | traced name inner tracer, args, w =>
    match inner.run handler args (w.withTracer tracer (·.call w.now name args.length)) with
    | some (o, w) => some (o, w.withTracer tracer (·.ended w.now w.heap name o))
    | none => none

/-- Calls a builtin, where calls may nest up to the given depth. There is no answer if they nest
more deeply, or if a builtin is called that is not registered. -/
def World.call (depth : Nat) (f : Builtin) (args : List Value) (w : World) :
    Option (Outcome × World) :=
  match depth with
  | 0 => none
  | depth + 1 =>
    match w.callable? f with
    | some c => c.run (World.call depth) args w
    | none => none

end ScriptHost
