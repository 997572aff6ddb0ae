import ScriptHost.World
/-!
# Watched runs

A run can be watched. It goes as it goes unwatched, and it is known afterwards
which traced calls ended in it, and which of them were made inside which. What
a run records in the tracers is what these calls report, and nothing else.
-/

namespace ScriptHost

open Trace

/-- A traced call that has ended. -/
structure TracedCall where
  tracer : TracerId
  name : String
  args : List Value
  /-- The traced calls that were made meanwhile, the first first. -/
  inside : List TracedCall
  /-- The heap as the call left it. -/
  heap : Heap
  outcome : Outcome

/-- What comes of a watched run, the world after it, and the traced calls in it. -/
abbrev Watched (α : Type) : Type :=
  α × World × List TracedCall

def Watched.unwatched {α : Type} (p : Watched α) : α × World :=
  (p.1, p.2.1)

/-- A handler of calls that are watched. -/
abbrev WatchingHandler : Type :=
  Builtin → List Value → World → Option (Watched Outcome)

def Action.watch {α : Type} (handler : WatchingHandler) : Action α → World → Option (Watched α)
  | done a, w => some (a, w, [])
  | read next, w => (next w.heap).watch handler w
  | alloc items next, w =>
    let (r, h) := w.heap.alloc items
    (next r).watch handler { w with heap := h }
  | push r v next, w => next.watch handler { w with heap := w.heap.push r v }
  | set r i v next, w =>
    match w.heap.set? r i v with
    | some h => (next true).watch handler { w with heap := h }
    | none => (next false).watch handler w
  | call f args next, w =>
    match handler f args w with
    | some (o, w, calls) => ((next o).watch handler w).map fun p => (p.1, p.2.1, calls ++ p.2.2)
    | none => none

def Callable.watch (handler : WatchingHandler) :
    Callable → List Value → World → Option (Watched Outcome)
  | native arity body, args, w =>
    if arity.accepts args.length then (body args).watch handler w
    else some (.error (.wrongCount arity.least args.length), w, [])
  | named _ inner, args, w => inner.watch handler args w
  | traced name inner tracer, args, w =>
    match inner.watch handler args (w.withTracer tracer (·.call w.now name args.length)) with
    | some (o, w, calls) =>
      some (o, w.withTracer tracer (·.ended w.now w.heap name o),
        [⟨tracer, name, args, calls, w.heap, o⟩])
    | none => none

def World.watch (depth : Nat) (f : Builtin) (args : List Value) (w : World) :
    Option (Watched Outcome) :=
  match depth with
  | 0 => none
  | depth + 1 =>
    match w.callable? f with
    | some c => c.watch (World.watch depth) args w
    | none => none

variable {watcher : WatchingHandler} {handler : CallHandler}

/-! ### Watching changes nothing -/

/-- But for what is watched, the handlers do the same. -/
def WatchingHandler.Matches (watcher : WatchingHandler) (handler : CallHandler) : Prop :=
  ∀ f args w, (watcher f args w).map Watched.unwatched = handler f args w

theorem Action.watch_unwatched {α : Type} (hhandler : watcher.Matches handler) (a : Action α)
    (w : World) : (a.watch watcher w).map Watched.unwatched = a.run handler w := by
  induction a generalizing w with
  | done a => rfl
  | read next ih => exact ih w.heap w
  | alloc items next ih => exact ih _ _
  | push r v next ih => exact ih _
  | set r i v next ih =>
    simp only [Action.watch, Action.run]
    cases w.heap.set? r i v with
    | some h => exact ih true _
    | none => exact ih false w
  | call f args next ih =>
    simp only [Action.watch, Action.run, ← hhandler f args w]
    cases watcher f args w with
    | none => rfl
    | some p =>
      simp only [Option.map_map, Option.map_some]
      exact ih p.1 p.2.1

theorem Callable.watch_unwatched (hhandler : watcher.Matches handler) (c : Callable)
    (args : List Value) (w : World) :
    (c.watch watcher args w).map Watched.unwatched = c.run handler args w := by
  induction c generalizing w with
  | native arity body =>
    simp only [Callable.watch, Callable.run]
    split
    · exact Action.watch_unwatched hhandler (body args) w
    · rfl
  | named name inner ih => exact ih w
  | traced name inner tracer ih =>
    simp only [Callable.watch, Callable.run, ← ih]
    cases inner.watch watcher args (w.withTracer tracer (·.call w.now name args.length)) with
    | none => rfl
    | some p => rfl

theorem World.watch_unwatched (depth : Nat) (f : Builtin) (args : List Value) (w : World) :
    (World.watch depth f args w).map Watched.unwatched = World.call depth f args w := by
  induction depth generalizing f args w with
  | zero => rfl
  | succ depth ih =>
    simp only [World.watch, World.call]
    cases w.callable? f with
    | none => rfl
    | some c => exact Callable.watch_unwatched ih c args w

theorem World.exists_watch {depth : Nat} {f : Builtin} {args : List Value} {w w' : World}
    {o : Outcome} (hcall : World.call depth f args w = some (o, w')) :
    ∃ calls, World.watch depth f args w = some (o, w', calls) := by
  rw [← World.watch_unwatched, Option.map_eq_some_iff] at hcall
  obtain ⟨⟨o, w', calls⟩, hwatch, heq⟩ := hcall
  cases heq
  exact ⟨calls, hwatch⟩

theorem World.watch_traced {depth : Nat} {f : Builtin} {args : List Value} {w w' : World}
    {o : Outcome} {calls : List TracedCall} {name : String} {inner : Callable}
    {tracer : TracerId} (hf : w.callable? f = some (.traced name inner tracer))
    (hwatch : World.watch depth f args w = some (o, w', calls)) :
    ∃ inside, calls = [⟨tracer, name, args, inside, w'.heap, o⟩] := by
  cases depth with
  | zero => cases hwatch
  | succ depth =>
    simp only [World.watch, hf, Callable.watch] at hwatch
    split at hwatch
    · next o₁ w₁ inside hinner =>
      cases hwatch
      exact ⟨inside, rfl⟩
    · cases hwatch

/-! ### What the tracers record -/

namespace TracedCall

def opening (c : TracedCall) : Event :=
  .call c.name c.args.length

def closing (c : TracedCall) : Event :=
  .ofOutcome c.heap c.name c.outcome

mutual

/-- The events that a traced call, and the calls inside it, leave with a tracer. -/
def events (id : TracerId) : TracedCall → List Event
  | ⟨tracer, name, args, inside, heap, outcome⟩ =>
    if tracer = id then
      .call name args.length :: eventsAll id inside ++ [.ofOutcome heap name outcome]
    else eventsAll id inside
termination_by structural c => c

def eventsAll (id : TracerId) : List TracedCall → List Event
  | [] => []
  | c :: rest => c.events id ++ eventsAll id rest
termination_by structural calls => calls

end

theorem events_of_eq {id : TracerId} {c : TracedCall} (hid : c.tracer = id) :
    c.events id = c.opening :: eventsAll id c.inside ++ [c.closing] := by
  cases c
  exact if_pos hid

theorem events_of_ne {id : TracerId} {c : TracedCall} (hid : c.tracer ≠ id) :
    c.events id = eventsAll id c.inside := by
  cases c
  exact if_neg hid

theorem eventsAll_append (id : TracerId) (calls more : List TracedCall) :
    eventsAll id (calls ++ more) = eventsAll id calls ++ eventsAll id more := by
  induction calls with
  | nil => rfl
  | cons c calls ih => simp only [List.cons_append, eventsAll, ih, List.append_assoc]

theorem eventsAll_singleton (id : TracerId) (c : TracedCall) :
    eventsAll id [c] = c.events id :=
  List.append_nil _

end TracedCall

def Trace.Tracer.recordAll (t : Tracer) (timestamp : Nat) (events : List Event) : Tracer :=
  events.foldl (fun t event => t.record timestamp event) t

theorem Trace.Tracer.recordAll_append (t : Tracer) (timestamp : Nat) (events more : List Event) :
    t.recordAll timestamp (events ++ more) =
      (t.recordAll timestamp events).recordAll timestamp more :=
  List.foldl_append

theorem World.tracer?_modifyTracer (w : World) (id other : TracerId) (f : Tracer → Tracer) :
    (w.modifyTracer other f).tracer? id =
      (w.tracer? id).map fun t => if other = id then f t else t := by
  obtain ⟨i⟩ := id
  obtain ⟨k⟩ := other
  simp only [World.modifyTracer, World.tracer?, Array.getElem?_modify, TracerId.mk.injEq]
  split
  · rfl
  · exact Option.map_id'.symm

theorem World.tracer?_record (w : World) (id other : TracerId) (event : Event) :
    (w.record other event).tracer? id =
      (w.tracer? id).map fun t => if other = id then t.record w.now event else t :=
  w.tracer?_modifyTracer id other fun t => t.record w.now event

/-- From one world to the next the tracers recorded what the calls report, and nothing else. -/
structure World.Recorded (w w' : World) (calls : List TracedCall) : Prop where
  now : w'.now = w.now
  tracer : ∀ id,
    w'.tracer? id = (w.tracer? id).map (·.recordAll w.now (TracedCall.eventsAll id calls))

namespace World

variable {w w₁ w' : World} {calls more : List TracedCall}

theorem Recorded.of_heap (w : World) (h : Heap) : w.Recorded { w with heap := h } [] where
  now := rfl
  tracer id := (Option.map_id' (x := w.tracer? id)).symm

theorem Recorded.refl (w : World) : w.Recorded w [] :=
  .of_heap w w.heap

theorem Recorded.trans (hcalls : w.Recorded w₁ calls) (hmore : w₁.Recorded w' more) :
    w.Recorded w' (calls ++ more) where
  now := hmore.now.trans hcalls.now
  tracer id := by
    rw [hmore.tracer, hcalls.tracer, hcalls.now, Option.map_map, TracedCall.eventsAll_append]
    apply congrArg (Option.map · (w.tracer? id))
    funext t
    exact (t.recordAll_append w.now _ _).symm

theorem Recorded.traced (c : TracedCall)
    (hinside : (w.record c.tracer c.opening).Recorded w₁ c.inside) :
    w.Recorded (w₁.record c.tracer c.closing) [c] where
  now := hinside.now
  tracer id := by
    have hnow : w₁.now = w.now := hinside.now
    rw [tracer?_record, hinside.tracer, tracer?_record, hnow, Option.map_map, Option.map_map,
      TracedCall.eventsAll_singleton]
    apply congrArg (Option.map · (w.tracer? id))
    funext t
    by_cases hid : c.tracer = id
    · simp only [hid, if_true, Function.comp_apply, TracedCall.events_of_eq hid]
      exact (Tracer.recordAll_append (t.record w.now c.opening) w.now _ [c.closing]).symm
    · simp only [hid, if_false, Function.comp_apply, TracedCall.events_of_ne hid]
      rfl

end World

/-- What the handler watches is what is recorded. -/
def WatchingHandler.Faithful (watcher : WatchingHandler) : Prop :=
  ∀ f args w o w' calls, watcher f args w = some (o, w', calls) → World.Recorded w w' calls

theorem Action.recorded_watch {α : Type} (hwatcher : watcher.Faithful) (a : Action α)
    {x : α} {w w' : World} {calls : List TracedCall}
    (hwatch : a.watch watcher w = some (x, w', calls)) : World.Recorded w w' calls := by
  induction a generalizing w calls with
  | done a =>
    cases hwatch
    exact .refl _
  | read next ih => exact ih w.heap hwatch
  | alloc items next ih => exact (World.Recorded.of_heap w _).trans (ih _ hwatch)
  | push r v next ih => exact (World.Recorded.of_heap w _).trans (ih hwatch)
  | set r i v next ih =>
    simp only [Action.watch] at hwatch
    cases hset : w.heap.set? r i v with
    | some h =>
      rw [hset] at hwatch
      exact (World.Recorded.of_heap w h).trans (ih true hwatch)
    | none =>
      rw [hset] at hwatch
      exact ih false hwatch
  | call f args next ih =>
    simp only [Action.watch] at hwatch
    cases hcall : watcher f args w with
    | none => simp [hcall] at hwatch
    | some p =>
      obtain ⟨o, w₁, inner⟩ := p
      simp only [hcall, Option.map_eq_some_iff] at hwatch
      obtain ⟨⟨y, w₂, rest⟩, hrest, heq⟩ := hwatch
      cases heq
      -- First the callee's records, then those of what is done with its outcome.
      exact (hwatcher f args w o w₁ inner hcall).trans (ih o hrest)

theorem Callable.recorded_watch (hwatcher : watcher.Faithful) (c : Callable)
    {args : List Value} {o : Outcome} {w w' : World} {calls : List TracedCall}
    (hwatch : c.watch watcher args w = some (o, w', calls)) : World.Recorded w w' calls := by
  induction c generalizing w w' calls with
  | native arity body =>
    simp only [Callable.watch] at hwatch
    split at hwatch
    · exact Action.recorded_watch hwatcher (body args) hwatch
    · cases hwatch
      exact .refl _
  | named name inner ih => exact ih hwatch
  | traced name inner tracer ih =>
    simp only [Callable.watch, World.withTracer_call, World.withTracer_ended] at hwatch
    split at hwatch
    · next o₁ w₁ inside hinner =>
      cases hwatch
      exact .traced ⟨tracer, name, args, inside, w₁.heap, o⟩ (ih hinner)
    · cases hwatch

theorem World.recorded_watch {depth : Nat} {f : Builtin} {args : List Value} {o : Outcome}
    {w w' : World} {calls : List TracedCall}
    (hwatch : World.watch depth f args w = some (o, w', calls)) : World.Recorded w w' calls := by
  induction depth generalizing f args w o w' calls with
  | zero => cases hwatch
  | succ depth ih =>
    simp only [World.watch] at hwatch
    split at hwatch
    · next c hc =>
      exact Callable.recorded_watch (fun f args w o w' calls => ih) c hwatch
    · cases hwatch

end ScriptHost
