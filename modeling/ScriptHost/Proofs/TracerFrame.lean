import ScriptHost.Proofs.CallBrackets
/-!
# What tracers hold does not matter

A run goes the same way whatever the tracers hold, and a callable runs as it
does untraced when its calls are traced. The tracer records two events of its
own then, around those of the calls inside, and no other tracer notices.
-/

namespace ScriptHost

open Trace

/-- The world with no tracers in it. -/
def World.tracerless (w : World) : World :=
  { w with tracers := #[] }

def Watched.tracerless {α : Type} (p : Watched α) : Watched α :=
  (p.1, p.2.1.tracerless, p.2.2)

/-- The handler does the same whatever the tracers hold. -/
def WatchingHandler.Overlooks (watcher : WatchingHandler) : Prop :=
  ∀ f args w, (watcher f args w).map Watched.tracerless = watcher f args w.tracerless

variable {watcher : WatchingHandler} {handler : CallHandler}

theorem World.tracerless_withTracer (w : World) (id : TracerId) (f : Tracer → Tracer) :
    (w.withTracer id f).tracerless = w.tracerless :=
  rfl

theorem World.heap_eq_of_tracerless {w w' : World} (hw : w'.tracerless = w.tracerless) :
    w'.heap = w.heap := by
  have h := congrArg World.heap hw
  exact h

theorem World.withTracer_tracerless (w : World) (id : TracerId) (f : Tracer → Tracer) :
    w.tracerless.withTracer id f = w.tracerless := by
  simp [World.tracerless, World.withTracer, World.modifyTracer]

theorem Action.watch_tracerless {α : Type} (hwatcher : watcher.Overlooks) (a : Action α)
    (w : World) : (a.watch watcher w).map Watched.tracerless = a.watch watcher w.tracerless := by
  induction a generalizing w with
  | done a => rfl
  | read next ih => exact ih w.heap w
  | alloc items next ih => exact ih _ _
  | push r v next ih => exact ih _
  | set r i v next ih =>
    have hheap : w.tracerless.heap = w.heap := rfl
    simp only [Action.watch, hheap]
    cases w.heap.set? r i v with
    | some h => exact ih true _
    | none => exact ih false w
  | call f args next ih =>
    simp only [Action.watch, ← hwatcher f args w]
    cases watcher f args w with
    | none => rfl
    | some p =>
      simp only [Option.map_some, Watched.tracerless, ← ih p.1 p.2.1, Option.map_map]
      rfl

theorem Callable.watch_tracerless (hwatcher : watcher.Overlooks) (c : Callable)
    (args : List Value) (w : World) :
    (c.watch watcher args w).map Watched.tracerless = c.watch watcher args w.tracerless := by
  induction c generalizing w with
  | native arity body =>
    simp only [Callable.watch]
    split
    · exact Action.watch_tracerless hwatcher (body args) w
    · rfl
  | named name inner ih => exact ih w
  | traced name inner tracer ih =>
    have hinner := ih (w.withTracer tracer (·.call w.now name args.length))
    rw [World.tracerless_withTracer] at hinner
    simp only [Callable.watch, World.withTracer_tracerless, ← hinner]
    cases inner.watch watcher args (w.withTracer tracer (·.call w.now name args.length)) with
    | none => rfl
    | some p =>
      simp only [Option.map_some, Watched.tracerless, World.tracerless_withTracer,
        World.withTracer_tracerless]
      rfl

theorem World.watch_overlooks (depth : Nat) : WatchingHandler.Overlooks (World.watch depth) := by
  induction depth with
  | zero => exact fun f args w => rfl
  | succ depth ih =>
    intro f args w
    have hcallable : w.tracerless.callable? f = w.callable? f := rfl
    simp only [World.watch, hcallable]
    cases w.callable? f with
    | none => rfl
    | some c => exact Callable.watch_tracerless ih c args w

variable {depth : Nat} {c : Callable} {name : String} {tracer : TracerId} {args : List Value}
  {o : Outcome} {w w₁ : World} {calls : List TracedCall}

theorem Callable.exists_watch (hrun : c.run (World.call depth) args w = some (o, w₁)) :
    ∃ calls, c.watch (World.watch depth) args w = some (o, w₁, calls) := by
  rw [← Callable.watch_unwatched (World.watch_unwatched depth), Option.map_eq_some_iff] at hrun
  obtain ⟨⟨o, w₁, calls⟩, hwatch, heq⟩ := hrun
  cases heq
  exact ⟨calls, hwatch⟩

theorem Callable.run_of_watch (hwatch : c.watch (World.watch depth) args w = some (o, w₁, calls)) :
    c.run (World.call depth) args w = some (o, w₁) := by
  rw [← Callable.watch_unwatched (World.watch_unwatched depth), hwatch]
  rfl

theorem Callable.watch_eq_of_tracerless (depth : Nat) (c : Callable) (args : List Value)
    {w' : World} (hw : w'.tracerless = w.tracerless) :
    (c.watch (World.watch depth) args w').map Watched.tracerless =
      (c.watch (World.watch depth) args w).map Watched.tracerless := by
  have hoverlooks := World.watch_overlooks depth
  rw [c.watch_tracerless hoverlooks, c.watch_tracerless hoverlooks, hw]

/-- A traced callable runs as it does untraced, and the run is one traced call. -/
theorem Callable.exists_watch_traced (name : String) (tracer : TracerId)
    (hwatch : c.watch (World.watch depth) args w = some (o, w₁, calls)) :
    ∃ w₂, (traced name c tracer).watch (World.watch depth) args w =
        some (o, w₂, [⟨tracer, name, args, calls, w₁.heap, o⟩]) ∧
      w₂.tracerless = w₁.tracerless := by
  have hsame : (c.watch (World.watch depth) args
      (w.withTracer tracer (·.call w.now name args.length))).map Watched.tracerless =
        some (o, w₁.tracerless, calls) := by
    rw [watch_eq_of_tracerless depth c args (w.tracerless_withTracer tracer _), hwatch]
    rfl
  obtain ⟨⟨o', w', calls'⟩, hinner, heq⟩ := Option.map_eq_some_iff.1 hsame
  simp only [Watched.tracerless, Prod.mk.injEq] at heq
  obtain ⟨rfl, hw, rfl⟩ := heq
  have hheap : w'.heap = w₁.heap := World.heap_eq_of_tracerless hw
  refine ⟨w'.withTracer tracer (·.ended w'.now w'.heap name o'), ?_, hw⟩
  simp only [watch, hinner, hheap]

/-! ### Registered callables -/

/-- The callable, or one that calls it and is recorded by a tracer under a name. -/
def Callable.tracedBy (tracer? : Option TracerId) (name : String) (c : Callable) : Callable :=
  match tracer? with
  | some tracer => .traced name c tracer
  | none => c

theorem Callable.arity_tracedBy (tracer? : Option TracerId) (name : String) (c : Callable) :
    (c.tracedBy tracer? name).arity = c.arity := by
  cases tracer? with
  | none => rfl
  | some tracer => rfl

/-- In a world, calls of the builtin go as those of the callable. If there is a tracer, it is told
of each call before and after it, under the name of the builtin and around what the callable itself
tells it, and the records that it admits are appended to its ring. Other tracers are told what the
callable tells them and no more. -/
structure Builtin.Forwards (f : Builtin) (c : Callable) (tracer? : Option TracerId) (w : World) :
    Prop where
  fails : ∀ depth args, c.run (World.call depth) args w = none →
    World.call (depth + 1) f args w = none
  untraced : tracer? = none → ∀ depth args,
    World.call (depth + 1) f args w = c.run (World.call depth) args w
  traced : ∀ tracer, tracer? = some tracer → ∀ depth args o w₁,
    c.run (World.call depth) args w = some (o, w₁) →
      ∃ w₂ calls e, World.call (depth + 1) f args w = some (o, w₂) ∧
        w₂.tracerless = w₁.tracerless ∧
        (∀ id, id ≠ tracer → w₂.tracer? id = w₁.tracer? id) ∧
        c.watch (World.watch depth) args w = some (o, w₁, calls) ∧
        w₁.tracer? tracer =
          (w.tracer? tracer).map (·.recordAll w.now (TracedCall.eventsAll tracer calls)) ∧
        Reports w₁.heap f.name o e ∧
        w₂.tracer? tracer = (w.tracer? tracer).map (·.recordAll w.now
          (.call f.name args.length :: TracedCall.eventsAll tracer calls ++ [e])) ∧
        ∀ t, w.tracer? tracer = some t → ∃ t₁ t₂,
          w₁.tracer? tracer = some t₁ ∧
          t.Appended w.now (TracedCall.eventsAll tracer calls) t₁ ∧
          w₂.tracer? tracer = some t₂ ∧
          t.Appended w.now
            (.call f.name args.length :: TracedCall.eventsAll tracer calls ++ [e]) t₂

theorem World.call_succ {f : Builtin} (hf : w.callable? f = some c) (depth : Nat)
    (args : List Value) : World.call (depth + 1) f args w = c.run (World.call depth) args w := by
  simp only [World.call, hf]

theorem Builtin.forwards_of_callable? {f : Builtin} {tracer? : Option TracerId}
    (hf : w.callable? f = some (c.tracedBy tracer? f.name)) : f.Forwards c tracer? w where
  fails depth args hrun := by
    rw [World.call_succ hf]
    cases tracer? with
    | none => exact hrun
    | some tracer =>
      -- If the traced callable ran, so would the callable, in a world that differs in a tracer.
      rw [← Callable.watch_unwatched (World.watch_unwatched depth),
        Option.map_eq_none_iff] at hrun ⊢
      have hinner : c.watch (World.watch depth) args
          (w.withTracer tracer (·.call w.now f.name args.length)) = none := by
        have hsame := Callable.watch_eq_of_tracerless depth c args
          (w.tracerless_withTracer tracer (·.call w.now f.name args.length))
        rwa [hrun, Option.map_none, Option.map_eq_none_iff] at hsame
      simp only [Callable.tracedBy, Callable.watch, hinner]
  untraced htracer depth args := by
    subst htracer
    exact World.call_succ hf depth args
  traced tracer htracer depth args o w₁ hrun := by
    subst htracer
    obtain ⟨calls, hwatch⟩ := Callable.exists_watch hrun
    obtain ⟨w₂, htraced, hw⟩ := Callable.exists_watch_traced f.name tracer hwatch
    have hinside := Callable.recorded_watch (fun _ _ _ _ _ _ => World.recorded_watch) c hwatch
    have houtside := Callable.recorded_watch (fun _ _ _ _ _ _ => World.recorded_watch) _ htraced
    have hevents : (⟨tracer, f.name, args, calls, w₁.heap, o⟩ : TracedCall).events tracer = _ :=
      TracedCall.events_of_eq rfl
    have htraced₁ := hinside.tracer tracer
    have htraced₂ := houtside.tracer tracer
    rw [TracedCall.eventsAll_singleton, hevents] at htraced₂
    refine ⟨w₂, calls, .ofOutcome w₁.heap f.name o, ?_, hw, fun id hid => ?_, hwatch,
      htraced₁, reports_ofOutcome _ _ _, htraced₂, fun t ht => ?_⟩
    · rw [World.call_succ hf]
      exact Callable.run_of_watch htraced
    · rw [houtside.tracer, hinside.tracer, TracedCall.eventsAll_singleton,
        TracedCall.events_of_ne (Ne.symm hid)]
    · rw [ht, Option.map_some] at htraced₁ htraced₂
      exact ⟨_, _, htraced₁, t.appended_recordAll _ _, htraced₂, t.appended_recordAll _ _⟩

end ScriptHost
