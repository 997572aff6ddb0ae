import ScriptHost.Module
import ScriptHost.Proofs.ArrayFrame
/-!
# Tracing never interferes

Two sessions that differ only in tracing get the same answers and leave the
same arrays behind: which callables are traced, how the tracers are set up and
what is done with them, what they hold, and what the clock shows, all this is
seen in the tracers alone. The reason is that to leave out tracing before a
run and to leave it out afterwards comes to the same.
-/

namespace ScriptHost

open Trace

/-! ### Leaving out tracing -/

def Callable.untraced : Callable → Callable
  | native arity body => native arity body
  | named name inner => named name inner.untraced
  | traced _ inner _ => inner.untraced

theorem Callable.arity_untraced (c : Callable) : c.untraced.arity = c.arity := by
  induction c with
  | native arity body => rfl
  | named name inner ih => exact ih
  | traced name inner tracer ih => exact ih

def Declaration.untraced : Declaration → Declaration
  | constant name v => constant name v
  | function name c => function name c.untraced

def ModuleDraft.untraced (d : ModuleDraft) : ModuleDraft :=
  { d with tracer := none }

/-- The world without its tracers, its clock, and the tracing of its callables. -/
def World.untraced (w : World) : World where
  heap := w.heap
  functions := w.functions.map Callable.untraced
  tracers := #[]
  now := 0

def untracedAfter {α : Type} (p : α × World) : α × World :=
  (p.1, p.2.untraced)

/-! ### What a session asks of a world -/

inductive Command where
  | request (q : Request)
  | register (name : String) (c : Callable)
  /-- Put together a module whose functions may be traced. -/
  | assemble (d : ModuleDraft) (members : List Declaration)
  | call (f : Builtin) (args : List Value)
  /-- Call a callable that need not be registered. -/
  | run (c : Callable) (args : List Value)
  | arity (c : Callable)
  | arityOf (f : Builtin)

inductive Answer where
  | reply (r : Reply)
  | builtin (f : Builtin)
  | members (m : Dict Value)
  | outcome (o : Outcome)
  | arity (a? : Option Arity)

def Command.untraced : Command → Command
  | request q => request q
  | register name c => register name c.untraced
  | assemble d members => assemble d.untraced (members.map Declaration.untraced)
  | call f args => call f args
  | run c args => run c.untraced args
  | arity c => arity c.untraced
  | arityOf f => arityOf f

def Command.perform (depth : Nat) : Command → World → Option (Answer × World)
  | request q, w => (q.perform w.heap).map fun p => (.reply p.1, { w with heap := p.2 })
  | register name c, w =>
    let (f, w) := w.newBuiltin name c
    some (.builtin f, w)
  | assemble d members, w =>
    let (d, w) := d.declare members w
    some (.members d.build, w)
  | call f args, w => (World.call depth f args w).map fun p => (.outcome p.1, p.2)
  | run c args, w => (c.run (World.call depth) args w).map fun p => (.outcome p.1, p.2)
  | arity c, w => some (.arity (some c.arity), w)
  | arityOf f, w => some (.arity ((w.callable? f).map Callable.arity), w)

/-- A session: commands, each of which may depend on the answers so far, and what is done with
tracers and the clock in between. -/
inductive Session where
  | done
  | command (c : Command) (next : Answer → Session)
  | addTracer (settings : Settings) (next : Session)
  | operate (id : TracerId) (op : Operation) (next : Session)
  | wait (nanoseconds : Nat) (next : Session)

namespace Session

/-- Every answer in its turn, with the arrays as they were then, and the world at the end. -/
def run (depth : Nat) : Session → World → Option (List (Answer × Heap) × World)
  | done, w => some ([], w)
  | command c next, w =>
    match c.perform depth w with
    | some (a, w) => ((next a).run depth w).map fun p => ((a, w.heap) :: p.1, p.2)
    | none => none
  | addTracer settings next, w => next.run depth (w.addTracer (.ofSettings settings)).2
  | operate id op next, w => next.run depth (w.modifyTracer id fun t => t.perform w.now op)
  | wait nanoseconds next, w => next.run depth { w with now := w.now + nanoseconds }

def untraced : Session → Session
  | done => done
  | command c next => command c.untraced fun a => (next a).untraced
  | addTracer _ next => next.untraced
  | operate _ _ next => next.untraced
  | wait _ next => next.untraced

end Session

/-! ### Calls -/

variable {handler handler' : CallHandler}

/-- Leaving out tracing before the calls of the one handler gives the calls of the other. -/
def CallHandler.Untraces (handler handler' : CallHandler) : Prop :=
  ∀ f args w, (handler f args w).map untracedAfter = handler' f args w.untraced

theorem Action.run_untraced {α : Type} (hhandler : handler.Untraces handler') (a : Action α)
    (w : World) : (a.run handler w).map untracedAfter = a.run handler' w.untraced := by
  induction a generalizing w with
  | done a => rfl
  | read next ih => exact ih w.heap w
  | alloc items next ih => exact ih _ _
  | push r v next ih => exact ih _
  | set r i v next ih =>
    have hheap : w.untraced.heap = w.heap := rfl
    simp only [Action.run, hheap]
    cases w.heap.set? r i v with
    | some h => exact ih true _
    | none => exact ih false w
  | call f args next ih =>
    simp only [Action.run, ← hhandler f args w]
    cases handler f args w with
    | none => rfl
    | some p => exact ih p.1 p.2

/-- The records of a traced call do not reach what is left when tracing is left out. -/
theorem Callable.run_untraced (hhandler : handler.Untraces handler') (c : Callable)
    (args : List Value) (w : World) :
    (c.run handler args w).map untracedAfter = c.untraced.run handler' args w.untraced := by
  induction c generalizing w with
  | native arity body =>
    simp only [Callable.untraced, Callable.run]
    split
    · exact Action.run_untraced hhandler (body args) w
    · rfl
  | named name inner ih => exact ih w
  | traced name inner tracer ih =>
    have hinner := ih (w.withTracer tracer (·.call w.now name args.length))
    rw [Callable.untraced, Callable.run]
    refine Eq.trans ?_ hinner
    cases inner.run handler args (w.withTracer tracer (·.call w.now name args.length)) with
    | none => rfl
    | some p => rfl

theorem World.callable?_untraced (w : World) (f : Builtin) :
    w.untraced.callable? f = (w.callable? f).map Callable.untraced :=
  Array.getElem?_map

theorem World.call_untraced (depth : Nat) :
    CallHandler.Untraces (World.call depth) (World.call depth) := by
  induction depth with
  | zero => exact fun f args w => rfl
  | succ depth ih =>
    intro f args w
    simp only [World.call, World.callable?_untraced]
    cases w.callable? f with
    | none => rfl
    | some c => exact Callable.run_untraced ih c args w

/-! ### Commands -/

theorem World.untracedAfter_newBuiltin (w : World) (name : String) (c : Callable) :
    untracedAfter (w.newBuiltin name c) = w.untraced.newBuiltin name c.untraced := by
  simp [untracedAfter, World.newBuiltin, World.register, World.untraced]

def ModuleDraft.untracedAfter (p : ModuleDraft × World) : ModuleDraft × World :=
  (p.1.untraced, p.2.untraced)

theorem ModuleDraft.untracedAfter_function (d : ModuleDraft) (name : String) (c : Callable)
    (w : World) :
    untracedAfter (d.function name c w) = d.untraced.function name c.untraced w.untraced := by
  obtain ⟨title, members, tracer⟩ := d
  cases tracer with
  | none =>
    have hbuiltin := w.untracedAfter_newBuiltin (title ++ "." ++ name) c
    simp only [function, untraced, qualify, constant, ← hbuiltin]
    rfl
  | some id =>
    have hbuiltin := w.untracedAfter_newBuiltin (title ++ "." ++ name)
      (.traced (title ++ "." ++ name) c id)
    simp only [Callable.untraced] at hbuiltin
    simp only [function, untraced, qualify, constant, ← hbuiltin]
    rfl

theorem ModuleDraft.untracedAfter_declare (d : ModuleDraft) (members : List Declaration)
    (w : World) :
    untracedAfter (d.declare members w) =
      d.untraced.declare (members.map Declaration.untraced) w.untraced := by
  induction members generalizing d w with
  | nil => rfl
  | cons m members ih =>
    cases m with
    | constant name v => exact ih (d.constant name v) w
    | function name c =>
      have hfunction := d.untracedAfter_function name c w
      simp only [declare, List.map_cons, Declaration.untraced, ← hfunction]
      exact ih _ _

theorem Command.perform_untraced (depth : Nat) (c : Command) (w : World) :
    (c.perform depth w).map untracedAfter = c.untraced.perform depth w.untraced := by
  cases c with
  | request q =>
    have hheap : w.untraced.heap = w.heap := rfl
    simp only [perform, untraced, hheap, Option.map_map]
    rfl
  | register name c =>
    simp only [perform, untraced, ← World.untracedAfter_newBuiltin]
    rfl
  | assemble d members =>
    simp only [perform, untraced, ← ModuleDraft.untracedAfter_declare]
    rfl
  | call f args =>
    simp only [perform, untraced, ← World.call_untraced depth f args w, Option.map_map]
    rfl
  | run c args =>
    simp only [perform, untraced, ← Callable.run_untraced (World.call_untraced depth) c args w,
      Option.map_map]
    rfl
  | arity c =>
    simp only [perform, untraced, Callable.arity_untraced]
    rfl
  | arityOf f =>
    have harity : Callable.arity ∘ Callable.untraced = Callable.arity :=
      funext Callable.arity_untraced
    simp only [perform, untraced, World.callable?_untraced, Option.map_map, harity]
    rfl

/-! ### Sessions -/

theorem Session.run_untraced (depth : Nat) (s : Session) (w : World) :
    (s.run depth w).map untracedAfter = s.untraced.run depth w.untraced := by
  induction s generalizing w with
  | done => rfl
  | command c next ih =>
    simp only [run, untraced, ← c.perform_untraced depth w]
    cases c.perform depth w with
    | none => rfl
    | some p =>
      have hrest := ih p.1 p.2
      simp only [Option.map_some, untracedAfter] at hrest ⊢
      rw [← hrest, Option.map_map, Option.map_map]
      rfl
  | addTracer settings next ih => exact ih _
  | operate id op next ih => exact ih _
  | wait nanoseconds next ih => exact ih _

/-- Sessions that differ only in tracing, in worlds that differ only in tracing, have the same
answers and the same arrays at every step, and only their tracers and clocks end up different. -/
theorem Session.tracing_never_interferes {s s' : Session} {w w' : World}
    (hs : s.untraced = s'.untraced) (hw : w.untraced = w'.untraced) (depth : Nat) :
    (s.run depth w).map untracedAfter = (s'.run depth w').map untracedAfter := by
  calc (s.run depth w).map untracedAfter
      = s.untraced.run depth w.untraced := s.run_untraced depth w
    _ = s'.untraced.run depth w'.untraced := by rw [hs, hw]
    _ = (s'.run depth w').map untracedAfter := (s'.run_untraced depth w').symm

namespace Session

def trial (c : Callable) : Session :=
  .command (.register "count" c) fun _ =>
    .command (.call ⟨"count", ⟨0⟩⟩ [.undefined]) fun _ => .done

/-- The same session with the callable traced, by a tracer that is cleared before the call. -/
def tracedTrial (c : Callable) : Session :=
  .addTracer { enabled := true } <| .command (.register "count" (.traced "count" c ⟨0⟩)) fun _ =>
    .operate ⟨0⟩ .clear <| .wait 7 <| .command (.call ⟨"count", ⟨0⟩⟩ [.undefined]) fun _ => .done

/-- The call is rejected in both sessions for the same reason, and the tracer knows of it. -/
theorem tracing_never_interferes_trial :
    (tracedTrial Request.countTexts).untraced = (trial Request.countTexts).untraced ∧
      ((tracedTrial Request.countTexts).run 1 ∅).map untracedAfter =
        ((trial Request.countTexts).run 1 ∅).map untracedAfter ∧
      ((tracedTrial Request.countTexts).run 1 ∅).bind
          (fun p => (p.2.tracer? ⟨0⟩).map fun t => t.ring.records.map (·.event)) =
        some [.call "count" 1, .rejected "count" (.wrongKind 0 .array .undefined)] := by
  have hsame : (tracedTrial Request.countTexts).untraced =
      (trial Request.countTexts).untraced := rfl
  exact ⟨hsame, tracing_never_interferes hsame rfl 1, rfl⟩

end Session

end ScriptHost
