import ScriptHost.Proofs.CallingConvention
import ScriptHost.Proofs.ModuleAssembly
/-!
# Modules from declarations

A module that is written down as a list of declarations has a member for each
of them. If its functions only compute, then what comes of a call does not
depend on whether the functions are traced, and the tracer is told that the
call begins and how it ended, and nothing else.
-/

namespace ScriptHost

open Trace

/-! ### Functions that only compute -/

variable {w v : World} {c : Callable}

/-- What comes of the action depends on the heap alone, and it changes nothing else. -/
def Action.Computes {α : Type} (a : Action α) (h : Heap) : Prop :=
  ∃ x h', ∀ handler w, w.heap = h → a.run handler w = some (x, { w with heap := h' })

/-- What comes of a call depends on the arguments and the heap alone, and it changes nothing but
the heap. -/
def Callable.Computes (c : Callable) : Prop :=
  ∀ args h, ∃ o h', ∀ handler w, w.heap = h →
    c.run handler args w = some (o, { w with heap := h' })

theorem Action.computes_done {α : Type} (x : α) (h : Heap) : (done x).Computes h := by
  refine ⟨x, h, fun handler w hw => ?_⟩
  subst hw
  rfl

theorem Action.computes_newArray (items : List Value) (h : Heap) :
    (newArray items).Computes h := by
  refine ⟨.array (h.alloc items).1, (h.alloc items).2, fun handler w hw => ?_⟩
  subst hw
  exact Action.run_newArray items w

theorem NativeType.computes_wrap (t : NativeType) (x : t.Carrier) (h : Heap) :
    (t.wrap x).Computes h := by
  cases t with
  | int | float | string | bool | bytes => exact Action.computes_done _ h
  | strings => exact Action.computes_newArray _ h

theorem ResultType.computes_wrap (t : ResultType) (x : t.Carrier) (h : Heap) :
    (t.wrap x).Computes h := by
  cases t with
  | native t => exact t.computes_wrap x h
  | ints => exact Action.computes_newArray _ h

theorem ReturnShape.computes_wrap (s : ReturnShape) (x : s.Carrier) (h : Heap) :
    (s.wrap x).Computes h := by
  cases s with
  | unit => exact Action.computes_done _ h
  | value t => exact t.computes_wrap x h
  | status =>
    cases x with
    | ok x => exact Action.computes_done _ h
    | error message => exact Action.computes_done _ h
  | fallible t =>
    cases x with
    | ok x => exact t.computes_wrap x h
    | error message => exact Action.computes_done _ h

theorem Signature.computes_lift (s : Signature) (f : Arguments s.params → s.returns.Carrier) :
    (s.lift f).Computes := by
  intro args h
  cases hjudge : s.judge h args with
  | error reason =>
    refine ⟨.error reason, h, fun handler w hw => ?_⟩
    subst hw
    rw [lift, run_adapt, hjudge]
  | ok xs =>
    obtain ⟨v, h', hwrap⟩ := s.returns.computes_wrap (f xs) h
    refine ⟨.ok v, h', fun handler w hw => ?_⟩
    have hw' := hwrap handler w hw
    subst hw
    rw [lift, run_adapt, hjudge]
    exact Action.run_bind_of_eq hw' _

/-- A call of a function that only computes comes to the same with and without a tracer. The tracer
is told that the call begins and how it ended, and no other tracer is told anything. -/
theorem Callable.Computes.exists_call (hc : c.Computes) (name : String) (args : List Value)
    (h : Heap) :
    ∃ o h', ∀ depth f tracer? v, v.heap = h → f.name = name →
      v.callable? f = some (c.tracedBy tracer? name) →
      ∃ v', World.call (depth + 1) f args v = some (o, v') ∧ v'.heap = h' ∧
        v'.functions = v.functions ∧
        ∀ id, v'.tracer? id = (v.tracer? id).map fun t =>
          if tracer? = some id then
            t.recordAll v.now [.call name args.length, .ofOutcome h' name o]
          else t := by
  obtain ⟨o, h', hrun⟩ := hc args h
  refine ⟨o, h', fun depth f tracer? v hv hname hf => ?_⟩
  rw [World.call_succ hf]
  cases tracer? with
  | none =>
    refine ⟨_, hrun (World.call depth) v hv, rfl, rfl, fun id => ?_⟩
    simp only [reduceCtorEq, if_false, Option.map_id']
    rfl
  | some tracer =>
    have hinner := hrun (World.call depth)
      (v.withTracer tracer (·.call v.now name args.length)) hv
    refine ⟨({ v.record tracer (.call name args.length) with heap := h' }).record tracer
      (.ofOutcome h' name o), ?_, rfl, rfl, fun id => ?_⟩
    · rw [World.withTracer_call] at hinner
      rw [Callable.tracedBy, Callable.run, World.withTracer_call, hinner]
      exact congrArg (fun v => some (o, v)) (World.withTracer_ended _ _ _ _ _)
    · have hheap : ({ v.record tracer (.call name args.length) with heap := h' }).tracer? id =
          (v.record tracer (.call name args.length)).tracer? id := rfl
      rw [World.tracer?_record, hheap, World.tracer?_record, Option.map_map]
      refine congrFun (congrArg Option.map (funext fun t => ?_)) _
      by_cases hid : tracer = id
      · simp only [hid, if_true, Function.comp_apply]
        rfl
      · simp [hid]

/-! ### Declared members -/

namespace Declaration

def name : Declaration → String
  | constant name _ | function name _ => name

/-- The step in which the declared member is added. -/
def step : Declaration → ModuleStep
  | constant name v => .constant name v
  | function name c => .function name c

/-- The declared member is a constant that is no builtin, or a function that only computes. -/
def Computes : Declaration → Prop
  | constant _ v => ∀ f, v ≠ .builtin f
  | function _ c => c.Computes

/-- What has become of a declaration in a module of a world. -/
inductive Became (tracer? : Option TracerId) (module : String) (w : World) :
    Declaration → Value → Prop where
  | constant (name : String) (v : Value) : Became tracer? module w (constant name v) v
  | function {f : Builtin} {name : String} {c : Callable}
      (hname : f.name = module ++ "." ++ name)
      (hf : w.callable? f = some (c.tracedBy tracer? f.name)) :
      Became tracer? module w (function name c) (.builtin f)

end Declaration

/-- The steps in which declared members are added to a module after its tracer was set. -/
def setUp (tracer? : Option TracerId) (ds : List Declaration) : List ModuleStep :=
  (tracer?.map ModuleStep.traced).toList ++ ds.map Declaration.step

variable {tracer? : Option TracerId} {module : String} {d : Declaration} {u : Value}
  {ds : List Declaration}

theorem Declaration.Became.mono (hd : d.Became tracer? module w u) (hw : w.Keeps v) :
    d.Became tracer? module v u := by
  cases hd with
  | constant name u => exact .constant name u
  | function hname hf => exact .function hname (hw _ _ hf)

namespace ModuleDraft

theorem declare_eq_performAll (d : ModuleDraft) (ds : List Declaration) (w : World) :
    d.declare ds w = d.performAll (ds.map Declaration.step) w := by
  induction ds generalizing d w with
  | nil => rfl
  | cons e ds ih =>
    cases e with
    | constant name v => exact ih _ _
    | function name c => exact ih _ _

theorem declare_empty (tracer? : Option TracerId) (module : String) (ds : List Declaration)
    (w : World) :
    { empty module with tracer := tracer? }.declare ds w =
      (empty module).performAll (setUp tracer? ds) w := by
  rw [declare_eq_performAll]
  cases tracer? with
  | none => rfl
  | some tracer => rfl

theorem addedNames_map_step (ds : List Declaration) :
    addedNames (ds.map Declaration.step) = ds.map Declaration.name := by
  have hstep (d : Declaration) : d.step.name? = some d.name := by
    cases d <;> rfl
  rw [addedNames, List.filterMap_map, ← List.filterMap_eq_map]
  exact List.filterMap_congr fun d _ => hstep d

theorem addedNames_setUp (tracer? : Option TracerId) (ds : List Declaration) :
    addedNames (setUp tracer? ds) = ds.map Declaration.name := by
  cases tracer? with
  | none | some tracer => exact addedNames_map_step ds

theorem lastTracer?_setUp (tracer? : Option TracerId) (ds : List Declaration) :
    lastTracer? (setUp tracer? ds) = tracer? := by
  have hnone : (ds.map Declaration.step).filterMap ModuleStep.tracer? = [] := by
    rw [List.filterMap_eq_nil_iff, List.forall_mem_map]
    intro d _
    cases d <;> rfl
  rw [lastTracer?, setUp, List.filterMap_append, hnone, List.append_nil]
  cases tracer? with
  | none => rfl
  | some tracer => rfl

theorem setUp_append_cons (tracer? : Option TracerId) (before : List Declaration)
    (d : Declaration) (after : List Declaration) :
    setUp tracer? (before ++ d :: after) =
      setUp tracer? before ++ d.step :: after.map Declaration.step := by
  rw [setUp, setUp, List.map_append, List.map_cons, List.append_assoc]

/-- If no name is declared twice, the module has what has become of each declaration. -/
theorem exists_became (tracer? : Option TracerId) (module : String) (w : World)
    (hds : (ds.map Declaration.name).Nodup) (hd : d ∈ ds) :
    ∃ u, ((empty module).performAll (setUp tracer? ds) w).1.build.get? d.name = some u ∧
      d.Became tracer? module ((empty module).performAll (setUp tracer? ds) w).2 u := by
  obtain ⟨before, after, rfl⟩ := List.append_of_mem hd
  have hlast : d.name ∉ addedNames (after.map Declaration.step) := by
    rw [List.map_append, List.map_cons, List.nodup_append, List.nodup_cons] at hds
    rw [addedNames_map_step]
    exact hds.2.1.1
  have hsplit := setUp_append_cons tracer? before d after
  cases d with
  | constant k u =>
    exact ⟨u, get?_build_performAll_eq_some_iff.2 (.constant hsplit hlast), .constant k u⟩
  | function k c =>
    refine ⟨_, get?_build_performAll_eq_some_iff.2 (.function hsplit hlast), .function rfl ?_⟩
    have hf := callable?_performAll_append module (setUp tracer? before) k c
      (after.map Declaration.step) w
    rwa [lastTracer?_setUp, ← Declaration.step, ← setUp_append_cons] at hf

end ModuleDraft

/-! ### Finished modules -/

/-- The module has a member for each declaration, and no others. -/
structure Represents (tracer? : Option TracerId) (module : String) (ds : List Declaration)
    (w : World) (m : Dict Value) : Prop where
  keys : ∀ k, k ∈ m.keys ↔ k ∈ ds.map Declaration.name
  member : ∀ d ∈ ds, ∃ u, m.get? d.name = some u ∧ d.Became tracer? module w u

theorem Represents.mono {m : Dict Value} (hm : Represents tracer? module ds w m)
    (hw : w.Keeps v) : Represents tracer? module ds v m where
  keys := hm.keys
  member d hd := by
    obtain ⟨u, hu, hbecame⟩ := hm.member d hd
    exact ⟨u, hu, hbecame.mono hw⟩

theorem Represents.exists_of_get? {m : Dict Value} {k : String}
    (hm : Represents tracer? module ds w m) (hu : m.get? k = some u) :
    ∃ d ∈ ds, d.name = k ∧ d.Became tracer? module w u := by
  have hk : k ∈ ds.map Declaration.name := (hm.keys k).1 (Dict.mem_keys_iff.2 ⟨u, hu⟩)
  obtain ⟨d, hd, rfl⟩ := List.mem_map.1 hk
  obtain ⟨u', hu', hbecame⟩ := hm.member d hd
  cases hu.symm.trans hu'
  exact ⟨d, hd, rfl, hbecame⟩

theorem represents_performAll (tracer? : Option TracerId) (module : String) (w : World)
    (hds : (ds.map Declaration.name).Nodup) :
    Represents tracer? module ds ((ModuleDraft.empty module).performAll (setUp tracer? ds) w).2
      ((ModuleDraft.empty module).performAll (setUp tracer? ds) w).1.build where
  keys k := by
    rw [← ModuleDraft.addedNames_setUp tracer? ds, ← ModuleDraft.members_performAll module _ w]
    exact Dict.mem_keys_ofList
  member d hd := ModuleDraft.exists_became tracer? module w hds hd

end ScriptHost
