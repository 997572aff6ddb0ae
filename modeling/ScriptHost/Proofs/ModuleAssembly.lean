import ScriptHost.Module
import ScriptHost.Proofs.Cycle
import ScriptHost.Proofs.LastBinding
import ScriptHost.Proofs.TracerFrame
/-!
# Modules as they were put together

A module is put together step by step, and what is found in it under a name is
what was put there last. A function is found as the builtin that was registered
for it, and its calls are recorded by the tracer that was set last before it.
What was put under a name earlier cannot be reached from the module.
-/

namespace ScriptHost

/-! ### Registered callables -/

namespace World

variable {w v u : World}

/-- What is registered in the world is registered in the other world, too. -/
def Keeps (w v : World) : Prop :=
  ∀ f c, w.callable? f = some c → v.callable? f = some c

/-- In the other world more may be registered, and nothing else is different. -/
def Registers (w v : World) : Prop :=
  ∃ cs : Array Callable, v = { w with functions := w.functions ++ cs }

theorem Keeps.trans (hwv : w.Keeps v) (hvu : v.Keeps u) : w.Keeps u :=
  fun f c hf => hvu f c (hwv f c hf)

theorem Registers.refl (w : World) : w.Registers w :=
  ⟨#[], by simp⟩

theorem registers_newBuiltin (w : World) (name : String) (c : Callable) :
    w.Registers (w.newBuiltin name c).2 :=
  ⟨#[c], by simp [newBuiltin, register]⟩

theorem Registers.trans (hwv : w.Registers v) (hvu : v.Registers u) : w.Registers u := by
  obtain ⟨cs, rfl⟩ := hwv
  obtain ⟨more, rfl⟩ := hvu
  exact ⟨cs ++ more, by simp⟩

theorem Registers.keeps (h : w.Registers v) : w.Keeps v := by
  obtain ⟨cs, rfl⟩ := h
  intro f c hf
  exact (Array.getElem?_append_left (Array.getElem?_eq_some_iff.1 hf).1).trans hf

end World

/-! ### Steps -/

/-- A step in which a module is put together. -/
inductive ModuleStep where
  /-- Trace the functions that are added from now on. -/
  | traced (tracer : TracerId)
  | constant (name : String) (v : Value)
  | function (name : String) (c : Callable)

namespace ModuleStep

/-- The name under which the step adds a member. -/
def name? : ModuleStep → Option String
  | traced _ => none
  | constant name _ | function name _ => some name

def tracer? : ModuleStep → Option TracerId
  | traced tracer => some tracer
  | _ => none

def isFunction : ModuleStep → Bool
  | function .. => true
  | _ => false

end ModuleStep

/-- The names under which the steps add members. -/
def addedNames (steps : List ModuleStep) : List String :=
  steps.filterMap ModuleStep.name?

/-- The tracer that was set last. -/
def lastTracer? (steps : List ModuleStep) : Option TracerId :=
  (steps.filterMap ModuleStep.tracer?).getLast?

namespace ModuleDraft

def perform (d : ModuleDraft) : ModuleStep → World → ModuleDraft × World
  | .traced tracer, w => (d.traced tracer, w)
  | .constant name v, w => (d.constant name v, w)
  | .function name c, w => d.function name c w

def performAll (d : ModuleDraft) : List ModuleStep → World → ModuleDraft × World
  | [], w => (d, w)
  | s :: steps, w =>
    let (d, w) := d.perform s w
    d.performAll steps w

/-- The builtin that a function becomes if it is added next. -/
def nextBuiltin (d : ModuleDraft) (name : String) (w : World) : Builtin :=
  ⟨d.qualify name, ⟨w.functions.size⟩⟩

variable {d d₁ d' : ModuleDraft} {w w₁ w' : World} {before after steps : List ModuleStep}
  {name k : String} {c : Callable} {u v : Value}

theorem performAll_append (d : ModuleDraft) (before after : List ModuleStep) (w : World) :
    d.performAll (before ++ after) w =
      (d.performAll before w).1.performAll after (d.performAll before w).2 := by
  induction before generalizing d w with
  | nil => rfl
  | cons s before ih => exact ih (d.perform s w).1 (d.perform s w).2

theorem function_eq (d : ModuleDraft) (name : String) (c : Callable) (w : World) :
    d.function name c w =
      (d.constant name (.builtin (d.nextBuiltin name w)),
        { w with functions := w.functions.push (c.tracedBy d.tracer (d.qualify name)) }) := by
  obtain ⟨title, members, tracer?⟩ := d
  cases tracer? with
  | none => rfl
  | some tracer => rfl

theorem callable?_function (d : ModuleDraft) (name : String) (c : Callable) (w : World) :
    (d.function name c w).2.callable? (d.nextBuiltin name w) =
      some (c.tracedBy d.tracer (d.nextBuiltin name w).name) := by
  rw [function_eq]
  exact Array.getElem?_push_size

/-! ### What steps lead to -/

/-- From a draft in a world the steps lead to another draft in another world. -/
structure Leads (d : ModuleDraft) (w : World) (steps : List ModuleStep) (d' : ModuleDraft)
    (w' : World) : Prop where
  name : d'.name = d.name
  tracer : d'.tracer = (lastTracer? steps).or d.tracer
  registers : w.Registers w'
  size : w'.functions.size = w.functions.size + steps.countP ModuleStep.isFunction
  members : ∃ made, d'.members = d.members ++ made ∧ made.map Prod.fst = addedNames steps

theorem leads_nil (d : ModuleDraft) (w : World) : d.Leads w [] d w where
  name := rfl
  tracer := rfl
  registers := .refl w
  size := rfl
  members := ⟨[], by simp [addedNames]⟩

theorem leads_perform (d : ModuleDraft) (s : ModuleStep) (w : World) :
    d.Leads w [s] (d.perform s w).1 (d.perform s w).2 := by
  cases s with
  | traced tracer =>
    exact ⟨rfl, rfl, .refl w, rfl, [], (List.append_nil _).symm, rfl⟩
  | constant name v => exact ⟨rfl, rfl, .refl w, rfl, [(name, v)], rfl, rfl⟩
  | function name c =>
    rw [perform, function_eq]
    exact ⟨rfl, rfl, w.registers_newBuiltin (d.qualify name) _,
      by simp [ModuleStep.isFunction], [(name, .builtin (d.nextBuiltin name w))], rfl, rfl⟩

theorem Leads.append (hbefore : d.Leads w before d₁ w₁) (hafter : d₁.Leads w₁ after d' w') :
    d.Leads w (before ++ after) d' w' where
  name := hafter.name.trans hbefore.name
  tracer := by
    rw [hafter.tracer, hbefore.tracer, lastTracer?, lastTracer?, lastTracer?,
      List.filterMap_append, List.getLast?_append, Option.or_assoc]
  registers := hbefore.registers.trans hafter.registers
  size := by
    rw [hafter.size, hbefore.size, List.countP_append, Nat.add_assoc]
  members := by
    obtain ⟨made, hmade, hnames⟩ := hbefore.members
    obtain ⟨more, hmore, hnames'⟩ := hafter.members
    refine ⟨made ++ more, ?_, ?_⟩
    · rw [hmore, hmade, List.append_assoc]
    · rw [List.map_append, hnames, hnames', addedNames, addedNames, addedNames,
        List.filterMap_append]

theorem leads_performAll (d : ModuleDraft) (steps : List ModuleStep) (w : World) :
    d.Leads w steps (d.performAll steps w).1 (d.performAll steps w).2 := by
  induction steps generalizing d w with
  | nil => exact leads_nil d w
  | cons s steps ih => exact (leads_perform d s w).append (ih _ _)

/-! ### The members of a finished module -/

/-- The builtin that a function becomes if it is added after the steps. -/
def builtinAfter (name : String) (w : World) (steps : List ModuleStep) (k : String) : Builtin :=
  ⟨name ++ "." ++ k, ⟨w.functions.size + steps.countP ModuleStep.isFunction⟩⟩

/-- The last step that adds a member under the name adds this value. -/
inductive Kept (name : String) (w : World) (steps : List ModuleStep) (k : String) : Value → Prop
  | constant {before after : List ModuleStep} {v : Value}
      (hsteps : steps = before ++ .constant k v :: after) (hk : k ∉ addedNames after) :
      Kept name w steps k v
  | function {before after : List ModuleStep} {c : Callable}
      (hsteps : steps = before ++ .function k c :: after) (hk : k ∉ addedNames after) :
      Kept name w steps k (.builtin (builtinAfter name w before k))

theorem nextBuiltin_performAll (name : String) (steps : List ModuleStep) (k : String)
    (w : World) :
    ((empty name).performAll steps w).1.nextBuiltin k ((empty name).performAll steps w).2 =
      builtinAfter name w steps k := by
  have h := leads_performAll (empty name) steps w
  rw [nextBuiltin, qualify, h.name, h.size]
  rfl

theorem exists_last_step (hk : k ∈ addedNames steps) :
    ∃ before s after, steps = before ++ s :: after ∧ s.name? = some k ∧ k ∉ addedNames after := by
  induction steps with
  | nil => cases hk
  | cons s steps ih =>
    by_cases hlater : k ∈ addedNames steps
    · obtain ⟨before, s', after, rfl, hs', hafter⟩ := ih hlater
      exact ⟨s :: before, s', after, rfl, hs', hafter⟩
    · obtain ⟨s', hs', hname⟩ := List.mem_filterMap.1 hk
      obtain rfl | hs' := List.mem_cons.1 hs'
      · exact ⟨[], s', steps, rfl, hname, hlater⟩
      · exact absurd (List.mem_filterMap.2 ⟨s', hs', hname⟩) hlater

theorem exists_kept (name : String) (w : World) (hk : k ∈ addedNames steps) :
    ∃ v, Kept name w steps k v := by
  obtain ⟨before, s, after, hsteps, hs, hafter⟩ := exists_last_step hk
  cases s with
  | traced tracer => cases hs
  | constant k' v =>
    cases hs
    exact ⟨v, .constant hsteps hafter⟩
  | function k' c =>
    cases hs
    exact ⟨_, .function hsteps hafter⟩

theorem members_performAll (name : String) (steps : List ModuleStep) (w : World) :
    ((empty name).performAll steps w).1.members.map Prod.fst = addedNames steps := by
  obtain ⟨made, hmade, hnames⟩ := (leads_performAll (empty name) steps w).members
  rw [hmade, List.map_append, hnames]
  rfl

/-- What a step adds is bound last, if no later step adds a member under its name. -/
theorem lastBinding_performAll {s : ModuleStep}
    (hs : (((empty name).performAll before w).1.perform s
        ((empty name).performAll before w).2).1.members =
      ((empty name).performAll before w).1.members ++ [(k, v)])
    (hk : k ∉ addedNames after) :
    Dict.LastBinding ((empty name).performAll (before ++ s :: after) w).1.members k v := by
  rw [performAll_append, performAll]
  obtain ⟨made, hmade, hnames⟩ := (leads_performAll
    (((empty name).performAll before w).1.perform s ((empty name).performAll before w).2).1 after
    (((empty name).performAll before w).1.perform s ((empty name).performAll before w).2).2).members
  refine ⟨((empty name).performAll before w).1.members, made, ?_, ?_⟩
  · rw [hmade, hs, List.append_assoc, List.singleton_append]
  · rwa [hnames]

theorem Kept.lastBinding (h : Kept name w steps k v) :
    Dict.LastBinding ((empty name).performAll steps w).1.members k v := by
  cases h with
  | constant hsteps hk =>
    subst hsteps
    exact lastBinding_performAll rfl hk
  | function hsteps hk =>
    subst hsteps
    refine lastBinding_performAll ?_ hk
    rw [perform, function_eq, nextBuiltin_performAll]
    rfl

theorem get?_build_performAll_eq_some_iff :
    ((empty name).performAll steps w).1.build.get? k = some v ↔ Kept name w steps k v := by
  rw [build, Dict.get?_ofList_eq_some_iff]
  constructor
  · intro h
    have hk : k ∈ addedNames steps := members_performAll name steps w ▸ h.mem_keys
    obtain ⟨v', hv'⟩ := exists_kept name w hk
    rwa [h.unique hv'.lastBinding]
  · exact Kept.lastBinding

theorem callable?_performAll_append (name : String) (before : List ModuleStep) (k : String)
    (c : Callable) (after : List ModuleStep) (w : World) :
    ((empty name).performAll (before ++ .function k c :: after) w).2.callable?
        (builtinAfter name w before k) =
      some (c.tracedBy (lastTracer? before) (builtinAfter name w before k).name) := by
  have hbefore := leads_performAll (empty name) before w
  have htracer : ((empty name).performAll before w).1.tracer = lastTracer? before :=
    hbefore.tracer.trans Option.or_none
  rw [performAll_append, ← nextBuiltin_performAll, ← htracer]
  exact (leads_performAll _ after _).registers.keeps _ _ (callable?_function _ k c _)

/-- No two functions become builtins with one number. -/
theorem eq_of_builtinAfter_eq {before' after' : List ModuleStep} {k' : String} {c' : Callable}
    (hsteps : before ++ .function k c :: after = before' ++ .function k' c' :: after')
    (hf : builtinAfter name w before k = builtinAfter name w before' k') :
    k = k' ∧ after = after' := by
  have hcount : before.countP ModuleStep.isFunction = before'.countP ModuleStep.isFunction := by
    simpa [builtinAfter] using congrArg (·.function.index) hf
  -- Of two different places the later one has one function more before it.
  obtain ⟨l, rfl, hl⟩ | ⟨l, rfl, hl⟩ := List.append_eq_append_iff.1 hsteps
  · cases l with
    | nil =>
      cases hl
      exact ⟨rfl, rfl⟩
    | cons s l =>
      obtain ⟨rfl, -⟩ := List.cons.inj hl
      simp [ModuleStep.isFunction] at hcount
  · cases l with
    | nil =>
      cases hl
      exact ⟨rfl, rfl⟩
    | cons s l =>
      obtain ⟨rfl, -⟩ := List.cons.inj hl
      simp [ModuleStep.isFunction] at hcount

/-- Of a module that is put together from nothing, a member is what the last step for its name has
added. A function is found as a new builtin, which forwards calls to it and records them as it was
set up before it was added. A function that was replaced is out of reach. -/
theorem build_keeps_last_steps (name : String) (steps : List ModuleStep) (w : World) :
    let m := ((empty name).performAll steps w).1.build
    let w' := ((empty name).performAll steps w).2
    (∀ k, k ∈ m.keys ↔ k ∈ addedNames steps) ∧
    (∀ k v, m.get? k = some v ↔ Kept name w steps k v) ∧
    (∀ before k c after, steps = before ++ .function k c :: after →
      let f := builtinAfter name w before k
      w.callable? f = none ∧ (w'.callable? f).map Callable.arity = some c.arity ∧
      (∀ v, v.callable? f = w'.callable? f → f.Forwards c (lastTracer? before) v) ∧
      (k ∈ addedNames after → ∀ h : Heap,
        (∀ k' v, .constant k' v ∈ steps → ¬ h.Reaches v (.builtin f)) →
          ¬ h.Reaches (.map m) (.builtin f))) ∧
    ∀ (h : Heap) u, h.Reaches (.map m) u ↔
      .map m = u ∨ ∃ k v, Kept name w steps k v ∧ h.Reaches v u := by
  intro m w'
  have hreaches (h : Heap) (u : Value) : h.Reaches (.map m) u ↔
      .map m = u ∨ ∃ k v, Kept name w steps k v ∧ h.Reaches v u := by
    rw [Heap.reaches_map_iff]
    simp only [← get?_build_performAll_eq_some_iff, Dict.get?_eq_some_iff, Prod.exists]
    rfl
  refine ⟨fun k => ?_, fun k v => get?_build_performAll_eq_some_iff, ?_, hreaches⟩
  · rw [← members_performAll name steps w]
    exact Dict.mem_keys_ofList
  · intro before k c after hsteps f
    subst hsteps
    have hf : w'.callable? f = some (c.tracedBy (lastTracer? before) f.name) :=
      callable?_performAll_append name before k c after w
    refine ⟨?_, ?_, fun v hv => ?_, fun hk h hconstants hreach => ?_⟩
    · exact Array.getElem?_eq_none (Nat.le_add_right _ _)
    · rw [hf, Option.map_some, Callable.arity_tracedBy]
    · exact Builtin.forwards_of_callable? (hv.trans hf)
    · obtain heq | ⟨k', v, hkept, hv⟩ := (hreaches h _).1 hreach
      · cases heq
      · cases hkept with
        | constant hsteps hk' =>
          exact hconstants k' v (by simp [hsteps]) hv
        | function hsteps hk' =>
          have hf' := Heap.reaches_atom_iff.1 hv
          simp only [Value.atom.injEq, Atom.builtin.injEq] at hf'
          obtain ⟨rfl, rfl⟩ := eq_of_builtinAfter_eq hsteps hf'.symm
          exact hk' hk

end ModuleDraft

end ScriptHost
