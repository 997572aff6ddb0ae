import ScriptHost.Library.Basic
import ScriptHost.Proofs.DeclaredModules
import ScriptHost.Proofs.Noninterference
import ScriptHost.Proofs.TextFunctions
/-!
# What the settings of a library decide

The settings of a library decide which modules it has and whether calls of
their functions are recorded. Whatever two libraries have in common they do
alike. A library that was made without tracing never records a call, whatever
is done with its tracer later.
-/

namespace ScriptHost

open Trace

/-! ### Sessions in which nothing is recorded -/

variable {w w' v : World}

/-- The operation tells the tracer of an event. -/
def Trace.Operation.isEvent : Operation → Bool
  | .record _ | .call .. | .returned .. | .rejected .. => true
  | .enable | .disable | .redirect _ | .clear => false

/-- In all worlds after the given one, calls of the builtin tell no tracer of anything. -/
def Builtin.Silent (f : Builtin) (w : World) : Prop :=
  ∀ depth args v o v', w.Keeps v → World.call depth f args v = some (o, v') →
    w.Keeps v' ∧ ∀ id, v'.tracer? id = v.tracer? id

/-- Of the callables there are, the command calls only such builtins. -/
def Command.Calls (P : Builtin → Prop) : Command → Prop
  | .call f _ => P f
  | .run .. => False
  | _ => True

/-- The session calls only such builtins, and does not itself tell the tracer of events. -/
def Session.Uses (P : Builtin → Prop) (tracer : TracerId) : Session → Prop
  | .done => True
  | .command c next => c.Calls P ∧ ∀ a, (next a).Uses P tracer
  | .addTracer _ next => next.Uses P tracer
  | .operate id op next => (id = tracer → op.isEvent = false) ∧ next.Uses P tracer
  | .wait _ next => next.Uses P tracer

theorem Trace.Tracer.ring_perform {op : Operation} (hop : op.isEvent = false) (t : Tracer)
    (timestamp : Nat) :
    (t.perform timestamp op).ring = t.ring ∨ (t.perform timestamp op).ring = t.ring.clear := by
  cases op with
  | enable | disable | redirect destination => exact .inl rfl
  | clear => exact .inr rfl
  | record event => cases hop
  | call function argCount => cases hop
  | returned h function v => cases hop
  | rejected function reason => cases hop

theorem World.Registers.tracer?_eq (h : w.Registers v) (id : TracerId) :
    v.tracer? id = w.tracer? id := by
  obtain ⟨cs, rfl⟩ := h
  rfl

theorem Command.keeps_perform {P : Builtin → Prop} (hP : ∀ f, P f → f.Silent w) {depth : Nat}
    {a : Answer} {c : Command} (hc : c.Calls P) (hv : w.Keeps v)
    (hperform : c.perform depth v = some (a, w')) :
    w.Keeps w' ∧ ∀ id, w'.tracer? id = v.tracer? id := by
  cases c with
  | request q =>
    obtain ⟨p, -, hp⟩ := Option.map_eq_some_iff.1 hperform
    cases hp
    exact ⟨hv, fun id => rfl⟩
  | register name c =>
    cases hperform
    have hregisters := v.registers_newBuiltin name c
    exact ⟨hv.trans hregisters.keeps, hregisters.tracer?_eq⟩
  | assemble d members =>
    cases hperform
    have hregisters : v.Registers (d.declare members v).2 := by
      rw [d.declare_eq_performAll]
      exact (d.leads_performAll _ v).registers
    exact ⟨hv.trans hregisters.keeps, hregisters.tracer?_eq⟩
  | call f args =>
    obtain ⟨p, hcall, hp⟩ := Option.map_eq_some_iff.1 hperform
    cases hp
    exact hP f hc depth args v p.1 p.2 hv hcall
  | run c args => exact hc.elim
  | arity c | arityOf f =>
    cases hperform
    exact ⟨hv, fun id => rfl⟩

/-- What the tracer holds at the end it held at the start, unless it was cleared. -/
theorem Session.ring_run {P : Builtin → Prop} (hP : ∀ f, P f → f.Silent w) {depth : Nat}
    {s : Session} {tracer : TracerId} {answers : List (Answer × Heap)} {t : Tracer}
    (hs : s.Uses P tracer) (hv : w.Keeps v) (hrun : s.run depth v = some (answers, w'))
    (ht : v.tracer? tracer = some t) :
    ∃ t', w'.tracer? tracer = some t' ∧ (t'.ring = t.ring ∨ t'.ring = t.ring.clear) := by
  induction s generalizing v answers t with
  | done =>
    cases hrun
    exact ⟨t, ht, .inl rfl⟩
  | command c next ih =>
    obtain ⟨hc, hnext⟩ := hs
    rw [run] at hrun
    split at hrun
    · next a v₁ hperform =>
      obtain ⟨p, hrest, hp⟩ := Option.map_eq_some_iff.1 hrun
      cases hp
      obtain ⟨hv₁, htracers⟩ := c.keeps_perform hP hc hv hperform
      exact ih a (hnext a) hv₁ hrest ((htracers tracer).trans ht)
    · cases hrun
  | addTracer settings next ih =>
    rw [run] at hrun
    have hlt : tracer.index < v.tracers.size := (Array.getElem?_eq_some_iff.1 ht).1
    have hpush : (v.addTracer (.ofSettings settings)).2.tracer? tracer = v.tracer? tracer :=
      (Array.getElem?_push_lt hlt).trans (Array.getElem?_eq_getElem hlt).symm
    have hkeeps : w.Keeps (v.addTracer (.ofSettings settings)).2 := hv
    exact ih hs hkeeps hrun (hpush.trans ht)
  | operate id op next ih =>
    rw [run] at hrun
    obtain ⟨hop, hnext⟩ := hs
    have ht₁ := v.tracer?_modifyTracer tracer id fun t => t.perform v.now op
    rw [ht, Option.map_some] at ht₁
    have hkeeps : w.Keeps (v.modifyTracer id fun t => t.perform v.now op) := hv
    obtain ⟨t', ht', hring⟩ := ih hnext hkeeps hrun ht₁
    refine ⟨t', ht', ?_⟩
    split at hring
    · next hid =>
      -- A ring that was cleared stays as it is if it is cleared again.
      obtain hop | hop := t.ring_perform (hop hid) v.now
      · rwa [hop] at hring
      · rw [hop] at hring
        exact .inr ((or_self_iff).1 hring)
    · exact hring
  | wait nanoseconds next ih =>
    rw [run] at hrun
    have hkeeps : w.Keeps { v with now := v.now + nanoseconds } := hv
    exact ih hs hkeeps hrun ht

/-! ### Libraries -/

variable {tracer? : Option TracerId} {module : String} {d : Declaration} {u : Value}

namespace Library

theorem nodup_names_packages : (packages.map Prod.fst).Nodup := by
  decide

theorem nodup_names_declared : ∀ p ∈ packages, (p.2.map Declaration.name).Nodup := by
  simp [packages, MathModule.members, TextModule.members, Declaration.name]

theorem computes_repetition : TextModule.repetition.Computes := by
  intro args h
  simp only [TextModule.run_repetition]
  exact Signature.computes_lift _ _ args h

theorem computes_packages : ∀ p ∈ packages, ∀ d ∈ p.2, d.Computes := by
  simp only [packages, MathModule.members, TextModule.members, List.forall_mem_cons]
  and_intros
  all_goals first
    | exact Signature.computes_lift _ _
    | exact computes_repetition
    | rintro _ ⟨⟩

/-- The modules are built one after the other, and what was built first is kept. -/
theorem represents_buildAll {ps : List (String × List Declaration)}
    (hps : ∀ p ∈ ps, (p.2.map Declaration.name).Nodup) (tracer? : Option TracerId) (w : World) :
    w.Registers (buildAll tracer? ps w).2 ∧
      (buildAll tracer? ps w).1.map Prod.fst = ps.map Prod.fst ∧
      ∀ e ∈ (buildAll tracer? ps w).1, ∃ ds m, (e.1, ds) ∈ ps ∧ e.2 = .map m ∧
        Represents tracer? e.1 ds (buildAll tracer? ps w).2 m := by
  induction ps generalizing w with
  | nil => exact ⟨.refl w, rfl, nofun⟩
  | cons p ps ih =>
    obtain ⟨name, ds⟩ := p
    rw [List.forall_mem_cons] at hps
    have hfirst := represents_performAll tracer? name w hps.1
    have hregisters := (ModuleDraft.leads_performAll (.empty name) (setUp tracer? ds) w).registers
    simp only [buildAll, ModuleDraft.declare_empty]
    obtain ⟨hrest, hnames, hentries⟩ :=
      ih hps.2 ((ModuleDraft.empty name).performAll (setUp tracer? ds) w).2
    refine ⟨hregisters.trans hrest, congrArg (name :: ·) hnames, fun e he => ?_⟩
    obtain rfl | he := List.mem_cons.1 he
    · exact ⟨ds, _, List.mem_cons_self, rfl, hfirst.mono hrest.keeps⟩
    · obtain ⟨ds', m, hds', hm, hrepresents⟩ := hentries e he
      exact ⟨ds', m, List.mem_cons_of_mem _ hds', hm, hrepresents⟩

/-- The tracer that the functions of a library are made with. -/
def functionTracer? (s : Settings) (l : Library) : Option TracerId :=
  if s.trace.enabled then some l.tracer else none

variable {s s₂ : Settings} {w₂ : World} {name : String} {m m₂ : Dict Value}

theorem represents_ofSettings (s : Settings) (w : World) :
    (w.addTracer (.ofSettings s.trace)).2.Registers (ofSettings s w).2 ∧
      ∃ entries, (ofSettings s w).1.modules = .ofList entries ∧
        entries.map Prod.fst = (packages.filter fun p => s.includes p.1).map Prod.fst ∧
        ∀ e ∈ entries, ∃ ds m, (e.1, ds) ∈ packages ∧ e.2 = .map m ∧
          Represents (functionTracer? s (ofSettings s w).1) e.1 ds (ofSettings s w).2 m := by
  obtain ⟨hregisters, hnames, hentries⟩ := represents_buildAll
    (fun p hp => nodup_names_declared p (List.mem_of_mem_filter hp))
    (functionTracer? s (ofSettings s w).1) (w.addTracer (.ofSettings s.trace)).2
  refine ⟨hregisters, _, rfl, hnames, fun e he => ?_⟩
  obtain ⟨ds, m, hds, hm, hrepresents⟩ := hentries e he
  exact ⟨ds, m, List.mem_of_mem_filter hds, hm, hrepresents⟩

theorem mem_moduleNames_ofSettings_iff :
    name ∈ (ofSettings s w).1.moduleNames ↔
      name ∈ packages.map Prod.fst ∧ ∀ allowed, s.modules = some allowed → name ∈ allowed := by
  obtain ⟨-, entries, hmodules, hnames, -⟩ := represents_ofSettings s w
  have hincludes :
      s.includes name = true ↔ ∀ allowed, s.modules = some allowed → name ∈ allowed := by
    unfold Settings.includes
    cases s.modules with
    | none => simp
    | some allowed => simp
  rw [moduleNames, hmodules, Dict.mem_keys_ofList, hnames, ← hincludes]
  simp only [List.mem_map, List.mem_filter]
  constructor
  · rintro ⟨p, ⟨hp, hs⟩, rfl⟩
    exact ⟨⟨p, hp, rfl⟩, hs⟩
  · rintro ⟨⟨p, hp, rfl⟩, hs⟩
    exact ⟨p, ⟨hp, hs⟩, rfl⟩

theorem exists_represents (h : (ofSettings s w).1.modules.get? name = some u) :
    ∃ ds m, (name, ds) ∈ packages ∧ u = .map m ∧
      Represents (functionTracer? s (ofSettings s w).1) name ds (ofSettings s w).2 m := by
  obtain ⟨-, entries, hmodules, -, hentries⟩ := represents_ofSettings s w
  rw [hmodules, Dict.get?_ofList_eq_some_iff] at h
  obtain ⟨before, behind, rfl, -⟩ := h
  exact hentries (name, u) (by simp)

theorem map_module?_ofSettings (s : Settings) (w : World) (name : String) :
    ((ofSettings s w).1.module? name).map Value.map = (ofSettings s w).1.modules.get? name := by
  rw [module?]
  cases h : (ofSettings s w).1.modules.get? name with
  | none => rfl
  | some u =>
    obtain ⟨ds, m, -, rfl, -⟩ := exists_represents h
    rfl

theorem represents_of_module? (h : (ofSettings s w).1.module? name = some m) :
    ∃ ds, (name, ds) ∈ packages ∧
      Represents (functionTracer? s (ofSettings s w).1) name ds (ofSettings s w).2 m := by
  have hget := map_module?_ofSettings s w name
  rw [h, Option.map_some] at hget
  obtain ⟨ds, m', hds, hm, hrepresents⟩ := exists_represents hget.symm
  cases hm
  exact ⟨ds, hds, hrepresents⟩

theorem tracer?_ofSettings (s : Settings) (w : World) :
    (ofSettings s w).2.tracer? (ofSettings s w).1.tracer = some (.ofSettings s.trace) := by
  obtain ⟨cs, hcs⟩ := (represents_ofSettings s w).1
  rw [hcs]
  exact Array.getElem?_push_size

/-- For scripts the two values are the same member of a module, each in worlds that come after one
that is given. -/
inductive SameMember (name : String) (w w₂ : World) : Value → Value → Prop where
  | constant {u : Value} (hu : ∀ f, u ≠ .builtin f) : SameMember name w w₂ u u
  | function {f f₂ : Builtin} {arity : Arity} (hname : f.name = name) (hname₂ : f₂.name = name)
      (harity : (w.callable? f).map Callable.arity = some arity)
      (harity₂ : (w₂.callable? f₂).map Callable.arity = some arity)
      (hcalls : ∀ v v₂, w.Keeps v → w₂.Keeps v₂ → v.heap = v₂.heap → ∀ depth args,
        ∃ o v' v₂', World.call (depth + 1) f args v = some (o, v') ∧
          World.call (depth + 1) f₂ args v₂ = some (o, v₂') ∧ v'.heap = v₂'.heap) :
      SameMember name w w₂ (.builtin f) (.builtin f₂)

theorem sameMember_of_became {tracer? tracer₂? : Option TracerId} {u₂ : Value}
    (hd : d.Computes) (hu : d.Became tracer? module w u) (hu₂ : d.Became tracer₂? module w₂ u₂) :
    SameMember (module ++ "." ++ d.name) w w₂ u u₂ := by
  cases hu with
  | constant k u =>
    cases hu₂
    exact .constant hd
  | @function f k c hname hf =>
    cases hu₂ with
    | @function f₂ _ _ hname₂ hf₂ =>
      rw [hname] at hf
      rw [hname₂] at hf₂
      have harity : (w.callable? f).map Callable.arity = some c.arity := by
        rw [hf, Option.map_some, Callable.arity_tracedBy]
      have harity₂ : (w₂.callable? f₂).map Callable.arity = some c.arity := by
        rw [hf₂, Option.map_some, Callable.arity_tracedBy]
      refine .function hname hname₂ harity harity₂ fun v v₂ hv hv₂ hheap depth args => ?_
      obtain ⟨o, h', hcall⟩ := Callable.Computes.exists_call hd (module ++ "." ++ k) args v.heap
      obtain ⟨v', hv', hh, -⟩ := hcall depth f tracer? v rfl hname (hv _ _ hf)
      obtain ⟨v₂', hv₂', hh₂, -⟩ := hcall depth f₂ tracer₂? v₂ hheap.symm hname₂ (hv₂ _ _ hf₂)
      exact ⟨o, v', v₂', hv', hv₂', hh.trans hh₂.symm⟩

/-- What two libraries have in common is the same for scripts. -/
theorem sameMember_of_module? (hm : (ofSettings s w).1.module? name = some m)
    (hm₂ : (ofSettings s₂ w₂).1.module? name = some m₂) :
    m.keys = m₂.keys ∧ ∀ k u, m.get? k = some u → ∃ u₂, m₂.get? k = some u₂ ∧
      SameMember (name ++ "." ++ k) (ofSettings s w).2 (ofSettings s₂ w₂).2 u u₂ := by
  obtain ⟨ds, hds, hrepresents⟩ := represents_of_module? hm
  obtain ⟨ds₂, hds₂, hrepresents₂⟩ := represents_of_module? hm₂
  cases List.inj_on_of_nodup_map nodup_names_packages hds hds₂ rfl
  refine ⟨Dict.keys_eq_iff.2 fun k => ?_, fun k u hu => ?_⟩
  · rw [hrepresents.keys, hrepresents₂.keys]
  · obtain ⟨d, hd, rfl, hbecame⟩ := hrepresents.exists_of_get? hu
    obtain ⟨u₂, hu₂, hbecame₂⟩ := hrepresents₂.member d hd
    exact ⟨u₂, hu₂, sameMember_of_became (computes_packages _ hds d hd) hbecame hbecame₂⟩

/-- The member of a module. -/
def member? (l : Library) (module name : String) : Option Value :=
  (l.module? module).bind (·.get? name)

/-- The builtin is a member of a module. -/
def HasFunction (l : Library) (f : Builtin) : Prop :=
  ∃ module name, l.member? module name = some (.builtin f)

/-- A function of a library is traced by the tracer of the library, or not at all. -/
theorem exists_function {k : String} {f : Builtin}
    (hf : (ofSettings s w).1.member? name k = some (.builtin f)) :
    f.name = name ++ "." ++ k ∧ ∃ c : Callable, c.Computes ∧ (ofSettings s w).2.callable? f =
      some (c.tracedBy (functionTracer? s (ofSettings s w).1) f.name) := by
  obtain ⟨m, hm, hk⟩ := Option.bind_eq_some_iff.1 hf
  obtain ⟨ds, hds, hrepresents⟩ := represents_of_module? hm
  obtain ⟨d, hd, rfl, hbecame⟩ := hrepresents.exists_of_get? hk
  have hcomputes := computes_packages _ hds d hd
  generalize hvalue : Value.builtin f = u at hbecame
  cases hbecame with
  | constant k u => exact absurd hvalue.symm (hcomputes f)
  | @function f' k c hname hf' =>
    cases hvalue
    exact ⟨hname, c, hcomputes, hf'⟩

/-- The functions of a library that was made with its tracer switched on tell the tracer of every
call, and no other tracer. -/
theorem exists_call_of_enabled (hs : s.trace.enabled = true) {k : String} {f : Builtin}
    (hf : (ofSettings s w).1.member? name k = some (.builtin f))
    (hv : (ofSettings s w).2.Keeps v) (depth : Nat) (args : List Value) :
    ∃ o v' e, World.call (depth + 1) f args v = some (o, v') ∧
      Reports v'.heap (name ++ "." ++ k) o e ∧
      (∀ id, v'.tracer? id = (v.tracer? id).map fun t =>
        if (ofSettings s w).1.tracer = id then
          t.recordAll v.now [.call (name ++ "." ++ k) args.length, e]
        else t) ∧
      ∀ t, v.tracer? (ofSettings s w).1.tracer = some t →
        ∃ t', v'.tracer? (ofSettings s w).1.tracer = some t' ∧
          t.Appended v.now [.call (name ++ "." ++ k) args.length, e] t' := by
  obtain ⟨hname, c, hc, hcallable⟩ := exists_function hf
  rw [functionTracer?, if_pos hs, hname] at hcallable
  obtain ⟨o, h', hcall⟩ := hc.exists_call (name ++ "." ++ k) args v.heap
  obtain ⟨v', hv', rfl, -, htracers⟩ := hcall depth f _ v rfl hname (hv _ _ hcallable)
  refine ⟨o, v', _, hv', reports_ofOutcome _ _ _, fun id => ?_, fun t ht => ?_⟩
  · rw [htracers]
    simp only [Option.some.injEq]
  · refine ⟨_, ?_, t.appended_recordAll v.now _⟩
    rw [htracers, ht, Option.map_some, if_pos rfl]

/-- The functions of a library that was made with its tracer switched off tell no tracer. -/
theorem silent_of_not_enabled (hs : s.trace.enabled = false) {f : Builtin}
    (hf : (ofSettings s w).1.HasFunction f) : f.Silent (ofSettings s w).2 := by
  obtain ⟨name, k, hf⟩ := hf
  obtain ⟨hname, c, hc, hcallable⟩ := exists_function hf
  rw [functionTracer?, if_neg (Bool.eq_false_iff.1 hs), hname] at hcallable
  intro depth args v o v' hv hcall
  cases depth with
  | zero => cases hcall
  | succ depth =>
    obtain ⟨o₁, h', hruns⟩ := hc.exists_call (name ++ "." ++ k) args v.heap
    obtain ⟨v₁, hv₁, -, hfunctions, htracers⟩ := hruns depth f _ v rfl hname (hv _ _ hcallable)
    cases hcall.symm.trans hv₁
    refine ⟨fun g c' hg => ?_, fun id => ?_⟩
    · rw [World.callable?, hfunctions]
      exact hv g c' hg
    · simpa using htracers id

/-- The library has followed the settings in a world. -/
structure Follows (l : Library) (s : Settings) (w : World) : Prop where
  names_increase : l.moduleNames.Pairwise (· < ·)
  mem_names : ∀ name, name ∈ l.moduleNames ↔
    name ∈ packages.map Prod.fst ∧ ∀ allowed, s.modules = some allowed → name ∈ allowed
  module_iff : ∀ name, (l.module? name).isSome = true ↔ name ∈ l.moduleNames
  module_eq : ∀ name, (l.module? name).map Value.map = l.modules.get? name
  /-- Other settings give the same members to a module, if they give it at all. -/
  same_members : ∀ s₂ w₂ name m m₂, l.module? name = some m →
    (ofSettings s₂ w₂).1.module? name = some m₂ →
    m.keys = m₂.keys ∧ ∀ k u, m.get? k = some u → ∃ u₂, m₂.get? k = some u₂ ∧
      SameMember (name ++ "." ++ k) w (ofSettings s₂ w₂).2 u u₂
  tracer_eq : w.tracer? l.tracer = some (.ofSettings s.trace)
  /-- A tracer that was switched on is told of every call, before and after it, and no other tracer
  is. What it records is for its filter to say, and for whether it is still switched on, and is
  appended to its ring. -/
  traced : s.trace.enabled = true → ∀ name k f v, l.member? name k = some (.builtin f) →
    w.Keeps v → ∀ depth args, ∃ o v' e, World.call (depth + 1) f args v = some (o, v') ∧
      Reports v'.heap (name ++ "." ++ k) o e ∧
      (∀ id, v'.tracer? id = (v.tracer? id).map fun t =>
        if l.tracer = id then t.recordAll v.now [.call (name ++ "." ++ k) args.length, e] else t) ∧
      ∀ t, v.tracer? l.tracer = some t → ∃ t', v'.tracer? l.tracer = some t' ∧
        t.Appended v.now [.call (name ++ "." ++ k) args.length, e] t'
  /-- A tracer that was switched off is never told of a call, and records nothing, also if it is
  switched on between the calls. -/
  untraced : s.trace.enabled = false → ∀ (session : Session) depth v answers v' t, w.Keeps v →
    session.Uses l.HasFunction l.tracer → session.run depth v = some (answers, v') →
    v.tracer? l.tracer = some t →
    ∃ t', v'.tracer? l.tracer = some t' ∧ (t'.ring = t.ring ∨ t'.ring = t.ring.clear)

/-- The settings decide which modules there are, and whether the tracer is told of calls. Everything
else is the same in all libraries. -/
theorem ofSettings_follows (s : Settings) (w : World) :
    (ofSettings s w).1.Follows s (ofSettings s w).2 where
  names_increase := (ofSettings s w).1.modules.sorted
  mem_names name := mem_moduleNames_ofSettings_iff
  module_iff name := by
    rw [moduleNames, Dict.mem_keys_iff, ← Option.isSome_iff_exists, ← map_module?_ofSettings,
      Option.isSome_map]
  module_eq := map_module?_ofSettings s w
  same_members s₂ w₂ name m m₂ hm hm₂ := sameMember_of_module? hm hm₂
  tracer_eq := tracer?_ofSettings s w
  traced hs name k f v hf hv depth args := exists_call_of_enabled hs hf hv depth args
  untraced hs session depth v answers v' t hv huses hrun ht :=
    Session.ring_run (fun f hf => silent_of_not_enabled hs hf) huses hv hrun ht

-- A name that is allowed but that no module has is passed over.
example : (ofSettings (Settings.all.only ["text", "nope", "text"]) ∅).1.moduleNames = ["text"] := by
  rfl

end Library

end ScriptHost
