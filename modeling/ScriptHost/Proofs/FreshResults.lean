import ScriptHost.Proofs.CallingConvention
import ScriptHost.Proofs.CopyIsolation
/-!
# Results of host functions

What a host function hands back is read off the result of its adapter. A
failure is an error value around the message and nothing else is an error
value. A list is a new array, so a change of a result is not observed of what
was there before, and a change of what was there is not observed of the result.
-/

namespace ScriptHost

/-! ### What is handed back -/

/-- What a host function hands back, in whatever shape it does. -/
inductive Handed where
  | nothing
  | success
  | value (t : ResultType) (x : t.Carrier)
  | failure (message : String)

def ReturnShape.handed : (s : ReturnShape) → s.Carrier → Handed
  | unit, () => .nothing
  | value t, x => .value t x
  | status, .ok () => .success
  | status, .error message => .failure message
  | fallible t, .ok x => .value t x
  | fallible _, .error message => .failure message

/-- Reads a result back. A list is the elements of an array, in their order. -/
def ResultType.read? (h : Heap) : (t : ResultType) → Value → Option t.Carrier
  | native t, v => t.extract? h v
  | ints, .array r => (h.items r).mapM Value.int?
  | ints, _ => none

/-- How a result tells what was handed back. -/
def Handed.Shows (h : Heap) (v : Value) : Handed → Prop
  | nothing => v = .undefined
  | success => v = .bool true
  | value t x => t.read? h v = some x
  | failure message => v = .error (.string message)

variable {h h' : Heap} {v p : Value} {r : Ref}

theorem ResultType.read?_eq_some_iff {t : ResultType} {x : t.Carrier} :
    t.read? h v = some x ↔ t.Denotes h v x := by
  cases t with
  | native t => exact NativeType.extract?_eq_some_iff
  | ints =>
    cases v with
    | array r =>
      simp only [read?, mapM_eq_some_iff_eq_map fun _ _ => Value.int?_eq_some_iff, Denotes,
        Value.array.injEq]
      simp
    | atom a => simp [read?, Denotes]
    | map m => simp [read?, Denotes]
    | error p => simp [read?, Denotes]

/-- A value that stands for a result is an atom or an array of atoms. -/
theorem ResultType.Denotes.atoms {t : ResultType} {x : t.Carrier} (hx : t.Denotes h v x) :
    (∃ a, v = .atom a) ∨ ∃ r, v = .array r ∧ ∀ u ∈ h.items r, ∃ a, u = .atom a := by
  cases t with
  | native t =>
    cases t with
    | strings =>
      obtain ⟨r, rfl, hr⟩ := hx
      exact .inr ⟨r, rfl, by simp [hr]⟩
    | _ => exact .inl ⟨_, hx⟩
  | ints =>
    obtain ⟨r, rfl, hr⟩ := hx
    exact .inr ⟨r, rfl, by simp [hr]⟩

theorem ResultType.Denotes.isError_eq_false {t : ResultType} {x : t.Carrier}
    (hx : t.Denotes h v x) : v.isError = false := by
  obtain ⟨a, rfl⟩ | ⟨r, rfl, -⟩ := hx.atoms
  · rfl
  · rfl

theorem ReturnShape.Denotes.shows {s : ReturnShape} {x : s.Carrier} (hx : s.Denotes h v x) :
    (s.handed x).Shows h v := by
  cases s with
  | unit => exact hx
  | value t => exact ResultType.read?_eq_some_iff.2 hx
  | status =>
    cases x with
    | ok x => exact hx
    | error message => exact hx
  | fallible t =>
    cases x with
    | ok x => exact ResultType.read?_eq_some_iff.2 hx
    | error message => exact hx

theorem Handed.Shows.isError_iff {d : Handed} (hd : d.Shows h v) :
    v.isError = true ↔ ∃ message, d = .failure message := by
  cases d with
  | nothing | success =>
    cases hd
    simp [Value.isError]
  | value t x => simp [(ResultType.read?_eq_some_iff.1 hd).isError_eq_false]
  | failure message =>
    cases hd
    simp [Value.isError]

/-! ### A result is on its own -/

namespace Heap

theorem apart_array_of_atoms (hr : r ∈ h' ∧ r ∉ h) (hatoms : ∀ u ∈ h'.items r, ∃ a, u = .atom a) :
    h.Apart h' (.array r) := by
  intro t ht
  have hreached : Value.array t = .array r ∨ ∃ a, Value.array t = .atom a := by
    refine ht.induct (P := fun u => u = .array r ∨ ∃ a, u = .atom a) (.inl rfl) ?_
    rintro u st w (rfl | ⟨a, rfl⟩) hw
    · exact .inr (hatoms w (mem_items_of_part? hw))
    · cases hw
  obtain heq | ⟨a, heq⟩ := hreached
  · cases heq
    exact hr
  · cases heq

theorem Apart.error (hp : h.Apart h' p) : h.Apart h' (.error p) := by
  rintro r ⟨path, hpath⟩
  cases path with
  | nil => cases hpath
  | cons st path =>
    cases st with
    | payload => exact hp r ⟨path, hpath⟩
    | _ => cases hpath

end Heap

theorem Handed.Shows.apart {d : Handed} (hd : d.Shows h' v) (hv : h.Makes h' [v]) :
    h.Apart h' v := by
  cases d with
  | nothing | success =>
    cases hd
    exact Heap.apart_atom _
  | value t x =>
    obtain ⟨a, rfl⟩ | ⟨r, rfl, hatoms⟩ := (ResultType.read?_eq_some_iff.1 hd).atoms
    · exact Heap.apart_atom a
    · exact Heap.apart_array_of_atoms (hv.fresh r (List.mem_singleton_self _)) hatoms
  | failure message =>
    cases hd
    exact (Heap.apart_atom _).error

/-! ### No array is lost -/

/-- Calls leave at least the arrays that there were. -/
def CallHandler.Grows (handler : CallHandler) : Prop :=
  ∀ f args w o w', handler f args w = some (o, w') → ∀ r ∈ w.heap, r ∈ w'.heap

variable {handler : CallHandler} {w w' w₁ : World} {o : Outcome}

theorem Action.mem_of_run {α : Type} {a : Action α} {x : α} (hhandler : handler.Grows)
    (hrun : a.run handler w = some (x, w')) (hr : r ∈ w.heap) : r ∈ w'.heap := by
  induction a generalizing w with
  | done a =>
    cases hrun
    exact hr
  | read next ih => exact ih w.heap hrun hr
  | alloc items next ih => exact ih _ hrun (Heap.mem_change (c := .create items) hr)
  | push t v next ih => exact ih hrun (Heap.mem_change (c := .push t v) hr)
  | set t i v next ih =>
    simp only [run] at hrun
    split at hrun
    · next h hset =>
      have hmem : r ∈ w.heap.change (.set t i v) := Heap.mem_change hr
      rw [Heap.change, hset] at hmem
      exact ih true hrun hmem
    · exact ih false hrun hr
  | call f args next ih =>
    simp only [run] at hrun
    split at hrun
    · next o w₁ hcall => exact ih o hrun (hhandler f args w o w₁ hcall r hr)
    · cases hrun

theorem Callable.mem_of_run {c : Callable} {args : List Value} (hhandler : handler.Grows)
    (hrun : c.run handler args w = some (o, w')) (hr : r ∈ w.heap) : r ∈ w'.heap := by
  induction c generalizing w w' o with
  | native arity body =>
    simp only [run] at hrun
    split at hrun
    · exact Action.mem_of_run hhandler hrun hr
    · cases hrun
      exact hr
  | named name inner ih => exact ih hrun hr
  | traced name inner tracer ih =>
    -- The tracer records beside the arrays, before the inner call and after it.
    simp only [run] at hrun
    split at hrun
    · next o w₁ hinner =>
      have hmem : r ∈ w₁.heap := ih hinner hr
      cases hrun
      exact hmem
    · cases hrun

theorem World.grows_call (depth : Nat) : CallHandler.Grows (World.call depth) := by
  induction depth with
  | zero => nofun
  | succ depth ih =>
    intro f args w o w' hcall r hr
    simp only [call] at hcall
    split at hcall
    · exact Callable.mem_of_run ih hcall hr
    · cases hcall

/-! ### Calls and changes in turn -/

/-- What a script does with adapters and arrays. -/
inductive Turn where
  | call (s : Signature) (f : s.HostFunction) (args : List Value)
  | change (c : Change)

/-- Takes one turn after the other, and lists what comes of the calls. -/
def Turn.runAll (handler : CallHandler) : List Turn → World → Option (List Outcome × World)
  | [], w => some ([], w)
  | call s f args :: ts, w =>
    match (s.adapt f).run handler args w with
    | some (o, w) => (runAll handler ts w).map fun p => (o :: p.1, p.2)
    | none => none
  | change c :: ts, w => runAll handler ts { w with heap := w.heap.change c }

/-- The arrays among the results of calls. -/
def resultArrays (os : List Outcome) : List Ref :=
  os.filterMap fun o => o.toOption.bind Value.array?

/-- Between the heaps no array is lost, and the given ones were made one after the other. -/
structure Heap.MakesEach (h h' : Heap) (rs : List Ref) : Prop where
  mem : ∀ r ∈ h, r ∈ h'
  fresh : ∀ r ∈ rs, r ∈ h' ∧ r ∉ h
  nodup : rs.Nodup

theorem Heap.MakesEach.append {h₁ : Heap} {rs ts : List Ref} (hrs : h.MakesEach h₁ rs)
    (hts : h₁.MakesEach h' ts) : h.MakesEach h' (rs ++ ts) where
  mem r hr := hts.mem r (hrs.mem r hr)
  fresh r hr := by
    obtain hr | hr := List.mem_append.1 hr
    · obtain ⟨hmem, hnew⟩ := hrs.fresh r hr
      exact ⟨hts.mem r hmem, hnew⟩
    · obtain ⟨hmem, hnew⟩ := hts.fresh r hr
      exact ⟨hmem, fun hold => hnew (hrs.mem r hold)⟩
  nodup := by
    refine List.nodup_append.2 ⟨hrs.nodup, hts.nodup, ?_⟩
    rintro r hr t ht rfl
    exact (hts.fresh r ht).2 (hrs.fresh r hr).1

namespace Signature

variable {s : Signature} {f : s.HostFunction} {args : List Value}

theorem makesEach_run_adapt (hhandler : handler.Grows)
    (hrun : (s.adapt f).run handler args w = some (o, w')) :
    w.heap.MakesEach w'.heap (resultArrays [o]) := by
  obtain ⟨reason, -, rfl, rfl⟩ | ⟨xs, x, w₁, v, h', -, hhost, -, hmakes, -, rfl, rfl⟩ :=
    run_adapt_eq_some hrun
  · exact ⟨fun _ => id, nofun, List.nodup_nil⟩
  · have hmem : ∀ r ∈ w.heap, r ∈ w₁.heap := fun r => Action.mem_of_run hhandler hhost
    cases v with
    | array r =>
      obtain ⟨hr, hnew⟩ := hmakes.fresh r (List.mem_singleton_self _)
      refine ⟨fun t ht => hmakes.grows.mem (hmem t ht), ?_, List.nodup_singleton r⟩
      intro t ht
      cases List.mem_singleton.1 ht
      exact ⟨hr, fun hold => hnew (hmem r hold)⟩
    | _ => exact ⟨fun t ht => hmakes.grows.mem (hmem t ht), nofun, List.nodup_nil⟩

end Signature

theorem Turn.makesEach_runAll {ts : List Turn} {os : List Outcome} (hhandler : handler.Grows)
    (hrun : runAll handler ts w = some (os, w')) :
    w.heap.MakesEach w'.heap (resultArrays os) := by
  induction ts generalizing w os with
  | nil =>
    cases hrun
    exact ⟨fun _ => id, nofun, List.nodup_nil⟩
  | cons t ts ih =>
    cases t with
    | call s f args =>
      rw [runAll] at hrun
      split at hrun
      · next o w₁ hcall =>
        obtain ⟨⟨rest, w₂⟩, hrest, heq⟩ := Option.map_eq_some_iff.1 hrun
        cases heq
        have heach := (Signature.makesEach_run_adapt hhandler hcall).append (ih hrest)
        rwa [resultArrays, resultArrays, ← List.filterMap_append] at heach
      · cases hrun
    | change c =>
      have hrest := ih hrun
      refine ⟨fun r hr => hrest.mem r (Heap.mem_change hr), fun r hr => ?_, hrest.nodup⟩
      obtain ⟨hmem, hnew⟩ := hrest.fresh r hr
      exact ⟨hmem, fun hold => hnew (Heap.mem_change hold)⟩

namespace Signature

/-- An accepted call has a result that shows what the host function handed back, and the result is
an error value if and only if that is a failure. The result reaches no array that was there before
the wrapping, so no later change of the one is observed of the other. Among the results of any
number of calls, with changes of arrays in between, no array occurs twice, and none was there
before. -/
theorem results_faithful_and_fresh (depth : Nat) :
    (∀ (s : Signature) (f : s.HostFunction) args w xs x w₁, s.Verdict w.heap args (.ok xs) →
      (f xs).run (World.call depth) w = some (x, w₁) →
      ∃ v h', (s.adapt f).run (World.call depth) args w = some (.ok v, { w₁ with heap := h' }) ∧
        (s.returns.handed x).Shows h' v ∧
        (v.isError = true ↔ ∃ message, s.returns.handed x = .failure message) ∧
        (∀ r ∈ w.heap, r ∈ w₁.heap) ∧ w₁.heap.Extends h' ∧ w₁.heap.Apart h' v ∧
        (∀ ds, (∀ d ∈ ds, ∀ t, d.target? = some t → t ∉ w₁.heap) →
          Heap.Indistinct w₁.heap.Owns w₁.heap (h'.run ds)) ∧
        ∀ before k, w₁.heap.RunKeepsApart v h' before → h'.run before = k →
          w₁.heap.Apart k v ∧
            ∀ ds, (∀ d ∈ ds, ∀ t, d.target? = some t → t ∈ w₁.heap) →
              Heap.Indistinct (w₁.heap.Apart k) k (k.run ds)) ∧
    ∀ ts w os w', Turn.runAll (World.call depth) ts w = some (os, w') →
      (resultArrays os).Nodup ∧ ∀ r ∈ resultArrays os, r ∈ w'.heap ∧ r ∉ w.heap := by
  have hgrows := World.grows_call depth
  constructor
  · intro s f args w xs x w₁ hverdict hhost
    obtain ⟨v, h', hwrap, hmakes, hdenotes⟩ := s.returns.run_wrap (World.call depth) x w₁
    have hshows := hdenotes.shows
    have hapart := hshows.apart hmakes
    exact ⟨v, h', run_adapt_of_host hverdict hhost hwrap, hshows, hshows.isError_iff,
      fun r => Action.mem_of_run hgrows hhost, hmakes.grows, hapart,
      hmakes.grows.isolates hapart⟩
  · intro ts w os w' hrun
    have heach := Turn.makesEach_runAll hgrows hrun
    exact ⟨heach.nodup, heach.fresh⟩

/-- A host function that hands back two texts, but fails for zero. -/
def twoNames : (⟨[.int], .fallible (.native .strings)⟩ : Signature).HostFunction :=
  fun xs => .done (if xs.1 = 0 then .error "no names" else .ok ["a", "b"])

/-- The failure is an error value, and the lists of two calls are two arrays although the first was
changed in between. -/
theorem results_faithful_and_fresh_twoNames :
    (∃ v h', (adapt _ twoNames).run (World.call 1) [.int 0] ∅ =
        some (.ok v, { (∅ : World) with heap := h' }) ∧ v = .error (.string "no names")) ∧
      (∃ v h', (adapt _ twoNames).run (World.call 1) [.int 1] ∅ =
          some (.ok v, { (∅ : World) with heap := h' }) ∧
        (ResultType.native .strings).read? h' v = some ["a", "b"] ∧ Heap.Apart ∅ h' v) ∧
      ∃ os w', Turn.runAll (World.call 1)
          [.call _ twoNames [.int 1], .change (.push ⟨0⟩ (.string "c")), .call _ twoNames [.int 1]]
          ∅ = some (os, w') ∧
        resultArrays os = [⟨0⟩, ⟨1⟩] ∧ (resultArrays os).Nodup := by
  obtain ⟨hcalls, hruns⟩ := results_faithful_and_fresh 1
  refine ⟨?_, ?_, ?_⟩
  · obtain ⟨v, h', hrun, hshows, -⟩ :=
      hcalls _ twoNames [.int 0] ∅ (0, ()) _ ∅ (.accepted ⟨rfl, trivial⟩) rfl
    exact ⟨v, h', hrun, hshows⟩
  · obtain ⟨v, h', hrun, hshows, -, -, -, hapart, -⟩ :=
      hcalls _ twoNames [.int 1] ∅ (1, ()) _ ∅ (.accepted ⟨rfl, trivial⟩) rfl
    exact ⟨v, h', hrun, hshows, hapart⟩
  · obtain ⟨hnodup, -⟩ := hruns
      [.call _ twoNames [.int 1], .change (.push ⟨0⟩ (.string "c")), .call _ twoNames [.int 1]]
      ∅ _ _ rfl
    exact ⟨_, _, rfl, rfl, hnodup⟩

end Signature

end ScriptHost
