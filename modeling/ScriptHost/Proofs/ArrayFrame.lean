import ScriptHost.Debug
import ScriptHost.Equality
import ScriptHost.Evaluation
import ScriptHost.Proofs.CallingConvention
import ScriptHost.Proofs.Copying
import ScriptHost.Proofs.SerializationFailure
import ScriptHost.Truth
/-!
# Which arrays an operation changes

Operations on values are written down as requests. A push and the setting of
an element change the one array they name. All others leave the arrays that
exist as they were, and at most make new ones, whether they succeed or fail.
What an array has become after a run of requests can be told from the pushes
and settings that name it.
-/

namespace ScriptHost

/-- An operation on values that a script or a host may ask for. -/
inductive Request where
  | isFalsy (v : Value)
  | equals (v w : Value)
  | display (v : Value)
  | debug (v : Value)
  | serialize (v : Value)
  | copy (v : Value)
  | apply (op : Operator) (v w : Value)
  | extract (t : NativeType) (position : Nat) (v : Value)
  | wrap (s : ReturnShape) (x : s.Carrier)
  | create (items : List Value)
  | get (r : Ref) (i : Nat)
  | length (r : Ref)
  | elements (r : Ref)
  | push (r : Ref) (v : Value)
  | set (r : Ref) (i : Nat) (v : Value)

inductive Reply where
  | done
  | flag (b : Bool)
  | text (s : String)
  | packed (result : Except String (List UInt8))
  | value (v : Value)
  | result (result : Except Fault Value)
  | native (t : NativeType) (result : Except Rejection t.Carrier)
  | element (v? : Option Value)
  | count (n : Nat)
  | elements (vs : List Value)
  | status (result : Except Fault Unit)

namespace Request

def arraysOnly (h : Heap) : World :=
  { (∅ : World) with heap := h }

def perform (h : Heap) : Request → Option (Reply × Heap)
  | isFalsy v => some (.flag (h.isFalsy v), h)
  | equals v w => some (.flag (h.equals v w), h)
  | display v => some (.text (h.display v), h)
  | debug v => some (.text (h.debug v), h)
  | serialize v => (h.serialize v []).map fun p => (.packed p.1, h)
  | copy v =>
    let (c, h) := h.copy v
    some (.value c, h)
  | apply op v w =>
    match h.apply op v w with
    | .ok (x, h) => some (.result (.ok x), h)
    | .error e => some (.result (.error e), h)
  | extract t position v => some (.native t (t.extractArgument h position v), h)
  | wrap s x =>
    -- Wrapping makes no calls.
    ((s.wrap x).run (fun _ _ _ => none) (arraysOnly h)).map fun p => (.value p.1, p.2.heap)
  | create items =>
    let (r, h) := h.alloc items
    some (.value (.array r), h)
  | get r i => some (.element (h.get? r i), h)
  | length r => some (.count (h.items r).length, h)
  | elements r => some (.elements (h.items r), h)
  | push r v => some (.done, h.push r v)
  | set r i v =>
    match h.assign r i v with
    | .ok h => some (.status (.ok ()), h)
    | .error e => some (.status (.error e), h)

def target? : Request → Option Ref
  | push r _ => some r
  | set r _ _ => some r
  | _ => none

/-- What a request makes of the elements of an array. -/
def edit (q : Request) (r : Ref) (items : List Value) : List Value :=
  match q with
  | push s v => if s = r then items ++ [v] else items
  | set s i v => if s = r then items.set i v else items
  | _ => items

def performAll (h : Heap) : List Request → Option (List Reply × Heap)
  | [] => some ([], h)
  | q :: qs =>
    match q.perform h with
    | some (reply, h) => (performAll h qs).map fun p => (reply :: p.1, p.2)
    | none => none

end Request

namespace Heap

/-- In the second heap one array has the given elements, and all others are as in the first. -/
structure Rewrites (h h' : Heap) (r : Ref) (items : List Value) : Prop where
  size_eq : h'.size = h.size
  items_self : h'.items r = items
  items_of_ne : ∀ s, s ≠ r → h'.items s = h.items s

variable {h h' : Heap} {r s : Ref} {i : Nat} {v w x : Value} {op : Operator} {items : List Value}

theorem rewrites_write (hr : r ∈ h) : h.Rewrites (h.write r items) r items where
  size_eq := h.size_write r items
  items_self := items_write_self items hr
  items_of_ne _ hs := items_write_of_ne items hs.symm

theorem mem_of_lt_length (hi : i < (h.items r).length) : r ∈ h :=
  mem_of_mem_items (List.getElem_mem hi)

theorem assign_of_lt (hi : i < (h.items r).length) (v : Value) :
    h.assign r i v = .ok (h.write r ((h.items r).set i v)) := by
  rw [assign, set?, if_pos hi]

theorem assign_of_le (hi : (h.items r).length ≤ i) (v : Value) :
    h.assign r i v = .error (.indexOutOfBounds i (h.items r).length) := by
  rw [assign, set?, if_neg (Nat.not_lt.2 hi)]

theorem extends_apply (happly : h.apply op v w = .ok (x, h')) : h.Extends h' := by
  rcases apply_eq_ok happly with ⟨r, s, _, _, _, hnew⟩ | ⟨rfl, _⟩
  · cases hnew
    exact extends_alloc h _
  · exact .refl h'

end Heap

namespace Request

variable {h : Heap} {r : Ref} {q : Request}

theorem perform_of_target?_eq_none (hq : q.target? = none) :
    ∃ reply h', q.perform h = some (reply, h') ∧ h.Extends h' := by
  cases q with
  | push r v => cases hq
  | set r i v => cases hq
  | serialize v =>
    have hends : h.serialize v [] = some (_, []) := Heap.ends_serialize h [] v
    exact ⟨_, h, by rw [perform, hends]; rfl, .refl h⟩
  | copy v => exact ⟨_, _, rfl, Heap.extends_copy rfl⟩
  | apply op v w =>
    cases hx : h.apply op v w with
    | error e => exact ⟨_, h, by rw [perform, hx], .refl h⟩
    | ok p =>
      obtain ⟨x, h'⟩ := p
      exact ⟨_, h', by rw [perform, hx], Heap.extends_apply hx⟩
  | wrap s x =>
    obtain ⟨v, h', hrun, hmakes, _⟩ := s.run_wrap (fun _ _ _ => none) x (arraysOnly h)
    exact ⟨_, h', by rw [perform, hrun]; rfl, hmakes.grows⟩
  | create items => exact ⟨_, _, rfl, Heap.extends_alloc h items⟩
  | _ => exact ⟨_, h, rfl, .refl h⟩

theorem perform_push (hr : r ∈ h) (v : Value) :
    ∃ h', (push r v).perform h = some (.done, h') ∧ h.Rewrites h' r (h.items r ++ [v]) :=
  ⟨_, rfl, Heap.rewrites_write hr⟩

theorem perform_set_of_lt {i : Nat} (hi : i < (h.items r).length) (v : Value) :
    ∃ h', (set r i v).perform h = some (.status (.ok ()), h') ∧
      h.Rewrites h' r ((h.items r).set i v) :=
  ⟨_, by rw [perform, Heap.assign_of_lt hi], Heap.rewrites_write (Heap.mem_of_lt_length hi)⟩

theorem perform_set_of_le {i : Nat} (hi : (h.items r).length ≤ i) (v : Value) :
    (set r i v).perform h =
      some (.status (.error (.indexOutOfBounds i (h.items r).length)), h) := by
  rw [perform, Heap.assign_of_le hi]

/-! ### Runs of requests -/

/-- From one heap to the next the arrays of the first became what the edits make of them. -/
structure Edited (h h' : Heap) (edit : Ref → List Value → List Value) : Prop where
  size_le : h.size ≤ h'.size
  items_eq : ∀ r ∈ h, h'.items r = edit r (h.items r)

theorem edit_of_target?_ne (hq : q.target? ≠ some r) (items : List Value) :
    q.edit r items = items := by
  cases q with
  | push s v => exact if_neg fun hs => hq (congrArg some hs)
  | set s i v => exact if_neg fun hs => hq (congrArg some hs)
  | _ => rfl

theorem edited_of_extends {h' : Heap} (hh : h.Extends h') (hq : q.target? = none) :
    Edited h h' q.edit where
  size_le := hh.size_le
  items_eq r hr := by rw [hh.items_eq r hr, edit_of_target?_ne (by simp [hq])]

theorem edited_write {items : List Value} (hself : q.edit r (h.items r) = items)
    (hne : ∀ s, s ≠ r → q.target? ≠ some s) : Edited h (h.write r items) q.edit where
  size_le := Nat.le_of_eq (h.size_write r items).symm
  items_eq s hs := by
    by_cases hsr : s = r
    · subst hsr
      rw [Heap.items_write_self items hs, hself]
    · rw [Heap.items_write_of_ne items (Ne.symm hsr), edit_of_target?_ne (hne s hsr)]

theorem exists_edited_perform (h : Heap) (q : Request) :
    ∃ reply h', q.perform h = some (reply, h') ∧ Edited h h' q.edit := by
  cases htarget : q.target? with
  | none =>
    obtain ⟨reply, h', hperform, hh⟩ := perform_of_target?_eq_none htarget
    exact ⟨reply, h', hperform, edited_of_extends hh htarget⟩
  | some r =>
    have hne (s : Ref) (hs : s ≠ r) : q.target? ≠ some s := by
      rw [htarget]
      exact fun heq => hs (Option.some.inj heq).symm
    cases q with
    | push r' v =>
      cases htarget
      exact ⟨_, _, rfl, edited_write (if_pos rfl) hne⟩
    | set r' i v =>
      cases htarget
      by_cases hi : i < (h.items r).length
      · exact ⟨.status (.ok ()), _, by rw [perform, Heap.assign_of_lt hi],
          edited_write (if_pos rfl) hne⟩
      · have hlen := Nat.not_lt.1 hi
        refine ⟨_, h, perform_set_of_le hlen v, Nat.le_refl _, ?_⟩
        intro s _
        by_cases hs : s = r
        · subst hs
          rw [edit, if_pos rfl, List.set_eq_of_length_le hlen]
        · exact (edit_of_target?_ne (hne s hs) _).symm
    | _ => cases htarget

theorem exists_edited_performAll (h : Heap) (qs : List Request) :
    ∃ replies h', performAll h qs = some (replies, h') ∧
      Edited h h' fun r items => qs.foldl (fun items q => q.edit r items) items := by
  induction qs generalizing h with
  | nil => exact ⟨[], h, rfl, Nat.le_refl _, fun _ _ => rfl⟩
  | cons q qs ih =>
    obtain ⟨reply, h₁, hperform, hstep⟩ := exists_edited_perform h q
    obtain ⟨replies, h', hrest, hrun⟩ := ih h₁
    refine ⟨reply :: replies, h', ?_, Nat.le_trans hstep.size_le hrun.size_le, ?_⟩
    · rw [performAll, hperform]
      exact congrArg (Option.map _) hrest
    · intro r hr
      have hr₁ : r ∈ h₁ := Heap.mem_iff.2 (Nat.lt_of_lt_of_le (Heap.mem_iff.1 hr) hstep.size_le)
      rw [hrun.items_eq r hr₁, hstep.items_eq r hr, List.foldl_cons]

end Request

/-! ### Calls of adapters -/

namespace Signature

variable {s : Signature} {f : s.HostFunction} {handler : CallHandler} {c : Callable}

/-- The host function changes none of the arrays that exist when it is run. -/
def LeavesArrays (s : Signature) (handler : CallHandler) (f : s.HostFunction) : Prop :=
  ∀ xs w x w', (f xs).run handler w = some (x, w') → w.heap.Extends w'.heap

/-- The adapter of a host function, under any names and traced any number of times. -/
inductive Adapts (s : Signature) (f : s.HostFunction) : Callable → Prop where
  | adapter : Adapts s f (s.adapt f)
  | named (name : String) {c : Callable} (hc : Adapts s f c) : Adapts s f (.named name c)
  | traced (name : String) {c : Callable} (tracer : TracerId) (hc : Adapts s f c) :
    Adapts s f (.traced name c tracer)

/-- A call leaves the arrays as they were, whatever comes of it. There is an outcome unless the
host function itself has none for the arguments of this call. -/
theorem extends_run_adapt (hf : s.LeavesArrays handler f) (args : List Value) (w : World) :
    (∃ o w', (s.adapt f).run handler args w = some (o, w') ∧ w.heap.Extends w'.heap) ∨
      (s.adapt f).run handler args w = none ∧
        ∃ xs, s.Verdict w.heap args (.ok xs) ∧ (f xs).run handler w = none := by
  rw [run_adapt]
  cases hjudge : s.judge w.heap args with
  | error reason => exact .inl ⟨_, w, rfl, .refl w.heap⟩
  | ok xs =>
    cases hhost : (f xs).run handler w with
    | none =>
      refine .inr ⟨?_, xs, verdict_iff.2 hjudge, hhost⟩
      exact (Action.run_bind handler _ _ w).trans (by rw [hhost]; rfl)
    | some p =>
      obtain ⟨x, w₁⟩ := p
      obtain ⟨v, h', hwrap, hmakes, _⟩ := s.returns.run_wrap handler x w₁
      refine .inl ⟨.ok v, { w₁ with heap := h' }, ?_, (hf xs w x w₁ hhost).trans hmakes.grows⟩
      exact (Action.run_bind_of_eq hhost _).trans (Action.run_bind_of_eq hwrap _)

/-- The tracers are the only part of the world that a call may change before the host function is
run. -/
theorem Adapts.extends_run (hc : s.Adapts f c) (hf : s.LeavesArrays handler f)
    (args : List Value) (w : World) :
    (∃ o w', c.run handler args w = some (o, w') ∧ w.heap.Extends w'.heap) ∨
      c.run handler args w = none ∧ ∃ xs tracers, s.Verdict w.heap args (.ok xs) ∧
        (f xs).run handler { w with tracers := tracers } = none := by
  induction hc generalizing w with
  | adapter =>
    rcases extends_run_adapt hf args w with houtcome | ⟨hrun, xs, hverdict, hhost⟩
    · exact .inl houtcome
    · exact .inr ⟨hrun, xs, w.tracers, hverdict, hhost⟩
  | named name hc ih => exact ih w
  | @traced name c tracer hc ih =>
    rcases ih (w.withTracer tracer (·.call w.now name args.length)) with
      ⟨o, w', hrun, hh⟩ | ⟨hrun, hhost⟩
    · refine .inl ⟨o, w'.withTracer tracer (·.ended w'.now w'.heap name o), ?_, hh⟩
      rw [Callable.run, hrun]
    · refine .inr ⟨?_, hhost⟩
      rw [Callable.run, hrun]

theorem Adapts.extends_of_run (hc : s.Adapts f c) (hf : s.LeavesArrays handler f)
    {args : List Value} {w w' : World} {o : Outcome} (hrun : c.run handler args w = some (o, w')) :
    w.heap.Extends w'.heap := by
  rcases hc.extends_run hf args w with ⟨o₁, w₁, hrun₁, hh⟩ | ⟨hnone, -⟩
  · cases hrun.symm.trans hrun₁
    exact hh
  · cases hrun.symm.trans hnone

theorem leavesArrays_done (s : Signature) (handler : CallHandler)
    (f : Arguments s.params → s.returns.Carrier) :
    s.LeavesArrays handler fun xs => .done (f xs) := by
  intro xs w x w' hrun
  cases hrun
  exact .refl w.heap

end Signature

namespace Request

/-- Only a push and the setting of an element within an array change arrays that exist, and each
changes the one array it names. A call of an adapter changes none unless its host function does: it
has an outcome unless the host function has none for the arguments of the call, and whatever world
comes of it has the arrays as they were. -/
theorem only_push_and_set_change_arrays (handler : CallHandler) :
    (∀ (q : Request) (h : Heap), q.target? = none →
      ∃ reply h', q.perform h = some (reply, h') ∧ h.Extends h') ∧
    (∀ (s : Signature) (f : s.HostFunction), s.LeavesArrays handler f →
      ∀ c, s.Adapts f c → ∀ args w,
        (∃ o w', c.run handler args w = some (o, w') ∧ w.heap.Extends w'.heap) ∨
          c.run handler args w = none ∧ ∃ xs tracers, s.Verdict w.heap args (.ok xs) ∧
            (f xs).run handler { w with tracers := tracers } = none) ∧
    (∀ (s : Signature) (f : s.HostFunction), s.LeavesArrays handler f →
      ∀ c, s.Adapts f c → ∀ args w o w', c.run handler args w = some (o, w') →
        w.heap.Extends w'.heap) ∧
    (∀ (h : Heap) r v, r ∈ h →
      ∃ h', (push r v).perform h = some (.done, h') ∧ h.Rewrites h' r (h.items r ++ [v])) ∧
    (∀ (h : Heap) r i v, i < (h.items r).length →
      ∃ h', (set r i v).perform h = some (.status (.ok ()), h') ∧
        h.Rewrites h' r ((h.items r).set i v)) ∧
    (∀ (h : Heap) r i v, (h.items r).length ≤ i →
      (set r i v).perform h =
        some (.status (.error (.indexOutOfBounds i (h.items r).length)), h)) ∧
    ∀ (h : Heap) (qs : List Request), ∃ replies h', performAll h qs = some (replies, h') ∧
      ∀ r ∈ h, h'.items r = qs.foldl (fun items q => q.edit r items) (h.items r) := by
  refine ⟨fun q h => perform_of_target?_eq_none, ?_, ?_, ?_, ?_, ?_, ?_⟩
  · intro s f hf c hc args w
    exact hc.extends_run hf args w
  · intro s f hf c hc args w o w' hrun
    exact hc.extends_of_run hf hrun
  · intro h r v hr
    exact perform_push hr v
  · intro h r i v hi
    exact perform_set_of_lt hi v
  · intro h r i v hi
    exact perform_set_of_le hi v
  · intro h qs
    obtain ⟨replies, h', hrun, hedited⟩ := exists_edited_performAll h qs
    exact ⟨replies, h', hrun, hedited.items_eq⟩

def held : Heap := ⟨#[[.int 1], [.array ⟨0⟩]]⟩

/-- The host function that tells how many texts it was given. -/
def countTexts : Callable :=
  Signature.lift ⟨[.strings], .value (.native .int)⟩ fun xs => .ofNat xs.1.length

/-- An array holds itself and then an array that holds it, and the other one never changes. A host
function that counts texts leaves both alone, also when there is something else among them. -/
theorem only_push_and_set_change_arrays_held :
    (∃ replies h', performAll held
        [.push ⟨0⟩ (.array ⟨0⟩), .set ⟨0⟩ 0 (.array ⟨1⟩), .set ⟨0⟩ 2 .undefined,
          .apply .add (.array ⟨0⟩) (.array ⟨1⟩)] = some (replies, h') ∧
      h'.items ⟨0⟩ = [.array ⟨1⟩, .array ⟨0⟩] ∧ h'.items ⟨1⟩ = [.array ⟨0⟩]) ∧
    ∃ o w', countTexts.run (World.call 1) [.array ⟨1⟩] (arraysOnly held) = some (o, w') ∧
      held.Extends w'.heap := by
  obtain ⟨_, hcalls, _, _, _, _, hruns⟩ := only_push_and_set_change_arrays (World.call 1)
  constructor
  · obtain ⟨replies, h', hperform, hitems⟩ := hruns held
      [.push ⟨0⟩ (.array ⟨0⟩), .set ⟨0⟩ 0 (.array ⟨1⟩), .set ⟨0⟩ 2 .undefined,
        .apply .add (.array ⟨0⟩) (.array ⟨1⟩)]
    refine ⟨replies, h', hperform, ?_, ?_⟩
    · rw [hitems ⟨0⟩ (by decide)]
      rfl
    · rw [hitems ⟨1⟩ (by decide)]
      rfl
  · have hleaves := Signature.leavesArrays_done ⟨[.strings], .value (.native .int)⟩
      (World.call 1) fun xs => .ofNat xs.1.length
    rcases hcalls _ _ hleaves countTexts .adapter [.array ⟨1⟩] (arraysOnly held) with
      hanswered | ⟨_, xs, tracers, _, hnone⟩
    · exact hanswered
    · cases hnone

end Request

end ScriptHost
