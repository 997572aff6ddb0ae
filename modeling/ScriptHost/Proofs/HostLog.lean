import Mathlib.Data.List.Forall2
import ScriptHost.Catalogue
import ScriptHost.Proofs.CallingConvention
/-!
# What an adapted host function is told

A host function that keeps a log of its arguments shows when it runs. After any
run of calls the new entries of the log are the native arguments of the calls
that were accepted, in their order. What comes of a call depends on its own
arguments, as they are before the run, and not on the other calls.
-/

namespace ScriptHost

namespace Heap

/-- The second heap has the arrays of the first, and all but one of them with their elements. -/
structure ExtendsBeside (log : Ref) (h h' : Heap) : Prop where
  size_le : h.size ≤ h'.size
  items_eq : ∀ r ∈ h, r ≠ log → h'.items r = h.items r

variable {log : Ref} {h h₁ h' : Heap} {vs : List Value}

theorem Extends.beside (hh : h.Extends h') (log : Ref) : h.ExtendsBeside log h' where
  size_le := hh.size_le
  items_eq r hr _ := hh.items_eq r hr

theorem ExtendsBeside.mem {r : Ref} (hh : h.ExtendsBeside log h') (hr : r ∈ h) : r ∈ h' :=
  mem_iff.2 (Nat.lt_of_lt_of_le (mem_iff.1 hr) hh.size_le)

theorem ExtendsBeside.trans (hh : h.ExtendsBeside log h₁) (hh' : h₁.ExtendsBeside log h') :
    h.ExtendsBeside log h' where
  size_le := Nat.le_trans hh.size_le hh'.size_le
  items_eq r hr hne := (hh'.items_eq r (hh.mem hr) hne).trans (hh.items_eq r hr hne)

theorem extendsBeside_push (h : Heap) (log : Ref) (v : Value) :
    h.ExtendsBeside log (h.push log v) where
  size_le := Nat.le_of_eq (size_write h log _).symm
  items_eq _ _ hne := items_write_of_ne _ hne.symm

theorem items_push_self (hlog : log ∈ h) (v : Value) :
    (h.push log v).items log = h.items log ++ [v] :=
  items_write_self _ hlog

/-- What was made while the one array was there is kept. -/
theorem Makes.keepsBeside (hvs : h.Makes h₁ vs) (hlog : log ∈ h)
    (hh : h₁.ExtendsBeside log h') : h₁.Keeps h' vs := by
  intro r hr
  obtain ⟨hmem, hnot⟩ := hvs.fresh r hr
  exact hh.items_eq r hmem fun heq => hnot (heq ▸ hlog)

end Heap

namespace Signature

/-- The host function that puts its arguments into a log and then returns what a function makes of
them. -/
def recording (s : Signature) (log : Ref) (g : Arguments s.params → s.returns.Carrier) :
    s.HostFunction := fun xs => do
  let args ← Arguments.wrap s.params xs
  let entry ← Action.newArray args
  .push log entry (.done (g xs))

/-- The value is an array of the native arguments. -/
def Entry (s : Signature) (h : Heap) (v : Value) (xs : Arguments s.params) : Prop :=
  ∃ r, v = .array r ∧ Arguments.Denotes h s.params (h.items r) xs

/-- The outcome is what the verdict demands. -/
inductive Answers (s : Signature) (g : Arguments s.params → s.returns.Carrier) (h : Heap) :
    Except Rejection (Arguments s.params) → Outcome → Prop where
  | rejected (reason : Rejection) : Answers s g h (.error reason) (.error reason)
  | accepted {xs : Arguments s.params} {v : Value} (hv : s.returns.Denotes h v (g xs)) :
    Answers s g h (.ok xs) (.ok v)

variable {s : Signature} {g : Arguments s.params → s.returns.Carrier} {log : Ref} {w : World}
  {args : List Value}

/-- One accepted call puts one entry into the log. What is said of the entry and of the result
stays true while no other array than the log is changed. -/
theorem exists_run_recording (g : Arguments s.params → s.returns.Carrier) (handler : CallHandler)
    {xs : Arguments s.params} (hlog : log ∈ w.heap)
    (hverdict : s.Verdict w.heap args (.ok xs)) :
    ∃ v entry w₁,
      (s.adapt (s.recording log g)).run handler args w = some (.ok v, w₁) ∧
        w.heap.ExtendsBeside log w₁.heap ∧
        w₁.heap.items log = w.heap.items log ++ [entry] ∧
        ∀ k, w₁.heap.ExtendsBeside log k → s.returns.Denotes k v (g xs) ∧ s.Entry k entry xs := by
  -- Four heaps follow the first: with the arguments wrapped, with the entry made, with the entry
  -- in the log, and with the result wrapped.
  obtain ⟨vs, h₁, hwrap, hmakes, hxs⟩ := Arguments.run_wrap handler s.params xs w
  let e := (h₁.alloc vs).1
  let h₂ := (h₁.alloc vs).2
  let h₃ := h₂.push log (.array e)
  obtain ⟨v, h₄, hresult, hmakes', hv⟩ :=
    s.returns.run_wrap handler (g xs) { w with heap := h₃ }
  have hlog₁ : log ∈ h₁ := hmakes.grows.mem hlog
  have hlog₂ : log ∈ h₂ := (Heap.extends_alloc h₁ vs).mem hlog₁
  have hpush : h₂.ExtendsBeside log h₃ := Heap.extendsBeside_push h₂ log (.array e)
  have h₁₂ : h₁.ExtendsBeside log h₂ := (Heap.extends_alloc h₁ vs).beside log
  have h₂₄ : h₂.ExtendsBeside log h₄ := hpush.trans (hmakes'.grows.beside log)
  refine ⟨v, .array e, { w with heap := h₄ }, ?_, ?_, ?_, ?_⟩
  · have hhost : (s.recording log g xs).run handler w = some (g xs, { w with heap := h₃ }) :=
      (Action.run_bind_of_eq hwrap _).trans (Action.run_bind_of_eq (Action.run_newArray vs _) _)
    exact run_adapt_of_host hverdict hhost hresult
  · exact (hmakes.grows.beside log).trans (h₁₂.trans h₂₄)
  · calc
      h₄.items log = h₃.items log := hmakes'.grows.items_eq log (hpush.mem hlog₂)
      _ = h₂.items log ++ [.array e] := Heap.items_push_self hlog₂ _
      _ = h₁.items log ++ [.array e] := by rw [(Heap.extends_alloc h₁ vs).items_eq log hlog₁]
      _ = w.heap.items log ++ [.array e] := by rw [hmakes.grows.items_eq log hlog]
  · intro k hk
    have h₂k : h₂.ExtendsBeside log k := h₂₄.trans hk
    have hentry : k.items e = vs := by
      have hkeeps := (Heap.makes_alloc h₁ vs).keepsBeside hlog₁ h₂k
      rw [hkeeps e (List.mem_singleton_self _)]
      exact Heap.items_alloc_self h₁ vs
    refine ⟨hv.keep (hmakes'.keepsBeside (hpush.mem hlog₂) hk), e, rfl, ?_⟩
    rw [hentry]
    exact hxs.keep (hmakes.keepsBeside hlog (h₁₂.trans h₂k))

/-- What comes of a run of calls, told by the verdicts on their arguments before the run. It stays
true while no other array than the log is changed. -/
structure Recorded (s : Signature) (g : Arguments s.params → s.returns.Carrier) (log : Ref)
    (h h' : Heap) (calls : List (List Value)) (os : List Outcome)
    (verdicts : List (Except Rejection (Arguments s.params))) (entries : List Value) : Prop where
  grows : h.ExtendsBeside log h'
  items_log : h'.items log = h.items log ++ entries
  judged : List.Forall₂ (s.Verdict h) calls verdicts
  answered : ∀ k, h'.ExtendsBeside log k → List.Forall₂ (s.Answers g k) verdicts os
  logged : ∀ k, h'.ExtendsBeside log k →
    List.Forall₂ (s.Entry k) entries (verdicts.filterMap Except.toOption)

variable {h h₁ h' : Heap} {calls : List (List Value)} {os : List Outcome}
  {verdicts : List (Except Rejection (Arguments s.params))} {entries : List Value}

theorem Recorded.nil (s : Signature) (g : Arguments s.params → s.returns.Carrier) (log : Ref)
    (h : Heap) : s.Recorded g log h h [] [] [] [] where
  grows := (Heap.Extends.refl h).beside log
  items_log := (List.append_nil _).symm
  judged := .nil
  answered _ _ := .nil
  logged _ _ := .nil

theorem Recorded.rejected {reason : Rejection} (hverdict : s.Verdict h args (.error reason))
    (hrest : s.Recorded g log h h' calls os verdicts entries) :
    s.Recorded g log h h' (args :: calls) (.error reason :: os) (.error reason :: verdicts)
      entries where
  grows := hrest.grows
  items_log := hrest.items_log
  judged := .cons hverdict hrest.judged
  answered k hk := .cons (.rejected reason) (hrest.answered k hk)
  logged k hk := hrest.logged k hk

theorem Recorded.accepted {xs : Arguments s.params} {v entry : Value}
    (hverdict : s.Verdict h args (.ok xs)) (hgrows : h.ExtendsBeside log h₁)
    (hitems : h₁.items log = h.items log ++ [entry])
    (hmade : ∀ k, h₁.ExtendsBeside log k → s.returns.Denotes k v (g xs) ∧ s.Entry k entry xs)
    (hjudged : List.Forall₂ (s.Verdict h) calls verdicts)
    (hrest : s.Recorded g log h₁ h' calls os verdicts entries) :
    s.Recorded g log h h' (args :: calls) (.ok v :: os) (.ok xs :: verdicts)
      (entry :: entries) where
  grows := hgrows.trans hrest.grows
  items_log := by rw [hrest.items_log, hitems, List.append_assoc, List.singleton_append]
  judged := .cons hverdict hjudged
  answered k hk := .cons (.accepted (hmade k (hrest.grows.trans hk)).1) (hrest.answered k hk)
  logged k hk := .cons (hmade k (hrest.grows.trans hk)).2 (hrest.logged k hk)

theorem forall₂_verdict_keep (hcalls : ∀ args ∈ calls, h.Keeps h' args)
    (hverdicts : List.Forall₂ (s.Verdict h) calls verdicts) :
    List.Forall₂ (s.Verdict h') calls verdicts := by
  apply List.Forall₂.imp _ ((List.forall₂_and_left calls verdicts).2 ⟨hcalls, hverdicts⟩)
  rintro args verdict ⟨hargs, hverdict⟩
  exact hverdict.keep hargs

theorem exists_recorded (s : Signature) (g : Arguments s.params → s.returns.Carrier)
    (handler : CallHandler) (calls : List (List Value)) {w : World} (hlog : log ∈ w.heap)
    (hcalls : ∀ args ∈ calls, ∀ r, .array r ∈ args → r ∈ w.heap ∧ r ≠ log) :
    ∃ os w' verdicts entries,
      (s.adapt (s.recording log g)).runEach handler calls w = some (os, w') ∧
        s.Recorded g log w.heap w'.heap calls os verdicts entries := by
  induction calls generalizing w with
  | nil => exact ⟨[], w, [], [], rfl, .nil s g log w.heap⟩
  | cons args calls ih =>
    have hlater : ∀ a ∈ calls, ∀ r, .array r ∈ a → r ∈ w.heap ∧ r ≠ log :=
      fun a ha => hcalls a (List.mem_cons_of_mem args ha)
    obtain ⟨verdict, hverdict, -⟩ := s.existsUnique_verdict w.heap args
    cases verdict with
    | error reason =>
      obtain ⟨os, w', verdicts, entries, hrun, hrecorded⟩ := ih hlog hlater
      refine ⟨.error reason :: os, w', .error reason :: verdicts, entries, ?_,
        hrecorded.rejected hverdict⟩
      rw [Callable.runEach_cons_of_eq (run_adapt_of_rejected hverdict), hrun]
      rfl
    | ok xs =>
      obtain ⟨v, entry, w₁, hcall, hgrows, hitems, hmade⟩ :=
        exists_run_recording g handler hlog hverdict
      have hlater₁ : ∀ a ∈ calls, ∀ r, .array r ∈ a → r ∈ w₁.heap ∧ r ≠ log := by
        intro a ha r hr
        obtain ⟨hmem, hne⟩ := hlater a ha r hr
        exact ⟨hgrows.mem hmem, hne⟩
      obtain ⟨os, w', verdicts, entries, hrun, hrecorded⟩ := ih (hgrows.mem hlog) hlater₁
      refine ⟨.ok v :: os, w', .ok xs :: verdicts, entry :: entries, ?_,
        .accepted hverdict hgrows hitems hmade ?_ hrecorded⟩
      · rw [Callable.runEach_cons_of_eq hcall, hrun]
        rfl
      · -- The call left the arrays among the later arguments as they were.
        apply forall₂_verdict_keep _ hrecorded.judged
        intro a ha r hr
        obtain ⟨hmem, hne⟩ := hlater a ha r hr
        exact (hgrows.items_eq r hmem hne).symm

/-- Every adapter of the catalogue has the parameters and the result that its name spells, and keeps
the calling convention in every run of calls, whatever the host function does. If the host function
only keeps a log and computes, then the log shows the arguments of the accepted calls, and the
outcomes follow from the verdicts on the arguments before the run. -/
theorem adapter_keeps_convention {name : String} {s : Signature} (hs : ofName? name = some s) :
    s.name = name ∧
      (∀ h args, ∃! verdict, s.Verdict h args verdict) ∧
      (∀ (f : s.HostFunction) (handler : CallHandler) (calls : List (List Value)) (w w' : World)
        (os : List Outcome),
        (s.adapt f).runEach handler calls w = some (os, w') ↔
          ∃ log, s.Serves handler f w calls log os w') ∧
      ∀ (g : Arguments s.params → s.returns.Carrier) (handler : CallHandler)
        (calls : List (List Value)) (w : World) (log : Ref), log ∈ w.heap →
        (∀ args ∈ calls, ∀ r, .array r ∈ args → r ∈ w.heap ∧ r ≠ log) →
        ∃ os w' verdicts entries,
          (s.adapt (s.recording log g)).runEach handler calls w = some (os, w') ∧
            List.Forall₂ (s.Verdict w.heap) calls verdicts ∧
            List.Forall₂ (s.Answers g w'.heap) verdicts os ∧
            w'.heap.items log = w.heap.items log ++ entries ∧
            List.Forall₂ (s.Entry w'.heap) entries (verdicts.filterMap Except.toOption) := by
  refine ⟨name_of_ofName? hs, s.existsUnique_verdict, ?_, ?_⟩
  · intro f handler calls w w' os
    constructor
    · exact exists_serves
    · rintro ⟨log, hserves⟩
      exact hserves.runEach_eq
  · intro g handler calls w log hlog hcalls
    obtain ⟨os, w', verdicts, entries, hrun, hrecorded⟩ :=
      s.exists_recorded g handler calls hlog hcalls
    have hrefl := (Heap.Extends.refl w'.heap).beside log
    exact ⟨os, w', verdicts, entries, hrun, hrecorded.judged, hrecorded.answered _ hrefl,
      hrecorded.items_log, hrecorded.logged _ hrefl⟩

def joining : Signature where
  params := [.string, .string]
  returns := .value (.native .string)

theorem adapter_keeps_convention_joining :
    ofName? "func_ass_rs" = some joining ∧
      ∃ w', (joining.adapt (joining.recording ⟨0⟩ fun (a, b, ()) => a ++ b)).runEach
        (fun _ _ _ => none)
        [[.string "a", .string "b"], [.string "a", .undefined], []]
        ⟨⟨#[[]]⟩, #[], #[], 0⟩ =
          some ([.ok (.string "ab"), .error (.wrongKind 1 .string .undefined),
            .error (.wrongCount 2 0)], w') ∧
        w'.heap.items ⟨0⟩ = [.array ⟨1⟩] ∧ w'.heap.items ⟨1⟩ = [.string "a", .string "b"] := by
  have hs : ofName? "func_ass_rs" = some joining := by decide
  refine ⟨hs, ?_⟩
  obtain ⟨-, -, -, hrecording⟩ := adapter_keeps_convention hs
  obtain ⟨os, w', verdicts, entries, hrun, -, -, hitems, -⟩ :=
    hrecording (fun (a, b, ()) => a ++ b) (fun _ _ _ => none)
      [[.string "a", .string "b"], [.string "a", .undefined], []] ⟨⟨#[[]]⟩, #[], #[], 0⟩ ⟨0⟩
      (by decide) (by simp)
  have hos : os = [.ok (.string "ab"), .error (.wrongKind 1 .string .undefined),
      .error (.wrongCount 2 0)] := by
    cases hrun
    rfl
  subst hos
  refine ⟨w', hrun, ?_, ?_⟩
  · cases hrun
    rfl
  · cases hrun
    rfl

end Signature

end ScriptHost
