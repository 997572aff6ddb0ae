import Mathlib.Logic.ExistsUnique
import ScriptHost.Proofs.NativeValues
/-!
# The calling convention of adapted host functions

Of every list of arguments exactly one thing is true: their number is wrong, or
one of them is the first that does not fit its parameter, or they stand for
native arguments. In the last case the host function runs, once and on these
arguments, and what it hands back is wrapped. Otherwise the call is rejected
and nothing happens.
-/

namespace ScriptHost

/-- The argument at a position is the first that stands for no value of the type there. -/
structure FirstMismatch (h : Heap) (ts : List NativeType) (vs : List Value) (i : Nat)
    (t : NativeType) (v : Value) : Prop where
  param : ts[i]? = some t
  arg : vs[i]? = some v
  mismatch : ∀ x, ¬ t.Denotes h v x
  before : ∀ j < i, ∀ u w, ts[j]? = some u → vs[j]? = some w → ∃ x, u.Denotes h w x

/-- What the calling convention says of a list of arguments. -/
inductive Signature.Verdict (s : Signature) (h : Heap) (args : List Value) :
    Except Rejection (Arguments s.params) → Prop where
  | wrongCount (hne : args.length ≠ s.params.length) :
    Verdict s h args (.error (.wrongCount s.params.length args.length))
  | wrongKind {i : Nat} {t : NativeType} {v : Value} (hlen : args.length = s.params.length)
    (hfirst : FirstMismatch h s.params args i t v) :
    Verdict s h args (.error (.wrongKind i t.kind v.kind))
  | accepted {xs : Arguments s.params} (hxs : Arguments.Denotes h s.params args xs) :
    Verdict s h args (.ok xs)

variable {h h' : Heap} {t : NativeType} {ts : List NativeType} {v : Value} {vs : List Value}

/-! ### Arguments from left to right -/

theorem FirstMismatch.head (hv : ∀ x, ¬ t.Denotes h v x) :
    FirstMismatch h (t :: ts) (v :: vs) 0 t v where
  param := rfl
  arg := rfl
  mismatch := hv
  before j hj := absurd hj (Nat.not_lt_zero j)

theorem FirstMismatch.tail {i : Nat} {u : NativeType} {w : Value} (hv : ∃ x, t.Denotes h v x)
    (hrest : FirstMismatch h ts vs i u w) : FirstMismatch h (t :: ts) (v :: vs) (i + 1) u w where
  param := hrest.param
  arg := hrest.arg
  mismatch := hrest.mismatch
  before j hj u w hu hw := by
    cases j with
    | zero =>
      cases hu
      cases hw
      exact hv
    | succ j => exact hrest.before j (Nat.lt_of_succ_lt_succ hj) u w hu hw

theorem FirstMismatch.of_tail {i : Nat} {u : NativeType} {w : Value}
    (hfirst : FirstMismatch h (t :: ts) (v :: vs) (i + 1) u w) : FirstMismatch h ts vs i u w where
  param := hfirst.param
  arg := hfirst.arg
  mismatch := hfirst.mismatch
  before j hj := hfirst.before (j + 1) (Nat.succ_lt_succ hj)

theorem FirstMismatch.keep {i : Nat} (hfirst : FirstMismatch h ts vs i t v)
    (hvs : h.Keeps h' vs) : FirstMismatch h' ts vs i t v where
  param := hfirst.param
  arg := hfirst.arg
  mismatch x hx := by
    have hv : h.Keeps h' [v] := hvs.of_mem (List.mem_of_getElem? hfirst.arg)
    exact hfirst.mismatch x (hx.keep hv.symm)
  before j hj u w hu hw := by
    obtain ⟨x, hx⟩ := hfirst.before j hj u w hu hw
    exact ⟨x, hx.keep (hvs.of_mem (List.mem_of_getElem? hw))⟩

namespace Arguments

theorem Denotes.length_eq {xs : Arguments ts} (hxs : Arguments.Denotes h ts vs xs) :
    vs.length = ts.length := by
  induction ts generalizing vs with
  | nil =>
    cases vs with
    | nil => rfl
    | cons v vs => exact hxs.elim
  | cons t ts ih =>
    cases vs with
    | nil => exact hxs.elim
    | cons v vs => exact congrArg Nat.succ (ih hxs.2)

theorem extract_of_denotes {xs : Arguments ts} (hxs : Arguments.Denotes h ts vs xs)
    (position : Nat) : extract h position ts vs = .ok xs := by
  induction ts generalizing vs position with
  | nil => rfl
  | cons t ts ih =>
    cases vs with
    | nil => exact hxs.elim
    | cons v vs =>
      obtain ⟨x, xs⟩ := xs
      obtain ⟨hx, hrest⟩ := hxs
      simp only [extract, NativeType.extractArgument, NativeType.extract?_eq_some_iff.2 hx,
        ih hrest]

theorem extract_of_firstMismatch {i : Nat} (hfirst : FirstMismatch h ts vs i t v)
    (position : Nat) :
    extract h position ts vs = .error (.wrongKind (position + i) t.kind v.kind) := by
  induction ts generalizing vs i position with
  | nil => cases hfirst.param
  | cons u ts ih =>
    cases vs with
    | nil => cases hfirst.arg
    | cons w vs =>
      cases i with
      | zero =>
        cases hfirst.param
        cases hfirst.arg
        simp only [extract, NativeType.extractArgument,
          NativeType.extract?_eq_none_iff.2 hfirst.mismatch, Nat.add_zero]
      | succ i =>
        -- The argument here fits, and the next ones are counted from one position on.
        obtain ⟨x, hx⟩ := hfirst.before 0 (Nat.succ_pos i) u w rfl rfl
        simp only [extract, NativeType.extractArgument, NativeType.extract?_eq_some_iff.2 hx,
          ih hfirst.of_tail, Nat.add_assoc, Nat.add_comm 1 i]

theorem denotes_or_firstMismatch (h : Heap) (hlen : vs.length = ts.length) :
    (∃ xs, Arguments.Denotes h ts vs xs) ∨ ∃ i t v, FirstMismatch h ts vs i t v := by
  induction ts generalizing vs with
  | nil =>
    cases List.length_eq_zero_iff.1 hlen
    exact .inl ⟨(), trivial⟩
  | cons t ts ih =>
    cases vs with
    | nil => cases hlen
    | cons v vs =>
      by_cases hv : ∃ x, t.Denotes h v x
      · obtain ⟨xs, hxs⟩ | ⟨i, u, w, hfirst⟩ := ih (Nat.succ.inj hlen)
        · obtain ⟨x, hx⟩ := hv
          exact .inl ⟨(x, xs), hx, hxs⟩
        · exact .inr ⟨i + 1, u, w, hfirst.tail hv⟩
      · exact .inr ⟨0, t, v, .head (not_exists.1 hv)⟩

end Arguments

namespace Signature

variable {s : Signature} {f : s.HostFunction} {handler : CallHandler} {args : List Value}
  {w w' : World}

/-- What the calling convention says, computed. -/
def judge (s : Signature) (h : Heap) (args : List Value) : Except Rejection (Arguments s.params) :=
  if args.length ≠ s.params.length then
    .error (.wrongCount s.params.length args.length)
  else Arguments.extract h 0 s.params args

theorem judge_of_length_eq (hlen : args.length = s.params.length) :
    s.judge h args = Arguments.extract h 0 s.params args :=
  if_neg fun hne => hne hlen

theorem verdict_iff {verdict : Except Rejection (Arguments s.params)} :
    s.Verdict h args verdict ↔ s.judge h args = verdict := by
  constructor
  · intro hverdict
    cases hverdict with
    | wrongCount hne => exact if_pos hne
    | wrongKind hlen hfirst =>
      rw [judge_of_length_eq hlen, Arguments.extract_of_firstMismatch hfirst, Nat.zero_add]
    | accepted hxs =>
      rw [judge_of_length_eq hxs.length_eq, Arguments.extract_of_denotes hxs]
  · rintro rfl
    by_cases hlen : args.length = s.params.length
    · obtain ⟨xs, hxs⟩ | ⟨i, t, v, hfirst⟩ := Arguments.denotes_or_firstMismatch h hlen
      · rw [judge_of_length_eq hlen, Arguments.extract_of_denotes hxs]
        exact .accepted hxs
      · rw [judge_of_length_eq hlen, Arguments.extract_of_firstMismatch hfirst,
          Nat.zero_add]
        exact .wrongKind hlen hfirst
    · rw [judge, if_pos hlen]
      exact .wrongCount hlen

-- A list of texts is made from an array, but not from one that has something else in it.
example : (⟨[.strings], .unit⟩ : Signature).judge ⟨#[[.string "a", .undefined]]⟩ [.array ⟨0⟩] =
    .error (.wrongKind 0 .array .array) := by
  rfl

theorem existsUnique_verdict (s : Signature) (h : Heap) (args : List Value) :
    ∃! verdict, s.Verdict h args verdict := by
  refine ⟨s.judge h args, verdict_iff.2 rfl, ?_⟩
  intro verdict hverdict
  exact (verdict_iff.1 hverdict).symm

theorem Verdict.keep {verdict : Except Rejection (Arguments s.params)}
    (hverdict : s.Verdict h args verdict) (hargs : h.Keeps h' args) :
    s.Verdict h' args verdict := by
  cases hverdict with
  | wrongCount hne => exact .wrongCount hne
  | wrongKind hlen hfirst => exact .wrongKind hlen (hfirst.keep hargs)
  | accepted hxs => exact .accepted (hxs.keep hargs)

/-! ### One call -/

theorem run_adapt (s : Signature) (f : s.HostFunction) (args : List Value) (w : World) :
    (s.adapt f).run handler args w =
      match s.judge w.heap args with
      | .error reason => some (.error reason, w)
      | .ok xs =>
        ((f xs).bind fun x => (s.returns.wrap x).bind fun v => .done (.ok v)).run handler w := by
  by_cases hlen : args.length = s.params.length
  · -- The arity has let the arguments through, so the body's own check of their number holds.
    have haccepts : s.arity.accepts args.length = true := by
      simp [arity, hlen]
    rw [judge_of_length_eq hlen, adapt, Callable.run, if_pos haccepts, if_neg fun hne => hne hlen]
    change Action.run handler (match Arguments.extract w.heap 0 s.params args with
      | .error reason => _
      | .ok xs => _) w = _
    cases Arguments.extract w.heap 0 s.params args with
    | error reason => rfl
    | ok xs => rfl
  · have haccepts : ¬ s.arity.accepts args.length = true := by
      simp [arity, hlen]
    rw [judge, if_pos hlen, adapt, Callable.run, if_neg haccepts]
    rfl

theorem run_adapt_of_rejected {reason : Rejection}
    (hverdict : s.Verdict w.heap args (.error reason)) :
    (s.adapt f).run handler args w = some (.error reason, w) := by
  rw [run_adapt, verdict_iff.1 hverdict]

theorem run_adapt_of_accepted {xs : Arguments s.params}
    (hverdict : s.Verdict w.heap args (.ok xs)) :
    (s.adapt f).run handler args w =
      ((f xs).bind fun x => (s.returns.wrap x).bind fun v => .done (.ok v)).run handler w := by
  rw [run_adapt, verdict_iff.1 hverdict]

theorem run_adapt_of_host {xs : Arguments s.params} {x : s.returns.Carrier} {v : Value}
    {w₁ w₂ : World} (hverdict : s.Verdict w.heap args (.ok xs))
    (hhost : (f xs).run handler w = some (x, w₁))
    (hwrap : (s.returns.wrap x).run handler w₁ = some (v, w₂)) :
    (s.adapt f).run handler args w = some (.ok v, w₂) := by
  rw [run_adapt_of_accepted hverdict, Action.run_bind_of_eq hhost, Action.run_bind_of_eq hwrap]
  rfl

/-- All that a call can be: it is rejected and nothing happens, or the host function runs and what
it hands back is wrapped. -/
theorem run_adapt_eq_some {o : Outcome} (hrun : (s.adapt f).run handler args w = some (o, w')) :
    (∃ reason, s.Verdict w.heap args (.error reason) ∧ o = .error reason ∧ w' = w) ∨
      ∃ xs x w₁ v h', s.Verdict w.heap args (.ok xs) ∧ (f xs).run handler w = some (x, w₁) ∧
        (s.returns.wrap x).run handler w₁ = some (v, { w₁ with heap := h' }) ∧
        w₁.heap.Makes h' [v] ∧ s.returns.Denotes h' v x ∧
        o = .ok v ∧ w' = { w₁ with heap := h' } := by
  obtain ⟨verdict, hverdict, -⟩ := s.existsUnique_verdict w.heap args
  cases verdict with
  | error reason =>
    rw [run_adapt_of_rejected hverdict] at hrun
    cases hrun
    exact .inl ⟨reason, hverdict, rfl, rfl⟩
  | ok xs =>
    cases hhost : (f xs).run handler w with
    | none =>
      rw [run_adapt_of_accepted hverdict, Action.run_bind, hhost] at hrun
      cases hrun
    | some p =>
      obtain ⟨x, w₁⟩ := p
      obtain ⟨v, h', hwrap, hmakes, hresult⟩ := s.returns.run_wrap handler x w₁
      rw [run_adapt_of_host hverdict hhost hwrap] at hrun
      cases hrun
      exact .inr ⟨xs, x, w₁, v, h', hverdict, hhost, hwrap, hmakes, hresult, rfl, rfl⟩

theorem run_adapt_eq_error_iff {reason : Rejection} :
    (s.adapt f).run handler args w = some (.error reason, w) ↔
      s.judge w.heap args = .error reason := by
  constructor
  · intro hrun
    obtain ⟨reason', hverdict, heq, -⟩ | ⟨xs, x, w₁, v, h', -, -, -, -, -, heq, -⟩ :=
      run_adapt_eq_some hrun
    · cases heq
      exact verdict_iff.1 hverdict
    · cases heq
  · intro hjudge
    exact run_adapt_of_rejected (verdict_iff.2 hjudge)

end Signature

/-! ### A run of calls -/

/-- Calls a callable with one list of arguments after the other. -/
def Callable.runEach (handler : CallHandler) (c : Callable) :
    List (List Value) → World → Option (List Outcome × World)
  | [], w => some ([], w)
  | args :: calls, w =>
    match c.run handler args w with
    | some (o, w) => (c.runEach handler calls w).map fun p => (o :: p.1, p.2)
    | none => none

/-- A run of calls as the calling convention has it. The log lists the native arguments with which
the host function ran, in the order in which it ran. -/
inductive Signature.Serves (s : Signature) (handler : CallHandler) (f : s.HostFunction) :
    World → List (List Value) → List (Arguments s.params) → List Outcome → World → Prop where
  | nil {w : World} : Serves s handler f w [] [] [] w
  | rejected {w w' : World} {args : List Value} {calls : List (List Value)} {reason : Rejection}
    {log : List (Arguments s.params)} {os : List Outcome}
    (hverdict : s.Verdict w.heap args (.error reason))
    (hrest : Serves s handler f w calls log os w') :
    Serves s handler f w (args :: calls) log (.error reason :: os) w'
  | accepted {w w₁ w₂ w' : World} {args : List Value} {calls : List (List Value)}
    {xs : Arguments s.params} {x : s.returns.Carrier} {v : Value}
    {log : List (Arguments s.params)} {os : List Outcome}
    (hverdict : s.Verdict w.heap args (.ok xs))
    (hhost : (f xs).run handler w = some (x, w₁))
    (hwrap : (s.returns.wrap x).run handler w₁ = some (v, w₂))
    (hresult : s.returns.Denotes w₂.heap v x) (hrest : Serves s handler f w₂ calls log os w') :
    Serves s handler f w (args :: calls) (xs :: log) (.ok v :: os) w'

theorem Callable.runEach_cons_of_eq {handler : CallHandler} {c : Callable} {args : List Value}
    {o : Outcome} {w w₁ : World} (hrun : c.run handler args w = some (o, w₁))
    (calls : List (List Value)) :
    c.runEach handler (args :: calls) w =
      (c.runEach handler calls w₁).map fun p => (o :: p.1, p.2) := by
  rw [runEach, hrun]

namespace Signature

variable {s : Signature} {f : s.HostFunction} {handler : CallHandler} {w w' : World}
  {calls : List (List Value)} {os : List Outcome}

theorem Serves.runEach_eq {log : List (Arguments s.params)}
    (hserves : s.Serves handler f w calls log os w') :
    (s.adapt f).runEach handler calls w = some (os, w') := by
  induction hserves with
  | nil => rfl
  | rejected hverdict hrest ih =>
    rw [Callable.runEach_cons_of_eq (run_adapt_of_rejected hverdict), ih]
    rfl
  | @accepted w w₁ w₂ w' args calls xs x v log os hverdict hhost hwrap hresult hrest ih =>
    rw [Callable.runEach_cons_of_eq (run_adapt_of_host hverdict hhost hwrap), ih]
    rfl

theorem exists_serves (hrun : (s.adapt f).runEach handler calls w = some (os, w')) :
    ∃ log, s.Serves handler f w calls log os w' := by
  induction calls generalizing w os with
  | nil =>
    cases hrun
    exact ⟨[], .nil⟩
  | cons args calls ih =>
    rw [Callable.runEach] at hrun
    split at hrun
    · next o w₁ hcall =>
      obtain ⟨⟨rest, w₂⟩, hrest, heq⟩ := Option.map_eq_some_iff.1 hrun
      cases heq
      obtain ⟨log, hserves⟩ := ih hrest
      obtain ⟨reason, hverdict, rfl, rfl⟩ |
        ⟨xs, x, w₁, v, h₂, hverdict, hhost, hwrap, -, hresult, rfl, rfl⟩ :=
          run_adapt_eq_some hcall
      · exact ⟨log, .rejected hverdict hserves⟩
      · exact ⟨xs :: log, .accepted hverdict hhost hwrap hresult hserves⟩
    · cases hrun

end Signature

end ScriptHost
