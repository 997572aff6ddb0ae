import Mathlib.Algebra.Order.Ring.Int
import ScriptHost.Proofs.TextFunctions
/-!
# Repeating texts

A text is repeated if the copies together have no more bytes than the limit
allows, by their exact number, and is answered by an error value otherwise.
The function checks its arguments by itself and rejects the same calls, for
the same reasons, as any host function of a text and an integer.
-/

namespace ScriptHost.Library.TextModule

/-- So many copies of a text, one behind the other. -/
inductive Copies (s : String) : Nat → String → Prop where
  | none : Copies s 0 ""
  | more {m : Nat} {t : String} (ht : Copies s m t) : Copies s (m + 1) (s ++ t)

variable {s t : String} {n : Int64} {m : Nat}

theorem Copies.utf8ByteSize_eq (ht : Copies s m t) : t.utf8ByteSize = s.utf8ByteSize * m := by
  induction ht with
  | none => rfl
  | more ht ih => rw [String.utf8ByteSize_append, ih, Nat.mul_succ, Nat.add_comm]

theorem copies_join_replicate (s : String) (m : Nat) :
    Copies s m (String.join (List.replicate m s)) := by
  induction m with
  | zero => exact .none
  | succ m ih =>
    rw [List.replicate_succ, String.join_cons]
    exact ih.more

theorem copies_empty (m : Nat) : Copies "" m "" := by
  induction m with
  | zero => exact .none
  | succ m ih => exact ih.more

/-! ### The limit -/

/-- A product that 64 bits cannot hold is above the limit as well. -/
theorem replicate_eq (s : String) (n : Int64) :
    replicate s n =
      if s.utf8ByteSize * n.toInt.toNat ≤ byteLimit then
        .ok (if s.isEmpty then "" else String.join (List.replicate n.toInt.toNat s))
      else .error .tooLong := by
  by_cases hfits : s.utf8ByteSize * n.toInt.toNat < 0x10000000000000000
  · simp only [replicate, checkedMul?, if_pos hfits]
  · have hlimit : ¬ s.utf8ByteSize * n.toInt.toNat ≤ byteLimit := by
      rw [byteLimit]
      omega
    simp only [replicate, checkedMul?, if_neg hfits, if_neg hlimit]

theorem exists_replicate_eq_ok (hsize : s.utf8ByteSize * n.toInt.toNat ≤ byteLimit) :
    ∃ t, replicate s n = .ok t ∧ Copies s n.toInt.toNat t := by
  rw [replicate_eq, if_pos hsize]
  refine ⟨_, rfl, ?_⟩
  split
  · next hs =>
    obtain rfl := String.isEmpty_iff.1 hs
    exact copies_empty _
  · exact copies_join_replicate s _

theorem replicate_eq_error (hsize : ¬ s.utf8ByteSize * n.toInt.toNat ≤ byteLimit) :
    replicate s n = .error .tooLong := by
  rw [replicate_eq, if_neg hsize]

/-- The product of these counts is `2 ^ 64`, which 64 bits would take for zero. -/
example : replicate "ab" Int64.maxValue = .error .tooLong ∧
    replicate "abcdefgh" 0x2000000000000000 = .error .tooLong ∧ replicate "ab" (-1) = .ok "" := by
  decide

/-! ### Calls -/

variable {handler : CallHandler} {args : List Value} {w : World}

theorem call_repeat_eq_run (handler : CallHandler) (args : List Value) (w : World) :
    call handler "repeat" args w = repetition.run handler args w := by
  simp [call, declared?, members]

theorem call_repeat (handler : CallHandler) (s : String) (n : Int64) (w : World) :
    call handler "repeat" [.string s, .int n] w =
      some (.ok (match replicate s n with
        | .ok t => .string t
        | .error e => .failure e.message), w) := by
  have hxs : Arguments.Denotes w.heap [.string, .int] [.string s, .int n] (s, n, ()) :=
    ⟨rfl, rfl, trivial⟩
  rw [call_repeat_eq_run, run_repetition, Signature.run_lift hxs]
  cases replicate s n with
  | ok t => rfl
  | error e => rfl

/-- Whether and why a call is rejected depends on the parameters alone. -/
theorem call_repeat_eq_error_iff {reason : Rejection} {returns : ReturnShape}
    (f : Signature.HostFunction ⟨[.string, .int], returns⟩) :
    call handler "repeat" args w = some (.error reason, w) ↔
      (Signature.adapt ⟨[.string, .int], returns⟩ f).run handler args w =
        some (.error reason, w) := by
  rw [call_repeat_eq_run, run_repetition, Signature.lift, Signature.run_adapt_eq_error_iff,
    Signature.run_adapt_eq_error_iff]
  exact Iff.rfl

theorem rejected_or_eq_pair (handler : CallHandler) (args : List Value) (w : World) :
    (∃ reason, call handler "repeat" args w = some (.error reason, w)) ∨
      ∃ s n, args = [.string s, .int n] := by
  rw [call_repeat_eq_run, run_repetition]
  obtain ⟨verdict, hverdict, -⟩ := Signature.existsUnique_verdict
    ⟨[.string, .int], .fallible (.native .string)⟩ w.heap args
  cases hverdict with
  | wrongCount hne => exact .inl ⟨_, Signature.run_adapt_of_rejected (.wrongCount hne)⟩
  | wrongKind hlen hfirst =>
    exact .inl ⟨_, Signature.run_adapt_of_rejected (.wrongKind hlen hfirst)⟩
  | @accepted xs hxs =>
    obtain ⟨s, n, ⟨⟩⟩ := xs
    match args, hxs with
    | [_, _], ⟨rfl, rfl, _⟩ => exact .inr ⟨s, n, rfl⟩

/-- The function `repeat` rejects a call if and only if a host function of a text and an integer
does, whatever that returns, and for the same reason. Otherwise the exact number of bytes of all
copies decides whether they are made or an error value is returned. -/
theorem repeat_honours_limit (handler : CallHandler) (w : World) :
    (∀ args, (∃ reason, call handler "repeat" args w = some (.error reason, w)) ∨
      ∃ s n, args = [.string s, .int n]) ∧
    (∀ args reason returns (f : Signature.HostFunction ⟨[.string, .int], returns⟩),
      call handler "repeat" args w = some (.error reason, w) ↔
        (Signature.adapt ⟨[.string, .int], returns⟩ f).run handler args w =
          some (.error reason, w)) ∧
    ∀ s n, ∃ m : Nat, (m : Int) = max n.toInt 0 ∧
      if s.utf8ByteSize * m ≤ 2 ^ 30 then
        ∃ t, call handler "repeat" [.string s, .int n] w = some (.ok (.string t), w) ∧
          Copies s m t ∧ t.utf8ByteSize = s.utf8ByteSize * m
      else
        call handler "repeat" [.string s, .int n] w =
          some (.ok (.error (.string "string length exceeds limit of 1073741824 bytes")), w) := by
  refine ⟨fun args => rejected_or_eq_pair handler args w,
    fun args reason returns f => call_repeat_eq_error_iff f,
    fun s n => ⟨n.toInt.toNat, Int.toNat_eq_max n.toInt, ?_⟩⟩
  have hlimit : byteLimit = 2 ^ 30 := rfl
  rw [call_repeat, ← hlimit]
  split
  · next hsize =>
    obtain ⟨t, ht, hcopies⟩ := exists_replicate_eq_ok hsize
    exact ⟨t, by rw [ht], hcopies, hcopies.utf8ByteSize_eq⟩
  · next hsize =>
    have hmessage : Failure.tooLong.message =
        "string length exceeds limit of 1073741824 bytes" := by decide
    simp only [replicate_eq_error hsize, hmessage, Value.failure]

end ScriptHost.Library.TextModule
