import ScriptHost.Heap
import ScriptHost.Rejection
/-!
# Actions of host functions

What a function of the host does when a script calls it. It computes with
values, it may read, make and change arrays, and it may call other callables.
An action is data: it says what is to be done, and a world carries it out.
-/

namespace ScriptHost

/-- What comes of a call: a value, or the reason why the call was rejected. -/
abbrev Outcome : Type :=
  Except Rejection Value

/-- Something to do that ends with an `α`. -/
inductive Action (α : Type) where
  | done (a : α)
  | read (next : Heap → Action α)
  | alloc (items : List Value) (next : Ref → Action α)
  | push (r : Ref) (v : Value) (next : Action α)
  /-- Replace an element of an array, and learn whether there was one. -/
  | set (r : Ref) (i : Nat) (v : Value) (next : Bool → Action α)
  | call (f : Builtin) (args : List Value) (next : Outcome → Action α)

namespace Action

variable {α β γ : Type}

def bind : Action α → (α → Action β) → Action β
  | done a, f => f a
  | read next, f => read fun h => (next h).bind f
  | alloc items next, f => alloc items fun r => (next r).bind f
  | push r v next, f => push r v (next.bind f)
  | set r i v next, f => set r i v fun b => (next b).bind f
  | call g args next, f => call g args fun o => (next o).bind f

instance : Monad Action where
  pure := done
  bind := bind

@[simp] theorem bind_done (a : Action α) : a.bind done = a := by
  induction a with
  | done a => rfl
  | read next ih => exact congrArg read (funext ih)
  | alloc items next ih => exact congrArg (alloc items) (funext ih)
  | push r v next ih => exact congrArg (push r v) ih
  | set r i v next ih => exact congrArg (set r i v) (funext ih)
  | call f args next ih => exact congrArg (call f args) (funext ih)

theorem bind_assoc (a : Action α) (f : α → Action β) (g : β → Action γ) :
    (a.bind f).bind g = a.bind fun x => (f x).bind g := by
  induction a with
  | done a => rfl
  | read next ih => exact congrArg read (funext ih)
  | alloc items next ih => exact congrArg (alloc items) (funext ih)
  | push r v next ih => exact congrArg (push r v) ih
  | set r i v next ih => exact congrArg (set r i v) (funext ih)
  | call f args next ih => exact congrArg (call f args) (funext ih)

instance : LawfulMonad Action :=
  LawfulMonad.mk' Action bind_done (fun _ _ => rfl) bind_assoc

def getHeap : Action Heap :=
  read done

def newArray (items : List Value) : Action Value :=
  alloc items fun r => done (.array r)

end Action

end ScriptHost
