import ScriptHost.Library.TextModule
import ScriptHost.Proofs.CallingConvention
/-!
# Calls of text functions

A function of the module `text` is called with script values and returns one.
A list of texts comes back as a new array of them, and an array of texts is
taken for the list.
-/

namespace ScriptHost

variable {handler : CallHandler} {args : List Value} {w : World}

theorem Signature.run_lift {s : Signature} {xs : Arguments s.params}
    (hxs : Arguments.Denotes w.heap s.params args xs)
    (f : Arguments s.params → s.returns.Carrier) :
    (s.lift f).run handler args w =
      ((s.returns.wrap (f xs)).run handler w).map fun p => (.ok p.1, p.2) := by
  rw [lift, run_adapt_of_accepted (.accepted hxs), Action.run_bind_of_eq rfl, Action.run_bind,
    Option.map_eq_bind]
  rfl

/-- The function that is declared under a name. -/
def declared? (name : String) : List Declaration → Option Callable
  | [] => none
  | .constant _ _ :: ds => declared? name ds
  | .function n c :: ds => if n = name then some c else declared? name ds

namespace Library.TextModule

/-- Calls the function of a name. -/
def call (handler : CallHandler) (name : String) (args : List Value) (w : World) :
    Option (Outcome × World) :=
  (declared? name members).bind fun c => c.run handler args w

/-- The call returns a new array of the texts and does nothing else. -/
structure ReturnsTexts (handler : CallHandler) (name : String) (args : List Value) (w : World)
    (texts : List String) (r : Ref) (h' : Heap) : Prop where
  call_eq : call handler name args w = some (.ok (.array r), { w with heap := h' })
  makes : w.heap.Makes h' [.array r]
  items_eq : h'.items r = texts.map .string

theorem call_lift {name : String} {s : Signature} {f : Arguments s.params → s.returns.Carrier}
    (hname : declared? name members = some (s.lift f)) {xs : Arguments s.params}
    (hxs : Arguments.Denotes w.heap s.params args xs) :
    call handler name args w =
      ((s.returns.wrap (f xs)).run handler w).map fun p => (.ok p.1, p.2) := by
  rw [call, hname, Option.bind_some, Signature.run_lift hxs]

theorem exists_returnsTexts (handler : CallHandler) {name : String} {params : List NativeType}
    {f : Arguments params → List String}
    (hname : declared? name members =
      some (Signature.lift ⟨params, .value (.native .strings)⟩ f))
    {xs : Arguments params} (hxs : Arguments.Denotes w.heap params args xs) :
    ∃ r h', ReturnsTexts handler name args w (f xs) r h' :=
  ⟨_, _, call_lift hname hxs, Heap.makes_alloc w.heap _, Heap.items_alloc_self w.heap _⟩

theorem exists_returnsTexts_split (handler : CallHandler) (w : World) (s sep : String) :
    ∃ r h', ReturnsTexts handler "split" [.string s, .string sep] w (split s sep) r h' := by
  have hname : declared? "split" members =
      some (Signature.lift ⟨[.string, .string], .value (.native .strings)⟩
        fun xs => split xs.1 xs.2.1) := by
    simp [declared?, members]
  have hxs : Arguments.Denotes w.heap [.string, .string] [.string s, .string sep] (s, sep, ()) :=
    ⟨rfl, rfl, trivial⟩
  have hreturns := exists_returnsTexts handler hname hxs
  exact hreturns

theorem exists_returnsTexts_splitN (handler : CallHandler) (w : World) (s sep : String)
    (n : Int64) :
    ∃ r h', ReturnsTexts handler "split_n" [.string s, .string sep, .int n] w
      (splitN s sep n) r h' := by
  have hname : declared? "split_n" members =
      some (Signature.lift ⟨[.string, .string, .int], .value (.native .strings)⟩
        fun xs => splitN xs.1 xs.2.1 xs.2.2.1) := by
    simp [declared?, members]
  have hxs : Arguments.Denotes w.heap [.string, .string, .int]
      [.string s, .string sep, .int n] (s, sep, n, ()) :=
    ⟨rfl, rfl, rfl, trivial⟩
  have hreturns := exists_returnsTexts handler hname hxs
  exact hreturns

theorem exists_returnsTexts_fields (handler : CallHandler) (w : World) (s : String) :
    ∃ r h', ReturnsTexts handler "fields" [.string s] w (fields s) r h' := by
  have hname : declared? "fields" members =
      some (Signature.lift ⟨[.string], .value (.native .strings)⟩ fun xs => fields xs.1) := by
    simp [declared?, members]
  have hxs : Arguments.Denotes w.heap [.string] [.string s] (s, ()) := ⟨rfl, trivial⟩
  have hreturns := exists_returnsTexts handler hname hxs
  exact hreturns

theorem call_join (handler : CallHandler) {r : Ref} {parts : List String}
    (hr : w.heap.items r = parts.map .string) (sep : String) :
    call handler "join" [.array r, .string sep] w = some (.ok (.string (join parts sep)), w) := by
  have hname : declared? "join" members =
      some (Signature.lift ⟨[.strings, .string], .value (.native .string)⟩
        fun xs => join xs.1 xs.2.1) := by
    simp [declared?, members]
  have hxs : Arguments.Denotes w.heap [.strings, .string] [.array r, .string sep]
      (parts, sep, ()) := ⟨⟨r, rfl, hr⟩, rfl, trivial⟩
  rw [call_lift hname hxs]
  rfl

theorem call_relation (handler : CallHandler) {name : String} {p : List Char → List Char → Bool}
    (hname : declared? name members = some (relation p)) (s t : String) (w : World) :
    call handler name [.string s, .string t] w =
      some (.ok (.bool (p s.toList t.toList)), w) := by
  have hxs : Arguments.Denotes w.heap [.string, .string] [.string s, .string t] (s, t, ()) :=
    ⟨rfl, rfl, trivial⟩
  exact call_lift hname hxs

/-- The function `repeat` takes its arguments by itself, and still runs as a function of its
signature does. -/
theorem run_repetition (handler : CallHandler) (args : List Value) (w : World) :
    repetition.run handler args w =
      (Signature.lift ⟨[.string, .int], .fallible (.native .string)⟩ fun xs =>
        (replicate xs.1 xs.2.1).mapError Failure.message).run handler args w := by
  match args with
  | [] | [_] | _ :: _ :: _ :: _ => rfl
  | [text, count] =>
    rw [Signature.lift, Signature.run_adapt, Signature.judge_of_length_eq rfl]
    change some _ = _
    cases hs : NativeType.string.extractArgument w.heap 0 text with
    | error reason => simp [Arguments.extract, hs, bind, Except.bind]
    | ok s =>
      cases hn : NativeType.int.extractArgument w.heap 1 count with
      | error reason => simp [Arguments.extract, hs, hn, bind, Except.bind]
      | ok n =>
        simp only [Arguments.extract, hs, hn, bind, Except.bind]
        cases replicate s n with
        | error e => rfl
        | ok t => rfl

theorem call_onText (handler : CallHandler) {name : String} {f : List Char → List Char}
    (hname : declared? name members = some (onText f)) (s : String) (w : World) :
    call handler name [.string s] w = some (.ok (.string (.ofList (f s.toList))), w) := by
  have hxs : Arguments.Denotes w.heap [.string] [.string s] (s, ()) := ⟨rfl, trivial⟩
  exact call_lift hname hxs

theorem call_index (handler : CallHandler) (s sub : String) (w : World) :
    call handler "index" [.string s, .string sub] w = some (.ok (.int (index s sub)), w) := by
  have hname : declared? "index" members =
      some (Signature.lift ⟨[.string, .string], .value (.native .int)⟩
        fun xs => index xs.1 xs.2.1) := by
    simp [declared?, members]
  have hxs : Arguments.Denotes w.heap [.string, .string] [.string s, .string sub] (s, sub, ()) :=
    ⟨rfl, rfl, trivial⟩
  exact call_lift hname hxs

end Library.TextModule

end ScriptHost
