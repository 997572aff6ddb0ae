import ScriptHost.Module
import ScriptHost.Signature
import ScriptHost.Text.LetterCase
import ScriptHost.Text.Quoted
import ScriptHost.Text.Reading
import ScriptHost.Text.Split
import ScriptHost.Text.Utf8
import ScriptHost.Text.Words
/-!
# The module `text`

Functions on texts. Positions in texts are counted in bytes.
-/

namespace ScriptHost.Library.TextModule

/-- The most bytes that `repeat` makes: `2 ^ 30` of them. -/
def byteLimit : Nat := 0x40000000

/-- What a function of the module can fail with. -/
inductive Failure where
  | invalidInteger (s : String)
  | invalidBool (s : String)
  | tooLong
deriving DecidableEq, Repr

def Failure.message : Failure → String
  | invalidInteger s => "invalid integer: " ++ Text.quote s
  | invalidBool s => "invalid bool: " ++ Text.quote s
  | tooLong => "string length exceeds limit of " ++ toString byteLimit ++ " bytes"

/-- Where one text occurs first in another, in bytes, and `-1` if it does not. A position is also
`-1` if 64 bits cannot hold it. -/
def index (s sub : String) : Int64 :=
  match Text.index? s.toList sub.toList with
  | some i => if i < 0x8000000000000000 then Int64.ofNat i else -1
  | none => -1

/-- The product of two numbers, if 64 bits can hold it. -/
def checkedMul? (m n : Nat) : Option Nat :=
  if m * n < 0x10000000000000000 then some (m * n) else none

/-- A text so many times over. A negative count is taken for zero. The bytes are counted before
the text is made. -/
def replicate (s : String) (n : Int64) : Except Failure String :=
  let count := n.toInt.toNat
  match checkedMul? s.utf8ByteSize count with
  | some size =>
    if size ≤ byteLimit then
      .ok (if s.isEmpty then "" else String.join (List.replicate count s))
    else .error .tooLong
  | none => .error .tooLong

def split (s sep : String) : List String :=
  (Text.split s.toList sep.toList).map String.ofList

/-- At most `n` pieces of a text around a separator, and all of them if `n` is negative. -/
def splitN (s sep : String) (n : Int64) : List String :=
  if n < 0 then split s sep
  else (Text.splitN s.toList sep.toList n.toInt.toNat).map String.ofList

def fields (s : String) : List String :=
  (Text.words s.toList).map String.ofList

def join (parts : List String) (sep : String) : String :=
  String.ofList (Text.join (parts.map String.toList) sep.toList)

def formatInt (n : Int64) : String :=
  toString n.toInt

def readInt (s : String) : Except Failure Int64 :=
  match Text.int64? s with
  | some n => .ok n
  | none => .error (.invalidInteger s)

def readBool (s : String) : Except Failure Bool :=
  match Text.bool? s with
  | some b => .ok b
  | none => .error (.invalidBool s)

def relation (p : List Char → List Char → Bool) : Callable :=
  Signature.lift ⟨[.string, .string], .value (.native .bool)⟩ fun (s, t, ()) =>
    p s.toList t.toList

def onText (f : List Char → List Char) : Callable :=
  Signature.lift ⟨[.string], .value (.native .string)⟩ fun (s, ()) => .ofList (f s.toList)

/-- `repeat` takes its two arguments by itself, so that the limit is checked before anything is
made. No other number of arguments gets past its arity. -/
def repetition : Callable :=
  .native (.exact 2) fun
    | [text, count] => do
      let h ← Action.getHeap
      return do
        let s ← NativeType.string.extractArgument h 0 text
        let n ← NativeType.int.extractArgument h 1 count
        match replicate s n with
        | .ok t => return .string t
        | .error e => return .failure e.message
    | args => return .error (.wrongCount 2 args.length)

def members : List Declaration :=
  [.function "contains" (relation Text.contains),
    .function "has_prefix" (relation fun s t => t.isPrefixOf s),
    .function "has_suffix" (relation fun s t => t.isSuffixOf s),
    .function "index"
      (Signature.lift ⟨[.string, .string], .value (.native .int)⟩ fun (s, t, ()) => index s t),
    .function "repeat" repetition,
    .function "split"
      (Signature.lift ⟨[.string, .string], .value (.native .strings)⟩ fun (s, t, ()) => split s t),
    .function "split_n"
      (Signature.lift ⟨[.string, .string, .int], .value (.native .strings)⟩ fun (s, t, n, ()) =>
        splitN s t n),
    .function "fields"
      (Signature.lift ⟨[.string], .value (.native .strings)⟩ fun (s, ()) => fields s),
    .function "join"
      (Signature.lift ⟨[.strings, .string], .value (.native .string)⟩ fun (l, t, ()) => join l t),
    .function "to_upper" (onText Text.toUpper),
    .function "to_lower" (onText Text.toLower),
    .function "trim_space" (onText Text.trim),
    .function "format_int"
      (Signature.lift ⟨[.int], .value (.native .string)⟩ fun (n, ()) => formatInt n),
    .function "atoi"
      (Signature.lift ⟨[.string], .fallible (.native .int)⟩ fun (s, ()) =>
        (readInt s).mapError Failure.message),
    .function "parse_bool"
      (Signature.lift ⟨[.string], .fallible (.native .bool)⟩ fun (s, ()) =>
        (readBool s).mapError Failure.message),
    .function "from_bytes"
      (Signature.lift ⟨[.bytes], .value (.native .string)⟩ fun (b, ()) => Text.ofBytes b)]

end ScriptHost.Library.TextModule
