import ScriptHost.Heap
import ScriptHost.MessagePack
/-!
# Writing values out

The binary form of a value is written in one traversal of the heap. Every
array is put on a list while its elements are written and taken off it again,
also when one of them could not be written, and an array that is on the list
already is refused. The list goes on from one value to the next.
-/

namespace ScriptHost

/-- Something that is done while values are written, with the list of the arrays that are being
written, the innermost first. There is no answer if it never ends. -/
abbrev Writing : Type → Type :=
  StateT (List Ref) Option

namespace Heap

mutual

def serialize (h : Heap) (v : Value) : Writing (Except String (List UInt8)) :=
  match v with
  | .atom a => return .ok (MessagePack.atom a)
  | .array r => do
    let writing ← get
    if r ∈ writing then return .error MessagePack.cyclicMessage
    else
      set (r :: writing)
      let result ← h |>.serializeItems (h.items r)
      modify List.tail
      return result.map (MessagePack.arrayHeader (h.items r).length ++ ·)
  | .map m => do
    let result ← h |>.serializeEntries m.entries
    return result.map (MessagePack.mapHeader m.size ++ ·)
  | .error p => do
    let result ← h |>.serializeEntries [("error", p)]
    return result.map (MessagePack.mapHeader 1 ++ ·)
partial_fixpoint

/-- Writes one value after the other, up to the first that cannot be written. -/
def serializeItems (h : Heap) (vs : List Value) : Writing (Except String (List UInt8)) :=
  match vs with
  | [] => return .ok []
  | v :: vs => do
    match ← h |>.serialize v with
    | .error reason => return .error reason
    | .ok b =>
      let rest ← h |>.serializeItems vs
      return rest.map (b ++ ·)
partial_fixpoint

/-- Writes keys and values, up to the first value that cannot be written. -/
def serializeEntries (h : Heap) (es : List (String × Value)) :
    Writing (Except String (List UInt8)) :=
  match es with
  | [] => return .ok []
  | (k, v) :: es => do
    match ← h |>.serialize v with
    | .error reason => return .error reason
    | .ok b =>
      let rest ← h |>.serializeEntries es
      return rest.map ((MessagePack.text k ++ b) ++ ·)
partial_fixpoint

end

end Heap

end ScriptHost
