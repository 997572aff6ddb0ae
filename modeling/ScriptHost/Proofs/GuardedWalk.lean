import Mathlib.Data.Set.Card
import ScriptHost.Copy
import ScriptHost.Equality
import ScriptHost.Proofs.WrittenPieces
/-!
# Walks with a guard

A walk through values keeps a list of what it is inside of: the arrays that it
is showing, copying or writing, or the pairs of arrays that it is comparing. It
puts a key on the list before it looks at the elements of an array, and takes
it off after them. Here the walks change one list as they go and remember what
it has been at each moment, so that nothing but the list tells them where they
are.
-/

namespace ScriptHost

/-- Where a walk is and has been. -/
structure Trail (κ : Type) where
  /-- What the walk is inside of, the innermost first. -/
  inside : List κ
  /-- What it has been inside of at each moment up to now, the latest first. -/
  moments : List (List κ)

/-- Something that is done along a trail. There is no answer if it never ends. -/
abbrev Walk (κ : Type) : Type → Type :=
  StateT (Trail κ) Option

namespace Walk

variable {ι κ α β : Type}

def start (outer : List κ) : Trail κ :=
  ⟨outer, [outer]⟩

def inside : Walk κ (List κ) :=
  return (← get).inside

def moveTo (l : List κ) : Walk κ Unit :=
  modify fun t => ⟨l, l :: t.moments⟩

def enter (k : κ) : Walk κ Unit := do
  moveTo (k :: (← inside))

def leave : Walk κ Unit := do
  moveTo (← inside).tail

variable {key : κ → ι} {K K' : Set ι} {outer l : List κ} {k : κ} {x : Walk κ α}
  {f : α → Walk κ β} {a : α} {b : β}

/-- The list has further keys at its inner end, all of them in `K`, none twice and none that was
there already. -/
def Within (key : κ → ι) (K : Set ι) (outer l : List κ) : Prop :=
  ∃ inner, l = inner ++ outer ∧ (inner.map key).Nodup ∧
    ∀ k ∈ inner, key k ∈ K ∧ key k ∉ outer.map key

/-- The walk ends with a result and leaves the list as it was, and meanwhile there were only
keys in `K` on it beside those that were there already. -/
def Ends (key : κ → ι) (K : Set ι) (x : Walk κ α) (outer : List κ) (a : α) : Prop :=
  ∀ past, ∃ moments, x ⟨outer, past⟩ = some (a, ⟨outer, moments ++ past⟩) ∧
    ∀ l ∈ moments, Within key K outer l

theorem Within.refl (key : κ → ι) (K : Set ι) (outer : List κ) : Within key K outer outer :=
  ⟨[], rfl, .nil, fun _ hk => absurd hk List.not_mem_nil⟩

theorem Within.mono (hK : K ⊆ K') (hl : Within key K outer l) : Within key K' outer l := by
  obtain ⟨inner, heq, hnodup, hinner⟩ := hl
  exact ⟨inner, heq, hnodup, fun k hk => ⟨hK (hinner k hk).1, (hinner k hk).2⟩⟩

theorem Within.of_cons (hk : key k ∈ K) (hnew : key k ∉ outer.map key)
    (hl : Within key K (k :: outer) l) : Within key K outer l := by
  obtain ⟨inner, rfl, hnodup, hinner⟩ := hl
  refine ⟨inner ++ [k], by simp, ?_, ?_⟩
  · have hnot : key k ∉ inner.map key := by
      intro hmem
      obtain ⟨k', hk', heq⟩ := List.mem_map.1 hmem
      exact (hinner k' hk').2 (heq ▸ List.mem_cons_self)
    rw [List.map_append, List.nodup_append_comm]
    exact List.nodup_cons.2 ⟨hnot, hnodup⟩
  · intro k' hk'
    rcases List.mem_append.1 hk' with hk' | hk'
    · obtain ⟨hmem, hnot⟩ := hinner k' hk'
      exact ⟨hmem, fun hold => hnot (List.mem_cons_of_mem _ hold)⟩
    · obtain rfl := List.mem_singleton.1 hk'
      exact ⟨hk, hnew⟩

/-! ### Rules for walks -/

theorem Ends.pure (a : α) (outer : List κ) : Ends key K (pure a) outer a :=
  fun _ => ⟨[], rfl, fun _ hl => absurd hl List.not_mem_nil⟩

theorem Ends.bind (hx : Ends key K x outer a) (hf : Ends key K (f a) outer b) :
    Ends key K (x >>= f) outer b := by
  intro past
  obtain ⟨moments, hrun, hmoments⟩ := hx past
  obtain ⟨moments', hrun', hmoments'⟩ := hf (moments ++ past)
  refine ⟨moments' ++ moments, ?_, ?_⟩
  · change (x ⟨outer, past⟩).bind (fun p => f p.1 p.2) = _
    rw [hrun, Option.bind_some, hrun', List.append_assoc]
  · intro l hl
    exact (List.mem_append.1 hl).elim (hmoments' l) (hmoments l)

theorem Ends.map (g : α → β) (hx : Ends key K x outer a) :
    Ends key K (x >>= fun a => Pure.pure (g a)) outer (g a) :=
  hx.bind (.pure _ outer)

theorem Ends.mono (hK : K ⊆ K') (hx : Ends key K x outer a) : Ends key K' x outer a := by
  intro past
  obtain ⟨moments, hrun, hmoments⟩ := hx past
  exact ⟨moments, hrun, fun l hl => (hmoments l hl).mono hK⟩

theorem Ends.inside_bind {f : List κ → Walk κ β} (hf : Ends key K (f outer) outer b) :
    Ends key K (inside >>= f) outer b :=
  hf

/-- What is put on the list is taken off it again. -/
theorem Ends.enter (hx : Ends key K x (k :: outer) a) (hk : key k ∈ K)
    (hnew : key k ∉ outer.map key) (g : α → β) :
    Ends key K (do
      enter k
      let a ← x
      leave
      return g a) outer (g a) := by
  intro past
  obtain ⟨moments, hrun, hmoments⟩ := hx ((k :: outer) :: past)
  refine ⟨outer :: (moments ++ [k :: outer]), ?_, ?_⟩
  · change (x ⟨k :: outer, (k :: outer) :: past⟩).bind (fun p => some (g p.1,
      Trail.mk p.2.inside.tail (p.2.inside.tail :: p.2.moments))) = _
    rw [hrun, Option.bind_some]
    simp
  · intro l hl
    rcases List.mem_cons.1 hl with rfl | hl
    · exact .refl key K l
    · apply Within.of_cons hk hnew
      rcases List.mem_append.1 hl with hl | hl
      · exact hmoments l hl
      · obtain rfl := List.mem_singleton.1 hl
        exact .refl key K _

end Walk

namespace Heap

open Walk

variable {α : Type}

mutual

/-- Makes of a value what the algebra makes of its tree, without making the tree. -/
def walkFold (h : Heap) (f : Tree.Algebra α) (v : Value) : Walk Ref α :=
  match v with
  | .atom a => return f.atom a
  | .array r => do
    match (← Walk.inside).idxOf? r with
    | some up => return f.ancestor up
    | none =>
      enter r
      let parts ← h |>.walkFoldItems f (h.items r)
      leave
      return f.array parts
  | .map m => do
    let row ← h |>.walkFoldRow f m.row
    return f.map ⟨m.keys, m.sorted, row⟩
  | .error p => do
    let part ← h |>.walkFold f p
    return f.error part
partial_fixpoint

def walkFoldItems (h : Heap) (f : Tree.Algebra α) (vs : List Value) : Walk Ref (List α) :=
  match vs with
  | [] => return []
  | v :: vs => do
    let part ← h |>.walkFold f v
    let parts ← h |>.walkFoldItems f vs
    return part :: parts
partial_fixpoint

def walkFoldRow (h : Heap) (f : Tree.Algebra α) {keys : List String}
    (row : Dict.Row Value keys) : Walk Ref (Dict.Row α keys) :=
  match row with
  | .nil => return .nil
  | .cons k v rest => do
    let part ← h |>.walkFold f v
    let parts ← h |>.walkFoldRow f rest
    return .cons k part parts
partial_fixpoint

end

section Write

variable {ε σ : Type}

mutual

/-- Writes a value, up to the first piece that is refused. -/
def walkWrite (h : Heap) (put : Piece → σ → Except ε σ) (v : Value) (s : σ) :
    Walk Ref (Except ε σ) :=
  match v with
  | .atom a => return put (.atom a) s
  | .array r => do
    match put .beginArray s with
    | .error e => return .error e
    | .ok s =>
      match ← h |>.walkWriteItems put r s with
      | .error e => return .error e
      | .ok s => return put .endArray s
  | .map m => h |>.walkWriteParts put (Piece.entryParts m.entries) s
  | .error p => h |>.walkWriteParts put (Piece.payloadParts p) s
partial_fixpoint

/-- Writes the elements of an array. The array is left whether or not a piece was refused. -/
def walkWriteItems (h : Heap) (put : Piece → σ → Except ε σ) (r : Ref) (s : σ) :
    Walk Ref (Except ε σ) := do
  if r ∈ (← Walk.inside) then return put .ancestor s
  else
    enter r
    let result ← h |>.walkWriteParts put (Piece.itemParts (h.items r)) s
    leave
    return result
partial_fixpoint

def walkWriteParts (h : Heap) (put : Piece → σ → Except ε σ) (parts : List (Piece ⊕ Value))
    (s : σ) : Walk Ref (Except ε σ) :=
  match parts with
  | [] => return .ok s
  | .inl p :: parts =>
    match put p s with
    | .error e => return .error e
    | .ok s => h |>.walkWriteParts put parts s
  | .inr v :: parts => do
    match ← h |>.walkWrite put v s with
    | .error e => return .error e
    | .ok s => h |>.walkWriteParts put parts s
partial_fixpoint

end

/-- Writes a value in its binary form, up to the first array that it is inside of. -/
def walkSerialize (h : Heap) (v : Value) : Walk Ref (Except String (List UInt8)) :=
  h.walkWrite Piece.writeBytes v []

end Write

mutual

/-- Copies a value of the heap `old`, where the list has the arrays that are being copied, each with
its unfinished copy. -/
def walkCopy (old : Heap) (v : Value) (h : Heap) : Walk (Ref × Ref) (Value × Heap) :=
  match v with
  | .atom a => return (.atom a, h)
  | .array r => do
    match (← Walk.inside).lookup r with
    | some s => return (.array s, h)
    | none =>
      let (s, h) := h.alloc []
      enter (r, s)
      let (items, h) ← old |>.walkCopyItems (old.items r) h
      leave
      return (.array s, h.write s items)
  | .map m => do
    let (row, h) ← old |>.walkCopyRow m.row h
    return (.map ⟨m.keys, m.sorted, row⟩, h)
  | .error p => do
    let (p, h) ← old |>.walkCopy p h
    return (.error p, h)
partial_fixpoint

def walkCopyItems (old : Heap) (vs : List Value) (h : Heap) :
    Walk (Ref × Ref) (List Value × Heap) :=
  match vs with
  | [] => return ([], h)
  | v :: vs => do
    let (w, h) ← old |>.walkCopy v h
    let (ws, h) ← old |>.walkCopyItems vs h
    return (w :: ws, h)
partial_fixpoint

def walkCopyRow (old : Heap) {keys : List String} (row : Dict.Row Value keys) (h : Heap) :
    Walk (Ref × Ref) (Dict.Row Value keys × Heap) :=
  match row with
  | .nil => return (.nil, h)
  | .cons k v rest => do
    let (w, h) ← old |>.walkCopy v h
    let (ws, h) ← old |>.walkCopyRow rest h
    return (.cons k w ws, h)
partial_fixpoint

end

mutual

/-- Compares two values, where the list has the pairs of arrays that are being compared. It stops at
the first difference. -/
def walkEquals (h : Heap) (v w : Value) : Walk (Ref × Ref) Bool :=
  match v, w with
  | .atom a, .atom b => return a.equals b
  | .array r, .array s => do
    if r = s then return true
    else if (← Walk.inside).contains (r, s) then return true
    else if (h.items r).length ≠ (h.items s).length then return false
    else
      enter (r, s)
      let equal ← h |>.walkEqualsItems ((h.items r).zip (h.items s))
      leave
      return equal
  | .map m, .map n => do
    if m.size ≠ n.size then return false
    else h |>.walkEqualsEntries m.entries n
  | .error p, .error q => h |>.walkEquals p q
  | _, _ => return false
partial_fixpoint

def walkEqualsItems (h : Heap) (pairs : List (Value × Value)) : Walk (Ref × Ref) Bool :=
  match pairs with
  | [] => return true
  | (v, w) :: pairs => do
    if ← h |>.walkEquals v w then h |>.walkEqualsItems pairs
    else return false
partial_fixpoint

/-- Compares each entry with what the dictionary has under its key. -/
def walkEqualsEntries (h : Heap) (es : List (String × Value)) (n : Dict Value) :
    Walk (Ref × Ref) Bool :=
  match es with
  | [] => return true
  | (k, v) :: es => do
    match n.get? k with
    | none => return false
    | some w =>
      if ← h |>.walkEquals v w then h |>.walkEqualsEntries es n
      else return false
partial_fixpoint

end

end Heap

end ScriptHost
