import ScriptHost.Proofs.Extension
import ScriptHost.Signature
import ScriptHost.World
/-!
# What script values stand for

A script value stands for at most one native value of a type. Extraction finds
it, and wrapping makes a value that stands for it. All that a value stands for
is seen in the value and in the elements of its array, if it is one.
-/

namespace ScriptHost

/-- The script value stands for the native value. -/
def NativeType.Denotes (h : Heap) : (t : NativeType) → Value → t.Carrier → Prop
  | int, v, n => v = .int n
  | float, v, x => v = .float x
  | string, v, s => v = .string s
  | bool, v, b => v = .bool b
  | bytes, v, b => v = .bytes b
  | strings, v, l => ∃ r, v = .array r ∧ h.items r = l.map .string

def ResultType.Denotes (h : Heap) : (t : ResultType) → Value → t.Carrier → Prop
  | native t, v, x => t.Denotes h v x
  | ints, v, l => ∃ r, v = .array r ∧ h.items r = l.map .int

/-- The script value stands for what a host function handed back. -/
def ReturnShape.Denotes (h : Heap) : (s : ReturnShape) → Value → s.Carrier → Prop
  | unit, v, () => v = .undefined
  | value t, v, x => t.Denotes h v x
  | status, v, .ok () => v = .bool true
  | status, v, .error message => v = .failure message
  | fallible t, v, .ok x => t.Denotes h v x
  | fallible _, v, .error message => v = .failure message

/-- The script values stand for the native arguments, each for the one in its position. -/
def Arguments.Denotes (h : Heap) : (ts : List NativeType) → List Value → Arguments ts → Prop
  | [], [], () => True
  | t :: ts, v :: vs, (x, xs) => t.Denotes h v x ∧ Denotes h ts vs xs
  | [], _ :: _, () => False
  | _ :: _, [], _ => False

namespace Heap

/-- The arrays among the values have the same elements in both heaps. -/
def Keeps (h h' : Heap) (vs : List Value) : Prop :=
  ∀ r, .array r ∈ vs → h'.items r = h.items r

/-- The values were made between the heaps: the heap only grew, and their arrays are new. -/
structure Makes (h h' : Heap) (vs : List Value) : Prop where
  grows : h.Extends h'
  fresh : ∀ r, .array r ∈ vs → r ∈ h' ∧ r ∉ h

variable {h h₁ h' : Heap} {r : Ref} {v : Value} {vs : List Value}

theorem Keeps.symm (hvs : h.Keeps h' vs) : h'.Keeps h vs :=
  fun r hr => (hvs r hr).symm

theorem Keeps.of_mem (hvs : h.Keeps h' vs) (hv : v ∈ vs) : h.Keeps h' [v] := by
  intro r hr
  exact hvs r (List.mem_singleton.1 hr ▸ hv)

theorem Keeps.tail (hvs : h.Keeps h' (v :: vs)) : h.Keeps h' vs :=
  fun r hr => hvs r (List.mem_cons_of_mem v hr)

theorem Makes.refl (hvs : ∀ r, .array r ∉ vs) : h.Makes h vs where
  grows := .refl h
  fresh r hr := absurd hr (hvs r)

theorem makes_alloc (h : Heap) (items : List Value) :
    h.Makes (h.alloc items).2 [.array (h.alloc items).1] where
  grows := extends_alloc h items
  fresh r hr := by
    cases List.mem_singleton.1 hr
    exact ⟨alloc_mem h items, alloc_not_mem h items⟩

theorem Makes.cons (hv : h.Makes h₁ [v]) (hvs : h₁.Makes h' vs) : h.Makes h' (v :: vs) where
  grows := hv.grows.trans hvs.grows
  fresh r hr := by
    obtain heq | hr := List.mem_cons.1 hr
    · obtain ⟨hmem, hnot⟩ := hv.fresh r (heq ▸ List.mem_singleton_self _)
      exact ⟨hvs.grows.mem hmem, hnot⟩
    · obtain ⟨hmem, hnot⟩ := hvs.fresh r hr
      exact ⟨hmem, fun hold => hnot (hv.grows.mem hold)⟩

/-- An extension keeps what was made before. -/
theorem Makes.keeps (hvs : h.Makes h₁ vs) (hh : h₁.Extends h') : h₁.Keeps h' vs :=
  fun r hr => hh.items_eq r (hvs.fresh r hr).1

end Heap

variable {h h' : Heap} {v : Value} {vs : List Value} {w : World} {handler : CallHandler}

/-! ### Extraction -/

theorem Value.int?_eq_some_iff {n : Int64} : v.int? = some n ↔ v = .int n := by
  rcases v with ⟨⟨⟩⟩ | _ | _ | _ <;> simp [int?]

theorem Value.string?_eq_some_iff {s : String} : v.string? = some s ↔ v = .string s := by
  rcases v with ⟨⟨⟩⟩ | _ | _ | _ <;> simp [string?]

theorem mapM_eq_some_iff_eq_map {α : Type} {f : Value → Option α} {g : α → Value}
    (hf : ∀ v x, f v = some x ↔ v = g x) {l : List α} : vs.mapM f = some l ↔ vs = l.map g := by
  induction vs generalizing l with
  | nil => cases l <;> simp
  | cons v vs ih =>
    rw [List.mapM_cons]
    constructor
    · intro hl
      obtain ⟨x, hx, hl⟩ := Option.bind_eq_some_iff.1 hl
      obtain ⟨rest, hrest, heq⟩ := Option.bind_eq_some_iff.1 hl
      cases heq
      rw [(hf v x).1 hx, ih.1 hrest, List.map_cons]
    · intro hl
      cases l with
      | nil => cases hl
      | cons x l =>
        obtain ⟨rfl, hrest⟩ := List.cons.inj hl
        rw [ih.2 hrest, (hf _ x).2 rfl]
        rfl

theorem NativeType.extract?_eq_some_iff {t : NativeType} {x : t.Carrier} :
    t.extract? h v = some x ↔ t.Denotes h v x := by
  cases t with
  | int | float | string | bool | bytes =>
    rcases v with (a | r | m | p)
    · cases a <;>
        simp [extract?, Denotes, Value.int?, Value.float?, Value.string?, Value.bool?, Value.bytes?]
    all_goals
      simp [extract?, Denotes, Value.int?, Value.float?, Value.string?, Value.bool?, Value.bytes?]
  | strings =>
    cases v with
    | array r =>
      simp only [extract?, mapM_eq_some_iff_eq_map fun _ _ => Value.string?_eq_some_iff, Denotes,
        Value.array.injEq]
      simp
    | atom a => simp [extract?, Denotes]
    | map m => simp [extract?, Denotes]
    | error p => simp [extract?, Denotes]

theorem NativeType.extract?_eq_none_iff {t : NativeType} :
    t.extract? h v = none ↔ ∀ x, ¬ t.Denotes h v x := by
  simp only [Option.eq_none_iff_forall_ne_some, ne_eq, extract?_eq_some_iff]

theorem NativeType.Denotes.keep {t : NativeType} {x : t.Carrier} (hx : t.Denotes h v x)
    (hv : h.Keeps h' [v]) : t.Denotes h' v x := by
  cases t with
  | int | float | string | bool | bytes => exact hx
  | strings =>
    obtain ⟨r, rfl, hr⟩ := hx
    exact ⟨r, rfl, (hv r (List.mem_singleton_self _)).trans hr⟩

theorem ResultType.Denotes.keep {t : ResultType} {x : t.Carrier} (hx : t.Denotes h v x)
    (hv : h.Keeps h' [v]) : t.Denotes h' v x := by
  cases t with
  | native t => exact NativeType.Denotes.keep hx hv
  | ints =>
    obtain ⟨r, rfl, hr⟩ := hx
    exact ⟨r, rfl, (hv r (List.mem_singleton_self _)).trans hr⟩

theorem ReturnShape.Denotes.keep {s : ReturnShape} {x : s.Carrier} (hx : s.Denotes h v x)
    (hv : h.Keeps h' [v]) : s.Denotes h' v x := by
  cases s with
  | unit => exact hx
  | value t => exact ResultType.Denotes.keep hx hv
  | status =>
    cases x with
    | ok x => exact hx
    | error message => exact hx
  | fallible t =>
    cases x with
    | ok x => exact ResultType.Denotes.keep hx hv
    | error message => exact hx

theorem Arguments.Denotes.keep {ts : List NativeType} {xs : Arguments ts}
    (hxs : Arguments.Denotes h ts vs xs) (hvs : h.Keeps h' vs) :
    Arguments.Denotes h' ts vs xs := by
  induction ts generalizing vs with
  | nil =>
    cases vs with
    | nil => exact hxs
    | cons v vs => exact hxs
  | cons t ts ih =>
    cases vs with
    | nil => exact hxs
    | cons v vs =>
      obtain ⟨hx, hrest⟩ := hxs
      exact ⟨hx.keep (hvs.of_mem List.mem_cons_self), ih hrest hvs.tail⟩

/-! ### Wrapping -/

theorem Action.run_bind_of_eq {α β : Type} {a : Action α} {x : α} {w' : World}
    (ha : a.run handler w = some (x, w')) (f : α → Action β) :
    (a.bind f).run handler w = (f x).run handler w' := by
  rw [run_bind, ha, Option.bind_some]

theorem Action.run_newArray (items : List Value) (w : World) :
    (newArray items).run handler w =
      some (.array (w.heap.alloc items).1, { w with heap := (w.heap.alloc items).2 }) :=
  rfl

/-- To wrap a native value changes nothing but the heap, makes a script value, and the script value
stands for the native value. -/
theorem NativeType.run_wrap (handler : CallHandler) (t : NativeType) (x : t.Carrier) (w : World) :
    ∃ v h', (t.wrap x).run handler w = some (v, { w with heap := h' }) ∧
      w.heap.Makes h' [v] ∧ t.Denotes h' v x := by
  cases t with
  | int | float | string | bool | bytes =>
    exact ⟨_, w.heap, rfl, .refl (by simp), rfl⟩
  | strings =>
    exact ⟨_, _, rfl, Heap.makes_alloc w.heap _, _, rfl, Heap.items_alloc_self w.heap _⟩

theorem ResultType.run_wrap (handler : CallHandler) (t : ResultType) (x : t.Carrier) (w : World) :
    ∃ v h', (t.wrap x).run handler w = some (v, { w with heap := h' }) ∧
      w.heap.Makes h' [v] ∧ t.Denotes h' v x := by
  cases t with
  | native t => exact t.run_wrap handler x w
  | ints => exact ⟨_, _, rfl, Heap.makes_alloc w.heap _, _, rfl, Heap.items_alloc_self w.heap _⟩

theorem ReturnShape.run_wrap (handler : CallHandler) (s : ReturnShape) (x : s.Carrier)
    (w : World) :
    ∃ v h', (s.wrap x).run handler w = some (v, { w with heap := h' }) ∧
      w.heap.Makes h' [v] ∧ s.Denotes h' v x := by
  cases s with
  | unit => exact ⟨_, w.heap, rfl, .refl (by simp), rfl⟩
  | value t => exact t.run_wrap handler x w
  | status =>
    cases x with
    | ok x => exact ⟨_, w.heap, rfl, .refl (by simp), rfl⟩
    | error message => exact ⟨_, w.heap, rfl, .refl (by simp [Value.failure]), rfl⟩
  | fallible t =>
    cases x with
    | ok x => exact t.run_wrap handler x w
    | error message => exact ⟨_, w.heap, rfl, .refl (by simp [Value.failure]), rfl⟩

theorem Arguments.run_wrap (handler : CallHandler) (ts : List NativeType) (xs : Arguments ts)
    (w : World) :
    ∃ vs h', (wrap ts xs).run handler w = some (vs, { w with heap := h' }) ∧
      w.heap.Makes h' vs ∧ Arguments.Denotes h' ts vs xs := by
  induction ts generalizing w with
  | nil => exact ⟨[], w.heap, rfl, .refl (by simp), trivial⟩
  | cons t ts ih =>
    obtain ⟨x, xs⟩ := xs
    obtain ⟨v, h₁, hv, hmakes, hdenotes⟩ := t.run_wrap handler x w
    obtain ⟨vs, h', hvs, hmakes', hdenotes'⟩ := ih xs { w with heap := h₁ }
    refine ⟨v :: vs, h', ?_, hmakes.cons hmakes', hdenotes.keep (hmakes.keeps hmakes'.grows),
      hdenotes'⟩
    exact (Action.run_bind_of_eq hv _).trans (Action.run_bind_of_eq hvs _)

end ScriptHost
