import ScriptHost.Proofs.CopyShape
import ScriptHost.Proofs.EqualValues
import ScriptHost.Proofs.IntegerTexts
import ScriptHost.Proofs.QuotedReading
/-!
# Display texts that tell values apart

The display text of a value that is made of undefined, truth values, integers,
texts and acyclic arrays can be read in one way only, so two such values with
one display text are equal. The first character tells the kind of a value, a
text ends with the first quote that is not escaped, and an integer ends where
a separator or a closing bracket stands.
-/

namespace ScriptHost

namespace Tree

/-- Trees of nothing but undefined, truth values, integers, texts and arrays of them. -/
inductive IsData : Tree → Prop where
  | undefined : IsData (.atom .undefined)
  | bool (b : Bool) : IsData (.atom (.bool b))
  | int (n : Int64) : IsData (.atom (.int n))
  | string (s : String) : IsData (.atom (.string s))
  | array {ts : List Tree} (hts : ∀ t ∈ ts, IsData t) : IsData (.array ts)

variable {t u : Tree} {ts us : List Tree} {a b x : List Char} {c : Char} {n m : Int64}

/-! ### What is written -/

theorem toList_display_bool (p : Bool) :
    (atom (.bool p)).display.toList =
      if p then ['t', 'r', 'u', 'e'] else ['f', 'a', 'l', 's', 'e'] := by
  cases p <;> rfl

theorem toList_display_string (s : String) :
    (atom (.string s)).display.toList = Text.Quoted.encode s.toList := by
  rw [display_atom]
  exact String.toList_ofList

/-- The elements of an array behind the first, each with a separator before it. -/
def otherElements : List (List Char) → List Char
  | [] => [']']
  | p :: ps => ',' :: ' ' :: (p ++ otherElements ps)

def elements : List (List Char) → List Char
  | [] => [']']
  | p :: ps => p ++ otherElements ps

theorem intercalate_append_eq_elements (ps : List (List Char)) :
    ", ".toList.intercalate ps ++ [']'] = elements ps := by
  have hothers (p : List Char) (ps : List (List Char)) :
      ", ".toList.intercalate (p :: ps) ++ [']'] = p ++ otherElements ps := by
    induction ps generalizing p with
    | nil => rw [List.intercalate_singleton, otherElements]
    | cons q ps ih =>
      rw [List.intercalate_cons_cons, List.append_assoc, List.append_assoc, ih, otherElements]
      rfl
  cases ps with
  | nil => rfl
  | cons p ps => exact hothers p ps

theorem toList_display_array (ts : List Tree) :
    (array ts).display.toList = '[' :: elements (ts.map fun t => t.display.toList) := by
  have hmap : (ts.map display).map String.toList = ts.map fun t => t.display.toList := by
    rw [List.map_map]
    rfl
  rw [display_array, String.toList_append, String.toList_append, String.toList_intercalate, hmap,
    List.append_assoc]
  exact congrArg ('[' :: ·) (intercalate_append_eq_elements _)

/-! ### Integers -/

/-- The text is empty, or begins with a separator or a closing bracket. -/
def Separated (x : List Char) : Prop :=
  ∀ c ∈ x.head?, c = ',' ∨ c = ']'

theorem separated_nil : Separated [] := by
  simp [Separated]

theorem separated_cons (hc : c = ',' ∨ c = ']') : Separated (c :: x) := by
  simpa [Separated] using hc

def inInteger (c : Char) : Bool :=
  c.isDigit || c == '-' || c == '+'

theorem Separated.takeWhile_eq_nil (hx : Separated x) : x.takeWhile inInteger = [] := by
  cases x with
  | nil => rfl
  | cons c x => rcases hx c rfl with rfl | rfl <;> rfl

theorem spells_display_int (n : Int64) :
    Text.Spells (atom (.int n)).display.toList n.toInt := by
  rw [display_atom]
  exact Library.TextModule.spells_formatInt n

theorem inInteger_of_spells {k : Int} (hx : Text.Spells x k) : ∀ c ∈ x, inInteger c = true := by
  have hdigits {x : List Char} {m : Nat} (hx : Text.Numeral x m) : ∀ c ∈ x, inInteger c = true :=
    fun c hc => by simp [inInteger, hx.isDigit c hc]
  cases hx with
  | unsigned hx => exact hdigits hx
  | plus hx => exact List.forall_mem_cons.2 ⟨rfl, hdigits hx⟩
  | minus hx => exact List.forall_mem_cons.2 ⟨rfl, hdigits hx⟩

theorem ne_nil_of_spells {k : Int} (hx : Text.Spells x k) : x ≠ [] := by
  cases hx with
  | unsigned hx => exact hx.ne_nil
  | plus _ => exact List.cons_ne_nil _ _
  | minus _ => exact List.cons_ne_nil _ _

/-- An integer is the longest run of characters that belong to one. -/
theorem display_int_append_inj (ha : Separated a) (hb : Separated b)
    (h : (atom (.int n)).display.toList ++ a = (atom (.int m)).display.toList ++ b) :
    n = m ∧ a = b := by
  have hrun {n : Int64} {a : List Char} (ha : Separated a) :
      ((atom (.int n)).display.toList ++ a).takeWhile inInteger =
        (atom (.int n)).display.toList := by
    rw [List.takeWhile_append_of_pos (inInteger_of_spells (spells_display_int n)),
      ha.takeWhile_eq_nil, List.append_nil]
  have hsame : (atom (.int n)).display.toList = (atom (.int m)).display.toList := by
    rw [← hrun ha, h, hrun hb]
  have hread := Text.int64?_eq_some_iff.2 (spells_display_int n)
  rw [String.toList_injective hsame, Text.int64?_eq_some_iff.2 (spells_display_int m)] at hread
  obtain rfl := Option.some.inj hread
  exact ⟨rfl, List.append_cancel_left h⟩

/-! ### The first character -/

def kind : Tree → Kind
  | atom a => a.kind
  | array _ => .array
  | ancestor _ => .array
  | map _ => .map
  | error _ => .error

/-- The kind of the values whose display text begins with a character. -/
def kindOfFirst? (c : Char) : Option Kind :=
  if c = '<' then some .undefined
  else if c = 't' ∨ c = 'f' then some .bool
  else if c = '"' then some .string
  else if c = '[' then some .array
  else if inInteger c then some .int
  else none

theorem kindOfFirst?_of_inInteger (hc : inInteger c = true) : kindOfFirst? c = some .int := by
  have hne {d : Char} (hd : inInteger d = false) : c ≠ d := by
    rintro rfl
    simp [hd] at hc
  have h1 : c ≠ '<' := hne rfl
  have h2 : c ≠ 't' := hne rfl
  have h3 : c ≠ 'f' := hne rfl
  have h4 : c ≠ '"' := hne rfl
  have h5 : c ≠ '[' := hne rfl
  simp [kindOfFirst?, hc, h1, h2, h3, h4, h5]

theorem IsData.exists_display_eq_cons (ht : t.IsData) :
    ∃ c x, t.display.toList = c :: x ∧ kindOfFirst? c = some t.kind := by
  cases ht with
  | undefined => exact ⟨'<', _, rfl, rfl⟩
  | bool b =>
    cases b with
    | true => exact ⟨'t', _, rfl, rfl⟩
    | false => exact ⟨'f', _, rfl, rfl⟩
  | int n =>
    have hn := spells_display_int n
    obtain ⟨c, x, hcx⟩ := List.exists_cons_of_ne_nil (ne_nil_of_spells hn)
    have hc : inInteger c = true := inInteger_of_spells hn c (hcx ▸ List.mem_cons_self)
    exact ⟨c, x, hcx, kindOfFirst?_of_inInteger hc⟩
  | string s => exact ⟨'"', _, toList_display_string s, rfl⟩
  | @array ts _ => exact ⟨'[', _, toList_display_array ts, rfl⟩

theorem IsData.kind_eq (ht : t.IsData) (hu : u.IsData)
    (h : t.display.toList ++ a = u.display.toList ++ b) : t.kind = u.kind := by
  obtain ⟨c, x, hcx, hc⟩ := ht.exists_display_eq_cons
  obtain ⟨d, y, hdy, hd⟩ := hu.exists_display_eq_cons
  rw [hcx, hdy, List.cons_append, List.cons_append, List.cons.injEq] at h
  rw [h.1, hd] at hc
  exact (Option.some.inj hc).symm

theorem IsData.not_closing (ht : t.IsData) : t.display.toList ++ a ≠ ']' :: b := by
  intro h
  obtain ⟨c, x, hcx, hc⟩ := ht.exists_display_eq_cons
  rw [hcx, List.cons_append, List.cons.injEq] at h
  rw [h.1] at hc
  cases hc

/-! ### Reading a tree -/

/-- A text that begins with the display text of `t`, and goes on with something that cannot
belong to it, begins with that of no other tree. -/
def Readable (t : Tree) : Prop :=
  ∀ {u a b}, IsData u → Separated a → Separated b →
    t.display.toList ++ a = u.display.toList ++ b → t = u ∧ a = b

theorem separated_otherElements (ps : List (List Char)) (x : List Char) :
    Separated (otherElements ps ++ x) := by
  cases ps with
  | nil => exact separated_cons (.inr rfl)
  | cons p ps => exact separated_cons (.inl rfl)

theorem otherElements_inj (hts : ∀ t ∈ ts, t.Readable) (hus : ∀ u ∈ us, u.IsData)
    (h : otherElements (ts.map fun t => t.display.toList) ++ a =
      otherElements (us.map fun u => u.display.toList) ++ b) : ts = us ∧ a = b := by
  induction ts generalizing us with
  | nil =>
    cases us with
    | nil => exact ⟨rfl, List.append_cancel_left h⟩
    | cons u us => simp [otherElements] at h
  | cons t ts ih =>
    cases us with
    | nil => simp [otherElements] at h
    | cons u us =>
      rw [List.forall_mem_cons] at hts hus
      simp only [List.map_cons, otherElements, List.cons_append, List.append_assoc,
        List.cons.injEq, true_and] at h
      obtain ⟨rfl, hrest⟩ :=
        hts.1 hus.1 (separated_otherElements _ _) (separated_otherElements _ _) h
      obtain ⟨rfl, hab⟩ := ih hts.2 hus.2 hrest
      exact ⟨rfl, hab⟩

theorem elements_inj (hts : ∀ t ∈ ts, t.IsData) (hread : ∀ t ∈ ts, t.Readable)
    (hus : ∀ u ∈ us, u.IsData)
    (h : elements (ts.map fun t => t.display.toList) ++ a =
      elements (us.map fun u => u.display.toList) ++ b) : ts = us ∧ a = b := by
  cases ts with
  | nil =>
    cases us with
    | nil => exact ⟨rfl, List.append_cancel_left h⟩
    | cons u us =>
      rw [List.map_cons, elements, List.append_assoc] at h
      exact absurd h.symm (hus u List.mem_cons_self).not_closing
  | cons t ts =>
    cases us with
    | nil =>
      rw [List.map_cons, elements, List.append_assoc] at h
      exact absurd h (hts t List.mem_cons_self).not_closing
    | cons u us =>
      rw [List.forall_mem_cons] at hread hus
      rw [List.map_cons, List.map_cons, elements, elements, List.append_assoc,
        List.append_assoc] at h
      obtain ⟨rfl, hrest⟩ :=
        hread.1 hus.1 (separated_otherElements _ _) (separated_otherElements _ _) h
      obtain ⟨rfl, hab⟩ := otherElements_inj hread.2 hus.2 hrest
      exact ⟨rfl, hab⟩

theorem IsData.readable (ht : t.IsData) : t.Readable := by
  induction ht with
  | undefined =>
    intro u a b hu _ _ h
    have hkind := IsData.undefined.kind_eq hu h
    cases hu with
    | undefined => exact ⟨rfl, List.append_cancel_left h⟩
    | _ => cases hkind
  | bool p =>
    intro u a b hu _ _ h
    have hkind := (IsData.bool p).kind_eq hu h
    cases hu with
    | bool q =>
      have hpq : p = q := by
        rw [toList_display_bool, toList_display_bool] at h
        cases p <;> cases q <;> simp at h ⊢
      subst hpq
      exact ⟨rfl, List.append_cancel_left h⟩
    | _ => cases hkind
  | int n =>
    intro u a b hu ha hb h
    have hkind := (IsData.int n).kind_eq hu h
    cases hu with
    | int m =>
      obtain ⟨rfl, hab⟩ := display_int_append_inj ha hb h
      exact ⟨rfl, hab⟩
    | _ => cases hkind
  | string s =>
    intro u a b hu _ _ h
    have hkind := (IsData.string s).kind_eq hu h
    cases hu with
    | string t =>
      rw [toList_display_string, toList_display_string] at h
      obtain ⟨hst, hab⟩ := Text.Quoted.encode_append_inj h
      obtain rfl := String.toList_injective hst
      exact ⟨rfl, hab⟩
    | _ => cases hkind
  | @array ts hts ih =>
    intro u a b hu _ _ h
    have hkind := (IsData.array hts).kind_eq hu h
    cases hu with
    | @array us hus =>
      rw [toList_display_array, toList_display_array, List.cons_append, List.cons_append,
        List.cons.injEq] at h
      obtain ⟨rfl, hab⟩ := elements_inj hts ih hus h.2
      exact ⟨rfl, hab⟩
    | _ => cases hkind

theorem IsData.eq_of_display_eq (ht : t.IsData) (hu : u.IsData) (h : t.display = u.display) :
    t = u :=
  (ht.readable hu separated_nil separated_nil (by rw [h])).1

end Tree

namespace Heap

variable {h : Heap} {v w : Value} {r : Ref} {path : List Ref}

/-- The kinds of values that are made of undefined, truth values, integers, texts and arrays. -/
def dataKinds : List Kind :=
  [.undefined, .bool, .int, .string, .array]

/-- A value that is made of undefined, truth values, integers, texts and acyclic arrays. -/
structure IsData (h : Heap) (v : Value) : Prop where
  not_cyclic : ¬h.Cyclic v
  kind_mem : ∀ w, h.Reaches v w → w.kind ∈ dataKinds

theorem IsData.of_mem_items (hr : h.IsData (.array r)) (hw : w ∈ h.items r) : h.IsData w where
  not_cyclic hcyclic := hr.not_cyclic (hcyclic.of_reaches (.of_mem_items hw))
  kind_mem x hx := hr.kind_mem x ((Reaches.of_mem_items hw).trans hx)

theorem isData_atom {a : Atom} (ha : a.kind ∈ dataKinds) : h.IsData (.atom a) where
  not_cyclic := h.not_cyclic_atom a
  kind_mem w hw := by
    obtain rfl := reaches_atom_iff.1 hw
    exact ha

theorem isData_array (hitems : ∀ w ∈ h.items r, h.IsData w) : h.IsData (.array r) where
  not_cyclic := not_cyclic_array fun w hw => (hitems w hw).not_cyclic
  kind_mem x hx := by
    rcases reaches_array_iff.1 hx with rfl | ⟨w, hw, hwx⟩
    · simp [Value.kind, dataKinds]
    · exact (hitems w hw).kind_mem x hwx

theorem IsData.unfold (hv : h.IsData v) (hout : h.Outside path v) : (h.unfold path v).IsData := by
  induction path, v using traversal_induct h with
  | atom path a =>
    have ha := hv.kind_mem _ (.refl h _)
    rw [unfold_atom]
    cases a with
    | undefined => exact .undefined
    | bool b => exact .bool b
    | int n => exact .int n
    | string s => exact .string s
    | float _ | bytes _ | builtin _ => simp [Value.kind, Atom.kind, dataKinds] at ha
  | ancestor path r up hr =>
    exact absurd (List.isSome_idxOf?.1 (by rw [hr]; rfl)) hout.not_mem
  | array path r hr ih =>
    rw [unfold_array_of_not_mem hr]
    refine .array fun t ht => ?_
    obtain ⟨w, hw, rfl⟩ := List.mem_map.1 ht
    exact ih w hw (hv.of_mem_items hw) (hout.of_mem_items hv.not_cyclic hw)
  | map path m ih =>
    have hm := hv.kind_mem _ (.refl h _)
    simp [Value.kind, dataKinds] at hm
  | error path p ih =>
    have hp := hv.kind_mem _ (.refl h _)
    simp [Value.kind, dataKinds] at hp

theorem IsData.tree (hv : h.IsData v) : (h.tree v).IsData :=
  hv.unfold (h.outside_nil v)

theorem IsData.freeOfNaN (hv : h.IsData v) : h.FreeOfNaN v := by
  intro x hx
  have hkind := hv.kind_mem _ hx
  simp [Value.kind, Atom.kind, dataKinds] at hkind

/-- Values made of undefined, truth values, integers, texts and acyclic arrays that have the same
display text have the same structure and are equal. -/
theorem display_tells_data_apart (hv : h.IsData v) (hw : h.IsData w)
    (hdisplay : h.display v = h.display w) : h.tree v = h.tree w ∧ h.equals v w = true := by
  have htree : h.tree v = h.tree w := hv.tree.eq_of_display_eq hw.tree hdisplay
  exact ⟨htree, equals_of_alike (alike_of_tree_eq htree) hw.freeOfNaN⟩

/-- Two lists of a text, which looks like the end of the list, and a list. -/
def twinLists : Heap :=
  ⟨#[[.string "\", -7]\n\\", .array ⟨1⟩], [.int (-7), .undefined],
    [.string "\", -7]\n\\", .array ⟨3⟩], [.int (-7), .undefined]]⟩

theorem display_tells_data_apart_twinLists :
    twinLists.IsData (.array ⟨0⟩) ∧ twinLists.IsData (.array ⟨2⟩) ∧
      twinLists.display (.array ⟨0⟩) = twinLists.display (.array ⟨2⟩) ∧
      twinLists.tree (.array ⟨0⟩) = twinLists.tree (.array ⟨2⟩) ∧
      twinLists.equals (.array ⟨0⟩) (.array ⟨2⟩) = true := by
  have hinner {r : Ref} (hr : twinLists.items r = [.int (-7), .undefined]) :
      twinLists.IsData (.array r) := by
    apply isData_array
    rw [hr, List.forall_mem_cons, List.forall_mem_singleton]
    exact ⟨isData_atom (by decide), isData_atom (by decide)⟩
  have houter {r s : Ref} (hr : twinLists.items r = [.string "\", -7]\n\\", .array s])
      (hs : twinLists.items s = [.int (-7), .undefined]) : twinLists.IsData (.array r) := by
    apply isData_array
    rw [hr, List.forall_mem_cons, List.forall_mem_singleton]
    exact ⟨isData_atom (by decide), hinner hs⟩
  have hfirst : twinLists.IsData (.array ⟨0⟩) := houter rfl rfl
  have hsecond : twinLists.IsData (.array ⟨2⟩) := houter rfl rfl
  have hdisplay : twinLists.display (.array ⟨0⟩) = twinLists.display (.array ⟨2⟩) := by
    rw [display, display, tree, tree, unfold_array_of_not_mem List.not_mem_nil,
      unfold_array_of_not_mem List.not_mem_nil]
    simp [twinLists, items, unfold_array_of_not_mem]
  exact ⟨hfirst, hsecond, hdisplay, display_tells_data_apart hfirst hsecond hdisplay⟩

end Heap

end ScriptHost
