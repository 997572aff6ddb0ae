import ScriptHost.Debug
import ScriptHost.Display
import ScriptHost.Equality
import ScriptHost.MessagePack
import ScriptHost.Proofs.Path
import ScriptHost.Truth
/-!
# What is observed of values

Everything that a script or its host can learn of a value is read from the
arrays that the value reaches. A change of other arrays is not observed. The
changes are the making of an array, a push and the setting of an element, one
after the other.
-/

namespace ScriptHost

namespace Heap

variable {h h' : Heap} {v w : Value} {V : Value → Prop} {r : Ref}

/-- Whatever is observed of the values in `V`, singly or in pairs, is the same in both heaps. -/
structure Indistinct (V : Value → Prop) (h h' : Heap) : Prop where
  /-- The elements of an array that a value reaches. -/
  items : ∀ v r, V v → h.Reaches v (.array r) → h'.items r = h.items r
  isFalsy : ∀ v, V v → h'.isFalsy v = h.isFalsy v
  display : ∀ v, V v → h'.display v = h.display v
  debug : ∀ v, V v → h'.debug v = h.debug v
  /-- The binary form, or that there is none. -/
  encode? : ∀ v, V v → MessagePack.encode? (h'.tree v) = MessagePack.encode? (h.tree v)
  equals : ∀ v w, V v → V w → h'.equals v w = h.equals v w

theorem Agrees.isFalsy_eq (hv : h.Agrees h' v) : h'.isFalsy v = h.isFalsy v := by
  cases v with
  | array r => simp [isFalsy, hv.items_eq]
  | atom a => rfl
  | map m => rfl
  | error p => rfl

theorem Agrees.of_mem_values {m : Dict Value} (hm : h.Agrees h' (.map m)) (hv : v ∈ m.values) :
    h.Agrees h' v := by
  obtain ⟨e, he, rfl⟩ := List.mem_map.1 hv
  exact hm.of_reaches (.of_mem_entries he)

theorem Agrees.equalsUnder_eq (assumed : List (Ref × Ref)) (v w : Value) (hv : h.Agrees h' v)
    (hw : h.Agrees h' w) : h'.equalsUnder assumed v w = h.equalsUnder assumed v w := by
  induction assumed, v, w using equalsUnder.induct h with
  | case1 assumed a b => simp
  | case2 assumed s => simp [equalsUnder_array]
  | case3 assumed r s hne hmem => simp [equalsUnder_array, hmem]
  | case4 assumed r s hne hmem hlen =>
    rw [equalsUnder_array, equalsUnder_array, hv.items_eq, hw.items_eq,
      beq_eq_false_iff_ne.2 hlen]
    simp
  | case5 assumed r s hne hmem hlen ih =>
    rw [equalsUnder_array, equalsUnder_array, hv.items_eq, hw.items_eq]
    congr 2
    rw [Bool.eq_iff_iff, List.all_eq_true, List.all_eq_true]
    apply forall₂_congr
    intro p hp
    obtain ⟨hp₁, hp₂⟩ := List.of_mem_zip hp
    rw [ih p.1 p.2 hp (hv.of_mem_items hp₁) (hw.of_mem_items hp₂)]
  | case6 assumed m n ih =>
    rw [equalsUnder_map, equalsUnder_map]
    congr 1
    rw [Bool.eq_iff_iff, List.all_eq_true, List.all_eq_true]
    apply forall₂_congr
    intro p hp
    obtain ⟨hp₁, hp₂⟩ := List.of_mem_zip hp
    rw [ih p.1 p.2 hp (hv.of_mem_values hp₁) (hw.of_mem_values hp₂)]
  | case7 assumed p q ih =>
    rw [equalsUnder_error, equalsUnder_error]
    exact ih (hv.of_reaches (.payload p)) (hw.of_reaches (.payload q))
  | case8 assumed v w hatom harray hmap herror =>
    rw [equalsUnder, equalsUnder]
    all_goals assumption

theorem indistinct_of_agrees (hV : ∀ v, V v → h.Agrees h' v) : Indistinct V h h' where
  items v r hv hr := hV v hv r hr
  isFalsy v hv := (hV v hv).isFalsy_eq
  display v hv := by rw [display, display, (hV v hv).tree_eq]
  debug v hv := by rw [debug, debug, (hV v hv).tree_eq]
  encode? v hv := by rw [(hV v hv).tree_eq]
  equals v w hv hw := Agrees.equalsUnder_eq [] v w (hV v hv) (hV w hw)

end Heap

inductive Change where
  | create (items : List Value)
  | push (r : Ref) (v : Value)
  | set (r : Ref) (i : Nat) (v : Value)

namespace Change

/-- The array that is changed. Making an array changes none. -/
def target? : Change → Option Ref
  | create _ => none
  | push r _ => some r
  | set r _ _ => some r

def stored : Change → List Value
  | create items => items
  | push _ v => [v]
  | set _ _ v => [v]

end Change

namespace Heap

def change (h : Heap) : Change → Heap
  | .create items => (h.alloc items).2
  | .push r v => h.push r v
  | .set r i v => (h.set? r i v).getD h

def run (h : Heap) (cs : List Change) : Heap :=
  cs.foldl change h

variable {h h' : Heap} {v w u : Value} {r : Ref} {c : Change} {cs : List Change}

@[simp] theorem run_nil : h.run [] = h := rfl

@[simp] theorem run_cons : h.run (c :: cs) = (h.change c).run cs := rfl

theorem mem_change (hr : r ∈ h) : r ∈ h.change c := by
  cases c with
  | create items =>
    have hlt := mem_iff.1 hr
    simp only [change, mem_iff, size_alloc]
    omega
  | push s v => simpa [change, push] using hr
  | set s i v =>
    simp only [change, set?]
    split
    · simpa using hr
    · exact hr

theorem items_change_of_ne (hr : r ∈ h) (hc : c.target? ≠ some r) :
    (h.change c).items r = h.items r := by
  cases c with
  | create items => exact items_alloc_of_mem items hr
  | push s v =>
    have hne : s ≠ r := fun he => hc (by simp [Change.target?, he])
    simp [change, push, hne]
  | set s i v =>
    have hne : s ≠ r := fun he => hc (by simp [Change.target?, he])
    simp only [change, set?]
    split <;> simp [hne]

theorem mem_items_change (hw : w ∈ (h.change c).items r) :
    w ∈ h.items r ∨ w ∈ c.stored ∧ (c.target? = some r ∨ r ∉ h ∧ c.target? = none) := by
  cases c with
  | create items =>
    rw [change] at hw
    by_cases hr : r ∈ h
    · rw [items_alloc_of_mem items hr] at hw
      exact .inl hw
    · rw [eq_of_mem_alloc (mem_of_mem_items hw) hr, items_alloc_self] at hw
      exact .inr ⟨hw, .inr ⟨hr, rfl⟩⟩
  | push s v =>
    by_cases hs : s = r
    · subst hs
      have hmem : s ∈ h := by simpa [change, push] using mem_of_mem_items hw
      rw [change, push, items_write_self _ hmem, List.mem_append] at hw
      exact hw.imp id fun hw => ⟨hw, .inl rfl⟩
    · simp only [change, push, items_write_of_ne _ hs] at hw
      exact .inl hw
  | set s i v =>
    simp only [change, set?] at hw
    split at hw
    · next hi =>
      by_cases hs : s = r
      · subst hs
        have hmem : s ∈ h := by simpa using mem_of_mem_items hw
        rw [Option.getD_some, items_write_self _ hmem] at hw
        rcases List.mem_or_eq_of_mem_set hw with hw | rfl
        · exact .inl hw
        · exact .inr ⟨List.mem_singleton.2 rfl, .inl rfl⟩
      · rw [Option.getD_some, items_write_of_ne _ hs] at hw
        exact .inl hw
    · exact .inl hw

/-- An array that no change of a run aims at keeps its elements. -/
theorem items_run_of_ne (hr : r ∈ h) (hcs : ∀ c ∈ cs, c.target? ≠ some r) :
    (h.run cs).items r = h.items r := by
  induction cs generalizing h with
  | nil => rfl
  | cons c cs ih =>
    rw [run_cons, ih (mem_change hr) fun d hd => hcs d (List.mem_cons_of_mem c hd)]
    exact items_change_of_ne hr (hcs c List.mem_cons_self)

/-- A change stores something that reaches `w` in an array that `v` reaches. -/
def StoresInto (h : Heap) (c : Change) (v w : Value) : Prop :=
  ∃ t, c.target? = some t ∧ h.Reaches v (.array t) ∧ ∃ y ∈ c.stored, h.Reaches y w

theorem StoresInto.trans (hc : h.StoresInto c v w) (hwu : h.Reaches w u) :
    h.StoresInto c v u := by
  obtain ⟨t, ht, hvt, y, hy, hyw⟩ := hc
  exact ⟨t, ht, hvt, y, hy, hyw.trans hwu⟩

/-- What a value reaches after a change it reached before, or the change stored it there. -/
theorem Reaches.of_change (hv : h.Owns v) (hvw : (h.change c).Reaches v w) :
    h.Reaches v w ∨ h.StoresInto c v w := by
  refine hvw.induct (P := fun w => h.Reaches v w ∨ h.StoresInto c v w) (.inl (.refl h v)) ?_
  intro a s b ha hb
  have hstep (hs : h.part? a s = some b) : h.Reaches v b ∨ h.StoresInto c v b :=
    ha.imp (fun ha => ha.trans (.of_part? hs)) fun ha => ha.trans (.of_part? hs)
  cases a with
  | atom x => exact hstep (by cases s <;> exact hb)
  | map m => exact hstep (by cases s <;> exact hb)
  | error p => exact hstep (by cases s <;> exact hb)
  | array r =>
    rcases mem_items_change (mem_items_of_part? hb) with hold | ⟨hnew, htarget⟩
    · have hreach : h.Reaches (.array r) b := .of_mem_items hold
      exact ha.imp (fun ha => ha.trans hreach) fun ha => ha.trans hreach
    · rcases htarget with ht | ⟨hr, ht⟩
      · rcases ha with ha | ⟨t, ht', hvt, _⟩
        · exact .inr ⟨r, ht, ha, b, hnew, .refl h b⟩
        · obtain rfl : t = r := by simpa [ht] using ht'.symm
          exact .inr ⟨t, ht, hvt, b, hnew, .refl h b⟩
      · rcases ha with ha | ⟨t, ht', _⟩
        · exact absurd (hv r ha) hr
        · simp [ht] at ht'

end Heap

end ScriptHost
