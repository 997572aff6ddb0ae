import Mathlib.Data.List.DropRight
import ScriptHost.Trace.Operation
/-!
# A tracer keeps the end of a journal

A journal is what a tracer would be if it had room for everything: it keeps
all events that were admitted in a run, in their order, and counts how many of
them came after the last clearing. The ring of a tracer holds the newest
records of the journal under their numbers in it, as many as it has room for.
Every other record was let go by a clearing or for want of room.
-/

namespace ScriptHost.Trace

structure Journal where
  enabled : Bool
  /-- The events with their times, the oldest first. -/
  entries : List (Nat × Event)
  /-- How many events were admitted since the last clearing. -/
  sinceClear : Nat

namespace Journal

def ofSettings (s : Settings) : Journal where
  enabled := s.enabled
  entries := []
  sinceClear := 0

/-- Adds an event, if the journal is enabled and the filter, unless it is empty, has its type. -/
def note (filter : List String) (j : Journal) (timestamp : Nat) (event : Event) : Journal :=
  if j.enabled = true ∧ (filter = [] ∨ event.type ∈ filter) then
    { j with entries := j.entries ++ [(timestamp, event)], sinceClear := j.sinceClear + 1 }
  else j

def perform (filter : List String) (j : Journal) (timestamp : Nat) : Operation → Journal
  | .enable => { j with enabled := true }
  | .disable => { j with enabled := false }
  | .redirect _ => j
  | .clear => { j with sinceClear := 0 }
  | .record event => j.note filter timestamp event
  | .call function argCount => j.note filter timestamp (.call function argCount)
  | .returned h function v => j.note filter timestamp (.ofReturn h function v)
  | .rejected function reason => j.note filter timestamp (.rejected function reason)

def run (filter : List String) (j : Journal) (ops : List (Nat × Operation)) : Journal :=
  ops.foldl (fun j op => j.perform filter op.1 op.2) j

theorem run_cons (filter : List String) (j : Journal) (op : Nat × Operation)
    (ops : List (Nat × Operation)) :
    j.run filter (op :: ops) = (j.perform filter op.1 op.2).run filter ops :=
  rfl

/-- The entries, numbered from the beginning of the run. -/
def records (j : Journal) : List Record :=
  j.entries.mapIdx fun i e => ⟨i, e.1, e.2⟩

end Journal

namespace Tracer

def run (t : Tracer) (ops : List (Nat × Operation)) : Tracer :=
  ops.foldl (fun t op => t.perform op.1 op.2) t

theorem run_cons (t : Tracer) (op : Nat × Operation) (ops : List (Nat × Operation)) :
    t.run (op :: ops) = (t.perform op.1 op.2).run ops :=
  rfl

/-- How many records an operation lets go because it clears the ring. -/
def cleared (t : Tracer) : Operation → Nat
  | .clear => t.ring.size
  | _ => 0

def clearedIn : Tracer → List (Nat × Operation) → Nat
  | _, [] => 0
  | t, op :: ops => t.cleared op.2 + clearedIn (t.perform op.1 op.2) ops

end Tracer

variable {s : Settings} {t : Tracer} {j : Journal} {timestamp : Nat} {event : Event}
  {op : Operation} {ops : List (Nat × Operation)}

/-! ### Records of the journal -/

theorem length_records (j : Journal) : j.records.length = j.entries.length :=
  List.length_mapIdx

theorem map_id_records (j : Journal) : j.records.map Record.id = List.range j.entries.length := by
  apply List.ext_getElem
  · simp [length_records]
  · simp [Journal.records]

theorem drop_rtake {α : Type} {l : List α} {n : Nat} (m : Nat) (hn : n ≤ l.length) :
    (l.rtake n).drop (n - m) = l.rtake (min m n) := by
  rw [List.rtake, List.rtake, List.drop_drop]
  congr 1
  omega

theorem length_rtake {α : Type} {l : List α} {n : Nat} (hn : n ≤ l.length) :
    (l.rtake n).length = n := by
  rw [List.rtake, List.length_drop]
  omega

/-! ### The ring and the end of the journal -/

/-- The tracer has the settings of the journal, and its ring has the newest records. -/
structure Follows (s : Settings) (t : Tracer) (j : Journal) : Prop where
  enabled : t.isEnabled = j.enabled
  filter : t.settings.filter = s.filter
  capacity : t.ring.capacity = s.capacity
  nextId : t.ring.nextId = j.entries.length
  sinceClear_le : j.sinceClear ≤ j.entries.length
  records : t.ring.records = j.records.rtake (min s.capacity j.sinceClear)

theorem follows_ofSettings (s : Settings) : Follows s (.ofSettings s) (.ofSettings s) where
  enabled := rfl
  filter := rfl
  capacity := rfl
  nextId := rfl
  sinceClear_le := Nat.le_refl 0
  records := (List.rtake_nil _).symm

theorem Follows.size_eq (h : Follows s t j) : t.ring.size = min s.capacity j.sinceClear := by
  have hle := h.sinceClear_le
  rw [Ring.size, h.records, length_rtake]
  rw [length_records]
  omega

theorem Follows.admits_iff (h : Follows s t j) :
    (t.isEnabled && t.settings.admits event.type) = true ↔
      j.enabled = true ∧ (s.filter = [] ∨ event.type ∈ s.filter) := by
  simp [Settings.admits, h.enabled, h.filter]

theorem Follows.records_push (h : Follows s t j) :
    (t.ring.push timestamp event).records =
      (j.records ++ [(⟨t.ring.nextId, timestamp, event⟩ : Record)]).rtake
        (min s.capacity (j.sinceClear + 1)) := by
  have hle := h.sinceClear_le
  have hsize := h.size_eq
  rw [Ring.size] at hsize
  simp only [Ring.push, List.length_append, List.length_singleton, hsize, h.capacity]
  -- The ring held the end of the journal, so of one record more it drops what has no room.
  have hroom : min s.capacity (min s.capacity j.sinceClear + 1) =
      min s.capacity (j.sinceClear + 1) := by
    omega
  rw [h.records, ← List.rtake_concat_succ, drop_rtake, hroom]
  simp only [List.length_append, length_records, List.length_singleton]
  omega

theorem Follows.record (h : Follows s t j) (timestamp : Nat) (event : Event) :
    Follows s (t.record timestamp event) (j.note s.filter timestamp event) := by
  rw [Tracer.record, Journal.note]
  by_cases hadmits : j.enabled = true ∧ (s.filter = [] ∨ event.type ∈ s.filter)
  · rw [if_pos (h.admits_iff.2 hadmits), if_pos hadmits]
    refine ⟨h.enabled, h.filter, h.capacity, ?_, ?_, ?_⟩
    · simp [Ring.push, h.nextId]
    · simpa using h.sinceClear_le
    · rw [h.records_push, h.nextId, Journal.records, Journal.records, List.mapIdx_concat]
  · rw [if_neg (h.admits_iff.not.2 hadmits), if_neg hadmits]
    exact h

theorem Follows.perform (h : Follows s t j) (timestamp : Nat) (op : Operation) :
    Follows s (t.perform timestamp op) (j.perform s.filter timestamp op) := by
  rw [Tracer.perform_eq]
  cases op with
  | enable => exact { h with enabled := rfl }
  | disable => exact { h with enabled := rfl }
  | redirect destination => exact { h with }
  | clear =>
    refine ⟨h.enabled, h.filter, h.capacity, h.nextId, Nat.zero_le _, ?_⟩
    rw [Journal.perform, Nat.min_zero, List.rtake_zero]
    rfl
  | record event => exact h.record timestamp event
  | call function argCount => exact h.record timestamp _
  | returned heap function v => exact h.record timestamp _
  | rejected function reason => exact h.record timestamp _

theorem Follows.run (h : Follows s t j) (ops : List (Nat × Operation)) :
    Follows s (t.run ops) (j.run s.filter ops) := by
  induction ops generalizing t j with
  | nil => exact h
  | cons op ops ih =>
    rw [Tracer.run_cons, Journal.run_cons]
    exact ih (h.perform op.1 op.2)

/-! ### Where the records went -/

theorem Follows.account_record (h : Follows s t j) (timestamp : Nat) (event : Event) :
    (t.record timestamp event).ring.evicted + (t.record timestamp event).ring.size +
        j.entries.length =
      t.ring.evicted + t.ring.size + (j.note s.filter timestamp event).entries.length := by
  rw [Tracer.record, Journal.note]
  by_cases hadmits : j.enabled = true ∧ (s.filter = [] ∨ event.type ∈ s.filter)
  · rw [if_pos (h.admits_iff.2 hadmits), if_pos hadmits]
    simp only [Ring.push, Ring.size, List.length_drop, List.length_append, List.length_singleton]
    omega
  · rw [if_neg (h.admits_iff.not.2 hadmits), if_neg hadmits]

/-- What an operation evicts or clears was in the ring, or is the event that it brings. -/
theorem Follows.account_perform (h : Follows s t j) (timestamp : Nat) (op : Operation) :
    (t.perform timestamp op).ring.evicted + (t.perform timestamp op).ring.size + t.cleared op +
        j.entries.length =
      t.ring.evicted + t.ring.size + (j.perform s.filter timestamp op).entries.length := by
  rw [Tracer.perform_eq]
  cases op with
  | enable => rfl
  | disable => rfl
  | redirect destination => rfl
  | clear => simp [Tracer.clear, Ring.clear, Ring.size, Tracer.cleared, Journal.perform]
  | record event => exact h.account_record timestamp event
  | call function argCount => exact h.account_record timestamp _
  | returned heap function v => exact h.account_record timestamp _
  | rejected function reason => exact h.account_record timestamp _

theorem Follows.account_run (h : Follows s t j) (ops : List (Nat × Operation)) :
    (t.run ops).ring.evicted + (t.run ops).ring.size + t.clearedIn ops +
        j.entries.length =
      t.ring.evicted + t.ring.size + (j.run s.filter ops).entries.length := by
  induction ops generalizing t j with
  | nil => rfl
  | cons op ops ih =>
    have hstep := h.account_perform op.1 op.2
    have hrest := ih (h.perform op.1 op.2)
    rw [Tracer.run_cons, Journal.run_cons, Tracer.clearedIn]
    omega

/-! ### Whole runs -/

theorem Journal.entries_prefix_perform (filter : List String) (j : Journal) (timestamp : Nat)
    (op : Operation) : j.entries <+: (j.perform filter timestamp op).entries := by
  have hnote : ∀ event, j.entries <+: (j.note filter timestamp event).entries := by
    intro event
    rw [Journal.note]
    split
    · exact List.prefix_append _ _
    · exact List.prefix_rfl
  cases op with
  | enable => exact List.prefix_rfl
  | disable => exact List.prefix_rfl
  | redirect destination => exact List.prefix_rfl
  | clear => exact List.prefix_rfl
  | record event => exact hnote event
  | call function argCount => exact hnote _
  | returned h function v => exact hnote _
  | rejected function reason => exact hnote _

theorem Journal.entries_prefix_run (filter : List String) (j : Journal)
    (ops : List (Nat × Operation)) : j.entries <+: (j.run filter ops).entries := by
  induction ops generalizing j with
  | nil => exact List.prefix_rfl
  | cons op ops ih =>
    rw [Journal.run_cons]
    exact (j.entries_prefix_perform filter op.1 op.2).trans (ih _)

theorem Follows.entry (h : Follows s t j) {r : Record} (hr : r ∈ t.ring.records) :
    j.entries[r.id]? = some (r.timestamp, r.event) := by
  rw [h.records] at hr
  have hmem : r ∈ j.records := List.mem_of_mem_drop hr
  obtain ⟨i, hi, rfl⟩ := List.mem_mapIdx.1 hmem
  exact List.getElem?_eq_getElem hi

/-- An id is given once: who finds it again finds the same record. -/
theorem Follows.eq_of_id_eq (h : Follows s t j) {later : List (Nat × Operation)} {r r' : Record}
    (hr : r ∈ t.ring.records) (hr' : r' ∈ (t.run later).ring.records) (hid : r.id = r'.id) :
    r = r' := by
  -- Both are the entry of one number, since the journal only grows at its end.
  have hentry := h.entry hr
  have hentry' := (h.run later).entry hr'
  obtain ⟨hlt, hget⟩ := List.getElem?_eq_some_iff.1 hentry
  rw [← hid, List.prefix_iff_getElem?.1 (j.entries_prefix_run s.filter later) r.id hlt, hget,
    Option.some.injEq, Prod.mk.injEq] at hentry'
  obtain ⟨htimestamp, hevent⟩ := hentry'
  cases r
  cases r'
  cases hid
  cases htimestamp
  cases hevent
  rfl

theorem Follows.ids (h : Follows s t j) :
    t.ring.records.map Record.id = List.range' (j.entries.length - t.ring.size) t.ring.size := by
  have hle := h.sinceClear_le
  rw [h.size_eq, h.records, List.rtake, List.map_drop, map_id_records, length_records,
    List.range_eq_range', List.drop_range']
  congr 1
  · omega
  · omega

/-- After every run the ring of a tracer holds the last of the events that were admitted since the
last clearing, as many as there is room for, each under its number among all admitted events. No
number is given twice. Of all admitted events those that are not in the ring were let go by a
clearing, or evicted for want of room. -/
theorem run_refines_journal (s : Settings) (ops : List (Nat × Operation)) :
    let t := (Tracer.ofSettings s).run ops
    let j := (Journal.ofSettings s).run s.filter ops
    t.ring.records = j.records.rtake (min s.capacity j.sinceClear) ∧
      t.ring.size = min s.capacity j.sinceClear ∧
      t.ring.nextId = j.entries.length ∧
      t.ring.records.map Record.id =
        List.range' (j.entries.length - t.ring.size) t.ring.size ∧
      (∀ later, ∀ r ∈ t.ring.records, ∀ r' ∈ (t.run later).ring.records,
        r.id = r'.id → r = r') ∧
      t.ring.evicted + t.ring.size + (Tracer.ofSettings s).clearedIn ops =
        j.entries.length := by
  intro t j
  have hstart := follows_ofSettings s
  have hend : Follows s t j := hstart.run ops
  have haccount := hstart.account_run ops
  refine ⟨hend.records, hend.size_eq, hend.nextId, hend.ids, ?_, ?_⟩
  · intro later r hr r' hr' hid
    exact hend.eq_of_id_eq hr hr' hid
  · exact haccount.trans (Nat.zero_add _)

end ScriptHost.Trace
