import Mathlib.Data.List.DropRight
import ScriptHost.Proofs.WatchedRun
/-!
# What recording appends

When a tracer is told of several events, each event that its settings admit
becomes a record at the end of its ring. The records have the next numbers, and
of the old ones and the new ones together the ring keeps the newest, as many as
it has room for.
-/

namespace ScriptHost.Trace

/-- The events that a tracer records, of those that it is told of. -/
def Tracer.admitted (t : Tracer) (events : List Event) : List Event :=
  if t.isEnabled then events.filter fun e => t.settings.admits e.type else []

/-- The records of events that happened at one time, numbered from `n` on. -/
def numbered (n timestamp : Nat) (events : List Event) : List Record :=
  events.mapIdx fun i e => ⟨n + i, timestamp, e⟩

/-- The second tracer is the first after it was told of the events, all at one time. -/
structure Tracer.Appended (t : Tracer) (timestamp : Nat) (events : List Event) (t' : Tracer) :
    Prop where
  settings : t'.settings = t.settings
  capacity : t'.ring.capacity = t.ring.capacity
  nextId : t'.ring.nextId = t.ring.nextId + (t.admitted events).length
  /-- Of the records there were and the new ones, each is in the ring or was let go. -/
  account : t'.ring.evicted + t'.ring.size =
    t.ring.evicted + t.ring.size + (t.admitted events).length
  /-- A ring that was not overfull has the newest of them. -/
  records : t.ring.size ≤ t.ring.capacity →
    t'.ring.records =
      (t.ring.records ++ numbered t.ring.nextId timestamp (t.admitted events)).rtake
        t.ring.capacity

variable {t t₁ t' : Tracer} {timestamp : Nat} {event : Event} {events more : List Event}

theorem rtake_of_length_le {α : Type} {l : List α} {n : Nat} (hn : l.length ≤ n) :
    l.rtake n = l := by
  rw [List.rtake, Nat.sub_eq_zero_of_le hn, List.drop_zero]

/-- What has no room in the end may as well be let go earlier. -/
theorem rtake_rtake_append {α : Type} (l m : List α) (n : Nat) :
    (l.rtake n ++ m).rtake n = (l ++ m).rtake n := by
  simp only [List.rtake_eq_reverse_take_reverse, List.reverse_append, List.reverse_reverse,
    List.take_append, List.take_take]
  congr 3
  omega

theorem numbered_append (n timestamp : Nat) (events more : List Event) :
    numbered n timestamp (events ++ more) =
      numbered n timestamp events ++ numbered (n + events.length) timestamp more := by
  simp only [numbered, List.mapIdx_append]
  congr 2
  funext i e
  rw [Nat.add_comm i, Nat.add_assoc]

theorem map_event_numbered (n timestamp : Nat) (events : List Event) :
    (numbered n timestamp events).map Record.event = events := by
  apply List.ext_getElem
  · simp [numbered]
  · simp [numbered]

namespace Tracer

theorem admitted_nil (t : Tracer) : t.admitted [] = [] :=
  ite_self []

theorem admitted_singleton (t : Tracer) (event : Event) :
    t.admitted [event] = if t.isEnabled && t.settings.admits event.type then [event] else [] := by
  cases henabled : t.isEnabled <;> simp [admitted, henabled, List.filter_singleton]

theorem admitted_append (t : Tracer) (events more : List Event) :
    t.admitted (events ++ more) = t.admitted events ++ t.admitted more := by
  rw [admitted, admitted, admitted]
  split
  · exact List.filter_append _ _
  · rfl

theorem admitted_eq_self (henabled : t.isEnabled = true) (hfilter : t.settings.filter = [])
    (events : List Event) : t.admitted events = events := by
  simp [admitted, henabled, Settings.admits, hfilter]

theorem Appended.admitted_eq (h : t.Appended timestamp events t₁) (more : List Event) :
    t₁.admitted more = t.admitted more := by
  rw [admitted, admitted, isEnabled, isEnabled, h.settings]

/-! ### Telling a tracer of events -/

theorem appended_of_not_admitted (hnone : t.admitted events = []) (timestamp : Nat) :
    t.Appended timestamp events t := by
  refine ⟨rfl, rfl, ?_, ?_, fun hsize => ?_⟩
  · rw [hnone, List.length_nil, Nat.add_zero]
  · rw [hnone, List.length_nil, Nat.add_zero]
  · have hsame : t.ring.records ++ numbered t.ring.nextId timestamp [] = t.ring.records :=
      List.append_nil _
    rw [hnone, hsame, rtake_of_length_le hsize]

theorem Appended.size_le (h : t.Appended timestamp events t')
    (hsize : t.ring.size ≤ t.ring.capacity) : t'.ring.size ≤ t'.ring.capacity := by
  rw [Ring.size, h.records hsize, h.capacity, List.rtake, List.length_drop]
  omega

theorem Appended.trans (h : t.Appended timestamp events t₁)
    (h' : t₁.Appended timestamp more t') : t.Appended timestamp (events ++ more) t' where
  settings := h'.settings.trans h.settings
  capacity := h'.capacity.trans h.capacity
  nextId := by
    rw [h'.nextId, h.nextId, h.admitted_eq, admitted_append, List.length_append, Nat.add_assoc]
  account := by
    rw [h'.account, h.account, h.admitted_eq, admitted_append, List.length_append, Nat.add_assoc]
  records hsize := by
    rw [h'.records (h.size_le hsize), h.records hsize, h.capacity, h.nextId, h.admitted_eq,
      rtake_rtake_append, List.append_assoc, admitted_append, numbered_append]

theorem appended_record (t : Tracer) (timestamp : Nat) (event : Event) :
    t.Appended timestamp [event] (t.record timestamp event) := by
  have hadmitted := t.admitted_singleton event
  rw [record]
  split at hadmitted
  · next hadmits =>
    rw [if_pos hadmits]
    refine ⟨rfl, rfl, ?_, ?_, fun _ => ?_⟩
    · rw [hadmitted]
      rfl
    · simp only [hadmitted, Ring.push, Ring.size, List.length_drop, List.length_append,
        List.length_singleton]
      omega
    · rw [hadmitted]
      rfl
  · next hrefused =>
    rw [if_neg hrefused]
    exact appended_of_not_admitted hadmitted timestamp

theorem appended_recordAll (t : Tracer) (timestamp : Nat) (events : List Event) :
    t.Appended timestamp events (t.recordAll timestamp events) := by
  induction events generalizing t with
  | nil => exact appended_of_not_admitted t.admitted_nil timestamp
  | cons event events ih => exact (t.appended_record timestamp event).trans (ih _)

/-- A tracer that records everything and has room for it all has the events as they are at its
end. -/
theorem exists_records_recordAll (henabled : t.isEnabled = true) (hfilter : t.settings.filter = [])
    (hroom : t.ring.size + events.length ≤ t.ring.capacity) (timestamp : Nat) :
    ∃ added, (t.recordAll timestamp events).ring.records = t.ring.records ++ added ∧
      added.map Record.event = events := by
  have happended := t.appended_recordAll timestamp events
  refine ⟨numbered t.ring.nextId timestamp events, ?_, map_event_numbered _ _ _⟩
  rw [happended.records (by omega), admitted_eq_self henabled hfilter, rtake_of_length_le]
  rw [List.length_append, numbered, List.length_mapIdx]
  exact hroom

end Tracer

end ScriptHost.Trace
