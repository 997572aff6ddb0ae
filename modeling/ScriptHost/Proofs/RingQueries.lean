import Mathlib.Algebra.BigOperators.Group.List.Lemmas
import Mathlib.Algebra.GroupWithZero.Nat
import ScriptHost.Trace.Ring
/-!
# Queries of a ring

The queries of a ring agree with each other and with its records. The records
of each type, and the records of each function, are parts of all records, and
merged by id they are all records again. The statistics count what is in these
parts, and only that: whatever was let go is counted nowhere.
-/

namespace ScriptHost.Trace

def Event.types : List String :=
  ["call", "returned", "error-value", "rejected"]

theorem Event.type_mem_types (e : Event) : e.type ∈ types := by
  cases e with
  | call f n => exact .head _
  | returned f k => exact .tail _ (.head _)
  | errorValue f m => exact .tail _ (.tail _ (.head _))
  | rejected f r => exact .tail _ (.tail _ (.tail _ (.head _)))

theorem Event.nodup_types : types.Nodup := by
  decide

theorem Event.type_eq_call_iff {e : Event} : e.type = "call" ↔ e.isCall = true := by
  cases e with
  | call f n => exact ⟨fun _ => rfl, fun _ => rfl⟩
  | returned f k => simp [type, isCall]
  | errorValue f m => simp [type, isCall]
  | rejected f r => simp [type, isCall]

theorem Event.isCall_iff {e : Event} {f : String} :
    e.isCall = true ∧ e.function = f ↔ ∃ argCount, e = .call f argCount := by
  cases e <;> simp [isCall, function]

namespace Ring

inductive Change where
  | push (timestamp : Nat) (event : Event)
  | clear

def change (b : Ring) : Change → Ring
  | .push timestamp event => b.push timestamp event
  | .clear => b.clear

def changeAll (b : Ring) (cs : List Change) : Ring :=
  cs.foldl change b

/-- The functions that are named in the records. -/
def functions (b : Ring) : List String :=
  (b.records.map (·.event.function)).dedup

variable {b : Ring}

/-! ### Ids -/

/-- The ids of the records increase, and the next one is above them all. -/
structure Numbered (b : Ring) : Prop where
  increasing : b.records.Pairwise (·.id < ·.id)
  lt_nextId : ∀ r ∈ b.records, r.id < b.nextId

theorem numbered_ofCapacity (capacity : Nat) : Numbered (ofCapacity capacity) where
  increasing := .nil
  lt_nextId _ hr := nomatch hr

theorem Numbered.push (hb : b.Numbered) (timestamp : Nat) (event : Event) :
    (b.push timestamp event).Numbered where
  increasing := by
    refine List.Pairwise.drop (List.pairwise_append.2
      ⟨hb.increasing, List.pairwise_singleton _ _, ?_⟩)
    intro r hr s hs
    cases List.mem_singleton.1 hs
    exact hb.lt_nextId r hr
  lt_nextId r hr := by
    obtain hr | hr := List.mem_append.1 (List.mem_of_mem_drop hr)
    · exact Nat.lt_succ_of_lt (hb.lt_nextId r hr)
    · cases List.mem_singleton.1 hr
      exact Nat.lt_succ_self b.nextId

theorem Numbered.clear (_ : b.Numbered) : b.clear.Numbered where
  increasing := .nil
  lt_nextId _ hr := nomatch hr

theorem Numbered.changeAll (hb : b.Numbered) (cs : List Change) : (b.changeAll cs).Numbered := by
  induction cs generalizing b with
  | nil => exact hb
  | cons c cs ih =>
    cases c with
    | push timestamp event => exact ih (hb.push timestamp event)
    | clear => exact ih hb.clear

theorem Numbered.eq_of_id_eq (hb : b.Numbered) {r s : Record} (hr : r ∈ b.records)
    (hs : s ∈ b.records) (hid : r.id = s.id) : r = s := by
  have hids : (b.records.map Record.id).Nodup :=
    (List.pairwise_map.2 hb.increasing).imp Nat.ne_of_lt
  exact List.inj_on_of_nodup_map hids hr hs hid

theorem Numbered.last?_eq_some_iff (hb : b.Numbered) {r : Record} :
    b.last? = some r ↔ r ∈ b.records ∧ ∀ s ∈ b.records, s.id ≤ r.id := by
  have hlast {s : Record} (hs : b.last? = some s) :
      s ∈ b.records ∧ ∀ t ∈ b.records, t.id ≤ s.id := by
    obtain ⟨before, hrecords⟩ := List.getLast?_eq_some_iff.1 hs
    have hincreasing := hb.increasing
    rw [hrecords, List.pairwise_append] at hincreasing
    rw [hrecords]
    refine ⟨List.mem_append_right before (List.mem_singleton_self s), fun t ht => ?_⟩
    obtain ht | ht := List.mem_append.1 ht
    · exact Nat.le_of_lt (hincreasing.2.2 t ht s (List.mem_singleton_self s))
    · cases List.mem_singleton.1 ht
      exact Nat.le_refl _
  refine ⟨hlast, fun ⟨hr, hmax⟩ => ?_⟩
  cases hs : b.last? with
  | none =>
    rw [List.getLast?_eq_none_iff.1 hs] at hr
    cases hr
  | some s =>
    -- Both have the greatest id, so they are the same record.
    obtain ⟨hmem, hle⟩ := hlast hs
    rw [hb.eq_of_id_eq hr hmem (Nat.le_antisymm (hle r hr) (hmax s hmem))]

/-! ### The newest records -/

theorem recent_suffix (b : Ring) (n : Nat) : b.recent n <:+ b.records :=
  List.drop_suffix _ _

theorem length_recent (b : Ring) (n : Nat) : (b.recent n).length = min n b.size := by
  rw [recent, List.length_drop, size]
  omega

/-! ### Parts of the records -/

def idLe (r s : Record) : Bool :=
  r.id ≤ s.id

/-- Merges lists of records by id. -/
def mergeById (parts : List (List Record)) : List Record :=
  parts.foldr (fun l merged => l.merge merged idLe) []

/-- There is one list of records for each name. The lists keep the order of the records, have
nothing in common, and merged by id they are all records. -/
structure Partition (b : Ring) (names : List String) (part : String → List Record) : Prop where
  nodup : names.Nodup
  sublist : ∀ k, (part k).Sublist b.records
  disjoint : ∀ j k, j ≠ k → (part j).Disjoint (part k)
  merged : mergeById (names.map part) = b.records

theorem Numbered.merge_filter (hb : b.Numbered) {p q : Record → Bool}
    (hpq : ∀ r ∈ b.records, p r = true → q r = false) :
    (b.records.filter p).merge (b.records.filter q) idLe =
      b.records.filter fun r => p r || q r := by
  have hsorted (p : Record → Bool) : (b.records.filter p).Pairwise fun r s => idLe r s = true :=
    (hb.increasing.filter p).imp fun hlt => decide_eq_true (Nat.le_of_lt hlt)
  have hmerged : ((b.records.filter p).merge (b.records.filter q) idLe).Pairwise
      fun r s => idLe r s = true := by
    refine List.pairwise_merge (fun r s t => ?_) (fun r s => ?_) _ _ (hsorted p) (hsorted q)
    · simp only [idLe, decide_eq_true_eq]
      exact Nat.le_trans
    · simp only [idLe, Bool.or_eq_true, decide_eq_true_eq]
      exact Nat.le_total _ _
  have hperm : ((b.records.filter p).merge (b.records.filter q) idLe).Perm
      (b.records.filter fun r => p r || q r) := by
    refine (List.merge_perm_append idLe).trans ?_
    have hsplit := List.filter_append_perm p (b.records.filter fun r => p r || q r)
    rw [List.filter_filter, List.filter_filter] at hsplit
    convert hsplit using 2
    · exact List.filter_congr fun r _ => by cases p r <;> rfl
    · refine List.filter_congr fun r hr => ?_
      cases hp : p r with
      | true => simp [hpq r hr hp]
      | false => simp
  refine hperm.eq_of_pairwise (fun r s hr hs hrs hsr => ?_) hmerged (hsorted _)
  simp only [idLe, decide_eq_true_eq] at hrs hsr
  have hr := List.mem_of_mem_filter (hperm.mem_iff.1 hr)
  exact hb.eq_of_id_eq hr (List.mem_of_mem_filter hs) (Nat.le_antisymm hrs hsr)

theorem Numbered.mergeById_filter (hb : b.Numbered) (key : Record → String) {names : List String}
    (hnames : names.Nodup) :
    mergeById (names.map fun k => b.records.filter fun r => key r == k) =
      b.records.filter fun r => names.contains (key r) := by
  induction names with
  | nil => simp [mergeById]
  | cons k names ih =>
    obtain ⟨hk, hnames⟩ := List.nodup_cons.1 hnames
    rw [List.map_cons, mergeById, List.foldr_cons, ← mergeById, ih hnames, hb.merge_filter]
    · simp only [List.contains_cons]
    · intro r _ hkey
      cases eq_of_beq hkey
      simpa using hk

theorem Numbered.partition (hb : b.Numbered) {key : Record → String} {names : List String}
    (hnames : names.Nodup) (hkey : ∀ r ∈ b.records, key r ∈ names) :
    b.Partition names fun k => b.records.filter fun r => key r == k where
  nodup := hnames
  sublist k := List.filter_sublist
  disjoint j k hjk r hj hk := by
    rw [List.mem_filter] at hj hk
    exact hjk ((eq_of_beq hj.2).symm.trans (eq_of_beq hk.2))
  merged := by
    rw [hb.mergeById_filter key hnames, List.filter_eq_self]
    exact fun r hr => List.contains_iff_mem.2 (hkey r hr)

theorem Numbered.partition_ofType (hb : b.Numbered) : b.Partition Event.types b.ofType :=
  hb.partition Event.nodup_types fun r _ => r.event.type_mem_types

theorem Numbered.partition_ofFunction (hb : b.Numbered) : b.Partition b.functions b.ofFunction :=
  hb.partition (List.nodup_dedup _) fun _ hr => List.mem_dedup.2 (List.mem_map_of_mem hr)

/-! ### Counting -/

variable {names : List String} {k : String} {n : Nat}

theorem get?_foldl_tally (m : Dict Nat) (names : List String) (k : String) :
    (names.foldl (fun m k => m.insert k ((m.get? k).getD 0 + 1)) m).get? k =
      if k ∈ names then some ((m.get? k).getD 0 + names.count k) else m.get? k := by
  induction names generalizing m with
  | nil => simp
  | cons j names ih =>
    rw [List.foldl_cons, ih, Dict.get?_insert]
    by_cases hk : k = j
    · subst hk
      by_cases hmem : k ∈ names
      · simp [hmem]
        omega
      · simp [hmem, List.count_eq_zero_of_not_mem hmem]
    · simp [hk, List.count_cons_of_ne (Ne.symm hk)]

theorem get?_tally_eq_some_iff : (tally names).get? k = some n ↔ k ∈ names ∧ n = names.count k := by
  rw [tally, get?_foldl_tally]
  by_cases hk : k ∈ names
  · simp [hk, eq_comm]
  · simp [hk]

theorem values_eq_map_keys (m : Dict Nat) : m.values = m.keys.map fun k => (m.get? k).getD 0 := by
  rw [← m.map_fst_entries, Dict.values, List.map_map]
  refine List.map_congr_left fun e he => ?_
  rw [Function.comp_apply, Dict.get?_eq_some_iff.2 he, Option.getD_some]

theorem sum_values_tally (names : List String) : (tally names).values.sum = names.length := by
  have hkeys : (tally names).keys.Perm names.dedup := by
    refine (List.perm_ext_iff_of_nodup (tally names).nodup_keys (List.nodup_dedup names)).2 ?_
    intro k
    rw [Dict.mem_keys_iff, List.mem_dedup]
    simp [get?_tally_eq_some_iff]
  calc (tally names).values.sum
      = ((tally names).keys.map names.count).sum := by
        rw [values_eq_map_keys]
        refine congrArg List.sum (List.map_congr_left fun k hk => ?_)
        obtain ⟨n, hn⟩ := Dict.mem_keys_iff.1 hk
        rw [hn, (get?_tally_eq_some_iff.1 hn).2, Option.getD_some]
    _ = (names.dedup.map names.count).sum := (hkeys.map _).sum_eq
    _ = names.length := List.sum_map_count_dedup_eq_length names

/-! ### Statistics -/

theorem get?_eventCounts_eq_some_iff {type : String} :
    b.stats.eventCounts.get? type = some n ↔
      b.ofType type ≠ [] ∧ n = (b.ofType type).length := by
  have hcount : (b.records.map (·.event.type)).count type = (b.ofType type).length := by
    rw [ofType, ← List.countP_eq_length_filter, List.count, List.countP_map]
    rfl
  rw [stats, get?_tally_eq_some_iff, hcount, ← List.length_pos_iff, ← hcount, List.count_pos_iff]

theorem ofFunction_inter_ofType (b : Ring) (function : String) :
    b.ofFunction function ∩ b.ofType "call" =
      (b.records.filter (·.event.isCall)).filter (·.event.function == function) := by
  rw [ofFunction, List.filter_filter]
  change List.filter _ (List.filter _ _) = _
  rw [List.filter_filter]
  refine List.filter_congr fun r hr => ?_
  have hcall : (b.ofType "call").elem r = r.event.isCall := by
    rw [Bool.eq_iff_iff, List.elem_iff, ofType, List.mem_filter, beq_iff_eq,
      Event.type_eq_call_iff]
    exact and_iff_right hr
  rw [hcall, Bool.and_comm]

theorem get?_callCounts_eq_some_iff {function : String} :
    b.stats.callCounts.get? function = some n ↔
      (∃ r ∈ b.records, ∃ argCount, r.event = .call function argCount) ∧
        n = (b.ofFunction function ∩ b.ofType "call").length := by
  have hcount : ((b.records.filter (·.event.isCall)).map (·.event.function)).count function =
      (b.ofFunction function ∩ b.ofType "call").length := by
    rw [ofFunction_inter_ofType, ← List.countP_eq_length_filter, List.count, List.countP_map]
    rfl
  rw [stats, get?_tally_eq_some_iff, hcount]
  simp only [List.mem_map, List.mem_filter, and_assoc, Event.isCall_iff]

theorem getD_get?_eventCounts (b : Ring) (type : String) :
    (b.stats.eventCounts.get? type).getD 0 = (b.ofType type).length := by
  by_cases hnil : b.ofType type = []
  · cases hget : b.stats.eventCounts.get? type with
    | none => rw [hnil, Option.getD_none, List.length_nil]
    | some n => exact absurd hnil (get?_eventCounts_eq_some_iff.1 hget).1
  · rw [get?_eventCounts_eq_some_iff.2 ⟨hnil, rfl⟩, Option.getD_some]

theorem sum_eventCounts (b : Ring) : b.stats.eventCounts.values.sum = b.size := by
  rw [stats, sum_values_tally, List.length_map, size]

theorem sum_callCounts (b : Ring) :
    b.stats.callCounts.values.sum = (b.stats.eventCounts.get? "call").getD 0 := by
  have hcalls : b.records.filter (·.event.isCall) = b.ofType "call" := by
    refine List.filter_congr fun r _ => ?_
    rw [Bool.eq_iff_iff, beq_iff_eq, Event.type_eq_call_iff]
  rw [getD_get?_eventCounts, stats, sum_values_tally, List.length_map, hcalls]

/-- After every run of changes the queries of a ring agree with its records. The newest records are
the end of the list. The records by type are a partition of all records, and so are the records by
function. The counts of the statistics are the lengths of these parts, with no count for a part that
is empty, and they sum up to the number of records and of calls. The last record has the greatest
id. -/
theorem queries_agree_with_records (capacity : Nat) (cs : List Change) :
    let b := (ofCapacity capacity).changeAll cs
    (∀ n, b.recent n <:+ b.records ∧ (b.recent n).length = min n b.size) ∧
      b.Partition Event.types b.ofType ∧ b.Partition b.functions b.ofFunction ∧
      (∀ type n, b.stats.eventCounts.get? type = some n ↔
        b.ofType type ≠ [] ∧ n = (b.ofType type).length) ∧
      (∀ function n, b.stats.callCounts.get? function = some n ↔
        (∃ r ∈ b.records, ∃ argCount, r.event = .call function argCount) ∧
          n = (b.ofFunction function ∩ b.ofType "call").length) ∧
      b.stats.recordCount = b.size ∧
      b.stats.eventCounts.values.sum = b.stats.recordCount ∧
      b.stats.callCounts.values.sum = (b.stats.eventCounts.get? "call").getD 0 ∧
      ∀ r, b.last? = some r ↔ r ∈ b.records ∧ ∀ s ∈ b.records, s.id ≤ r.id := by
  intro b
  have hb : b.Numbered := (numbered_ofCapacity capacity).changeAll cs
  exact ⟨fun n => ⟨b.recent_suffix n, b.length_recent n⟩, hb.partition_ofType,
    hb.partition_ofFunction, fun _ _ => get?_eventCounts_eq_some_iff,
    fun _ _ => get?_callCounts_eq_some_iff, rfl, b.sum_eventCounts, b.sum_callCounts,
    fun _ => hb.last?_eq_some_iff⟩

end Ring

end ScriptHost.Trace
