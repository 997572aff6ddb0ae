/-!
# Dictionaries with string keys

A dictionary lists its keys in increasing order and has one value for each of
them. It is built from a list of entries, where the last entry of a key
counts.
-/

namespace ScriptHost

/-- One value for each key of a list. -/
inductive Dict.Row (α : Type) : List String → Type where
  | nil : Row α []
  | cons {keys : List String} (k : String) (a : α) (rest : Row α keys) : Row α (k :: keys)

/-- Values under increasing keys. -/
structure Dict (α : Type) where
  keys : List String
  /-- No key occurs twice, and the keys increase. -/
  sorted : keys.Pairwise (· < ·)
  row : Dict.Row α keys

namespace Dict

variable {α β : Type}

namespace Row

variable {keys : List String}

def entries {keys : List String} : Row α keys → List (String × α)
  | nil => []
  | cons k a rest => (k, a) :: rest.entries

def ofEntries : (l : List (String × α)) → Row α (l.map Prod.fst)
  | [] => nil
  | (k, a) :: rest => cons k a (ofEntries rest)

def pmap {P : α → Prop} (f : (a : α) → P a → β) {keys : List String} :
    (r : Row α keys) → (∀ e ∈ r.entries, P e.2) → Row β keys
  | nil, _ => nil
  | cons k a rest, h =>
    cons k (f a (h (k, a) List.mem_cons_self))
      (rest.pmap f fun e he => h e (List.mem_cons_of_mem _ he))

def map (f : α → β) {keys : List String} : Row α keys → Row β keys
  | nil => nil
  | cons k a rest => cons k (f a) (rest.map f)

theorem map_fst_entries (r : Row α keys) : r.entries.map Prod.fst = keys := by
  induction r with
  | nil => rfl
  | cons k a rest ih => simp [entries, ih]

@[simp] theorem entries_ofEntries (l : List (String × α)) : (ofEntries l).entries = l := by
  induction l with
  | nil => rfl
  | cons e rest ih => simp [ofEntries, entries, ih]

theorem entries_inj {r s : Row α keys} (h : r.entries = s.entries) : r = s := by
  induction r with
  | nil => cases s; rfl
  | cons k a rest ih =>
    cases s with
    | cons _ b rest' =>
      simp only [entries, List.cons.injEq, Prod.mk.injEq, true_and] at h
      rw [h.1, ih h.2]

@[simp] theorem entries_map (f : α → β) (r : Row α keys) :
    (r.map f).entries = r.entries.map fun e => (e.1, f e.2) := by
  induction r with
  | nil => rfl
  | cons k a rest ih => simp [map, entries, ih]

theorem pmap_eq_map {P : α → Prop} (f : α → β) (r : Row α keys) (h : ∀ e ∈ r.entries, P e.2) :
    r.pmap (fun a _ => f a) h = r.map f := by
  induction r with
  | nil => rfl
  | cons k a rest ih => simp [pmap, map, ih]

theorem sizeOf_lt [SizeOf α] {r : Row α keys} {e : String × α} (h : e ∈ r.entries) :
    sizeOf e.2 < sizeOf r := by
  induction r with
  | nil => simp [entries] at h
  | cons k a rest ih =>
    simp only [entries, List.mem_cons] at h
    rcases h with rfl | h
    · simp only [cons.sizeOf_spec]
      omega
    · have := ih h
      simp only [cons.sizeOf_spec]
      omega

end Row

/-- The keys with their values, in key order. -/
def entries (m : Dict α) : List (String × α) :=
  m.row.entries

def values (m : Dict α) : List α :=
  m.entries.map Prod.snd

def size (m : Dict α) : Nat :=
  m.keys.length

def isEmpty (m : Dict α) : Bool :=
  m.keys.isEmpty

def get? (m : Dict α) (k : String) : Option α :=
  m.entries.lookup k

def contains (m : Dict α) (k : String) : Bool :=
  (m.get? k).isSome

def pmap {P : α → Prop} (m : Dict α) (f : (a : α) → P a → β) (h : ∀ e ∈ m.entries, P e.2) :
    Dict β :=
  ⟨m.keys, m.sorted, m.row.pmap f h⟩

def map (f : α → β) (m : Dict α) : Dict β :=
  ⟨m.keys, m.sorted, m.row.map f⟩

@[simp] theorem map_fst_entries (m : Dict α) : m.entries.map Prod.fst = m.keys :=
  m.row.map_fst_entries

theorem length_entries (m : Dict α) : m.entries.length = m.size := by
  rw [size, ← m.map_fst_entries, List.length_map]

@[ext] theorem ext {m n : Dict α} (h : m.entries = n.entries) : m = n := by
  have hk : m.keys = n.keys := by rw [← map_fst_entries, ← map_fst_entries, h]
  obtain ⟨keys, sorted, row⟩ := m
  obtain ⟨keys', sorted', row'⟩ := n
  cases hk
  congr
  exact Row.entries_inj h

@[simp] theorem keys_map (f : α → β) (m : Dict α) : (m.map f).keys = m.keys := rfl

@[simp] theorem entries_map (f : α → β) (m : Dict α) :
    (m.map f).entries = m.entries.map fun e => (e.1, f e.2) :=
  m.row.entries_map f

@[simp] theorem values_map (f : α → β) (m : Dict α) : (m.map f).values = m.values.map f := by
  simp [values, Function.comp_def]

theorem pmap_eq_map {P : α → Prop} (f : α → β) (m : Dict α) (h : ∀ e ∈ m.entries, P e.2) :
    m.pmap (fun a _ => f a) h = m.map f :=
  congrArg (Dict.mk m.keys m.sorted) (Row.pmap_eq_map f m.row h)

theorem map_map {γ : Type} (g : β → γ) (f : α → β) (m : Dict α) :
    (m.map f).map g = m.map fun a => g (f a) := by
  ext1
  simp only [entries_map, List.map_map, Function.comp_def]

theorem map_congr {f g : α → β} {m : Dict α} (h : ∀ e ∈ m.entries, f e.2 = g e.2) :
    m.map f = m.map g := by
  ext1
  simp only [entries_map]
  exact List.map_congr_left fun e he => by rw [h e he]

/-! ### Building a dictionary -/

/-- The dictionary of entries that are in key order. -/
def ofSorted (l : List (String × α)) (h : (l.map Prod.fst).Pairwise (· < ·)) : Dict α :=
  ⟨l.map Prod.fst, h, .ofEntries l⟩

instance : EmptyCollection (Dict α) where
  emptyCollection := ofSorted [] .nil

instance : Inhabited (Dict α) where
  default := ∅

/-- Puts an entry at its place in a sorted list, over an entry of the same key. -/
def insertEntry (k : String) (a : α) : List (String × α) → List (String × α)
  | [] => [(k, a)]
  | (k', a') :: rest =>
    if k < k' then (k, a) :: (k', a') :: rest
    else if k = k' then (k, a) :: rest
    else (k', a') :: insertEntry k a rest

theorem mem_keys_insertEntry {k : String} {a : α} {l : List (String × α)} {x : String} :
    x ∈ (insertEntry k a l).map Prod.fst ↔ x = k ∨ x ∈ l.map Prod.fst := by
  induction l with
  | nil => simp [insertEntry]
  | cons e rest ih =>
    obtain ⟨k', a'⟩ := e
    simp only [insertEntry]
    split
    · simp
    · split
      · next h => subst h; simp
      · simp only [List.map_cons, List.mem_cons, ih]
        grind

theorem sorted_insertEntry {l : List (String × α)} (h : (l.map Prod.fst).Pairwise (· < ·))
    (k : String) (a : α) : ((insertEntry k a l).map Prod.fst).Pairwise (· < ·) := by
  induction l with
  | nil => simp [insertEntry]
  | cons e rest ih =>
    obtain ⟨k', a'⟩ := e
    simp only [List.map_cons, List.pairwise_cons] at h
    simp only [insertEntry]
    split
    · next hlt =>
      simp only [List.map_cons, List.pairwise_cons, List.mem_cons]
      refine ⟨?_, h.1, h.2⟩
      rintro x (rfl | hx)
      · exact hlt
      · exact String.lt_trans hlt (h.1 x hx)
    · next hnlt =>
      split
      · next heq =>
        subst heq
        simpa using h
      · next hne =>
        simp only [List.map_cons, List.pairwise_cons]
        refine ⟨fun x hx => ?_, ih h.2⟩
        rcases mem_keys_insertEntry.1 hx with rfl | hx
        · exact Std.lt_of_le_of_ne (String.not_lt.1 hnlt) (Ne.symm hne)
        · exact h.1 x hx

/-- Binds `k` to `a`, whatever `k` was bound to before. -/
def insert (m : Dict α) (k : String) (a : α) : Dict α :=
  ofSorted (insertEntry k a m.entries)
    (sorted_insertEntry (by rw [map_fst_entries]; exact m.sorted) k a)

/-- The dictionary of a list of entries. Of two entries with one key the later counts. -/
def ofList (l : List (String × α)) : Dict α :=
  l.foldl (fun m e => m.insert e.1 e.2) ∅

@[simp] theorem entries_ofSorted (l : List (String × α)) (h : (l.map Prod.fst).Pairwise (· < ·)) :
    (ofSorted l h).entries = l :=
  Row.entries_ofEntries l

@[simp] theorem entries_empty : (∅ : Dict α).entries = [] := rfl

@[simp] theorem entries_insert (m : Dict α) (k : String) (a : α) :
    (m.insert k a).entries = insertEntry k a m.entries :=
  entries_ofSorted ..

theorem insertEntry_of_forall_lt {k : String} {a : α} {l : List (String × α)}
    (hl : ∀ e ∈ l, e.1 < k) : insertEntry k a l = l ++ [(k, a)] := by
  induction l with
  | nil => rfl
  | cons e l ih =>
    have hlt : e.1 < k := hl e List.mem_cons_self
    have hnlt : ¬k < e.1 := fun h => String.lt_irrefl _ (String.lt_trans h hlt)
    have hne : k ≠ e.1 := fun h => String.lt_irrefl _ (h ▸ hlt)
    rw [insertEntry, if_neg hnlt, if_neg hne, ih fun e he => hl e (List.mem_cons_of_mem _ he),
      List.cons_append]

theorem entries_foldl_insert {l : List (String × α)} (m : Dict α)
    (hl : ((m.entries ++ l).map Prod.fst).Pairwise (· < ·)) :
    (l.foldl (fun m e => m.insert e.1 e.2) m).entries = m.entries ++ l := by
  induction l generalizing m with
  | nil => simp
  | cons e l ih =>
    have hlast : ∀ e' ∈ m.entries, e'.1 < e.1 := by
      intro e' he'
      rw [List.map_append, List.pairwise_append] at hl
      exact hl.2.2 e'.1 (List.mem_map_of_mem he') e.1 (by simp)
    have hinsert : (m.insert e.1 e.2).entries = m.entries ++ [e] := by
      rw [entries_insert, insertEntry_of_forall_lt hlast]
    rw [List.foldl_cons, ih, hinsert, List.append_assoc, List.singleton_append]
    rwa [hinsert, List.append_assoc, List.singleton_append]

/-- A list whose keys increase has these entries and no others. -/
theorem entries_ofList {l : List (String × α)} (hl : (l.map Prod.fst).Pairwise (· < ·)) :
    (ofList l).entries = l :=
  entries_foldl_insert ∅ hl

theorem ofList_entries (m : Dict α) : ofList m.entries = m := by
  ext1
  exact entries_ofList (by rw [map_fst_entries]; exact m.sorted)

/-! ### Looking up -/

theorem nodup_keys (m : Dict α) : m.keys.Nodup :=
  m.sorted.imp fun h => by
    rintro rfl
    exact String.lt_irrefl _ h

theorem lookup_cons (k x : String) (a : α) (l : List (String × α)) :
    ((k, a) :: l).lookup x = if x = k then some a else l.lookup x := by
  by_cases h : x = k
  · simp [h]
  · have : (x == k) = false := by simpa using h
    simp [List.lookup_cons, this, h]

theorem lookup_eq_some_iff {l : List (String × α)} (h : (l.map Prod.fst).Nodup) {k : String}
    {a : α} : l.lookup k = some a ↔ (k, a) ∈ l := by
  induction l with
  | nil => simp
  | cons e rest ih =>
    obtain ⟨k', a'⟩ := e
    simp only [List.map_cons, List.nodup_cons] at h
    rw [lookup_cons]
    by_cases hk : k = k'
    · subst hk
      have : (k, a) ∉ rest := fun he => h.1 (List.mem_map_of_mem he)
      simp [this, eq_comm]
    · simp [hk, ih h.2]

theorem get?_eq_some_iff {m : Dict α} {k : String} {a : α} :
    m.get? k = some a ↔ (k, a) ∈ m.entries :=
  lookup_eq_some_iff (by rw [map_fst_entries]; exact m.nodup_keys)

theorem contains_iff {m : Dict α} {k : String} : m.contains k = true ↔ k ∈ m.keys := by
  simp only [contains, Option.isSome_iff_exists, get?_eq_some_iff, ← map_fst_entries, List.mem_map]
  exact ⟨fun ⟨a, h⟩ => ⟨(k, a), h, rfl⟩, fun ⟨(_, a), h, hk⟩ => ⟨a, hk ▸ h⟩⟩

theorem mem_keys_iff {m : Dict α} {k : String} : k ∈ m.keys ↔ ∃ a, m.get? k = some a := by
  rw [← contains_iff, contains, Option.isSome_iff_exists]

@[simp] theorem get?_map (f : α → β) (m : Dict α) (k : String) :
    (m.map f).get? k = (m.get? k).map f := by
  simp only [get?, entries_map]
  generalize m.entries = l
  induction l with
  | nil => rfl
  | cons e rest ih =>
    rw [List.map_cons, lookup_cons, lookup_cons, ih]
    split <;> rfl

theorem lookup_insertEntry (k x : String) (a : α) (l : List (String × α)) :
    (insertEntry k a l).lookup x = if x = k then some a else l.lookup x := by
  induction l with
  | nil => simp [insertEntry, lookup_cons]
  | cons e rest ih =>
    obtain ⟨k', a'⟩ := e
    simp only [insertEntry]
    split
    · rw [lookup_cons]
    · split
      · next h =>
        subst h
        rw [lookup_cons, lookup_cons]
        split <;> rfl
      · next h =>
        rw [lookup_cons, lookup_cons, ih]
        by_cases hx : x = k
        · subst hx
          simp [h]
        · simp [hx]

theorem get?_insert (m : Dict α) (k x : String) (a : α) :
    (m.insert k a).get? x = if x = k then some a else m.get? x := by
  simp only [get?, entries_insert, lookup_insertEntry]

@[simp] theorem get?_empty (k : String) : (∅ : Dict α).get? k = none := rfl

/-! ### Two dictionaries with the same keys -/

theorem keys_eq_iff {m : Dict α} {n : Dict β} :
    m.keys = n.keys ↔ ∀ k, k ∈ m.keys ↔ k ∈ n.keys := by
  refine ⟨fun h k => by rw [h], fun h => ?_⟩
  have hperm := (List.perm_ext_iff_of_nodup m.nodup_keys n.nodup_keys).2 fun {k} => h k
  refine hperm.eq_of_pairwise (fun a b _ _ hab hba => ?_) m.sorted n.sorted
  exact (String.lt_irrefl _ (String.lt_trans hab hba)).elim

theorem eq_of_keys_eq_of_values_eq {m n : Dict α} (hkeys : m.keys = n.keys)
    (hvalues : m.values = n.values) : m = n := by
  have hm : m.entries = m.keys.zip m.values := List.zip_of_prod m.map_fst_entries rfl
  have hn : n.entries = n.keys.zip n.values := List.zip_of_prod n.map_fst_entries rfl
  ext1
  rw [hm, hn, hkeys, hvalues]

theorem mem_zip_map_snd_iff {l : List (String × α)} {l' : List (String × β)}
    (hkeys : l.map Prod.fst = l'.map Prod.fst) (hl : (l.map Prod.fst).Nodup) {a : α} {b : β} :
    (a, b) ∈ (l.map Prod.snd).zip (l'.map Prod.snd) ↔ ∃ k, (k, a) ∈ l ∧ (k, b) ∈ l' := by
  induction l generalizing l' with
  | nil => simp
  | cons e l ih =>
    obtain ⟨x, c⟩ := e
    cases l' with
    | nil => simp at hkeys
    | cons e' l' =>
      obtain ⟨x', d⟩ := e'
      simp only [List.map_cons, List.cons.injEq] at hkeys
      obtain ⟨rfl, hkeys⟩ := hkeys
      rw [List.map_cons, List.nodup_cons] at hl
      have hleft (y : α) : (x, y) ∉ l := fun h => hl.1 (List.mem_map.2 ⟨_, h, rfl⟩)
      have hright (y : β) : (x, y) ∉ l' :=
        fun h => hl.1 (hkeys ▸ List.mem_map.2 ⟨_, h, rfl⟩)
      simp only [List.map_cons, List.zip_cons_cons, List.mem_cons, ih hkeys hl.2, Prod.mk.injEq]
      constructor
      · rintro (⟨rfl, rfl⟩ | ⟨k, ha, hb⟩)
        · exact ⟨x, .inl ⟨rfl, rfl⟩, .inl ⟨rfl, rfl⟩⟩
        · exact ⟨k, .inr ha, .inr hb⟩
      · rintro ⟨k, ⟨rfl, rfl⟩ | ha, ⟨h, rfl⟩ | hb⟩
        · exact .inl ⟨rfl, rfl⟩
        · exact (hright b hb).elim
        · exact (hleft a (h ▸ ha)).elim
        · exact .inr ⟨k, ha, hb⟩

theorem mem_zip_values_iff {m : Dict α} {n : Dict β} (hkeys : m.keys = n.keys) {a : α} {b : β} :
    (a, b) ∈ m.values.zip n.values ↔ ∃ k, m.get? k = some a ∧ n.get? k = some b := by
  simp only [get?_eq_some_iff]
  refine mem_zip_map_snd_iff ?_ ?_
  · rw [map_fst_entries, map_fst_entries, hkeys]
  · rw [map_fst_entries]
    exact m.nodup_keys

end Dict

end ScriptHost
