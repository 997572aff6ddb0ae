import ScriptHost.Proofs.MessagePackReader
import ScriptHost.Proofs.SerializationFailure
/-!
# The binary form is read back

The decoder reads one binary form from the front of a byte string. It finds
the tree that was written, with callables as texts and errors as maps, and
leaves the bytes that follow. So a binary form tells where it ends, and two
values have one binary form if and only if nothing else was lost of them.
-/

namespace ScriptHost

/-- The length of the atom, if it has one, fits in four bytes. -/
def Atom.Fits : Atom → Prop
  | string s => (Text.toBytes s).length < 0x100000000
  | bytes b => b.length < 0x100000000
  | builtin f => (Text.toBytes f.name).length < 0x100000000
  | _ => True

namespace Tree

/-- What is left of each kind of node in the binary form. -/
def normAlgebra : Algebra Tree where
  atom
    | .builtin f => .atom (.string f.name)
    | a => .atom a
  array := .array
  ancestor := .ancestor
  map := .map
  error p := .map (Dict.ofList [("error", p)])

/-- The tree with each callable replaced by its name, and each error by a map with the one key
`error`. -/
def norm (t : Tree) : Tree :=
  t.fold normAlgebra

/-- Every length in the tree fits in four bytes. -/
inductive Fits : Tree → Prop where
  | atom {a : Atom} (fits : a.Fits) : Fits (atom a)
  | array {ts : List Tree} (length : ts.length < 0x100000000) (parts : ∀ t ∈ ts, Fits t) :
      Fits (array ts)
  | ancestor (up : Nat) : Fits (ancestor up)
  | map {m : Dict Tree} (size : m.size < 0x100000000)
      (keys : ∀ k ∈ m.keys, (Text.toBytes k).length < 0x100000000)
      (values : ∀ e ∈ m.entries, Fits e.2) : Fits (map m)
  | error {p : Tree} (payload : Fits p) : Fits (error p)

variable {t : Tree} {ts : List Tree} {m : Dict Tree}

@[simp] theorem norm_array : (array ts).norm = .array (ts.map norm) := by
  simp only [norm, fold_array, normAlgebra]
  rfl

@[simp] theorem norm_ancestor (up : Nat) : (ancestor up).norm = .ancestor up := by
  simp [norm, normAlgebra]

@[simp] theorem norm_map : (map m).norm = .map (m.map norm) := by
  simp only [norm, fold_map, normAlgebra]
  rfl

@[simp] theorem norm_error : (error t).norm = .map (Dict.ofList [("error", t.norm)]) := by
  simp only [norm, fold_error, normAlgebra]

end Tree

namespace MessagePack

namespace Read

/-- The key that begins with a head, and its value. -/
def entryFrom {α : Type} (value : Reader α) : Head → Reader (String × α)
  | .text n => do
    let k ← text n
    let a ← value
    return (k, a)
  | _ => failure

/-- The tree that begins with a head, with a reader for its parts. -/
def treeFrom (part : Reader Tree) : Head → Reader Tree
  | .atom a => return .atom a
  | .text n => (fun s => .atom (.string s)) <$> text n
  | .bytes n => (fun b => .atom (.bytes b)) <$> take n
  | .array n => .array <$> many part n
  | .map n => (fun es => .map (Dict.ofList es)) <$> many (head >>= entryFrom part) n

/-- A tree that is less deep than the given number. -/
def tree : Nat → Reader Tree
  | 0 => failure
  | depth + 1 => head >>= treeFrom (tree depth)

end Read

/-- Reads one tree from the front of a byte string and leaves the rest. A tree is less deep than
its binary form is long. -/
def decode (b : List UInt8) : Option (Tree × List UInt8) :=
  Read.tree (b.length + 1) b

variable {t : Tree} {ts : List Tree} {m : Dict Tree} {b : List UInt8} {depth : Nat}

theorem reads_atom {a : Atom} (part : Reader Tree) (ha : a.Fits) :
    Reads (Read.head >>= Read.treeFrom part) (atom a) (Tree.atom a).norm := by
  have hplain {a : Atom} {b : List UInt8} (hb : Reads Read.head b (.atom a)) :
      Reads (Read.head >>= Read.treeFrom part) (b ++ []) (.atom a) :=
    .bind hb (.pure (Tree.atom a))
  have htext {s : String} (hs : (Text.toBytes s).length < room 4) :
      Reads (Read.head >>= Read.treeFrom part) (text s) (.atom (.string s)) :=
    .bind (reads_textHeader hs) (.map _ (reads_text s))
  cases a with
  | undefined => exact hplain (reads_head_alone rfl rfl)
  | bool b => cases b <;> exact hplain (reads_head_alone rfl rfl)
  | int n =>
    have hn := reads_integer n.le_toInt n.toInt_lt
    rw [Read.integer, Int64.ofInt_toInt] at hn
    have hread := hplain hn
    rwa [List.append_nil] at hread
  | float x =>
    have hread := hplain (reads_float x)
    rwa [List.append_nil] at hread
  | string s => exact htext ha
  | bytes b => exact .bind (reads_bytesHeader ha) (.map _ (reads_take b))
  | builtin f => exact htext ha

theorem reads_entry {read : Reader Tree} {k : String} (hk : (Text.toBytes k).length < room 4)
    (ht : Reads read b t) : Reads (Read.head >>= Read.entryFrom read) (text k ++ b) (k, t) := by
  have hrest : Reads (Read.entryFrom read (.text (Text.toBytes k).length))
      (Text.toBytes k ++ b) (k, t) := .bind (reads_text k) (.map _ ht)
  rw [text, List.append_assoc]
  exact .bind (reads_textHeader hk) hrest

theorem reads_array {part : Reader Tree} {bs : List (List UInt8)} (hsize : bs.length < room 4)
    (hts : List.Forall₂ (Reads part) bs ts) :
    Reads (Read.head >>= Read.treeFrom part) (arrayHeader bs.length ++ bs.flatten)
      (.array ts) :=
  .bind (reads_arrayHeader hsize) (.map _ (.many hts))

theorem reads_map {part : Reader Tree} {es : List (String × List UInt8)} {us : List (String × Tree)}
    (hsize : es.length < room 4)
    (hes : List.Forall₂ (fun e u => (Text.toBytes e.1).length < room 4 ∧ e.1 = u.1 ∧
      Reads part e.2 u.2) es us) :
    Reads (Read.head >>= Read.treeFrom part) (entries es) (.map (Dict.ofList us)) := by
  have hmany : Reads (Read.many (Read.head >>= Read.entryFrom part) es.length)
      (es.flatMap fun e => text e.1 ++ e.2) us := by
    have hentries : List.Forall₂ (Reads (Read.head >>= Read.entryFrom part))
        (es.map fun e => text e.1 ++ e.2) us := by
      rw [List.forall₂_map_left_iff]
      refine hes.imp ?_
      rintro ⟨k, b⟩ ⟨k', u⟩ ⟨hk, rfl, hb⟩
      exact reads_entry hk hb
    simpa [List.flatMap] using Reads.many hentries
  exact .bind (reads_mapHeader hsize) (.map _ hmany)

/-! ### Trees -/

theorem forall₂_of_collect {α β : Type} {f : α → Option β} {l : List α} {bs : List β}
    (hbs : collect (l.map f) = some bs) : List.Forall₂ (fun a b => f a = some b) l bs := by
  rw [collect_eq_some_iff] at hbs
  have hsame : List.Forall₂ (· = ·) (l.map f) (bs.map some) := by
    rw [hbs]
    exact List.forall₂_same.2 fun _ _ => rfl
  rwa [List.forall₂_map_left_iff, List.forall₂_map_right_iff] at hsame

theorem length_lt_array {bs : List (List UInt8)} (hb : b ∈ bs) :
    b.length < (arrayHeader bs.length ++ bs.flatten).length := by
  have hle : b.length ≤ bs.flatten.length := (List.sublist_flatten_of_mem hb).length_le
  have hpos : 0 < (arrayHeader bs.length).length := by
    unfold arrayHeader
    split
    · exact Nat.one_pos
    split <;> exact Nat.succ_pos _
  rw [List.length_append]
  omega

theorem length_lt_entries {es : List (String × List UInt8)} {e : String × List UInt8}
    (he : e ∈ es) : e.2.length < (entries es).length := by
  have hmem : text e.1 ++ e.2 ∈ es.map fun e => text e.1 ++ e.2 := List.mem_map_of_mem he
  have hle := (List.sublist_flatten_of_mem hmem).length_le
  have hpos : 0 < (mapHeader es.length).length := by
    unfold mapHeader
    split
    · exact Nat.one_pos
    split <;> exact Nat.succ_pos _
  rw [List.length_append] at hle
  rw [entries, List.length_append, List.flatMap]
  omega

/-- A part is less deep than the whole, so it is read with one level less. -/
theorem reads_part {u : Tree}
    (hu : ∀ d, b.length ≤ d → Reads (Read.head >>= Read.treeFrom (Read.tree d)) b u)
    (hdepth : b.length < depth) : Reads (Read.tree depth) b u := by
  cases depth with
  | zero => exact absurd hdepth (Nat.not_lt_zero _)
  | succ depth => exact hu depth (Nat.le_of_lt_succ hdepth)

/-- The binary form of a tree is read back as what is left of the tree. -/
theorem reads_tree (ht : t.Fits) (hb : encode? t = some b) (hdepth : b.length ≤ depth) :
    Reads (Read.head >>= Read.treeFrom (Read.tree depth)) b t.norm := by
  induction t generalizing b depth with
  | ancestor up => simp at hb
  | atom a =>
    cases ht with
    | atom ha =>
      rw [encode?_atom, Option.some.injEq] at hb
      exact hb ▸ reads_atom _ ha
  | array ts ih =>
    cases ht with
    | array length parts =>
      rw [encode?_array, Option.map_eq_some_iff] at hb
      obtain ⟨bs, hbs, rfl⟩ := hb
      have hall := forall₂_of_collect hbs
      rw [Tree.norm_array]
      refine reads_array (hall.length_eq ▸ length) (List.forall₂_iff_get.2 ⟨?_, ?_⟩)
      · rw [List.length_map, hall.length_eq]
      · intro i hi hi'
        have hi' : i < ts.length := by simpa using hi'
        have hlt := length_lt_array (List.getElem_mem hi)
        rw [List.get_eq_getElem, List.get_eq_getElem, List.getElem_map]
        refine reads_part ?_ (Nat.lt_of_lt_of_le hlt hdepth)
        intro d hd
        have hmem := List.getElem_mem hi'
        exact ih ts[i] hmem (parts _ hmem) (hall.get hi' hi) hd
  | map m ih =>
    cases ht with
    | map size keys values =>
      rw [encode?_map, Option.map_eq_some_iff] at hb
      obtain ⟨es, hes, rfl⟩ := hb
      have hall := forall₂_of_collect hes
      have hlen : es.length = m.keys.length := by
        rw [← hall.length_eq, ← Dict.map_fst_entries, List.length_map]
      rw [Tree.norm_map, ← Dict.ofList_entries (m.map Tree.norm), Dict.entries_map]
      refine reads_map (hlen ▸ size) (List.forall₂_iff_get.2 ⟨?_, ?_⟩)
      · rw [List.length_map, hall.length_eq]
      · intro i hi hi'
        have hi' : i < m.entries.length := by simpa using hi'
        have hmem := List.getElem_mem hi'
        obtain ⟨b, hb, heq⟩ := Option.map_eq_some_iff.1 (hall.get hi' hi)
        have heq : (m.entries[i].1, b) = es[i] := heq
        have hlt := length_lt_entries (List.getElem_mem hi)
        rw [← heq] at hlt
        simp only [List.get_eq_getElem, List.getElem_map, ← heq]
        refine ⟨keys _ (m.map_fst_entries ▸ List.mem_map_of_mem hmem), trivial, ?_⟩
        refine reads_part ?_ (Nat.lt_of_lt_of_le hlt hdepth)
        intro d hd
        exact ih m.entries[i] hmem (values _ hmem) hb hd
  | error p ih =>
    cases ht with
    | error payload =>
      rw [encode?_error, Option.map_eq_some_iff] at hb
      obtain ⟨b, hp, rfl⟩ := hb
      have hlt := length_lt_entries (List.mem_singleton.2 rfl : ("error", b) ∈ [("error", b)])
      have hone : 1 < room 4 := by decide
      have hkey : (Text.toBytes "error").length < room 4 := by decide
      rw [Tree.norm_error]
      refine reads_map hone (.cons ⟨hkey, rfl, ?_⟩ .nil)
      refine reads_part ?_ (Nat.lt_of_lt_of_le hlt hdepth)
      intro d hd
      exact ih payload hp hd

theorem decode_append (ht : t.Fits) (hb : encode? t = some b) (rest : List UInt8) :
    decode (b ++ rest) = some (t.norm, rest) := by
  have hle : b.length ≤ (b ++ rest).length := by
    rw [List.length_append]
    exact Nat.le_add_right _ _
  exact reads_tree ht hb hle rest

/-- Nothing that the binary form depends on is lost. -/
theorem encode?_norm (t : Tree) : encode? t.norm = encode? t := by
  induction t with
  | atom a => cases a <;> simp [Tree.norm, Tree.normAlgebra, atom]
  | ancestor up => rw [Tree.norm_ancestor]
  | array ts ih =>
    rw [Tree.norm_array, encode?_array, encode?_array, List.map_map]
    congr 2
    exact List.map_congr_left ih
  | map m ih =>
    rw [Tree.norm_map, encode?_map, encode?_map, Dict.entries_map, List.map_map]
    congr 2
    apply List.map_congr_left
    intro e he
    exact congrArg (Option.map (e.1, ·)) (ih e he)
  | error p ih =>
    have hentries : (Dict.ofList [("error", p.norm)]).entries = [("error", p.norm)] :=
      Dict.entries_ofList (List.pairwise_singleton _ _)
    rw [Tree.norm_error, encode?_error, encode?_map, hentries, List.map_singleton, ih]
    cases encode? p <;> rfl

end MessagePack

namespace Heap

/-- The length of the value itself, and of the keys of a map, fits in four bytes. -/
def FitsAt (h : Heap) : Value → Prop
  | .atom a => a.Fits
  | .array r => (h.items r).length < 0x100000000
  | .map m => m.size < 0x100000000 ∧ ∀ k ∈ m.keys, (Text.toBytes k).length < 0x100000000
  | .error _ => True

/-- A value that can be written and read back: it has no cycle, and no text, byte sequence, array
or map that it reaches has a length of `2 ^ 32` or more. -/
structure Writable (h : Heap) (v : Value) : Prop where
  acyclic : ¬h.Cyclic v
  fits : ∀ w, h.Reaches v w → h.FitsAt w

variable {h h' : Heap} {v w : Value}

theorem fits_unfold (path : List Ref) (v : Value) (hv : ∀ w, h.Reaches v w → h.FitsAt w) :
    (h.unfold path v).Fits := by
  induction path, v using traversal_induct h with
  | atom path a =>
    rw [unfold_atom]
    exact .atom (hv _ (.refl h _))
  | ancestor path r up hr =>
    rw [unfold_array_of_idxOf? hr]
    exact .ancestor up
  | array path r hr ih =>
    rw [unfold_array_of_not_mem hr]
    refine .array ?_ ?_
    · rw [List.length_map]
      exact hv _ (.refl h _)
    · intro t ht
      obtain ⟨w, hw, rfl⟩ := List.mem_map.1 ht
      apply ih w hw
      intro u hu
      exact hv u ((Reaches.of_mem_items hw).trans hu)
  | map path m ih =>
    obtain ⟨hsize, hkeys⟩ := hv _ (.refl h _)
    rw [unfold_map]
    apply Tree.Fits.map hsize hkeys
    intro e he
    rw [Dict.entries_map] at he
    obtain ⟨e', he', rfl⟩ := List.mem_map.1 he
    apply ih e' he'
    intro u hu
    exact hv u ((Reaches.of_mem_entries he').trans hu)
  | error path p ih =>
    rw [unfold_error]
    apply Tree.Fits.error
    apply ih
    intro u hu
    exact hv u ((Reaches.payload p).trans hu)

theorem Writable.exists_encode? (hv : h.Writable v) :
    ∃ b, MessagePack.encode? (h.tree v) = some b ∧
      ∀ rest, MessagePack.decode (b ++ rest) = some ((h.tree v).norm, rest) := by
  have hsome : MessagePack.encode? (h.tree v) ≠ none := fun hnone =>
    hv.acyclic (encode?_tree_eq_none_iff.1 hnone)
  obtain ⟨b, hb⟩ := Option.ne_none_iff_exists'.1 hsome
  exact ⟨b, hb, MessagePack.decode_append (fits_unfold [] v hv.fits) hb⟩

/-- A value without cycles is written out. What is written is the binary form of its tree, from
which the decoder finds what is left of the tree, whatever bytes come after it. Of two such values
the same is written if and only if the same is left of their trees, and what is written of one is
not the beginning of what is written of the other unless it is the same. -/
theorem encode?_self_delimiting (hv : h.Writable v) (hw : h'.Writable w) :
    ∃ b b', h.serialize v [] = some (.ok b, []) ∧ h'.serialize w [] = some (.ok b', []) ∧
      MessagePack.encode? (h.tree v) = some b ∧ MessagePack.encode? (h'.tree w) = some b' ∧
      (∀ rest, MessagePack.decode (b ++ rest) = some ((h.tree v).norm, rest)) ∧
      (b = b' ↔ (h.tree v).norm = (h'.tree w).norm) ∧
      (b <+: b' → b = b') := by
  obtain ⟨b, hb, hread⟩ := hv.exists_encode?
  obtain ⟨b', hb', hread'⟩ := hw.exists_encode?
  have hwhole := hread' []
  rw [List.append_nil] at hwhole
  refine ⟨b, b', serialize_eq_ok hb, serialize_eq_ok hb', hb, hb', hread, ⟨?_, ?_⟩, ?_⟩
  · rintro rfl
    have hsame := hread []
    rw [List.append_nil, hwhole] at hsame
    exact (congrArg Prod.fst (Option.some.inj hsame)).symm
  · intro hnorm
    have hsame : some b = some b' := by
      rw [← hb, ← hb', ← MessagePack.encode?_norm, hnorm, MessagePack.encode?_norm]
    exact Option.some.inj hsame
  · rintro ⟨rest, rfl⟩
    have hrest := congrArg Prod.snd (Option.some.inj (hwhole.symm.trans (hread rest)))
    have hnil : rest = [] := hrest.symm
    rw [hnil, List.append_nil]

/-- An array with a callable and an array with the name of the callable. -/
def nameTwice : Heap := ⟨#[[.builtin ⟨"f", ⟨0⟩⟩], [.string "f"]]⟩

theorem writable_array_atom {r : Ref} {a : Atom} (hr : h.items r = [.atom a]) (ha : a.Fits) :
    h.Writable (.array r) where
  acyclic := by
    rw [cyclic_array_iff, hr]
    simp [reaches_atom_iff, Cyclic]
  fits w hw := by
    rcases reaches_array_iff.1 hw with rfl | ⟨u, hu, huw⟩
    · simp [FitsAt, hr]
    · rw [hr, List.mem_singleton] at hu
      subst hu
      rw [← reaches_atom_iff.1 huw]
      exact ha

theorem norm_tree_nameTwice {r : Ref} (hr : r = ⟨0⟩ ∨ r = ⟨1⟩) :
    (nameTwice.tree (.array r)).norm = .array [.atom (.string "f")] := by
  rw [tree, unfold_array_of_not_mem List.not_mem_nil]
  rcases hr with rfl | rfl <;> simp [nameTwice, items, Tree.norm, Tree.normAlgebra]

/-- A callable is written as its name, and read back as a text. -/
theorem encode?_self_delimiting_nameTwice :
    ∃ b, nameTwice.serialize (.array ⟨0⟩) [] = some (.ok b, []) ∧
      nameTwice.serialize (.array ⟨1⟩) [] = some (.ok b, []) ∧
      MessagePack.encode? (nameTwice.tree (.array ⟨0⟩)) = some b ∧
      MessagePack.encode? (nameTwice.tree (.array ⟨1⟩)) = some b ∧
        ∀ rest, MessagePack.decode (b ++ rest) = some (.array [.atom (.string "f")], rest) := by
  have hfits : (Text.toBytes "f").length < 0x100000000 := by decide
  have hleft : nameTwice.Writable (.array ⟨0⟩) := writable_array_atom rfl hfits
  have hright : nameTwice.Writable (.array ⟨1⟩) := writable_array_atom rfl hfits
  have hnorm₀ := norm_tree_nameTwice (.inl rfl)
  have hnorm₁ := norm_tree_nameTwice (.inr rfl)
  obtain ⟨b, b', hwritten, hwritten', hb, hb', hread, hiff, _⟩ :=
    encode?_self_delimiting hleft hright
  obtain rfl : b = b' := hiff.2 (by rw [hnorm₀, hnorm₁])
  exact ⟨b, hwritten, hwritten', hb, hb', fun rest => by rw [hread, hnorm₀]⟩

end Heap

end ScriptHost
