import ScriptHost.Debug
import ScriptHost.Display
import ScriptHost.Proofs.SerializationFailure
/-!
# Pieces that are written

A value is written out as a sequence of pieces. Whoever takes the pieces may
refuse one, and nothing is written after that. Put together, the texts of the
pieces of a tree are its display text and its debug text, and their bytes are
its binary form. An array inside itself is a piece without a binary form.
-/

namespace ScriptHost

/-- What is written at one time. -/
inductive Piece where
  | atom (a : Atom)
  | beginArray
  | openItems (count : Nat)
  | closeItems
  | endArray
  /-- What stands for the elements of an array inside itself. -/
  | ancestor
  | openEntries (count : Nat)
  | key (k : String)
  | closeEntries
  | openPayload
  | closePayload
  /-- What stands between two elements, or between two entries. -/
  | comma

namespace Piece

variable {α γ δ ε σ : Type}

/-- Writes one piece after the other, up to the first that is refused. -/
def deliver (put : Piece → σ → Except ε σ) (ps : List Piece) (s : σ) : Except ε σ :=
  ps.foldlM (fun s p => put p s) s

theorem deliver_cons (put : Piece → σ → Except ε σ) (p : Piece) (ps : List Piece) (s : σ) :
    deliver put (p :: ps) s = (put p s).bind (deliver put ps) :=
  rfl

theorem deliver_singleton (put : Piece → σ → Except ε σ) (p : Piece) (s : σ) :
    deliver put [p] s = put p s := by
  rw [deliver_cons]
  cases put p s <;> rfl

theorem deliver_append (put : Piece → σ → Except ε σ) (ps qs : List Piece) (s : σ) :
    deliver put (ps ++ qs) s = (deliver put ps s).bind (deliver put qs) :=
  List.foldlM_append

/-! ### The parts of a node -/

/-- Groups of parts, with a comma between any two, after an opening piece and before a closing
one. -/
def enclose (opening closing : Piece) : List (List (Piece ⊕ γ)) → List (Piece ⊕ γ)
  | [] => [.inl opening, .inl closing]
  | group :: groups =>
    .inl opening :: group ++ groups.flatMap (.inl comma :: ·) ++ [.inl closing]

def itemParts (items : List γ) : List (Piece ⊕ γ) :=
  enclose (openItems items.length) closeItems (items.map fun c => [.inr c])

def entryParts (es : List (String × γ)) : List (Piece ⊕ γ) :=
  enclose (openEntries es.length) closeEntries (es.map fun e => [.inl (key e.1), .inr e.2])

def payloadParts (payload : γ) : List (Piece ⊕ γ) :=
  [.inl openPayload, .inr payload, .inl closePayload]

/-- The pieces of the parts, where the other parts have the given pieces. -/
def spread (pieces : γ → List Piece) (parts : List (Piece ⊕ γ)) : List Piece :=
  parts.flatMap (Sum.elim ([·]) pieces)

/-- Collects pieces from the leaves upward. -/
def algebra : Tree.Algebra (List Piece) where
  atom a := [atom a]
  array parts := beginArray :: spread id (itemParts parts) ++ [endArray]
  ancestor _ := [beginArray, ancestor, endArray]
  map m := spread id (entryParts m.entries)
  error p := spread id (payloadParts p)

theorem spread_append (pieces : γ → List Piece) (parts more : List (Piece ⊕ γ)) :
    spread pieces (parts ++ more) = spread pieces parts ++ spread pieces more :=
  List.flatMap_append

theorem spread_cons_inl (pieces : γ → List Piece) (p : Piece) (parts : List (Piece ⊕ γ)) :
    spread pieces (.inl p :: parts) = p :: spread pieces parts :=
  rfl

theorem spread_cons_inr (pieces : γ → List Piece) (c : γ) (parts : List (Piece ⊕ γ)) :
    spread pieces (.inr c :: parts) = pieces c ++ spread pieces parts :=
  rfl

theorem spread_child (pieces : γ → List Piece) (c : γ) : spread pieces [.inr c] = pieces c :=
  List.flatMap_singleton ..

theorem spread_entry (pieces : γ → List Piece) (k : String) (c : γ) :
    spread pieces [.inl (key k), .inr c] = key k :: pieces c :=
  congrArg (key k :: ·) (spread_child pieces c)

theorem spread_payloadParts (pieces : γ → List Piece) (c : γ) :
    spread pieces (payloadParts c) = openPayload :: (pieces c ++ [closePayload]) :=
  rfl

theorem spread_map (f : γ → δ) (pieces : δ → List Piece) (parts : List (Piece ⊕ γ)) :
    spread pieces (parts.map (Sum.map id f)) = spread (pieces ∘ f) parts := by
  simp only [spread, List.flatMap_map]
  congr 1
  funext part
  cases part <;> rfl

theorem map_enclose (f : γ → δ) (opening closing : Piece) (groups : List (List (Piece ⊕ γ))) :
    (enclose opening closing groups).map (Sum.map id f) =
      enclose opening closing (groups.map (List.map (Sum.map id f))) := by
  cases groups with
  | nil => rfl
  | cons group groups =>
    simp only [enclose, List.map_append, List.map_cons, List.map_nil, List.map_flatMap,
      List.flatMap_map]
    rfl

theorem exists_mem_of_mem_enclose {opening closing : Piece} {groups : List (List (Piece ⊕ γ))}
    {c : γ} (hc : .inr c ∈ enclose opening closing groups) : ∃ group ∈ groups, .inr c ∈ group := by
  cases groups with
  | nil => simp [enclose] at hc
  | cons group groups => simpa [enclose] using hc

theorem mem_of_mem_itemParts {items : List γ} {c : γ} (hc : .inr c ∈ itemParts items) :
    c ∈ items := by
  obtain ⟨group, hgroup, hc⟩ := exists_mem_of_mem_enclose hc
  obtain ⟨c', hc', rfl⟩ := List.mem_map.1 hgroup
  cases List.mem_singleton.1 hc
  exact hc'

theorem exists_mem_of_mem_entryParts {es : List (String × γ)} {c : γ}
    (hc : .inr c ∈ entryParts es) : ∃ e ∈ es, e.2 = c := by
  obtain ⟨group, hgroup, hc⟩ := exists_mem_of_mem_enclose hc
  obtain ⟨e, he, rfl⟩ := List.mem_map.1 hgroup
  exact ⟨e, he, by simpa [eq_comm] using hc⟩

theorem eq_of_mem_payloadParts {payload c : γ} (hc : .inr c ∈ payloadParts payload) :
    c = payload := by
  simpa [payloadParts] using hc

theorem itemParts_map (f : γ → δ) (items : List γ) :
    itemParts (items.map f) = (itemParts items).map (Sum.map id f) := by
  simp only [itemParts, map_enclose, List.length_map, List.map_map]
  rfl

theorem entryParts_map (f : γ → δ) (es : List (String × γ)) :
    entryParts (es.map fun e => (e.1, f e.2)) = (entryParts es).map (Sum.map id f) := by
  simp only [entryParts, map_enclose, List.length_map, List.map_map]
  rfl

theorem payloadParts_map (f : γ → δ) (payload : γ) :
    payloadParts (f payload) = (payloadParts payload).map (Sum.map id f) :=
  rfl

end Piece

namespace Tree

open Piece

def pieces (t : Tree) : List Piece :=
  t.fold Piece.algebra

theorem pieces_atom (a : Atom) : (atom a).pieces = [.atom a] := by
  rw [pieces, fold_atom, Piece.algebra]

theorem pieces_array (ts : List Tree) :
    (array ts).pieces = .beginArray :: spread pieces (itemParts ts) ++ [.endArray] := by
  have hparts : spread id (itemParts (ts.map pieces)) = spread pieces (itemParts ts) := by
    rw [itemParts_map, spread_map, Function.id_comp]
  rw [← hparts, pieces, fold_array]
  rfl

theorem pieces_ancestor (up : Nat) :
    (ancestor up).pieces = [.beginArray, .ancestor, .endArray] := by
  rw [pieces, fold_ancestor, Piece.algebra]

theorem pieces_map (m : Dict Tree) : (map m).pieces = spread pieces (entryParts m.entries) := by
  have hparts : spread id (entryParts (m.map pieces).entries) =
      spread pieces (entryParts m.entries) := by
    rw [Dict.entries_map, entryParts_map, spread_map, Function.id_comp]
  rw [← hparts, pieces, fold_map]
  rfl

theorem pieces_error (t : Tree) : (error t).pieces = spread pieces (payloadParts t) := by
  rw [pieces, fold_error]
  rfl

end Tree

namespace Piece

variable {γ ε : Type}

/-! ### Pieces as texts -/

def display : Piece → String
  | atom a => a.display
  | openItems _ => "["
  | closeItems => "]"
  | ancestor => "[...]"
  | openEntries _ => "\x7b"
  | key k => k ++ ": "
  | closeEntries => "\x7d"
  | openPayload => "error: "
  | comma => ", "
  | beginArray | endArray | closePayload => ""

def debug : Piece → String
  | atom a => a.debug
  | beginArray => "Array("
  | openItems _ => "["
  | closeItems => "]"
  | endArray => ")"
  | ancestor => "[...]"
  | openEntries _ => "ImmutableMap(\x7b"
  | key k => Text.quote k ++ ": "
  | closeEntries => "\x7d)"
  | openPayload => "Error("
  | closePayload => ")"
  | comma => ", "

/-- The texts of the pieces put together. -/
def textOf (text : Piece → String) (ps : List Piece) : String :=
  String.join (ps.map text)

/-- Writes the text of a piece behind what was written before. No piece is refused. -/
def writeText (text : Piece → String) (p : Piece) (s : String) : Except ε String :=
  .ok (s ++ text p)

/-- Builds from the leaves upward the text that the pieces have. -/
def textAlgebra (text : Piece → String) : Tree.Algebra String where
  atom a := text (atom a)
  array parts :=
    text beginArray ++ (text (openItems parts.length) ++ (text comma).intercalate parts ++
      text closeItems) ++ text endArray
  ancestor _ := text beginArray ++ text ancestor ++ text endArray
  map m :=
    text (openEntries m.entries.length) ++
      (text comma).intercalate (m.entries.map fun e => text (key e.1) ++ e.2) ++ text closeEntries
  error p := text openPayload ++ p ++ text closePayload

theorem textAlgebra_display : textAlgebra display = Tree.displayAlgebra := by
  simp only [textAlgebra, Tree.displayAlgebra, display, String.empty_append, String.append_empty,
    String.append_assoc]

theorem textAlgebra_debug : textAlgebra debug = Tree.debugAlgebra := by
  have hopen (s : String) : "Array(" ++ ("[" ++ s) = "Array([" ++ s :=
    (String.append_assoc ..).symm
  have hclose : ("]" : String) ++ ")" = "])" := rfl
  simp only [textAlgebra, Tree.debugAlgebra, debug, String.append_assoc, hopen, hclose]
  rfl

theorem textOf_append (text : Piece → String) (ps qs : List Piece) :
    textOf text (ps ++ qs) = textOf text ps ++ textOf text qs := by
  rw [textOf, List.map_append, String.join_append, textOf, textOf]

theorem textOf_cons (text : Piece → String) (p : Piece) (ps : List Piece) :
    textOf text (p :: ps) = text p ++ textOf text ps :=
  String.join_cons

theorem textOf_singleton (text : Piece → String) (p : Piece) : textOf text [p] = text p := by
  rw [textOf_cons, textOf, List.map_nil, String.join_nil, String.append_empty]

theorem intercalate_cons_eq_join (sep s : String) (l : List String) :
    sep.intercalate (s :: l) = s ++ String.join (l.map (sep ++ ·)) := by
  induction l generalizing s with
  | nil => rw [String.intercalate_singleton, List.map_nil, String.join_nil, String.append_empty]
  | cons t l ih =>
    rw [String.intercalate_cons_cons, ih, List.map_cons, String.join_cons, String.append_assoc,
      String.append_assoc]

theorem textOf_flatMap_comma (text : Piece → String) (pieces : γ → List Piece)
    (groups : List (List (Piece ⊕ γ))) :
    textOf text (spread pieces (groups.flatMap (.inl comma :: ·))) =
      String.join ((groups.map fun l => textOf text (spread pieces l)).map (text comma ++ ·)) := by
  induction groups with
  | nil => rfl
  | cons group groups ih =>
    rw [List.flatMap_cons, spread_append, textOf_append, ih, List.map_cons, List.map_cons,
      String.join_cons]
    exact congrArg (· ++ _) (textOf_cons text comma _)

theorem textOf_enclose (text : Piece → String) (pieces : γ → List Piece)
    (opening closing : Piece) (groups : List (List (Piece ⊕ γ))) :
    textOf text (spread pieces (enclose opening closing groups)) =
      text opening ++
        (text comma).intercalate (groups.map fun l => textOf text (spread pieces l)) ++
          text closing := by
  cases groups with
  | nil =>
    change textOf text [opening, closing] = _
    rw [textOf_cons, textOf_singleton, List.map_nil, String.intercalate_nil, String.append_empty]
  | cons group groups =>
    have hopening : spread pieces (.inl opening :: group) = opening :: spread pieces group := rfl
    have hclosing : spread pieces [.inl closing] = [closing] := rfl
    rw [enclose, spread_append, spread_append, hopening, hclosing, textOf_append, textOf_append,
      textOf_cons, textOf_singleton, textOf_flatMap_comma, List.map_cons, intercalate_cons_eq_join]
    simp only [String.append_assoc]

theorem textOf_itemParts (text : Piece → String) (pieces : γ → List Piece) (items : List γ) :
    textOf text (spread pieces (itemParts items)) =
      text (openItems items.length) ++
        (text comma).intercalate (items.map fun c => textOf text (pieces c)) ++
          text closeItems := by
  simp only [itemParts, textOf_enclose, List.map_map, Function.comp_def, spread_child]

theorem textOf_entryParts (text : Piece → String) (pieces : γ → List Piece)
    (es : List (String × γ)) :
    textOf text (spread pieces (entryParts es)) =
      text (openEntries es.length) ++
        (text comma).intercalate (es.map fun e => text (key e.1) ++ textOf text (pieces e.2)) ++
          text closeEntries := by
  simp only [entryParts, textOf_enclose, List.map_map, Function.comp_def, spread_entry, textOf_cons]

theorem textOf_payloadParts (text : Piece → String) (pieces : γ → List Piece) (c : γ) :
    textOf text (spread pieces (payloadParts c)) =
      text openPayload ++ textOf text (pieces c) ++ text closePayload := by
  rw [spread_payloadParts, textOf_cons, textOf_append, textOf_singleton, String.append_assoc]

/-- The text of the pieces of a tree is built like the tree. -/
theorem textOf_pieces (text : Piece → String) (t : Tree) :
    textOf text t.pieces = t.fold (textAlgebra text) := by
  induction t with
  | atom a =>
    rw [Tree.pieces_atom, Tree.fold_atom]
    exact textOf_singleton text _
  | array ts ih =>
    rw [Tree.pieces_array, Tree.fold_array, textOf_append, textOf_cons, textOf_singleton,
      textOf_itemParts, List.map_congr_left ih]
    simp only [textAlgebra, List.length_map]
  | ancestor up =>
    rw [Tree.pieces_ancestor, Tree.fold_ancestor, textOf_cons, textOf_cons, textOf_singleton]
    exact (String.append_assoc ..).symm
  | map m ih =>
    have hentries (e : String × Tree) (he : e ∈ m.entries) :
        text (key e.1) ++ textOf text e.2.pieces =
          text (key e.1) ++ e.2.fold (textAlgebra text) :=
      congrArg (text (key e.1) ++ ·) (ih e he)
    rw [Tree.pieces_map, Tree.fold_map, textOf_entryParts, List.map_congr_left hentries]
    change _ = text (openEntries (m.map _).entries.length) ++ _ ++ _
    rw [Dict.entries_map, List.length_map, List.map_map]
    rfl
  | error p ih =>
    rw [Tree.pieces_error, Tree.fold_error, textOf_payloadParts, ih]
    rfl

theorem deliver_writeText (text : Piece → String) (ps : List Piece) (s : String) :
    deliver (writeText text) ps s = (.ok (s ++ textOf text ps) : Except ε String) := by
  induction ps generalizing s with
  | nil => exact congrArg Except.ok String.append_empty.symm
  | cons p ps ih =>
    rw [deliver_cons, textOf_cons, ← String.append_assoc]
    exact ih (s ++ text p)

theorem deliver_display (t : Tree) (s : String) :
    deliver (writeText display) t.pieces s = (.ok (s ++ t.display) : Except ε String) := by
  rw [deliver_writeText, textOf_pieces, textAlgebra_display, Tree.display]

theorem deliver_debug (t : Tree) (s : String) :
    deliver (writeText debug) t.pieces s = (.ok (s ++ t.debug) : Except ε String) := by
  rw [deliver_writeText, textOf_pieces, textAlgebra_debug, Tree.debug]

/-! ### Pieces as bytes -/

open MessagePack

def binary : Piece → Except String (List UInt8)
  | atom a => .ok (MessagePack.atom a)
  | ancestor => .error cyclicMessage
  | openItems n => .ok (arrayHeader n)
  | openEntries n => .ok (mapHeader n)
  | key k => .ok (text k)
  | openPayload => .ok (mapHeader 1 ++ text "error")
  | beginArray | closeItems | endArray | closeEntries | closePayload | comma => .ok []

/-- Writes the bytes of a piece behind those that were written before. -/
def writeBytes (p : Piece) (b : List UInt8) : Except String (List UInt8) :=
  p.binary.map (b ++ ·)

/-- These are the bytes of the pieces, if all of them have bytes. -/
def Yields (ps : List Piece) (b? : Option (List UInt8)) : Prop :=
  ∀ b, deliver writeBytes ps b = (written b?).map (b ++ ·)

variable {α : Type} {p : Piece} {ps qs : List Piece} {a? b? : Option (List UInt8)}
  {b : List UInt8}

theorem yields_nil : Yields [] (some []) :=
  fun b => congrArg Except.ok (List.append_nil b).symm

theorem Yields.append (hps : Yields ps a?) (hqs : Yields qs b?) :
    Yields (ps ++ qs) (a?.bind fun a => b?.map (a ++ ·)) := by
  intro b
  rw [deliver_append, hps b]
  cases a? with
  | none => rfl
  | some a =>
    change deliver writeBytes qs (b ++ a) = _
    rw [hqs, Option.bind_some]
    cases b? with
    | none => rfl
    | some c => exact congrArg Except.ok (List.append_assoc b a c)

theorem yields_singleton (hp : p.binary = .ok b) : Yields [p] (some b) := by
  intro c
  have hone : deliver writeBytes [p] c = (writeBytes p c).bind .ok := rfl
  rw [hone, writeBytes, hp]
  rfl

theorem Yields.cons (hp : p.binary = .ok b) (hps : Yields ps b?) :
    Yields (p :: ps) (b?.map (b ++ ·)) :=
  (yields_singleton hp).append hps

theorem Yields.cons_nothing (hp : p.binary = .ok []) (hps : Yields ps b?) :
    Yields (p :: ps) b? := by
  have h := hps.cons hp
  rwa [show b?.map ([] ++ ·) = b? from Option.map_id'] at h

theorem Yields.concat_nothing (hps : Yields ps b?) (hp : p.binary = .ok []) :
    Yields (ps ++ [p]) b? := by
  have h := hps.append (yields_singleton hp)
  cases b? with
  | none => exact h
  | some b => rwa [Option.bind_some, Option.map_some, List.append_nil] at h

variable {pieces : γ → List Piece} {l : List α} {parts : α → List (Piece ⊕ γ)}
  {f : α → Option (List UInt8)}

theorem yields_flatMap_comma (hl : ∀ a ∈ l, Yields (spread pieces (parts a)) (f a)) :
    Yields (spread pieces ((l.map parts).flatMap (.inl comma :: ·)))
      ((collect (l.map f)).map List.flatten) := by
  induction l with
  | nil => exact yields_nil
  | cons a l ih =>
    have ha : Yields (spread pieces (.inl comma :: parts a)) (f a) :=
      (hl a List.mem_cons_self).cons_nothing (p := comma) rfl
    have hrest := ih fun a' ha' => hl a' (List.mem_cons_of_mem a ha')
    rw [List.map_cons, List.flatMap_cons, spread_append, List.map_cons, map_flatten_collect_cons]
    exact ha.append hrest

theorem yields_enclose {opening closing : Piece} (hopening : opening.binary = .ok b)
    (hclosing : closing.binary = .ok [])
    (hl : ∀ a ∈ l, Yields (spread pieces (parts a)) (f a)) :
    Yields (spread pieces (enclose opening closing (l.map parts)))
      (((collect (l.map f)).map List.flatten).map (b ++ ·)) := by
  cases l with
  | nil => exact (yields_singleton hclosing).cons hopening
  | cons a l =>
    have hrest := yields_flatMap_comma fun a' ha' => hl a' (List.mem_cons_of_mem a ha')
    have hinside := (hl a List.mem_cons_self).append hrest
    rw [List.map_cons, List.map_cons, map_flatten_collect_cons, enclose, spread_append,
      spread_append]
    exact (hinside.cons hopening).concat_nothing hclosing

/-- The bytes of the pieces of a tree are its binary form. -/
theorem yields_pieces (t : Tree) : Yields t.pieces (encode? t) := by
  induction t with
  | atom a =>
    rw [Tree.pieces_atom, encode?_atom]
    exact yields_singleton rfl
  | array ts ih =>
    have hitems : Yields (spread Tree.pieces (itemParts ts)) (encode? (.array ts)) := by
      rw [encode?_array_eq_header]
      refine yields_enclose rfl rfl fun t ht => ?_
      rw [spread_child]
      exact ih t ht
    rw [Tree.pieces_array]
    exact (hitems.cons_nothing rfl).concat_nothing rfl
  | ancestor up =>
    rw [Tree.pieces_ancestor, encode?_ancestor]
    exact fun b => rfl
  | map m ih =>
    rw [Tree.pieces_map, encode?_map_eq_header, ← m.length_entries]
    refine yields_enclose rfl rfl fun e he => ?_
    rw [spread_entry]
    exact (ih e he).cons rfl
  | error p ih =>
    have hbytes : encode? (.error p) = (encode? p).map ((mapHeader 1 ++ text "error") ++ ·) := by
      rw [encode?_error]
      cases encode? p with
      | none => rfl
      | some b => simp [entries]
    rw [Tree.pieces_error, spread_payloadParts, hbytes]
    exact (ih.concat_nothing rfl).cons rfl

theorem deliver_writeBytes (t : Tree) :
    deliver writeBytes t.pieces [] = written (encode? t) := by
  rw [yields_pieces t]
  cases encode? t <;> rfl

end Piece

end ScriptHost
