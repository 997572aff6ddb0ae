import Mathlib.Data.List.Infix
import ScriptHost.Text.Split
/-!
# The pieces of a text

The pieces around a separator are described without a limit first: every piece
but the last ends where the separator occurs first. A limit then leaves the
first pieces as they are and joins the others again. Both ways of splitting
keep this law, also the one between single characters.
-/

namespace ScriptHost.Text

/-- The text occurs at a position of another, and at none before it. -/
structure FirstAt (sub s : List Char) (i : Nat) : Prop where
  occurs : sub <+: s.drop i
  not_before : ∀ j < i, ¬ sub <+: s.drop j

/-- How a text falls into pieces around a separator. -/
inductive Pieces (sep : List Char) : List Char → List (List Char) → Prop where
  | last {s : List Char} (hfree : ¬ sep <:+: s) : Pieces sep s [s]
  | cut {before behind : List Char} {ps : List (List Char)}
    (hfirst : FirstAt sep (before ++ sep ++ behind) before.length)
    (hrest : Pieces sep behind ps) : Pieces sep (before ++ sep ++ behind) (before :: ps)

/-- The pieces, where those from the limit on are joined to a single one. -/
def gather (sep : List Char) : Nat → List (List Char) → List (List Char)
  | 0, _ => []
  | _ + 1, [] => []
  | 1, p :: ps => [join (p :: ps) sep]
  | n + 2, p :: ps => p :: gather sep (n + 1) ps

variable {sep s t : List Char} {p : List Char} {ps : List (List Char)} {n : Nat}

/-! ### Joining -/

theorem join_cons_of_ne_nil (hps : ps ≠ []) (p sep : List Char) :
    join (p :: ps) sep = p ++ sep ++ join ps sep := by
  cases ps with
  | nil => exact absurd rfl hps
  | cons q ps => exact join_cons_cons p q ps sep

theorem join_append_of_ne_nil (hps : ps ≠ []) (before : List (List Char)) (sep : List Char) :
    join (before ++ ps) sep = (before.map (· ++ sep)).flatten ++ join ps sep := by
  induction before with
  | nil => rfl
  | cons p before ih =>
    have hne : before ++ ps ≠ [] := by simp [hps]
    rw [List.cons_append, join_cons_of_ne_nil hne, ih, List.map_cons, List.flatten_cons]
    simp only [List.append_assoc]

theorem join_empty (ps : List (List Char)) : join ps [] = ps.flatten := by
  induction ps with
  | nil => rfl
  | cons p ps ih =>
    cases ps with
    | nil => simp
    | cons q ps => rw [join_cons_cons, ih, List.append_nil, ← List.flatten_cons]

theorem join_characters (s : List Char) : join (s.map fun c => [c]) [] = s := by
  rw [join_empty]
  induction s with
  | nil => rfl
  | cons c s ih => rw [List.map_cons, List.flatten_cons, ih, List.singleton_append]

/-! ### Pieces without a limit -/

namespace Pieces

theorem ne_nil (hs : Pieces sep s ps) : ps ≠ [] := by
  cases hs <;> exact List.cons_ne_nil _ _

theorem join_eq (hs : Pieces sep s ps) : join ps sep = s := by
  induction hs with
  | last hfree => exact join_singleton _ sep
  | cut hfirst hrest ih => rw [join_cons_of_ne_nil hrest.ne_nil, ih]

theorem length_le (hsep : sep ≠ []) (hs : Pieces sep s ps) : ps.length ≤ s.length + 1 := by
  induction hs with
  | last hfree => simp
  | cut hfirst hrest ih =>
    have := List.length_pos_iff.2 hsep
    simp only [List.length_cons, List.length_append]
    omega

/-- A separator inside of a piece would have ended the piece before. -/
theorem not_infix_of_mem (hsep : sep ≠ []) (hs : Pieces sep s ps) (hp : p ∈ ps) : ¬ sep <:+: p := by
  induction hs with
  | last hfree => exact List.mem_singleton.1 hp ▸ hfree
  | @cut before behind ps hfirst hrest ih =>
    obtain rfl | hp := List.mem_cons.1 hp
    · -- The separator inside of the piece occurs before the place where the piece ends.
      rintro ⟨u, v, rfl⟩
      have hpos := List.length_pos_iff.2 hsep
      refine hfirst.not_before u.length (by simp; omega) ?_
      rw [List.append_assoc, List.append_assoc, List.append_assoc, List.drop_left]
      exact List.prefix_append sep _
    · exact ih hp

/-- Every piece but the last ends where the separator occurs first in what is left of the text. -/
theorem firstAt (hs : Pieces sep s ps) {before behind : List (List Char)}
    (hps : ps = before ++ p :: behind) (hbehind : behind ≠ []) :
    ∃ rest, s = (before.map (· ++ sep)).flatten ++ (p ++ sep ++ rest) ∧
      FirstAt sep (p ++ sep ++ rest) p.length := by
  induction hs generalizing before with
  | last hfree =>
    have hlength := congrArg List.length hps
    have := List.length_pos_iff.2 hbehind
    simp at hlength
    omega
  | @cut first more ps hfirst hrest ih =>
    cases before with
    | nil =>
      cases hps
      exact ⟨more, rfl, hfirst⟩
    | cons q before =>
      obtain ⟨rfl, htail⟩ := List.cons.inj hps
      obtain ⟨rest, hmore, hat⟩ := ih htail
      refine ⟨rest, ?_, hat⟩
      rw [List.map_cons, List.flatten_cons, List.append_assoc _ _ (_ ++ rest), ← hmore]

end Pieces

theorem exists_pieces (hsep : sep ≠ []) (s : List Char) : ∃ ps, Pieces sep s ps := by
  cases hcut : cut? sep s with
  | none => exact ⟨[s], .last (cut?_eq_none_iff.1 hcut)⟩
  | some found =>
    obtain ⟨before, behind⟩ := found
    have hs : s = before ++ sep ++ behind := append_of_cut? hcut
    have hshorter : behind.length < s.length := by
      have := List.length_pos_iff.2 hsep
      rw [hs, List.length_append, List.length_append]
      omega
    obtain ⟨ps, hps⟩ := exists_pieces hsep behind
    subst hs
    refine ⟨before :: ps, .cut ⟨?_, fun j => not_prefix_of_cut? hcut⟩ hps⟩
    rw [List.append_assoc, List.drop_left]
    exact List.prefix_append sep behind
termination_by s.length

/-! ### Pieces up to a limit -/

theorem gather_of_length_le (h : ps.length ≤ n) : gather sep n ps = ps := by
  fun_induction gather sep n ps with
  | case1 ps => exact (List.length_eq_zero_iff.1 (Nat.le_zero.1 h)).symm
  | case2 n => rfl
  | case3 p ps =>
    obtain rfl : ps = [] := by simpa using h
    rw [join_singleton]
  | case4 n p ps ih => rw [ih (Nat.le_of_succ_le_succ h)]

theorem gather_succ_of_lt_length (h : n < ps.length) :
    gather sep (n + 1) ps = ps.take n ++ [join (ps.drop n) sep] := by
  induction n generalizing ps with
  | zero =>
    cases ps with
    | nil => exact absurd h (Nat.not_lt_zero 0)
    | cons p ps => rfl
  | succ n ih =>
    cases ps with
    | nil => exact absurd h (Nat.not_lt_zero _)
    | cons p ps =>
      rw [gather, ih (Nat.lt_of_succ_lt_succ h), List.take_succ_cons, List.drop_succ_cons,
        List.cons_append]

theorem length_gather_le (sep : List Char) (n : Nat) (ps : List (List Char)) :
    (gather sep n ps).length ≤ n := by
  fun_induction gather sep n ps with
  | case1 ps => exact Nat.le_refl 0
  | case2 n => exact Nat.zero_le _
  | case3 p ps => exact Nat.le_refl 1
  | case4 n p ps ih => exact Nat.succ_le_succ ih

theorem join_gather_succ (sep : List Char) (n : Nat) (ps : List (List Char)) :
    join (gather sep (n + 1) ps) sep = join ps sep := by
  by_cases h : ps.length ≤ n + 1
  · rw [gather_of_length_le h]
  · have hlt : n < ps.length := by omega
    have hdrop : [join (ps.drop n) sep] ≠ [] := List.cons_ne_nil _ _
    have hrest : ps.drop n ≠ [] := by simpa using hlt
    calc
      join (gather sep (n + 1) ps) sep =
          ((ps.take n).map (· ++ sep)).flatten ++ join (ps.drop n) sep := by
        rw [gather_succ_of_lt_length hlt, join_append_of_ne_nil hdrop, join_singleton]
      _ = join ps sep := by
        rw [← join_append_of_ne_nil hrest, List.take_append_drop]

theorem splitChars_eq_gather (n : Nat) (s : List Char) :
    splitChars n s = gather [] n (s.map fun c => [c]) := by
  fun_induction splitChars n s with
  | case1 s => rfl
  | case2 n => cases n <;> rfl
  | case3 c cs => rw [List.map_cons, gather, ← List.map_cons (f := fun c => [c]), join_characters]
  | case4 n c cs ih => rw [List.map_cons, gather, ih]

theorem Pieces.splitAround_eq (hs : Pieces sep s ps) (n : Nat) :
    splitAround sep n s = gather sep n ps := by
  -- By induction on the pieces for all limits: the limit can run out before the pieces do.
  induction hs generalizing n with
  | @last s hfree =>
    match n with
    | 0 => rfl
    | 1 => simp [splitAround, gather]
    | n + 2 => simp [splitAround, gather, cut?_eq_none_iff.2 hfree]
  | @cut before behind ps hfirst hrest ih =>
    match n with
    | 0 => rfl
    | 1 => rw [splitAround, gather, (Pieces.cut hfirst hrest).join_eq]
    | n + 2 => simp only [splitAround, gather, cut?_append hfirst.not_before, ih]

theorem splitN_empty (s : List Char) (n : Nat) : splitN s [] n = splitChars n s := rfl

theorem splitN_of_ne_nil (hsep : sep ≠ []) (s : List Char) (n : Nat) :
    splitN s sep n = splitAround sep n s :=
  if_neg (by simpa using hsep)

theorem Pieces.split_eq (hsep : sep ≠ []) (hs : Pieces sep s ps) : split s sep = ps := by
  rw [split, splitN_of_ne_nil hsep, hs.splitAround_eq]
  exact gather_of_length_le (hs.length_le hsep)

theorem pieces_split (hsep : sep ≠ []) (s : List Char) : Pieces sep s (split s sep) := by
  obtain ⟨ps, hps⟩ := exists_pieces hsep s
  rwa [hps.split_eq hsep]

theorem split_empty (s : List Char) : split s [] = s.map fun c => [c] := by
  rw [split, splitN_empty, splitChars_eq_gather]
  exact gather_of_length_le (by simp)

/-- A limit joins the last pieces, whatever the separator is. -/
theorem splitN_eq_gather (s sep : List Char) (n : Nat) :
    splitN s sep n = gather sep n (split s sep) := by
  by_cases hsep : sep = []
  · subst hsep
    rw [split_empty, splitN_empty, splitChars_eq_gather]
  · rw [splitN_of_ne_nil hsep, (pieces_split hsep s).splitAround_eq]

theorem join_split (s sep : List Char) : join (split s sep) sep = s := by
  by_cases hsep : sep = []
  · subst hsep
    rw [split_empty, join_characters]
  · exact (pieces_split hsep s).join_eq

/-! ### A separator of one character -/

theorem firstAt_singleton {c : Char} {before : List Char} (hc : c ∉ before) (behind : List Char) :
    FirstAt [c] (before ++ [c] ++ behind) before.length where
  occurs := by
    rw [List.append_assoc, List.drop_left]
    exact List.prefix_append [c] behind
  not_before j hj := by
    rintro ⟨rest, hrest⟩
    rw [List.append_assoc, List.drop_append_of_le_length (Nat.le_of_lt hj),
      List.drop_eq_getElem_cons hj] at hrest
    obtain ⟨rfl, -⟩ := List.cons.inj hrest
    exact hc (List.getElem_mem hj)

theorem singleton_infix_iff {c : Char} : [c] <:+: s ↔ c ∈ s := by
  constructor
  · rintro ⟨u, v, rfl⟩
    simp
  · intro hc
    obtain ⟨u, v, rfl⟩ := List.append_of_mem hc
    exact ⟨u, v, by simp⟩

/-- The character between two texts ends a piece of the one and begins a piece of the other. -/
theorem Pieces.append {c : Char} {qs : List (List Char)} (hs : Pieces [c] s ps)
    (ht : Pieces [c] t qs) : Pieces [c] (s ++ [c] ++ t) (ps ++ qs) := by
  induction hs with
  | last hfree => exact .cut (firstAt_singleton (mt singleton_infix_iff.2 hfree) t) ht
  | @cut before behind ps hfirst hrest ih =>
    have hc : c ∉ before :=
      mt singleton_infix_iff.2
        ((Pieces.cut hfirst hrest).not_infix_of_mem (List.cons_ne_nil _ _) List.mem_cons_self)
    simpa using Pieces.cut (firstAt_singleton hc (behind ++ [c] ++ t)) ih

/-- What was joined by a character falls into the pieces of each part, one part after the other. -/
theorem split_join_singleton (c : Char) (p : List Char) (ps : List (List Char)) :
    split (join (p :: ps) [c]) [c] = (p :: ps).flatMap fun q => split q [c] := by
  have hsep : [c] ≠ [] := List.cons_ne_nil _ _
  apply Pieces.split_eq hsep
  induction ps generalizing p with
  | nil => simpa using pieces_split hsep p
  | cons q ps ih =>
    rw [join_cons_cons, List.flatMap_cons]
    exact (pieces_split hsep p).append (ih q)

theorem split_of_not_mem {c : Char} (hc : c ∉ s) : split s [c] = [s] :=
  (Pieces.last (mt singleton_infix_iff.1 hc)).split_eq (List.cons_ne_nil _ _)

theorem split_join_eq_iff {c : Char} (hps : ps ≠ []) :
    split (join ps [c]) [c] = ps ↔ ∀ p ∈ ps, c ∉ p := by
  have hsep : [c] ≠ [] := List.cons_ne_nil _ _
  constructor
  · intro hsplit p hp
    rw [← hsplit] at hp
    exact mt singleton_infix_iff.2 ((pieces_split hsep _).not_infix_of_mem hsep hp)
  · intro hc
    obtain ⟨p, ps, rfl⟩ := List.exists_cons_of_ne_nil hps
    calc
      split (join (p :: ps) [c]) [c] = (p :: ps).flatMap fun q => split q [c] :=
        split_join_singleton c p ps
      _ = (p :: ps).flatMap fun q => [q] :=
        List.flatMap_congr fun q hq => split_of_not_mem (hc q hq)
      _ = p :: ps := List.flatMap_singleton' _

end ScriptHost.Text
