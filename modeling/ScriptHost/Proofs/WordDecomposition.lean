import Mathlib.Data.List.DropRight
import Mathlib.Data.List.TakeWhile
import ScriptHost.Proofs.Splitting
/-!
# Words and the white space around them

A text is made of words with white space around them in one way only. Its
fields are those words, and trimming leaves what is between the white space at
the two ends.
-/

namespace ScriptHost

namespace Text

open Unicode

def IsBlank (w : List Char) : Prop :=
  ∀ c ∈ w, isBlank c = true

structure IsWord (t : List Char) : Prop where
  ne_nil : t ≠ []
  unbroken : ∀ c ∈ t, isBlank c = false

/-- There is no white space at either end. -/
def IsTrimmed (t : List Char) : Prop :=
  ∀ c, t.head? = some c ∨ t.getLast? = some c → isBlank c = false

/-- A text is white space and then words, each with the white space behind it. Only behind the last
word there may be none. -/
structure Decomposition (s lead : List Char) (parts : List (List Char × List Char)) : Prop where
  eq_append : s = lead ++ parts.flatMap fun p => p.1 ++ p.2
  lead : IsBlank lead
  word : ∀ p ∈ parts, IsWord p.1
  gap : ∀ p ∈ parts, IsBlank p.2
  gap_ne_nil : ∀ p ∈ parts.dropLast, p.2 ≠ []

variable {c : Char} {s t u v lead gap rest : List Char} {parts : List (List Char × List Char)}
  {ts : List (List Char)}

theorem isBlank_nil : IsBlank [] :=
  List.forall_mem_nil _

theorem isBlank_cons : IsBlank (c :: s) ↔ isBlank c = true ∧ IsBlank s :=
  List.forall_mem_cons

theorem IsWord.cons (hc : isBlank c = false) (ht : ∀ c ∈ t, isBlank c = false) : IsWord (c :: t) :=
  ⟨List.cons_ne_nil c t, List.forall_mem_cons.2 ⟨hc, ht⟩⟩

/-! ### Words -/

theorem words_nil : words [] = [] := by
  simp [words]

theorem words_append_cons (hc : isBlank c = true) (s t : List Char) :
    words (s ++ c :: t) = words s ++ words t := by
  rw [words, List.splitOnP_append_cons s t hc, List.filter_append, words, words]

theorem words_cons (hc : isBlank c = true) (s : List Char) : words (c :: s) = words s := by
  simpa [words_nil] using words_append_cons hc [] s

/-- No word goes on over white space. -/
theorem words_append (ht : ∀ c, t.head? = some c → isBlank c = true) (s : List Char) :
    words (s ++ t) = words s ++ words t := by
  cases t with
  | nil => simp [words_nil]
  | cons c t =>
    have hc : isBlank c = true := ht c rfl
    rw [words_append_cons hc, words_cons hc]

theorem IsBlank.words_append (hu : IsBlank u) (s : List Char) : words (u ++ s) = words s := by
  induction u with
  | nil => rfl
  | cons c u ih =>
    obtain ⟨hc, hu⟩ := isBlank_cons.1 hu
    rw [List.cons_append, words_cons hc, ih hu]

theorem IsBlank.words_eq_nil (hu : IsBlank u) : words u = [] := by
  rw [← List.append_nil u, hu.words_append, words_nil]

theorem IsBlank.head (hu : IsBlank u) (hc : u.head? = some c) : isBlank c = true :=
  hu c (List.mem_of_head? hc)

theorem IsWord.words_eq (ht : IsWord t) : words t = [t] := by
  have hne : t.isEmpty = false := by simpa using ht.ne_nil
  rw [words, List.splitOnP_eq_singleton ht.unbroken]
  simp [hne]

/-! ### Decompositions -/

theorem decomposition_nil_iff : Decomposition s lead [] ↔ s = lead ∧ IsBlank lead := by
  constructor
  · rintro ⟨heq, hlead, -, -, -⟩
    exact ⟨by simpa using heq, hlead⟩
  · rintro ⟨rfl, hlead⟩
    exact ⟨by simp, hlead, by simp, by simp, by simp⟩

theorem decomposition_cons_iff :
    Decomposition s lead ((t, gap) :: parts) ↔
      IsBlank lead ∧ IsWord t ∧ (parts ≠ [] → gap ≠ []) ∧
        ∃ rest, s = lead ++ t ++ rest ∧ Decomposition rest gap parts := by
  constructor
  · rintro ⟨heq, hlead, hword, hgap, hne⟩
    refine ⟨hlead, hword _ List.mem_cons_self, ?_, gap ++ parts.flatMap fun p => p.1 ++ p.2, ?_,
      ⟨rfl, hgap _ List.mem_cons_self, fun p hp => hword p (List.mem_cons_of_mem _ hp),
        fun p hp => hgap p (List.mem_cons_of_mem _ hp), ?_⟩⟩
    · intro hparts
      rw [List.dropLast_cons_of_ne_nil hparts] at hne
      exact hne _ List.mem_cons_self
    · simp [heq]
    · intro p hp
      refine hne p ?_
      rw [List.dropLast_cons_of_ne_nil (by rintro rfl; simp at hp)]
      exact List.mem_cons_of_mem _ hp
  · rintro ⟨hlead, ht, hgap, rest, rfl, hrest⟩
    refine ⟨by simp [hrest.eq_append], hlead, List.forall_mem_cons.2 ⟨ht, hrest.word⟩,
      List.forall_mem_cons.2 ⟨hrest.lead, hrest.gap⟩, ?_⟩
    by_cases hparts : parts = []
    · simp [hparts]
    · rw [List.dropLast_cons_of_ne_nil hparts]
      exact List.forall_mem_cons.2 ⟨hgap hparts, hrest.gap_ne_nil⟩

/-- White space or nothing is behind a word. -/
theorem Decomposition.head (h : Decomposition s gap parts) (hgap : parts ≠ [] → gap ≠ [])
    (hc : s.head? = some c) : isBlank c = true := by
  cases gap with
  | nil =>
    obtain rfl : parts = [] := by simpa using hgap
    obtain ⟨rfl, -⟩ := decomposition_nil_iff.1 h
    cases hc
  | cons b gap =>
    rw [h.eq_append] at hc
    cases hc
    exact h.lead c List.mem_cons_self

theorem Decomposition.words_eq (h : Decomposition s lead parts) : words s = parts.map Prod.fst := by
  induction parts generalizing s lead with
  | nil =>
    obtain ⟨rfl, hlead⟩ := decomposition_nil_iff.1 h
    exact hlead.words_eq_nil
  | cons p parts ih =>
    obtain ⟨hlead, ht, hgap, rest, rfl, hrest⟩ := decomposition_cons_iff.1 h
    rw [List.append_assoc, hlead.words_append, words_append fun c => hrest.head hgap, ht.words_eq,
      ih hrest, List.map_cons, List.singleton_append]

theorem exists_decomposition (s : List Char) : ∃ lead parts, Decomposition s lead parts := by
  induction s with
  | nil => exact ⟨[], [], decomposition_nil_iff.2 ⟨rfl, isBlank_nil⟩⟩
  | cons c s ih =>
    obtain ⟨lead, parts, h⟩ := ih
    cases hc : isBlank c with
    | true =>
      exact ⟨c :: lead, parts, by rw [h.eq_append, List.cons_append],
        isBlank_cons.2 ⟨hc, h.lead⟩, h.word, h.gap, h.gap_ne_nil⟩
    | false =>
      -- The character is a word of its own unless a word begins right behind it.
      by_cases hlead : parts ≠ [] → lead ≠ []
      · exact ⟨[], ([c], lead) :: parts, decomposition_cons_iff.2
          ⟨isBlank_nil, .cons hc (List.forall_mem_nil _), hlead, s, rfl, h⟩⟩
      · obtain ⟨hparts, rfl⟩ : parts ≠ [] ∧ lead = [] := by simpa using hlead
        obtain ⟨⟨t, gap⟩, parts, rfl⟩ := List.exists_cons_of_ne_nil hparts
        obtain ⟨-, ht, hgap, rest, rfl, hrest⟩ := decomposition_cons_iff.1 h
        exact ⟨[], (c :: t, gap) :: parts, decomposition_cons_iff.2
          ⟨isBlank_nil, .cons hc ht.unbroken, hgap, rest, rfl, hrest⟩⟩

theorem words_eq_iff :
    words s = ts ↔ ∃ lead parts, Decomposition s lead parts ∧ parts.map Prod.fst = ts := by
  constructor
  · rintro rfl
    obtain ⟨lead, parts, h⟩ := exists_decomposition s
    exact ⟨lead, parts, h, h.words_eq.symm⟩
  · rintro ⟨lead, parts, h, rfl⟩
    exact h.words_eq

/-- White space of two, three and one bytes around two words. -/
example : words ['\u00a0', 'a', '\u3000', ' ', 'b', 'é', '\n'] = [['a'], ['b', 'é']] := by
  decide

theorem words_eq_nil_iff : words s = [] ↔ IsBlank s := by
  constructor
  · intro hs
    obtain ⟨lead, parts, h, hparts⟩ := words_eq_iff.1 hs
    obtain rfl := List.map_eq_nil_iff.1 hparts
    obtain ⟨rfl, hlead⟩ := decomposition_nil_iff.1 h
    exact hlead
  · exact IsBlank.words_eq_nil

theorem isWord_of_mem_words (ht : t ∈ words s) : IsWord t := by
  obtain ⟨lead, parts, h⟩ := exists_decomposition s
  rw [h.words_eq] at ht
  obtain ⟨p, hp, rfl⟩ := List.mem_map.1 ht
  exact h.word p hp

theorem words_join (hts : ∀ t ∈ ts, IsWord t) : words (join ts [' ']) = ts := by
  induction ts with
  | nil => exact words_nil
  | cons t ts ih =>
    obtain ⟨ht, hts⟩ := List.forall_mem_cons.1 hts
    cases ts with
    | nil => rw [join_singleton, ht.words_eq]
    | cons q ts =>
      rw [join_cons_cons, List.append_assoc, List.singleton_append,
        words_append_cons (by decide), ht.words_eq, ih hts, List.singleton_append]

/-! ### Trimming -/

theorem dropWhile_append (hu : IsBlank u) (ht : ∀ c, t.head? = some c → isBlank c = false) :
    (u ++ t).dropWhile isBlank = t := by
  rw [List.dropWhile_append_of_pos hu]
  cases t with
  | nil => rw [List.dropWhile_nil]
  | cons c t => rw [List.dropWhile_cons_of_neg (by simp [ht c rfl])]

theorem rdropWhile_append (hv : IsBlank v) (ht : ∀ c, t.getLast? = some c → isBlank c = false) :
    (t ++ v).rdropWhile isBlank = t := by
  have hv' : IsBlank v.reverse := fun c hc => hv c (List.mem_reverse.1 hc)
  rw [List.rdropWhile, List.reverse_append, dropWhile_append hv' (by simpa using ht),
    List.reverse_reverse]

theorem trim_eq_rdropWhile (s : List Char) :
    trim s = (s.dropWhile isBlank).rdropWhile isBlank := rfl

theorem IsTrimmed.trim_append (ht : IsTrimmed t) (hu : IsBlank u) (hv : IsBlank v) :
    trim (u ++ t ++ v) = t := by
  cases t with
  | nil =>
    have huv : IsBlank (u ++ v) := List.forall_mem_append.2 ⟨hu, hv⟩
    rw [List.append_nil, trim_eq_rdropWhile, List.dropWhile_eq_nil_iff.2 huv, List.rdropWhile_nil]
  | cons c t =>
    have hhead (b : Char) (hb : (c :: t ++ v).head? = some b) : isBlank b = false := ht b (.inl hb)
    rw [trim_eq_rdropWhile, List.append_assoc, dropWhile_append hu hhead,
      rdropWhile_append hv fun b hb => ht b (.inr hb)]

theorem exists_eq_append_trim (s : List Char) :
    ∃ u v, s = u ++ trim s ++ v ∧ IsBlank u ∧ IsBlank v ∧ IsTrimmed (trim s) := by
  have hsplit : s.dropWhile isBlank = trim s ++ (s.dropWhile isBlank).rtakeWhile isBlank := by
    rw [trim_eq_rdropWhile, List.rdropWhile_append_rtakeWhile]
  refine ⟨s.takeWhile isBlank, (s.dropWhile isBlank).rtakeWhile isBlank, ?_,
    fun c => List.mem_takeWhile_imp, fun c => List.mem_rtakeWhile_imp, ?_⟩
  · rw [List.append_assoc, ← hsplit, List.takeWhile_append_dropWhile]
  · rintro c (hc | hc)
    · have hnot := List.head?_dropWhile_not isBlank s
      rw [hsplit, List.head?_append, hc] at hnot
      exact hnot
    · have hne : trim s ≠ [] := by
        rintro hnil
        simp [hnil] at hc
      rw [List.getLast?_eq_some_getLast hne] at hc
      obtain rfl := Option.some.inj hc
      exact Bool.eq_false_iff.2 (List.rdropWhile_last_not isBlank _ hne)

theorem trim_eq_iff :
    trim s = t ↔ ∃ u v, s = u ++ t ++ v ∧ IsBlank u ∧ IsBlank v ∧ IsTrimmed t := by
  constructor
  · rintro rfl
    exact exists_eq_append_trim s
  · rintro ⟨u, v, rfl, hu, hv, ht⟩
    exact ht.trim_append hu hv

theorem trim_trim (s : List Char) : trim (trim s) = trim s := by
  obtain ⟨-, -, -, -, -, ht⟩ := exists_eq_append_trim s
  simpa using ht.trim_append isBlank_nil isBlank_nil

theorem trim_eq_nil_iff : trim s = [] ↔ IsBlank s := by
  constructor
  · intro hs
    obtain ⟨u, v, heq, hu, hv, -⟩ := trim_eq_iff.1 hs
    rw [heq, List.append_nil]
    exact List.forall_mem_append.2 ⟨hu, hv⟩
  · intro hs
    exact trim_eq_iff.2 ⟨s, [], by simp, hs, isBlank_nil, by simp [IsTrimmed]⟩

/-- Trimming takes no word away. -/
theorem words_trim (s : List Char) : words (trim s) = words s := by
  obtain ⟨u, v, heq, hu, hv, -⟩ := exists_eq_append_trim s
  calc
    words (trim s) = words (trim s) ++ words v := by rw [hv.words_eq_nil, List.append_nil]
    _ = words (trim s ++ v) := (words_append (fun c => hv.head) _).symm
    _ = words (u ++ (trim s ++ v)) := (hu.words_append _).symm
    _ = words s := by rw [← List.append_assoc, ← heq]

end Text

namespace Library.TextModule

def trimSpace (s : String) : String :=
  .ofList (Text.trim s.toList)

/-- The texts are the words of a text that is taken apart. -/
def AreWords (s : String) (ts : List String) : Prop :=
  ∃ lead parts, Text.Decomposition s.toList lead parts ∧
    parts.map Prod.fst = ts.map String.toList

/-- A text is what another one has between white space, and has none at its own ends. -/
def IsCore (s t : String) : Prop :=
  ∃ u v, s = u ++ t ++ v ∧ Text.IsBlank u.toList ∧ Text.IsBlank v.toList ∧
    Text.IsTrimmed t.toList

variable {s t : String} {ts : List String}

theorem fields_eq_iff : fields s = ts ↔ AreWords s ts := by
  rw [← map_toList_inj, fields, map_toList_map_ofList, Text.words_eq_iff, AreWords]

theorem trimSpace_eq_iff : trimSpace s = t ↔ IsCore s t := by
  rw [← String.toList_inj, trimSpace, String.toList_ofList, Text.trim_eq_iff]
  constructor
  · rintro ⟨u, v, heq, hu, hv, ht⟩
    exact ⟨.ofList u, .ofList v, String.toList_injective (by simpa using heq), by simpa using hu,
      by simpa using hv, ht⟩
  · rintro ⟨u, v, rfl, hu, hv, ht⟩
    exact ⟨u.toList, v.toList, by simp, hu, hv, ht⟩

theorem fields_trimSpace (s : String) : fields (trimSpace s) = fields s := by
  rw [fields, trimSpace, String.toList_ofList, Text.words_trim, fields]

theorem fields_join_fields (s : String) : fields (join (fields s) " ") = fields s := by
  have hwords : ∀ t ∈ Text.words s.toList, Text.IsWord t := fun t => Text.isWord_of_mem_words
  have hspace : " ".toList = [' '] := by decide
  rw [join, fields, String.toList_ofList, fields, map_toList_map_ofList, hspace,
    Text.words_join hwords]

theorem trimSpace_trimSpace (s : String) : trimSpace (trimSpace s) = trimSpace s := by
  rw [trimSpace, trimSpace, String.toList_ofList, Text.trim_trim]

theorem fields_eq_nil_iff : fields s = [] ↔ trimSpace s = "" := by
  rw [fields, List.map_eq_nil_iff, Text.words_eq_nil_iff, ← Text.trim_eq_nil_iff, trimSpace,
    String.ofList_eq_empty_iff]

/-- What `fields` and `trim_space` return for a text. -/
structure Returns (handler : CallHandler) (s : String) (ts : List String) (t : String) :
    Prop where
  fields_eq : ∀ w, ∃ r h', ReturnsTexts handler "fields" [.string s] w ts r h'
  trimSpace_eq : ∀ w, call handler "trim_space" [.string s] w = some (.ok (.string t), w)

theorem returns (handler : CallHandler) (s : String) :
    Returns handler s (fields s) (trimSpace s) where
  fields_eq w := exists_returnsTexts_fields handler w s
  trimSpace_eq := call_onText handler (by simp [declared?, members]) s

/-- The fields of a text are the words that it is made of, and trimming leaves what is between the
white space at its ends. The fields of that and of the joined fields are the same fields again. -/
theorem fields_and_trim_decompose (handler : CallHandler) (s : String) :
    ∃ ts t, Returns handler s ts t ∧ (∀ us, AreWords s us ↔ us = ts) ∧
      (∀ u, IsCore s u ↔ u = t) ∧ Returns handler t ts t ∧
      (∃ j, (∀ w a, w.heap.items a = ts.map .string →
          call handler "join" [.array a, .string " "] w = some (.ok (.string j), w)) ∧
        ∀ w, ∃ r h', ReturnsTexts handler "fields" [.string j] w ts r h') ∧
      (ts = [] ↔ t = "") := by
  have htrimmed := returns handler (trimSpace s)
  rw [fields_trimSpace, trimSpace_trimSpace] at htrimmed
  have hjoined := (returns handler (join (fields s) " ")).fields_eq
  rw [fields_join_fields] at hjoined
  exact ⟨fields s, trimSpace s, returns handler s, fun us => by rw [← fields_eq_iff, eq_comm],
    fun u => by rw [← trimSpace_eq_iff, eq_comm], htrimmed,
    ⟨_, fun w a ha => call_join handler ha " ", hjoined⟩, fields_eq_nil_iff⟩

end Library.TextModule

end ScriptHost
