import ScriptHost.Proofs.ByteOrder
/-!
# Reading UTF-8

Reading takes one byte after the other. What is pending after some of them can
always be completed, and the bytes that complete it are those of a character
that begins with the bytes read before.
-/

namespace ScriptHost.Text.Utf8

open String (utf8EncodeChar)

variable {p p' : Pending} {b : UInt8} {bs rest : List UInt8} {c : Char} {k n : Nat}

/-! ### Bytes of a character -/

theorem digit_lt (k n : Nat) : digit k n < 0xC0 := by
  simp only [digit]
  omega

theorem toNat_ofNat_digit (k n : Nat) : (UInt8.ofNat (digit k n)).toNat = digit k n :=
  UInt8.toNat_ofNat_of_lt' ((digit_lt k n).trans (by decide))

theorem utf8EncodeChar_eq_cons_iff :
    utf8EncodeChar c = b :: rest ↔
      leadByte c.toNat = b.toNat ∧ rest = trail (form c.toNat).2 c.toNat := by
  have hlead := leadByte_lt (char_toNat_lt c)
  rw [utf8EncodeChar_eq_bytesOf, bytesOf_eq_cons, List.cons.injEq, ← leadByte, ← UInt8.toNat_inj,
    UInt8.toNat_ofNat_of_lt' hlead, eq_comm (a := rest)]

/-- How many bytes come after a lead byte. -/
def bytesAfter (lead : Nat) : Nat :=
  if lead < 0x80 then 0 else if lead < 0xE0 then 1 else if lead < 0xF0 then 2 else 3

theorem form_snd_eq (hn : n < 0x110000) : (form n).2 = bytesAfter (leadByte n) := by
  simp only [leadByte, form]
  split_ifs <;> dsimp only [bytesAfter] <;> split_ifs <;> omega

theorem toNat_charOfNat (hn : n.isValidChar) : (Char.ofNat n).toNat = n := by
  rw [Char.ofNat, dif_pos hn]
  rfl

/-! ### What completes a pending character -/

namespace Pending

/-- The byte that comes next is one of those that continue a character. -/
structure Live (p : Pending) : Prop where
  le_low : 0x80 ≤ p.low.toNat
  low_le_high : p.low.toNat ≤ p.high.toNat
  high_le : p.high.toNat ≤ 0xBF

/-- The bytes complete the number `n`, and the first of them may come next. -/
structure Completes (p : Pending) (rest : List UInt8) (n : Nat) : Prop where
  bits_eq : n / 64 ^ (p.after + 1) = p.bits
  rest_eq : rest = trail (p.after + 1) n
  low_le : p.low.toNat ≤ digit p.after n
  le_high : digit p.after n ≤ p.high.toNat

theorem completes_cons_iff :
    p.Completes (b :: rest) n ↔ (p.low ≤ b ∧ b ≤ p.high) ∧
      (n / 64 ^ (p.after + 1) = p.bits ∧ b.toNat = digit p.after n) ∧ rest = trail p.after n := by
  have hcons : b :: rest = trail (p.after + 1) n ↔
      b.toNat = digit p.after n ∧ rest = trail p.after n := by
    rw [trail, List.cons.injEq, ← UInt8.toNat_inj, toNat_ofNat_digit]
  rw [UInt8.le_iff_toNat_le, UInt8.le_iff_toNat_le]
  constructor
  · rintro ⟨hbits, hrest, hlow, hhigh⟩
    obtain ⟨hb, hrest⟩ := hcons.1 hrest
    exact ⟨⟨hb ▸ hlow, hb ▸ hhigh⟩, ⟨hbits, hb⟩, hrest⟩
  · rintro ⟨⟨hlow, hhigh⟩, ⟨hbits, hb⟩, hrest⟩
    exact ⟨hbits, hcons.2 ⟨hb, hrest⟩, hb ▸ hlow, hb ▸ hhigh⟩

theorem not_completes_nil : ¬ p.Completes [] n := by
  rintro ⟨-, hrest, -, -⟩
  exact List.cons_ne_nil _ _ hrest.symm

theorem length_trail (k n : Nat) : (trail k n).length = k := by
  induction k with
  | zero => rfl
  | succ k ih => rw [trail, List.length_cons, ih]

theorem Completes.length_eq (h : p.Completes rest n) : rest.length = p.after + 1 := by
  rw [h.rest_eq, length_trail]

theorem Completes.in_range (h : p.Completes (b :: rest) n) : p.low ≤ b ∧ b ≤ p.high :=
  (completes_cons_iff.1 h).1

/-- The byte holds the next digit of a number exactly if the number begins with both. -/
theorem Live.append_digit_iff (hp : p.Live) (hb : p.low ≤ b ∧ b ≤ p.high) :
    n / 64 ^ (p.after + 1) = p.bits ∧ b.toNat = digit p.after n ↔
      n / 64 ^ p.after = p.bits * 64 + (b.toNat - 0x80) := by
  have hlow := UInt8.le_iff_toNat_le.1 hb.1
  have hhigh := UInt8.le_iff_toNat_le.1 hb.2
  have hp1 := hp.le_low
  have hp2 := hp.high_le
  rw [pow_succ, ← Nat.div_div_eq_div_mul, digit]
  omega

/-- The last byte of a character. -/
theorem Live.completes_last_iff (hp : p.Live) (hb : p.low ≤ b ∧ b ≤ p.high) (hlast : p.after = 0) :
    p.Completes (b :: rest) n ↔ rest = [] ∧ n = p.bits * 64 + (b.toNat - 0x80) := by
  rw [completes_cons_iff, hp.append_digit_iff hb, hlast, pow_zero, Nat.div_one, trail]
  exact ⟨fun h => ⟨h.2.2, h.2.1⟩, fun h => ⟨hb, h.2, h.1⟩⟩

/-- A byte after which more are to come. -/
theorem Live.completes_more_iff (hp : p.Live) (hb : p.low ≤ b ∧ b ≤ p.high)
    (hmore : p.after = k + 1) :
    p.Completes (b :: rest) n ↔
      Completes ⟨p.bits * 64 + (b.toNat - 0x80), k, 0x80, 0xBF⟩ rest n := by
  rw [completes_cons_iff, hp.append_digit_iff hb, hmore]
  constructor
  · rintro ⟨-, hbits, hrest⟩
    refine ⟨hbits, hrest, Nat.le_add_left _ _, ?_⟩
    exact Nat.le_of_lt_succ (digit_lt k n)
  · rintro ⟨hbits, hrest, -, -⟩
    exact ⟨hb, hbits, hrest⟩

theorem live_continuation (m k : Nat) : Live ⟨m, k, 0x80, 0xBF⟩ :=
  ⟨Nat.le_refl 0x80, Nat.le_add_right 0x80 0x3F, Nat.le_refl 0xBF⟩

theorem Live.low_in_range (hp : p.Live) : p.low ≤ p.low ∧ p.low ≤ p.high :=
  ⟨UInt8.le_refl _, UInt8.le_iff_toNat_le.2 hp.low_le_high⟩

/-- Whatever is pending can be completed. -/
theorem Live.exists_completes (hp : p.Live) : ∃ rest n, rest ≠ [] ∧ p.Completes rest n := by
  obtain ⟨m, k, low, high⟩ := p
  induction k generalizing m low high with
  | zero =>
    exact ⟨[low], _, List.cons_ne_nil _ _, (hp.completes_last_iff hp.low_in_range rfl).2 ⟨rfl, rfl⟩⟩
  | succ k ih =>
    obtain ⟨rest, n, -, h⟩ := ih (m * 64 + (low.toNat - 0x80)) 0x80 0xBF (live_continuation _ _)
    exact ⟨low :: rest, n, List.cons_ne_nil _ _, (hp.completes_more_iff hp.low_in_range rfl).2 h⟩

end Pending

/-! ### Reading what is pending -/

theorem decodeFrom_of_not_in_range (hb : ¬(p.low ≤ b ∧ b ≤ p.high)) (bs : List UInt8) :
    decodeFrom (some p) (b :: bs) = replacement :: decodeFrom none (b :: bs) := by
  simp [decodeFrom, step, hb]

theorem decodeFrom_last (hb : p.low ≤ b ∧ b ≤ p.high) (hlast : p.after = 0) (bs : List UInt8) :
    decodeFrom (some p) (b :: bs) =
      Char.ofNat (p.bits * 64 + (b.toNat - 0x80)) :: decodeFrom none bs := by
  simp [decodeFrom, step, hb, Pending.extend, hlast]

theorem decodeFrom_more (hb : p.low ≤ b ∧ b ≤ p.high) (hmore : p.after = k + 1)
    (bs : List UInt8) :
    decodeFrom (some p) (b :: bs) =
      decodeFrom (some ⟨p.bits * 64 + (b.toNat - 0x80), k, 0x80, 0xBF⟩) bs := by
  simp [decodeFrom, step, hb, Pending.extend, hmore]

/-- The bytes that complete a character give it, whatever comes behind them. -/
theorem Pending.Completes.decodeFrom_eq (hp : p.Live) (h : p.Completes rest n) (bs : List UInt8) :
    decodeFrom (some p) (rest ++ bs) = Char.ofNat n :: decodeFrom none bs := by
  induction rest generalizing p with
  | nil => exact absurd h Pending.not_completes_nil
  | cons b rest ih =>
    have hb := h.in_range
    rw [List.cons_append]
    cases hafter : p.after with
    | zero =>
      obtain ⟨rfl, hn⟩ := (hp.completes_last_iff hb hafter).1 h
      rw [decodeFrom_last hb hafter, List.nil_append, ← hn]
    | succ k =>
      rw [decodeFrom_more hb hafter]
      exact ih (Pending.live_continuation _ _) ((hp.completes_more_iff hb hafter).1 h)

/-- Bytes that begin to complete a character, and cannot go on with what comes behind them. -/
structure Pending.Breaks (p : Pending) (q bs : List UInt8) : Prop where
  begins : ∃ rest n, rest ≠ [] ∧ p.Completes (q ++ rest) n
  longest : ∀ b behind, bs = b :: behind → ∀ rest n, ¬ p.Completes (q ++ b :: rest) n
  decodeFrom_eq : decodeFrom (some p) (q ++ bs) = replacement :: decodeFrom none bs

/-- Of what comes behind a pending character some bytes complete it, or the bytes that begin to
are replaced together with it. -/
theorem Pending.Live.completes_or_breaks (hp : p.Live) (bs : List UInt8) :
    (∃ rest n behind, p.Completes rest n ∧ bs = rest ++ behind) ∨
      ∃ q behind, p.Breaks q behind ∧ bs = q ++ behind := by
  induction bs generalizing p with
  | nil => exact .inr ⟨[], [], ⟨hp.exists_completes, nofun, rfl⟩, rfl⟩
  | cons b bs ih =>
    by_cases hb : p.low ≤ b ∧ b ≤ p.high
    · cases hafter : p.after with
      | zero =>
        exact .inl ⟨[b], _, bs, (hp.completes_last_iff hb hafter).2 ⟨rfl, rfl⟩, rfl⟩
      | succ k =>
        have hmore {rest : List UInt8} {n : Nat} : p.Completes (b :: rest) n ↔ _ :=
          hp.completes_more_iff hb hafter
        rcases ih (Pending.live_continuation (p.bits * 64 + (b.toNat - 0x80)) k) with
          ⟨rest, n, behind, h, rfl⟩ | ⟨q, behind, h, rfl⟩
        · exact .inl ⟨b :: rest, n, behind, hmore.2 h, rfl⟩
        · refine .inr ⟨b :: q, behind, ⟨?_, ?_, ?_⟩, rfl⟩
          · obtain ⟨rest, n, hne, hrest⟩ := h.begins
            exact ⟨rest, n, hne, hmore.2 hrest⟩
          · intro x behind hx rest n hrest
            exact h.longest x behind hx rest n (hmore.1 hrest)
          · rw [List.cons_append, decodeFrom_more hb hafter]
            exact h.decodeFrom_eq
    · refine .inr ⟨[], b :: bs, ⟨hp.exists_completes, ?_, decodeFrom_of_not_in_range hb bs⟩, rfl⟩
      rintro x behind ⟨⟩ rest n hrest
      exact hb hrest.in_range

/-! ### The first byte -/

/-- What is pending behind a byte is completed by what makes the bytes of a character with it. -/
structure Pending.Begins (p : Pending) (b : UInt8) : Prop where
  live : p.Live
  completes_iff : ∀ rest n,
    p.Completes rest n ↔ ∃ c : Char, c.toNat = n ∧ utf8EncodeChar c = b :: rest

/-- It is enough to compare the numbers that can be completed with those of characters. -/
theorem Pending.begins_of_numbers (hp : p.Live) (hafter : bytesAfter b.toNat = p.after + 1)
    (hnumbers : ∀ n, n / 64 ^ (p.after + 1) = p.bits ∧ p.low.toNat ≤ digit p.after n ∧
      digit p.after n ≤ p.high.toNat ↔ n.isValidChar ∧ leadByte n = b.toNat) :
    p.Begins b := by
  have hform {c : Char} (hlead : leadByte c.toNat = b.toNat) : (form c.toNat).2 = p.after + 1 := by
    rw [form_snd_eq (char_toNat_lt c), hlead, hafter]
  refine ⟨hp, fun rest n => ?_⟩
  simp only [utf8EncodeChar_eq_cons_iff]
  constructor
  · rintro ⟨hbits, hrest, hlow, hhigh⟩
    obtain ⟨hn, hlead⟩ := (hnumbers n).1 ⟨hbits, hlow, hhigh⟩
    have hc := toNat_charOfNat hn
    rw [← hc] at hlead hrest
    exact ⟨Char.ofNat n, hc, hlead, by rw [hform hlead, hrest]⟩
  · rintro ⟨c, rfl, hlead, hrest⟩
    obtain ⟨hbits, hlow, hhigh⟩ := (hnumbers c.toNat).2 ⟨c.valid, hlead⟩
    exact ⟨hbits, by rw [hrest, hform hlead], hlow, hhigh⟩

theorem begins_two (hb : 0xC2 ≤ b.toNat ∧ b.toNat < 0xE0) :
    Pending.Begins ⟨b.toNat - 0xC0, 0, 0x80, 0xBF⟩ b := by
  apply Pending.begins_of_numbers (Pending.live_continuation _ _)
  · simp only [bytesAfter]
    split_ifs <;> omega
  · intro n
    simp only [leadByte, form, digit, Nat.isValidChar, UInt8.reduceToNat]
    split_ifs <;> simp <;> omega

/-- The least next byte excludes numbers that need only two bytes, and the greatest excludes the
surrogates. -/
theorem begins_three (hb : 0xE0 ≤ b.toNat ∧ b.toNat < 0xF0) :
    Pending.Begins ⟨b.toNat - 0xE0, 1, if b.toNat = 0xE0 then 0xA0 else 0x80,
      if b.toNat = 0xED then 0x9F else 0xBF⟩ b := by
  apply Pending.begins_of_numbers
  · constructor <;> dsimp only <;> split_ifs <;> first | decide | omega
  · simp only [bytesAfter]
    split_ifs <;> omega
  · intro n
    simp only [leadByte, form, digit, Nat.isValidChar]
    split_ifs <;> simp <;> omega

/-- The least next byte excludes numbers that need only three bytes, and the greatest excludes
those above the last code point. -/
theorem begins_four (hb : 0xF0 ≤ b.toNat ∧ b.toNat < 0xF5) :
    Pending.Begins ⟨b.toNat - 0xF0, 2, if b.toNat = 0xF0 then 0x90 else 0x80,
      if b.toNat = 0xF4 then 0x8F else 0xBF⟩ b := by
  apply Pending.begins_of_numbers
  · constructor <;> dsimp only <;> split_ifs <;> first | decide | omega
  · simp only [bytesAfter]
    split_ifs <;> omega
  · intro n
    simp only [leadByte, form, digit, Nat.isValidChar]
    split_ifs <;> simp <;> omega

theorem utf8EncodeChar_eq_ascii_iff (hb : b.toNat < 0x80) :
    utf8EncodeChar c = b :: rest ↔ c.toNat = b.toNat ∧ rest = [] := by
  have hform : leadByte c.toNat = b.toNat ↔ c.toNat = b.toNat := by
    simp only [leadByte, form]
    split_ifs <;> simp <;> omega
  rw [utf8EncodeChar_eq_cons_iff, hform]
  apply and_congr_right
  intro hc
  rw [hc, form, if_pos hb, trail]

theorem not_utf8EncodeChar_of_stray (hb : 0x80 ≤ b.toNat)
    (hstray : b.toNat < 0xC2 ∨ 0xF5 ≤ b.toNat) : utf8EncodeChar c ≠ b :: rest := by
  intro h
  have hlead := (utf8EncodeChar_eq_cons_iff.1 h).1
  have hc := char_toNat_lt c
  revert hlead
  simp only [leadByte, form]
  split_ifs <;> simp <;> omega

/-- A byte is a character, begins longer ones, or begins none. -/
theorem start_cases (b : UInt8) :
    (b.toNat < 0x80 ∧ start b = ([Char.ofNat b.toNat], none)) ∨
      ((∀ c rest, utf8EncodeChar c ≠ b :: rest) ∧ start b = ([replacement], none)) ∨
      ∃ p, start b = ([], some p) ∧ p.Begins b := by
  by_cases h1 : b.toNat < 0x80
  · exact .inl ⟨h1, by simp only [start, if_pos h1]⟩
  by_cases h2 : b.toNat < 0xC2
  · exact .inr (.inl ⟨fun _ _ => not_utf8EncodeChar_of_stray (by omega) (.inl h2),
      by simp only [start, if_neg h1, if_pos h2]⟩)
  by_cases h3 : b.toNat < 0xE0
  · exact .inr (.inr ⟨_, by simp only [start, if_neg h1, if_neg h2, if_pos h3],
      begins_two (by omega)⟩)
  by_cases h4 : b.toNat < 0xF0
  · exact .inr (.inr ⟨_, by simp only [start, if_neg h1, if_neg h2, if_neg h3, if_pos h4],
      begins_three (by omega)⟩)
  by_cases h5 : b.toNat < 0xF5
  · exact .inr (.inr ⟨_,
      by simp only [start, if_neg h1, if_neg h2, if_neg h3, if_neg h4, if_pos h5],
      begins_four (by omega)⟩)
  · exact .inr (.inl ⟨fun _ _ => not_utf8EncodeChar_of_stray (by omega) (.inr (by omega)),
      by simp only [start, if_neg h1, if_neg h2, if_neg h3, if_neg h4, if_neg h5]⟩)

theorem decode_cons_of_pending (hstart : start b = ([], some p)) (bs : List UInt8) :
    decode (b :: bs) = decodeFrom (some p) bs := by
  simp [decode, decodeFrom, step, hstart]

theorem decode_cons_of_char (hstart : start b = ([c], none)) (bs : List UInt8) :
    decode (b :: bs) = c :: decode bs := by
  simp [decode, decodeFrom, step, hstart]

/-- A character is read from its bytes, whatever comes behind them. -/
theorem decode_utf8EncodeChar_append (c : Char) (bs : List UInt8) :
    decode (utf8EncodeChar c ++ bs) = c :: decode bs := by
  obtain ⟨b, rest, hc⟩ := exists_utf8EncodeChar_eq_cons c
  rw [hc, List.cons_append]
  rcases start_cases b with ⟨hb, hstart⟩ | ⟨hno, -⟩ | ⟨p, hstart, hp⟩
  · obtain ⟨hn, rfl⟩ := (utf8EncodeChar_eq_ascii_iff hb).1 hc
    rw [← hn, Char.ofNat_toNat] at hstart
    rw [List.nil_append, decode_cons_of_char hstart]
  · exact absurd hc (hno c rest)
  · have hrest := (hp.completes_iff rest c.toNat).2 ⟨c, rfl, hc⟩
    rw [decode_cons_of_pending hstart, hrest.decodeFrom_eq hp.live, Char.ofNat_toNat]
    rfl

theorem decode_encode_append (s : List Char) (bs : List UInt8) :
    decode (encode s ++ bs) = s ++ decode bs := by
  induction s with
  | nil => rfl
  | cons c s ih =>
    rw [encode, List.flatMap_cons, List.append_assoc, decode_utf8EncodeChar_append, ← encode, ih,
      List.cons_append]

end ScriptHost.Text.Utf8
