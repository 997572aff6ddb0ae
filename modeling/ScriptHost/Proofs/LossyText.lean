import ScriptHost.Evaluation
import ScriptHost.Proofs.TextFunctions
import ScriptHost.Proofs.Utf8Decoding
/-!
# Bytes as texts

Bytes that are no text are read with replacements: where no character can be
read, the longest piece that begins one, or else a single byte, becomes one
replacement. Bytes of a text are read as that text, whatever comes behind them.
-/

namespace ScriptHost.Text

open String (utf8EncodeChar)

namespace Utf8

/-- A piece of which no character can be read: the longest beginning of a character, or a single
byte that begins none. -/
structure Broken (piece behind : List UInt8) : Prop where
  ne_nil : piece ≠ []
  no_character : ∀ c, ¬utf8EncodeChar c <+: piece ++ behind
  begins : (∃ c, piece <+: utf8EncodeChar c) ∨ piece.length = 1
  longest : ∀ q c, q <+: piece ++ behind → q <+: utf8EncodeChar c → q.length ≤ piece.length

/-- The characters of bytes, with one replacement for each piece that is broken. -/
inductive Decodes : List UInt8 → List Char → Prop where
  | nil : Decodes [] []
  | char (c : Char) {bs : List UInt8} {cs : List Char} (h : Decodes bs cs) :
    Decodes (utf8EncodeChar c ++ bs) (c :: cs)
  | broken {piece bs : List UInt8} {cs : List Char} (hpiece : Broken piece bs)
    (h : Decodes bs cs) : Decodes (piece ++ bs) (replacement :: cs)

variable {b : UInt8} {bs piece piece' behind behind' : List UInt8} {cs : List Char} {p : Pending}

theorem broken_of_stray (hno : ∀ c rest, utf8EncodeChar c ≠ b :: rest) (bs : List UInt8) :
    Broken [b] bs where
  ne_nil := List.cons_ne_nil _ _
  no_character c hc := by
    obtain ⟨x, rest, hx⟩ := exists_utf8EncodeChar_eq_cons c
    rw [hx, List.singleton_append, List.cons_prefix_cons] at hc
    exact hno c rest (by rw [hx, hc.1])
  begins := .inr rfl
  longest q c hq hc := by
    cases q with
    | nil => exact Nat.zero_le _
    | cons x q =>
      rw [List.singleton_append, List.cons_prefix_cons] at hq
      obtain ⟨rest, hrest⟩ := hc
      rw [hq.1] at hrest
      exact absurd hrest.symm (hno c _)

theorem broken_of_breaks (hp : p.Begins b) (h : p.Breaks piece behind) :
    Broken (b :: piece) behind := by
  have hlongest : ∀ q c, q <+: (b :: piece) ++ behind → q <+: utf8EncodeChar c →
      q.length ≤ (b :: piece).length := by
    intro q c hq hc
    rcases List.prefix_or_prefix_of_prefix hq (List.prefix_append _ _) with hshort | ⟨t, rfl⟩
    · exact hshort.length_le
    · cases t with
      | nil => rw [List.append_nil]
      | cons x t =>
        -- A longer beginning would go on with the byte that the piece cannot go on with.
        obtain ⟨rest, hrest⟩ := (List.prefix_append_right_inj _).1 hq
        obtain ⟨u, hu⟩ := hc
        have hcompletes := (hp.completes_iff (piece ++ x :: (t ++ u)) c.toNat).2
          ⟨c, rfl, by rw [← hu]; simp⟩
        exact absurd hcompletes (h.longest x _ hrest.symm _ _)
  obtain ⟨rest, n, hne, hrest⟩ := h.begins
  refine ⟨List.cons_ne_nil _ _, ?_, .inl ?_, hlongest⟩
  · intro c hc
    obtain ⟨x, r, hx⟩ := exists_utf8EncodeChar_eq_cons c
    have hshort := hlongest _ c hc (List.prefix_refl _)
    rw [hx, List.cons_append, List.cons_prefix_cons] at hc
    rw [hc.1] at hx
    rw [hx, List.length_cons, List.length_cons] at hshort
    have hr := ((hp.completes_iff r c.toNat).2 ⟨c, rfl, hx⟩).length_eq
    have hlong := hrest.length_eq
    rw [List.length_append] at hlong
    have hpos := List.length_pos_of_ne_nil hne
    omega
  · obtain ⟨c, -, hc⟩ := (hp.completes_iff _ n).1 hrest
    exact ⟨c, rest, by rw [hc, List.cons_append]⟩

theorem Broken.length_le (h : Broken piece behind) (h' : Broken piece' behind')
    (heq : piece ++ behind = piece' ++ behind') : piece.length ≤ piece'.length := by
  rcases h.begins with ⟨c, hc⟩ | hone
  · exact h'.longest piece c (heq ▸ List.prefix_append _ _) hc
  · rw [hone]
    exact List.length_pos_of_ne_nil h'.ne_nil

/-- Where the bytes are broken there is only one piece to replace. -/
theorem Broken.unique (h : Broken piece behind) (h' : Broken piece' behind')
    (heq : piece ++ behind = piece' ++ behind') : piece = piece' ∧ behind = behind' :=
  List.append_inj heq (Nat.le_antisymm (h.length_le h' heq) (h'.length_le h heq.symm))

/-- The next thing that is read is a character or a replacement for a broken piece. -/
theorem decode_cons_cases (b : UInt8) (bs : List UInt8) :
    (∃ c behind, b :: bs = utf8EncodeChar c ++ behind) ∨
      ∃ piece behind, b :: bs = piece ++ behind ∧ Broken piece behind ∧
        decode (b :: bs) = replacement :: decode behind := by
  rcases start_cases b with ⟨hb, -⟩ | ⟨hno, hstart⟩ | ⟨p, hstart, hp⟩
  · have hn : b.toNat.isValidChar := .inl (hb.trans (by decide))
    have hc := (utf8EncodeChar_eq_ascii_iff hb).2 ⟨toNat_charOfNat hn, rfl⟩
    exact .inl ⟨Char.ofNat b.toNat, bs, by rw [hc, List.singleton_append]⟩
  · exact .inr ⟨[b], bs, rfl, broken_of_stray hno bs, decode_cons_of_char hstart bs⟩
  · rcases hp.live.completes_or_breaks bs with ⟨rest, n, behind, h, rfl⟩ | ⟨q, behind, h, rfl⟩
    · obtain ⟨c, -, hc⟩ := (hp.completes_iff rest n).1 h
      exact .inl ⟨c, behind, by rw [hc, List.cons_append]⟩
    · refine .inr ⟨b :: q, behind, rfl, broken_of_breaks hp h, ?_⟩
      rw [decode_cons_of_pending hstart, h.decodeFrom_eq]
      rfl

theorem decodes_decode (bs : List UInt8) : Decodes bs (decode bs) := by
  induction hlength : bs.length using Nat.strong_induction_on generalizing bs with
  | h n ih =>
    subst hlength
    cases bs with
    | nil => exact .nil
    | cons b bs =>
      have hbehind {piece behind : List UInt8} (heq : b :: bs = piece ++ behind)
          (hne : piece ≠ []) : Decodes behind (decode behind) := by
        refine ih _ ?_ behind rfl
        have hpos := List.length_pos_of_ne_nil hne
        rw [heq, List.length_append]
        omega
      rcases decode_cons_cases b bs with ⟨c, behind, heq⟩ | ⟨piece, behind, heq, hpiece, hdecode⟩
      · rw [heq, decode_utf8EncodeChar_append]
        exact .char c (hbehind heq String.utf8EncodeChar_ne_nil)
      · rw [hdecode, heq]
        exact .broken hpiece (hbehind heq hpiece.ne_nil)

/-- The rule leaves no choice: the characters of bytes are those that are read. -/
theorem decodes_iff : Decodes bs cs ↔ decode bs = cs := by
  constructor
  · intro h
    induction h with
    | nil => rfl
    | char c _ ih => rw [decode_utf8EncodeChar_append, ih]
    | @broken piece bs cs hpiece _ ih =>
      obtain ⟨b, rest, hb⟩ := List.exists_cons_of_ne_nil hpiece.ne_nil
      have hcons : piece ++ bs = b :: (rest ++ bs) := by rw [hb, List.cons_append]
      rcases decode_cons_cases b (rest ++ bs) with ⟨c, behind, heq⟩ | ⟨q, behind, heq, hq, hdecode⟩
      · have hprefix : utf8EncodeChar c <+: piece ++ bs := ⟨behind, by rw [hcons, heq]⟩
        exact absurd hprefix (hpiece.no_character c)
      · obtain ⟨-, rfl⟩ := hpiece.unique hq (hcons.trans heq)
        rw [hcons, hdecode, ih]
  · rintro rfl
    exact decodes_decode bs

/-- Two bytes that begin a character of three are one piece; the first byte of a surrogate is a
piece, and so is the second. -/
example : decode [0xE2, 0x82, 0x41, 0xED, 0xA0] =
    [replacement, 'A', replacement, replacement] := by
  decide

end Utf8

/-! ### Texts -/

variable {b b₁ : List UInt8}

theorem ofBytes_toBytes_append (s : String) (b : List UInt8) :
    ofBytes (toBytes s ++ b) = s ++ ofBytes b := by
  rw [ofBytes, toBytes, Utf8.decode_encode_append, String.ofList_append, String.ofList_toList,
    ofBytes]

theorem ofBytes_toBytes (s : String) : ofBytes (toBytes s) = s := by
  have happend := ofBytes_toBytes_append s []
  rw [List.append_nil] at happend
  rw [happend]
  exact String.append_empty

/-- Bytes are valid if they are those of a text. -/
theorem isValidUTF8_iff : b.toByteArray.IsValidUTF8 ↔ ∃ s, toBytes s = b := by
  constructor
  · rintro ⟨cs, hcs⟩
    refine ⟨String.ofList cs, ?_⟩
    have hbytes := congrArg (fun a => a.data.toList) hcs
    simpa [toBytes, Utf8.encode, List.utf8Encode] using hbytes.symm
  · rintro ⟨s, rfl⟩
    exact ⟨s.toList, rfl⟩

theorem toBytes_ofBytes_eq_iff : toBytes (ofBytes b) = b ↔ b.toByteArray.IsValidUTF8 := by
  rw [isValidUTF8_iff]
  constructor
  · intro h
    exact ⟨_, h⟩
  · rintro ⟨s, rfl⟩
    rw [ofBytes_toBytes]

theorem ofBytes_append (hb₁ : b₁.toByteArray.IsValidUTF8) (b₂ : List UInt8) :
    ofBytes (b₁ ++ b₂) = ofBytes b₁ ++ ofBytes b₂ := by
  obtain ⟨s, rfl⟩ := isValidUTF8_iff.1 hb₁
  rw [ofBytes_toBytes_append, ofBytes_toBytes]

end ScriptHost.Text

namespace ScriptHost.Library.TextModule

open Text (ofBytes toBytes)

theorem call_fromBytes (handler : CallHandler) (b : List UInt8) (w : World) :
    call handler "from_bytes" [.bytes b] w = some (.ok (.string (ofBytes b)), w) := by
  have hname : declared? "from_bytes" members =
      some (Signature.lift ⟨[.bytes], .value (.native .string)⟩ fun xs => ofBytes xs.1) := by
    simp [declared?, members]
  have hxs : Arguments.Denotes w.heap [.bytes] [.bytes b] (b, ()) := ⟨rfl, trivial⟩
  rw [call_lift hname hxs]
  rfl

/-- The function `from_bytes` reads bytes by the rule for broken pieces. It gives a text back from
its bytes, and from more bytes behind them goes on as if the text had not been there, so that
bytes can be read in parts that are cut between characters. Only bytes that are valid are the
bytes of what is read from them. The same text is the display text of the bytes, and it is what a
text appends that they are added to. -/
theorem from_bytes_keeps_valid_text :
    (∀ handler b w,
      call handler "from_bytes" [.bytes b] w = some (.ok (.string (ofBytes b)), w)) ∧
    (∀ b cs, Text.Utf8.Decodes b cs ↔ (ofBytes b).toList = cs) ∧
    (∀ s b, ofBytes (toBytes s ++ b) = s ++ ofBytes b) ∧
    (∀ s, ofBytes (toBytes s) = s) ∧
    (∀ b, toBytes (ofBytes b) = b ↔ b.toByteArray.IsValidUTF8) ∧
    (∀ (h : Heap) b₁ b₂, b₁.toByteArray.IsValidUTF8 →
      ∃ b, h.apply .add (.bytes b₁) (.bytes b₂) = .ok (.bytes b, h) ∧
        h.apply .add (.string (ofBytes b₁)) (.string (ofBytes b₂)) =
          .ok (.string (ofBytes b), h)) ∧
    ∀ (h : Heap) s b, h.display (.bytes b) = ofBytes b ∧
      h.apply .add (.string s) (.bytes b) = .ok (.string (s ++ ofBytes b), h) := by
  have hdisplay (h : Heap) (b : List UInt8) : h.display (.bytes b) = ofBytes b :=
    h.display_atom (.bytes b)
  refine ⟨call_fromBytes, fun b cs => ?_, Text.ofBytes_toBytes_append, Text.ofBytes_toBytes,
    fun b => Text.toBytes_ofBytes_eq_iff, fun h b₁ b₂ hb₁ => ⟨b₁ ++ b₂, rfl, ?_⟩,
    fun h s b => ⟨hdisplay h b, ?_⟩⟩
  · rw [ofBytes, String.toList_ofList]
    exact Text.Utf8.decodes_iff
  · rw [Text.ofBytes_append hb₁]
    rfl
  · rw [← hdisplay h b]
    rfl

theorem from_bytes_keeps_valid_text_before_truncated :
    [0xC3, 0xA9].toByteArray.IsValidUTF8 ∧
      ∃ b, Heap.apply ⟨#[]⟩ .add (.bytes [0xC3, 0xA9]) (.bytes [0xE2, 0x82]) =
          .ok (.bytes b, ⟨#[]⟩) ∧
        Heap.apply ⟨#[]⟩ .add (.string (ofBytes [0xC3, 0xA9])) (.string (ofBytes [0xE2, 0x82])) =
          .ok (.string (ofBytes b), ⟨#[]⟩) := by
  have hvalid : [0xC3, 0xA9].toByteArray.IsValidUTF8 := Text.isValidUTF8_iff.2 ⟨"é", by decide⟩
  obtain ⟨-, -, -, -, -, happend, -⟩ := from_bytes_keeps_valid_text
  exact ⟨hvalid, happend _ _ _ hvalid⟩

end ScriptHost.Library.TextModule
