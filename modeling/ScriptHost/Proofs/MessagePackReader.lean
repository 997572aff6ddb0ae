import ScriptHost.MessagePack
import ScriptHost.Proofs.FloatBits
/-!
# Reading the binary form

A reader takes a value from the front of a byte string. Every binary form
begins with a head, which is an atom or says how long a text, a byte sequence,
an array or a map is that follows. It is shown that each header is read back
as what it was written for, whatever bytes come after it.
-/

namespace ScriptHost.MessagePack

/-- Takes a value from the front of a byte string and leaves the rest. -/
abbrev Reader : Type → Type :=
  StateT (List UInt8) Option

/-- What a binary form begins with. -/
inductive Head where
  | atom (a : Atom)
  | text (n : Nat)
  | bytes (n : Nat)
  | array (n : Nat)
  | map (n : Nat)

/-- How many numbers there are with some number of bytes. -/
def room : Nat → Nat
  | 0 => 1
  | width + 1 => room width * 0x100

namespace Read

variable {α β : Type}

def byte : Reader UInt8 := fun b =>
  match b with
  | [] => none
  | x :: rest => some (x, rest)

def take (n : Nat) : Reader (List UInt8) := fun b =>
  if n ≤ b.length then some (b.take n, b.drop n) else none

/-- A number, the most significant byte first. -/
def number (width : Nat) : Reader Nat := do
  let b ← take width
  return b.foldl (fun n x => n * 0x100 + x.toNat) 0

/-- The value without reading, if it is known. -/
def known : Option α → Reader α
  | some a => return a
  | none => failure

def many (read : Reader α) : Nat → Reader (List α)
  | 0 => return []
  | n + 1 => do
    let a ← read
    let as ← many read n
    return a :: as

def integer (n : Int) : Head :=
  .atom (.int (Int64.ofInt n))

def natural (n : Nat) : Head :=
  integer n

def signed (width n : Nat) : Head :=
  integer (if 2 * n < room width then n else n - room width)

def float (bits : Nat) : Head :=
  .atom (.float (Float.ofBits (UInt64.ofNat bits)))

/-- The head that is one byte long and begins with the byte. -/
def short? (n : Nat) : Option Head :=
  if n < 0x80 then some (natural n)
  else if n < 0x90 then some (.map (n - 0x80))
  else if n < 0xA0 then some (.array (n - 0x90))
  else if n < 0xC0 then some (.text (n - 0xA0))
  else if n < 0xE0 then none
  else some (integer (n - 0x100))

/-- The rest of a head that begins with the marker. -/
def marked : Nat → Reader Head
  | 0xC0 => return .atom .undefined
  | 0xC2 => return .atom (.bool false)
  | 0xC3 => return .atom (.bool true)
  | 0xC4 => .bytes <$> number 1
  | 0xC5 => .bytes <$> number 2
  | 0xC6 => .bytes <$> number 4
  | 0xCB => float <$> number 8
  | 0xCC => natural <$> number 1
  | 0xCD => natural <$> number 2
  | 0xCE => natural <$> number 4
  | 0xCF => natural <$> number 8
  | 0xD0 => signed 1 <$> number 1
  | 0xD1 => signed 2 <$> number 2
  | 0xD2 => signed 4 <$> number 4
  | 0xD3 => signed 8 <$> number 8
  | 0xD9 => .text <$> number 1
  | 0xDA => .text <$> number 2
  | 0xDB => .text <$> number 4
  | 0xDC => .array <$> number 2
  | 0xDD => .array <$> number 4
  | 0xDE => .map <$> number 2
  | 0xDF => .map <$> number 4
  | _ => failure

/-- The rest of a head that begins with the byte. -/
def headFrom (x : UInt8) : Reader Head :=
  match short? x.toNat with
  | some a => return a
  | none => marked x.toNat

def head : Reader Head := do
  let x ← byte
  headFrom x

def text? (b : List UInt8) : Option String :=
  b.toByteArray.utf8Decode?.map fun cs => String.ofList cs.toList

def text (n : Nat) : Reader String := do
  let b ← take n
  known (text? b)

end Read

/-- The bytes are read as the value, whatever comes after them. -/
def Reads {α : Type} (read : Reader α) (b : List UInt8) (a : α) : Prop :=
  ∀ rest, read (b ++ rest) = some (a, rest)

variable {α β : Type} {read : Reader α} {b b' : List UInt8} {a : α} {c : β} {n width : Nat}

/-! ### Readers one after the other -/

theorem Reads.pure (a : α) : Reads (pure a) [] a := fun _ => rfl

theorem Reads.bind {next : α → Reader β} (ha : Reads read b a) (hc : Reads (next a) b' c) :
    Reads (read >>= next) (b ++ b') c := by
  intro rest
  change (read (b ++ b' ++ rest)).bind (fun p => next p.1 p.2) = some (c, rest)
  rw [List.append_assoc, ha]
  exact hc rest

theorem Reads.map (f : α → β) (ha : Reads read b a) : Reads (f <$> read) b (f a) := by
  intro rest
  change (read (b ++ rest)).bind (fun p => some (f p.1, p.2)) = some (f a, rest)
  rw [ha]
  rfl

theorem Reads.many {bs : List (List UInt8)} {as : List α}
    (has : List.Forall₂ (Reads read) bs as) : Reads (Read.many read bs.length) bs.flatten as := by
  induction has with
  | nil => exact .pure []
  | cons ha _ ih => exact .bind ha (.map _ ih)

theorem reads_byte (x : UInt8) : Reads Read.byte [x] x := fun _ => rfl

theorem reads_take (b : List UInt8) : Reads (Read.take b.length) b b := by
  intro rest
  simp [Read.take]

/-! ### Numbers -/

@[simp] theorem length_bigEndian (width n : Nat) : (bigEndian width n).length = width := by
  induction width generalizing n with
  | zero => rfl
  | succ width ih => simp [bigEndian, ih]

theorem foldl_bigEndian (hn : n < room width) :
    (bigEndian width n).foldl (fun n x => n * 0x100 + x.toNat) 0 = n := by
  induction width generalizing n with
  | zero =>
    rw [room] at hn
    rw [bigEndian, List.foldl_nil]
    omega
  | succ width ih =>
    have hdiv : n / 0x100 < room width := by
      rw [room] at hn
      omega
    rw [bigEndian, List.foldl_append, ih hdiv]
    simp only [List.foldl_cons, List.foldl_nil, UInt8.toNat_ofNat']
    omega

theorem reads_number (hn : n < room width) : Reads (Read.number width) (bigEndian width n) n := by
  have htake := reads_take (bigEndian width n)
  rw [length_bigEndian] at htake
  have hall := Reads.map (fun b => b.foldl (fun n x => n * 0x100 + x.toNat) 0) htake
  rwa [foldl_bigEndian hn] at hall

/-! ### Heads -/

theorem reads_head_short {a : Head} (hn : n < 0x100) (ha : Read.short? n = some a) :
    Reads Read.head [UInt8.ofNat n] a := by
  have hx : (UInt8.ofNat n).toNat = n := by
    rw [UInt8.toNat_ofNat']
    omega
  have hfrom : Reads (Read.headFrom (UInt8.ofNat n)) [] a := by
    rw [Read.headFrom, hx, ha]
    exact .pure a
  exact .bind (reads_byte _) hfrom

theorem reads_head_marked {x : UInt8} (f : Nat → Head) (hx : Read.short? x.toNat = none)
    (hmarked : Read.marked x.toNat = f <$> Read.number width) (hn : n < room width) :
    Reads Read.head (x :: bigEndian width n) (f n) := by
  have hfrom : Reads (Read.headFrom x) (bigEndian width n) (f n) := by
    rw [Read.headFrom, hx, hmarked]
    exact .map f (reads_number hn)
  exact .bind (reads_byte x) hfrom

theorem reads_head_alone {x : UInt8} {a : Head} (hx : Read.short? x.toNat = none)
    (hmarked : Read.marked x.toNat = pure a) : Reads Read.head [x] a := by
  have hfrom : Reads (Read.headFrom x) [] a := by
    rw [Read.headFrom, hx, hmarked]
    exact .pure a
  exact .bind (reads_byte x) hfrom

theorem reads_natural (hn : n < room 8) : Reads Read.head (natural n) (Read.natural n) := by
  unfold natural
  split
  · next h => exact reads_head_short (by omega) (by simp [Read.short?, h])
  split
  · next h => exact reads_head_marked Read.natural rfl rfl h
  split
  · next h => exact reads_head_marked Read.natural rfl rfl h
  split
  · next h => exact reads_head_marked Read.natural rfl rfl h
  · exact reads_head_marked Read.natural rfl rfl hn

theorem signed_toNat {n : Int} (hle : -(room width : Int) ≤ 2 * n) :
    Read.signed width (n + room width).toNat = Read.integer n := by
  have hnat : ((n + room width).toNat : Int) = n + room width := Int.toNat_of_nonneg (by omega)
  rw [Read.signed, if_neg (by omega), hnat, Int.add_sub_cancel]

theorem reads_head_signed {x : UInt8} {n : Int} (hx : Read.short? x.toNat = none)
    (hmarked : Read.marked x.toNat = Read.signed width <$> Read.number width)
    (hle : -(room width : Int) ≤ 2 * n) (hneg : n < 0) :
    Reads Read.head (x :: bigEndian width (n + room width).toNat) (Read.integer n) := by
  have hlt : (n + room width).toNat < room width := by omega
  have hread := reads_head_marked _ hx hmarked hlt
  rwa [signed_toNat hle] at hread

theorem reads_integer {n : Int} (hle : -0x8000000000000000 ≤ n) (hlt : n < 0x8000000000000000) :
    Reads Read.head (integer n) (Read.integer n) := by
  unfold integer
  split
  · next h =>
    have hn : n.toNat < room 8 := by
      change n.toNat < 0x10000000000000000
      omega
    have hnat := reads_natural hn
    rwa [Read.natural, Int.toNat_of_nonneg h] at hnat
  next h =>
  have hneg : n < 0 := Int.not_le.1 h
  split
  · next h =>
    have hnat : ((n + 0x100).toNat : Int) = n + 0x100 := Int.toNat_of_nonneg (by omega)
    refine reads_head_short (by omega) ?_
    rw [Read.short?, if_neg (by omega), if_neg (by omega), if_neg (by omega), if_neg (by omega),
      if_neg (by omega), hnat, Int.add_sub_cancel]
  split
  · exact reads_head_signed rfl rfl (by change -0x100 ≤ 2 * n; omega) hneg
  split
  · exact reads_head_signed rfl rfl (by change -0x10000 ≤ 2 * n; omega) hneg
  split
  · exact reads_head_signed rfl rfl (by change -0x100000000 ≤ 2 * n; omega) hneg
  · exact reads_head_signed rfl rfl (by change -0x10000000000000000 ≤ 2 * n; omega) hneg

theorem reads_float (x : Float) : Reads Read.head (float x) (.atom (.float x)) := by
  have hread := reads_head_marked Read.float (x := 0xCB) rfl rfl x.toBits.toNat_lt
  rwa [Read.float, UInt64.ofNat_toNat, Float.ofBits_toBits] at hread

theorem reads_textHeader (hn : n < room 4) : Reads Read.head (textHeader n) (.text n) := by
  unfold textHeader
  split
  · next h =>
    refine reads_head_short (by omega) ?_
    rw [Read.short?, if_neg (by omega), if_neg (by omega), if_neg (by omega), if_pos (by omega),
      Nat.add_sub_cancel_left]
  split
  · next h => exact reads_head_marked Head.text rfl rfl h
  split
  · next h => exact reads_head_marked Head.text rfl rfl h
  · exact reads_head_marked Head.text rfl rfl hn

theorem reads_bytesHeader (hn : n < room 4) : Reads Read.head (bytesHeader n) (.bytes n) := by
  unfold bytesHeader
  split
  · next h => exact reads_head_marked Head.bytes rfl rfl h
  split
  · next h => exact reads_head_marked Head.bytes rfl rfl h
  · exact reads_head_marked Head.bytes rfl rfl hn

theorem reads_arrayHeader (hn : n < room 4) : Reads Read.head (arrayHeader n) (.array n) := by
  unfold arrayHeader
  split
  · next h =>
    refine reads_head_short (by omega) ?_
    rw [Read.short?, if_neg (by omega), if_neg (by omega), if_pos (by omega),
      Nat.add_sub_cancel_left]
  split
  · next h => exact reads_head_marked Head.array rfl rfl h
  · exact reads_head_marked Head.array rfl rfl hn

theorem reads_mapHeader (hn : n < room 4) : Reads Read.head (mapHeader n) (.map n) := by
  unfold mapHeader
  split
  · next h =>
    refine reads_head_short (by omega) ?_
    rw [Read.short?, if_neg (by omega), if_pos (by omega), Nat.add_sub_cancel_left]
  split
  · next h => exact reads_head_marked Head.map rfl rfl h
  · exact reads_head_marked Head.map rfl rfl hn

/-! ### Texts -/

theorem text?_toBytes (s : String) : Read.text? (Text.toBytes s) = some s := by
  have hdecode := List.utf8Decode?_utf8Encode (l := s.toList)
  rw [List.utf8Encode] at hdecode
  rw [Read.text?, Text.toBytes, Text.Utf8.encode, hdecode]
  simp

theorem reads_text (s : String) :
    Reads (Read.text (Text.toBytes s).length) (Text.toBytes s) s := by
  have hknown : Reads (Read.known (Read.text? (Text.toBytes s))) [] s := by
    rw [text?_toBytes]
    exact .pure s
  have hread : Reads (Read.text (Text.toBytes s).length) (Text.toBytes s ++ []) s :=
    .bind (reads_take _) hknown
  rwa [List.append_nil] at hread

end ScriptHost.MessagePack
