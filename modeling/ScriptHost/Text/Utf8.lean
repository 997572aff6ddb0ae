/-!
# UTF-8

Texts as bytes, and bytes as texts. Every byte sequence has a text: where no
character can be read, the longest piece that could have begun one becomes a
single replacement character.
-/

namespace ScriptHost.Text.Utf8

def encode (s : List Char) : List UInt8 :=
  s.flatMap String.utf8EncodeChar

/-- A character that has begun and is not complete. -/
structure Pending where
  bits : Nat
  /-- How many bytes are to come after the next. -/
  after : Nat
  /-- The least byte that may come next. -/
  low : UInt8
  /-- The greatest byte that may come next. -/
  high : UInt8
deriving DecidableEq, Repr

/-- The character that stands for bytes that cannot be read. -/
def replacement : Char := '\uFFFD'

/-- Reads a byte where a character may begin. -/
def start (b : UInt8) : List Char × Option Pending :=
  let n := b.toNat
  if n < 0x80 then ([Char.ofNat n], none)
  else if n < 0xC2 then ([replacement], none)
  else if n < 0xE0 then ([], some ⟨n - 0xC0, 0, 0x80, 0xBF⟩)
  else if n < 0xF0 then
    ([], some ⟨n - 0xE0, 1, if n = 0xE0 then 0xA0 else 0x80, if n = 0xED then 0x9F else 0xBF⟩)
  else if n < 0xF5 then
    ([], some ⟨n - 0xF0, 2, if n = 0xF0 then 0x90 else 0x80, if n = 0xF4 then 0x8F else 0xBF⟩)
  else ([replacement], none)

/-- Reads a byte that may come next. -/
def Pending.extend (p : Pending) (b : UInt8) : List Char × Option Pending :=
  let bits := p.bits * 64 + (b.toNat - 0x80)
  match p.after with
  | 0 => ([Char.ofNat bits], none)
  | n + 1 => ([], some ⟨bits, n, 0x80, 0xBF⟩)

/-- Reads a byte. A byte that cannot come next begins anew after a replacement. -/
def step : Option Pending → UInt8 → List Char × Option Pending
  | none, b => start b
  | some p, b =>
    if p.low ≤ b ∧ b ≤ p.high then p.extend b
    else
      let (cs, state) := start b
      (replacement :: cs, state)

/-- Reads bytes up to their end, where an incomplete character is replaced. -/
def decodeFrom : Option Pending → List UInt8 → List Char
  | none, [] => []
  | some _, [] => [replacement]
  | state, b :: bs =>
    let (cs, state') := step state b
    cs ++ decodeFrom state' bs

def decode (bs : List UInt8) : List Char :=
  decodeFrom none bs

end ScriptHost.Text.Utf8

namespace ScriptHost.Text

def toBytes (s : String) : List UInt8 :=
  Utf8.encode s.toList

/-- The text of bytes, with replacements where they are no text. -/
def ofBytes (b : List UInt8) : String :=
  String.ofList (Utf8.decode b)

end ScriptHost.Text
