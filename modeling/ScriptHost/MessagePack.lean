import ScriptHost.Arity
import ScriptHost.Operator
import ScriptHost.Text.Utf8
import ScriptHost.Tree
/-!
# MessagePack

The binary form of a tree of values. Every part is written in the shortest
form there is for it. An error becomes a map with the one key `error`, and a
callable becomes its name. An array inside itself has no binary form.
-/

namespace ScriptHost.MessagePack

/-- The last `width` bytes of a number, the most significant first. -/
def bigEndian : Nat → Nat → List UInt8
  | 0, _ => []
  | width + 1, n => bigEndian width (n / 256) ++ [UInt8.ofNat n]

def natural (n : Nat) : List UInt8 :=
  if n < 0x80 then [UInt8.ofNat n]
  else if n < 0x100 then 0xCC :: bigEndian 1 n
  else if n < 0x10000 then 0xCD :: bigEndian 2 n
  else if n < 0x100000000 then 0xCE :: bigEndian 4 n
  else 0xCF :: bigEndian 8 n

/-- An integer of 64 bits. A negative one is written in two's complement. -/
def integer (n : Int) : List UInt8 :=
  if 0 ≤ n then natural n.toNat
  else if -0x20 ≤ n then bigEndian 1 (n + 0x100).toNat
  else if -0x80 ≤ n then 0xD0 :: bigEndian 1 (n + 0x100).toNat
  else if -0x8000 ≤ n then 0xD1 :: bigEndian 2 (n + 0x10000).toNat
  else if -0x80000000 ≤ n then 0xD2 :: bigEndian 4 (n + 0x100000000).toNat
  else 0xD3 :: bigEndian 8 (n + 0x10000000000000000).toNat

def float (x : Float) : List UInt8 :=
  0xCB :: bigEndian 8 x.toBits.toNat

def textHeader (n : Nat) : List UInt8 :=
  if n < 0x20 then [UInt8.ofNat (0xA0 + n)]
  else if n < 0x100 then 0xD9 :: bigEndian 1 n
  else if n < 0x10000 then 0xDA :: bigEndian 2 n
  else 0xDB :: bigEndian 4 n

def text (s : String) : List UInt8 :=
  let b := Text.toBytes s
  textHeader b.length ++ b

def bytesHeader (n : Nat) : List UInt8 :=
  if n < 0x100 then 0xC4 :: bigEndian 1 n
  else if n < 0x10000 then 0xC5 :: bigEndian 2 n
  else 0xC6 :: bigEndian 4 n

def arrayHeader (n : Nat) : List UInt8 :=
  if n < 0x10 then [UInt8.ofNat (0x90 + n)]
  else if n < 0x10000 then 0xDC :: bigEndian 2 n
  else 0xDD :: bigEndian 4 n

def mapHeader (n : Nat) : List UInt8 :=
  if n < 0x10 then [UInt8.ofNat (0x80 + n)]
  else if n < 0x10000 then 0xDE :: bigEndian 2 n
  else 0xDF :: bigEndian 4 n

def atom : Atom → List UInt8
  | .undefined => [0xC0]
  | .bool b => [if b then 0xC3 else 0xC2]
  | .int n => integer n.toInt
  | .float x => float x
  | .string s => text s
  | .bytes b => bytesHeader b.length ++ b
  | .builtin f => text f.name

/-- A map from the binary forms of its values. -/
def entries (es : List (String × List UInt8)) : List UInt8 :=
  mapHeader es.length ++ es.flatMap fun e => text e.1 ++ e.2

def kind (k : Kind) : List UInt8 :=
  text k.tag

def operator (op : Operator) : List UInt8 :=
  text op.tag

/-- An arity, as a map from the name of its shape to the number. -/
def arity (a : Arity) : List UInt8 :=
  entries [(a.tag, natural a.least)]

/-- The members of a list, if all of them are there. -/
def collect {α : Type} : List (Option α) → Option (List α)
  | [] => some []
  | none :: _ => none
  | some a :: l => (collect l).map (a :: ·)

/-- Builds the binary form from the leaves upward. -/
def algebra : Tree.Algebra (Option (List UInt8)) where
  atom a := some (atom a)
  array parts := (collect parts).map fun bs => arrayHeader bs.length ++ bs.flatten
  ancestor _ := none
  map m := (collect (m.entries.map fun e => e.2.map (e.1, ·))).map entries
  error p := p.map fun b => entries [("error", b)]

/-- The binary form of a tree. There is none if an array occurs inside itself. -/
def encode? (t : Tree) : Option (List UInt8) :=
  t.fold algebra

def cyclicMessage : String :=
  "cannot serialize a cyclic array"

end ScriptHost.MessagePack
