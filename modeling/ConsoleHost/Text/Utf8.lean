/-! UTF-8 as lists of bytes. Decoding never fails: each maximal ill-formed part becomes one U+FFFD. -/
namespace ConsoleHost.Text

/-- The bytes of a text. -/
def encode (s : String) : List UInt8 := s.toList.flatMap String.utf8EncodeChar

/-- What stands for bytes that encode nothing. -/
def replacement : Char := Char.ofNat 0xFFFD

/-- A sequence that has begun: how many bytes it still wants, the range of the next one, and the
value of the bits so far. Every later byte is in `80..BF`; only the first may be restricted. -/
structure Opened where
  more : Nat
  low : UInt8
  high : UInt8
  value : Nat
  deriving DecidableEq, Repr

/-- What the first byte of a sequence says. -/
inductive Start where
  | ascii (c : Char)
  | opens (o : Opened)
  | illFormed
  deriving DecidableEq, Repr

/-- The ranges after `E0`, `ED`, `F0` and `F4` leave out overlong forms, surrogates and values
above U+10FFFF. -/
def Start.of (b : UInt8) : Start :=
  if b < 0x80 then .ascii (Char.ofNat b.toNat)
  else if b < 0xC2 then .illFormed
  else if b < 0xE0 then .opens ⟨1, 0x80, 0xBF, b.toNat - 0xC0⟩
  else if b = 0xE0 then .opens ⟨2, 0xA0, 0xBF, 0⟩
  else if b = 0xED then .opens ⟨2, 0x80, 0x9F, 13⟩
  else if b < 0xF0 then .opens ⟨2, 0x80, 0xBF, b.toNat - 0xE0⟩
  else if b = 0xF0 then .opens ⟨3, 0x90, 0xBF, 0⟩
  else if b < 0xF4 then .opens ⟨3, 0x80, 0xBF, b.toNat - 0xF0⟩
  else if b = 0xF4 then .opens ⟨3, 0x80, 0x8F, 4⟩
  else .illFormed

/-- The text so far, and the sequence that its last bytes have begun. -/
structure Decoder where
  text : String
  pending : Option Opened

def Decoder.empty : Decoder := ⟨"", none⟩

/-- A byte where a sequence may start. -/
def Decoder.start (text : String) (b : UInt8) : Decoder :=
  match Start.of b with
  | .ascii c => ⟨text.push c, none⟩
  | .opens o => ⟨text, some o⟩
  | .illFormed => ⟨text.push replacement, none⟩

/-- One byte. A byte that cannot go on with the sequence ends it as ill-formed and starts anew. -/
def Decoder.feed (d : Decoder) (b : UInt8) : Decoder :=
  match d.pending with
  | none => start d.text b
  | some o =>
    if o.low ≤ b ∧ b ≤ o.high then
      let value := o.value * 64 + b.toNat % 64
      match o.more with
      | 0 | 1 => ⟨d.text.push (Char.ofNat value), none⟩
      | more + 1 => ⟨d.text, some ⟨more, 0x80, 0xBF, value⟩⟩
    else start (d.text.push replacement) b

/-- A sequence cut off by the end is ill-formed. -/
def Decoder.finish (d : Decoder) : String :=
  if d.pending.isSome then d.text.push replacement else d.text

/-- The text of any bytes. -/
def decode (bytes : List UInt8) : String := (bytes.foldl Decoder.feed .empty).finish

end ConsoleHost.Text
