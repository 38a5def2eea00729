/-!
# Bytes and text

Decoding never fails: every maximal run of bytes that starts a character but does not finish
it, and every byte that cannot start one, becomes one replacement character. The decoder reads
byte by byte and keeps the character that has begun, so it has one case per byte class.
Encoding is the usual one, without a byte order mark.
-/

namespace GameSetup.Text.Utf8

/-- Stands for a part of the bytes that is no character. -/
def replacement : Char := '\uFFFD'

/-- A character whose first bytes have been read. -/
structure Begun where
  /-- The bits collected so far. -/
  value : Nat
  /-- How many bytes follow the next one. -/
  missing : Nat
  /-- The least byte that can come next. -/
  low : UInt8
  /-- The greatest byte that can come next. -/
  high : UInt8
  deriving DecidableEq, Repr

/-- What one byte at the start of a character gives: decoded characters, and one begun. -/
def first (b : UInt8) : List Char × Option Begun :=
  if b < 0x80 then ([Char.ofNat b.toNat], none)
  else if b < 0xc2 then ([replacement], none)
  else if b < 0xe0 then ([], some ⟨b.toNat - 0xc0, 0, 0x80, 0xbf⟩)
  else if b == 0xe0 then ([], some ⟨0, 1, 0xa0, 0xbf⟩)
  else if b == 0xed then ([], some ⟨0xd, 1, 0x80, 0x9f⟩)
  else if b < 0xf0 then ([], some ⟨b.toNat - 0xe0, 1, 0x80, 0xbf⟩)
  else if b == 0xf0 then ([], some ⟨0, 2, 0x90, 0xbf⟩)
  else if b < 0xf4 then ([], some ⟨b.toNat - 0xf0, 2, 0x80, 0xbf⟩)
  else if b == 0xf4 then ([], some ⟨4, 2, 0x80, 0x8f⟩)
  else ([replacement], none)

/-- Reads one byte; a byte that does not continue the begun character starts afresh. -/
def step (begun : Option Begun) (b : UInt8) : List Char × Option Begun :=
  match begun with
  | none => first b
  | some p =>
    if p.low ≤ b ∧ b ≤ p.high then
      let value := p.value * 64 + (b.toNat - 0x80)
      match p.missing with
      | 0 => ([Char.ofNat value], none)
      | missing + 1 => ([], some ⟨value, missing, 0x80, 0xbf⟩)
    else
      (replacement :: (first b).1, (first b).2)

/-- The characters of the remaining bytes, given the character that has begun. -/
def decodeFrom : Option Begun → List UInt8 → List Char
  | none, [] => []
  | some _, [] => [replacement]
  | begun, b :: bs => (step begun b).1 ++ decodeFrom (step begun b).2 bs

/-- The text of a byte sequence. -/
def decode (bytes : List UInt8) : String :=
  String.ofList (decodeFrom none bytes)

/-- The bytes of a text. -/
def encode (text : String) : List UInt8 :=
  text.toList.flatMap String.utf8EncodeChar

/-- A byte below 128 is a character by itself. -/
theorem first_of_lt {b : UInt8} (h : b < 0x80) : first b = ([Char.ofNat b.toNat], none) := by
  simp [first, h]

/-- A byte is decoded after those in front of it, and before those behind. -/
theorem decodeFrom_cons (begun : Option Begun) (b : UInt8) (bs : List UInt8) :
    decodeFrom begun (b :: bs) = (step begun b).1 ++ decodeFrom (step begun b).2 bs := by
  cases begun <;> rfl

end GameSetup.Text.Utf8
