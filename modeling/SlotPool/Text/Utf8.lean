/-!
Decoding bytes as UTF-8 without ever failing. Each longest run of bytes that begins a character
but does not complete it, and each byte that begins none, gives one replacement character.
-/

namespace SlotPool.Text

/-- What stands for bytes that are not UTF-8. -/
def replacement : Char := '\uFFFD'

/-- A character of which some bytes have been read. -/
structure PartialChar where
  /-- the bits read so far -/
  bits : Nat
  /-- how many bytes are missing -/
  missing : Nat
  /-- the least byte that may come next -/
  low : UInt8
  /-- the greatest byte that may come next -/
  high : UInt8

/-- What a byte above the ASCII range begins. The bounds on the second byte leave out surrogates,
    values above the last code point and forms longer than needed. -/
def beginChar? (lead : UInt8) : Option PartialChar :=
  if 0xC2 ≤ lead ∧ lead ≤ 0xDF then some ⟨lead.toNat % 32, 1, 0x80, 0xBF⟩
  else if lead = 0xE0 then some ⟨0, 2, 0xA0, 0xBF⟩
  else if lead = 0xED then some ⟨13, 2, 0x80, 0x9F⟩
  else if 0xE1 ≤ lead ∧ lead ≤ 0xEF then some ⟨lead.toNat % 16, 2, 0x80, 0xBF⟩
  else if lead = 0xF0 then some ⟨0, 3, 0x90, 0xBF⟩
  else if 0xF1 ≤ lead ∧ lead ≤ 0xF3 then some ⟨lead.toNat % 8, 3, 0x80, 0xBF⟩
  else if lead = 0xF4 then some ⟨4, 3, 0x80, 0x8F⟩
  else none

/-- What a byte gives between characters: the text it completes and the character it begins. -/
def decodeFirst (byte : UInt8) : List Char × Option PartialChar :=
  if byte < 0x80 then ([Char.ofNat byte.toNat], none)
  else
    match beginChar? byte with
    | some begun => ([], some begun)
    | none => ([replacement], none)

/-- Decodes bytes that follow a character begun or, with `none`, completed. A byte that does not
    fit ends the character begun with one replacement and is then read as a first byte. -/
def decodeAfter : Option PartialChar → List UInt8 → List Char
  | none, [] => []
  | some _, [] => [replacement]
  | none, byte :: rest =>
    let (text, next) := decodeFirst byte
    text ++ decodeAfter next rest
  | some begun, byte :: rest =>
    if begun.low ≤ byte ∧ byte ≤ begun.high then
      let bits := begun.bits * 64 + byte.toNat % 64
      if begun.missing ≤ 1 then Char.ofNat bits :: decodeAfter none rest
      else decodeAfter (some ⟨bits, begun.missing - 1, 0x80, 0xBF⟩) rest
    else
      let (text, next) := decodeFirst byte
      replacement :: text ++ decodeAfter next rest

/-- Decodes bytes as UTF-8, with `replacement` where they are not. -/
def decodeUtf8 (bytes : List UInt8) : List Char :=
  decodeAfter none bytes

end SlotPool.Text
