/-!
# UTF-8

Bytes and characters. `encode` writes a text as UTF-8; `decode` reads one back and, where the bytes
are no text, says at which byte the fault begins and how many bytes it takes: the longest start of a
character that could not be continued, or none when the bytes end inside a character.
-/

namespace TopicPublisher

/-- Raw bytes: the payload of a message, a file, the standard input. -/
abbrev Bytes := List UInt8

namespace Utf8

/-- Why bytes are no text: the offset of the first one at fault, and the length of the fault; no
length means that the bytes end within a character. -/
structure Fault where
  offset : Nat
  length : Option Nat
  deriving DecidableEq, Repr

/-- The wording of a fault. -/
def Fault.message (f : Fault) : String :=
  match f.length with
  | some n => s!"invalid utf-8 sequence of {n} bytes from index {f.offset}"
  | none => s!"incomplete utf-8 byte sequence from index {f.offset}"

/-! ## 1. Writing -/

def encodeChar (c : Char) : Bytes :=
  let n := c.toNat
  if n < 0x80 then [UInt8.ofNat n]
  else if n < 0x800 then [UInt8.ofNat (0xC0 + n / 64), UInt8.ofNat (0x80 + n % 64)]
  else if n < 0x10000 then
    [UInt8.ofNat (0xE0 + n / 4096), UInt8.ofNat (0x80 + n / 64 % 64), UInt8.ofNat (0x80 + n % 64)]
  else
    [UInt8.ofNat (0xF0 + n / 262144), UInt8.ofNat (0x80 + n / 4096 % 64),
      UInt8.ofNat (0x80 + n / 64 % 64), UInt8.ofNat (0x80 + n % 64)]

def encodeChars (cs : List Char) : Bytes := cs.flatMap encodeChar

/-- The bytes of a text. -/
def encode (s : String) : Bytes := encodeChars s.toList

/-! ## 2. Reading -/

/-- A byte that continues a character. -/
def isTail (b : UInt8) : Bool := 0x80 ≤ b && b ≤ 0xBF

/-- The second byte that may follow a lead byte of three. -/
def isSecondOfThree (lead b : UInt8) : Bool :=
  if lead = 0xE0 then 0xA0 ≤ b && b ≤ 0xBF
  else if lead = 0xED then 0x80 ≤ b && b ≤ 0x9F
  else isTail b

/-- The second byte that may follow a lead byte of four. -/
def isSecondOfFour (lead b : UInt8) : Bool :=
  if lead = 0xF0 then 0x90 ≤ b && b ≤ 0xBF
  else if lead = 0xF4 then 0x80 ≤ b && b ≤ 0x8F
  else isTail b

/-- The six bits of a byte that continues a character. -/
def low6 (b : UInt8) : Nat := b.toNat % 64

/-- The first character and the bytes after it, or the length of the fault at the start. -/
def decodeChar : Bytes → Except (Option Nat) (Char × Bytes)
  | [] => .error none
  | a :: rest =>
    if a < 0x80 then .ok (Char.ofNat a.toNat, rest)
    else if 0xC2 ≤ a && a ≤ 0xDF then
      match rest with
      | [] => .error none
      | b :: rest =>
        if isTail b then .ok (Char.ofNat (a.toNat % 32 * 64 + low6 b), rest) else .error (some 1)
    else if 0xE0 ≤ a && a ≤ 0xEF then
      match rest with
      | [] => .error none
      | b :: rest =>
        if !isSecondOfThree a b then .error (some 1)
        else
          match rest with
          | [] => .error none
          | c :: rest =>
            if isTail c then
              .ok (Char.ofNat (a.toNat % 16 * 4096 + low6 b * 64 + low6 c), rest)
            else .error (some 2)
    else if 0xF0 ≤ a && a ≤ 0xF4 then
      match rest with
      | [] => .error none
      | b :: rest =>
        if !isSecondOfFour a b then .error (some 1)
        else
          match rest with
          | [] => .error none
          | c :: rest =>
            if !isTail c then .error (some 2)
            else
              match rest with
              | [] => .error none
              | d :: rest =>
                if isTail d then
                  .ok (Char.ofNat (a.toNat % 8 * 262144 + low6 b * 4096 + low6 c * 64 + low6 d), rest)
                else .error (some 3)
    else .error (some 1)

/-- Reads characters to the end; the first number bounds how many, the second is the offset. -/
def decodeFrom : Nat → Nat → Bytes → Except Fault (List Char)
  | _, _, [] => .ok []
  | 0, _, _ :: _ => .ok []
  | fuel + 1, offset, b :: bs =>
    match decodeChar (b :: bs) with
    | .error length => .error ⟨offset, length⟩
    | .ok (c, rest) => (decodeFrom fuel (offset + c.utf8Size) rest).map (c :: ·)

/-- The characters of bytes, or where they are no text. -/
def decodeChars (bs : Bytes) : Except Fault (List Char) := decodeFrom bs.length 0 bs

/-- The text that bytes spell, or where they spell none. -/
def decode (bs : Bytes) : Except Fault String := (decodeChars bs).map String.ofList

/-- The text that bytes spell, if they spell one. -/
def text? (bs : Bytes) : Option String := (decode bs).toOption

end Utf8

end TopicPublisher
