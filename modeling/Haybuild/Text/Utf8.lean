import Haybuild.Text.Basic

/-!
# UTF-8

`encode` writes a text as bytes. `decode` reads bytes back and reports the first sequence that is
not well formed, by its place, its length and what is wrong with it; `decodeLossy` puts the
replacement character in place of each such sequence.
-/

namespace Haybuild

/-- The content of a file or the output of a command. -/
abbrev Bytes := List UInt8

namespace Utf8

/-- The bytes of one character. -/
def encodeChar (c : Char) : Bytes :=
  let n := c.toNat
  if n < 0x80 then [UInt8.ofNat n]
  else if n < 0x800 then [UInt8.ofNat (0xC0 + n / 64), UInt8.ofNat (0x80 + n % 64)]
  else if n < 0x10000 then
    [UInt8.ofNat (0xE0 + n / 4096), UInt8.ofNat (0x80 + n / 64 % 64), UInt8.ofNat (0x80 + n % 64)]
  else
    [UInt8.ofNat (0xF0 + n / 262144), UInt8.ofNat (0x80 + n / 4096 % 64),
      UInt8.ofNat (0x80 + n / 64 % 64), UInt8.ofNat (0x80 + n % 64)]

/-- The bytes of a text. -/
def encode (t : Text) : Bytes :=
  t.flatMap encodeChar

/-- What is wrong with a byte sequence. -/
inductive Flaw where
  /-- No character starts with this byte. -/
  | startByte
  /-- A byte stands where the character begun before it needs another kind of byte. -/
  | continuationByte
  /-- The bytes end inside a character. -/
  | endOfData
  deriving Repr, DecidableEq

/-- What stands at the front of a byte sequence. -/
inductive Front where
  /-- A character that takes `more` bytes after the first. -/
  | char (c : Char) (more : Nat)
  /-- A sequence of `length` bytes that belongs to no character. -/
  | flaw (length : Nat) (flaw : Flaw)

/-- Reads the continuation bytes of a character of which `got` bytes are read and make `value`. The
next byte must lie between `low` and `high`. -/
def readTail (value got low high : Nat) : Nat → Bytes → Front
  | 0, _ => .char (Char.ofNat value) (got - 1)
  | _ + 1, [] => .flaw got .endOfData
  | more + 1, b :: r =>
    if low ≤ b.toNat && b.toNat ≤ high then
      readTail (64 * value + (b.toNat - 0x80)) (got + 1) 0x80 0xBF more r
    else .flaw got .continuationByte

/-- What a nonempty byte sequence starts with. The bounds on the second byte keep out overlong
forms, surrogates and numbers past the last code point. -/
def front (b : UInt8) (r : Bytes) : Front :=
  let n := b.toNat
  if n < 0x80 then .char (Char.ofNat n) 0
  else if n < 0xC2 then .flaw 1 .startByte
  else if n < 0xE0 then readTail (n - 0xC0) 1 0x80 0xBF 1 r
  else if n < 0xF0 then
    readTail (n - 0xE0) 1 (if n = 0xE0 then 0xA0 else 0x80) (if n = 0xED then 0x9F else 0xBF) 2 r
  else if n < 0xF5 then
    readTail (n - 0xF0) 1 (if n = 0xF0 then 0x90 else 0x80) (if n = 0xF4 then 0x8F else 0xBF) 3 r
  else .flaw 1 .startByte

/-- The first sequence of `length` bytes, starting with `byte` at `offset`, that is not UTF-8. -/
structure Fault where
  byte : UInt8
  offset : Nat
  length : Nat
  flaw : Flaw
  deriving Repr, DecidableEq

/-- Reads the bytes from `offset` on, after passing over `skip` bytes of a character already
read. -/
def decodeFrom : Nat → Nat → Bytes → Except Fault Text
  | _, _, [] => .ok []
  | skip + 1, offset, _ :: r => decodeFrom skip (offset + 1) r
  | 0, offset, b :: r =>
    match front b r with
    | .char c more =>
      match decodeFrom more (offset + 1) r with
      | .ok t => .ok (c :: t)
      | .error e => .error e
    | .flaw length flaw => .error ⟨b, offset, length, flaw⟩

/-- The text that bytes stand for. -/
def decode (bytes : Bytes) : Except Fault Text :=
  decodeFrom 0 0 bytes

/-- Reads bytes with replacement characters, after passing over `skip` bytes already read. -/
def decodeLossyFrom : Nat → Bytes → Text
  | _, [] => []
  | skip + 1, _ :: r => decodeLossyFrom skip r
  | 0, b :: r =>
    match front b r with
    | .char c more => c :: decodeLossyFrom more r
    | .flaw length _ => Char.ofNat 0xFFFD :: decodeLossyFrom (length - 1) r

/-- The text of bytes in which each flawed sequence stands for one replacement character. -/
def decodeLossy (bytes : Bytes) : Text :=
  decodeLossyFrom 0 bytes

end Utf8

end Haybuild
