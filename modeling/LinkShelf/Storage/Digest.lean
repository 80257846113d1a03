import LinkShelf.Text.Quoted

/-!
The 160-bit secure hash of a text, in hexadecimal digits. Records are filed under the hash of their
keys.
-/

namespace LinkShelf.Digest

/-- The five words of the state of the hash. -/
structure State where
  a : UInt32
  b : UInt32
  c : UInt32
  d : UInt32
  e : UInt32
  deriving DecidableEq, Repr

def State.initial : State := ⟨0x67452301, 0xEFCDAB89, 0x98BADCFE, 0x10325476, 0xC3D2E1F0⟩

def rotateLeft (x n : UInt32) : UInt32 := (x <<< n) ||| (x >>> (32 - n))

/-- The bytes of a number, the most significant first. -/
def bigEndian (n : Nat) : Nat → List UInt8
  | 0 => []
  | count + 1 => UInt8.ofNat (n / Nat.pow 256 count) :: bigEndian n count

/-- The message followed by a one bit, zero bits up to a whole block, and its length. -/
def padded (message : List UInt8) : List UInt8 :=
  let zeros := (119 - message.length % 64) % 64
  message ++ 0x80 :: List.replicate zeros 0 ++ bigEndian (8 * message.length) 8

/-- The words of a block, four bytes each. -/
def wordsOf : List UInt8 → List UInt32
  | a :: b :: c :: d :: rest =>
    ((a.toUInt32 <<< 24) ||| (b.toUInt32 <<< 16) ||| (c.toUInt32 <<< 8) ||| d.toUInt32) ::
      wordsOf rest
  | _ => []

/-- The words of the message schedule after the last ones, which are given the last one first. -/
def schedule (recent : List UInt32) : Nat → List UInt32
  | 0 => []
  | count + 1 =>
    let word (i : Nat) : UInt32 := recent[i]?.getD 0
    let w := rotateLeft (word 2 ^^^ word 7 ^^^ word 13 ^^^ word 15) 1
    w :: schedule (w :: recent.take 15) count

/-- The function and the constant of a round. -/
def roundParts (i : Nat) (s : State) : UInt32 × UInt32 :=
  if i < 20 then ((s.b &&& s.c) ||| (~~~s.b &&& s.d), 0x5A827999)
  else if i < 40 then (s.b ^^^ s.c ^^^ s.d, 0x6ED9EBA1)
  else if i < 60 then ((s.b &&& s.c) ||| (s.b &&& s.d) ||| (s.c &&& s.d), 0x8F1BBCDC)
  else (s.b ^^^ s.c ^^^ s.d, 0xCA62C1D6)

/-- The state after the rounds from the `i`-th on. -/
def rounds (i : Nat) (s : State) : List UInt32 → State
  | [] => s
  | w :: rest =>
    let (f, k) := roundParts i s
    rounds (i + 1) ⟨rotateLeft s.a 5 + f + s.e + k + w, s.a, rotateLeft s.b 30, s.c, s.d⟩ rest

/-- The state after a block. -/
def absorb (s : State) (block : List UInt8) : State :=
  let words := wordsOf block
  let t := rounds 0 s (words ++ schedule words.reverse 64)
  ⟨s.a + t.a, s.b + t.b, s.c + t.c, s.d + t.d, s.e + t.e⟩

/-- The state after some blocks. -/
def absorbAll (s : State) (message : List UInt8) : Nat → State
  | 0 => s
  | blocks + 1 => absorbAll (absorb s (message.take 64)) (message.drop 64) blocks

/-- The hash of a message as forty hexadecimal digits. -/
def ofBytes (message : List UInt8) : List Char :=
  let bytes := padded message
  let s := absorbAll .initial bytes (bytes.length / 64)
  [s.a, s.b, s.c, s.d, s.e].flatMap fun w => Text.hexPadded 8 w.toNat

/-- The hash of a text. -/
def ofText (s : String) : String := String.ofList (ofBytes s.toUTF8.toList)

end LinkShelf.Digest
