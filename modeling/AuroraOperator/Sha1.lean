/-
# SHA-1

`crypto/sha1`, over lists of bytes.  The operator uses it in one place only: a name that is
too long for a DNS label is cut and gets the first ten hexadecimal digits of the SHA-1 of
the untruncated name.  The digest is computed here as the standard has it, so that rendered
names are the names the operator renders.
-/
import AuroraOperator.Go

namespace AuroraOperator

namespace Sha1

def rotateLeft (x : UInt32) (n : UInt32) : UInt32 := (x <<< n) ||| (x >>> (32 - n))

/-- Big-endian bytes of a 64-bit length. -/
def lengthBytes (bits : Nat) : List UInt8 :=
  (List.range 8).map fun i => UInt8.ofNat (bits >>> (8 * (7 - i)))

/-- The message, a one bit, zeros up to 56 modulo 64, and the length in bits. -/
def pad (message : List UInt8) : List UInt8 :=
  let n := message.length
  message ++ 0x80 :: List.replicate ((119 - n % 64) % 64) 0 ++ lengthBytes (8 * n)

/-- Big-endian words; a last incomplete word is dropped. -/
def words : List UInt8 → List UInt32
  | a :: b :: c :: d :: rest =>
    (a.toUInt32 <<< 24 ||| b.toUInt32 <<< 16 ||| c.toUInt32 <<< 8 ||| d.toUInt32) :: words rest
  | _ => []

/-- Blocks of sixteen words. -/
def blocks : List UInt32 → List (List UInt32)
  | w0 :: w1 :: w2 :: w3 :: w4 :: w5 :: w6 :: w7 :: w8 :: w9 :: w10 :: w11 :: w12 :: w13 ::
      w14 :: w15 :: rest =>
    [w0, w1, w2, w3, w4, w5, w6, w7, w8, w9, w10, w11, w12, w13, w14, w15] :: blocks rest
  | _ => []

/-- The message schedule, kept newest first: each new word mixes the words 3, 8, 14 and 16
places back. -/
def schedule : Nat → List UInt32 → List UInt32
  | 0, newest => newest
  | n + 1, newest =>
    let w := newest.getD 2 0 ^^^ newest.getD 7 0 ^^^ newest.getD 13 0 ^^^ newest.getD 15 0
    schedule n (rotateLeft w 1 :: newest)

structure State where
  a : UInt32
  b : UInt32
  c : UInt32
  d : UInt32
  e : UInt32

def initial : State := ⟨0x67452301, 0xEFCDAB89, 0x98BADCFE, 0x10325476, 0xC3D2E1F0⟩

/-- One of the eighty rounds. -/
def round (t : Nat) (w : UInt32) (s : State) : State :=
  let fk : UInt32 × UInt32 :=
    if t < 20 then ((s.b &&& s.c) ||| (~~~s.b &&& s.d), 0x5A827999)
    else if t < 40 then (s.b ^^^ s.c ^^^ s.d, 0x6ED9EBA1)
    else if t < 60 then ((s.b &&& s.c) ||| (s.b &&& s.d) ||| (s.c &&& s.d), 0x8F1BBCDC)
    else (s.b ^^^ s.c ^^^ s.d, 0xCA62C1D6)
  ⟨rotateLeft s.a 5 + fk.1 + s.e + fk.2 + w, s.a, rotateLeft s.b 30, s.c, s.d⟩

def rounds : Nat → List UInt32 → State → State
  | _, [], s => s
  | t, w :: ws, s => rounds (t + 1) ws (round t w s)

def compress (s : State) (block : List UInt32) : State :=
  let r := rounds 0 (schedule 64 block.reverse).reverse s
  ⟨s.a + r.a, s.b + r.b, s.c + r.c, s.d + r.d, s.e + r.e⟩

/-- The eight hexadecimal digits of a word. -/
def hexWord (w : UInt32) : List Char :=
  (List.range 8).map fun i => Nat.digitChar ((w.toNat >>> (4 * (7 - i))) % 16)

end Sha1

/-- `hex.EncodeToString` of `sha1.Sum`. -/
def sha1Hex (s : String) : List Char :=
  let r := (Sha1.blocks (Sha1.words (Sha1.pad s.toUTF8.data.toList))).foldl Sha1.compress
    Sha1.initial
  Sha1.hexWord r.a ++ Sha1.hexWord r.b ++ Sha1.hexWord r.c ++ Sha1.hexWord r.d ++ Sha1.hexWord r.e

/-- The digest has forty characters, whatever was hashed. -/
theorem length_sha1Hex (s : String) : (sha1Hex s).length = 40 := by
  simp [sha1Hex, Sha1.hexWord]

/-- It has hexadecimal digits only. -/
theorem mem_sha1Hex {s : String} {c : Char} (h : c ∈ sha1Hex s) : ∃ n < 16, c = Nat.digitChar n := by
  have hword : ∀ w, c ∈ Sha1.hexWord w → ∃ n < 16, c = Nat.digitChar n := by
    intro w hc
    obtain ⟨i, -, rfl⟩ := List.mem_map.mp hc
    exact ⟨_, Nat.mod_lt _ (by decide), rfl⟩
  simp only [sha1Hex, List.mem_append] at h
  rcases h with (((h | h) | h) | h) | h <;> exact hword _ h

end AuroraOperator
