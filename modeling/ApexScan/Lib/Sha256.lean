import Mathlib.Data.List.Basic
import Mathlib.Data.Nat.Bitwise

/-!
# SHA-256

The digest of a list of bytes, as `hashlib.sha256(...).hexdigest()` gives it.  Words are naturals
below `2 ^ 32`, and a message is a list of bytes.

* `padding`, `toWords`, `schedule`, `compress` — the stages.
* `hexdigest` — the digest in lower-case hexadecimal; `length_hexdigest`.
-/

set_option autoImplicit false

namespace ApexScan.Lib.Sha256

/-- Words are taken modulo `2 ^ 32`. -/
def modulus : ℕ := 4294967296

def rotateRight (n x : ℕ) : ℕ := (x >>> n) ||| ((x <<< (32 - n)) % modulus)

/-- Three rotations, or two and a shift, combined. -/
def bigSigma (i j k x : ℕ) : ℕ := rotateRight i x ^^^ rotateRight j x ^^^ rotateRight k x

def smallSigma (i j k x : ℕ) : ℕ := rotateRight i x ^^^ rotateRight j x ^^^ (x >>> k)

def choose (e f g : ℕ) : ℕ := (e &&& f) ^^^ ((modulus - 1 - e) &&& g)

def majority (a b c : ℕ) : ℕ := (a &&& b) ^^^ (a &&& c) ^^^ (b &&& c)

/-- The round constants. -/
def constants : List ℕ :=
  [0x428a2f98, 0x71374491, 0xb5c0fbcf, 0xe9b5dba5, 0x3956c25b, 0x59f111f1, 0x923f82a4, 0xab1c5ed5,
    0xd807aa98, 0x12835b01, 0x243185be, 0x550c7dc3, 0x72be5d74, 0x80deb1fe, 0x9bdc06a7, 0xc19bf174,
    0xe49b69c1, 0xefbe4786, 0x0fc19dc6, 0x240ca1cc, 0x2de92c6f, 0x4a7484aa, 0x5cb0a9dc, 0x76f988da,
    0x983e5152, 0xa831c66d, 0xb00327c8, 0xbf597fc7, 0xc6e00bf3, 0xd5a79147, 0x06ca6351, 0x14292967,
    0x27b70a85, 0x2e1b2138, 0x4d2c6dfc, 0x53380d13, 0x650a7354, 0x766a0abb, 0x81c2c92e, 0x92722c85,
    0xa2bfe8a1, 0xa81a664b, 0xc24b8b70, 0xc76c51a3, 0xd192e819, 0xd6990624, 0xf40e3585, 0x106aa070,
    0x19a4c116, 0x1e376c08, 0x2748774c, 0x34b0bcb5, 0x391c0cb3, 0x4ed8aa4a, 0x5b9cca4f, 0x682e6ff3,
    0x748f82ee, 0x78a5636f, 0x84c87814, 0x8cc70208, 0x90befffa, 0xa4506ceb, 0xbef9a3f7, 0xc67178f2]

/-- The eight working variables. -/
structure Working where
  a : ℕ
  b : ℕ
  c : ℕ
  d : ℕ
  e : ℕ
  f : ℕ
  g : ℕ
  h : ℕ

def initial : Working :=
  ⟨0x6a09e667, 0xbb67ae85, 0x3c6ef372, 0xa54ff53a, 0x510e527f, 0x9b05688c, 0x1f83d9ab, 0x5be0cd19⟩

/-- `n` more words of the schedule, whose words so far are given the last one first. -/
def extendSchedule : ℕ → List ℕ → List ℕ
  | 0, reversed => reversed.reverse
  | n + 1, reversed =>
    let next := (smallSigma 17 19 10 (reversed.getD 1 0) + reversed.getD 6 0 +
      smallSigma 7 18 3 (reversed.getD 14 0) + reversed.getD 15 0) % modulus
    extendSchedule n (next :: reversed)

/-- The 64 words of a block of 16. -/
def schedule (block : List ℕ) : List ℕ := extendSchedule 48 block.reverse

/-- One round, for a constant and a word of the schedule. -/
def round (w : Working) (kw : ℕ × ℕ) : Working :=
  let t₁ := w.h + bigSigma 6 11 25 w.e + choose w.e w.f w.g + kw.1 + kw.2
  let t₂ := bigSigma 2 13 22 w.a + majority w.a w.b w.c
  ⟨(t₁ + t₂) % modulus, w.a, w.b, w.c, (w.d + t₁) % modulus, w.e, w.f, w.g⟩

/-- The state after one block. -/
def compress (s : Working) (block : List ℕ) : Working :=
  let w := (constants.zip (schedule block)).foldl round s
  ⟨(s.a + w.a) % modulus, (s.b + w.b) % modulus, (s.c + w.c) % modulus, (s.d + w.d) % modulus,
    (s.e + w.e) % modulus, (s.f + w.f) % modulus, (s.g + w.g) % modulus, (s.h + w.h) % modulus⟩

/-- `n` in `width` big-endian bytes. -/
def bigEndian : ℕ → ℕ → List ℕ
  | 0, _ => []
  | width + 1, n => (n >>> (8 * width)) % 256 :: bigEndian width n

/-- The message with its padding, a multiple of 64 bytes. -/
def padding (message : List ℕ) : List ℕ :=
  let zeros := (119 - message.length % 64) % 64
  message ++ 0x80 :: List.replicate zeros 0 ++ bigEndian 8 (8 * message.length)

def toWords : List ℕ → List ℕ
  | a :: b :: c :: d :: rest => (a * 16777216 + b * 65536 + c * 256 + d) :: toWords rest
  | _ => []

/-- The state after the first `n` blocks of a list of words. -/
def compressAll : ℕ → Working → List ℕ → Working
  | 0, s, _ => s
  | n + 1, s, words => compressAll n (compress s (words.take 16)) (words.drop 16)

def hexDigit (n : ℕ) : Char := if n < 10 then Char.ofNat (48 + n) else Char.ofNat (87 + n)

/-- `sha256(message).hexdigest()`. -/
def hexdigest (message : List ℕ) : String :=
  let words := toWords (padding message)
  let s := compressAll (words.length / 16) initial words
  let bytes := [s.a, s.b, s.c, s.d, s.e, s.f, s.g, s.h].flatMap (bigEndian 4)
  String.ofList (bytes.flatMap fun byte => [hexDigit (byte / 16), hexDigit (byte % 16)])

theorem length_bigEndian (width n : ℕ) : (bigEndian width n).length = width := by
  induction width with
  | zero => rfl
  | succ width ih => rw [bigEndian, List.length_cons, ih]

/-- A digest has 64 digits. -/
theorem length_hexdigest (message : List ℕ) : (hexdigest message).length = 64 := by
  have hhex (bytes : List ℕ) : (bytes.flatMap fun byte =>
      [hexDigit (byte / 16), hexDigit (byte % 16)]).length = 2 * bytes.length := by
    induction bytes with
    | nil => rfl
    | cons byte bytes ih =>
      rw [List.flatMap_cons, List.length_append, ih, List.length_cons]
      simp only [List.length_cons, List.length_nil]
      omega
  unfold hexdigest
  rw [String.length_ofList, hhex]
  simp only [List.flatMap_cons, List.flatMap_nil, List.append_nil, List.length_append,
    length_bigEndian]

example : hexdigest [0x61, 0x62, 0x63] =
    "ba7816bf8f01cfea414140de5dae2223b00361a396177a9cb410ff61f20015ad" := by
  decide +kernel

end ApexScan.Lib.Sha256
