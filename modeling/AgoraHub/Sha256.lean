/-
# SHA-256

`hashlib.sha256(text.encode("utf-8")).hexdigest()`.  The models take the digest
function as a parameter; this is the one the program runs with.
-/
import AgoraHub.PyJson

namespace Sha256

/-- A 32-bit rotation to the right. -/
def rotr (x n : ℕ) : ℕ := (x >>> n) ||| ((x <<< (32 - n)) % 2 ^ 32)

/-- The initial hash value. -/
def initial : List ℕ :=
  [0x6a09e667, 0xbb67ae85, 0x3c6ef372, 0xa54ff53a, 0x510e527f, 0x9b05688c, 0x1f83d9ab, 0x5be0cd19]

/-- The round constants. -/
def constants : List ℕ :=
  [0x428a2f98, 0x71374491, 0xb5c0fbcf, 0xe9b5dba5, 0x3956c25b, 0x59f111f1, 0x923f82a4, 0xab1c5ed5,
    0xd807aa98, 0x12835b01, 0x243185be, 0x550c7dc3, 0x72be5d74, 0x80deb1fe, 0x9bdc06a7, 0xc19bf174,
    0xe49b69c1, 0xefbe4786, 0x0fc19dc6, 0x240ca1cc, 0x2de92c6f, 0x4a7484aa, 0x5cb0a9dc, 0x76f988da,
    0x983e5152, 0xa831c66d, 0xb00327c8, 0xbf597fc7, 0xc6e00bf3, 0xd5a79147, 0x06ca6351, 0x14292967,
    0x27b70a85, 0x2e1b2138, 0x4d2c6dfc, 0x53380d13, 0x650a7354, 0x766a0abb, 0x81c2c92e, 0x92722c85,
    0xa2bfe8a1, 0xa81a664b, 0xc24b8b70, 0xc76c51a3, 0xd192e819, 0xd6990624, 0xf40e3585, 0x106aa070,
    0x19a4c116, 0x1e376c08, 0x2748774c, 0x34b0bcb5, 0x391c0cb3, 0x4ed8aa4a, 0x5b9cca4f, 0x682e6ff3,
    0x748f82ee, 0x78a5636f, 0x84c87814, 0x8cc70208, 0x90befffa, 0xa4506ceb, 0xbef9a3f7, 0xc67178f2]

/-- A number in big-endian order from its digits. -/
def ofDigits (base : ℕ) (digits : List ℕ) : ℕ := digits.foldl (fun n d => n * base + d) 0

/-- The message with the `1` bit, the zeros and the 64-bit length after it. -/
def pad (message : List ℕ) : List ℕ :=
  let n := message.length
  message ++ [0x80] ++ List.replicate ((119 - n % 64) % 64) 0 ++
    (List.range 8).map fun i => 8 * n / 256 ^ (7 - i) % 256

/-- One more word of the message schedule, which is listed last word first. -/
def extend (w : List ℕ) : List ℕ :=
  let x := w.getD 14 0
  let y := w.getD 1 0
  let s0 := rotr x 7 ^^^ rotr x 18 ^^^ (x >>> 3)
  let s1 := rotr y 17 ^^^ rotr y 19 ^^^ (y >>> 10)
  (w.getD 15 0 + s0 + w.getD 6 0 + s1) % 2 ^ 32 :: w

/-- The 64 words of the message schedule of a block of 16. -/
def schedule (block : List ℕ) : List ℕ := (extend^[48] block.reverse).reverse

/-- One round: the working variables `a` to `h`, with a round constant and a word. -/
def round (v : List ℕ) (kw : ℕ × ℕ) : List ℕ :=
  match v with
  | [a, b, c, d, e, f, g, h] =>
    let s1 := rotr e 6 ^^^ rotr e 11 ^^^ rotr e 25
    let ch := (e &&& f) ^^^ ((2 ^ 32 - 1 - e) &&& g)
    let temp1 := h + s1 + ch + kw.1 + kw.2
    let s0 := rotr a 2 ^^^ rotr a 13 ^^^ rotr a 22
    let maj := (a &&& b) ^^^ (a &&& c) ^^^ (b &&& c)
    [(temp1 + s0 + maj) % 2 ^ 32, a, b, c, (d + temp1) % 2 ^ 32, e, f, g]
  | _ => v

/-- One block: the hash value after it. -/
def compress (hash block : List ℕ) : List ℕ :=
  let after := (constants.zip (schedule block)).foldl round hash
  (hash.zip after).map fun p => (p.1 + p.2) % 2 ^ 32

/-- The blocks of 16 words of a padded message, at most `n` of them. -/
def blocks : ℕ → List ℕ → List (List ℕ)
  | 0, _ => []
  | n + 1, bytes =>
    if bytes = [] then []
    else ((List.range 16).map fun i => ofDigits 256 ((bytes.drop (4 * i)).take 4)) ::
      blocks n (bytes.drop 64)

/-- The digest of a list of bytes, as a number of 256 bits. -/
def digest (message : List ℕ) : ℕ :=
  let padded := pad message
  ofDigits (2 ^ 32) ((blocks padded.length padded).foldl compress initial)

end Sha256

/-- `sha256(text.encode("utf-8")).hexdigest()`. -/
def sha256Hex (text : String) : HexDigest :=
  HexDigest.ofNat (Sha256.digest (text.toUTF8.toList.map UInt8.toNat))

example : Sha256.digest [97, 98, 99] =
    0xba7816bf8f01cfea414140de5dae2223b00361a396177a9cb410ff61f20015ad := by decide +kernel
