/-
SHA-256 of a text, as `hashlib.sha256(text.encode()).hexdigest()`, and the HMAC over it.

Words are natural numbers below 2^32.  The message is a list of bytes, padded to whole
blocks; a block is expanded to a schedule of 64 words, and the rounds run over the
schedule paired with the round constants.
-/
import YtmExecutor.Python.Text

namespace Python

namespace Sha256

/-- Addition of words. -/
def wordAdd (a b : ℕ) : ℕ := (a + b) % 2 ^ 32

def rotr (n x : ℕ) : ℕ := (x >>> n) ||| ((x <<< (32 - n)) % 2 ^ 32)

def complement (x : ℕ) : ℕ := x ^^^ (2 ^ 32 - 1)

def choose (x y z : ℕ) : ℕ := (x &&& y) ^^^ (complement x &&& z)

def majority (x y z : ℕ) : ℕ := (x &&& y) ^^^ (x &&& z) ^^^ (y &&& z)

def bigSigma0 (x : ℕ) : ℕ := rotr 2 x ^^^ rotr 13 x ^^^ rotr 22 x

def bigSigma1 (x : ℕ) : ℕ := rotr 6 x ^^^ rotr 11 x ^^^ rotr 25 x

def smallSigma0 (x : ℕ) : ℕ := rotr 7 x ^^^ rotr 18 x ^^^ (x >>> 3)

def smallSigma1 (x : ℕ) : ℕ := rotr 17 x ^^^ rotr 19 x ^^^ (x >>> 10)

def roundConstants : List ℕ :=
  [0x428a2f98, 0x71374491, 0xb5c0fbcf, 0xe9b5dba5, 0x3956c25b, 0x59f111f1, 0x923f82a4, 0xab1c5ed5,
    0xd807aa98, 0x12835b01, 0x243185be, 0x550c7dc3, 0x72be5d74, 0x80deb1fe, 0x9bdc06a7, 0xc19bf174,
    0xe49b69c1, 0xefbe4786, 0x0fc19dc6, 0x240ca1cc, 0x2de92c6f, 0x4a7484aa, 0x5cb0a9dc, 0x76f988da,
    0x983e5152, 0xa831c66d, 0xb00327c8, 0xbf597fc7, 0xc6e00bf3, 0xd5a79147, 0x06ca6351, 0x14292967,
    0x27b70a85, 0x2e1b2138, 0x4d2c6dfc, 0x53380d13, 0x650a7354, 0x766a0abb, 0x81c2c92e, 0x92722c85,
    0xa2bfe8a1, 0xa81a664b, 0xc24b8b70, 0xc76c51a3, 0xd192e819, 0xd6990624, 0xf40e3585, 0x106aa070,
    0x19a4c116, 0x1e376c08, 0x2748774c, 0x34b0bcb5, 0x391c0cb3, 0x4ed8aa4a, 0x5b9cca4f, 0x682e6ff3,
    0x748f82ee, 0x78a5636f, 0x84c87814, 0x8cc70208, 0x90befffa, 0xa4506ceb, 0xbef9a3f7, 0xc67178f2]

structure State where
  (a b c d e f g h : ℕ)

def initial : State :=
  ⟨0x6a09e667, 0xbb67ae85, 0x3c6ef372, 0xa54ff53a, 0x510e527f, 0x9b05688c, 0x1f83d9ab, 0x5be0cd19⟩

def round (s : State) (constantAndWord : ℕ × ℕ) : State :=
  let t1 := wordAdd (wordAdd (wordAdd s.h (bigSigma1 s.e)) (choose s.e s.f s.g))
    (wordAdd constantAndWord.1 constantAndWord.2)
  let t2 := wordAdd (bigSigma0 s.a) (majority s.a s.b s.c)
  ⟨wordAdd t1 t2, s.a, s.b, s.c, wordAdd s.d t1, s.e, s.f, s.g⟩

/-- Extend a schedule, held latest word first, by `n` words. -/
def extend : ℕ → List ℕ → List ℕ
  | 0, ws => ws
  | n + 1, ws =>
      let at' := fun i => ws.getD (i - 1) 0
      extend n (wordAdd (wordAdd (smallSigma1 (at' 2)) (at' 7))
        (wordAdd (smallSigma0 (at' 15)) (at' 16)) :: ws)

def compress (s : State) (block : List ℕ) : State :=
  let schedule := (extend 48 block.reverse).reverse
  let r := (roundConstants.zip schedule).foldl round s
  ⟨wordAdd s.a r.a, wordAdd s.b r.b, wordAdd s.c r.c, wordAdd s.d r.d,
    wordAdd s.e r.e, wordAdd s.f r.f, wordAdd s.g r.g, wordAdd s.h r.h⟩

/-- `n` in `width` bytes, most significant first. -/
def bigEndian : ℕ → ℕ → List ℕ
  | 0, _ => []
  | width + 1, n => bigEndian width (n / 256) ++ [n % 256]

/-- A one bit, zeros, and the length in bits, to a whole number of blocks. -/
def pad (bytes : List ℕ) : List ℕ :=
  bytes ++ [128] ++ List.replicate ((119 - bytes.length % 64) % 64) 0
    ++ bigEndian 8 (8 * bytes.length)

/-- Four bytes a word. -/
def words : List ℕ → List ℕ
  | b0 :: b1 :: b2 :: b3 :: rest =>
      (((b0 * 256 + b1) * 256 + b2) * 256 + b3) :: words rest
  | _ => []

/-- Compress `n` blocks of sixteen words. -/
def compressBlocks : ℕ → State → List ℕ → State
  | 0, s, _ => s
  | n + 1, s, ws => compressBlocks n (compress s (ws.take 16)) (ws.drop 16)

def digest (bytes : List ℕ) : List ℕ :=
  let ws := words (pad bytes)
  let s := compressBlocks (ws.length / 16) initial ws
  [s.a, s.b, s.c, s.d, s.e, s.f, s.g, s.h]

end Sha256

/-- The UTF-8 encoding of one character. -/
def utf8Bytes (c : Char) : List ℕ :=
  let n := c.toNat
  if n < 128 then [n]
  else if n < 2048 then [192 + n / 64, 128 + n % 64]
  else if n < 65536 then [224 + n / 4096, 128 + n / 64 % 64, 128 + n % 64]
  else [240 + n / 262144, 128 + n / 4096 % 64, 128 + n / 64 % 64, 128 + n % 64]

/-- `hashlib.sha256(text.encode()).hexdigest()`. -/
def sha256Hex (text : String) : String :=
  String.ofList ((Sha256.digest (text.toList.flatMap utf8Bytes)).flatMap (hexDigits 8))

/-- `hmac.new(key.encode(), message.encode(), hashlib.sha256).hexdigest()`. -/
def hmacSha256Hex (key message : String) : String :=
  let keyBytes := key.toList.flatMap utf8Bytes
  let short := if 64 < keyBytes.length then
      (Sha256.digest keyBytes).flatMap (Sha256.bigEndian 4)
    else keyBytes
  let block := short ++ List.replicate (64 - short.length) 0
  let inner := Sha256.digest (block.map (· ^^^ 0x36) ++ message.toList.flatMap utf8Bytes)
  let outer := Sha256.digest (block.map (· ^^^ 0x5c) ++ inner.flatMap (Sha256.bigEndian 4))
  String.ofList (outer.flatMap (hexDigits 8))

end Python
