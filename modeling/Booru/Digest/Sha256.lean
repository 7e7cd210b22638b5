/-! The digest SHA-256. -/

namespace Booru.Digest

abbrev Word := UInt32

def rotate (x : Word) (n : Word) : Word := (x >>> n) ||| (x <<< (32 - n))

/-- The first 32 bits of the fractions of the cube roots of the first 64 primes. -/
def roundConstants : List Word :=
  [0x428a2f98, 0x71374491, 0xb5c0fbcf, 0xe9b5dba5, 0x3956c25b, 0x59f111f1, 0x923f82a4, 0xab1c5ed5,
   0xd807aa98, 0x12835b01, 0x243185be, 0x550c7dc3, 0x72be5d74, 0x80deb1fe, 0x9bdc06a7, 0xc19bf174,
   0xe49b69c1, 0xefbe4786, 0x0fc19dc6, 0x240ca1cc, 0x2de92c6f, 0x4a7484aa, 0x5cb0a9dc, 0x76f988da,
   0x983e5152, 0xa831c66d, 0xb00327c8, 0xbf597fc7, 0xc6e00bf3, 0xd5a79147, 0x06ca6351, 0x14292967,
   0x27b70a85, 0x2e1b2138, 0x4d2c6dfc, 0x53380d13, 0x650a7354, 0x766a0abb, 0x81c2c92e, 0x92722c85,
   0xa2bfe8a1, 0xa81a664b, 0xc24b8b70, 0xc76c51a3, 0xd192e819, 0xd6990624, 0xf40e3585, 0x106aa070,
   0x19a4c116, 0x1e376c08, 0x2748774c, 0x34b0bcb5, 0x391c0cb3, 0x4ed8aa4a, 0x5b9cca4f, 0x682e6ff3,
   0x748f82ee, 0x78a5636f, 0x84c87814, 0x8cc70208, 0x90befffa, 0xa4506ceb, 0xbef9a3f7, 0xc67178f2]

/-- The first 32 bits of the fractions of the square roots of the first eight primes. -/
def initialState : List Word :=
  [0x6a09e667, 0xbb67ae85, 0x3c6ef372, 0xa54ff53a, 0x510e527f, 0x9b05688c, 0x1f83d9ab, 0x5be0cd19]

def bigEndian (n : Nat) : Nat → List UInt8
  | 0 => []
  | k + 1 => UInt8.ofNat (n / Nat.pow 256 k) :: bigEndian n k

def padded (message : List UInt8) : List UInt8 :=
  let zeros := (119 - message.length % 64) % 64
  message ++ 0x80 :: List.replicate zeros 0 ++ bigEndian (8 * message.length) 8

def wordsOf : List UInt8 → List Word
  | a :: b :: c :: d :: rest =>
    ((a.toUInt32 <<< 24) ||| (b.toUInt32 <<< 16) ||| (c.toUInt32 <<< 8) ||| d.toUInt32) ::
      wordsOf rest
  | _ => []

/-- One more word of the schedule. The words so far come last first. -/
def scheduled (ws : List Word) : List Word :=
  match ws[1]?, ws[6]?, ws[14]?, ws[15]? with
  | some w2, some w7, some w15, some w16 =>
    let s0 := rotate w15 7 ^^^ rotate w15 18 ^^^ (w15 >>> 3)
    let s1 := rotate w2 17 ^^^ rotate w2 19 ^^^ (w2 >>> 10)
    (w16 + s0 + w7 + s1) :: ws
  | _, _, _, _ => ws

def schedule (block : List Word) : List Word :=
  ((List.range 48).foldl (fun ws _ => scheduled ws) block.reverse).reverse

def round (state : List Word) (kw : Word × Word) : List Word :=
  match state with
  | [a, b, c, d, e, f, g, h] =>
    let s1 := rotate e 6 ^^^ rotate e 11 ^^^ rotate e 25
    let choice := (e &&& f) ^^^ ((~~~e) &&& g)
    let t1 := h + s1 + choice + kw.1 + kw.2
    let s0 := rotate a 2 ^^^ rotate a 13 ^^^ rotate a 22
    let majority := (a &&& b) ^^^ (a &&& c) ^^^ (b &&& c)
    [t1 + s0 + majority, a, b, c, d + t1, e, f, g]
  | other => other

def compress (state block : List Word) : List Word :=
  List.zipWith (· + ·) state ((roundConstants.zip (schedule block)).foldl round state)

def blocks (ws : List Word) : List (List Word) :=
  if _h : ws.length < 16 then [] else ws.take 16 :: blocks (ws.drop 16)
termination_by ws.length
decreasing_by simp; omega

def hexText (bytes : List UInt8) : String :=
  String.ofList (bytes.flatMap fun b =>
    [Nat.digitChar (b.toNat / 16), Nat.digitChar (b.toNat % 16)])

def sha256 (message : List UInt8) : String :=
  hexText (((blocks (wordsOf (padded message))).foldl compress initialState).flatMap fun w =>
    bigEndian w.toNat 4)

end Booru.Digest
