import ShellChain.Library.ByteCodec

/-!
# SHA-256

The concrete hash function, on natural numbers reduced to 32 bits. Results about
roots take the hash function as a parameter; this one is what they are
instantiated with. Words go through the named operations of `Nat`, which the
kernel evaluates directly.
-/

namespace Sha256

open ByteCodec

/-! ## Words -/

def word (n : Nat) : Nat := Nat.mod n 4294967296

def rotr (x n : Nat) : Nat := Nat.lor (Nat.shiftRight x n) (word (Nat.shiftLeft x (Nat.sub 32 n)))

def xor3 (x y z : Nat) : Nat := Nat.xor (Nat.xor x y) z

def bigSigma0 (x : Nat) : Nat := xor3 (rotr x 2) (rotr x 13) (rotr x 22)
def bigSigma1 (x : Nat) : Nat := xor3 (rotr x 6) (rotr x 11) (rotr x 25)
def smallSigma0 (x : Nat) : Nat := xor3 (rotr x 7) (rotr x 18) (Nat.shiftRight x 3)
def smallSigma1 (x : Nat) : Nat := xor3 (rotr x 17) (rotr x 19) (Nat.shiftRight x 10)

def ch (x y z : Nat) : Nat := Nat.xor (Nat.land x y) (Nat.land (Nat.xor 4294967295 x) z)
def maj (x y z : Nat) : Nat := xor3 (Nat.land x y) (Nat.land x z) (Nat.land y z)

def roundConstants : List Nat :=
  [0x428a2f98, 0x71374491, 0xb5c0fbcf, 0xe9b5dba5, 0x3956c25b, 0x59f111f1, 0x923f82a4, 0xab1c5ed5,
   0xd807aa98, 0x12835b01, 0x243185be, 0x550c7dc3, 0x72be5d74, 0x80deb1fe, 0x9bdc06a7, 0xc19bf174,
   0xe49b69c1, 0xefbe4786, 0x0fc19dc6, 0x240ca1cc, 0x2de92c6f, 0x4a7484aa, 0x5cb0a9dc, 0x76f988da,
   0x983e5152, 0xa831c66d, 0xb00327c8, 0xbf597fc7, 0xc6e00bf3, 0xd5a79147, 0x06ca6351, 0x14292967,
   0x27b70a85, 0x2e1b2138, 0x4d2c6dfc, 0x53380d13, 0x650a7354, 0x766a0abb, 0x81c2c92e, 0x92722c85,
   0xa2bfe8a1, 0xa81a664b, 0xc24b8b70, 0xc76c51a3, 0xd192e819, 0xd6990624, 0xf40e3585, 0x106aa070,
   0x19a4c116, 0x1e376c08, 0x2748774c, 0x34b0bcb5, 0x391c0cb3, 0x4ed8aa4a, 0x5b9cca4f, 0x682e6ff3,
   0x748f82ee, 0x78a5636f, 0x84c87814, 0x8cc70208, 0x90befffa, 0xa4506ceb, 0xbef9a3f7, 0xc67178f2]

/-! ## Compression -/

structure State where
  a : Nat
  b : Nat
  c : Nat
  d : Nat
  e : Nat
  f : Nat
  g : Nat
  h : Nat

def initial : State :=
  ⟨0x6a09e667, 0xbb67ae85, 0x3c6ef372, 0xa54ff53a, 0x510e527f, 0x9b05688c, 0x1f83d9ab, 0x5be0cd19⟩

def round (k w : Nat) : State → State
  | ⟨a, b, c, d, e, f, g, h⟩ =>
    let t1 := Nat.add (Nat.add (Nat.add (Nat.add h (bigSigma1 e)) (ch e f g)) k) w
    let t2 := Nat.add (bigSigma0 a) (maj a b c)
    ⟨word (Nat.add t1 t2), a, b, c, word (Nat.add d t1), e, f, g⟩

/-- One round for each constant; the window holds the next sixteen schedule words. -/
def rounds : List Nat → List Nat → State → State
  | k :: ks, [w0, w1, w2, w3, w4, w5, w6, w7, w8, w9, w10, w11, w12, w13, w14, w15], s =>
    let w16 := word (Nat.add (Nat.add (Nat.add w0 (smallSigma0 w1)) w9) (smallSigma1 w14))
    rounds ks [w1, w2, w3, w4, w5, w6, w7, w8, w9, w10, w11, w12, w13, w14, w15, w16]
      (round k w0 s)
  | _, _, s => s

def compress (s : State) (block : List Nat) : State :=
  let r := rounds roundConstants block s
  ⟨word (s.a + r.a), word (s.b + r.b), word (s.c + r.c), word (s.d + r.d),
    word (s.e + r.e), word (s.f + r.f), word (s.g + r.g), word (s.h + r.h)⟩

/-! ## Messages -/

def beWords : List UInt8 → List Nat
  | a :: b :: c :: d :: rest =>
    (a.toNat * 16777216 + b.toNat * 65536 + c.toNat * 256 + d.toNat) :: beWords rest
  | _ => []

/-- A one bit, zeros up to the last eight bytes of a block, and the length in bits. -/
def padding (n : Nat) : List UInt8 :=
  0x80 :: List.replicate ((119 - n % 64) % 64) 0 ++ beBytes 8 (8 * n)

def blocks : Nat → List Nat → State → State
  | 0, _, s => s
  | n + 1, words, s => blocks n (words.drop 16) (compress s (words.take 16))

def digest (message : List UInt8) : FixedBytes 32 :=
  let padded := message ++ padding message.length
  let s := blocks (padded.length / 64) (beWords padded) initial
  ⟨[s.a, s.b, s.c, s.d, s.e, s.f, s.g, s.h].flatMap (beBytes 4), by simp⟩

example : leNat (digest [97, 98, 99]).toList.reverse =
    0xba7816bf8f01cfea414140de5dae2223b00361a396177a9cb410ff61f20015ad := by
  decide +kernel

end Sha256
