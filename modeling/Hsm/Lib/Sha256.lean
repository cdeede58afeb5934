import Hsm.Lib.Bytes

/-! SHA-256 and HMAC-SHA-256 over byte strings, in a form the kernel can evaluate. -/

namespace Hsm

namespace Sha256

structure State where
  a : UInt32
  b : UInt32
  c : UInt32
  d : UInt32
  e : UInt32
  f : UInt32
  g : UInt32
  h : UInt32

/-- The words hashing starts from. -/
def initial : State where
  a := 0x6a09e667
  b := 0xbb67ae85
  c := 0x3c6ef372
  d := 0xa54ff53a
  e := 0x510e527f
  f := 0x9b05688c
  g := 0x1f83d9ab
  h := 0x5be0cd19

def constants : List UInt32 := [
  0x428a2f98, 0x71374491, 0xb5c0fbcf, 0xe9b5dba5, 0x3956c25b, 0x59f111f1, 0x923f82a4, 0xab1c5ed5,
  0xd807aa98, 0x12835b01, 0x243185be, 0x550c7dc3, 0x72be5d74, 0x80deb1fe, 0x9bdc06a7, 0xc19bf174,
  0xe49b69c1, 0xefbe4786, 0x0fc19dc6, 0x240ca1cc, 0x2de92c6f, 0x4a7484aa, 0x5cb0a9dc, 0x76f988da,
  0x983e5152, 0xa831c66d, 0xb00327c8, 0xbf597fc7, 0xc6e00bf3, 0xd5a79147, 0x06ca6351, 0x14292967,
  0x27b70a85, 0x2e1b2138, 0x4d2c6dfc, 0x53380d13, 0x650a7354, 0x766a0abb, 0x81c2c92e, 0x92722c85,
  0xa2bfe8a1, 0xa81a664b, 0xc24b8b70, 0xc76c51a3, 0xd192e819, 0xd6990624, 0xf40e3585, 0x106aa070,
  0x19a4c116, 0x1e376c08, 0x2748774c, 0x34b0bcb5, 0x391c0cb3, 0x4ed8aa4a, 0x5b9cca4f, 0x682e6ff3,
  0x748f82ee, 0x78a5636f, 0x84c87814, 0x8cc70208, 0x90befffa, 0xa4506ceb, 0xbef9a3f7, 0xc67178f2]

def rotr (count word : UInt32) : UInt32 := (word >>> count) ||| (word <<< (32 - count))

def round (state : State) (constant word : UInt32) : State :=
  let sum1 := rotr 6 state.e ^^^ rotr 11 state.e ^^^ rotr 25 state.e
  let choice := (state.e &&& state.f) ^^^ (~~~state.e &&& state.g)
  let first := state.h + sum1 + choice + constant + word
  let sum0 := rotr 2 state.a ^^^ rotr 13 state.a ^^^ rotr 22 state.a
  let majority := (state.a &&& state.b) ^^^ (state.a &&& state.c) ^^^ (state.b &&& state.c)
  ⟨first + (sum0 + majority), state.a, state.b, state.c, state.d + first, state.e, state.f, state.g⟩

def nextWord (window : List UInt32) : UInt32 :=
  let early := window.getD 1 0
  let late := window.getD 14 0
  let sigma0 := rotr 7 early ^^^ rotr 18 early ^^^ (early >>> 3)
  let sigma1 := rotr 17 late ^^^ rotr 19 late ^^^ (late >>> 10)
  window.getD 0 0 + sigma0 + window.getD 9 0 + sigma1

def rounds : List UInt32 → List UInt32 → State → State
  | [], _, state => state
  | constant :: rest, window, state =>
    rounds rest (window.tail ++ [nextWord window]) (round state constant (window.getD 0 0))

def compress (state : State) (block : List UInt32) : State :=
  let mixed := rounds constants block state
  ⟨state.a + mixed.a, state.b + mixed.b, state.c + mixed.c, state.d + mixed.d,
    state.e + mixed.e, state.f + mixed.f, state.g + mixed.g, state.h + mixed.h⟩

def words : Bytes → List UInt32
  | first :: second :: third :: fourth :: rest =>
    UInt32.ofNat (beValue [first, second, third, fourth]) :: words rest
  | _ => []

def blocks : Nat → State → List UInt32 → State
  | 0, state, _ => state
  | count + 1, state, input => blocks count (compress state (input.take 16)) (input.drop 16)

def pad (message : Bytes) : Bytes :=
  message ++ 0x80 :: (List.replicate ((119 - message.length % 64) % 64) 0 ++
    beBytes 8 (8 * message.length))

end Sha256

def sha256 (message : Bytes) : Bytes :=
  let padded := Sha256.pad message
  let state := Sha256.blocks (padded.length / 64) Sha256.initial (Sha256.words padded)
  [state.a, state.b, state.c, state.d, state.e, state.f, state.g, state.h].flatMap
    fun word => beBytes 4 word.toNat

@[simp] theorem sha256_length (message : Bytes) : (sha256 message).length = 32 := by
  -- Eight words of four bytes each are written out, whatever the state.
  simp [sha256]

example : sha256 [0x61, 0x62, 0x63] =
    [0xba, 0x78, 0x16, 0xbf, 0x8f, 0x01, 0xcf, 0xea, 0x41, 0x41, 0x40, 0xde, 0x5d, 0xae, 0x22, 0x23,
      0xb0, 0x03, 0x61, 0xa3, 0x96, 0x17, 0x7a, 0x9c, 0xb4, 0x10, 0xff, 0x61, 0xf2, 0x00, 0x15,
      0xad] := by
  decide +kernel

def hmacSha256 (key message : Bytes) : Bytes :=
  let short := if key.length > 64 then sha256 key else key
  let block := short ++ List.replicate (64 - short.length) 0
  sha256 (block.map (· ^^^ 0x5c) ++ sha256 (block.map (· ^^^ 0x36) ++ message))

end Hsm
