import Hsm.Lib.Bytes

/-! Keccak-256 over byte strings, as Ethereum uses it: with the padding from before SHA-3. -/

namespace Hsm

namespace Keccak

/-- The 25 lanes of 64 bits, row after row, as the digits of one number. -/
abbrev State := Nat

def lane (state : State) (i : Nat) : Nat := state >>> (64 * i) % 2 ^ 64

def ofLanes (lanes : List Nat) : State := lanes.foldr (fun lane rest => lane + rest <<< 64) 0

def roundConstants : List Nat := [
  0x0000000000000001, 0x0000000000008082, 0x800000000000808a, 0x8000000080008000,
  0x000000000000808b, 0x0000000080000001, 0x8000000080008081, 0x8000000000008009,
  0x000000000000008a, 0x0000000000000088, 0x0000000080008009, 0x000000008000000a,
  0x000000008000808b, 0x800000000000008b, 0x8000000000008089, 0x8000000000008003,
  0x8000000000008002, 0x8000000000000080, 0x000000000000800a, 0x800000008000000a,
  0x8000000080008081, 0x8000000000008080, 0x0000000080000001, 0x8000000080008008]

def offsets : List Nat := [
  0, 1, 62, 28, 27, 36, 44, 6, 55, 20, 3, 10, 43, 25, 39, 41, 45, 15, 21, 8, 18, 2, 61, 56, 14]

def rotl (word count : Nat) : Nat :=
  (word <<< count) % 2 ^ 64 ||| word >>> (64 - count)

def places : List Nat := [
  0, 1, 2, 3, 4, 5, 6, 7, 8, 9, 10, 11, 12, 13, 14, 15, 16, 17, 18, 19, 20, 21, 22, 23, 24]

def parity (state : State) (x : Nat) : Nat :=
  lane (state ^^^ state >>> 320 ^^^ state >>> 640 ^^^ state >>> 960 ^^^ state >>> 1280) x

/-- Add the parities of two columns to each lane. -/
def theta (state : State) : State :=
  ofLanes (places.map fun i =>
    lane state i ^^^ parity state ((i + 4) % 5) ^^^ rotl (parity state ((i + 1) % 5)) 1)

/-- Rotate the lanes and move them to their new places. -/
def rhoPi (state : State) : State :=
  ofLanes (places.map fun i =>
    let source := (i % 5 + 3 * (i / 5)) % 5 + 5 * (i % 5)
    rotl (lane state source) (offsets.getD source 0))

/-- Combine each lane with the next two of its row. -/
def chi (state : State) : State :=
  ofLanes (places.map fun i =>
    let row := 5 * (i / 5)
    lane state i ^^^ ((2 ^ 64 - 1 - lane state (row + (i + 1) % 5)) &&&
      lane state (row + (i + 2) % 5)))

def permute (state : State) : State :=
  roundConstants.foldl (fun state constant => chi (rhoPi (theta state)) ^^^ constant) state

/-- A block of 136 bytes fills the first 17 lanes. -/
def absorb : Nat → State → Bytes → State
  | 0, state, _ => state
  | blocks + 1, state, bytes =>
    absorb blocks (permute (state ^^^ leValue (bytes.take 136))) (bytes.drop 136)

/-- Fill up the last block, with a bit at each end of the filling. -/
def pad (message : Bytes) : Bytes :=
  let missing := 136 - message.length % 136
  message ++ if missing = 1 then [0x81] else 0x01 :: (List.replicate (missing - 2) 0 ++ [0x80])

end Keccak

def keccak256 (message : Bytes) : Bytes :=
  leBytes 32 (Keccak.absorb (message.length / 136 + 1) 0 (Keccak.pad message))

end Hsm
