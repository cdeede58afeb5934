import Mathlib.Data.List.Basic
import Mathlib.Algebra.Ring.Nat

/-! Fixed-width integers as byte strings, in both byte orders. -/

namespace Hsm

abbrev Bytes := List UInt8

def leBytes : Nat → Nat → Bytes
  | 0, _ => []
  | width + 1, value => UInt8.ofNat value :: leBytes width (value / 256)

/-- The number of little-endian bytes. -/
def leValue : Bytes → Nat
  | [] => 0
  | byte :: rest => byte.toNat + 256 * leValue rest

def beBytes (width value : Nat) : Bytes := (leBytes width value).reverse

variable (bytes : Bytes)

/-- The number of big-endian bytes. -/
def beValue : Nat := leValue bytes.reverse

@[simp] theorem leBytes_length (width value : Nat) : (leBytes width value).length = width := by
  -- Every level writes one byte and shifts the value down by eight bits.
  induction width generalizing value with
  | zero => rfl
  | succ width ih => simp [leBytes, ih]

@[simp] theorem beBytes_length (width value : Nat) : (beBytes width value).length = width := by
  simp [beBytes]

theorem leValue_leBytes (width value : Nat) :
    leValue (leBytes width value) = value % 256 ^ width := by
  induction width generalizing value with
  | zero => simp [leBytes, leValue, Nat.mod_one]
  | succ width ih =>
    -- The low byte and the remaining quotient recombine below one more factor of 256.
    have low : (UInt8.ofNat value).toNat = value % 256 := by simp
    rw [leBytes, leValue, ih, low, Nat.pow_succ, Nat.mul_comm (256 ^ width) 256, Nat.mod_mul]

theorem beValue_beBytes (width value : Nat) :
    beValue (beBytes width value) = value % 256 ^ width := by
  simp [beValue, beBytes, leValue_leBytes]

theorem leValue_lt : leValue bytes < 256 ^ bytes.length := by
  induction bytes with
  | nil => simp [leValue]
  | cons byte rest ih =>
    have small : byte.toNat < 256 := byte.toNat_lt
    simp only [leValue, List.length_cons, Nat.pow_succ]
    omega

theorem leBytes_leValue : leBytes bytes.length (leValue bytes) = bytes := by
  induction bytes with
  | nil => rfl
  | cons byte rest ih =>
    -- The low byte is the remainder modulo 256, and the rest is the quotient.
    have small : byte.toNat < 256 := byte.toNat_lt
    have quotient : (byte.toNat + 256 * leValue rest) / 256 = leValue rest := by omega
    have low : UInt8.ofNat (byte.toNat + 256 * leValue rest) = byte := by
      apply UInt8.toNat.inj
      simp only [UInt8.toNat_ofNat']
      omega
    rw [List.length_cons, leBytes, leValue, quotient, ih, low]

variable (value : UInt64)

def toBeBytes : Bytes := beBytes 8 value.toNat

def toLeBytes : Bytes := leBytes 8 value.toNat

def fromBeBytes : UInt64 := UInt64.ofNat (beValue bytes)

@[simp] theorem toBeBytes_length : (toBeBytes value).length = 8 := by
  simp [toBeBytes]

@[simp] theorem fromBeBytes_toBeBytes : fromBeBytes (toBeBytes value) = value := by
  -- Eight bytes hold every 64-bit value, so the reduction changes nothing.
  have bound : value.toNat < 256 ^ 8 := value.toNat_lt
  rw [fromBeBytes, toBeBytes, beValue_beBytes, Nat.mod_eq_of_lt bound]
  simp

theorem toBeBytes_fromBeBytes {bytes : Bytes} (size : bytes.length = 8) :
    toBeBytes (fromBeBytes bytes) = bytes := by
  -- The value of eight bytes fits into 64 bits, so the integer still holds all of them.
  have bound : leValue bytes.reverse < 2 ^ 64 := by
    have below := leValue_lt bytes.reverse
    rw [List.length_reverse, size] at below
    exact below
  have value : (fromBeBytes bytes).toNat = leValue bytes.reverse := by
    simp only [fromBeBytes, beValue, UInt64.toNat_ofNat']
    exact Nat.mod_eq_of_lt bound
  have width : bytes.reverse.length = 8 := by rw [List.length_reverse, size]
  rw [toBeBytes, value, beBytes, ← width, leBytes_leValue, List.reverse_reverse]

theorem toBeBytes_injective : Function.Injective toBeBytes := by
  intro first second same
  have := congrArg fromBeBytes same
  simpa using this

end Hsm
