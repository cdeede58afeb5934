import Hsm.Lib.Rlp

/-! Ethereum transactions: what is signed, and how they are encoded once they are signed. -/

namespace Hsm.Blockchain

abbrev U256 := BitVec 256

abbrev Address := Vector UInt8 20

abbrev B256 := Vector UInt8 32

def encodeU256 (value : U256) : Bytes := Rlp.encodeInteger 32 value.toNat

def encodeU64 (value : UInt64) : Bytes := Rlp.encodeInteger 32 value.toNat

def encodeTo (recipient : Option Address) : Bytes :=
  Rlp.encodeString ((recipient.map Vector.toList).getD [])

def rlpWrapList (payload : Bytes) : Option Bytes :=
  if payload.length + 9 < 2 ^ 63 then some (Rlp.encodeList payload) else none

structure LegacyTransaction where
  nonce : UInt64
  gasPrice : U256
  gasLimit : UInt64
  recipient : Option Address
  value : U256
  data : Bytes
  chainId : Option UInt64
  deriving DecidableEq

namespace LegacyTransaction

variable (tx : LegacyTransaction)

def fields : Bytes :=
  encodeU64 tx.nonce ++ encodeU256 tx.gasPrice ++ encodeU64 tx.gasLimit ++ encodeTo tx.recipient ++
    encodeU256 tx.value ++ Rlp.encodeString tx.data

/-- EIP-155: the chain and two zeros. -/
def chainFields : Bytes :=
  match tx.chainId with
  | some chainId => encodeU64 chainId ++ encodeU256 0 ++ encodeU256 0
  | none => []

def signingPayload : Option Bytes :=
  rlpWrapList (tx.fields ++ tx.chainFields)

def encodeSigned (v : UInt64) (r s : B256) : Option Bytes :=
  rlpWrapList (tx.fields ++ encodeU64 v ++ Rlp.encodeString r.toList ++ Rlp.encodeString s.toList)

end LegacyTransaction

structure Eip1559Transaction where
  chainId : UInt64
  nonce : UInt64
  maxPriorityFeePerGas : U256
  maxFeePerGas : U256
  gasLimit : UInt64
  recipient : Option Address
  value : U256
  data : Bytes
  accessList : List (Address × List B256)
  deriving DecidableEq

namespace Eip1559Transaction

def fields (tx : Eip1559Transaction) : Bytes :=
  encodeU64 tx.chainId ++ encodeU64 tx.nonce ++ encodeU256 tx.maxPriorityFeePerGas ++
    encodeU256 tx.maxFeePerGas ++ encodeU64 tx.gasLimit ++ encodeTo tx.recipient ++
    encodeU256 tx.value ++ Rlp.encodeString tx.data

def encodeEntry (entry : Address × List B256) : Option Bytes := do
  let keysList ← rlpWrapList (entry.2.flatMap fun key => Rlp.encodeString key.toList)
  rlpWrapList (Rlp.encodeString entry.1.toList ++ keysList)

def encodeAccessList (accessList : List (Address × List B256)) : Option Bytes := do
  let entries ← accessList.mapM encodeEntry
  rlpWrapList entries.flatten

def signingPayload (tx : Eip1559Transaction) : Option Bytes := do
  let accessList ← encodeAccessList tx.accessList
  let body ← rlpWrapList (tx.fields ++ accessList)
  return 0x02 :: body

end Eip1559Transaction

inductive Transaction where
  | legacy (tx : LegacyTransaction)
  | eip1559 (tx : Eip1559Transaction)
  deriving DecidableEq

def Transaction.signingPayload : Transaction → Option Bytes
  | .legacy tx => tx.signingPayload
  | .eip1559 tx => tx.signingPayload

structure DecodedTransaction where
  nonce : Nat
  gasPrice : Nat
  gasLimit : Nat
  recipient : Bytes
  value : Nat
  data : Bytes
  v : Nat
  r : Nat
  s : Nat
  deriving DecidableEq, Repr

def decodeSigned (input : Bytes) : Option DecodedTransaction := do
  let (payload, after) ← Rlp.readList input
  let (nonce, payload) ← Rlp.readInteger payload
  let (gasPrice, payload) ← Rlp.readInteger payload
  let (gasLimit, payload) ← Rlp.readInteger payload
  let (recipient, payload) ← Rlp.readString payload
  let (value, payload) ← Rlp.readInteger payload
  let (data, payload) ← Rlp.readString payload
  let (v, payload) ← Rlp.readInteger payload
  let (r, payload) ← Rlp.readInteger payload
  let (s, payload) ← Rlp.readInteger payload
  guard (after = [] ∧ payload = [] ∧ (recipient = [] ∨ recipient.length = 20))
  return ⟨nonce, gasPrice, gasLimit, recipient, value, data, v, r, s⟩

end Hsm.Blockchain
