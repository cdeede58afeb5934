import Hsm.Lib.Sha256
import Hsm.Lib.Text

/-! Direct signatures of Cosmos transactions, and the digest they are made for. -/

namespace Hsm.Blockchain

inductive BlockchainError where
  | invalidPrivateKey (message : String)
  | invalidPublicKey (message : String)
  | invalidSignature (message : String)
  | invalidDerivationPath (message : String)
  | invalidTypedData (message : String)
  | cryptoError (message : String)
  deriving DecidableEq, Repr

structure SignDoc where
  bodyBytes : Bytes
  authInfoBytes : Bytes
  chainId : String
  accountNumber : UInt64
  deriving DecidableEq

def varintGroups : Nat → Nat → Bytes
  | 0, _ => []
  | rest + 1, value =>
    if value / 128 = 0 then [UInt8.ofNat (value % 128)]
    else UInt8.ofNat (value % 128 + 128) :: varintGroups rest (value / 128)

def encodeVarint (value : UInt64) : Bytes := varintGroups 10 value.toNat

def encodeTag (fieldNumber wireType : UInt32) : Bytes :=
  encodeVarint ((fieldNumber <<< 3) ||| wireType).toUInt64

def encodeLenDelimited (fieldNumber : UInt32) (data : Bytes) : Bytes :=
  encodeTag fieldNumber 2 ++ encodeVarint (UInt64.ofNat data.length) ++ data

def encodeVarintField (fieldNumber : UInt32) (value : UInt64) : Bytes :=
  encodeTag fieldNumber 0 ++ encodeVarint value

def SignDoc.toDirectSignBytes (doc : SignDoc) : Bytes :=
  encodeLenDelimited 1 doc.bodyBytes ++ encodeLenDelimited 2 doc.authInfoBytes ++
    encodeLenDelimited 3 (asBytes doc.chainId) ++
    if doc.accountNumber ≠ 0 then encodeVarintField 4 doc.accountNumber else []

/-- ECDSA over secp256k1, on keys, signatures and digests. -/
structure Secp256k1 where
  fromBytes : Bytes → Except String Unit
  fromSec1Bytes : Bytes → Except String Unit
  fromSlice : Bytes → Except String Unit
  verifyingKey : Bytes → Bytes
  signDigest : Bytes → Bytes → Bytes
  verifyDigest : Bytes → Bytes → Bytes → Bool

namespace Secp256k1

def sign (curve : Secp256k1) (secret message : Bytes) : Bytes :=
  curve.signDigest secret (sha256 message)

def verify (curve : Secp256k1) (key message signature : Bytes) : Bool :=
  curve.verifyDigest key (sha256 message) signature

/-- The signature of a digest is valid, and for no other digest. -/
structure Signs (curve : Secp256k1) (secret digest other : Bytes) : Prop where
  readsKey : curve.fromSec1Bytes (curve.verifyingKey secret) = .ok ()
  readsSignature : curve.fromSlice (curve.signDigest secret digest) = .ok ()
  complete : curve.verifyDigest (curve.verifyingKey secret) digest
    (curve.signDigest secret digest) = true
  binding : curve.verifyDigest (curve.verifyingKey secret) other
    (curve.signDigest secret digest) = true → other = digest

end Secp256k1

namespace CosmosSigner

variable (curve : Secp256k1)

def signSecp256k1 (privateKey messageHash : Bytes) : Except BlockchainError Bytes :=
  if privateKey.length ≠ 32 then .error (.invalidPrivateKey "Private key must be 32 bytes")
  else match curve.fromBytes privateKey with
    | .error e => .error (.invalidPrivateKey e)
    | .ok () => .ok (curve.sign privateKey messageHash)

def verifySecp256k1 (publicKey messageHash signature : Bytes) : Except BlockchainError Bool :=
  match curve.fromSec1Bytes publicKey with
  | .error e => .error (.invalidPublicKey e)
  | .ok () =>
    match curve.fromSlice signature with
    | .error e => .error (.invalidSignature e)
    | .ok () => .ok (curve.verify publicKey messageHash signature)

def signDirectProtobuf (privateKey : Bytes) (signDoc : SignDoc) : Except BlockchainError Bytes :=
  signSecp256k1 curve privateKey (sha256 signDoc.toDirectSignBytes)

def verify (publicKey message signature : Bytes) : Except BlockchainError Bool :=
  verifySecp256k1 curve publicKey (sha256 message) signature

/-- A document's signature is valid exactly if hashing its digest again changes nothing. -/
theorem direct_signature_valid_iff (privateKey : Bytes) (doc : SignDoc)
    (length : privateKey.length = 32) (valid : curve.fromBytes privateKey = .ok ())
    (signs : curve.Signs privateKey (sha256 (sha256 doc.toDirectSignBytes))
      (sha256 doc.toDirectSignBytes)) :
    ∃ signature, signDirectProtobuf curve privateKey doc = .ok signature ∧
      verify curve (curve.verifyingKey privateKey) doc.toDirectSignBytes signature = .ok true ∧
      (curve.verifyDigest (curve.verifyingKey privateKey) (sha256 doc.toDirectSignBytes)
          signature = true ↔
        sha256 (sha256 doc.toDirectSignBytes) = sha256 doc.toDirectSignBytes) := by
  -- The message given to the curve is a digest already, and the curve hashes it once more.
  refine ⟨curve.signDigest privateKey (sha256 (sha256 doc.toDirectSignBytes)), ?_, ?_, ?_⟩
  · simp [signDirectProtobuf, signSecp256k1, length, valid, Secp256k1.sign]
  · simp [verify, verifySecp256k1, signs.readsKey, signs.readsSignature, Secp256k1.verify,
      signs.complete]
  · constructor
    · exact fun accepted => (signs.binding accepted).symm
    · intro fixed
      have complete := signs.complete
      rwa [fixed] at complete ⊢

def sampleDigest : Bytes :=
  [248, 232, 146, 25, 161, 235, 47, 225, 185, 148, 205, 251, 107, 151, 228, 254, 142, 102, 165, 25,
    240, 141, 54, 59, 47, 238, 92, 55, 134, 154, 49, 137]

def sampleSignature : Bytes :=
  [98, 119, 130, 14, 244, 77, 35, 193, 124, 183, 108, 70, 153, 24, 205, 56, 48, 248, 126, 187, 157,
    208, 123, 255, 142, 22, 217, 85, 112, 225, 57, 76, 121, 72, 237, 132, 223, 155, 228, 115, 76,
    213, 89, 75, 224, 235, 206, 113, 118, 242, 78, 58, 121, 249, 6, 55, 137, 98, 64, 104, 191, 244,
    157, 222]

def sampleCurve : Secp256k1 where
  fromBytes _ := .ok ()
  fromSec1Bytes _ := .ok ()
  fromSlice _ := .ok ()
  verifyingKey _ := [3, 27, 132, 197, 86, 123, 18, 100, 64, 153, 93, 62, 213, 170, 186, 5, 101, 215,
    30, 24, 52, 96, 72, 25, 255, 156, 23, 245, 233, 213, 221, 7, 143]
  signDigest _ digest := if digest = sampleDigest then sampleSignature else digest
  verifyDigest _ digest signature :=
    decide ((if digest = sampleDigest then sampleSignature else digest) = signature)

def sampleDoc : SignDoc := ⟨[1], [2], "cosmoshub-4", 7⟩

theorem sample_digests : sha256 (sha256 sampleDoc.toDirectSignBytes) = sampleDigest ∧
    sha256 sampleDoc.toDirectSignBytes ≠ sampleDigest ∧
    sha256 sampleDoc.toDirectSignBytes ≠ sampleSignature := by
  decide +kernel

theorem direct_signature_refused :
    signDirectProtobuf sampleCurve (List.replicate 32 1) sampleDoc = .ok sampleSignature ∧
      sampleCurve.verifyDigest (sampleCurve.verifyingKey (List.replicate 32 1))
        (sha256 sampleDoc.toDirectSignBytes) sampleSignature = false := by
  obtain ⟨twice, once, other⟩ := sample_digests
  constructor
  · simp [signDirectProtobuf, signSecp256k1, Secp256k1.sign, sampleCurve, twice]
  · simp [sampleCurve, once, other]

theorem direct_signature_valid_iff_sample :
    ∃ signature, signDirectProtobuf sampleCurve (List.replicate 32 1) sampleDoc = .ok signature ∧
      (sampleCurve.verifyDigest (sampleCurve.verifyingKey (List.replicate 32 1))
          (sha256 sampleDoc.toDirectSignBytes) signature = true ↔
        sha256 (sha256 sampleDoc.toDirectSignBytes) = sha256 sampleDoc.toDirectSignBytes) := by
  obtain ⟨twice, once, other⟩ := sample_digests
  have signs : sampleCurve.Signs (List.replicate 32 1)
      (sha256 (sha256 sampleDoc.toDirectSignBytes)) (sha256 sampleDoc.toDirectSignBytes) := by
    refine ⟨rfl, rfl, ?_, ?_⟩
    · simp [sampleCurve]
    · simp [sampleCurve, twice, once, other]
  obtain ⟨signature, signed, -, valid⟩ := direct_signature_valid_iff sampleCurve
    (List.replicate 32 1) sampleDoc (by decide) rfl signs
  exact ⟨signature, signed, valid⟩

end CosmosSigner

end Hsm.Blockchain
