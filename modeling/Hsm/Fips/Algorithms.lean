import Mathlib.Data.List.Basic

/-! The algorithms that the crate names, and those approved in FIPS mode. -/

namespace Hsm.Fips

inductive Algorithm where
  | aes128 | aes192 | aes256 | aesGcm | aesCbc | aesCtr | chaCha20 | chaCha20Poly1305 | sha1
  | sha256 | sha384 | sha512 | sha512256 | sha3256 | sha3384 | sha3512 | shake128 | shake256
  | blake2b | blake3 | rsa2048 | rsa3072 | rsa4096 | ecdsaP256 | ecdsaP384 | ecdsaP521 | ed25519
  | ed448 | secp256k1 | bls12381 | hmacSha256 | hmacSha384 | hmacSha512 | cmacAes | hkdf | pbkdf2
  | sp800108Kdf | argon2 | scrypt | ecdhP256 | ecdhP384 | ecdhP521 | x25519 | x448 | dh | ctrDrbg
  | hmacDrbg | hashDrbg | mlKem | mlDsa | slhDsa | thresholdEcdsaP256 | thresholdEcdsaP384
  | thresholdEcdsaSecp256k1 | thresholdBls12381 | frostEd25519
  deriving DecidableEq, Repr

def Algorithm.name : Algorithm → String
  | .aes128 => "AES-128"
  | .aes192 => "AES-192"
  | .aes256 => "AES-256"
  | .aesGcm => "AES-GCM"
  | .aesCbc => "AES-CBC"
  | .aesCtr => "AES-CTR"
  | .chaCha20 => "ChaCha20"
  | .chaCha20Poly1305 => "ChaCha20-Poly1305"
  | .sha1 => "SHA-1"
  | .sha256 => "SHA-256"
  | .sha384 => "SHA-384"
  | .sha512 => "SHA-512"
  | .sha512256 => "SHA-512/256"
  | .sha3256 => "SHA3-256"
  | .sha3384 => "SHA3-384"
  | .sha3512 => "SHA3-512"
  | .shake128 => "SHAKE128"
  | .shake256 => "SHAKE256"
  | .blake2b => "BLAKE2b"
  | .blake3 => "BLAKE3"
  | .rsa2048 => "RSA-2048"
  | .rsa3072 => "RSA-3072"
  | .rsa4096 => "RSA-4096"
  | .ecdsaP256 => "ECDSA-P256"
  | .ecdsaP384 => "ECDSA-P384"
  | .ecdsaP521 => "ECDSA-P521"
  | .ed25519 => "Ed25519"
  | .ed448 => "Ed448"
  | .secp256k1 => "secp256k1"
  | .bls12381 => "BLS12-381"
  | .hmacSha256 => "HMAC-SHA256"
  | .hmacSha384 => "HMAC-SHA384"
  | .hmacSha512 => "HMAC-SHA512"
  | .cmacAes => "CMAC-AES"
  | .hkdf => "HKDF"
  | .pbkdf2 => "PBKDF2"
  | .sp800108Kdf => "SP800-108-KDF"
  | .argon2 => "Argon2"
  | .scrypt => "scrypt"
  | .ecdhP256 => "ECDH-P256"
  | .ecdhP384 => "ECDH-P384"
  | .ecdhP521 => "ECDH-P521"
  | .x25519 => "X25519"
  | .x448 => "X448"
  | .dh => "DH"
  | .ctrDrbg => "CTR_DRBG"
  | .hmacDrbg => "HMAC_DRBG"
  | .hashDrbg => "Hash_DRBG"
  | .mlKem => "ML-KEM"
  | .mlDsa => "ML-DSA"
  | .slhDsa => "SLH-DSA"
  | .thresholdEcdsaP256 => "Threshold-ECDSA-P256"
  | .thresholdEcdsaP384 => "Threshold-ECDSA-P384"
  | .thresholdEcdsaSecp256k1 => "Threshold-ECDSA-secp256k1"
  | .thresholdBls12381 => "Threshold-BLS12-381"
  | .frostEd25519 => "FROST-Ed25519"

/-- Approved algorithms, those approved for verification only, and those under evaluation. -/
structure ApprovedAlgorithms where
  approved : List Algorithm
  verificationOnly : List Algorithm
  underEvaluation : List Algorithm

namespace ApprovedAlgorithms

def new : ApprovedAlgorithms where
  approved :=
    [.aes128, .aes192, .aes256, .aesGcm, .aesCbc, .aesCtr, .sha256, .sha384, .sha512,
    .sha512256,
    .sha3256, .sha3384, .sha3512, .shake128, .shake256, .rsa2048, .rsa3072,
    .rsa4096, .ecdsaP256,
    .ecdsaP384, .ecdsaP521, .ed25519, .ed448, .hmacSha256, .hmacSha384,
    .hmacSha512, .cmacAes,
    .hkdf, .pbkdf2, .sp800108Kdf, .ecdhP256, .ecdhP384, .ecdhP521,
    .x25519, .x448, .dh, .ctrDrbg,
    .hmacDrbg, .hashDrbg, .thresholdEcdsaP256,
    .thresholdEcdsaP384, .frostEd25519]
  verificationOnly := [.sha1]
  underEvaluation := [.mlKem, .mlDsa, .slhDsa, .thresholdBls12381]

variable (table : ApprovedAlgorithms) (algorithm : Algorithm)

def isApproved : Bool := table.approved.contains algorithm

def isVerificationOnly : Bool := table.verificationOnly.contains algorithm

def canUse (forVerification : Bool) : Bool :=
  table.approved.contains algorithm ||
    (forVerification && table.verificationOnly.contains algorithm)

/-- Why an algorithm is not approved. -/
def rejectionReason : Option String :=
  if table.approved.contains algorithm then none
  else if table.verificationOnly.contains algorithm then
    some (algorithm.name ++ " is approved for verification only")
  else if table.underEvaluation.contains algorithm then
    some (algorithm.name ++ " is under NIST evaluation and not yet FIPS approved")
  else some (algorithm.name ++ " is not a FIPS 140-3 approved algorithm")

end ApprovedAlgorithms

end Hsm.Fips
