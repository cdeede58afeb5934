import Hsm.Lib.Text

/-! Authenticated encryption, as a parameter with the laws it promises, and from known answers. -/

namespace Hsm

def ByteVec (size : Nat) : Type := { bytes : Bytes // bytes.length = size }
  deriving DecidableEq

/-- AES-256-GCM, which may fail either way. -/
structure Aead where
  encrypt : ByteVec 32 → ByteVec 12 → Bytes → Option Bytes
  decrypt : ByteVec 32 → ByteVec 12 → Bytes → Option Bytes

/-- Decryption inverts encryption, with a tag of 16 bytes. -/
structure Aead.Lawful (aead : Aead) : Prop where
  decrypts : ∀ {key nonce plaintext ciphertext},
    aead.encrypt key nonce plaintext = some ciphertext →
      aead.decrypt key nonce ciphertext = some plaintext
  tagged : ∀ {key nonce plaintext ciphertext},
    aead.encrypt key nonce plaintext = some ciphertext → ciphertext.length = plaintext.length + 16

structure KnownAnswer where
  key : ByteVec 32
  nonce : ByteVec 12
  plaintext : Bytes
  ciphertext : Bytes
  deriving DecidableEq

def Aead.ofKnown (answers : List KnownAnswer) : Aead where
  encrypt key nonce plaintext := (answers.find? fun answer =>
    answer.key = key ∧ answer.nonce = nonce ∧ answer.plaintext = plaintext).map (·.ciphertext)
  decrypt key nonce ciphertext := (answers.find? fun answer =>
    answer.key = key ∧ answer.nonce = nonce ∧ answer.ciphertext = ciphertext).map (·.plaintext)

theorem Aead.ofKnown_lawful {answers : List KnownAnswer}
    (apart : ∀ first ∈ answers, ∀ second ∈ answers,
      first.ciphertext = second.ciphertext → first = second)
    (tagged : ∀ answer ∈ answers, answer.ciphertext.length = answer.plaintext.length + 16) :
    (ofKnown answers).Lawful := by
  have known : ∀ {key nonce plaintext ciphertext},
      (ofKnown answers).encrypt key nonce plaintext = some ciphertext →
        ⟨key, nonce, plaintext, ciphertext⟩ ∈ answers := by
    intro key nonce plaintext ciphertext given
    obtain ⟨answer, found, rfl⟩ := Option.map_eq_some_iff.mp given
    have member := List.mem_of_find?_eq_some found
    have matches_ := List.find?_some found
    obtain ⟨rfl, rfl, rfl⟩ := of_decide_eq_true matches_
    exact member
  refine ⟨fun given => ?_, fun given => tagged _ (known given)⟩
  have member := known given
  rename_i key nonce plaintext ciphertext
  -- The answer that is found for the ciphertext is the one that gave it.
  cases found : answers.find? (fun answer =>
      answer.key = key ∧ answer.nonce = nonce ∧ answer.ciphertext = ciphertext) with
  | none =>
    have missed := List.find?_eq_none.mp found _ member
    simp at missed
  | some answer =>
    have holds := List.find?_some found
    obtain ⟨-, -, sameText⟩ := of_decide_eq_true holds
    have same := apart answer (List.mem_of_find?_eq_some found) _ member sameText
    rw [ofKnown]
    simp only [found, Option.map_some, same]

end Hsm
