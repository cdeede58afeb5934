import Hsm.Audit.Checkpoint
import Hsm.Lib.Utf8Lossy

/-! Webhook signatures over a timestamp and a payload. -/

namespace Hsm.Webhooks

structure WebhookSigner where
  secret : Bytes
  deriving DecidableEq, Repr

namespace WebhookSigner

def new (secret : String) : WebhookSigner := ⟨asBytes secret⟩

def sign (signer : WebhookSigner) (payload : Bytes) : String :=
  "sha256=" ++ hexEncode (hmacSha256 signer.secret payload)

/-- The timestamp, a point, and the text of the payload. -/
def signedMessage (payload : Bytes) (timestamp : Int64) : Bytes :=
  asBytes (toString timestamp.toInt ++ ".") ++ fromUtf8Lossy payload

def signWithTimestamp (signer : WebhookSigner) (payload : Bytes) (timestamp : Int64) : String :=
  signer.sign (signedMessage payload timestamp)

def constantTimeCompare (a b : String) : Bool := ctEq (asBytes a) (asBytes b)

def verifyWithTimestamp (signer : WebhookSigner) (payload : Bytes) (timestamp : Int64)
    (signature : String) : Bool :=
  constantTimeCompare (signer.signWithTimestamp payload timestamp) signature

end WebhookSigner

open WebhookSigner

theorem differingBits_eq_zero {bits : UInt8} {first second : Bytes}
    (size : first.length = second.length) (none : differingBits bits first second = 0) :
    bits = 0 ∧ first = second := by
  induction first generalizing bits second with
  | nil =>
    cases second with
    | nil => exact ⟨none, rfl⟩
    | cons y ys => cases size
  | cons x xs ih =>
    cases second with
    | nil => cases size
    | cons y ys =>
      obtain ⟨sum, rfl⟩ := ih (Nat.succ.inj size) none
      obtain ⟨before, added⟩ := UInt8.or_eq_zero_iff.mp sum
      rw [UInt8.xor_eq_zero_iff.mp added]
      exact ⟨before, rfl⟩

theorem constantTimeCompare_iff (a b : String) : constantTimeCompare a b = true ↔ a = b := by
  constructor
  · intro equal
    simp only [constantTimeCompare, ctEq] at equal
    split at equal
    · cases equal
    · rename_i size
      exact asBytes_injective
        (differingBits_eq_zero (not_not.mp size) (of_decide_eq_true equal)).2
  · rintro rfl
    exact ctEq_self _

theorem toString_toList (value : Int) : (toString value).toList =
    (if value < 0 then ['-'] else []) ++ Nat.toDigits 10 value.natAbs := by
  cases value with
  | ofNat value => simp [toString, Int.repr, Nat.repr]
  | negSucc value => simp [toString, Int.repr, Nat.repr, Int.negSucc_lt_zero]

theorem toString_read {value other : Int} {rest rest' : List Char}
    (same : (toString value).toList ++ '.' :: rest = (toString other).toList ++ '.' :: rest') :
    value = other ∧ rest = rest' := by
  -- There is no point in a number, so the first one ends it, whatever points come later.
  have plain (value : Int) : ∀ c ∈ (toString value).toList, (c != '.') = true := by
    intro c member
    rw [toString_toList, List.mem_append] at member
    rcases member with sign | digit
    · split at sign
      · rw [List.mem_singleton.mp sign]
        rfl
      · cases sign
    · have digit := isDigit_toDigits _ c digit
      exact bne_iff_ne.mpr (by rintro rfl; cases digit)
  obtain ⟨texts, rests⟩ := run_read (· != '.') (plain value) (plain other) (by simp) (by simp) same
  refine ⟨?_, (List.cons.inj rests).2⟩
  -- The digits give the absolute value, and none of them is a sign.
  have values {m n : Nat} (digits : Nat.toDigits 10 m = Nat.toDigits 10 n) : m = n := by
    simpa using congrArg (Nat.ofDigitChars 10 · 0) digits
  have unsigned {m n : Nat} (digits : Nat.toDigits 10 m = '-' :: Nat.toDigits 10 n) : False := by
    have digit := isDigit_toDigits m '-' (by simp [digits])
    cases digit
  rw [toString_toList, toString_toList] at texts
  split at texts <;> split at texts
  · have sizes := values (List.cons.inj texts).2
    omega
  · exact (unsigned texts.symm).elim
  · exact (unsigned texts).elim
  · have sizes := values texts
    omega

variable {payload payload' : Bytes} {timestamp timestamp' : Int64}

theorem signedMessage_eq_iff :
    signedMessage payload' timestamp' = signedMessage payload timestamp ↔
      timestamp' = timestamp ∧ Utf8.Alike payload' payload := by
  rw [← Utf8.fromUtf8Lossy_eq_iff]
  constructor
  · intro same
    have bytes (text : String) : asBytes text = text.toList.flatMap String.utf8EncodeChar := by
      rw [← asBytes_ofList, String.ofList_toList]
    have ends (value : Int) : (toString value ++ ".").toList = (toString value).toList ++ ['.'] := by
      simp
    rw [signedMessage, signedMessage, bytes, bytes, ends, ends] at same
    -- The point ends the timestamp on both sides, so nothing of the payloads belongs to it.
    rcases utf8_read same with ⟨more, texts, rests⟩ | ⟨more, texts, rests⟩ <;>
      rw [List.append_assoc, List.singleton_append] at texts <;>
      obtain ⟨times, rfl⟩ := toString_read texts
    · exact ⟨(Int64.toInt_inj.mp times).symm, rests⟩
    · exact ⟨Int64.toInt_inj.mp times, rests.symm⟩
  · rintro ⟨rfl, texts⟩
    rw [signedMessage, signedMessage, texts]

/-- A signature verifies no other payload or timestamp. -/
def Binds (signer : WebhookSigner) (payload payload' : Bytes) (timestamp timestamp' : Int64) :
    Prop :=
  signer.verifyWithTimestamp payload' timestamp' (signer.signWithTimestamp payload timestamp) =
      true ↔ payload' = payload ∧ timestamp' = timestamp

/-- Signatures bind a payload and its timestamp exactly against payloads that are not alike. -/
theorem timestamped_signature_binds_iff (signer : WebhookSigner) (payload payload' : Bytes)
    (timestamp timestamp' : Int64)
    (collisionFree :
      hmacSha256 signer.secret (signedMessage payload' timestamp') =
        hmacSha256 signer.secret (signedMessage payload timestamp) →
      signedMessage payload' timestamp' = signedMessage payload timestamp) :
    (Binds signer payload payload' timestamp timestamp' ↔
      (timestamp' = timestamp → Utf8.Alike payload' payload → payload' = payload)) ∧
    ((∀ chunk ∈ Utf8.chunks payload, ¬ chunk.Lost) ∨
        (∀ chunk ∈ Utf8.chunks payload' ++ Utf8.chunks payload, chunk.valid = true) →
      Binds signer payload payload' timestamp timestamp') := by
  have verified : signer.verifyWithTimestamp payload' timestamp'
      (signer.signWithTimestamp payload timestamp) = true ↔
      timestamp' = timestamp ∧ Utf8.Alike payload' payload := by
    rw [verifyWithTimestamp, constantTimeCompare_iff, signWithTimestamp, signWithTimestamp, sign,
      sign, String.append_right_inj, hexEncode_injective.eq_iff, ← signedMessage_eq_iff]
    exact ⟨collisionFree, fun same => by rw [same]⟩
  have binds : Binds signer payload payload' timestamp timestamp' ↔
      (timestamp' = timestamp → Utf8.Alike payload' payload → payload' = payload) := by
    rw [Binds, verified]
    constructor
    · exact fun bound times alike => (bound.mp ⟨times, alike⟩).1
    · intro tells
      constructor
      · rintro ⟨times, alike⟩
        exact ⟨tells times alike, times⟩
      · rintro ⟨rfl, rfl⟩
        exact ⟨rfl, (Utf8.fromUtf8Lossy_eq_iff _ _).mp rfl⟩
  exact ⟨binds, fun kept => binds.mpr fun _ alike => alike.eq kept⟩

theorem altered_payload_verifies :
    (WebhookSigner.new "key").verifyWithTimestamp [0xFF] 0
        ((WebhookSigner.new "key").signWithTimestamp [0xEF, 0xBF, 0xBD] 0) = true := by
  have same : signedMessage [0xFF] 0 = signedMessage [0xEF, 0xBF, 0xBD] 0 := by
    decide +kernel
  rw [verifyWithTimestamp, constantTimeCompare_iff, signWithTimestamp, same]
  rfl

theorem timestamped_signature_binds_broken :
    Binds (.new "secret") [0x61, 0xFF] [0xFF, 0x61] 0 0 ∧
      Binds (.new "secret") (asBytes "event") [0xFF] 0 3600 := by
  constructor
  · refine (timestamped_signature_binds_iff (.new "secret") [0x61, 0xFF] [0xFF, 0x61] 0 0
      (fun same => absurd same (by decide +kernel))).1.mpr fun _ alike => ?_
    have texts := (Utf8.fromUtf8Lossy_eq_iff _ _).mpr alike
    exact absurd texts (by decide)
  · exact (timestamped_signature_binds_iff (.new "secret") (asBytes "event") [0xFF] 0 3600
      (fun same => absurd same (by decide +kernel))).2 (.inl (by decide +kernel))

end Hsm.Webhooks
