import Hsm.Lib.Bytes
import Mathlib.Data.List.Nodup
import Mathlib.Data.Finset.Card

/-! Solana messages: the accounts of all instructions, ordered by their privileges. -/

namespace Hsm.Blockchain

abbrev SolanaPublicKey := Vector UInt8 32

structure AccountMeta where
  pubkey : SolanaPublicKey
  isSigner : Bool
  isWritable : Bool
  deriving DecidableEq

structure Instruction where
  programId : SolanaPublicKey
  accounts : List AccountMeta
  data : Bytes
  deriving DecidableEq

structure MessageHeader where
  numRequiredSignatures : UInt8
  numReadonlySignedAccounts : UInt8
  numReadonlyUnsignedAccounts : UInt8
  deriving DecidableEq, Repr

structure CompiledInstruction where
  programIdIndex : UInt8
  accounts : List UInt8
  data : Bytes
  deriving DecidableEq, Repr

structure Message where
  header : MessageHeader
  accountKeys : List SolanaPublicKey
  recentBlockhash : Vector UInt8 32
  instructions : List CompiledInstruction
  deriving DecidableEq

/-- The keys collected so far, in four groups. -/
structure AccountGroups where
  writableSigners : List SolanaPublicKey
  readonlySigners : List SolanaPublicKey
  writableNonSigners : List SolanaPublicKey
  readonlyNonSigners : List SolanaPublicKey
  deriving DecidableEq

namespace AccountGroups

def pushNew (keys : List SolanaPublicKey) (key : SolanaPublicKey) : List SolanaPublicKey :=
  if key ∈ keys then keys else keys ++ [key]

variable (groups : AccountGroups)

def addProgram (programId : SolanaPublicKey) : AccountGroups :=
  if programId ∈ groups.readonlyNonSigners ∨ programId ∈ groups.writableNonSigners then groups
  else { groups with readonlyNonSigners := groups.readonlyNonSigners ++ [programId] }

def addAccount (account : AccountMeta) : AccountGroups :=
  if account.isSigner then
    if account.isWritable then
      { groups with writableSigners := pushNew groups.writableSigners account.pubkey }
    else { groups with readonlySigners := pushNew groups.readonlySigners account.pubkey }
  else if account.isWritable then
    { groups with writableNonSigners := pushNew groups.writableNonSigners account.pubkey }
  else { groups with readonlyNonSigners := pushNew groups.readonlyNonSigners account.pubkey }

def addInstruction (instruction : Instruction) : AccountGroups :=
  instruction.accounts.foldl addAccount (groups.addProgram instruction.programId)

def collect (payer : SolanaPublicKey) (instructions : List Instruction) : AccountGroups :=
  instructions.foldl addInstruction ⟨[payer], [], [], []⟩

def keys : List SolanaPublicKey :=
  groups.writableSigners ++ groups.readonlySigners ++ groups.writableNonSigners ++
    groups.readonlyNonSigners

end AccountGroups

def Instruction.compile (instruction : Instruction) (accountKeys : List SolanaPublicKey) :
    CompiledInstruction :=
  ⟨.ofNat (accountKeys.idxOf instruction.programId),
    instruction.accounts.map fun account => .ofNat (accountKeys.idxOf account.pubkey),
    instruction.data⟩

namespace Message

def new (instructions : List Instruction) (payer : SolanaPublicKey)
    (recentBlockhash : Vector UInt8 32) : Message :=
  let groups := AccountGroups.collect payer instructions
  let header : MessageHeader := {
    numRequiredSignatures :=
      .ofNat (groups.writableSigners.length + groups.readonlySigners.length)
    numReadonlySignedAccounts := .ofNat groups.readonlySigners.length
    numReadonlyUnsignedAccounts := .ofNat groups.readonlyNonSigners.length }
  ⟨header, groups.keys, recentBlockhash,
    instructions.map fun instruction => instruction.compile groups.keys⟩

def signerKeys (message : Message) : List SolanaPublicKey :=
  message.accountKeys.take message.header.numRequiredSignatures.toNat

def writableKeys (message : Message) : List SolanaPublicKey :=
  let signed := message.header.numRequiredSignatures.toNat
  message.accountKeys.take (signed - message.header.numReadonlySignedAccounts.toNat) ++
    (message.accountKeys.drop signed).take
      (message.accountKeys.length - signed - message.header.numReadonlyUnsignedAccounts.toNat)

end Message

def Marked (instructions : List Instruction) (key : SolanaPublicKey) (signer writable : Bool) :
    Prop :=
  ∃ instruction ∈ instructions, AccountMeta.mk key signer writable ∈ instruction.accounts

def mentioned (instructions : List Instruction) (payer : SolanaPublicKey) :
    List SolanaPublicKey :=
  payer :: instructions.flatMap fun instruction =>
    instruction.programId :: instruction.accounts.map AccountMeta.pubkey

structure Message.Privileged (message : Message) (instructions : List Instruction)
    (payer : SolanaPublicKey) : Prop where
  unique : message.accountKeys.Nodup
  complete : ∀ key, key ∈ message.accountKeys ↔ key ∈ mentioned instructions payer
  payer_first : message.accountKeys.head? = some payer
  signers : ∀ key, key ∈ message.signerKeys ↔
    key = payer ∨ ∃ writable, Marked instructions key true writable
  writable : ∀ key, key ∈ message.writableKeys ↔
    key = payer ∨ ∃ signer, Marked instructions key signer true

/-- No key occurs with different privileges. -/
structure Unambiguous (instructions : List Instruction) (payer : SolanaPublicKey) : Prop where
  flags : ∀ key signer writable signer' writable', Marked instructions key signer writable →
    Marked instructions key signer' writable' → signer = signer' ∧ writable = writable'
  payer_flags : ∀ signer writable, Marked instructions payer signer writable →
    signer = true ∧ writable = true
  payer_program : ∀ instruction ∈ instructions, instruction.programId ≠ payer
  programs : ∀ before instruction after, instructions = before ++ instruction :: after →
    ∀ signer writable, Marked instructions instruction.programId signer writable →
      signer = false ∧ (writable = true → Marked before instruction.programId false true)

end Hsm.Blockchain
