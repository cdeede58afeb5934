import Hsm.Blockchain.Solana

/-! Accounts of a message are unique exactly if no key occurs with different privileges. -/

namespace Hsm.Blockchain

namespace AccountGroups

def group (groups : AccountGroups) : Bool → Bool → List SolanaPublicKey
  | true, true => groups.writableSigners
  | true, false => groups.readonlySigners
  | false, true => groups.writableNonSigners
  | false, false => groups.readonlyNonSigners

theorem mem_pushNew {keys : List SolanaPublicKey} {key other : SolanaPublicKey} :
    other ∈ pushNew keys key ↔ other ∈ keys ∨ other = key := by
  unfold pushNew
  split_ifs with present
  · exact ⟨.inl, fun either => either.elim id fun same => same ▸ present⟩
  · simp

theorem nodup_pushNew {keys : List SolanaPublicKey} (distinct : keys.Nodup)
    (key : SolanaPublicKey) : (pushNew keys key).Nodup := by
  unfold pushNew
  split_ifs with present
  · exact distinct
  · rw [List.nodup_append]
    refine ⟨distinct, List.nodup_singleton key, fun other member another isKey same => ?_⟩
    rw [List.mem_singleton.mp isKey] at same
    exact present (same ▸ member)

theorem group_addAccount (groups : AccountGroups) (account : AccountMeta)
    (signer writable : Bool) :
    (groups.addAccount account).group signer writable =
      if account.isSigner = signer ∧ account.isWritable = writable then
        pushNew (groups.group signer writable) account.pubkey
      else groups.group signer writable := by
  obtain ⟨key, isSigner, isWritable⟩ := account
  cases isSigner <;> cases isWritable <;> cases signer <;> cases writable <;> rfl

variable {groups : AccountGroups}

theorem mem_foldl_addAccount {accounts : List AccountMeta} {key : SolanaPublicKey}
    {signer writable : Bool} :
    key ∈ (accounts.foldl addAccount groups).group signer writable ↔
      key ∈ groups.group signer writable ∨ AccountMeta.mk key signer writable ∈ accounts := by
  induction accounts generalizing groups with
  | nil => simp
  | cons account rest ih =>
    rw [List.foldl_cons, ih, group_addAccount, List.mem_cons]
    obtain ⟨pubkey, isSigner, isWritable⟩ := account
    split_ifs with flags
    · obtain ⟨rfl, rfl⟩ := flags
      simp [mem_pushNew, or_assoc]
    · have apart : AccountMeta.mk key signer writable ≠ ⟨pubkey, isSigner, isWritable⟩ := by
        intro same
        cases same
        exact flags ⟨rfl, rfl⟩
      simp [apart]

def Distinct (groups : AccountGroups) : Prop :=
  ∀ signer writable, (groups.group signer writable).Nodup

theorem Distinct.addAccount (distinct : groups.Distinct) (account : AccountMeta) :
    (groups.addAccount account).Distinct := by
  intro signer writable
  rw [group_addAccount]
  split_ifs
  · exact nodup_pushNew (distinct signer writable) _
  · exact distinct signer writable

theorem Distinct.foldl_addAccount (distinct : groups.Distinct) (accounts : List AccountMeta) :
    (accounts.foldl AccountGroups.addAccount groups).Distinct := by
  induction accounts generalizing groups with
  | nil => exact distinct
  | cons account rest ih => exact ih (distinct.addAccount account)

theorem group_addProgram (groups : AccountGroups) (programId : SolanaPublicKey)
    (signer writable : Bool) :
    (groups.addProgram programId).group signer writable =
      if (signer = false ∧ writable = false) ∧ programId ∉ groups.writableNonSigners then
        pushNew (groups.group signer writable) programId
      else groups.group signer writable := by
  unfold addProgram
  by_cases readonly : programId ∈ groups.readonlyNonSigners
  · cases signer <;> cases writable <;> simp [group, readonly, pushNew]
  · by_cases isWritable : programId ∈ groups.writableNonSigners
    · cases signer <;> cases writable <;> simp [group, readonly, isWritable]
    · cases signer <;> cases writable <;> simp [group, readonly, isWritable, pushNew]

theorem Distinct.addProgram (distinct : groups.Distinct) (programId : SolanaPublicKey) :
    (groups.addProgram programId).Distinct := by
  intro signer writable
  rw [group_addProgram]
  split_ifs
  · exact nodup_pushNew (distinct signer writable) _
  · exact distinct signer writable

theorem distinct_collect (payer : SolanaPublicKey) (instructions : List Instruction) :
    (collect payer instructions).Distinct := by
  have general : ∀ groups : AccountGroups, groups.Distinct →
      (instructions.foldl addInstruction groups).Distinct := by
    induction instructions with
    | nil => exact fun _ distinct => distinct
    | cons instruction rest ih =>
      intro groups distinct
      exact ih _ ((distinct.addProgram _).foldl_addAccount _)
  refine general _ fun signer writable => ?_
  cases signer <;> cases writable <;> simp [group]

end AccountGroups

def Introduced (instructions : List Instruction) (key : SolanaPublicKey) : Prop :=
  ∃ before instruction after, instructions = before ++ instruction :: after ∧
    instruction.programId = key ∧ ¬ Marked before key false true

theorem marked_append {first second : List Instruction} {key : SolanaPublicKey}
    {signer writable : Bool} :
    Marked (first ++ second) key signer writable ↔
      Marked first key signer writable ∨ Marked second key signer writable := by
  simp only [Marked, List.mem_append, or_and_right, exists_or]

theorem introduced_concat {instructions : List Instruction} {last : Instruction}
    {key : SolanaPublicKey} :
    Introduced (instructions ++ [last]) key ↔
      Introduced instructions key ∨
        last.programId = key ∧ ¬ Marked instructions key false true := by
  constructor
  · rintro ⟨before, instruction, after, split, isProgram, unmarked⟩
    -- The instruction is the last one, or one before it.
    rcases List.eq_nil_or_concat after with rfl | ⟨init, final, rfl⟩
    · obtain ⟨rfl, same⟩ := List.append_inj' split rfl
      cases same
      exact .inr ⟨isProgram, unmarked⟩
    · rw [List.concat_eq_append, ← List.cons_append, ← List.append_assoc] at split
      obtain ⟨rfl, -⟩ := List.append_inj' split rfl
      exact .inl ⟨before, instruction, init, rfl, isProgram, unmarked⟩
  · rintro (⟨before, instruction, after, rfl, isProgram, unmarked⟩ | ⟨isProgram, unmarked⟩)
    · exact ⟨before, instruction, after ++ [last], by simp, isProgram, unmarked⟩
    · exact ⟨instructions, last, [], rfl, isProgram, unmarked⟩

namespace AccountGroups

variable {payer key : SolanaPublicKey} {instructions : List Instruction}

theorem mem_collect {signer writable : Bool} :
    key ∈ (collect payer instructions).group signer writable ↔
      (key = payer ∧ signer = true ∧ writable = true) ∨ Marked instructions key signer writable ∨
        (signer = false ∧ writable = false) ∧ Introduced instructions key := by
  -- Instructions are added at the end, so the induction goes from there.
  induction instructions using List.reverseRecOn generalizing key signer writable with
  | nil =>
    have unmarked : ¬ Marked [] key signer writable := by simp [Marked]
    have notIntroduced : ¬ Introduced [] key := by simp [Introduced]
    simp only [unmarked, notIntroduced, and_false, or_false]
    cases signer <;> cases writable <;> simp [collect, group]
  | append_singleton rest last ih =>
    have step : collect payer (rest ++ [last]) = (collect payer rest).addInstruction last := by
      simp [collect]
    have single : Marked [last] key signer writable ↔
        AccountMeta.mk key signer writable ∈ last.accounts := by simp [Marked]
    have isWritable : last.programId ∈ (collect payer rest).writableNonSigners ↔
        Marked rest last.programId false true := by
      have general : last.programId ∈ (collect payer rest).group false true ↔ _ := ih
      simpa [group] using general
    rw [step, addInstruction, mem_foldl_addAccount, group_addProgram, marked_append, single,
      introduced_concat]
    split_ifs with alone
    all_goals rw [isWritable] at alone
    · rw [mem_pushNew, ih]
      constructor
      · rintro (((first | marked | introduced) | rfl) | account)
        · exact .inl first
        · exact .inr (.inl (.inl marked))
        · exact .inr (.inr ⟨introduced.1, .inl introduced.2⟩)
        · exact .inr (.inr ⟨alone.1, .inr ⟨rfl, alone.2⟩⟩)
        · exact .inr (.inl (.inr account))
      · rintro (first | (marked | account) | ⟨flags, introduced | ⟨rfl, -⟩⟩)
        · exact .inl (.inl (.inl first))
        · exact .inl (.inl (.inr (.inl marked)))
        · exact .inr account
        · exact .inl (.inl (.inr (.inr ⟨flags, introduced⟩)))
        · exact .inl (.inr rfl)
    · rw [ih]
      constructor
      · rintro ((first | marked | introduced) | account)
        · exact .inl first
        · exact .inr (.inl (.inl marked))
        · exact .inr (.inr ⟨introduced.1, .inl introduced.2⟩)
        · exact .inr (.inl (.inr account))
      · rintro (first | (marked | account) | ⟨flags, introduced | ⟨rfl, unmarked⟩⟩)
        · exact .inl (.inl first)
        · exact .inl (.inr (.inl marked))
        · exact .inr account
        · exact .inl (.inr (.inr ⟨flags, introduced⟩))
        · exact absurd ⟨flags, unmarked⟩ alone

theorem nodup_keys_iff {groups : AccountGroups} (distinct : groups.Distinct) :
    groups.keys.Nodup ↔ ∀ key signer writable signer' writable',
      key ∈ groups.group signer writable → key ∈ groups.group signer' writable' →
      signer = signer' ∧ writable = writable' := by
  have one := distinct true true
  have two := distinct true false
  have three := distinct false true
  have four := distinct false false
  simp only [group] at one two three four
  simp only [keys, List.nodup_append, one, two, three, four, true_and, List.mem_append]
  constructor
  · rintro ⟨⟨first, second⟩, third⟩ key signer writable signer' writable' member member'
    cases signer <;> cases writable <;> cases signer' <;> cases writable' <;>
      simp only [group] at member member' <;> grind
  · intro apart
    have different := fun key signer writable signer' writable' =>
      apart key signer writable signer' writable'
    refine ⟨⟨?_, ?_⟩, ?_⟩
    · rintro key member other member' rfl
      exact absurd (different key true true true false member member') (by simp)
    · rintro key (member | member) other member' rfl
      · exact absurd (different key true true false true member member') (by simp)
      · exact absurd (different key true false false true member member') (by simp)
    · rintro key ((member | member) | member) other member' rfl
      · exact absurd (different key true true false false member member') (by simp)
      · exact absurd (different key true false false false member member') (by simp)
      · exact absurd (different key false true false false member member') (by simp)

theorem disjoint_iff_unambiguous :
    (∀ key signer writable signer' writable',
      key ∈ (collect payer instructions).group signer writable →
      key ∈ (collect payer instructions).group signer' writable' →
      signer = signer' ∧ writable = writable') ↔ Unambiguous instructions payer := by
  constructor
  · intro apart
    have isPayer : payer ∈ (collect payer instructions).group true true :=
      mem_collect.mpr (.inl ⟨rfl, rfl, rfl⟩)
    have isMarked : ∀ {key signer writable}, Marked instructions key signer writable →
        key ∈ (collect payer instructions).group signer writable := fun marked =>
      mem_collect.mpr (.inr (.inl marked))
    have isIntroduced : ∀ {key}, Introduced instructions key →
        key ∈ (collect payer instructions).group false false := fun introduced =>
      mem_collect.mpr (.inr (.inr ⟨⟨rfl, rfl⟩, introduced⟩))
    refine ⟨fun key _ _ _ _ marked marked' => apart key _ _ _ _ (isMarked marked)
      (isMarked marked'), fun _ _ marked => apart payer _ _ _ _ (isMarked marked) isPayer, ?_, ?_⟩
    · intro instruction member isPayerProgram
      obtain ⟨before, after, split⟩ := List.append_of_mem member
      by_cases marked : Marked before payer false true
      · have later : Marked instructions payer false true := by
          rw [split, marked_append]
          exact .inl marked
        exact absurd (apart payer _ _ _ _ (isMarked later) isPayer) (by simp)
      · have introduced : Introduced instructions payer :=
          ⟨before, instruction, after, split, isPayerProgram, marked⟩
        exact absurd (apart payer _ _ _ _ (isIntroduced introduced) isPayer) (by simp)
    · intro before instruction after split signer writable marked
      by_cases earlier : Marked before instruction.programId false true
      · have later : Marked instructions instruction.programId false true := by
          rw [split, marked_append]
          exact .inl earlier
        exact ⟨(apart _ _ _ _ _ (isMarked marked) (isMarked later)).1, fun _ => earlier⟩
      · have introduced : Introduced instructions instruction.programId :=
          ⟨before, instruction, after, split, rfl, earlier⟩
        obtain ⟨notSigner, notWritable⟩ :=
          apart _ _ _ _ _ (isMarked marked) (isIntroduced introduced)
        exact ⟨notSigner, fun isWritable => absurd (notWritable.symm.trans isWritable) (by simp)⟩
  · -- A key that was introduced as a program has no other flags than those of a program.
    intro unambiguous key signer writable signer' writable' member member'
    have payerApart : ∀ {key}, key = payer → ¬ Introduced instructions key := by
      rintro key rfl ⟨before, instruction, after, rfl, isProgram, -⟩
      exact unambiguous.payer_program instruction (by simp) isProgram
    have programFlags : ∀ {key signer writable}, Marked instructions key signer writable →
        Introduced instructions key → signer = false ∧ writable = false := by
      rintro key signer writable marked ⟨before, instruction, after, split, rfl, unmarked⟩
      obtain ⟨notSigner, onlyEarlier⟩ :=
        unambiguous.programs before instruction after split signer writable marked
      exact ⟨notSigner, Bool.eq_false_iff.mpr fun isWritable => unmarked (onlyEarlier isWritable)⟩
    rcases mem_collect.mp member with ⟨isPayer, rfl, rfl⟩ | marked | ⟨⟨rfl, rfl⟩, introduced⟩
    · rcases mem_collect.mp member' with ⟨-, rfl, rfl⟩ | marked' | ⟨-, introduced'⟩
      · exact ⟨rfl, rfl⟩
      · obtain ⟨rfl, rfl⟩ := unambiguous.payer_flags _ _ (isPayer ▸ marked')
        exact ⟨rfl, rfl⟩
      · exact absurd introduced' (payerApart isPayer)
    · rcases mem_collect.mp member' with ⟨isPayer, rfl, rfl⟩ | marked' | ⟨⟨rfl, rfl⟩, introduced'⟩
      · exact unambiguous.payer_flags _ _ (isPayer ▸ marked)
      · exact unambiguous.flags _ _ _ _ _ marked marked'
      · exact programFlags marked introduced'
    · rcases mem_collect.mp member' with ⟨isPayer, rfl, rfl⟩ | marked' | ⟨⟨rfl, rfl⟩, -⟩
      · exact absurd introduced (payerApart isPayer)
      · obtain ⟨rfl, rfl⟩ := programFlags marked' introduced
        exact ⟨rfl, rfl⟩
      · exact ⟨rfl, rfl⟩

theorem head?_collect (payer : SolanaPublicKey) (instructions : List Instruction) :
    (collect payer instructions).writableSigners.head? = some payer := by
  have pushed : ∀ {keys : List SolanaPublicKey} (key : SolanaPublicKey), keys.head? = some payer →
      (pushNew keys key).head? = some payer := by
    intro keys key first
    unfold pushNew
    split_ifs
    · exact first
    · rw [List.head?_append, first]
      rfl
  have added : ∀ (accounts : List AccountMeta) (groups : AccountGroups),
      (groups.group true true).head? = some payer →
      ((accounts.foldl addAccount groups).group true true).head? = some payer := by
    intro accounts
    induction accounts with
    | nil => exact fun _ first => first
    | cons account rest ih =>
      intro groups first
      refine ih _ ?_
      rw [group_addAccount]
      split_ifs
      · exact pushed _ first
      · exact first
  have general : ∀ groups : AccountGroups, (groups.group true true).head? = some payer →
      ((instructions.foldl addInstruction groups).group true true).head? = some payer := by
    induction instructions with
    | nil => exact fun _ first => first
    | cons instruction rest ih =>
      intro groups first
      refine ih _ (added _ _ ?_)
      rw [group_addProgram]
      simpa using first
  exact general _ rfl

theorem mem_keys {groups : AccountGroups} :
    key ∈ groups.keys ↔ ∃ signer writable, key ∈ groups.group signer writable := by
  simp only [keys, List.mem_append, Bool.exists_bool, group]
  constructor
  · rintro (((one | two) | three) | four)
    · exact .inr (.inr one)
    · exact .inr (.inl two)
    · exact .inl (.inr three)
    · exact .inl (.inl four)
  · rintro ((four | three) | (two | one))
    · exact .inr four
    · exact .inl (.inr three)
    · exact .inl (.inl (.inr two))
    · exact .inl (.inl (.inl one))

theorem mem_keys_collect :
    key ∈ (collect payer instructions).keys ↔ key ∈ mentioned instructions payer := by
  rw [mem_keys]
  simp only [mem_collect, mentioned, List.mem_cons, List.mem_flatMap, List.mem_map]
  constructor
  · rintro ⟨signer, writable, ⟨isPayer, -⟩ | ⟨instruction, member, account⟩ |
      ⟨-, before, instruction, after, rfl, isProgram, -⟩⟩
    · exact .inl isPayer
    · exact .inr ⟨instruction, member, .inr ⟨_, account, rfl⟩⟩
    · exact .inr ⟨instruction, by simp, .inl isProgram.symm⟩
  · rintro (isPayer | ⟨instruction, member, isProgram | ⟨account, isAccount, isKey⟩⟩)
    · exact ⟨true, true, .inl ⟨isPayer, rfl, rfl⟩⟩
    · obtain ⟨before, after, split⟩ := List.append_of_mem member
      by_cases marked : Marked before key false true
      · refine ⟨false, true, .inr (.inl ?_)⟩
        rw [split, marked_append]
        exact .inl marked
      · exact ⟨false, false, .inr (.inr ⟨⟨rfl, rfl⟩, before, instruction, after, split,
          isProgram.symm, marked⟩)⟩
    · refine ⟨account.isSigner, account.isWritable, .inr (.inl ⟨instruction, member, ?_⟩)⟩
      rw [← isKey]
      exact isAccount

end AccountGroups

open AccountGroups in
theorem header_counts {payer : SolanaPublicKey} {instructions : List Instruction}
    (unique : (collect payer instructions).keys.Nodup)
    (few : (mentioned instructions payer).toFinset.card ≤ 256) :
    (collect payer instructions).writableSigners.length +
        (collect payer instructions).readonlySigners.length < 256 ∧
      (collect payer instructions).readonlyNonSigners.length < 256 := by
  have count : (collect payer instructions).keys.length ≤ 256 := by
    rw [← List.toFinset_card_of_nodup unique]
    refine le_trans (Finset.card_le_card fun key member => ?_) few
    rw [List.mem_toFinset] at member ⊢
    exact mem_keys_collect.mp member
  have first : 0 < (collect payer instructions).writableSigners.length := by
    refine List.length_pos_iff.mpr fun empty => ?_
    have isPayer := head?_collect payer instructions
    rw [empty] at isPayer
    cases isPayer
  simp only [keys, List.length_append] at count
  refine ⟨?_, by omega⟩
  cases instructions with
  | nil => exact Nat.lt_of_sub_eq_succ rfl
  | cons instruction rest =>
    -- The program of the first instruction does not sign.
    have program : instruction.programId ∈
        (collect payer (instruction :: rest)).readonlyNonSigners := by
      have isProgram : instruction.programId ∈
          (collect payer (instruction :: rest)).group false false :=
        mem_collect.mpr (.inr (.inr ⟨⟨rfl, rfl⟩, [], instruction, rest, rfl, rfl,
          by simp [Marked]⟩))
      exact isProgram
    have positive := List.length_pos_of_mem program
    omega

section

variable (instructions : List Instruction) (payer : SolanaPublicKey)
  (recentBlockhash : Vector UInt8 32)

open AccountGroups

theorem signerKeys_new
    (few : (collect payer instructions).writableSigners.length +
      (collect payer instructions).readonlySigners.length < 256) :
    (Message.new instructions payer recentBlockhash).signerKeys =
      (collect payer instructions).writableSigners ++
        (collect payer instructions).readonlySigners := by
  simp only [Message.signerKeys, Message.new, keys, UInt8.toNat_ofNat']
  rw [Nat.mod_eq_of_lt few, List.append_assoc, List.take_left' (by rw [List.length_append])]

theorem writableKeys_new
    (few : (collect payer instructions).writableSigners.length +
      (collect payer instructions).readonlySigners.length < 256)
    (fewReadonly : (collect payer instructions).readonlyNonSigners.length < 256) :
    (Message.new instructions payer recentBlockhash).writableKeys =
      (collect payer instructions).writableSigners ++
        (collect payer instructions).writableNonSigners := by
  have fewSigned : (collect payer instructions).readonlySigners.length < 256 := by omega
  simp only [Message.writableKeys, Message.new, keys, UInt8.toNat_ofNat']
  rw [Nat.mod_eq_of_lt few, Nat.mod_eq_of_lt fewSigned, Nat.mod_eq_of_lt fewReadonly]
  generalize collect payer instructions = groups
  congr 1
  · rw [Nat.add_sub_cancel, List.append_assoc, List.append_assoc, List.take_left]
  · rw [List.append_assoc, List.drop_left' (by rw [List.length_append]), List.take_left']
    simp only [List.length_append]
    omega

end

/-- Accounts are unique with the right privileges exactly if no key occurs with different ones. -/
theorem message_privileged_iff {instructions : List Instruction} {payer : SolanaPublicKey}
    {recentBlockhash : Vector UInt8 32}
    (few : (mentioned instructions payer).toFinset.card ≤ 256) :
    (Message.new instructions payer recentBlockhash).Privileged instructions payer ↔
      Unambiguous instructions payer := by
  have distinct := AccountGroups.distinct_collect payer instructions
  rw [← AccountGroups.disjoint_iff_unambiguous, ← AccountGroups.nodup_keys_iff distinct]
  constructor
  · exact fun privileged => privileged.unique
  · intro unique
    obtain ⟨fewSigners, fewReadonly⟩ := header_counts unique few
    have signers := signerKeys_new instructions payer recentBlockhash fewSigners
    have writable := writableKeys_new instructions payer recentBlockhash fewSigners fewReadonly
    refine ⟨unique, fun key => AccountGroups.mem_keys_collect, ?_, fun key => ?_, fun key => ?_⟩
    · have first := AccountGroups.head?_collect payer instructions
      simp only [Message.new, AccountGroups.keys, List.append_assoc, List.head?_append, first]
      rfl
    · rw [signers, List.mem_append]
      have one : key ∈ (AccountGroups.collect payer instructions).group true true ↔ _ :=
        AccountGroups.mem_collect
      have two : key ∈ (AccountGroups.collect payer instructions).group true false ↔ _ :=
        AccountGroups.mem_collect
      simp only [AccountGroups.group] at one two
      rw [one, two]
      simp only [and_true, Bool.true_eq_false, Bool.false_eq_true, and_false, false_and, or_false,
        false_or, Bool.exists_bool]
      tauto
    · rw [writable, List.mem_append]
      have one : key ∈ (AccountGroups.collect payer instructions).group true true ↔ _ :=
        AccountGroups.mem_collect
      have two : key ∈ (AccountGroups.collect payer instructions).group false true ↔ _ :=
        AccountGroups.mem_collect
      simp only [AccountGroups.group] at one two
      rw [one, two]
      simp only [and_true, Bool.true_eq_false, Bool.false_eq_true, and_false, false_and, or_false,
        false_or, Bool.exists_bool]
      tauto

namespace Known

def key (byte : UInt8) : SolanaPublicKey := Vector.replicate 32 byte

def payingTransfer (signs : Bool) : List Instruction :=
  [⟨key 2, [⟨key 1, signs, true⟩, ⟨key 3, false, true⟩], []⟩]

end Known

theorem payer_listed_twice :
    (Message.new (Known.payingTransfer false) (Known.key 1) (Known.key 0)).accountKeys =
        [Known.key 1, Known.key 1, Known.key 3, Known.key 2] ∧
      ¬ (Message.new (Known.payingTransfer false) (Known.key 1) (Known.key 0)).Privileged
        (Known.payingTransfer false) (Known.key 1) := by
  have listed : (Message.new (Known.payingTransfer false) (Known.key 1) (Known.key 0)).accountKeys =
      [Known.key 1, Known.key 1, Known.key 3, Known.key 2] := by decide +kernel
  refine ⟨listed, fun privileged => ?_⟩
  have unique := privileged.unique
  rw [listed] at unique
  exact absurd unique (by simp)

theorem message_privileged_iff_transfer :
    (Message.new (Known.payingTransfer true) (Known.key 1) (Known.key 0)).Privileged
      (Known.payingTransfer true) (Known.key 1) := by
  have marked : ∀ {key signer writable}, Marked (Known.payingTransfer true) key signer writable ↔
      key = Known.key 1 ∧ signer = true ∧ writable = true ∨
        key = Known.key 3 ∧ signer = false ∧ writable = true := by
    simp [Marked, Known.payingTransfer]
  have apart : Known.key 1 ≠ Known.key 3 ∧ Known.key 2 ≠ Known.key 1 ∧
      Known.key 2 ≠ Known.key 3 := by decide +kernel
  refine (message_privileged_iff (by decide +kernel)).mpr ⟨?_, ?_, ?_, ?_⟩
  · intro key signer writable signer' writable' first second
    rcases marked.mp first with ⟨rfl, rfl, rfl⟩ | ⟨rfl, rfl, rfl⟩
    · rcases marked.mp second with ⟨-, rfl, rfl⟩ | ⟨same, -⟩
      · exact ⟨rfl, rfl⟩
      · exact absurd same apart.1
    · rcases marked.mp second with ⟨same, -⟩ | ⟨-, rfl, rfl⟩
      · exact absurd same.symm apart.1
      · exact ⟨rfl, rfl⟩
  · intro signer writable isMarked
    rcases marked.mp isMarked with ⟨-, rfl, rfl⟩ | ⟨same, -⟩
    · exact ⟨rfl, rfl⟩
    · exact absurd same apart.1
  · intro instruction member
    rw [List.mem_singleton.mp member]
    exact apart.2.1
  · intro before instruction after split signer writable isMarked
    have isOnly : instruction ∈ Known.payingTransfer true := by
      rw [split]
      simp
    rw [List.mem_singleton.mp isOnly] at isMarked
    rcases marked.mp isMarked with ⟨same, -⟩ | ⟨same, -⟩
    · exact absurd same apart.2.1
    · exact absurd same apart.2.2

end Hsm.Blockchain
