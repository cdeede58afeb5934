import Hsm.Threshold.EcdsaDkgLaws

/-! What is left of a batch of packages that a participant of the key generation rejects. -/

namespace Hsm.Threshold

/-- The first item that is not skipped is rejected, so that none before it was stored. -/
def RejectsFirst {σ α : Type} (accept : σ → α → Outcome σ) (skips : α → Prop) (state : σ)
    (items : List α) : Prop :=
  ∃ skipped item rest failure, items = skipped ++ item :: rest ∧
    (∀ other ∈ skipped, skips other) ∧ accept state item = .error failure

section

variable {σ α : Type} {accept : σ → α → Outcome σ} {skips : α → Prop} {state after : σ}
  {items : List α} {failure : Failure}
  (skipped : ∀ item next, skips item → accept state item = .ok next → next = state)

include skipped

theorem RejectsFirst.unchanged (rejects : RejectsFirst accept skips state items) :
    (acceptAll accept state items).1 = state := by
  obtain ⟨before, item, rest, failure, rfl, all, rejected⟩ := rejects
  induction before with
  | nil => rw [List.nil_append, acceptAll, rejected]
  | cons first before ih =>
    rw [List.forall_mem_cons] at all
    rw [List.cons_append, acceptAll]
    split
    · rename_i next accepted
      rw [skipped first next all.1 accepted]
      exact ih all.2
    · rfl

/-- A batch fails at the first item that is not skipped, or has stored that one before. -/
theorem rejectsFirst_or_stored (known : σ → α → Prop)
    (stores : ∀ item next, ¬ skips item → accept state item = .ok next → known next item)
    (keeps : ∀ item state next other, known state item → accept state other = .ok next →
      known next item)
    (failed : acceptAll accept state items = (after, .error failure)) :
    RejectsFirst accept skips state items ∨
      ∃ item next, accept state item = .ok next ∧ known after item := by
  induction items with
  | nil => cases failed
  | cons item rest ih =>
    rw [acceptAll] at failed
    cases accepted : accept state item with
    | error reason => exact .inl ⟨[], item, rest, reason, rfl, by simp, accepted⟩
    | ok next =>
      simp only [accepted] at failed
      by_cases skip : skips item
      · rw [skipped item next skip accepted] at failed
        refine (ih failed).imp_left ?_
        rintro ⟨before, offender, others, reason, rfl, all, rejected⟩
        exact ⟨item :: before, offender, others, reason, rfl,
          List.forall_mem_cons.mpr ⟨skip, all⟩, rejected⟩
      · have ends : known (acceptAll accept next rest).1 item := acceptAll_invariant (known · item)
          (fun state next other _ => keeps item state next other) next
          (stores item next skip accepted)
        rw [failed] at ends
        exact .inr ⟨item, next, accepted, ends⟩

end

section

variable {F P : Type} [Field F] [AddCommGroup P] [Module F P] [DecidableEq P] (suite : Suite F P)

/-- Two participants answer every further call alike, and finalize alike. -/
def EcdsaDkg.BehavesAs (first second : EcdsaDkg) : Prop :=
  ∀ calls, (trace (serve suite) first calls).2 = (trace (serve suite) second calls).2 ∧
    (trace (serve suite) first calls).1.finalize suite =
      (trace (serve suite) second calls).1.finalize suite

variable {suite} {dkg after : EcdsaDkg}

theorem EcdsaDkg.BehavesAs.answer (alike : after.BehavesAs suite dkg) (call : DkgCall) :
    (after.answer suite call).2 = (dkg.answer suite call).2 := by
  have replies := (alike [call]).1
  simpa [trace, EcdsaDkg.serve] using replies

namespace EcdsaDkg

/-- The commitments of another participant are there, so that they are refused from now on. -/
def KnowsCommitments (id : ParticipantId) (dkg : EcdsaDkg) (package : EcdsaDkgRound1Package) :
    Prop :=
  dkg.ownCommitments ≠ [] ∧ dkg.participantId = id ∧ package.sender ≠ id ∧
    package.sender.value ∈ dkg.receivedCommitments

def KnowsShare (id : ParticipantId) (dkg : EcdsaDkg) (package : EcdsaDkgRound2Package) : Prop :=
  dkg.state = .round1Complete ∧ dkg.participantId = id ∧ package.sender ≠ id ∧
    package.sender.value ∈ dkg.receivedShares

theorem KnowsCommitments.refused {id : ParticipantId} {package : EcdsaDkgRound1Package}
    {next : EcdsaDkg} (given : dkg.ownCommitments ≠ [])
    (accepted : dkg.acceptCommitments suite package = .ok next)
    (knows : KnowsCommitments id after package) : ¬ after.BehavesAs suite dkg := by
  obtain ⟨isGiven, rfl, apart, known⟩ := knows
  intro alike
  have replies := alike.answer (.round1Receive [package])
  cases refusal : after.acceptCommitments suite package with
  | ok later =>
    obtain ⟨-, ⟨own, -⟩ | ⟨-, isNew, -⟩⟩ := of_acceptCommitments refusal
    · exact apart own
    · exact isNew known
  | error failure =>
    simp only [answer, round1ReceiveCommitments, given, isGiven, if_false, acceptAll, accepted,
      refusal] at replies
    split at replies <;> cases replies

theorem KnowsShare.refused {id : ParticipantId} {package : EcdsaDkgRound2Package}
    {next : EcdsaDkg} (ready : dkg.state = .round1Complete)
    (accepted : dkg.acceptShare suite package = .ok next)
    (knows : KnowsShare id after package) : ¬ after.BehavesAs suite dkg := by
  obtain ⟨isReady, rfl, apart, known⟩ := knows
  intro alike
  have replies := alike.answer (.round2Receive [package])
  cases refusal : after.acceptShare suite package with
  | ok later =>
    obtain ⟨-, ⟨own, -⟩ | ⟨-, isNew, -⟩⟩ := of_acceptShare refusal
    · exact apart own
    · exact isNew known
  | error failure =>
    simp only [answer, round2ReceiveShares, ready, isReady, ne_eq, not_true, if_false, acceptAll,
      accepted, refusal] at replies
    split at replies <;> cases replies

theorem behavesAs_iff_rejectsFirst {α : Type} {accept : EcdsaDkg → α → Outcome EcdsaDkg}
    {skips : α → Prop} {items : List α} {failure : Failure} (known : EcdsaDkg → α → Prop)
    (stops : acceptAll accept dkg items = (after, .error failure))
    (skipped : ∀ item next, skips item → accept dkg item = .ok next → next = dkg)
    (stores : ∀ item next, ¬ skips item → accept dkg item = .ok next → known next item)
    (keeps : ∀ item state next other, known state item → accept state other = .ok next →
      known next item)
    (refused : ∀ item next, accept dkg item = .ok next → known after item →
      ¬ after.BehavesAs suite dkg) :
    after.BehavesAs suite dkg ↔ RejectsFirst accept skips dkg items := by
  constructor
  · intro alike
    refine (rejectsFirst_or_stored skipped known stores keeps stops).resolve_right ?_
    rintro ⟨item, next, accepted, isKnown⟩
    exact refused item next accepted isKnown alike
  · intro rejects
    have unchanged := rejects.unchanged skipped
    rw [stops] at unchanged
    exact unchanged ▸ fun _ => ⟨rfl, rfl⟩

/--
A participant that rejects a batch goes on as if it had never received it exactly if it rejects the
first package that is not its own, or is in no state to receive one.
-/
theorem rejected_batch_iff {failure : Failure} :
    (∀ packages, dkg.round1ReceiveCommitments suite packages = (after, .error failure) →
      (after.BehavesAs suite dkg ↔ dkg.ownCommitments = [] ∨
        RejectsFirst (acceptCommitments suite) (·.sender = dkg.participantId) dkg packages)) ∧
    ∀ packages, dkg.round2ReceiveShares suite packages = (after, .error failure) →
      (after.BehavesAs suite dkg ↔ dkg.state ≠ .round1Complete ∨
        RejectsFirst (acceptShare suite) (·.sender = dkg.participantId) dkg packages) := by
  constructor
  · intro packages failed
    rw [round1ReceiveCommitments] at failed
    split at failed
    · rename_i none
      cases failed
      exact iff_of_true (fun _ => ⟨rfl, rfl⟩) (.inl none)
    rename_i given
    rw [or_iff_right given]
    split at failed
    · rename_i stopped
      refine behavesAs_iff_rejectsFirst (KnowsCommitments dkg.participantId) (stopped.trans failed)
        ?_ ?_ ?_ fun _ _ accepted knows => knows.refused given accepted
      · intro package next own accepted
        exact ((of_acceptCommitments accepted).2.resolve_right fun other => other.1 own).2
      · intro package next apart accepted
        obtain ⟨-, ⟨own, -⟩ | ⟨-, -, -, -, rfl⟩⟩ := of_acceptCommitments accepted
        · exact absurd own apart
        · exact ⟨given, rfl, apart, by simp⟩
      · rintro package state next other ⟨isGiven, isSelf, apart, known⟩ accepted
        obtain ⟨-, ⟨-, rfl⟩ | ⟨-, -, -, -, rfl⟩⟩ := of_acceptCommitments accepted
        · exact ⟨isGiven, isSelf, apart, known⟩
        · exact ⟨isGiven, isSelf, apart, by simp [known]⟩
    · split at failed <;> cases failed
  · intro packages failed
    rw [round2ReceiveShares] at failed
    split at failed
    · rename_i early
      cases failed
      exact iff_of_true (fun _ => ⟨rfl, rfl⟩) (.inl early)
    rename_i ready
    rw [or_iff_right ready]
    split at failed
    · rename_i stopped
      refine behavesAs_iff_rejectsFirst (KnowsShare dkg.participantId) (stopped.trans failed)
        ?_ ?_ ?_ fun _ _ accepted knows => knows.refused (not_not.mp ready) accepted
      · intro package next own accepted
        exact ((of_acceptShare accepted).2.resolve_right fun other => other.1 own).2
      · intro package next apart accepted
        obtain ⟨-, ⟨own, -⟩ | ⟨-, -, -, rfl⟩⟩ := of_acceptShare accepted
        · exact absurd own apart
        · exact ⟨not_not.mp ready, rfl, apart, by simp⟩
      · rintro package state next other ⟨isReady, isSelf, apart, known⟩ accepted
        obtain ⟨-, ⟨-, rfl⟩ | ⟨-, -, -, rfl⟩⟩ := of_acceptShare accepted
        · exact ⟨isReady, isSelf, apart, known⟩
        · exact ⟨isReady, isSelf, apart, by simp [known]⟩
    · split at failed <;> cases failed

end EcdsaDkg

end

namespace Known

def committed : EcdsaDkg :=
  (trace (EcdsaDkg.serve suite) (generating ⟨1⟩) [.round1Generate (constantDraws 3)]).1

def strangePackage : EcdsaDkgRound1Package := ⟨⟨3⟩, []⟩

def receive (dkg : EcdsaDkg) : List EcdsaDkgRound1Package → EcdsaDkg × Outcome Unit :=
  dkg.round1ReceiveCommitments suite

end Known

theorem resubmitted_package_refused :
    (Known.receive Known.committed [Known.round1Package ⟨2⟩, Known.strangePackage]).2 =
      .fail (.invalidParticipant "Unknown participant Participant(3) in Round 1") ∧
    (Known.receive Known.committed [Known.round1Package ⟨2⟩]).2 = .ok () ∧
    (Known.receive (Known.receive Known.committed
        [Known.round1Package ⟨2⟩, Known.strangePackage]).1 [Known.round1Package ⟨2⟩]).2 =
      .fail (.invalidParticipant "Duplicate Round 1 package from Participant(2)") := by
  decide +kernel

theorem rejected_batch_of_stranger :
    (Known.receive Known.committed [Known.strangePackage, Known.round1Package ⟨2⟩]).1.BehavesAs
      Known.suite Known.committed := by
  have among : (⟨3⟩ : ParticipantId) ∉ Known.committed.config.participants := by decide +kernel
  have refused : Known.committed.acceptCommitments Known.suite Known.strangePackage =
      .fail (.invalidParticipant "Unknown participant Participant(3) in Round 1") := by
    simp only [EcdsaDkg.acceptCommitments, Known.strangePackage, among, decide_false]
    rfl
  have failed : (Known.receive Known.committed
      [Known.strangePackage, Known.round1Package ⟨2⟩]).2 =
      .fail (.invalidParticipant "Unknown participant Participant(3) in Round 1") := by
    decide +kernel
  exact (EcdsaDkg.rejected_batch_iff.1 _ (Prod.ext rfl failed)).mpr
    (.inr ⟨[], _, _, _, rfl, by simp, refused⟩)

end Hsm.Threshold
