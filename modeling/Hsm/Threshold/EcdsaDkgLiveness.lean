import Hsm.Threshold.EcdsaDkgLaws

/-! Distributed key generation among honest participants: in which order of calls it completes. -/

namespace Hsm.Threshold

/-- Calls are made in an order that completes. -/
def EcdsaDkg.InOrder (dkg : EcdsaDkg) : DkgCall → Prop
  | .round1Receive _ => dkg.state ≠ .round2Complete
  | .round2Generate => ∃ sender ∈ dkg.config.participants, sender ≠ dkg.participantId ∧
    sender.value ∉ dkg.receivedShares
  | _ => True

instance EcdsaDkg.InOrder.decidable (dkg : EcdsaDkg) : (call : DkgCall) → Decidable (dkg.InOrder call)
  | .round1Receive _ => inferInstanceAs (Decidable (dkg.state ≠ .round2Complete))
  | .round2Generate => inferInstanceAs (Decidable (∃ sender ∈ dkg.config.participants,
    sender ≠ dkg.participantId ∧ sender.value ∉ dkg.receivedShares))
  | .round1Generate _ => .isTrue trivial
  | .round2Receive _ => .isTrue trivial

def DkgReply.isOk : DkgReply → Bool
  | .failed _ => false
  | _ => true

section

variable {F P : Type} [Field F] [AddCommGroup P] [Module F P] [DecidableEq P] (suite : Suite F P)

def EcdsaDkg.Succeeds (dkg : EcdsaDkg) (call : DkgCall) : Prop :=
  (dkg.answer suite call).2.isOk = true

instance EcdsaDkg.Succeeds.decidable (dkg : EcdsaDkg) (call : DkgCall) :
    Decidable (dkg.Succeeds suite call) :=
  inferInstanceAs (Decidable ((dkg.answer suite call).2.isOk = true))

variable {suite} {config : DkgConfig} {id : ParticipantId} {dkg : EcdsaDkg}
  {history : List DkgEvent}

def EcdsaDkg.HasAll (dkg : EcdsaDkg) : Prop :=
  ∀ sender ∈ dkg.config.participants, sender.value ∈ dkg.receivedShares

/-- What holds while calls succeed in order. -/
structure EcdsaDkg.Live (dkg : EcdsaDkg) (history : List DkgEvent) : Prop where
  generated : ∀ packages, (.round2Generate, .round2 packages) ∈ history →
    dkg.participantId.value ∈ dkg.receivedShares
  received : ∀ packages, (.round2Receive packages, .received) ∈ history →
    ∀ package ∈ packages, package.sender ≠ dkg.participantId →
      package.sender.value ∈ dkg.receivedShares
  complete : dkg.HasAll → dkg.state = .round2Complete

variable {next : EcdsaDkg} {packages : List EcdsaDkgRound2Package}

theorem EcdsaDkg.acceptAll_shares
    (accepted : acceptAll (EcdsaDkg.acceptShare suite) dkg packages = (next, .ok ())) :
    next.config = dkg.config ∧ next.participantId = dkg.participantId ∧
    (∀ key, key ∈ dkg.receivedShares → key ∈ next.receivedShares) ∧
    ∀ package ∈ packages, package.sender ≠ dkg.participantId →
      package.sender.value ∈ next.receivedShares := by
  induction packages generalizing dkg with
  | nil =>
    cases accepted
    exact ⟨rfl, rfl, fun key member => member, by simp⟩
  | cons package rest ih =>
    rw [acceptAll] at accepted
    split at accepted
    · rename_i step isStep
      obtain ⟨sameConfig, sameId, kept, stored⟩ := ih accepted
      obtain ⟨-, ⟨own, rfl⟩ | ⟨apart, -, -, rfl⟩⟩ := EcdsaDkg.of_acceptShare isStep
      · refine ⟨sameConfig, sameId, kept, fun other member isOther => ?_⟩
        rcases List.mem_cons.mp member with rfl | isRest
        · exact absurd own isOther
        · exact stored other isRest isOther
      · refine ⟨sameConfig, sameId, fun key member => kept key ?_, fun other member isOther => ?_⟩
        · exact (Dict.mem_insert _ _ _ _).mpr (.inr member)
        · rcases List.mem_cons.mp member with rfl | isRest
          · exact kept _ ((Dict.mem_insert _ _ _ _).mpr (.inl rfl))
          · exact stored other isRest isOther
    · cases accepted

omit [DecidableEq P] in
variable (suite dkg) in
theorem EcdsaDkg.round1Receive_shares (packages : List EcdsaDkgRound1Package) :
    (dkg.round1ReceiveCommitments suite packages).1.receivedShares = dkg.receivedShares ∧
    (dkg.round1ReceiveCommitments suite packages).1.config = dkg.config ∧
    (dkg.round1ReceiveCommitments suite packages).1.participantId = dkg.participantId := by
  have kept : (acceptAll (EcdsaDkg.acceptCommitments suite) dkg packages).1.receivedShares =
      dkg.receivedShares ∧
      (acceptAll (EcdsaDkg.acceptCommitments suite) dkg packages).1.config = dkg.config ∧
      (acceptAll (EcdsaDkg.acceptCommitments suite) dkg packages).1.participantId =
        dkg.participantId := by
    refine acceptAll_invariant (fun next => next.receivedShares = dkg.receivedShares ∧
      next.config = dkg.config ∧ next.participantId = dkg.participantId) ?_ dkg ⟨rfl, rfl, rfl⟩
    intro before next package _ same accepted
    obtain ⟨-, ⟨-, rfl⟩ | ⟨-, -, -, -, rfl⟩⟩ := EcdsaDkg.of_acceptCommitments accepted
    · exact same
    · exact same
  unfold EcdsaDkg.round1ReceiveCommitments
  split
  · exact ⟨rfl, rfl, rfl⟩
  · split
    · rename_i next failure isNext
      rw [isNext] at kept
      exact kept
    · rename_i next isNext
      rw [isNext] at kept
      split
      · exact kept
      · exact kept

theorem EcdsaDkg.Sound.size_of_hasAll (sound : dkg.Sound suite config id history)
    (distinct : config.participants.Nodup) (all : dkg.HasAll) :
    dkg.receivedShares.size = config.participants.length := by
  rw [EcdsaDkg.HasAll, sound.config_eq] at all
  have perm : dkg.receivedShares.keys.Perm (config.participants.map ParticipantId.value) := by
    refine Dict.perm_keys_of_mem (ParticipantId.nodup_values distinct) fun key => ?_
    rw [List.mem_map]
    constructor
    · intro present
      obtain ⟨share, found⟩ := Option.isSome_iff_exists.mp
        (Std.ExtTreeMap.mem_iff_isSome_getElem?.mp present)
      obtain ⟨-, sender, among, named, -⟩ := sound.shares key share found
      exact ⟨sender, among, named⟩
    · rintro ⟨sender, among, rfl⟩
      exact all sender among
  rw [← Std.ExtTreeMap.length_keys, perm.length_eq, List.length_map]

theorem EcdsaDkg.Live.frame {call : DkgCall} {reply : DkgReply} (live : dkg.Live history)
    (sameShares : next.receivedShares = dkg.receivedShares) (sameConfig : next.config = dkg.config)
    (sameId : next.participantId = dkg.participantId)
    (stays : dkg.state = .round2Complete → next.state = .round2Complete)
    (apart : call ≠ .round2Generate ∧ ∀ packages, call ≠ .round2Receive packages) :
    next.Live (history ++ [(call, reply)]) := by
  refine ⟨fun packages member => ?_, fun packages member => ?_, fun all => stays (live.complete ?_)⟩
  · rw [sameShares, sameId]
    rcases List.mem_append.mp member with before | now
    · exact live.generated packages before
    · cases List.mem_singleton.mp now
      exact absurd rfl apart.1
  · rw [sameShares, sameId]
    rcases List.mem_append.mp member with before | now
    · exact live.received packages before
    · cases List.mem_singleton.mp now
      exact absurd rfl (apart.2 packages)
  · rwa [EcdsaDkg.HasAll, sameShares, sameConfig] at all

omit [DecidableEq P] in
theorem EcdsaDkg.Live.round2Generate (live : dkg.Live history)
    (inOrder : dkg.InOrder .round2Generate)
    (generated : dkg.round2GenerateShares suite = .ok (next, packages)) :
    next.Live (history ++ [(.round2Generate, .round2 packages)]) := by
  simp only [EcdsaDkg.round2GenerateShares, Outcome.bind_eq_ok] at generated
  obtain ⟨_, -, _, -, ⟨⟩⟩ := generated
  refine ⟨fun _ _ => (Dict.mem_insert _ _ _ _).mpr (.inl rfl), fun others member package among
    isOther => ?_, fun all => ?_⟩
  · rcases List.mem_append.mp member with before | now
    · exact (Dict.mem_insert _ _ _ _).mpr (.inr (live.received others before package among isOther))
    · cases List.mem_singleton.mp now
  · -- A share is still missing.
    obtain ⟨sender, among, isOther, missing⟩ := inOrder
    rcases (Dict.mem_insert _ _ _ _).mp (all sender among) with same | present
    · exact absurd (ParticipantId.value_inj.mp same.symm) isOther
    · exact absurd present missing

theorem EcdsaDkg.of_round2Receive (succeeds : (dkg.round2ReceiveShares suite packages).2 = .ok ()) :
    ∃ next, acceptAll (EcdsaDkg.acceptShare suite) dkg packages = (next, .ok ()) ∧
      (dkg.round2ReceiveShares suite packages).1 =
        if next.receivedShares.size = next.config.participants.length then
          { next with state := .round2Complete }
        else next := by
  unfold EcdsaDkg.round2ReceiveShares at succeeds ⊢
  split at succeeds
  · cases succeeds
  · rename_i ready
    rw [if_neg ready]
    split at succeeds
    · cases succeeds
    · rename_i next accepted
      refine ⟨next, accepted, ?_⟩
      split
      · rfl
      · rfl

theorem EcdsaDkg.Live.round2Receive (live : dkg.Live history)
    (sound : dkg.Sound suite config id history) (distinct : config.participants.Nodup)
    (succeeds : (dkg.round2ReceiveShares suite packages).2 = .ok ()) :
    (dkg.round2ReceiveShares suite packages).1.Live
      (history ++ [(.round2Receive packages, .received)]) := by
  have later : (dkg.round2ReceiveShares suite packages).1.Sound suite config id history :=
    sound.round2Receive
  obtain ⟨next, accepted, isNext⟩ := EcdsaDkg.of_round2Receive succeeds
  obtain ⟨sameConfig, sameId, kept, stored⟩ := EcdsaDkg.acceptAll_shares accepted
  have isId : (dkg.round2ReceiveShares suite packages).1.participantId = dkg.participantId := by
    rw [isNext]
    split
    · exact sameId
    · exact sameId
  have sameShares : (dkg.round2ReceiveShares suite packages).1.receivedShares =
      next.receivedShares := by
    rw [isNext]
    split
    · rfl
    · rfl
  refine ⟨fun others member => ?_, fun others member => ?_, fun all => ?_⟩
  · rw [isId, sameShares]
    rcases List.mem_append.mp member with before | now
    · exact kept _ (live.generated others before)
    · cases List.mem_singleton.mp now
  · rw [isId, sameShares]
    rcases List.mem_append.mp member with before | now
    · exact fun package among isOther => kept _ (live.received others before package among isOther)
    · cases List.mem_singleton.mp now
      exact stored
  · have size := later.size_of_hasAll distinct all
    rw [sameShares, ← sound.config_eq, ← sameConfig] at size
    rw [isNext, if_pos size]

theorem EcdsaDkg.Live.serve (live : dkg.Live history) (sound : dkg.Sound suite config id history)
    (distinct : config.participants.Nodup) {call : DkgCall} (succeeds : dkg.Succeeds suite call)
    (inOrder : dkg.InOrder call) :
    (dkg.serve suite call).1.Live (history ++ (dkg.serve suite call).2) := by
  unfold EcdsaDkg.Succeeds at succeeds
  unfold EcdsaDkg.serve
  cases call with
  | round1Generate draws =>
    simp only [EcdsaDkg.answer] at succeeds ⊢
    split
    · rename_i next package generated
      simp only [EcdsaDkg.round1GenerateCommitments, Outcome.bind_eq_ok] at generated
      obtain ⟨_, -, _, -, _, -, ⟨⟩⟩ := generated
      exact live.frame rfl rfl rfl (fun complete => complete) ⟨by simp, by simp⟩
    · exact live.frame rfl rfl rfl (fun complete => complete) ⟨by simp, by simp⟩
  | round1Receive packages =>
    obtain ⟨sameShares, sameConfig, sameId⟩ := EcdsaDkg.round1Receive_shares suite dkg packages
    exact live.frame sameShares sameConfig sameId (fun complete => absurd complete inOrder)
      ⟨by simp, by simp⟩
  | round2Generate =>
    simp only [EcdsaDkg.answer] at succeeds ⊢
    split
    · rename_i next packages generated
      exact live.round2Generate inOrder generated
    · rename_i failure failed
      rw [failed] at succeeds
      cases succeeds
  | round2Receive packages =>
    simp only [EcdsaDkg.answer] at succeeds ⊢
    cases replied : (dkg.round2ReceiveShares suite packages).2 with
    | error failure =>
      rw [replied] at succeeds
      cases succeeds
    | ok _ => exact live.round2Receive sound distinct replied

theorem EcdsaDkg.Sound.finalizes {thresholdConfig : ThresholdConfig}
    (sound : dkg.Sound suite config id history)
    (isThreshold : ThresholdConfig.new config.thresholdConfig.threshold
      config.thresholdConfig.totalParticipants = .ok thresholdConfig)
    (isComplete : dkg.state = .round2Complete) : ∃ result, dkg.finalize suite = .ok result := by
  have moved : dkg.state ≠ .notStarted := by
    rw [isComplete]
    exact nofun
  have lengths : ∀ share ∈ dkg.receivedShares.items, share.length = 32 := by
    intro share member
    obtain ⟨key, found⟩ := Dict.mem_items.mp member
    obtain ⟨-, sender, -, -, own, other⟩ := sound.shares key share found
    by_cases isOwn : sender = id
    · rw [own isOwn, (sound.own (sound.started moved).1).2.2.2.1, suite.length_scalarToBytes]
    · obtain ⟨commitments, -, verified⟩ := other isOwn
      exact (suite.of_verifyShare verified).1
  obtain ⟨finalShare, added, length⟩ := suite.exists_foldlM_addScalars
    (by rfl : Suite.zeroScalar.length = 32) lengths
  obtain ⟨groupKey, isGroup⟩ : ∃ groupKey, dkg.receivedCommitments.items.foldlM
      (dkg.addConstant suite) (suite.pointToBytes 0) = .ok groupKey :=
    ⟨_, EcdsaDkg.foldlM_addConstant
      (sound.readable (ThresholdConfig.of_new isThreshold) moved) 0⟩
  obtain ⟨publicShare, isPublic⟩ : ∃ publicShare,
      EcdsaDkg.scalarToPoint suite finalShare = .ok publicShare := by
    simp only [EcdsaDkg.scalarToPoint, Outcome.bind_eq_ok]
    exact ⟨_, _, suite.scalarFromBytes_eq_ok.mpr ⟨length, rfl⟩, rfl⟩
  rw [← sound.config_eq] at isThreshold
  refine ⟨(⟨dkg.participantId, thresholdConfig, finalShare, publicShare, groupKey, dkg.curve⟩,
    ⟨groupKey, thresholdConfig, dkg.curve⟩), ?_⟩
  simp only [EcdsaDkg.finalize, Outcome.bind_eq_ok, Outcome.require_eq_ok]
  exact ⟨(), decide_eq_true isComplete, finalShare, added, groupKey, isGroup, publicShare, isPublic,
    thresholdConfig, isThreshold, rfl⟩

/-- A participant can finalize, if its calls succeed and are made in order. -/
theorem ecdsa_dkg_completes (suite : Suite F P) {curve : EcdsaCurve} {start : EcdsaDkg}
    {calls : List DkgCall} {thresholdConfig : ThresholdConfig}
    (isThreshold : ThresholdConfig.new config.thresholdConfig.threshold
      config.thresholdConfig.totalParticipants = .ok thresholdConfig)
    (isNew : EcdsaDkg.new config id curve = .ok start)
    (inOrder : Along (fun dkg call => dkg.Succeeds suite call ∧ dkg.InOrder call)
      (EcdsaDkg.serve suite) start calls)
    (generated : ∃ packages, (.round2Generate, .round2 packages) ∈
      (trace (EcdsaDkg.serve suite) start calls).2)
    (received : ∀ sender ∈ config.participants, sender ≠ id →
      ∃ packages, (.round2Receive packages, .received) ∈
        (trace (EcdsaDkg.serve suite) start calls).2 ∧
        ∃ package ∈ packages, package.sender = sender) :
    ∃ share key, (trace (EcdsaDkg.serve suite) start calls).1.finalize suite = .ok (share, key) := by
  obtain ⟨distinct, isStart⟩ : config.participants.Nodup ∧
      start = ⟨config, id, curve, .notStarted, [], [], ∅, ∅, []⟩ := by
    simp only [EcdsaDkg.new, Outcome.bind_eq_ok] at isNew
    obtain ⟨_, valid, _, -, isStart⟩ := isNew
    exact ⟨DkgConfig.nodup_of_validate valid, (Except.ok.inj isStart).symm⟩
  have sound := EcdsaDkg.sound_trace suite calls isNew
  have live : (trace (EcdsaDkg.serve suite) start calls).1.Live
      (trace (EcdsaDkg.serve suite) start calls).2 := by
    have fresh : start.Live [] := by
      refine ⟨by simp, by simp, fun all => ?_⟩
      rw [isStart] at all
      exact absurd (all id sound.member) Std.ExtTreeMap.not_mem_empty
    refine (trace_invariant (fun dkg history => dkg.Sound suite config id history ∧
      dkg.Live history) ?_ calls start [] ⟨?_, fresh⟩ inOrder).2
    · rintro dkg history call ⟨holds, isLive⟩ ⟨succeeds, ordered⟩
      exact ⟨holds.serve call, isLive.serve holds distinct succeeds ordered⟩
    · exact EcdsaDkg.sound_trace suite [] isNew
  generalize trace (EcdsaDkg.serve suite) start calls = run at sound live generated received ⊢
  obtain ⟨dkg, history⟩ := run
  -- All shares are there, so the state is that after Round 2.
  have isComplete : dkg.state = .round2Complete := by
    refine live.complete fun sender member => ?_
    rw [sound.config_eq] at member
    by_cases own : sender = id
    · obtain ⟨packages, isGenerated⟩ := generated
      rw [own, ← sound.id_eq]
      exact live.generated packages isGenerated
    · obtain ⟨packages, isReceived, package, among, rfl⟩ := received sender member own
      exact live.received packages isReceived package among (sound.id_eq ▸ own)
  obtain ⟨⟨share, key⟩, finalized⟩ := sound.finalizes isThreshold isComplete
  exact ⟨share, key, finalized⟩

end

namespace Known

def earlyCalls : List DkgCall := [
  .round1Generate (constantDraws (drawn ⟨1⟩)),
  .round1Receive [round1Package ⟨2⟩],
  .round2Receive [round2Package ⟨2⟩ ⟨1⟩],
  .round2Generate]

end Known

theorem early_shares_never_complete :
    (∀ id ∈ Known.dkgConfig.participants,
      EcdsaDkg.new Known.dkgConfig id .p256 = .ok (Known.generating id)) ∧
    (Known.generated ⟨2⟩).2.map Prod.snd = [.round1 (Known.round1Package ⟨2⟩), .received,
      .round2 [Known.round2Package ⟨2⟩ ⟨1⟩], .received] ∧
    (trace (EcdsaDkg.serve Known.suite) (Known.generating ⟨1⟩) Known.earlyCalls).2.map Prod.snd =
      [.round1 (Known.round1Package ⟨1⟩), .received, .received,
        .round2 [Known.round2Package ⟨1⟩ ⟨2⟩]] ∧
    (trace (EcdsaDkg.serve Known.suite) (Known.generating ⟨1⟩) Known.earlyCalls).1.finalize
      Known.suite = .fail .dkgInvalidState := by
  refine ⟨Known.generating_new, ?_, ?_, ?_⟩
  all_goals decide +kernel

theorem ecdsa_dkg_completes_two : ∃ share key,
    (Known.generated ⟨1⟩).1.finalize Known.suite = .ok (share, key) := by
  have inOrder : Along (fun dkg call => dkg.Succeeds Known.suite call ∧ dkg.InOrder call)
      (EcdsaDkg.serve Known.suite) (Known.generating ⟨1⟩) (Known.dkgCalls ⟨1⟩) := by
    decide +kernel
  refine ecdsa_dkg_completes Known.suite (by rfl) (Known.generating_new ⟨1⟩ (by decide)) inOrder
    ⟨[Known.round2Package ⟨1⟩ ⟨2⟩], ?_⟩ fun sender member isOther => ?_
  · refine List.mem_cons_of_mem _ (List.mem_cons_of_mem _ (List.mem_cons.mpr (.inl ?_)))
    refine Prod.ext rfl ?_
    decide +kernel
  · refine ⟨[Known.round2Package ⟨2⟩ ⟨1⟩], ?_, Known.round2Package ⟨2⟩ ⟨1⟩, by simp, ?_⟩
    · refine List.mem_cons_of_mem _ (List.mem_cons_of_mem _ (List.mem_cons_of_mem _
        (List.mem_cons.mpr (.inl ?_))))
      refine Prod.ext rfl ?_
      decide +kernel
    · simp only [Known.dkgConfig, List.mem_cons, List.not_mem_nil, or_false] at member
      exact (member.resolve_left isOther).symm

end Hsm.Threshold
