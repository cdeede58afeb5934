import Hsm.Lib.Run
import Hsm.Lib.Dict
import Hsm.Lib.Bytes

/-! The policy store, and the decision that is aggregated from all applicable policies. -/

namespace Hsm.WasmPolicy

inductive PolicyDecision where
  | deny
  | allow
  | requireApproval
  deriving DecidableEq, Repr

def PolicyDecision.rank : PolicyDecision → Nat
  | .allow => 0
  | .requireApproval => 1
  | .deny => 2

structure PolicyMetadata where
  id : String
  priority : Int32
  enabled : Bool
  namespaces : List String
  keyIds : List String
  chainIds : List String
  txTypes : List String
  deriving DecidableEq, Repr

structure Policy where
  metadata : PolicyMetadata
  bytecode : Bytes
  deriving DecidableEq, Repr

structure PolicyContext where
  signerNamespace : String
  keyId : String
  chainId : String
  txType : String
  rest : Bytes
  deriving DecidableEq, Repr

inductive PolicyError where
  | invalidBytecode (text : String)
  | compilationFailed (text : String)
  | missingExport (text : String)
  | notFound (id : String)
  | io (text : String)
  deriving DecidableEq, Repr

/-- Filters that are not empty contain the context. -/
def PolicyMetadata.appliesTo (metadata : PolicyMetadata) (context : PolicyContext) : Bool :=
  [(metadata.namespaces, context.signerNamespace), (metadata.keyIds, context.keyId),
    (metadata.chainIds, context.chainId), (metadata.txTypes, context.txType)].all
    fun filter => filter.1.isEmpty || filter.1.contains filter.2

def Policy.applies (policy : Policy) (context : PolicyContext) : Bool :=
  policy.metadata.enabled && policy.metadata.appliesTo context

def maxPolicySize : Nat := 1024 * 1024

abbrev PolicyStore := Dict String Policy

/-- Calls that change a store, and whether writing succeeds. -/
inductive StoreCall where
  | register (policy : Policy) (saved : Except PolicyError Unit)
  | update (policy : Policy) (saved : Except PolicyError Unit)
  | enable (id : String) (saved : Except PolicyError Unit)
  | disable (id : String) (saved : Except PolicyError Unit)
  | remove (id : String)

namespace PolicyStore

abbrev Reply := List (Except PolicyError Unit)

def put (compile : Bytes → Except PolicyError Unit) (store : PolicyStore) (policy : Policy)
    (saved : Except PolicyError Unit) : PolicyStore × Reply :=
  match compile policy.bytecode with
  | .error error => (store, [.error error])
  | .ok () => (store.insert policy.metadata.id policy, [saved])

def setEnabled (store : PolicyStore) (id : String) (enabled : Bool)
    (saved : Except PolicyError Unit) : PolicyStore × Reply :=
  match store[id]? with
  | none => (store, [.error (.notFound id)])
  | some policy =>
    (store.insert id { policy with metadata := { policy.metadata with enabled } }, [saved])

def serve (compile : Bytes → Except PolicyError Unit) (store : PolicyStore) :
    StoreCall → PolicyStore × Reply
  | .register policy saved =>
    if policy.bytecode.length > maxPolicySize then
      (store, [.error (.invalidBytecode
        ("Policy exceeds maximum size of " ++ toString maxPolicySize ++ " bytes"))])
    else put compile store policy saved
  -- An update does not look at the size.
  | .update policy saved =>
    if store[policy.metadata.id]?.isNone then (store, [.error (.notFound policy.metadata.id)])
    else put compile store policy saved
  | .enable id saved => store.setEnabled id true saved
  | .disable id saved => store.setEnabled id false saved
  | .remove id =>
    if store[id]?.isNone then (store, [.error (.notFound id)]) else (store.erase id, [.ok ()])

def Offers (store : PolicyStore) (context : PolicyContext) (bytecode : Bytes) : Prop :=
  ∃ id policy, store[(id : String)]? = some policy ∧ policy.applies context ∧
    policy.bytecode = bytecode

def Adds (store : PolicyStore) : StoreCall → Prop
  | .register policy _ => store[policy.metadata.id]? = none
  | .enable _ _ => True
  | .update _ _ | .disable _ _ | .remove _ => False

end PolicyStore

def Walks (store : PolicyStore) (walked : List Policy) : Prop :=
  ∀ policy, policy ∈ walked ↔ ∃ id : String, store[id]? = some policy

structure EvaluationResult where
  policyId : String
  decision : PolicyDecision
  error : Option String
  deriving DecidableEq, Repr

structure AggregatedResult where
  decision : PolicyDecision
  results : List EvaluationResult
  deriving DecidableEq, Repr

section

variable (execute : Bytes → PolicyContext → Except String PolicyDecision) (context : PolicyContext)

/-- Stop at the first policy that denies or fails. -/
def evaluateFrom : PolicyDecision → List EvaluationResult → List Policy → AggregatedResult
  | final, results, [] => ⟨final, results⟩
  | final, results, policy :: rest =>
    match execute policy.bytecode context with
    | .ok .deny => ⟨.deny, results ++ [⟨policy.metadata.id, .deny, none⟩]⟩
    | .ok .requireApproval =>
      evaluateFrom (if final ≠ .deny then .requireApproval else final)
        (results ++ [⟨policy.metadata.id, .requireApproval, none⟩]) rest
    | .ok .allow => evaluateFrom final (results ++ [⟨policy.metadata.id, .allow, none⟩]) rest
    -- Errors are treated as deny for safety.
    | .error error => ⟨.deny, results ++ [⟨policy.metadata.id, .deny, some error⟩]⟩

/-- The applicable policies by priority, from the order of a map. -/
def findApplicable (walked : List Policy) : List Policy :=
  (walked.filter (·.applies context)).mergeSort fun a b => a.metadata.priority ≤ b.metadata.priority

def evaluate (walked : List Policy) : AggregatedResult :=
  let policies := findApplicable context walked
  if policies.isEmpty then ⟨.allow, []⟩ else evaluateFrom execute context .allow [] policies

def verdict (bytecode : Bytes) : PolicyDecision :=
  match execute bytecode context with
  | .ok decision => decision
  | .error _ => .deny

theorem PolicyDecision.rank_inj {first second : PolicyDecision} (same : first.rank = second.rank) :
    first = second := by
  cases first <;> cases second <;> simp_all [PolicyDecision.rank]

theorem PolicyDecision.rank_le (decision : PolicyDecision) : decision.rank ≤ 2 := by
  cases decision <;> decide

theorem le_rank_evaluateFrom (level : Nat) (policies : List Policy) (final : PolicyDecision)
    (results : List EvaluationResult) :
    level ≤ (evaluateFrom execute context final results policies).decision.rank ↔
      level ≤ final.rank ∨
        ∃ policy ∈ policies, level ≤ (verdict execute context policy.bytecode).rank := by
  induction policies generalizing final results with
  | nil => simp [evaluateFrom]
  | cons policy rest induction =>
    rw [List.exists_mem_cons_iff, evaluateFrom]
    -- A denial ends the loop, and nothing that is skipped could be stricter.
    have last : level ≤ PolicyDecision.deny.rank ↔ level ≤ final.rank ∨
        level ≤ PolicyDecision.deny.rank ∨
          ∃ other ∈ rest, level ≤ (verdict execute context other.bytecode).rank := by
      refine ⟨fun strict => .inr (.inl strict), ?_⟩
      rintro (strict | strict | ⟨other, _, strict⟩)
      · exact Nat.le_trans strict final.rank_le
      · exact strict
      · exact Nat.le_trans strict (PolicyDecision.rank_le _)
    cases executed : execute policy.bytecode context with
    | error error =>
      rw [verdict, executed]
      exact last
    | ok decision =>
      have said : verdict execute context policy.bytecode = decision := by rw [verdict, executed]
      rw [said]
      cases decision with
      | deny => exact last
      | allow =>
        refine (induction _ _).trans ?_
        have : level ≤ PolicyDecision.allow.rank → level ≤ final.rank :=
          fun none => Nat.le_trans none (Nat.zero_le _)
        tauto
      | requireApproval =>
        refine (induction _ _).trans ?_
        rw [← or_assoc]
        refine or_congr_left ?_
        cases final <;> simp [PolicyDecision.rank] <;> omega

theorem le_rank_evaluate {store : PolicyStore} {walked : List Policy} (walks : Walks store walked)
    {level : Nat} (positive : 0 < level) :
    level ≤ (evaluate execute context walked).decision.rank ↔
      ∃ bytecode, store.Offers context bytecode ∧
        level ≤ (verdict execute context bytecode).rank := by
  have loop : (evaluate execute context walked).decision =
      (evaluateFrom execute context .allow [] (findApplicable context walked)).decision := by
    unfold evaluate
    cases findApplicable context walked <;> rfl
  rw [loop, le_rank_evaluateFrom, or_iff_right (by simp [PolicyDecision.rank]; omega)]
  simp only [findApplicable, List.mem_mergeSort, List.mem_filter, walks _, PolicyStore.Offers]
  grind

theorem rank_evaluate_mono {store other : PolicyStore} {walked after : List Policy}
    (walks : Walks store walked) (walks' : Walks other after)
    (kept : ∀ bytecode, store.Offers context bytecode → other.Offers context bytecode) :
    (evaluate execute context walked).decision.rank ≤
      (evaluate execute context after).decision.rank := by
  rcases Nat.eq_zero_or_pos (evaluate execute context walked).decision.rank with none | positive
  · omega
  · obtain ⟨bytecode, offered, strict⟩ :=
      (le_rank_evaluate execute context walks positive).mp le_rfl
    exact (le_rank_evaluate execute context walks' positive).mpr
      ⟨bytecode, kept bytecode offered, strict⟩

theorem offers_of_adds {store : PolicyStore} {call : StoreCall} (adds : store.Adds call)
    (compile : Bytes → Except PolicyError Unit) (bytecode : Bytes)
    (offered : store.Offers context bytecode) :
    (store.serve compile call).1.Offers context bytecode := by
  obtain ⟨id, policy, stored, applies, same⟩ := offered
  cases call with
  | register added saved =>
    have apart : added.metadata.id ≠ id := by
      rintro rfl
      simp [PolicyStore.Adds, stored] at adds
    refine ⟨id, policy, ?_, applies, same⟩
    simp only [PolicyStore.serve, PolicyStore.put]
    split
    · exact stored
    · split
      · exact stored
      · rwa [Dict.find_insert_of_ne _ apart]
  | enable enabled saved =>
    simp only [PolicyStore.serve, PolicyStore.setEnabled]
    cases found : store[enabled]? with
    | none => exact ⟨id, policy, stored, applies, same⟩
    | some old =>
      by_cases apart : enabled = id
      · subst apart
        obtain rfl : old = policy := by simpa [stored] using found.symm
        refine ⟨enabled, _, Dict.find_insert_self _ _ _, ?_, same⟩
        simpa [Policy.applies, PolicyMetadata.appliesTo] using (Bool.and_eq_true_iff.mp applies).2
      · exact ⟨id, policy, by rwa [Dict.find_insert_of_ne _ apart], applies, same⟩
  | update | disable | remove => exact adds.elim

/-- A denial decides, else a required approval; neither order nor priorities matter. -/
theorem evaluate_deny_overrides (compile : Bytes → Except PolicyError Unit)
    (calls : List StoreCall) (walked : List Policy) :
    let stored := fun calls => (trace (PolicyStore.serve compile) ∅ calls).1
    let decided := fun walked => (evaluate execute context walked).decision
    let Denied := ∃ bytecode, (stored calls).Offers context bytecode ∧
      (execute bytecode context = .ok .deny ∨ ∃ error, execute bytecode context = .error error)
    Walks (stored calls) walked →
      (decided walked = .deny ↔ Denied) ∧
      (decided walked = .requireApproval ↔ ¬ Denied ∧ ∃ bytecode,
        (stored calls).Offers context bytecode ∧ execute bytecode context = .ok .requireApproval) ∧
      (∀ others after, Walks (stored others) after →
        (stored others).Offers context = (stored calls).Offers context →
          decided after = decided walked) ∧
      ∀ call after, (stored calls).Adds call → Walks (stored (calls ++ [call])) after →
        (decided walked).rank ≤ (decided after).rank := by
  intro stored decided Denied walks
  have denied : decided walked = .deny ↔ Denied := by
    have strictest : decided walked = .deny ↔ 2 ≤ (decided walked).rank := by
      cases decided walked <;> decide
    rw [strictest, le_rank_evaluate execute context walks (by decide)]
    refine exists_congr fun bytecode => and_congr_right fun _ => ?_
    unfold verdict
    cases execute bytecode context with
    | error error => simp [PolicyDecision.rank]
    | ok decision => cases decision <;> simp [PolicyDecision.rank]
  have asked : decided walked = .requireApproval ↔ decided walked ≠ .deny ∧
      1 ≤ (decided walked).rank := by
    cases decided walked <;> decide
  -- What is not denied but strict is strict because a policy requires approval.
  refine ⟨denied, ?_, ?_, ?_⟩
  · rw [asked, ne_eq, denied, le_rank_evaluate execute context walks (by decide)]
    refine and_congr_right fun allowed => exists_congr fun bytecode => ?_
    refine and_congr_right fun offered => ?_
    have passed := fun outcome => allowed ⟨bytecode, offered, outcome⟩
    cases executed : execute bytecode context with
    | error error => exact (passed (.inr ⟨error, executed⟩)).elim
    | ok decision =>
      cases decision with
      | deny => exact (passed (.inl executed)).elim
      | allow | requireApproval => simp [verdict, executed, PolicyDecision.rank]
  · intro others after walks' same
    have stricter := rank_evaluate_mono execute context walks walks' fun _ => (same ▸ ·)
    have laxer := rank_evaluate_mono execute context walks' walks fun _ => (same ▸ ·)
    exact PolicyDecision.rank_inj (le_antisymm laxer stricter)
  · intro call after adds walks'
    have last : stored (calls ++ [call]) = ((stored calls).serve compile call).1 := by
      simp [stored, trace_append, trace_cons]
    rw [last] at walks'
    exact rank_evaluate_mono execute context walks walks' (offers_of_adds context adds compile)

end

def samplePolicy (id : String) (priority : Int32) (code : UInt8) : Policy :=
  ⟨⟨id, priority, true, [], [], [], []⟩, [code]⟩

def sampleRun (bytecode : Bytes) (_ : PolicyContext) : Except String PolicyDecision :=
  if bytecode = [0] then .error "trap"
  else if bytecode = [1] then .ok .requireApproval else .ok .allow

/-- Of an approval, a permission and a trap, the trap decides. -/
theorem evaluate_deny_overrides_trap :
    (evaluate sampleRun ⟨"", "", "", "", []⟩ [samplePolicy "limit" 2 1, samplePolicy "open" 1 2,
      samplePolicy "broken" 3 0]).decision = .deny := by
  have found (id : String) : (trace (PolicyStore.serve fun _ => .ok ()) ∅
      [.register (samplePolicy "limit" 2 1) (.ok ()), .register (samplePolicy "open" 1 2) (.ok ()),
        .register (samplePolicy "broken" 3 0) (.ok ())]).1[id]? =
      if "broken" = id then some (samplePolicy "broken" 3 0)
      else if "open" = id then some (samplePolicy "open" 1 2)
      else if "limit" = id then some (samplePolicy "limit" 2 1) else none := by
    simp [trace_cons, PolicyStore.serve, PolicyStore.put, samplePolicy, maxPolicySize,
      Dict.find_insert]
  refine (evaluate_deny_overrides _ ⟨"", "", "", "", []⟩ _ _ _ fun policy => ?_).1.mpr
    ⟨[0], ⟨"broken", samplePolicy "broken" 3 0, found _, by decide, rfl⟩, .inr ⟨"trap", rfl⟩⟩
  constructor
  · intro member
    simp only [List.mem_cons, List.not_mem_nil, or_false] at member
    rcases member with rfl | rfl | rfl
    · exact ⟨"limit", by rw [found]; rfl⟩
    · exact ⟨"open", by rw [found]; rfl⟩
    · exact ⟨"broken", by rw [found]; rfl⟩
  · rintro ⟨id, stored⟩
    rw [found] at stored
    split_ifs at stored <;> cases stored <;> simp

end Hsm.WasmPolicy
