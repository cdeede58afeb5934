import Mathlib.Data.List.Basic
import Mathlib.Algebra.Ring.Nat

/-! Runs of a state machine whose steps produce outputs, and the rule for invariants of whole runs. -/

namespace Hsm

variable {σ ι ω : Type}

/-- Feed the inputs to the machine, collecting all outputs. -/
def trace (step : σ → ι → σ × List ω) : σ → List ι → σ × List ω
  | state, [] => (state, [])
  | state, input :: rest =>
    let next := step state input
    let later := trace step next.1 rest
    (later.1, next.2 ++ later.2)

/-- A condition on each state and its input holds along a run. -/
def Along (holds : σ → ι → Prop) (step : σ → ι → σ × List ω) : σ → List ι → Prop
  | _, [] => True
  | state, input :: rest => holds state input ∧ Along holds step (step state input).1 rest

instance Along.decidable {holds : σ → ι → Prop} [∀ state input, Decidable (holds state input)]
    (step : σ → ι → σ × List ω) :
    (state : σ) → (inputs : List ι) → Decidable (Along holds step state inputs)
  | _, [] => inferInstanceAs (Decidable True)
  | state, input :: rest =>
    @instDecidableAnd _ _ inferInstance (Along.decidable step (step state input).1 rest)

@[simp] theorem trace_nil (step : σ → ι → σ × List ω) (state : σ) :
    trace step state [] = (state, []) := rfl

theorem trace_cons (step : σ → ι → σ × List ω) (state : σ) (input : ι) (rest : List ι) :
    trace step state (input :: rest) =
      ((trace step (step state input).1 rest).1,
        (step state input).2 ++ (trace step (step state input).1 rest).2) := rfl

theorem trace_append (step : σ → ι → σ × List ω) (state : σ) (first second : List ι) :
    trace step state (first ++ second) =
      ((trace step (trace step state first).1 second).1,
        (trace step state first).2 ++ (trace step (trace step state first).1 second).2) := by
  induction first generalizing state with
  | nil => simp
  | cons input rest ih => simp [trace_cons, ih, List.append_assoc]

variable {holds : σ → ι → Prop} {step : σ → ι → σ × List ω} {inputs : List ι}

theorem Along.of_forall (always : ∀ state, ∀ input ∈ inputs, holds state input) (state : σ) :
    Along holds step state inputs := by
  induction inputs generalizing state with
  | nil => trivial
  | cons input rest ih =>
    exact ⟨always state input (by simp), ih (fun s i member => always s i (by simp [member])) _⟩

variable {state : σ}

theorem along_append {first second : List ι} :
    Along holds step state (first ++ second) ↔
      Along holds step state first ∧ Along holds step (trace step state first).1 second := by
  induction first generalizing state with
  | nil => exact ⟨fun along => ⟨trivial, along⟩, fun both => both.2⟩
  | cons input rest ih =>
    rw [List.cons_append, Along, Along, ih, and_assoc]
    rfl

theorem along_and_forall {known : ι → Prop} (all : ∀ input ∈ inputs, known input)
    (along : Along holds step state inputs) :
    Along (fun state input => holds state input ∧ known input) step state inputs := by
  induction inputs generalizing state with
  | nil => trivial
  | cons input rest ih =>
    exact ⟨⟨along.1, all input (by simp)⟩, ih (fun i member => all i (by simp [member])) along.2⟩

theorem along_and {other : σ → ι → Prop} (along : Along holds step state inputs)
    (otherAlong : Along other step state inputs) :
    Along (fun state input => holds state input ∧ other state input) step state inputs := by
  induction inputs generalizing state with
  | nil => trivial
  | cons input rest ih => exact ⟨⟨along.1, otherAlong.1⟩, ih along.2 otherAlong.2⟩

theorem trace_split (single : ∀ state input, ∃ output, (step state input).2 = [output])
    {before after : List ω} {output : ω}
    (outputs : (trace step state inputs).2 = before ++ output :: after) :
    ∃ first input rest, inputs = first ++ input :: rest ∧ (trace step state first).2 = before ∧
      (step (trace step state first).1 input).2 = [output] ∧
      (trace step (step (trace step state first).1 input).1 rest).2 = after := by
  induction before generalizing state inputs with
  | nil =>
    cases inputs with
    | nil => cases outputs
    | cons input rest =>
      obtain ⟨given, gives⟩ := single state input
      rw [trace_cons, gives] at outputs
      cases outputs
      exact ⟨[], input, rest, rfl, rfl, gives, rfl⟩
  | cons head tail ih =>
    cases inputs with
    | nil => cases outputs
    | cons input rest =>
      obtain ⟨given, gives⟩ := single state input
      rw [trace_cons, gives] at outputs
      obtain ⟨rfl, later⟩ := List.cons.inj outputs
      obtain ⟨first, found, last, rfl, outs, last_out, afters⟩ := ih later
      exact ⟨input :: first, found, last, rfl, by rw [trace_cons, gives, outs]; rfl, last_out, afters⟩

theorem last_unique {kind : ω → Prop} {first second : ω} {before before' after after' : List ω}
    (same : before ++ first :: after = before' ++ second :: after') (isKind : kind first)
    (isKind' : kind second) (last : ∀ other ∈ after, ¬ kind other)
    (last' : ∀ other ∈ after', ¬ kind other) : first = second := by
  rcases List.append_eq_append_iff.mp same with ⟨between, -, later⟩ | ⟨between, -, later⟩
  · -- The second split is not before the first, and it is not after it either.
    cases between with
    | nil => exact (List.cons.inj later).1
    | cons head tail =>
      obtain ⟨rfl, rfl⟩ := List.cons.inj later
      exact absurd isKind' (last second (by simp))
  · cases between with
    | nil => exact (List.cons.inj later).1.symm
    | cons head tail =>
      obtain ⟨rfl, rfl⟩ := List.cons.inj later
      exact absurd isKind (last' first (by simp))

/-- What every step preserves, of the state and past outputs, a whole run preserves. -/
theorem trace_invariant (inv : σ → List ω → Prop)
    (preserved : ∀ state past input, inv state past → holds state input →
      inv (step state input).1 (past ++ (step state input).2)) (inputs : List ι) (state : σ)
    (past : List ω) (start : inv state past) (along : Along holds step state inputs) :
    inv (trace step state inputs).1 (past ++ (trace step state inputs).2) := by
  -- Each step extends the past by its own outputs, so the past stays quantified over.
  induction inputs generalizing state past with
  | nil => simpa using start
  | cons input rest ih =>
    have next := preserved state past input start along.1
    have ends := ih (step state input).1 (past ++ (step state input).2) next along.2
    simpa [trace_cons, List.append_assoc] using ends

/-- What an invariant gives for the outputs of each step holds of all outputs of a run. -/
theorem trace_outputs (inv : σ → Prop) (gives : ω → Prop)
    (preserved : ∀ state, ∀ input ∈ inputs, inv state → holds state input →
      inv (step state input).1 ∧ ∀ output ∈ (step state input).2, gives output)
    (state : σ) (start : inv state) (along : Along holds step state inputs) :
    ∀ output ∈ (trace step state inputs).2, gives output := by
  induction inputs generalizing state with
  | nil => simp
  | cons input rest ih =>
    obtain ⟨next, now⟩ := preserved state input List.mem_cons_self start along.1
    intro output member
    rw [trace_cons] at member
    rcases List.mem_append.mp member with first | later
    · exact now output first
    · exact ih (fun state other isLater => preserved state other (List.mem_cons_of_mem _ isLater))
        _ next along.2 output later

/-- What an invariant and a condition imply holds along a run. -/
theorem Along.of_invariant (inv : σ → Prop) {gives : σ → ι → Prop}
    (preserved : ∀ state input, inv state → holds state input → inv (step state input).1)
    (implies : ∀ state input, inv state → holds state input → gives state input) (inputs : List ι)
    (state : σ) (start : inv state) (along : Along holds step state inputs) :
    Along gives step state inputs := by
  induction inputs generalizing state with
  | nil => trivial
  | cons input rest ih =>
    exact ⟨implies state input start along.1, ih _ (preserved state input start along.1) along.2⟩

/-- Machines that answer alike in steps answer alike in runs. -/
theorem trace_simulation {τ : Type} {first : σ → ι → σ × List ω} {second : τ → ι → τ × List ω}
    (related : σ → τ → Prop) (alike : ∀ state other, related state other → ∀ input ∈ inputs,
      (second other input).2 = (first state input).2 ∧
        related (first state input).1 (second other input).1) (state : σ) (other : τ)
    (start : related state other) :
    (trace second other inputs).2 = (trace first state inputs).2 ∧
      related (trace first state inputs).1 (trace second other inputs).1 := by
  induction inputs generalizing state other with
  | nil => exact ⟨rfl, start⟩
  | cons input rest ih =>
    obtain ⟨outputs, next⟩ := alike state other start input (by simp)
    obtain ⟨rests, ends⟩ := ih (fun s t relates i member => alike s t relates i (by simp [member]))
      _ _ next
    rw [trace_cons, trace_cons, outputs, rests]
    exact ⟨rfl, ends⟩

/-- Inputs that leave a view of the state alone can be dropped from a run. -/
theorem trace_filter (step : σ → ι → σ × List ω) (same : σ → σ → Prop) (matters : ι → Bool)
    {admitted : ι → Prop}
    (alike : ∀ first second input, same first second → matters input →
      (step first input).2 = (step second input).2 ∧
        same (step first input).1 (step second input).1)
    (unseen : ∀ first second input, same first second → admitted input → ¬ matters input →
      (step first input).2 = [] ∧ same (step first input).1 second)
    (inputs : List ι) (all : ∀ input ∈ inputs, admitted input) (first second : σ)
    (start : same first second) :
    (trace step first inputs).2 = (trace step second (inputs.filter matters)).2 ∧
      same (trace step first inputs).1 (trace step second (inputs.filter matters)).1 := by
  induction inputs generalizing first second with
  | nil => exact ⟨rfl, start⟩
  | cons input rest ih =>
    have later := fun other member => all other (List.mem_cons_of_mem input member)
    by_cases kept : matters input = true
    · -- Both runs take the step.
      obtain ⟨outputs, next⟩ := alike first second input start kept
      obtain ⟨rests, ends⟩ := ih later _ _ next
      rw [List.filter_cons_of_pos kept, trace_cons, trace_cons, outputs, rests]
      exact ⟨rfl, ends⟩
    · -- Only the full run takes the step.
      obtain ⟨silent, next⟩ := unseen first second input start (all input (by simp)) kept
      obtain ⟨rests, ends⟩ := ih later _ _ next
      rw [List.filter_cons_of_neg kept, trace_cons, silent, List.nil_append, rests]
      exact ⟨rfl, ends⟩

end Hsm
