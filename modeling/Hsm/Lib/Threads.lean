import Hsm.Lib.Run

/-! Calls made of atomic sections, and threads whose calls interleave. -/

namespace Hsm

/-- What is left of a call: atomic sections that may wait. -/
inductive Script (σ α : Type) where
  | done (result : α)
  | atomic (ready : σ → Bool) (act : σ → σ) (rest : σ → Script σ α)

namespace Script

variable {σ α β : Type}

/-- Go on with what a script gives. -/
def andThen : Script σ α → (α → Script σ β) → Script σ β
  | .done result, next => next result
  | .atomic ready act rest, next => .atomic ready act fun state => (rest state).andThen next

instance : Monad (Script σ) where
  pure := .done
  bind := andThen

def await (ready : σ → Bool) (body : σ → α × σ) : Script σ α :=
  .atomic ready (fun state => (body state).2) fun state => .done (body state).1

def atomically (body : σ → α × σ) : Script σ α := await (fun _ => true) body

def runAlone : Script σ α → σ → α × σ
  | .done result, state => (result, state)
  | .atomic _ act rest, state => (rest state).runAlone (act state)

def advance : Script σ α → σ → Option (σ × Script σ α)
  | .done _, _ => none
  | .atomic ready act rest, state => if ready state then some (act state, rest state) else none

def result? : Script σ α → Option α
  | .done result => some result
  | .atomic _ _ _ => none

theorem runAlone_bind (script : Script σ α) (next : α → Script σ β) (state : σ) :
    (script >>= next).runAlone state =
      (next (script.runAlone state).1).runAlone (script.runAlone state).2 := by
  induction script generalizing state with
  | done result => rfl
  | atomic ready act rest ih => exact ih state (act state)

@[simp] theorem runAlone_atomically (body : σ → α × σ) (state : σ) :
    (atomically body).runAlone state = body state := rfl

@[simp] theorem runAlone_pure (result : α) (state : σ) :
    (pure result : Script σ α).runAlone state = (result, state) := rfl

theorem advance_await {ready : σ → Bool} {body : σ → α × σ} {next : α → Script σ β} {state after : σ}
    {script : Script σ β} (ran : (await ready body >>= next).advance state = some (after, script)) :
    ready state = true ∧ after = (body state).2 ∧ script = next (body state).1 := by
  have made : (if ready state then some ((body state).2, next (body state).1) else none) =
      some (after, script) := ran
  split at made
  · rename_i free
    cases made
    exact ⟨free, rfl, rfl⟩
  · cases made

theorem advance_await_andThen {γ : Type} {ready : σ → Bool} {body : σ → α × σ}
    {first : α → Script σ β} {second : β → Script σ γ} {state after : σ} {script : Script σ γ}
    (ran : ((await ready body >>= first) >>= second).advance state = some (after, script)) :
    ready state = true ∧ after = (body state).2 ∧ script = first (body state).1 >>= second :=
  @advance_await _ _ _ ready body (fun result => first result >>= second) state after script ran

end Script

/-- A call under way, and what is left of it. -/
structure Task (κ σ α : Type) where
  call : κ
  stage : Nat
  script : Script σ α

/-- Threads with their last calls, and what they share. -/
structure Threads (κ σ α : Type) where
  shared : σ
  tasks : Nat → Option (Task κ σ α)

/-- A thread makes a call, or runs its next section. -/
inductive Move (κ : Type) where
  | start (thread : Nat) (call : κ)
  | advance (thread : Nat)
  deriving DecidableEq, Repr

structure Return (κ α : Type) where
  thread : Nat
  call : κ
  result : α
  deriving DecidableEq, Repr

namespace Threads

variable {κ σ α : Type}

def idle (threads : Threads κ σ α) (thread : Nat) : Bool :=
  match threads.tasks thread with
  | none => true
  | some task => task.script.result?.isSome

def assign (threads : Threads κ σ α) (thread : Nat) (task : Task κ σ α) : Threads κ σ α :=
  { threads with tasks := fun other => if other = thread then some task else threads.tasks other }

def step (program : Nat → κ → Script σ α) (threads : Threads κ σ α) :
    Move κ → Threads κ σ α × List (Return κ α)
  | .start thread call =>
    if threads.idle thread then (threads.assign thread ⟨call, 0, program thread call⟩, [])
    else (threads, [])
  | .advance thread =>
    match threads.tasks thread with
    | none => (threads, [])
    | some task =>
      match task.script.advance threads.shared with
      | none => (threads, [])
      | some (shared, script) =>
        ({ threads with shared := shared }.assign thread ⟨task.call, task.stage + 1, script⟩,
          (script.result?.map fun result => ⟨thread, task.call, result⟩).toList)

def fresh (shared : σ) : Threads κ σ α := ⟨shared, fun _ => none⟩

@[simp] theorem tasks_assign_self (threads : Threads κ σ α) (thread : Nat) (task : Task κ σ α) :
    (threads.assign thread task).tasks thread = some task := by
  simp [assign]

theorem tasks_assign_other (threads : Threads κ σ α) {thread other : Nat} (apart : other ≠ thread)
    (task : Task κ σ α) : (threads.assign thread task).tasks other = threads.tasks other := by
  simp [assign, apart]

@[simp] theorem shared_assign (threads : Threads κ σ α) (thread : Nat) (task : Task κ σ α) :
    (threads.assign thread task).shared = threads.shared := rfl

/-- A move does nothing, makes a call, or runs a section. -/
theorem step_cases (program : Nat → κ → Script σ α) (threads : Threads κ σ α) (move : Move κ) :
    threads.step program move = (threads, []) ∨
    (∃ thread call, move = .start thread call ∧ threads.idle thread = true ∧
      threads.step program move =
        (threads.assign thread ⟨call, 0, program thread call⟩, [])) ∨
    ∃ thread task shared script, move = .advance thread ∧ threads.tasks thread = some task ∧
      task.script.advance threads.shared = some (shared, script) ∧
      threads.step program move =
        ({ threads with shared := shared }.assign thread ⟨task.call, task.stage + 1, script⟩,
          (script.result?.map fun result => ⟨thread, task.call, result⟩).toList) := by
  cases move with
  | start thread call =>
    by_cases free : threads.idle thread = true
    · exact .inr (.inl ⟨thread, call, rfl, free, by simp [step, free]⟩)
    · exact .inl (by simp [step, free])
  | advance thread =>
    cases under : threads.tasks thread with
    | none => exact .inl (by simp [step, under])
    | some task =>
      cases ran : task.script.advance threads.shared with
      | none => exact .inl (by simp [step, under, ran])
      | some next =>
        exact .inr (.inr ⟨thread, task, next.1, next.2, rfl, under, ran, by simp [step, under, ran]⟩)

/-- What holds of the shared state, and of each call. -/
structure Outline (inv : σ → Prop) (each : Nat → σ → Task κ σ α → Prop)
    (threads : Threads κ σ α) : Prop where
  shared : inv threads.shared
  tasks : ∀ thread task, threads.tasks thread = some task → each thread threads.shared task

/-- What every section keeps, without disturbing other calls, every interleaving keeps. -/
theorem Outline.step {program : Nat → κ → Script σ α} {inv : σ → Prop}
    {each : Nat → σ → Task κ σ α → Prop} {threads : Threads κ σ α} {move : Move κ}
    (outline : Outline inv each threads)
    (starts : ∀ thread call, move = .start thread call →
      each thread threads.shared ⟨call, 0, program thread call⟩)
    (own : ∀ thread task shared script, move = .advance thread →
      threads.tasks thread = some task → task.script.advance threads.shared = some (shared, script) →
      inv shared ∧ each thread shared ⟨task.call, task.stage + 1, script⟩)
    (others : ∀ thread task shared script other waiting, move = .advance thread →
      threads.tasks thread = some task → task.script.advance threads.shared = some (shared, script) →
      other ≠ thread → threads.tasks other = some waiting → each other shared waiting) :
    Outline inv each (threads.step program move).1 := by
  rcases threads.step_cases program move with same | ⟨thread, call, rfl, -, made⟩ |
    ⟨thread, task, shared, script, rfl, under, ran, made⟩
  · rw [same]
    exact outline
  · rw [made]
    refine ⟨outline.shared, fun other given assigned => ?_⟩
    by_cases same : other = thread
    · subst same
      rw [tasks_assign_self] at assigned
      cases assigned
      exact starts other call rfl
    · rw [tasks_assign_other _ same] at assigned
      exact outline.tasks other given assigned
  · rw [made]
    obtain ⟨kept, goesOn⟩ := own thread task shared script rfl under ran
    refine ⟨kept, fun other given assigned => ?_⟩
    by_cases same : other = thread
    · subst same
      rw [tasks_assign_self] at assigned
      cases assigned
      exact goesOn
    · rw [tasks_assign_other _ same] at assigned
      exact others thread task shared script other given rfl under ran same assigned

theorem mem_returns {program : Nat → κ → Script σ α} {threads : Threads κ σ α} {move : Move κ}
    {returned : Return κ α} (member : returned ∈ (threads.step program move).2) :
    ∃ task shared script, move = .advance returned.thread ∧
      threads.tasks returned.thread = some task ∧ task.call = returned.call ∧
      task.script.advance threads.shared = some (shared, script) ∧
      script.result? = some returned.result := by
  rcases threads.step_cases program move with same | ⟨thread, call, rfl, -, made⟩ |
    ⟨thread, task, shared, script, rfl, under, ran, made⟩
  · rw [same] at member
    cases member
  · rw [made] at member
    cases member
  · rw [made] at member
    simp only [Option.mem_toList, Option.map_eq_some_iff] at member
    obtain ⟨result, isResult, rfl⟩ := member
    exact ⟨task, shared, script, rfl, under, rfl, ran, isResult⟩

end Threads

end Hsm
