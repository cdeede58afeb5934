import Mathlib.Data.List.Basic
import Mathlib.Algebra.Ring.Nat

/-! Merkle trees over arbitrary digests, and when a root commits to the leaves below it. -/

namespace Hsm.Merkle

variable {α δ μ : Type}

def level (node : δ → δ → δ) : List δ → List δ
  | left :: right :: rest => node left right :: level node rest
  | [last] => [node last last]
  | [] => []

def climb (node : δ → δ → δ) : Nat → List δ → List δ
  | 0, nodes => nodes
  | height + 1, nodes =>
    if nodes.length > 1 then climb node height (level node nodes) else nodes

def root (node : δ → δ → δ) (nodes : List δ) : Option δ :=
  -- Every level halves the number of nodes, so that number bounds the height.
  (climb node nodes.length nodes).head?

@[simp] theorem level_length (node : δ → δ → δ) (nodes : List δ) :
    (level node nodes).length = (nodes.length + 1) / 2 := by
  -- Two nodes go into one, and a last single node still makes one.
  induction nodes using level.induct with
  | case1 left right rest ih =>
    simp only [level, List.length_cons, ih]
    omega
  | case2 last => simp [level]
  | case3 => simp [level]

theorem climb_single (node : δ → δ → δ) (height : Nat) (nodes : List δ)
    (nonempty : 0 < nodes.length) (enough : nodes.length ≤ height) :
    (climb node height nodes).length = 1 := by
  -- Above one node, the next level is nonempty and strictly shorter.
  induction height generalizing nodes with
  | zero => omega
  | succ height ih =>
    simp only [climb]
    split
    · apply ih
      · rw [level_length]
        omega
      · rw [level_length]
        omega
    · omega

theorem root_isSome (node : δ → δ → δ) {nodes : List δ} (nonempty : 0 < nodes.length) :
    (root node nodes).isSome := by
  -- The single node left by the climb is the root.
  have single := climb_single node nodes.length nodes nonempty (Nat.le_refl _)
  obtain ⟨top, only⟩ := List.length_eq_one_iff.mp single
  simp [root, only]

/-- The messages of leaves and nodes, and their digest. -/
structure Hashing (α δ μ : Type) where
  leafMessage : α → μ
  nodeMessage : δ → δ → μ
  digest : μ → δ

namespace Hashing

variable (hashing : Hashing α δ μ)

def leaf (value : α) : δ := hashing.digest (hashing.leafMessage value)

def node (left right : δ) : δ := hashing.digest (hashing.nodeMessage left right)

def rootOf (leaves : List α) : Option δ := root hashing.node (leaves.map hashing.leaf)

def levelMessages : List δ → List μ
  | left :: right :: rest => hashing.nodeMessage left right :: levelMessages rest
  | [last] => [hashing.nodeMessage last last]
  | [] => []

def climbMessages : Nat → List δ → List μ
  | 0, _ => []
  | height + 1, nodes =>
    if nodes.length > 1 then
      hashing.levelMessages nodes ++ climbMessages height (level hashing.node nodes)
    else []

def messages (leaves : List α) : List μ :=
  leaves.map hashing.leafMessage ++
    hashing.climbMessages leaves.length (leaves.map hashing.leaf)

def CollisionFree (messages : List μ) : Prop :=
  ∀ first ∈ messages, ∀ second ∈ messages,
    hashing.digest first = hashing.digest second → first = second

instance [DecidableEq μ] [DecidableEq δ] (messages : List μ) :
    Decidable (hashing.CollisionFree messages) :=
  inferInstanceAs (Decidable (∀ first ∈ messages, ∀ second ∈ messages, _))

/-- Messages determine what they are made of. -/
structure Binding : Prop where
  leaf_inj : ∀ first second, hashing.leafMessage first = hashing.leafMessage second →
    first = second
  node_inj : ∀ left right left' right',
    hashing.nodeMessage (hashing.digest left) (hashing.digest right) =
      hashing.nodeMessage (hashing.digest left') (hashing.digest right') →
    hashing.digest left = hashing.digest left' ∧ hashing.digest right = hashing.digest right'

def Digests (nodes : List δ) : Prop := ∀ node ∈ nodes, ∃ message, hashing.digest message = node

variable {hashing}

theorem CollisionFree.mono {small large : List μ} (free : hashing.CollisionFree large)
    (included : ∀ message ∈ small, message ∈ large) : hashing.CollisionFree small :=
  fun first one second two same => free first (included first one) second (included second two) same

theorem CollisionFree.fronts {front back front' back' : List μ}
    (free : hashing.CollisionFree ((front ++ back) ++ (front' ++ back'))) :
    hashing.CollisionFree (front ++ front') := by
  refine free.mono fun message member => ?_
  rcases List.mem_append.mp member with member | member
  · exact List.mem_append_left _ (List.mem_append_left _ member)
  · exact List.mem_append_right _ (List.mem_append_left _ member)

theorem CollisionFree.backs {front back front' back' : List μ}
    (free : hashing.CollisionFree ((front ++ back) ++ (front' ++ back'))) :
    hashing.CollisionFree (back ++ back') := by
  refine free.mono fun message member => ?_
  rcases List.mem_append.mp member with member | member
  · exact List.mem_append_left _ (List.mem_append_right _ member)
  · exact List.mem_append_right _ (List.mem_append_right _ member)

theorem digests_level (nodes : List δ) : hashing.Digests (level hashing.node nodes) := by
  -- Each node of the level is the digest of a pair of the nodes below.
  induction nodes using level.induct with
  | case1 left right rest ih =>
    intro node member
    simp only [level, List.mem_cons] at member
    rcases member with rfl | member
    · exact ⟨_, rfl⟩
    · exact ih node member
  | case2 last =>
    intro node member
    simp only [level, List.mem_singleton] at member
    exact ⟨_, member.symm⟩
  | case3 => simp [Digests, level]

theorem node_children (binding : hashing.Binding) {left right left' right' : δ}
    (digests : hashing.Digests [left, right, left', right'])
    (free : hashing.CollisionFree
      [hashing.nodeMessage left right, hashing.nodeMessage left' right'])
    (same : hashing.node left right = hashing.node left' right') : left = left' ∧ right = right' := by
  -- Equal digests come from one message, which determines both digests it is made of.
  obtain ⟨a, rfl⟩ := digests left (by simp)
  obtain ⟨b, rfl⟩ := digests right (by simp)
  obtain ⟨c, rfl⟩ := digests left' (by simp)
  obtain ⟨d, rfl⟩ := digests right' (by simp)
  exact binding.node_inj a b c d (free _ (by simp) _ (by simp) same)

theorem level_inj (binding : hashing.Binding) {nodes others : List δ}
    (length : nodes.length = others.length) (first : hashing.Digests nodes)
    (second : hashing.Digests others)
    (free : hashing.CollisionFree (hashing.levelMessages nodes ++ hashing.levelMessages others))
    (same : level hashing.node nodes = level hashing.node others) : nodes = others := by
  -- Both lists are taken apart two nodes at a time, in step because their lengths agree.
  induction nodes using level.induct generalizing others with
  | case3 => exact (List.length_eq_zero_iff.mp length.symm).symm
  | case2 last =>
    obtain ⟨other, rfl⟩ := List.length_eq_one_iff.mp length.symm
    have tops : hashing.node last last = hashing.node other other := by
      simpa [level] using same
    have digests : hashing.Digests [last, last, other, other] := by
      intro node member
      simp only [List.mem_cons, List.not_mem_nil, or_false, or_self_left] at member
      rcases member with rfl | rfl | rfl
      · exact first _ (by simp)
      · exact second _ (by simp)
      · exact second _ (by simp)
    have children := node_children binding digests (free.mono (by simp [levelMessages])) tops
    rw [children.1]
  | case1 left right rest ih =>
    match others, length, second, free, same with
    | left' :: right' :: rest', length, second, free, same =>
      obtain ⟨heads, tails⟩ := List.cons.inj same
      have digests : hashing.Digests [left, right, left', right'] := by
        intro node member
        simp only [List.mem_cons, List.not_mem_nil, or_false] at member
        rcases member with rfl | rfl | rfl | rfl
        · exact first _ (by simp)
        · exact first _ (by simp)
        · exact second _ (by simp)
        · exact second _ (by simp)
      have split : hashing.CollisionFree
          (([hashing.nodeMessage left right] ++ hashing.levelMessages rest) ++
            ([hashing.nodeMessage left' right'] ++ hashing.levelMessages rest')) := free
      obtain ⟨rfl, rfl⟩ := node_children binding digests split.fronts heads
      have rests : rest = rest' :=
        ih (by simpa using length) (fun node member => first node (by simp [member]))
          (fun node member => second node (by simp [member])) split.backs tails
      rw [rests]
    | [_], length, _, _, _ => simp at length
    | [], length, _, _, _ => simp at length

theorem climb_inj (binding : hashing.Binding) (height : Nat) {nodes others : List δ}
    (length : nodes.length = others.length) (first : hashing.Digests nodes)
    (second : hashing.Digests others)
    (free : hashing.CollisionFree
      (hashing.climbMessages height nodes ++ hashing.climbMessages height others))
    (same : climb hashing.node height nodes = climb hashing.node height others) :
    nodes = others := by
  -- Both climbs stop at the same height, because their levels have the same lengths.
  induction height generalizing nodes others with
  | zero => exact same
  | succ height ih =>
    by_cases higher : nodes.length > 1
    · have alsoHigher : others.length > 1 := length ▸ higher
      simp only [climb, climbMessages, if_pos higher, if_pos alsoHigher] at same free
      -- The levels above agree by induction, and so do the nodes they are made of.
      have levels : level hashing.node nodes = level hashing.node others :=
        ih (by simp [length]) (digests_level nodes) (digests_level others) free.backs same
      exact level_inj binding length first second free.fronts levels
    · have alsoDone : ¬ others.length > 1 := length ▸ higher
      simpa only [climb, if_neg higher, if_neg alsoDone] using same

theorem leaves_inj (binding : hashing.Binding) {leaves others : List α}
    (free : hashing.CollisionFree
      (leaves.map hashing.leafMessage ++ others.map hashing.leafMessage))
    (same : leaves.map hashing.leaf = others.map hashing.leaf) : leaves = others := by
  -- The digests agree position by position, and each comes from one leaf only.
  induction leaves generalizing others with
  | nil => exact (List.map_eq_nil_iff.mp same.symm).symm
  | cons value rest ih =>
    match others, free, same with
    | other :: rest', free, same =>
      obtain ⟨heads, tails⟩ := List.cons.inj same
      have split : hashing.CollisionFree
          (([hashing.leafMessage value] ++ rest.map hashing.leafMessage) ++
            ([hashing.leafMessage other] ++ rest'.map hashing.leafMessage)) := free
      have messages := split.fronts _ (by simp) _ (by simp) heads
      rw [binding.leaf_inj value other messages, ih split.backs tails]
    | [], free, same => cases same

/-- A root commits to its leaves, unless two of the hashed messages collide. -/
theorem rootOf_inj (binding : hashing.Binding) {leaves others : List α}
    (length : leaves.length = others.length)
    (free : hashing.CollisionFree (hashing.messages leaves ++ hashing.messages others))
    (same : hashing.rootOf leaves = hashing.rootOf others) : leaves = others := by
  -- The lists cannot be empty on one side only, and an empty list has nothing to show.
  rcases Nat.eq_zero_or_pos leaves.length with empty | nonempty
  · have alsoEmpty : others.length = 0 := by omega
    rw [List.length_eq_zero_iff.mp empty, List.length_eq_zero_iff.mp alsoEmpty]
  · -- Each climb ends in the single node that is the root.
    have one := climb_single hashing.node leaves.length (leaves.map hashing.leaf)
      (by simpa using nonempty) (by simp)
    have two := climb_single hashing.node leaves.length (others.map hashing.leaf)
      (by simpa [← length] using nonempty) (by simp [length])
    obtain ⟨top, onlyTop⟩ := List.length_eq_one_iff.mp one
    obtain ⟨top', onlyTop'⟩ := List.length_eq_one_iff.mp two
    have tops : climb hashing.node leaves.length (leaves.map hashing.leaf) =
        climb hashing.node leaves.length (others.map hashing.leaf) := by
      simp only [rootOf, root, List.length_map, ← length, onlyTop, onlyTop', List.head?_cons,
        Option.some.injEq] at same
      rw [onlyTop, onlyTop', same]
    have digests : ∀ values : List α, hashing.Digests (values.map hashing.leaf) := by
      intro values node member
      obtain ⟨value, -, rfl⟩ := List.mem_map.mp member
      exact ⟨_, rfl⟩
    simp only [messages, ← length] at free
    have nodes := climb_inj binding leaves.length (by simp [length]) (digests leaves)
      (digests others) free.backs tops
    exact leaves_inj binding free.fronts nodes

end Hashing

end Hsm.Merkle
