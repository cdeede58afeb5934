import Hsm.Blockchain.CosmosSigning

/-! Paths of derived keys, and the texts they are printed as and parsed from. -/

namespace Hsm.Blockchain

structure ChildNumber where
  index : UInt32
  hardened : Bool
  deriving DecidableEq, Repr

def ChildNumber.display (child : ChildNumber) : String :=
  u64ToString child.index.toUInt64 ++ if child.hardened then "'" else ""

structure DerivationPath where
  components : List ChildNumber
  deriving DecidableEq, Repr

def DerivationPath.display (path : DerivationPath) : String :=
  .ofList ('m' :: path.components.flatMap fun child => '/' :: child.display.toList)

def isWhitespace (c : Char) : Bool :=
  let code := c.toNat
  (9 ≤ code && code ≤ 13) || (0x2000 ≤ code && code ≤ 0x200A) ||
    [0x20, 0x85, 0xA0, 0x1680, 0x2028, 0x2029, 0x202F, 0x205F, 0x3000].contains code

def trim (chars : List Char) : List Char :=
  ((chars.dropWhile isWhitespace).reverse.dropWhile isWhitespace).reverse

/-- Decimal text of a 32-bit integer. -/
def parseU32 (text : String) : Option UInt32 :=
  ((parseU64 text).filter (·.toNat < 2 ^ 32)).map UInt64.toUInt32

/-- Split the text of a component into that of its index and whether a marker follows it. -/
def splitMarker (part : List Char) : List Char × Bool :=
  if part.getLast? = some '\x27' ∨ part.getLast? = some 'h' ∨ part.getLast? = some 'H' then
    (part.dropLast, true)
  else (part, false)

def parseComponent (part : List Char) : Except BlockchainError ChildNumber :=
  let (indexStr, hardened) := splitMarker part
  match parseU32 (.ofList indexStr) with
  | none => .error (.invalidDerivationPath ("Invalid index: " ++ .ofList part))
  | some index =>
    if index ≥ 0x80000000 then .error (.invalidDerivationPath
      ("Derivation index out of range (must be < 2^31): " ++ .ofList part))
    else .ok ⟨index, hardened⟩

def stripRoot : List Char → List Char
  | 'm' :: '/' :: rest => rest
  | chars => chars

def DerivationPath.fromStr (path : String) : Except BlockchainError DerivationPath :=
  let chars := trim path.toList
  if chars = [] ∨ chars = ['m'] then .ok ⟨[]⟩
  else do
    let parts := (((stripRoot chars).splitOn '/').map trim).filter (· ≠ [])
    return ⟨← parts.mapM parseComponent⟩

theorem trim_eq_self {chars : List Char} (solid : ∀ c ∈ chars, isWhitespace c = false) :
    trim chars = chars := by
  have kept : ∀ {text : List Char}, (∀ c ∈ text, isWhitespace c = false) →
      text.dropWhile isWhitespace = text := by
    intro text solid
    cases text with
    | nil => rfl
    | cons c rest => simp [solid c]
  rw [trim, kept solid, kept fun c member => solid c (List.mem_reverse.mp member),
    List.reverse_reverse]

theorem u64ToString_toList (value : UInt64) :
    (u64ToString value).toList = Nat.toDigits 10 value.toNat := by
  simp [u64ToString]

theorem isWhitespace_of_isDigit {c : Char} (digit : c.isDigit) : isWhitespace c = false := by
  simp only [Char.isDigit, Bool.and_eq_true, decide_eq_true_eq] at digit
  have low : 48 ≤ c.toNat := digit.1
  have high : c.toNat ≤ 57 := digit.2
  simp [isWhitespace]
  omega

theorem ChildNumber.display_solid (child : ChildNumber) :
    child.display.toList ≠ [] ∧
      ∀ c ∈ child.display.toList, isWhitespace c = false ∧ c ≠ '/' := by
  simp only [display, String.toList_append, u64ToString_toList]
  refine ⟨List.append_ne_nil_of_left_ne_nil Nat.toDigits_ne_nil _, fun c member => ?_⟩
  rcases List.mem_append.mp member with digit | marker
  · have isDigit := isDigit_toDigits _ c digit
    refine ⟨isWhitespace_of_isDigit isDigit, ?_⟩
    rintro rfl
    cases isDigit
  · cases hardened : child.hardened <;> simp [hardened] at marker
    subst marker
    decide

theorem parseU32_u64ToString (index : UInt32) :
    parseU32 (u64ToString index.toUInt64) = some index := by
  simp [parseU32, Option.filter, index.toNat_lt]

theorem splitMarker_display (child : ChildNumber) :
    splitMarker child.display.toList =
      ((u64ToString child.index.toUInt64).toList, child.hardened) := by
  cases hardened : child.hardened with
  | true => simp [splitMarker, ChildNumber.display, hardened]
  | false =>
    have last : ∀ {c}, (u64ToString child.index.toUInt64).toList.getLast? = some c →
        c.isDigit := by
      intro c isLast
      have member := List.mem_of_getLast? isLast
      rw [u64ToString_toList] at member
      exact isDigit_toDigits _ c member
    have unmarked : child.display = u64ToString child.index.toUInt64 := by
      simp [ChildNumber.display, hardened]
    rw [splitMarker, unmarked, if_neg]
    -- The last character is a digit, and none of the markers is one.
    rintro (marker | marker | marker) <;> cases last marker

theorem parseComponent_display {child : ChildNumber} (small : child.index.toNat < 2 ^ 31) :
    parseComponent child.display.toList = .ok child := by
  have below : ¬ child.index ≥ 0x80000000 := Nat.not_le.mpr small
  simp [parseComponent, splitMarker_display, parseU32_u64ToString, below]

theorem parseComponent_index {part : List Char} {child : ChildNumber}
    (parsed : parseComponent part = .ok child) : child.index.toNat < 2 ^ 31 := by
  simp only [parseComponent] at parsed
  split at parsed
  · cases parsed
  · split at parsed
    · cases parsed
    · rename_i below
      cases parsed
      exact Nat.not_le.mp below

theorem mapM_parseComponent_display {children : List ChildNumber}
    (small : ∀ child ∈ children, child.index.toNat < 2 ^ 31) :
    (children.map (·.display.toList)).mapM parseComponent = .ok children := by
  induction children with
  | nil => rfl
  | cons child rest ih =>
    rw [List.map_cons, List.mapM_cons, parseComponent_display (small child List.mem_cons_self),
      ih fun other member => small other (List.mem_cons_of_mem _ member)]
    rfl

theorem mapM_parseComponent_index {parts : List (List Char)} {children : List ChildNumber}
    (parsed : parts.mapM parseComponent = .ok children) :
    ∀ child ∈ children, child.index.toNat < 2 ^ 31 := by
  induction parts generalizing children with
  | nil =>
    cases parsed
    simp
  | cons part rest ih =>
    rw [List.mapM_cons] at parsed
    cases first : parseComponent part with
    | error failure =>
      rw [first] at parsed
      cases parsed
    | ok child =>
      cases tail : rest.mapM parseComponent with
      | error failure =>
        rw [first, tail] at parsed
        cases parsed
      | ok others =>
        rw [first, tail] at parsed
        cases parsed
        exact List.forall_mem_cons.mpr ⟨parseComponent_index first, ih tail⟩

/-- The components of a path are printed with a slash before each, and so between any two. -/
theorem flatMap_display (child : ChildNumber) (rest : List ChildNumber) :
    ((child :: rest).flatMap fun child => '/' :: child.display.toList) =
      '/' :: ['/'].intercalate ((child :: rest).map (·.display.toList)) := by
  induction rest generalizing child with
  | nil => simp
  | cons next rest ih =>
    rw [List.flatMap_cons, ih]
    simp [List.intercalate]

theorem ChildNumber.trim_display (child : ChildNumber) :
    trim child.display.toList = child.display.toList :=
  trim_eq_self fun c member => (child.display_solid.2 c member).1

theorem DerivationPath.trim_display (path : DerivationPath) :
    trim path.display.toList = path.display.toList := by
  refine trim_eq_self fun c member => ?_
  simp only [display, String.toList_ofList, List.mem_cons, List.mem_flatMap] at member
  rcases member with rfl | ⟨child, -, rfl | member⟩
  · decide
  · decide
  · exact (child.display_solid.2 c member).1

theorem parts_display (child : ChildNumber) (rest : List ChildNumber) :
    (((['/'].intercalate ((child :: rest).map (·.display.toList))).splitOn '/').map
      trim).filter (· ≠ []) = (child :: rest).map (·.display.toList) := by
  rw [List.splitOn_intercalate _ ?_ (by simp), List.map_map, List.filter_eq_self.mpr ?_]
  · exact List.map_congr_left fun child _ => child.trim_display
  · intro part member
    obtain ⟨child, -, rfl⟩ := List.mem_map.mp member
    simpa [ChildNumber.trim_display] using child.display_solid.1
  · intro part member slash
    obtain ⟨child, -, rfl⟩ := List.mem_map.mp member
    exact (child.display_solid.2 _ slash).2 rfl

/-- Paths with indices in range are read back as printed, and no others are ever read. -/
theorem derivation_path_round_trip :
    (∀ path : DerivationPath, (∀ child ∈ path.components, child.index.toNat < 2 ^ 31) →
      DerivationPath.fromStr path.display = .ok path) ∧
      ∀ text path, DerivationPath.fromStr text = .ok path →
        ∀ child ∈ path.components, child.index.toNat < 2 ^ 31 := by
  constructor
  · rintro ⟨components⟩ small
    rw [DerivationPath.fromStr, DerivationPath.trim_display, DerivationPath.display,
      String.toList_ofList]
    cases components with
    | nil => rfl
    | cons child rest =>
      rw [flatMap_display, if_neg (by simp)]
      simp only [stripRoot, parts_display, mapM_parseComponent_display small]
      rfl
  · intro text path accepted
    rw [DerivationPath.fromStr] at accepted
    split at accepted
    · cases accepted
      simp
    · simp only [bind, Except.bind] at accepted
      split at accepted
      · cases accepted
      · rename_i children parsed
        cases accepted
        exact mapM_parseComponent_index parsed

theorem derivation_path_round_trip_ethereum :
    DerivationPath.fromStr (DerivationPath.display ⟨[⟨44, true⟩, ⟨60, true⟩, ⟨0, false⟩]⟩) =
      .ok ⟨[⟨44, true⟩, ⟨60, true⟩, ⟨0, false⟩]⟩ :=
  derivation_path_round_trip.1 _ (by decide)

end Hsm.Blockchain
