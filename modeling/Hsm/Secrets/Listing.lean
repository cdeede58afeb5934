import Hsm.Lib.DictSum
import Hsm.Secrets.Store

/-! Paths of secrets, and which of them a listing below a path returns. -/

namespace Hsm.Secrets

namespace SecretPath

def doubled : List Char → Bool
  | '/' :: '/' :: _ => true
  | _ :: rest => doubled rest
  | [] => false

def new (path : String) : Except SecretError SecretPath :=
  if path.toList = [] then .error (.invalidPath "Path cannot be empty")
  else if path.toList.head? ≠ some '/' then .error (.invalidPath "Path must start with /")
  else if doubled path.toList then .error (.invalidPath "Path cannot contain //")
  else .ok path

/-- The segments between slashes. -/
def segments (path : List Char) : List (List Char) := (path.splitOn '/').filter (· ≠ [])

/-- The path is the lead, or goes on after its segments. -/
def Below (lead path : SecretPath) : Prop :=
  path = lead ∨ segments lead.toList <+: segments path.toList ∧
    segments lead.toList ≠ segments path.toList

theorem segments_append (first second : List Char) :
    segments (first ++ '/' :: second) = segments first ++ segments second := by
  rw [segments, List.splitOn_append_cons_self, List.filter_append]
  rfl

theorem segments_cons_ne_nil {c : Char} (plain : c ≠ '/') (rest : List Char) :
    segments (c :: rest) ≠ [] := by
  rw [segments, List.splitOn_cons_eq_if_modifyHead, if_neg (by simpa using plain)]
  cases found : rest.splitOn '/' with
  | nil => exact absurd found (List.splitOn_ne_nil _ _)
  | cons => simp

theorem segments_of_notMem {segment : List Char} (plain : '/' ∉ segment) (nonempty : segment ≠ []) :
    segments ('/' :: segment) = [segment] := by
  rw [← List.nil_append ('/' :: segment), segments_append]
  simp [segments, List.splitOn_eq_singleton plain, nonempty]

theorem doubled_of_append {first second : List Char} (single : doubled (first ++ second) = false) :
    doubled second = false := by
  induction first with
  | nil => exact single
  | cons c first ih =>
    apply ih
    rw [List.cons_append] at single
    unfold doubled at single
    split at single <;> simp_all

/-- A valid path is made of its segments. -/
theorem rebuilt (path : List Char) (rooted : path.head? = some '/')
    (single : doubled path = false) :
    ∃ tail, path = (segments path).flatMap ('/' :: ·) ++ tail ∧
      (tail = ['/'] ∨ tail = [] ∧ segments path ≠ []) := by
  induction size : path.length using Nat.strong_induction_on generalizing path with
  | _ count ih =>
    obtain ⟨rest, rfl⟩ : ∃ rest, path = '/' :: rest := by
      cases path with
      | nil => cases rooted
      | cons c rest => exact ⟨rest, by rw [Option.some.inj rooted]⟩
    cases rest with
    | nil => exact ⟨['/'], by decide, .inl rfl⟩
    | cons c rest =>
      have plain : c ≠ '/' := by
        rintro rfl
        cases single
      by_cases slash : '/' ∈ c :: rest
      · -- The first segment goes up to the next slash.
        obtain ⟨segment, more, whole, inside⟩ := List.eq_append_cons_of_mem slash
        have nonempty : segment ≠ [] := by
          rintro rfl
          exact plain (List.cons.inj whole).1
        rw [whole, ← List.cons_append] at single size ⊢
        have length : ('/' :: more).length < count := by simp at size ⊢; omega
        obtain ⟨tail, rebuilt, ends⟩ := ih _ length _ rfl (doubled_of_append single) rfl
        have more' : segments ('/' :: more) = segments more := segments_append [] more
        rw [segments_append, segments_of_notMem inside nonempty, ← more']
        refine ⟨tail, ?_, ends.imp_right fun ends => ⟨ends.1, by simp⟩⟩
        rw [List.singleton_append, List.flatMap_cons, List.append_assoc, ← rebuilt]
      · rw [segments_of_notMem slash (by simp)]
        exact ⟨[], by simp, .inr ⟨rfl, by simp⟩⟩

theorem new_eq_ok {path : SecretPath} (valid : SecretPath.new path = .ok path) :
    path.toList.head? = some '/' ∧ doubled path.toList = false := by
  unfold SecretPath.new at valid
  split_ifs at valid
  simp_all

theorem prefix_of_below {lead path : SecretPath} (valid : SecretPath.new lead = .ok lead)
    (validPath : SecretPath.new path = .ok path) (below : Below lead path) :
    lead.toList <+: path.toList := by
  rcases below with rfl | ⟨⟨more, segmented⟩, longer⟩
  · exact List.prefix_rfl
  · obtain ⟨tail, isLead, ends⟩ := rebuilt _ (new_eq_ok valid).1 (new_eq_ok valid).2
    obtain ⟨end_, isPath, -⟩ := rebuilt _ (new_eq_ok validPath).1 (new_eq_ok validPath).2
    rw [← segmented] at isPath
    cases more with
    | nil => exact absurd (by simpa using segmented) longer
    | cons next more =>
      rw [isLead, isPath]
      rw [List.flatMap_append, List.flatMap_cons, List.append_assoc, List.prefix_append_right_inj]
      rcases ends with rfl | ⟨rfl, -⟩
      · exact ⟨_, rfl⟩
      · exact List.nil_prefix

theorem segments_ne_nil {before after : List Char}
    (single : doubled (before ++ '/' :: after) = false) (nonempty : after ≠ []) :
    segments after ≠ [] := by
  cases after with
  | nil => exact absurd rfl nonempty
  | cons c after =>
    apply segments_cons_ne_nil
    rintro rfl
    cases doubled_of_append single

theorem below_of_segments {lead path : SecretPath} {more : List (List Char)} (longer : more ≠ [])
    (segmented : segments path.toList = segments lead.toList ++ more) : Below lead path := by
  refine .inr ⟨⟨more, segmented.symm⟩, fun same => longer ?_⟩
  simpa [same] using segmented

/-- What follows a lead is below it after a slash. -/
theorem below_append_iff {lead path : SecretPath} {rest : List Char}
    (valid : SecretPath.new lead = .ok lead) (validPath : SecretPath.new path = .ok path)
    (starts : path.toList = lead.toList ++ rest) :
    Below lead path ↔ rest = [] ∨ (∃ parent, lead.toList = parent ++ ['/']) ∨
      ∃ more, rest = '/' :: more ∧ more ≠ [] := by
  have single := (new_eq_ok validPath).2
  rw [starts] at single
  constructor
  · rintro (rfl | ⟨⟨more, segmented⟩, longer⟩)
    · exact .inl (by simpa using starts)
    · obtain ⟨tail, isLead, ends⟩ := rebuilt _ (new_eq_ok valid).1 (new_eq_ok valid).2
      rcases ends with rfl | ⟨rfl, -⟩
      · exact .inr (.inl ⟨_, isLead⟩)
      · -- The lead ends with a segment, so the next one starts with a slash.
        obtain ⟨end_, isPath, -⟩ := rebuilt _ (new_eq_ok validPath).1 (new_eq_ok validPath).2
        rw [← segmented, List.flatMap_append, List.append_assoc,
          ← List.append_nil (List.flatMap _ (segments lead.toList)), ← isLead, starts,
          List.append_cancel_left_eq] at isPath
        cases more with
        | nil => exact absurd (by simpa using segmented) longer
        | cons next more =>
          refine .inr (.inr ⟨next ++ (more.flatMap ('/' :: ·) ++ end_), by simpa using isPath, ?_⟩)
          have member : next ∈ segments path.toList := by simp [← segmented]
          have nonempty : next ≠ [] := by simpa using (List.mem_filter.mp member).2
          simp [nonempty]
  · rintro (rfl | ⟨parent, slashed⟩ | ⟨more, rfl, nonempty⟩)
    · exact .inl (String.toList_inj.mp (by simpa using starts))
    · rcases eq_or_ne rest [] with rfl | nonempty
      · exact .inl (String.toList_inj.mp (by simpa using starts))
      · rw [slashed, List.append_assoc] at starts single
        refine below_of_segments (segments_ne_nil single nonempty) ?_
        rw [starts, slashed]
        exact (segments_append parent rest).trans
          (by rw [segments_append parent []]; simp [segments])
    · exact below_of_segments (segments_ne_nil single nonempty) (by rw [starts, segments_append])

end SecretPath

open SecretPath

/-- A listing is exact if and only if what stored paths have after the lead starts a segment. -/
theorem listing_exact_iff {ν : Type} (store : SecretStore ν) (lead : SecretPath)
    (valid : SecretPath.new lead = .ok lead)
    (stored : ∀ path ∈ store.secrets, SecretPath.new path = .ok path) :
    let listed := ((SecretStore.list lead).runAlone store).1
    listed.Nodup ∧
      ((∀ path, path ∈ listed ↔ path ∈ store.secrets ∧ SecretPath.Below lead path) ↔
        ∀ path ∈ store.secrets, ∀ rest, path.toList = lead.toList ++ rest →
          rest = [] ∨ (∃ parent, lead.toList = parent ++ ['/']) ∨
            ∃ more, rest = '/' :: more ∧ more ≠ []) := by
  intro listed
  have member : ∀ path, path ∈ listed ↔ path ∈ store.secrets ∧ lead.toList <+: path.toList := by
    intro path
    simp [listed, SecretStore.list]
  refine ⟨?_, ?_⟩
  · exact (Dict.nodup_keys store.secrets).filter _
  · simp only [member, and_congr_right_iff]
    refine forall₂_congr fun path isStored => ⟨fun exact_ rest starts => ?_, fun follows => ?_⟩
    · exact (below_append_iff valid (stored path isStored) starts).mp
        (exact_.mp ⟨rest, starts.symm⟩)
    · refine ⟨?_, prefix_of_below valid (stored path isStored)⟩
      rintro ⟨rest, starts⟩
      exact (below_append_iff valid (stored path isStored) starts.symm).mpr
        (follows rest starts.symm)

def sampleStore (paths : List SecretPath) : SecretStore Unit :=
  ⟨.ofList (paths.map fun path => (path, ⟨"id", path, 1, {}, 0, 0⟩)) compare, ∅⟩

theorem sibling_listed :
    ((SecretStore.list "/app").runAlone (sampleStore ["/app/key", "/apple"])).1 =
      ["/app/key", "/apple"] ∧ ¬ Below "/app" "/apple" := by
  refine ⟨by decide +kernel, ?_⟩
  rintro (same | ⟨starts, -⟩)
  · exact absurd same (by decide)
  · exact absurd starts (by decide +kernel)

theorem listing_exact_beside :
    ((SecretStore.list "/app").runAlone (sampleStore ["/app/key", "/other/key"])).1.Nodup ∧
      ∀ path, path ∈ ((SecretStore.list "/app").runAlone
          (sampleStore ["/app/key", "/other/key"])).1 ↔
        path ∈ (sampleStore ["/app/key", "/other/key"]).secrets ∧ Below "/app" path := by
  have either : ∀ path ∈ (sampleStore ["/app/key", "/other/key"]).secrets,
      path = "/app/key" ∨ path = "/other/key" := by
    intro path member
    simpa [sampleStore] using member
  obtain ⟨once, exactly⟩ := listing_exact_iff (sampleStore ["/app/key", "/other/key"]) "/app"
    (by decide +kernel) fun path member => by
      rcases either path member with rfl | rfl <;> decide +kernel
  refine ⟨once, exactly.mpr fun path member rest starts => ?_⟩
  rcases either path member with rfl | rfl
  · exact .inr (.inr ⟨['k', 'e', 'y'], by simpa using starts.symm⟩)
  · -- The other path does not start with the lead.
    simp at starts

end Hsm.Secrets
