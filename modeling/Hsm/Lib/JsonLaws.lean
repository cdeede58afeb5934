import Hsm.Lib.Json
import Hsm.Lib.Text
import Mathlib.Tactic.IntervalCases

/-! Reading compact JSON text: a value is found again in front of whatever follows it. -/

namespace Hsm.JsonValue

def digitValue (c : Char) : Nat := if c.toNat < 97 then c.toNat - 48 else c.toNat - 87

def unescape : List Char → Option (Char × List Char)
  | '\\' :: '"' :: rest => some ('"', rest)
  | '\\' :: '\\' :: rest => some ('\\', rest)
  | '\\' :: 'n' :: rest => some ('\n', rest)
  | '\\' :: 'r' :: rest => some ('\r', rest)
  | '\\' :: 't' :: rest => some ('\t', rest)
  | '\\' :: 'b' :: rest => some ('\x08', rest)
  | '\\' :: 'f' :: rest => some ('\x0c', rest)
  | '\\' :: 'u' :: '0' :: '0' :: high :: low :: rest =>
    some (Char.ofNat (16 * digitValue high + digitValue low), rest)
  | '"' :: _ => none
  | c :: rest => some (c, rest)
  | [] => none

theorem unescape_escape (c : Char) (rest : List Char) :
    unescape (escape c ++ rest) = some (c, rest) := by
  -- Seven characters have escapes of their own, other controls go by code point.
  unfold escape
  split
  · rfl
  · rfl
  · rfl
  · rfl
  · rfl
  · rfl
  · rfl
  · rename_i notQuote notBackslash _ _ _ _ _
    split
    · rename_i control
      have code : c = Char.ofNat c.toNat := by simp
      rw [code]
      generalize c.toNat = n at control
      interval_cases n <;> rfl
    · simp only [List.singleton_append]
      unfold unescape
      split <;> simp_all

theorem escaped_read {text other : List Char} {rest rest' : List Char}
    (same : text.flatMap escape ++ '"' :: rest = other.flatMap escape ++ '"' :: rest') :
    text = other ∧ rest = rest' := by
  induction text generalizing other with
  | nil =>
    cases other with
    | nil => exact ⟨rfl, (List.cons.inj same).2⟩
    | cons c others =>
      have read := congrArg unescape same
      rw [List.flatMap_cons, List.append_assoc, unescape_escape] at read
      cases read
  | cons c texts ih =>
    cases other with
    | nil =>
      have read := congrArg unescape same
      rw [List.flatMap_cons, List.append_assoc, unescape_escape] at read
      cases read
    | cons d others =>
      have read := congrArg unescape same
      rw [List.flatMap_cons, List.flatMap_cons, List.append_assoc, List.append_assoc,
        unescape_escape, unescape_escape] at read
      obtain ⟨rfl, rests⟩ := Prod.mk.inj (Option.some.inj read)
      obtain ⟨rfl, rfl⟩ := ih rests
      exact ⟨rfl, rfl⟩

theorem quote_read {text other : String} {rest rest' : List Char}
    (same : quote text ++ rest = quote other ++ rest') : text = other ∧ rest = rest' := by
  simp only [quote, List.cons_append, List.append_assoc, List.cons.injEq, true_and,
    List.nil_append] at same
  obtain ⟨texts, rests⟩ := escaped_read same
  exact ⟨String.toList_inj.mp texts, rests⟩

def numeric (c : Char) : Bool :=
  c.isDigit || c == '-' || c == '+' || c == '.' || c == 'e' || c == 'E'

mutual

def Valid : JsonValue → Prop
  | .number literal => literal.toList ≠ [] ∧ ∀ c ∈ literal.toList, numeric c
  | .array items => ItemsValid items
  | .object entries => EntriesValid entries
  | _ => True

def ItemsValid : List JsonValue → Prop
  | [] => True
  | first :: rest => first.Valid ∧ ItemsValid rest

def EntriesValid : List (String × JsonValue) → Prop
  | [] => True
  | (_, value) :: rest => value.Valid ∧ EntriesValid rest

end

/-- What follows does not prolong the value. -/
def Ends : JsonValue → List Char → Prop
  | .number _, rest => ∀ c ∈ rest.head?, numeric c = false
  | _, _ => True

theorem Ends.cons {c : Char} (other : numeric c = false) (value : JsonValue) (rest : List Char) :
    value.Ends (c :: rest) := by
  cases value with
  | number literal =>
    intro first member
    obtain rfl := Option.some.inj member
    exact other
  | _ => trivial

/-- The first character tells the kind. -/
def Starts : JsonValue → Char → Prop
  | .null, c => c = 'n'
  | .bool true, c => c = 't'
  | .bool false, c => c = 'f'
  | .number _, c => numeric c
  | .string _, c => c = '"'
  | .array _, c => c = '['
  | .object _, c => c = '\x7b'

variable {value : JsonValue}

theorem chars_starts (valid : value.Valid) :
    ∃ c rest, value.chars = c :: rest ∧ value.Starts c := by
  cases value with
  | null => exact ⟨_, _, rfl, rfl⟩
  | bool value => cases value <;> exact ⟨_, _, rfl, rfl⟩
  | number literal =>
    obtain ⟨nonempty, all⟩ := valid
    cases read : literal.toList with
    | nil => exact absurd read nonempty
    | cons c rest => exact ⟨c, rest, read, all c (by simp [read])⟩
  | string text => exact ⟨_, _, rfl, rfl⟩
  | array items => exact ⟨_, _, rfl, rfl⟩
  | object entries => exact ⟨_, _, rfl, rfl⟩

def kind : JsonValue → Nat
  | .null => 0
  | .bool true => 1
  | .bool false => 2
  | .number _ => 3
  | .string _ => 4
  | .array _ => 5
  | .object _ => 6

def kindFrom (c : Char) : Nat :=
  if numeric c then 3
  else
    match c with
    | 'n' => 0
    | 't' => 1
    | 'f' => 2
    | '"' => 4
    | '[' => 5
    | _ => 6

theorem Starts.kind {c : Char} (starts : value.Starts c) :
    value.kind = kindFrom c := by
  match value, starts with
  | .null, rfl => rfl
  | .bool true, rfl => rfl
  | .bool false, rfl => rfl
  | .number _, isNumeric =>
    have isNumeric : numeric c = true := isNumeric
    simp [kindFrom, isNumeric, JsonValue.kind]
  | .string _, rfl => rfl
  | .array _, rfl => rfl
  | .object _, rfl => rfl

theorem chars_not_closing (valid : value.Valid) {rest tail : List Char} :
    ']' :: rest ≠ value.chars ++ tail := by
  obtain ⟨c, others, first, starts⟩ := chars_starts valid
  intro same
  rw [first] at same
  obtain ⟨rfl, -⟩ := List.cons.inj same
  match value, starts with
  | .number _, starts =>
    have isNumeric : numeric ']' = true := starts
    exact absurd isNumeric (by decide)

theorem itemChars_cons (first : JsonValue) (items : List JsonValue) :
    itemChars (first :: items) =
      first.chars ++ (if items.isEmpty then [] else ',' :: itemChars items) := by
  cases items <;> simp [itemChars]

theorem entryChars_cons (key : String) (value : JsonValue) (entries : List (String × JsonValue)) :
    entryChars ((key, value) :: entries) =
      quote key ++ ':' :: (value.chars ++
        (if entries.isEmpty then [] else ',' :: entryChars entries)) := by
  cases entries <;> simp [entryChars]

theorem ends_followed {close : Char} (closing : numeric close = false) (value : JsonValue)
    (last : Bool) (others rest : List Char) :
    value.Ends ((if last then [] else ',' :: others) ++ close :: rest) := by
  cases last with
  | true => exact .cons closing value rest
  | false => exact .cons (by decide) value _

mutual

/-- A valid value is read back in front of what does not prolong it. -/
theorem chars_read (value other : JsonValue) (valid : value.Valid) (also : other.Valid)
    {rest rest' : List Char} (ends : value.Ends rest) (ends' : other.Ends rest')
    (same : value.chars ++ rest = other.chars ++ rest') : value = other ∧ rest = rest' := by
  -- The first characters agree, so both values are of one kind.
  obtain ⟨c, tail, first, starts⟩ := chars_starts valid
  obtain ⟨d, tail', second, starts'⟩ := chars_starts also
  have heads := same
  rw [first, second] at heads
  obtain ⟨rfl, -⟩ := List.cons.inj heads
  have kinds := starts.kind.trans starts'.kind.symm
  match value, other, kinds with
  | .null, .null, _ => exact ⟨rfl, List.append_cancel_left same⟩
  | .bool true, .bool true, _ => exact ⟨rfl, List.append_cancel_left same⟩
  | .bool false, .bool false, _ => exact ⟨rfl, List.append_cancel_left same⟩
  | .number literal, .number literal', _ =>
    obtain ⟨literals, rests⟩ := run_read numeric valid.2 also.2 ends ends' same
    exact ⟨by rw [String.toList_inj.mp literals], rests⟩
  | .string text, .string text', _ =>
    obtain ⟨rfl, rests⟩ := quote_read same
    exact ⟨rfl, rests⟩
  | .array items, .array items', _ =>
    simp only [chars, List.cons_append, List.append_assoc, List.nil_append, List.cons.injEq,
      true_and] at same
    obtain ⟨rfl, rests⟩ := itemChars_read items items' valid also same
    exact ⟨rfl, rests⟩
  | .object entries, .object entries', _ =>
    simp only [chars, List.cons_append, List.append_assoc, List.nil_append, List.cons.injEq,
      true_and] at same
    obtain ⟨rfl, rests⟩ := entryChars_read entries entries' valid also same
    exact ⟨rfl, rests⟩

theorem itemChars_read (items others : List JsonValue) (valid : ItemsValid items)
    (also : ItemsValid others) {rest rest' : List Char}
    (same : itemChars items ++ ']' :: rest = itemChars others ++ ']' :: rest') :
    items = others ∧ rest = rest' := by
  match items, others with
  | [], [] => exact ⟨rfl, (List.cons.inj same).2⟩
  | [], other :: others =>
    rw [itemChars_cons, List.append_assoc] at same
    exact absurd same (chars_not_closing also.1)
  | item :: items, [] =>
    rw [itemChars_cons, List.append_assoc] at same
    exact absurd same.symm (chars_not_closing valid.1)
  | item :: items, other :: others =>
    -- The first items agree, and then both arrays end or both go on.
    rw [itemChars_cons, itemChars_cons, List.append_assoc, List.append_assoc] at same
    obtain ⟨rfl, tails⟩ := chars_read item other valid.1 also.1
      (ends_followed (by decide) item _ _ _) (ends_followed (by decide) other _ _ _) same
    match items, others with
    | [], [] => exact ⟨rfl, (List.cons.inj tails).2⟩
    | [], _ :: _ => exact absurd (List.cons.inj tails).1 (by decide)
    | _ :: _, [] => exact absurd (List.cons.inj tails).1 (by decide)
    | next :: items, next' :: others =>
      obtain ⟨rest, rests⟩ := itemChars_read (next :: items) (next' :: others) valid.2 also.2
        (List.cons.inj tails).2
      exact ⟨by rw [rest], rests⟩

theorem entryChars_read (entries others : List (String × JsonValue)) (valid : EntriesValid entries)
    (also : EntriesValid others) {rest rest' : List Char}
    (same : entryChars entries ++ '\x7d' :: rest = entryChars others ++ '\x7d' :: rest') :
    entries = others ∧ rest = rest' := by
  match entries, others with
  | [], [] => exact ⟨rfl, (List.cons.inj same).2⟩
  | [], (_, _) :: others =>
    rw [entryChars_cons] at same
    exact absurd (List.cons.inj same).1 (by decide)
  | (_, _) :: entries, [] =>
    rw [entryChars_cons] at same
    exact absurd (List.cons.inj same).1 (by decide)
  | (key, value) :: entries, (key', value') :: others =>
    -- Keys are quoted and values end before a comma or the closing brace.
    rw [entryChars_cons, entryChars_cons, List.append_assoc, List.append_assoc] at same
    obtain ⟨rfl, tails⟩ := quote_read same
    rw [List.cons_append, List.cons_append, List.append_assoc, List.append_assoc] at tails
    have tails := (List.cons.inj tails).2
    obtain ⟨rfl, after⟩ := chars_read value value' valid.1 also.1
      (ends_followed (by decide) value _ _ _) (ends_followed (by decide) value' _ _ _) tails
    match entries, others with
    | [], [] => exact ⟨rfl, (List.cons.inj after).2⟩
    | [], _ :: _ => exact absurd (List.cons.inj after).1 (by decide)
    | _ :: _, [] => exact absurd (List.cons.inj after).1 (by decide)
    | next :: entries, next' :: others =>
      obtain ⟨rest, rests⟩ := entryChars_read (next :: entries) (next' :: others) valid.2 also.2
        (List.cons.inj after).2
      exact ⟨by rw [rest], rests⟩

end

/-- Every value but a number shows its own end. -/
def Delimited : JsonValue → Prop
  | .number _ => False
  | _ => True

variable {value : JsonValue}

theorem Delimited.ends (delimited : value.Delimited) (rest : List Char) :
    value.Ends rest := by
  cases value with
  | number literal => exact delimited.elim
  | _ => trivial

theorem ends_nil (value : JsonValue) : value.Ends [] := by
  cases value with
  | number literal => exact fun c member => nomatch member
  | _ => trivial

theorem print_read {other : JsonValue} (valid : value.Valid) (also : other.Valid)
    (delimited : value.Delimited) (delimited' : other.Delimited) {rest rest' : Bytes}
    (same : asBytes value.print ++ rest = asBytes other.print ++ rest') :
    value = other ∧ rest = rest' := by
  exact asBytes_read (fun rest rest' same =>
    chars_read value other valid also (delimited.ends rest) (delimited'.ends rest') same) same

theorem print_inj {other : JsonValue} (valid : value.Valid) (also : other.Valid)
    (same : value.print = other.print) : value = other := by
  have texts := congrArg String.toList same
  simp only [print, String.toList_ofList] at texts
  exact (chars_read value other valid also (ends_nil value) (ends_nil other) (by rw [texts])).1

theorem print_ne_empty (valid : value.Valid) : value.print ≠ "" := by
  intro empty
  obtain ⟨c, rest, first, -⟩ := chars_starts valid
  have texts := congrArg String.toList empty
  simp [print, first] at texts

end Hsm.JsonValue
