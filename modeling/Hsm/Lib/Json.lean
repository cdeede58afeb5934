import Mathlib.Data.Nat.Notation

/-! JSON values and their compact text. -/

namespace Hsm

inductive JsonValue where
  | null
  | bool (value : Bool)
  | number (literal : String)
  | string (text : String)
  | array (items : List JsonValue)
  | object (entries : List (String × JsonValue))

namespace JsonValue

/-- A character inside a JSON string. -/
def escape (c : Char) : List Char :=
  match c with
  | '"' => ['\\', '"']
  | '\\' => ['\\', '\\']
  | '\n' => ['\\', 'n']
  | '\r' => ['\\', 'r']
  | '\t' => ['\\', 't']
  | '\x08' => ['\\', 'b']
  | '\x0c' => ['\\', 'f']
  | _ =>
    -- Other control characters are written by code point, and everything else as it is.
    if c.toNat < 0x20 then
      ['\\', 'u', '0', '0', Nat.digitChar (c.toNat / 16), Nat.digitChar (c.toNat % 16)]
    else [c]

def quote (text : String) : List Char := '"' :: (text.toList.flatMap escape ++ ['"'])

mutual

def chars : JsonValue → List Char
  | .null => "null".toList
  | .bool value => (if value then "true" else "false").toList
  | .number literal => literal.toList
  | .string text => quote text
  | .array items => '[' :: (itemChars items ++ [']'])
  | .object entries => '\x7b' :: (entryChars entries ++ ['\x7d'])

def itemChars : List JsonValue → List Char
  | [] => []
  | [last] => chars last
  | first :: rest => chars first ++ ',' :: itemChars rest

def entryChars : List (String × JsonValue) → List Char
  | [] => []
  | [(key, value)] => quote key ++ ':' :: chars value
  | (key, value) :: rest => quote key ++ ':' :: (chars value ++ ',' :: entryChars rest)

end

def print (value : JsonValue) : String := String.ofList value.chars

/-- A parser goes into one more array or object. -/
def nested {α : Type} (room : Nat) (inner : Nat → Except String α) : Except String α :=
  if room ≤ 1 then .error "recursion limit exceeded" else inner (room - 1)

mutual

/-- The value that a parser reads from the text of another, in so much room for nesting. -/
def reread (readNumber : String → String) (room : Nat) : JsonValue → Except String JsonValue
  | .number literal => .ok (.number (readNumber literal))
  | .array items => (nested room fun room => rereadItems readNumber room items).map .array
  | .object entries => (nested room fun room => rereadEntries readNumber room entries).map .object
  | value => .ok value

def rereadItems (readNumber : String → String) (room : Nat) :
    List JsonValue → Except String (List JsonValue)
  | [] => .ok []
  | item :: rest => do
    return (← reread readNumber room item) :: (← rereadItems readNumber room rest)

def rereadEntries (readNumber : String → String) (room : Nat) :
    List (String × JsonValue) → Except String (List (String × JsonValue))
  | [] => .ok []
  | (key, value) :: rest => do
    return (key, ← reread readNumber room value) :: (← rereadEntries readNumber room rest)

end

example : print (.object [("failure", .object [("reason", .string "a\nb")])]) =
    "\x7b\"failure\":\x7b\"reason\":\"a\\nb\"\x7d\x7d" := by
  decide +kernel

end JsonValue

end Hsm
