import ChannelLog.Json.Token

/-!
# JSON texts taken apart

The tree of a text as it was written: members in their order, keys that occur more than once,
numbers by their digits. What it denotes, and whether it denotes anything, is a second question
(`Source.value?`), because what nobody looks at need only be well formed.

A text is a list of tokens, and the tree is built by a machine that takes one token at a time. Its
stack holds the arrays and objects that are still open.
-/

namespace ChannelLog.Json

/-- A JSON text as it was written. A string that denotes no text is none. -/
inductive Source where
  | null
  | bool (b : Bool)
  | number (l : Literal)
  | string (s : Option String)
  | array (items : List Source)
  | object (members : List (Option String × Source))

namespace Source

/-- An array or object still open, with what it holds so far, last first. -/
inductive Frame where
  | items (done : List Source)
  | members (done : List (Option String × Source))
  /-- An object whose next value comes under `key`. -/
  | member (done : List (Option String × Source)) (key : Option String)

/-- What the next token has to be. -/
inductive Mode where
  | value
  /-- An array was opened: a value or its end. -/
  | firstItem
  /-- An object was opened: a key or its end. -/
  | firstKey
  /-- A comma was read in an object. -/
  | key
  /-- A key was read. -/
  | colon (key : Option String)
  /-- `v` was read: what follows belongs to what encloses it. -/
  | after (v : Source)

/-- The machine between two tokens. -/
structure Machine where
  mode : Mode
  stack : List Frame

/-- Takes in the first token of a value. -/
def openValue (stack : List Frame) : Token → Option Machine
  | .null => some ⟨.after .null, stack⟩
  | .true => some ⟨.after (.bool Bool.true), stack⟩
  | .false => some ⟨.after (.bool Bool.false), stack⟩
  | .number l => some ⟨.after (.number l), stack⟩
  | .string s => some ⟨.after (.string s), stack⟩
  | .openArray => some ⟨.firstItem, .items [] :: stack⟩
  | .openObject => some ⟨.firstKey, .members [] :: stack⟩
  | _ => none

/-- Takes in a token after the value `v`. -/
def closeValue (v : Source) : Token → List Frame → Option Machine
  | .comma, .items done :: stack => some ⟨.value, .items (v :: done) :: stack⟩
  | .comma, .member done key :: stack => some ⟨.key, .members ((key, v) :: done) :: stack⟩
  | .closeArray, .items done :: stack => some ⟨.after (.array (v :: done).reverse), stack⟩
  | .closeObject, .member done key :: stack =>
    some ⟨.after (.object ((key, v) :: done).reverse), stack⟩
  | _, _ => none

def Machine.step (m : Machine) (t : Token) : Option Machine :=
  match m.mode, t, m.stack with
  | .value, t, stack => openValue stack t
  | .firstItem, .closeArray, .items _ :: stack => some ⟨.after (.array []), stack⟩
  | .firstItem, t, stack => openValue stack t
  | .firstKey, .closeObject, .members _ :: stack => some ⟨.after (.object []), stack⟩
  | .firstKey, .string key, stack => some ⟨.colon key, stack⟩
  | .key, .string key, stack => some ⟨.colon key, stack⟩
  | .colon key, .colon, .members done :: stack => some ⟨.value, .member done key :: stack⟩
  | .after v, t, stack => closeValue v t stack
  | _, _, _ => none

def ofTokens? (ts : List Token) : Option Source :=
  match ts.foldlM Machine.step ⟨.value, []⟩ with
  | some ⟨.after v, []⟩ => some v
  | _ => none

def ofText? (s : String) : Option Source := do ofTokens? (← tokens? s.toList)

/-! ## What a tree denotes -/

mutual

/-- The value of a tree in which arrays and objects are nested at most `depth` deep. -/
def value? (depth : Nat) : Source → Option Json
  | null => some .null
  | bool b => some (.bool b)
  | number l => l.number?.map .number
  | string s => s.map .string
  | array items => match depth with
    | 0 => none
    | depth + 1 => (itemValues? depth items).map .array
  | object members => match depth with
    | 0 => none
    | depth + 1 => (memberValues? depth members).map fun ms => .object (sortMembers ms)

def itemValues? (depth : Nat) : List Source → Option (List Json)
  | [] => some []
  | v :: items => do return (← value? depth v) :: (← itemValues? depth items)

def memberValues? (depth : Nat) : List (Option String × Source) → Option (List (String × Json))
  | [] => some []
  | (key, v) :: members => do
    return (← key, ← value? depth v) :: (← memberValues? depth members)

end

end Source

/-- How deep arrays and objects may be nested. -/
def depthLimit : Nat := 127

def ofText? (s : String) : Option Json := do (← Source.ofText? s).value? depthLimit

end ChannelLog.Json
