import ChannelLog.Json.Source

/-!
# Reading records

How typed values are read from the tree of a JSON text. A record is an object whose known fields
occur at most once and whose other members are passed over, or an array of its fields in order. A
choice is the name of a constructor, or an object with that name over `null`.
-/

namespace ChannelLog.Json.Source

variable {α : Type}

/-! ## Simple values -/

def text? : Source → Option String
  | string s => s
  | _ => none

/-- A natural number below `2 ^ 64`. -/
def natural? : Source → Option Nat
  | number l => match l.number? with
    | some (.integer (.ofNat n)) => some n
    | _ => none
  | _ => none

def list? (read? : Source → Option α) : Source → Option (List α)
  | array items => items.mapM read?
  | _ => none

def member? (read? : Source → Option α) (m : Option String × Source) : Option (String × α) := do
  return (← m.1, ← read? m.2)

/-- All members are read; of several under one key the last stays. -/
def dict? (read? : Source → Option α) : Source → Option (Dict α)
  | object members =>
    (members.mapM (member? read?)).map Dict.ofList
  | _ => none

def choice? (choices : List (String × α)) : Source → Option α
  | string (some name) => choices.lookup name
  | object [(some name, null)] => choices.lookup name
  | _ => none

/-! ## Records -/

/-- The member under `name`, if any; fails if there are several. -/
def unique? (members : List (Option String × Source)) (name : String) : Option (Option Source) :=
  match members.filter (·.1 = some name) with
  | [] => some none
  | [(_, v)] => some (some v)
  | _ => none

/-- The fields of a record in the order of `names`. -/
def fields? (names : List String) : Source → Option (List (Option Source))
  | object members =>
    if members.all (·.1.isSome) then names.mapM (unique? members) else none
  | array items =>
    if items.length ≤ names.length then
      some (items.map some ++ List.replicate (names.length - items.length) none)
    else none
  | _ => none

def required? (read? : Source → Option α) (field : Option Source) : Option α := field.bind read?

/-- A field that may be left out or be `null`. -/
def optional? (read? : Source → Option α) : Option Source → Option (Option α)
  | none | some null => some none
  | some v => (read? v).map some

end ChannelLog.Json.Source
