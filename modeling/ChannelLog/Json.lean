import ChannelLog.Dict
import ChannelLog.Double

/-!
# JSON values

Values without the text they were read from. The members of an object stand in a list: what reads
or normalises values keeps that list in ascending order of keys without repetition, see
`Json.sortMembers`.
-/

namespace ChannelLog

/-- A number: whole numbers are kept apart from floating-point ones. -/
inductive Number where
  | integer (i : Int)
  | float (x : Double)
deriving DecidableEq

inductive Json where
  | null
  | bool (b : Bool)
  | number (n : Number)
  | string (s : String)
  | array (items : List Json)
  | object (members : List (String × Json))

namespace Json

/-! ## Equality -/

mutual

def same : Json → Json → Bool
  | null, null => true
  | bool a, bool b => a == b
  | number a, number b => decide (a = b)
  | string a, string b => a == b
  | array xs, array ys => sameItems xs ys
  | object ms, object ns => sameMembers ms ns
  | _, _ => false

def sameItems : List Json → List Json → Bool
  | [], [] => true
  | x :: xs, y :: ys => same x y && sameItems xs ys
  | _, _ => false

def sameMembers : List (String × Json) → List (String × Json) → Bool
  | [], [] => true
  | (k, x) :: ms, (l, y) :: ns => k == l && same x y && sameMembers ms ns
  | _, _ => false

end

mutual

theorem same_iff (a b : Json) : same a b = true ↔ a = b := by
  cases a <;> cases b <;> simp [same, sameItems_iff, sameMembers_iff]

theorem sameItems_iff (xs ys : List Json) : sameItems xs ys = true ↔ xs = ys := by
  match xs, ys with
  | [], [] => simp [sameItems]
  | [], _ :: _ => simp [sameItems]
  | _ :: _, [] => simp [sameItems]
  | x :: xs, y :: ys => simp [sameItems, same_iff x y, sameItems_iff xs ys]

theorem sameMembers_iff (ms ns : List (String × Json)) : sameMembers ms ns = true ↔ ms = ns := by
  match ms, ns with
  | [], [] => simp [sameMembers]
  | [], _ :: _ => simp [sameMembers]
  | _ :: _, [] => simp [sameMembers]
  | (k, x) :: ms, (l, y) :: ns => simp [sameMembers, same_iff x y, sameMembers_iff ms ns]

end

instance : DecidableEq Json := fun a b => decidable_of_iff _ (same_iff a b)

/-! ## Canonical order -/

/-- The members in ascending order of keys; of several with one key the last stays. -/
def sortMembers (members : List (String × Json)) : List (String × Json) :=
  members.foldl (fun sorted (key, value) => insertEntry key value sorted) []

mutual

/-- The value with the members of all its objects in ascending order of keys. -/
def canonical : Json → Json
  | array items => array (canonicalItems items)
  | object members => object (sortMembers (canonicalMembers members))
  | v => v

def canonicalItems : List Json → List Json
  | [] => []
  | v :: items => canonical v :: canonicalItems items

def canonicalMembers : List (String × Json) → List (String × Json)
  | [] => []
  | (key, v) :: members => (key, canonical v) :: canonicalMembers members

end

/-! ## Construction -/

def ofNat (n : Nat) : Json := number (.integer n)

def ofDict {α : Type} (f : α → Json) (d : Dict α) : Json :=
  object (d.entries.map fun (key, value) => (key, f value))

/-- An object of the members that are there, in the order given. -/
def ofFields (fields : List (String × Option Json)) : Json :=
  object (fields.filterMap fun (name, value) => value.map (name, ·))

end Json

end ChannelLog
