import Scaffolding.Number.Basic

/-!
# JSON values

A JSON value with the members of its objects in order. The order of members is part of the value:
every text made from a value shows them in this order, and putting a member that is new appends it.
-/

set_option autoImplicit false

namespace Scaffolding

/-- A JSON value. -/
inductive Json
  | null
  | bool (value : Bool)
  | number (value : Number)
  | string (value : String)
  | array (items : List Json)
  | object (members : List (String × Json))
  deriving BEq, Inhabited

/-- The members of an object, in order. -/
abbrev Members := List (String × Json)

namespace Members

/-- The value of the first member with this key. -/
def find? (key : String) : Members → Option Json
  | [] => none
  | (k, v) :: rest => if k = key then some v else find? key rest

/-- Gives a key a value: in its place if the key is there, at the end if it is new. -/
def put (key : String) (value : Json) : Members → Members
  | [] => [(key, value)]
  | (k, v) :: rest => if k = key then (k, value) :: rest else (k, v) :: put key value rest

/-- The keys, in order. -/
def keys (members : Members) : List String :=
  members.map Prod.fst

/-- What was put under a key is found there. -/
@[simp] theorem find?_put_self (key : String) (value : Json) (members : Members) :
    find? key (put key value members) = some value := by
  induction members with
  | nil => simp [put, find?]
  | cons m rest ih =>
    obtain ⟨k, v⟩ := m
    by_cases h : k = key <;> simp [put, find?, h, ih]

/-- What is under any other key stays. -/
theorem find?_put_of_ne {key other : String} (h : other ≠ key) (value : Json) (members : Members) :
    find? other (put key value members) = find? other members := by
  induction members with
  | nil => simp [put, find?, Ne.symm h]
  | cons m rest ih =>
    obtain ⟨k, v⟩ := m
    by_cases hk : k = key
    · subst hk; simp [put, find?, Ne.symm h]
    · by_cases ho : k = other
      · simp [put, find?, ho, h]
      · simp [put, find?, hk, ho, ih]

/-- A known key keeps its place and a new key comes last. -/
theorem keys_put (key : String) (value : Json) (members : Members) :
    keys (put key value members) =
      if key ∈ keys members then keys members else keys members ++ [key] := by
  induction members with
  | nil => simp [put, keys]
  | cons m rest ih =>
    obtain ⟨k, v⟩ := m
    by_cases h : k = key
    · simp [put, keys, h]
    · have h' : ¬ key = k := fun e => h e.symm
      have ih' : List.map Prod.fst (put key value rest) = _ := ih
      simp only [put, keys, h, if_false, List.map_cons, List.mem_cons, h', false_or, ih']
      by_cases hm : key ∈ List.map Prod.fst rest <;> simp [hm]

end Members

namespace Json

/-- An integer as a JSON number; null for one that 64 bits cannot hold. -/
def ofInt (n : Int) : Json :=
  (Number.ofInt? n).elim .null .number

def ofText? : Option String → Json
  | some s => .string s
  | none => .null

def ofTexts (texts : List String) : Json :=
  .array (texts.map .string)

/-- The member of an object with this key; null stands for a member that is missing. -/
def field (value : Json) (key : String) : Json :=
  match value with
  | .object members => (Members.find? key members).getD .null
  | _ => .null

/-- The text held by a value. -/
def text? : Json → Option String
  | .string s => some s
  | _ => none

/-- The items of an array; any other value has none. -/
def items : Json → List Json
  | .array items => items
  | _ => []

/-- The members of an object; any other value has none. -/
def members : Json → Members
  | .object members => members
  | _ => []

/-- The boolean held by a value. -/
def bool? : Json → Option Bool
  | .bool b => some b
  | _ => none

/-- The integer held by a value. -/
def int? : Json → Option Int
  | .number (.integer n _) => some n
  | _ => none

end Json

end Scaffolding
