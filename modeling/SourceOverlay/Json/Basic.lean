import SourceOverlay.Json.Number

/-!
# JSON values

The members of an object stand in the order of their keys, each key once.
-/

set_option autoImplicit false

namespace SourceOverlay

inductive Json where
  | null
  | bool (value : Bool)
  | number (value : Json.Number)
  | string (text : String)
  | array (elements : List Json)
  | object (members : List (String × Json))
  deriving Repr

namespace Json

def text? : Json → Option String
  | .string text => some text
  | _ => none

def bool? : Json → Option Bool
  | .bool value => some value
  | _ => none

def array? : Json → Option (List Json)
  | .array elements => some elements
  | _ => none

def natural? : Json → Option Nat
  | .number (.integer value) => if 0 ≤ value then some value.toNat else none
  | _ => none

def integer? : Json → Option Int
  | .number (.integer value) => some value
  | _ => none

def isNull : Json → Bool
  | .null => true
  | _ => false

def member? : Json → String → Option Json
  | .object members, key => (members.find? fun m => m.1 == key).map (·.2)
  | _, _ => none

def insertMember (key : String) (value : Json) :
    List (String × Json) → List (String × Json)
  | [] => [(key, value)]
  | (k, v) :: rest =>
    if key = k then (key, value) :: rest
    else if key < k then (key, value) :: (k, v) :: rest
    else (k, v) :: insertMember key value rest

/-- An object of the given members; the last one of a key counts. -/
def ofMembers (members : List (String × Json)) : Json :=
  .object (members.foldl (fun ms m => insertMember m.1 m.2 ms) [])

end Json

end SourceOverlay
