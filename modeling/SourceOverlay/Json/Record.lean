import SourceOverlay.Json.Tree

/-!
# Records in JSON texts

A record is written as an object or as an array. In an object the fields stand under their names,
no name twice; members of other names are not looked at. In an array the values of the fields
stand in order; those at the end may be missing, and there are no more than the record has fields.
-/

set_option autoImplicit false

namespace SourceOverlay.Json

structure Record where
  positional : Bool
  fields : List (Option Tree)

namespace Record

def single? (name : String) (members : List (Option String × Tree)) : Option (Option Tree) :=
  match members.filter fun m => m.1 == some name with
  | [] => some none
  | [m] => some (some m.2)
  | _ => none

def ofTree? (names : List String) : Tree → Option Record
  | .object members =>
    if members.all fun m => m.1.isSome then
      (names.mapM fun name => single? name members).map (⟨false, ·⟩)
    else none
  | .array elements =>
    if elements.length ≤ names.length then
      some ⟨true, (List.range names.length).map fun i => elements[i]?⟩
    else none
  | _ => none

def optional {α : Type} (fallback : α) (read : Tree → Option α) : Option Tree → Option α
  | some tree => read tree
  | none => some fallback

end Record

namespace Tree

def text? : Tree → Option String
  | .string text => text
  | _ => none

def list? {α : Type} (item : Nat → Tree → Option α) : Nat → Tree → Option (List α)
  | nesting + 1, .array elements => elements.mapM (item nesting)
  | _, _ => none

def texts? : Nat → Tree → Option (List String) := list? fun _ => text?

end Tree

end SourceOverlay.Json
