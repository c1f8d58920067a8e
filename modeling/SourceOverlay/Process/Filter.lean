import SourceOverlay.Process.Cat
import SourceOverlay.Process.Count
import SourceOverlay.Process.Head
import SourceOverlay.Process.Printf
import SourceOverlay.Process.Translate

/-!
# Filter programs

The small programs that compilers are put together from, found by their names. A program is given
the name it was called by and its arguments, all of them raw texts.
-/

set_option autoImplicit false

namespace SourceOverlay.Process

def filter? (program : String) : Option (String → List String → Run Nat) :=
  match program with
  | "cat" => some cat
  | "tr" => some tr
  | "echo" => some echo
  | "printf" => some printf
  | "wc" => some wc
  | "head" => some head
  | "true" => some fun _ _ => pure 0
  | "false" => some fun _ _ => pure 1
  | "sleep" => some fun _ _ => pure 0
  | _ => none

end SourceOverlay.Process
