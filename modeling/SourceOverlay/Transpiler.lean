import SourceOverlay.Disk.Basic
import SourceOverlay.Error
import SourceOverlay.LineMap
import SourceOverlay.Name.Extension

/-!
# Transpilers

A transpiler turns sources of one extension into text of another. `Transpiler.run` makes every
outcome of its compiler an ordinary result: a breakdown is an error, and so is blank output for a
source that is not blank.
-/

set_option autoImplicit false

namespace SourceOverlay

structure Output where
  code : String
  map : Option LineMap := none
  deriving Repr, DecidableEq

/-- How one call of a compiler ends. A breakdown may leave no reason. -/
inductive Outcome where
  | done (output : Output)
  | failed (error : CompileError)
  | broken (reason : Option String)
  deriving Repr, DecidableEq

structure Compiler where
  call : String → String → Outcome
  /-- What a compiler that is a program does on a disk, which it may change. -/
  program? : Option (Disk → String → String → Outcome × Disk) := none

namespace Compiler

def ofProgram (run : Disk → String → String → Outcome × Disk) (disk : Disk) : Compiler where
  call path source := (run disk path source).1
  program? := some run

def onDisk (c : Compiler) (disk : Disk) : Compiler :=
  match c.program? with
  | some run => ofProgram run disk
  | none => c

def after (c : Compiler) (path source : String) (disk : Disk) : Disk :=
  match c.program? with
  | some run => (run disk path source).2
  | none => disk

end Compiler

structure Transpiler where
  extension : String
  target : String
  compiler : Compiler

abbrev Result := Except CompileError Output

namespace Transpiler

/-- Extensions may be given with or without their dot. -/
def make (extension target : String) (compiler : Compiler) : Transpiler :=
  ⟨Name.dotted extension, Name.dotted target, compiler⟩

def onDisk (t : Transpiler) (disk : Disk) : Transpiler :=
  { t with compiler := t.compiler.onDisk disk }

def compiledName (t : Transpiler) (source : String) : String := Name.compiled source t.target

def settle (source : String) : Outcome → Result
  | .done output =>
    if Text.isBlankText output.code && !Text.isBlankText source then .error .blank else .ok output
  | .failed error => .error error
  | .broken reason => .error (.crashed (reason.getD "unknown panic payload"))

def run (t : Transpiler) (path source : String) : Result :=
  settle source (t.compiler.call path source)

end Transpiler

end SourceOverlay
