import SourceOverlay.Process.Shell.Evaluation

/-!
# Running a program

A program is started by its name, with arguments and a text on its input, and runs to its end. What
comes of it is how it ended, its output, its complaints, and the disk as it left it. A program that
cannot be started leaves nothing but the reason.
-/

set_option autoImplicit false

namespace SourceOverlay.Process

open Text (Bytes)

structure Ending where
  fate : Fate
  out : Bytes
  err : Bytes
  disk : Disk

inductive Refusal where
  | nulInWord
  | system (refusal : Disk.Refusal)
  deriving Repr, DecidableEq

def Refusal.message : Refusal → String
  | .nulInWord => "nul byte found in provided data"
  | .system refusal => refusal.message

def searchPath : String := "/usr/local/sbin:/usr/local/bin:/usr/sbin:/usr/bin:/sbin:/bin"

def environment : List (String × String) := [("HOME", "/root"), ("PATH", searchPath)]

def find (disk : Disk) (command : String) : Except Disk.Refusal String :=
  if command.toList.contains '/' then
    let full :=
      if Disk.isRooted command then command else Disk.join (Disk.spell disk.working) command
    match Shell.programAt? full with
    | some program => .ok program
    | none =>
      match disk.find command with
      | .ok _ => .error .denied
      | .error refusal => .error refusal
  else if Shell.programNames.contains command then .ok command
  else if command == "." || command == ".." then .error .denied
  else if Disk.nameLimit < command.utf8ByteSize then .error .nameTooLong
  else .error .notFound

def run (disk : Disk) (command : String) (args : List String) (input : Bytes) :
    Except Refusal Ending :=
  let words := (command :: args).map Text.raw
  if words.any fun w => w.toList.contains '\x00' then .error .nulInWord
  else if words.any fun w => Shell.argumentLimit < w.length then .error (.system .tooMuch)
  else
    match find disk command with
    | .error refusal => .error (.system refusal)
    | .ok program =>
      let name := words.headD ""
      let work : Run Fate :=
        match filter? program with
        | some work => do return .exited (← work name words.tail)
        | none => Shell.shell name words.tail environment
      let streams : Array Stream :=
        #[.pipe (input.map Text.byteChar) [], .pipe [] [], .pipe [] []]
      let task : Task := ⟨[(0, 0), (1, 1), (2, 2)], disk.working⟩
      let (fate, system) := (work.run task).run { disk, streams }
      let bytes (number : Nat) : Bytes := (system.content number).map Text.charByte
      .ok ⟨fate, bytes 1, bytes 2, { system.disk with working := disk.working }⟩

end SourceOverlay.Process
