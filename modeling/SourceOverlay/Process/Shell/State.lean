import Std.Data.TreeMap
import SourceOverlay.Process.Shell.Parser
import SourceOverlay.Process.Stream

/-!
# The state of a shell

A shell keeps variables, functions, its arguments, the streams behind its descriptors, and how
things stand with what it runs: the status of the last command, and whether commands are being
skipped. An action may change all of this and may leap: a fault or an exit ends everything up to
the place where it is caught, and the state stays as it was at the leap.
-/

set_option autoImplicit false

namespace SourceOverlay.Process.Shell

structure Variable where
  /-- A variable may be marked without having a value. -/
  value : Option String := none
  exported : Bool := false
  fixed : Bool := false

inductive Skip where
  | leave (loops : Nat)
  | again (loops : Nat)
  | back
  deriving DecidableEq

inductive Leap where
  | fault
  | exit
  | finished
  | killed (signal : Nat)
  deriving DecidableEq

inductive Saved where
  | variable (name : String) (old : Option Variable)
  | options (old : List String)

structure OptionPlace where
  word : Nat := 1
  place : Option Nat := none

structure State where
  system : System
  streams : List (Nat × Nat)
  working : List String
  directory : String
  name : String
  args : List String := []
  bindings : Std.TreeMap String Variable := ∅
  functions : List (String × Nat × Node) := []
  aliases : List (String × String) := []
  tracked : List (String × String) := []
  options : List String := []
  status : Nat := 0
  substituted : Nat := 0
  skip : Option Skip := none
  loops : Nat := 0
  line : Nat := 0
  linesRead : Nat := 1
  speaker : Option String := none
  held : String := ""
  traps : List (Nat × String) := []
  signals : List Nat := []
  parting : Option Nat := none
  frames : List (List Saved) := []
  documents : List (Nat × Word) := []
  nextDocument : Nat := 0
  mask : Nat := 18
  jobs : List (Nat × Nat) := []
  waiting : List (Nat × (System → Nat × System)) := []
  optionPlace : OptionPlace := {}

abbrev Act := ExceptT Leap (StateM State)

namespace State

def task (s : State) : Task := ⟨s.streams, s.working⟩

def has (s : State) (option : String) : Bool := s.options.contains option

def value? (s : State) (name : String) : Option String := s.bindings[name]?.bind (·.value)

def isFixed (s : State) (name : String) : Bool := s.bindings[name]?.any (·.fixed)

def disk (s : State) : Disk := s.system.diskFrom s.working

def environment (s : State) : List (String × String) :=
  s.bindings.toList.filterMap fun (name, v) =>
    if v.exported then v.value.map (name, ·) else none

end State

/-! ### Speaking -/

def perform {α : Type} (run : Run α) : Act α := do
  let s ← get
  let (a, system) := (run.run s.task).run s.system
  modify fun s => { s with system }
  return a

def write (descriptor : Nat) (text : String) : Act (Option Disk.Refusal) :=
  perform (put descriptor text)

def say (text : String) : Act Unit := modify fun s => { s with held := s.held ++ text }

def flush : Act (Option Disk.Refusal) := do
  let text := (← get).held
  if text == "" then return none
  modify fun s => { s with held := "" }
  write 1 text

def warn (text : String) : Act Unit := do
  let s ← get
  let speaker := match s.speaker with
    | some name => name ++ ": "
    | none => ""
  let _ ← write 2 (s.name ++ ": " ++ toString s.line ++ ": " ++ speaker ++ text ++ "\n")

def setStatus (status : Nat) : Act Unit := modify fun s => { s with status }

def leapWith {α : Type} (leap : Leap) (status : Nat) (text : String) : Act α := do
  setStatus status
  warn text
  let _ ← flush
  throw leap

def fail {α : Type} (text : String) : Act α := leapWith .fault 2 text

/-! ### Variables -/

def pathNow (s : State) : String := (s.value? "PATH").getD ""

def store (name : String) (v : Variable) : Act Unit :=
  modify fun s =>
    let s := { s with bindings := s.bindings.insert name v }
    match name with
    | "PATH" => { s with tracked := [] }
    | "OPTIND" =>
      let word := ((v.value.getD "").toNat?).getD 1
      { s with optionPlace := { word := max word 1 } }
    | _ => s

def setVariable (name : String) (value : Option String) (exported fixed : Bool) : Act Unit := do
  if !isName name then
    fail (String.ofList (name.toList.takeWhile (· != '=')) ++ ": bad variable name")
  let s ← get
  let old := (s.bindings[name]?).getD {}
  if old.fixed then fail (name ++ ": is read only")
  store name
    { value
      exported := old.exported || exported || (s.has "allexport" && value.isSome)
      fixed := old.fixed || fixed }

def assign (name value : String) : Act Unit := setVariable name (some value) false false

def unassign (name : String) : Act Unit := do
  setVariable name none false false
  modify fun s => { s with bindings := s.bindings.erase name }

def keep (saved : State → Saved) : Act Unit :=
  modify fun s =>
    match s.frames with
    | frame :: frames => { s with frames := (saved s :: frame) :: frames }
    | [] => s

def keepVariable (name : String) : Act Unit := keep fun s => .variable name s.bindings[name]?

def putBack (s : State) : Saved → State
  | .options options => { s with options }
  | .variable name none => { s with bindings := s.bindings.erase name }
  | .variable name (some v) => { s with bindings := s.bindings.insert name v }

def unwind (depth : Nat) : Act Unit :=
  modify fun s =>
    let above := s.frames.take (s.frames.length - depth)
    { above.flatten.foldl putBack s with frames := s.frames.drop (s.frames.length - depth) }

/-! ### Commands on their own -/

def State.settle (s : State) (job : Nat × (System → Nat × System)) : State :=
  let (status, system) := job.2 s.system
  { s with
    system
    jobs := s.jobs.map fun j => if j.1 = job.1 then (j.1, status) else j }

/-- Lets the commands that were left to run on their own do so. A shell goes on with its own
commands until another process is started or waited for, or it ends. -/
def settleJobs : Act Unit :=
  modify fun s => s.waiting.foldl State.settle { s with waiting := [] }

/-! ### Programs -/

def programNames : List String :=
  ["cat", "tr", "echo", "printf", "wc", "head", "true", "false", "sh", "dash"]

def settled (names : List String) : List String :=
  (names.foldl (fun done name => if name == ".." then done.tail else name :: done) []).reverse

def programAt? (path : String) : Option String :=
  if !Disk.isRooted path then none
  else
    match settled (Disk.components path) with
    | ["usr", "bin", name] => if programNames.contains name then some name else none
    | ["bin", name] => if programNames.contains name then some name else none
    | _ => none

def pathParts (path : String) : List String :=
  (path.toList.splitOnP (· == ':')).map String.ofList

def seatIn (directory name : String) : String :=
  if directory == "" then name else directory ++ "/" ++ name

def candidates (s : State) (name : String) : List String :=
  (pathParts (pathNow s)).map (seatIn · name)

def locate? (s : State) (name : String) : Option String :=
  (candidates s name).find? fun path =>
    (programAt? path).isSome || s.disk.isFile (Text.cooked path)

def State.rooted (s : State) (path : String) : String :=
  if Disk.isRooted path then path else Disk.join (Disk.spell s.working) path

def refusalAt (s : State) (path : String) : Disk.Refusal :=
  match s.disk.find (Text.cooked path) with
  | .ok _ => .denied
  | .error refusal => refusal

/-- The program of a name on the search path, or why there is none: the last reason that is not
just that there is nothing. -/
def search (s : State) (name : String) : Except Disk.Refusal String :=
  let paths := candidates s name
  match paths.find? fun path => (programAt? (s.rooted path)).isSome with
  | some path => .ok path
  | none =>
    let reasons := (paths.map (refusalAt s)).filter fun r => r ≠ .notFound && r ≠ .notDirectory
    .error (reasons.getLast?.getD .notFound)

end SourceOverlay.Process.Shell
