import SourceOverlay.Process.Filter
import SourceOverlay.Process.Shell.Builtin

/-!
# Running commands

Commands run one after the other, each to its end. What runs in a shell of its own, such as the
members of a pipeline, works on a copy of the state and leaves only the disk and the streams
changed. Commands that hold others run them through a record of evaluators, each of which may go
one level less deep than the one that calls it. The flag that goes along says that a status is
looked at by the caller, so that a failure does not end the shell.
-/

set_option autoImplicit false

namespace SourceOverlay.Process.Shell

structure Evaluator where
  node : Bool → Node → Act Nat
  text : Bool → String → Act Nat
  shell : String → List String → List (String × String) → Run Fate

def restoring {α : Type} (back : State → State → State) (act : Act α) : Act α :=
  ExceptT.mk fun s =>
    let (a, after) := act.run.run s
    (a, back s after)

def attempt {α : Type} (act : Act α) : Act (Except Leap α) :=
  ExceptT.mk fun s =>
    let (a, after) := act.run.run s
    (.ok a, after)

/-! ### Shells of their own -/

def runExitTrap (e : Evaluator) (status : Nat) : Act Nat := do
  let s ← get
  match s.traps.lookup 0 with
  | none => return status
  | some action =>
    set { s with
      traps := s.traps.filter fun t => t.1 != 0
      skip := none
      status
      parting := some status }
    match ← attempt (e.text false action) with
    | .ok _ => return status
    | .error .exit => return (← get).parting.getD status
    | .error _ => return (← get).status

def conclude (e : Evaluator) (act : Act Nat) : Act Fate := do
  let fate ← match ← attempt act with
    | .error (.killed signal) => pure (Fate.killed signal)
    | .error .exit => do
      let s ← get
      pure (.exited (← runExitTrap e (s.parting.getD s.status)))
    | _ => pure (.exited (← runExitTrap e (← get).status))
  settleJobs
  return fate

def inCopy (e : Evaluator) (act : Act Nat) : Act Nat := do
  settleJobs
  let s ← get
  set { s with
    traps := s.traps.filter fun t => t.2 == ""
    signals := [], parting := none, waiting := [], linesRead := 1 }
  let fate ← conclude e act
  let after ← get
  set { s with system := after.system, nextDocument := after.nextDocument }
  return fate.code

def lead (descriptor number : Nat) : Act Unit :=
  modify fun s =>
    { s with streams := (descriptor, number) :: s.streams.filter fun d => d.1 != descriptor }

def open_ (stream : Stream) : Act Nat := do
  let s ← get
  let (number, system) := s.system.add stream
  set { s with system }
  return number

def captureWith (e : Evaluator) (n : Node) : Act String := do
  let number ← open_ (.pipe [] [])
  let status ← inCopy e do
    lead 1 number
    e.node false n
  let s ← get
  set { s with substituted := status, system := s.system.set number .null }
  return String.ofList (s.system.content number)

/-! ### Redirections -/

inductive Aim where
  | file (descriptor : Nat) (opener : Opener) (name : String)
  | copy (descriptor : Nat) (source : Option Nat)
  | here (descriptor : Nat) (document : Nat) (expanded : Bool)

def badDescriptor {α : Type} : Act α := do
  modify fun s => { s with line := s.linesRead }
  fail "Syntax error: Bad fd number"

def aim (capture : Capture) : Redirect → Act Aim
  | .file descriptor opener name =>
    return .file descriptor opener (← expandText capture { tilde := true } name)
  | .copy descriptor source => return .copy descriptor source
  | .copyWord descriptor word => do
    let text := (← expandFields capture word).headD ""
    match text.toList with
    | ['-'] => return .copy descriptor none
    | [c] =>
      if c.isDigit then return .copy descriptor (some (c.toNat - '0'.toNat)) else badDescriptor
    | _ => badDescriptor
  | .here descriptor document expanded => return .here descriptor document expanded

def Opener.opening : Opener → Opening
  | .reading => { access := .read }
  | .writing => { access := .write, create := true, truncate := true }
  | .overwriting => { access := .write, create := true, truncate := true }
  | .appending => { access := .append, create := true }
  | .updating => { access := .update, create := true }

def openFor (opener : Opener) (name : String) : Act Nat := do
  let s ← get
  let refuse (refusal : Disk.Refusal) : Act Nat :=
    if opener = .reading then
      fail ("cannot open " ++ name ++ ": " ++ reasonOr "No such file" refusal)
    else fail ("cannot create " ++ name ++ ": " ++ reasonOr "Directory nonexistent" refusal)
  if opener = .writing && s.has "noclobber" && s.disk.isFile (Text.cooked name) then
    refuse .alreadyThere
  else
    match s.system.openFile s.task opener.opening name with
    | (.ok number, system) =>
      set { s with system }
      return number
    | (.error refusal, _) => refuse refusal

def redirect (capture : Capture) : Aim → Act Unit
  | .file descriptor opener name => do lead descriptor (← openFor opener name)
  | .copy descriptor none =>
    modify fun s => { s with streams := s.streams.filter fun d => d.1 != descriptor }
  | .copy descriptor (some source) => do
    if source = descriptor then return
    match (← get).task.stream? source with
    | some number => lead descriptor number
    | none => fail (toString source ++ ": Bad file descriptor")
  | .here descriptor document expanded => do
    let word := ((← get).documents.lookup document).getD []
    let text ← expandText capture { quoted := expanded } word
    lead descriptor (← open_ (.pipe text.toList []))

def redirectAll (capture : Capture) (aims : List Aim) : Act Bool := do
  match ← attempt (aims.forM (redirect capture)) with
  | .ok _ => return false
  | .error .fault => return true
  | .error leap => throw leap

def keepStreams (before after : State) : State := { after with streams := before.streams }

/-! ### Scripts -/

def runReader (e : Evaluator) (tested : Bool) : Nat → Reader → Nat → Act Nat
  | 0, _, status => return status
  | fuel + 1, reader, status => do
    let s ← get
    match nextCommands { reader with aliases := s.aliases, nextDocument := s.nextDocument } with
    | .error fault =>
      modify fun s => { s with line := fault.line }
      fail fault.message
    | .ok none => return status
    | .ok (some (n, reader)) =>
      modify fun s => { s with
        documents := reader.documents ++ s.documents
        nextDocument := reader.nextDocument
        linesRead := reader.line }
      let reader := { reader with documents := [] }
      match n with
      | none => runReader e tested fuel reader status
      | some n =>
        let status ← e.node tested n
        if (← get).skip.isSome then return status
        runReader e tested fuel reader status

def runInput (e : Evaluator) (tested : Bool) (text : List Char) : Act Nat :=
  restoring (fun before after => { after with linesRead := before.linesRead })
    (runReader e tested (text.length + 2) { input := text } 0)

def runText (e : Evaluator) (tested : Bool) (text : String) : Act Nat :=
  runInput e tested text.toList

def runTraps (e : Evaluator) : Act Unit := do
  let s ← get
  if s.signals.isEmpty then return
  set { s with signals := [] }
  s.signals.forM fun n => do
    let status := (← get).status
    let _ ← e.text false ((s.traps.lookup n).getD "")
    setStatus status

/-! ### Programs -/

def argumentLimit : Nat := 131071

def programOf (s : State) (path : String) : Except Disk.Refusal String :=
  match programAt? (s.rooted path) with
  | some program => .ok program
  | none => .error (refusalAt s path)

def refusedStatus : Disk.Refusal → Nat
  | .denied => 126
  | .tooMuch => 126
  | _ => 127

def deathNotice : Fate → String
  | .killed 1 => "Hangup\n"
  | .killed 3 => "Quit\n"
  | .killed 6 => "Aborted\n"
  | .killed 9 => "Killed\n"
  | .killed 10 => "User defined signal 1\n"
  | .killed 11 => "Segmentation fault\n"
  | .killed 12 => "User defined signal 2\n"
  | .killed 14 => "Alarm clock\n"
  | .killed 15 => "Terminated\n"
  | _ => ""

def runProgram (e : Evaluator) (leap : Leap) (name path : String) (args : List String) :
    Act Nat := do
  let s ← get
  let tooMuch := (name :: args).any fun a => argumentLimit < a.length
  match if tooMuch then .error .tooMuch else programOf s path with
  | .error refusal =>
    leapWith leap (refusedStatus refusal) (name ++ ": " ++ reasonOr "not found" refusal)
  | .ok program =>
    match filter? program with
    | some run => perform (run name args)
    | none =>
      let fate ← perform (e.shell name args s.environment)
      let _ ← write 2 (deathNotice fate)
      return fate.code

def track (name : String) : Act (Except Disk.Refusal String) := do
  if name.toList.contains '/' then return .ok name
  let s ← get
  match s.tracked.lookup name with
  | some path => return .ok path
  | none =>
    let found := search s name
    if let .ok path := found then set { s with tracked := (name, path) :: s.tracked }
    return found

def runExternal (e : Evaluator) (name : String) (args : List String) : Act Nat := do
  settleJobs
  match ← track name with
  | .error refusal =>
    warn (name ++ ": " ++ reasonOr "not found" refusal)
    return 127
  | .ok path =>
    match ← attempt (runProgram e .finished name path args) with
    | .ok status => return status
    | .error _ => return (← get).status

def execCommand (e : Evaluator) (args : List String) : Act Nat := do
  match args with
  | [] => return 0
  | name :: args =>
    let s ← get
    let path := if name.toList.contains '/' then .ok name else search s name
    let status ← match path with
      | .ok path => runProgram e .finished name path args
      | .error refusal =>
        leapWith .finished (refusedStatus refusal) (name ++ ": " ++ reasonOr "not found" refusal)
    modify fun s => { s with status, traps := [] }
    throw .finished

/-! ### Commands that run others -/

def dotCommand (e : Evaluator) (args : List String) : Act Nat := do
  let (_, args) ← options "" args
  match args with
  | [] => return 0
  | name :: _ =>
    let s ← get
    let path ←
      if name.toList.contains '/' then pure name
      else
        match locate? s name with
        | some path => pure path
        | none => fail (name ++ ": not found")
    let refuse (refusal : Disk.Refusal) : Act (List Char) :=
      fail ("cannot open " ++ path ++ ": " ++ reasonOr "No such file" refusal)
    let text ←
      match s.system.openFile s.task { access := .read } path with
      | (.error refusal, _) => refuse refusal
      | (.ok number, system) => pure ((system.peek number).toOption.getD [])
    modify fun s => { s with speaker := some path }
    let status ← runInput e false text
    modify fun s => { s with skip := if s.skip = some .back then none else s.skip }
    return status

def runBuiltin (e : Evaluator) (tested : Bool) (name : String) (args : List String) : Act Nat :=
  restoring (fun before after => { after with speaker := before.speaker }) do
    modify fun s => { s with speaker := some name }
    let status ← match name with
      | "eval" => if args.isEmpty then pure 0 else e.text tested (" ".intercalate args)
      | "." => dotCommand e args
      | "exec" => execCommand e args
      | _ => builtin name args
    match ← flush with
    | none => return status
    | some _ =>
      warn (name ++ ": I/O error")
      return status ||| 1

def runFunction (e : Evaluator) (tested : Bool) (body : Node) (args : List String) : Act Nat :=
  restoring (fun before after => { after with
      args := before.args
      optionPlace := before.optionPlace
      loops := before.loops
      skip := if after.skip = some .back then none else after.skip }) do
    modify fun s => { s with args, optionPlace := {}, loops := 0 }
    e.node tested body

/-! ### Simple commands -/

inductive Callee where
  | function (body : Node)
  | builtin (standing : Standing)
  | other

def callee (s : State) (functions : Bool) (name : String) : Callee :=
  match if functions then s.functions.lookup name else none with
  | some (_, body) => .function body
  | none =>
    match standing? name with
    | some standing => .builtin standing
    | none => .other

def fill (capture : Capture) : List Word → Act (List String × List Word)
  | [] => return ([], [])
  | w :: ws => do
    match ← expandFields capture w with
    | [] => fill capture ws
    | fields => return (fields, ws)

structure CommandLine where
  dropped : List String := []
  fields : List String
  words : List Word
  callee : Callee
  special : Option Bool := none

/-- The words after options that only change how a command is found; nothing if the command that
does so has to run itself. -/
def afterCommand (capture : Capture) :
    Nat → List String → List String → List Word →
    Act (Option (List String × List String × List Word) × List String × List Word)
  | 0, dropped, fields, words => return (none, dropped ++ fields, words)
  | fuel + 1, dropped, fields, words => do
    let (more, words) ← if fields.isEmpty then fill capture words else pure ([], words)
    match fields ++ more with
    | [] => return (none, dropped, words)
    | field :: rest =>
      match field.toList with
      | ['-', '-'] =>
        let (more, words) ← if rest.isEmpty then fill capture words else pure ([], words)
        let dropped := dropped ++ [field]
        if (rest ++ more).isEmpty then return (none, dropped, words)
        else return (some (dropped, rest ++ more, words), [], [])
      | '-' :: c :: cs =>
        if (c :: cs).all (· == 'p') then
          afterCommand capture fuel (dropped ++ [field]) rest words
        else return (none, dropped ++ field :: rest, words)
      | _ => return (some (dropped, field :: rest, words), [], [])

def identify (capture : Capture) : Nat → CommandLine → Bool → Act CommandLine
  | 0, line, _ => return line
  | fuel + 1, line, functions => do
    let name := line.fields.headD ""
    let s ← get
    let line := { line with callee := callee s functions name }
    match line.callee with
    | .builtin standing =>
      let line := { line with special := line.special.or (some standing.special) }
      if name != "command" then return line
      else
        match ← afterCommand capture (line.words.length + line.fields.length + 2) []
            line.fields.tail line.words with
        | (some (dropped, fields, words), _, _) =>
          identify capture fuel
            { line with dropped := line.dropped ++ name :: dropped, fields, words } false
        | (none, fields, words) => return { line with fields := name :: fields, words }
    | _ => return line

def expandRest (capture : Capture) (assigns : Bool) (words : List Word) : Act (List String) := do
  let rows ← words.mapM fun w => do
    match if assigns then assignment? w else none with
    | some (name, value) =>
      let text ← expandText capture { tilde := true, assignment := true } value
      return [name ++ "=" ++ text]
    | none => expandFields capture w
  return rows.flatten

def assignAll (capture : Capture) (passing exported : Bool) (assignments : List Word) :
    Act (List String) :=
  assignments.mapM fun w => do
    match assignment? w with
    | some (name, value) =>
      let text ← expandText capture { tilde := true, assignment := true } value
      if passing then
        keepVariable name
        setVariable name (some text) true false
      else setVariable name (some text) exported false
      return name ++ "=" ++ text
    | none => return ""

def traceMark (capture : Capture) : Act String :=
  restoring (fun before after => { after with options := before.options }) do
    switch false "xtrace"
    let mark := ((← get).value? "PS4").getD ""
    match quotedText? mark with
    | some word => expandText capture { quoted := true } word
    | none => return mark

def trace (capture : Capture) (before : List (Nat × Nat)) (shown : List String) : Act Unit := do
  if (← get).has "xtrace" then
    let mark ← traceMark capture
    let s ← get
    let text := mark ++ " ".intercalate shown ++ "\n"
    let (_, system) := ((put 2 text).run ⟨before, s.working⟩).run s.system
    set { s with system }

def call (e : Evaluator) (tested : Bool) (line : CommandLine) : Act Nat := do
  let special := line.special == some true
  match line.callee, line.fields with
  | .builtin _, name :: args =>
    match ← attempt (runBuiltin e tested name args) with
    | .ok status => return status
    | .error .fault => if special then throw .fault else return (← get).status
    | .error leap => throw leap
  | .function body, _ :: args => runFunction e tested body args
  | .other, name :: args => runExternal e name args
  | _, [] => return (← get).substituted

def runSimple (e : Evaluator) (tested : Bool) (line : Nat) (assignments words : List Word)
    (redirects : List Redirect) : Act Nat := do
  let capture := captureWith e
  modify fun s => { s with line, substituted := 0 }
  let (fields, words) ← fill capture words
  let found ← if fields.isEmpty then pure ⟨[], [], [], .other, none⟩
    else identify capture (words.length + fields.length + 2) ⟨[], fields, words, .other, none⟩ true
  let assigns := match found.callee with
    | .builtin standing => standing.assigns
    | _ => false
  let rest ← expandRest capture assigns found.words
  let found := { found with fields := found.fields ++ rest, words := [] }
  let special := found.special == some true
  let passing := !found.fields.isEmpty && !special
  let replaces := match found.callee with
    | .builtin _ => found.fields.head? == some "exec"
    | _ => false
  let depth := (← get).frames.length
  let streams := (← get).streams
  let aims ← redirects.mapM (aim capture)
  let keeps := replaces && found.fields.length = 1
  restoring (fun before after => if keeps then after else keepStreams before after) do
    if ← redirectAll capture aims then
      setStatus 2
      if special then throw .fault
      return 2
    if passing then modify fun s => { s with frames := [] :: s.frames }
    let shown ← assignAll capture passing (replaces && 1 < found.fields.length) assignments
    trace capture streams (shown ++ found.dropped ++ found.fields)
    let status ← call e tested found
    unwind depth
    return status

/-! ### Compound commands -/

inductive Course where
  | on
  | next
  | away
  deriving DecidableEq

def course : Act Course := do
  let s ← get
  match s.skip with
  | none => return .on
  | some .back => return .away
  | some (.leave n) =>
    set { s with skip := if n ≤ 1 then none else some (.leave (n - 1)) }
    return .away
  | some (.again n) =>
    set { s with skip := if n ≤ 1 then none else some (.again (n - 1)) }
    return if n ≤ 1 then .next else .away

def loopLimit : Nat := 100000000

def optionally (e : Evaluator) (tested : Bool) : Option Node → Act Nat
  | some n => e.node tested n
  | none => return 0

def runLoop (e : Evaluator) (tested whilst : Bool) (condition body : Option Node) :
    Nat → Nat → Act Nat
  | 0, status => return status
  | fuel + 1, status => do
    let c ← optionally e true condition
    let returns := (← get).skip = some .back
    match ← course with
    | .away => return if returns then c else status
    | .next => runLoop e tested whilst condition body fuel status
    | .on =>
      if (c = 0) ≠ whilst then return status
      let status ← optionally e tested body
      if (← course) = .away then return status
      runLoop e tested whilst condition body fuel status

def runEach (e : Evaluator) (tested : Bool) (name : String) (body : Option Node) :
    List String → Nat → Act Nat
  | [], status => return status
  | item :: items, _ => do
    assign name item
    let status ← optionally e tested body
    if (← course) = .away then return status
    runEach e tested name body items status

def looping (act : Act Nat) : Act Nat :=
  restoring (fun before after => { after with loops := before.loops }) do
    modify fun s => { s with loops := s.loops + 1 }
    act

def matchesAny (capture : Capture) (text : List Char) : List Word → Act Bool
  | [] => return false
  | w :: ws => do
    let p := patternOf (← expandCells capture { tilde := true } w)
    if p.accepts text then return true
    matchesAny capture text ws

def runArms (e : Evaluator) (tested : Bool) (text : List Char) :
    List (List Word × Option Node) → Act Nat
  | [] => return 0
  | (patterns, body) :: arms => do
    if ← matchesAny (captureWith e) text patterns then optionally e tested body
    else runArms e tested text arms

def runMembers (e : Evaluator) (tested : Bool) : List Node → Option Nat → Act Nat
  | [], _ => return 0
  | n :: rest, input => do
    let output ← if rest.isEmpty then pure none else some <$> open_ (.pipe [] [])
    let status ← inCopy e do
      match input with
      | some number => lead 0 number
      | none => pure ()
      match output with
      | some number => lead 1 number
      | none => pure ()
      e.node tested n
    match input with
    | some number => modify fun s => { s with system := s.system.set number .null }
    | none => pure ()
    if rest.isEmpty then return status else runMembers e tested rest output

def leave (act : Nat → Act Nat) : Act Nat := do
  let null ← open_ .null
  let s ← get
  let number := shellNumber + 1 + s.jobs.length
  let job (system : System) : Nat × System :=
    let (status, after) := (act null).run.run { s with system, waiting := [] }
    (status.toOption.getD 0, after.system)
  set { s with jobs := (number, 0) :: s.jobs, waiting := s.waiting ++ [(number, job)] }
  return 0

def evaluate (e : Evaluator) (tested : Bool) : Node → Act (Nat × Bool)
  | .simple line assignments words redirects =>
    return (← runSimple e tested line assignments words redirects, true)
  | .pipeline members false => return (← runMembers e tested members none, true)
  | .pipeline members true =>
    return (← leave fun null => runMembers e tested members (some null), true)
  | .redirected line body redirects => do
    modify fun s => { s with line }
    let aims ← redirects.mapM (aim (captureWith e))
    let status ← restoring keepStreams do
      if ← redirectAll (captureWith e) aims then return 2 else e.node tested body
    return (status, false)
  | .subshell line body redirects => do
    modify fun s => { s with line }
    let aims ← redirects.mapM (aim (captureWith e))
    let status ← inCopy e do
      aims.forM (redirect (captureWith e))
      optionally e tested body
    return (status, true)
  | .background line body redirects => do
    modify fun s => { s with line }
    let aims ← redirects.mapM (aim (captureWith e))
    let status ← leave fun null => inCopy e do
      lead 0 null
      aims.forM (redirect (captureWith e))
      e.node false body
    return (status, true)
  | .joined joint first second => do
    let status ← e.node (tested || joint ≠ .always) first
    let stops := match joint with
      | .always => false
      | .onSuccess => status ≠ 0
      | .onFailure => status = 0
    if stops || (← get).skip.isSome then return (status, false)
    return (← e.node tested second, false)
  | .negated body => do
    let status ← e.node true body
    return (if status = 0 then 1 else 0, false)
  | .choice condition body otherwise => do
    let status ← optionally e true condition
    if (← get).skip.isSome then return (status, false)
    if status = 0 then return (← optionally e tested body, false)
    return (← optionally e tested otherwise, false)
  | .loop whilst condition body =>
    return (← looping (runLoop e tested whilst condition body loopLimit 0), false)
  | .each line name words body => do
    modify fun s => { s with line }
    let items ← words.mapM (expandFields (captureWith e))
    return (← looping (runEach e tested name body items.flatten 0), false)
  | .cases line word arms => do
    modify fun s => { s with line }
    let text ← expandText (captureWith e) { tilde := true } word
    return (← runArms e tested text.toList arms, false)
  | .function line name body => do
    modify fun s => { s with
      functions := (name, line, body) :: s.functions.filter fun f => f.1 != name }
    return (0, false)

def runNode (e : Evaluator) (tested : Bool) (n : Node) : Act Nat := do
  if (← get).has "noexec" then return (← get).status
  runTraps e
  let (status, checked) ← evaluate e tested n
  setStatus status
  runTraps e
  if checked && !tested && status ≠ 0 && (← get).has "errexit" then throw .finished
  return status

/-! ### Whole shells -/

def startWith (e : Evaluator) (args : List String) : Act Nat := do
  let (letters, rest, _) ← switchOptions true (args.length + 1) args
  let fromInput : Act Nat := do
    let s ← get
    let text := match s.task.stream? 0 with
      | some number => (s.system.peek number).toOption.getD []
      | none => []
    match s.task.stream? 0 with
    | some number => set { s with system := s.system.skip number text.length }
    | none => pure ()
    runInput e false text
  if letters.contains 'c' then
    match rest with
    | [] => fail "-c requires an argument"
    | script :: rest =>
      match rest with
      | name :: args => modify fun s => { s with name, args }
      | [] => pure ()
      let status ← e.text false script
      if (← get).has "stdin" then fromInput else return status
  else if rest.isEmpty || (← get).has "stdin" then
    switch true "stdin"
    modify fun s => { s with args := rest }
    fromInput
  else
    let file := rest.headD ""
    let number ← openFor .reading file
    modify fun s => { s with name := file, args := rest.tail }
    let s ← get
    let text := (s.system.peek number).toOption.getD []
    runInput e false text

def startVariables (directory : String) (environment : List (String × String)) :
    Std.TreeMap String Variable :=
  let own := [("IFS", " \t\n"), ("OPTIND", "1"), ("PS1", "# "), ("PS2", "> "), ("PS4", "+ "),
    ("PPID", toString (shellNumber - 1))]
  let table := own.foldl (fun (t : Std.TreeMap String Variable) (name, value) =>
    t.insert name { value := some value }) ∅
  let table := environment.foldl (fun (t : Std.TreeMap String Variable) (name, value) =>
    if isName name && name != "IFS" then t.insert name { value := some value, exported := true }
    else t) table
  table.insert "PWD" { value := some directory, exported := true }

def runShell (e : Evaluator) (name : String) (args : List String)
    (environment : List (String × String)) : Run Fate := fun task system =>
  let directory := ((environment.lookup "PWD").filter fun path =>
      match (system.diskFrom task.working).find (Text.cooked path) with
      | .ok (names, _) => Disk.isRooted path && names == task.working
      | .error _ => false).getD (Text.raw (Disk.spell task.working))
  let start : State :=
    { system, streams := task.streams, working := task.working, directory, name
      bindings := startVariables directory environment }
  let (fate, after) := (conclude e (startWith e args)).run.run start
  (match fate with
    | .ok fate => fate
    | .error _ => .exited after.status, after.system)

/-- Evaluators down to a depth. Beyond it a shell breaks down. -/
def evaluator : Nat → Evaluator
  | 0 =>
    { node := fun _ _ => throw (.killed 11)
      text := fun _ _ => throw (.killed 11)
      shell := fun _ _ _ => return .killed 11 }
  | depth + 1 =>
    let e := evaluator depth
    ⟨runNode e, runText e, runShell e⟩

def runDepth : Nat := 2000

def shell : String → List String → List (String × String) → Run Fate := (evaluator runDepth).shell

end SourceOverlay.Process.Shell
