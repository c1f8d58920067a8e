import SourceOverlay.Process.Printf
import SourceOverlay.Process.Shell.Condition
import SourceOverlay.Process.Shell.Expansion

/-!
# Commands of the shell itself

The commands that a shell carries out without another program. What they print is kept back until
they are done, whereas complaints are written at once. A fault in a special one ends the shell.
-/

set_option autoImplicit false

namespace SourceOverlay.Process.Shell

structure Standing where
  special : Bool := false
  first : Bool := false
  assigns : Bool := false

def specialNames : List String :=
  [".", ":", "break", "continue", "eval", "exec", "exit", "export", "local", "readonly", "return",
    "set", "shift", "times", "trap", "unset"]

def regularNames : List String :=
  ["alias", "bg", "cd", "chdir", "command", "false", "fg", "getopts", "jobs", "kill", "read",
    "true", "umask", "unalias", "wait"]

def otherNames : List String := ["[", "echo", "hash", "printf", "pwd", "test", "type", "ulimit"]

def standing? (name : String) : Option Standing :=
  let assigns := ["alias", "export", "local", "readonly"].contains name
  if specialNames.contains name then some ⟨true, true, assigns⟩
  else if regularNames.contains name then some ⟨false, true, assigns⟩
  else if otherNames.contains name then some {}
  else none

/-! ### Options and numbers -/

def illegal {α : Type} (text : String) : Act α := fail ("Illegal number: " ++ text)

def takeLetters (known : List Char) :
    List Char → List String → Act (List (Char × String) × List String)
  | [], rest => return ([], rest)
  | c :: cs, rest => do
    match known.dropWhile (· != c) with
    | _ :: ':' :: _ =>
      match cs, rest with
      | [], [] => fail ("No arg for -" ++ c.toString ++ " option")
      | [], value :: rest => return ([(c, value)], rest)
      | _, _ => return ([(c, String.ofList cs)], rest)
    | _ :: _ =>
      let (more, rest) ← takeLetters known cs rest
      return ((c, "") :: more, rest)
    | [] => fail ("Illegal option -" ++ c.toString)

/-- The options in front of the arguments of a command. A colon stands after a letter that takes a
value. -/
def takeOptions (known : String) : Nat → List String → Act (List (Char × String) × List String)
  | 0, args => return ([], args)
  | _, [] => return ([], [])
  | fuel + 1, arg :: rest => do
    match arg.toList with
    | ['-', '-'] => return ([], rest)
    | '-' :: c :: cs =>
      let (given, rest) ← takeLetters known.toList (c :: cs) rest
      let (more, rest) ← takeOptions known fuel rest
      return (given ++ more, rest)
    | _ => return ([], arg :: rest)

def options (known : String) (args : List String) : Act (List (Char × String) × List String) :=
  takeOptions known (args.length + 1) args

def number (text : String) : Act Nat :=
  match scanInteger? (some 10) text.toList with
  | some n =>
    if n.rest.all isSpaceChar && 0 ≤ n.value && n.value < 2147483648 then return n.value.toNat
    else illegal text
  | none => illegal text

def singleQuoted : Nat → List Char → String
  | 0, _ => ""
  | fuel + 1, cs =>
    let plain := cs.takeWhile (· != '\x27')
    let rest := cs.drop plain.length
    let quotes := rest.takeWhile (· == '\x27')
    let rest := rest.drop quotes.length
    let first := "'" ++ String.ofList plain ++ "'"
    if quotes.isEmpty then first
    else
      first ++ "\"" ++ String.ofList quotes ++ "\"" ++
        if rest.isEmpty then "" else singleQuoted fuel rest

def inQuotes (text : String) : String := singleQuoted (text.length + 1) text.toList

/-! ### Variables and arguments -/

def splitAssignment (word : String) : String × Option String :=
  let name := String.ofList (word.toList.takeWhile (· != '='))
  match word.toList.drop name.length with
  | _ :: value => (name, some (String.ofList value))
  | [] => (name, none)

def showVariables (lead : String) (shown : Variable → Bool) : Act Unit := do
  (← get).bindings.toList.forM fun (name, v) => do
    if shown v then
      let value := match v.value with
        | some value => "=" ++ inQuotes value
        | none => ""
      say (lead ++ name ++ value ++ "\n")

def markVariables (lead : String) (exported fixed : Bool) (args : List String) : Act Nat := do
  let (given, args) ← options "p" args
  if !given.isEmpty || args.isEmpty then
    showVariables lead fun v => (exported && v.exported) || (fixed && v.fixed)
    return 0
  args.forM fun word => do
    let (name, value) := splitAssignment word
    match value, (← get).bindings[name]? with
    | none, some v =>
      store name { v with exported := v.exported || exported, fixed := v.fixed || fixed }
    | _, _ => setVariable name value exported fixed
  return 0

def unsetCommand (args : List String) : Act Nat := do
  let (given, names) ← options "vf" args
  let functions := given.getLast?.map (·.1) == some 'f'
  names.forM fun name => do
    if functions then
      modify fun s => { s with functions := s.functions.filter fun f => f.1 != name }
    else unassign name
  return 0

def localCommand (args : List String) : Act Nat := do
  if (← get).frames.isEmpty then fail "not in a function"
  args.forM fun word => do
    if word == "-" then keep fun s => .options s.options
    else
      let (name, value) := splitAssignment word
      if !isName name then fail (name ++ ": bad variable name")
      let old := (← get).bindings[name]?
      keepVariable name
      if old.isNone || value.isSome then
        setVariable name value false false
  return 0

def shiftCommand (args : List String) : Act Nat := do
  let n ← match args with
    | arg :: _ => number arg
    | [] => pure 1
  let s ← get
  if s.args.length < n then fail "can't shift that many"
  set { s with args := s.args.drop n, optionPlace := {} }
  return 0

def optionNames : List String :=
  ["errexit", "noglob", "ignoreeof", "interactive", "monitor", "noexec", "stdin", "xtrace",
    "verbose", "vi", "emacs", "noclobber", "allexport", "notify", "nounset", "privileged", "nolog",
    "debug"]

def optionOf? (letter : Char) : Option String :=
  if letter == 'p' then some "privileged"
  else (optionLetters.find? fun o => o.2 == letter).map (·.1)

def switch (on : Bool) (name : String) : Act Unit :=
  modify fun s =>
    let others := s.options.filter (· != name)
    { s with options := if on then name :: others else others }

def listOptions (on : Bool) : Act Unit := do
  let s ← get
  if on then say "Current option settings\n"
  optionNames.forM fun name => do
    if on then
      let padding := String.ofList (List.replicate (16 - name.length) ' ')
      say (name ++ padding ++ (if s.has name then "on" else "off") ++ "\n")
    else say ("set " ++ (if s.has name then "-o " else "+o ") ++ name ++ "\n")

/-- The letters of a word of options for the shell itself. Gives the words that are left, and the
letters that only count when a shell is started. -/
def switchLetters (starting on : Bool) : List Char → List String → Act (List Char × List String)
  | [], rest => return ([], rest)
  | c :: cs, rest => do
    if starting && (c == 'c' || c == 'l') then
      let (found, rest) ← switchLetters starting on cs rest
      return (c :: found, rest)
    else if c == 'o' then
      match rest with
      | [] =>
        listOptions on
        switchLetters starting on cs []
      | name :: rest =>
        if !optionNames.contains name then fail ("Illegal option -o " ++ name)
        switch on name
        switchLetters starting on cs rest
    else
      match optionOf? c with
      | some name =>
        switch on name
        switchLetters starting on cs rest
      | none => fail ("Illegal option -" ++ c.toString)

def switchOptions (starting : Bool) :
    Nat → List String → Act (List Char × List String × Bool)
  | 0, args => return ([], args, false)
  | _, [] => return ([], [], false)
  | fuel + 1, arg :: rest => do
    match arg.toList with
    | ['-'] =>
      if !starting then
        switch false "xtrace"
        switch false "verbose"
      return ([], rest, false)
    | ['-', '-'] => return ([], rest, true)
    | '-' :: cs =>
      let (found, rest) ← switchLetters starting true cs rest
      let (more, rest, anew) ← switchOptions starting fuel rest
      return (found ++ more, rest, anew)
    | '+' :: cs =>
      let (found, rest) ← switchLetters starting false cs rest
      let (more, rest, anew) ← switchOptions starting fuel rest
      return (found ++ more, rest, anew)
    | _ => return ([], arg :: rest, false)

def setCommand (args : List String) : Act Nat := do
  if args.isEmpty then
    showVariables "" fun v => v.value.isSome
    return 0
  let (_, rest, anew) ← switchOptions false (args.length + 1) args
  if !rest.isEmpty || anew then
    modify fun s => { s with args := rest, optionPlace := {} }
  return 0

/-! ### Options of scripts -/

structure Found where
  letter : Char
  value : Option String
  complaint : Option String := none
  word : Nat
  place : Option Nat

def nextOption? (known : List Char) (words : Array String) (at_ : OptionPlace) :
    Option Found × Nat :=
  let inWord : Option (List Char × Nat) :=
    match at_.place, words[at_.word - 2]? with
    | some place, some word =>
      if 1 < at_.word && place < word.length then some (word.toList.drop place, place) else none
    | _, _ => none
  let start : Option (List Char × Nat × Nat) :=
    match inWord with
    | some (cs, place) => some (cs, place, at_.word)
    | none =>
      match words[at_.word - 1]?.map String.toList with
      | some ('-' :: c :: cs) => some (c :: cs, 1, at_.word + 1)
      | _ => none
  let silent := known.head? == some ':'
  match start with
  | none => (none, at_.word)
  | some (['-'], 1, next) => (none, next)
  | some ([], _, next) => (none, next)
  | some (c :: cs, place, next) =>
    let place := if cs.isEmpty then none else some (place + 1)
    match (if c == ':' then [] else known.dropWhile (· != c)) with
    | [] =>
      let value := if silent then some c.toString else none
      let complaint := if silent then none else some ("Illegal option -" ++ c.toString)
      (some { letter := '?', value, complaint, word := next, place }, next)
    | _ :: ':' :: _ =>
      match cs, words[next - 1]? with
      | [], none =>
        if silent then
          (some { letter := ':', value := some c.toString, word := next, place }, next)
        else
          let complaint := some ("No arg for -" ++ c.toString ++ " option")
          (some { letter := '?', value := none, complaint, word := next, place }, next)
      | [], some value =>
        (some { letter := c, value := some value, word := next + 1, place := none }, next + 1)
      | _, _ =>
        (some { letter := c, value := some (String.ofList cs), word := next, place := none }, next)
    | _ => (some { letter := c, value := some "", word := next, place }, next)

def getoptsCommand (args : List String) : Act Nat := do
  let (_, args) ← options "" args
  match args with
  | known :: name :: rest =>
    let s ← get
    let words := (if rest.isEmpty then s.args else rest).toArray
    let from_ := if words.size + 1 < s.optionPlace.word then {} else s.optionPlace
    let (found, next) := nextOption? known.toList words from_
    match found with
    | some f =>
      match f.complaint with
      | some text => let _ ← write 2 (text ++ "\n")
      | none => pure ()
      match f.value with
      | some value => assign "OPTARG" value
      | none => unassign "OPTARG"
      assign "OPTIND" (toString f.word)
      assign name f.letter.toString
      modify fun s => { s with optionPlace := ⟨f.word, f.place⟩ }
      return 0
    | none =>
      assign "OPTIND" (toString next)
      assign name "?"
      modify fun s => { s with optionPlace := ⟨next, none⟩ }
      return 1
  | _ => fail "Usage: getopts optstring var [arg...]"

/-! ### Reading -/

structure Line where
  cells : List Cell := [.start false]
  taken : Nat := 0
  ended : Bool := false

/-- Takes a line from the text that is there. The flags say that a backslash is a character like
any other, and that one has just been read. -/
def takeLine (bare : Bool) : Bool → Line → List Char → Line
  | _, line, [] => line
  | escaped, line, c :: cs =>
    let line := { line with taken := line.taken + 1 }
    if c == '\x00' then takeLine bare escaped line cs
    else if escaped then
      let cell := if c == '\n' then [] else [Cell.char c true false]
      takeLine bare false { line with cells := .start false :: cell ++ .stop :: line.cells } cs
    else if c == '\\' && !bare then takeLine bare true line cs
    else if c == '\n' then { line with ended := true }
    else takeLine bare false { line with cells := .char c false true :: line.cells } cs

def readCommand (args : List String) : Act Nat := do
  let (given, names) ← options "p:r" args
  if names.isEmpty then fail "arg count"
  let s ← get
  let bare := given.any fun g => g.1 == 'r'
  let stream := s.task.stream? 0
  let there := (stream.map fun n => (s.system.peek n).toOption.getD []).getD []
  let line := takeLine bare false {} there
  match stream with
  | some n => set { s with system := s.system.skip n line.taken }
  | none => pure ()
  let fields := fieldsOf (separators s) (some names.length) line.cells.reverse
  (names.zip (fields.map textOf ++ List.replicate names.length "")).forM fun (name, value) =>
    assign name value
  return if line.ended then 0 else 1

/-! ### Directories -/

def wayFrom (directory path : String) : String :=
  let doubled := match path.toList with
    | '/' :: '/' :: c :: _ => c != '/'
    | ['/', '/'] => true
    | _ => false
  let start := if Disk.isRooted path then [] else Disk.components directory
  let root :=
    if Disk.isRooted path then if doubled then "//" else "/"
    else if directory.toList.take 2 == ['/', '/'] then "//" else "/"
  let names := (Disk.components path).foldl
    (fun done name => if name == ".." then done.tail else name :: done) start.reverse
  root ++ "/".intercalate names.reverse

def goTo (physical : Bool) (path : String) : Act Bool := do
  let s ← get
  let way := if physical then path else wayFrom s.directory path
  match s.disk.find (Text.cooked way) with
  | .ok (names, .directory) =>
    let directory := if physical then Text.raw (Disk.spell names) else way
    modify fun s => { s with working := names, directory }
    setVariable "OLDPWD" (some s.directory) true false
    setVariable "PWD" (some directory) true false
    return true
  | _ => return false

def isDotted (path : String) : Bool :=
  match Disk.parts path with
  | first :: _ => first == "." || first == ".." || Disk.isRooted path
  | [] => false

def cdCommand (args : List String) : Act Nat := do
  let (given, args) ← options "LP" args
  let physical := given.getLast?.map (·.1) == some 'P'
  let s ← get
  let back := args.head? == some "-"
  let dest :=
    match args with
    | [] => (s.value? "HOME").getD ""
    | dest :: _ => if back then (s.value? "OLDPWD").getD "" else dest
  let tries : List (String × Bool) :=
    if isDotted dest then [(dest, false)]
    else
      let dest := if dest == "" then "." else dest
      let places := pathParts ((s.value? "CDPATH").getD "")
      let searched := places.map fun d => (seatIn d dest, d != "")
      (searched.filter fun t => s.disk.isDirectory (Text.cooked t.1)) ++ [(dest, false)]
  let (path, shown) := tries.headD (dest, false)
  if ← goTo physical path then
    if back || shown then say ((← get).directory ++ "\n")
    return 0
  else fail ("can't cd to " ++ dest)

def pwdCommand (args : List String) : Act Nat := do
  let (given, _) ← options "LP" args
  let s ← get
  if given.getLast?.map (·.1) == some 'P' then say (Text.raw (Disk.spell s.working) ++ "\n")
  else say (s.directory ++ "\n")
  return 0

def maskText (mask : Nat) : String := "0" ++ octal mask

def allowedText (mask shift : Nat) : String :=
  let bits := mask / shift % 8
  let letter (bit : Nat) (c : Char) : List Char := if bits / bit % 2 = 0 then [c] else []
  String.ofList (letter 4 'r' ++ letter 2 'w' ++ letter 1 'x')

def umaskCommand (args : List String) : Act Nat := do
  let (given, args) ← options "S" args
  let mask := (← get).mask
  match args with
  | [] =>
    if given.isEmpty then say (maskText mask ++ "\n")
    else
      say ("u=" ++ allowedText mask 64 ++ ",g=" ++ allowedText mask 8 ++ ",o=" ++
        allowedText mask 1 ++ "\n")
    return 0
  | arg :: _ =>
    if arg.toList.head?.any Char.isDigit then
      if !arg.toList.all isOctal then illegal arg
      modify fun s => { s with mask := (spanNumber 8 arg.length 0 arg.toList).1 % 512 }
      return 0
    else fail ("Illegal mode: " ++ arg)

/-! ### Names of commands -/

def reasonOr (absent : String) : Disk.Refusal → String
  | .notFound => absent
  | .notDirectory => absent
  | refusal => refusal.reason

def rowOf (rows : Nat) (name : String) : Nat :=
  let codes := name.toList.map Char.toNat
  (codes.foldl (· + ·) (codes.headD 0 * 16)) % rows

def listed {α : Type} (rows : Nat) (entries : List (String × α)) : List (String × α) :=
  entries.reverse.mergeSort fun a b => rowOf rows a.1 ≤ rowOf rows b.1

def describe (full : Bool) (name : String) : Act Nat := do
  let s ← get
  let tell (long short : String) : Act Nat := do
    say ((if full then name ++ long else short) ++ "\n")
    return 0
  if reservedWords.contains name then tell " is a shell keyword" name
  else
    match s.aliases.lookup name with
    | some value =>
      tell (" is an alias for " ++ value) ("alias " ++ name ++ "=" ++ inQuotes value)
    | none =>
      if (s.functions.lookup name).isSome then tell " is a shell function" name
      else
        match standing? name with
        | some b =>
          tell (if b.special then " is a special shell builtin" else " is a shell builtin") name
        | none =>
          match s.tracked.lookup name with
          | some path => tell (" is a tracked alias for " ++ path) path
          | none =>
            let found :=
              if name.toList.contains '/' then if isThere s.disk name then some name else none
              else (search s name).toOption
            match found with
            | some path => tell (" is " ++ path) path
            | none =>
              if full then say (name ++ ": not found\n")
              return 127

def typeCommand (args : List String) : Act Nat :=
  args.foldlM (fun status name => do
    let found ← describe true name
    return if found = 0 then status else found) 0

def commandCommand (args : List String) : Act Nat := do
  let (given, args) ← options "pvV" args
  let wanted := given.filter fun g => g.1 != 'p'
  match args, wanted with
  | name :: _, _ :: _ => describe (wanted.any fun g => g.1 == 'V') name
  | _, _ => return 0

def hashCommand (args : List String) : Act Nat := do
  let (given, names) ← options "r" args
  if !given.isEmpty then
    modify fun s => { s with tracked := [] }
    return 0
  if names.isEmpty then
    (listed 31 (← get).tracked).forM fun (_, path) => say (path ++ "\n")
    return 0
  names.foldlM (fun status name => do
    let s ← get
    match search s name with
    | .ok path =>
      set { s with tracked := (name, path) :: s.tracked.filter fun t => t.1 != name }
      return status
    | .error refusal =>
      if (standing? name).isSome || (s.functions.lookup name).isSome then return status
      warn (name ++ ": " ++ reasonOr "not found" refusal)
      return 1) 0

def aliasLine (name value : String) : String := name ++ "=" ++ inQuotes value ++ "\n"

def aliasCommand (args : List String) : Act Nat := do
  if args.isEmpty then
    (listed 39 (← get).aliases).forM fun (name, value) => say (aliasLine name value)
    return 0
  args.foldlM (fun status word => do
    match splitAssignment word with
    | (name, some value) =>
      modify fun s =>
        { s with aliases := (name, value) :: s.aliases.filter fun a => a.1 != name }
      return status
    | (name, none) =>
      match (← get).aliases.lookup name with
      | some value =>
        say (aliasLine name value)
        return status
      | none =>
        let _ ← write 2 ("alias: " ++ name ++ " not found\n")
        return 1) 0

def unaliasCommand (args : List String) : Act Nat := do
  let (given, names) ← options "a" args
  if !given.isEmpty then
    modify fun s => { s with aliases := [] }
    return 0
  names.foldlM (fun status name => do
    let s ← get
    if (s.aliases.lookup name).isNone then
      let _ ← write 2 ("unalias: " ++ name ++ " not found\n")
      return 1
    set { s with aliases := s.aliases.filter fun a => a.1 != name }
    return status) 0

/-! ### Signals -/

def signalNames : List String :=
  ["EXIT", "HUP", "INT", "QUIT", "ILL", "TRAP", "ABRT", "BUS", "FPE", "KILL", "USR1", "SEGV",
    "USR2", "PIPE", "ALRM", "TERM", "STKFLT", "CHLD", "CONT", "STOP", "TSTP", "TTIN", "TTOU",
    "URG", "XCPU", "XFSZ", "VTALRM", "PROF", "WINCH", "IO", "PWR", "SYS"]

def signalLimit : Nat := 65

def signal? (text : String) : Option Nat :=
  if text != "" && text.all Char.isDigit then text.toNat?.filter (· < signalLimit)
  else
    let i := signalNames.idxOf text.toUpper
    if i < signalNames.length then some i else none

def signalName (n : Nat) : String := signalNames.getD n (toString n)

def setTrap (action : Option String) (n : Nat) : Act Unit :=
  modify fun s =>
    let others := s.traps.filter fun t => t.1 != n
    { s with traps := match action with
      | some text => (n, text) :: others
      | none => others }

def setTraps (action : Option String) : List String → Act Nat
  | [] => return 0
  | word :: words => do
    match signal? word with
    | some n =>
      setTrap action n
      setTraps action words
    | none =>
      let _ ← write 2 ("trap: " ++ word ++ ": bad trap\n")
      return 1

def trapCommand (args : List String) : Act Nat := do
  let (_, args) ← options "" args
  match args with
  | [] =>
    let traps := (← get).traps.mergeSort fun a b => a.1 ≤ b.1
    traps.forM fun (n, text) => say ("trap -- " ++ inQuotes text ++ " " ++ signalName n ++ "\n")
    return 0
  | [word] => setTraps none [word]
  | action :: words =>
    if action != "" && action.all Char.isDigit && (signal? action).isSome then setTraps none args
    else setTraps (if action == "-" then none else some action) words

def isHarmless (n : Nat) : Bool := [0, 17, 18, 23, 28].contains n

def send (n : Nat) (pid : Nat) : Act Nat := do
  let s ← get
  if pid = shellNumber then
    match s.traps.lookup n with
    | some "" => return 0
    | some _ =>
      set { s with signals := s.signals ++ [n] }
      return 0
    | none => if isHarmless n then return 0 else throw (.killed n)
  else if (s.jobs.lookup pid).isSome then
    if isHarmless n || (s.waiting.lookup pid).isNone then return 0
    let ended (job : Nat × Nat) : Nat × Nat := if job.1 = pid then (pid, 128 + n) else job
    set { s with waiting := s.waiting.filter fun job => job.1 != pid, jobs := s.jobs.map ended }
    return 0
  else
    warn "No such process\n"
    return 1

def killUsage : String :=
  "Usage: kill [-s sigspec | -signum | -sigspec] [pid | job]... or\nkill -l [exitstatus]"

def listSignals : Act Nat := do
  say "0\n"
  (signalNames.drop 1).forM fun name => say (name ++ "\n")
  (List.range (signalLimit - 32)).forM fun i => say (toString (32 + i) ++ "\n")
  return 0

def killAll (n : Nat) (pids : List String) : Act Nat := do
  if pids.isEmpty then fail killUsage
  pids.foldlM (fun status pid => do
    let sent ← send n (← number pid)
    return if sent = 0 then status else sent) 0

def killCommand (args : List String) : Act Nat := do
  let chosen (text : String) (rest : List String) : Act Nat :=
    match signal? text with
    | some n => killAll n rest
    | none => fail ("invalid signal number or name: " ++ text)
  match args with
  | [] => fail killUsage
  | ["-l"] => listSignals
  | "-l" :: code :: _ => do
    let n ← number code
    let n := if 128 < n then n - 128 else n
    if 0 < n && n < signalLimit then
      say (signalName n ++ "\n")
      return 0
    else fail ("invalid signal number or exit status: " ++ code)
  | "-s" :: text :: rest => chosen text rest
  | "--" :: rest => killAll 15 rest
  | word :: rest =>
    match word.toList with
    | '-' :: c :: cs => chosen (String.ofList (c :: cs)) rest
    | _ => killAll 15 args

/-! ### Control -/

def breakCommand (again : Bool) (args : List String) : Act Nat := do
  let n ← match args with
    | arg :: _ => do
      let n ← number arg
      if n = 0 then illegal arg
      pure n
    | [] => pure 1
  let s ← get
  let n := min n s.loops
  if 0 < n then set { s with skip := some (if again then .again n else .leave n) }
  return 0

def returnCommand (args : List String) : Act Nat := do
  let status ← match args with
    | arg :: _ => number arg
    | [] => pure (← get).status
  modify fun s => { s with skip := some .back }
  return status

def exitCommand (args : List String) : Act Nat := do
  match args with
  | arg :: _ =>
    let n ← number arg
    modify fun s => { s with parting := some n }
  | [] => pure ()
  throw .exit

def waitCommand (args : List String) : Act Nat := do
  let (_, args) ← options "" args
  settleJobs
  args.foldlM (fun _ arg => do
    let n ← number arg
    return ((← get).jobs.lookup n).getD 127) 0

/-! ### Printing -/

def printfCommand (args : List String) : Act Nat := do
  let (_, args) ← options "" args
  match args with
  | [] => fail "usage: printf format [arg ...]"
  | format :: args =>
    let p := shellPrintDialect.print format args
    say p.text
    p.complaints.forM warn
    match p.fault with
    | some fault => fail fault
    | none => return p.status

def testCommand (name : String) (args : List String) : Act Nat := do
  let args ←
    if name != "[" then pure args
    else if args.getLast? == some "]" then pure args.dropLast
    else fail "missing ]"
  let s ← get
  let stream? (descriptor : Nat) : Option Stream :=
    (s.task.stream? descriptor).bind fun number => s.system.streams[number]?
  match holds s.disk stream? false args with
  | .ok b => return if b then 0 else 1
  | .error text => fail text

def builtin (name : String) (args : List String) : Act Nat :=
  match name with
  | ":" => return 0
  | "true" => return 0
  | "false" => return 1
  | "[" => testCommand name args
  | "test" => testCommand name args
  | "echo" => do
    say (shellEchoText args)
    return 0
  | "printf" => printfCommand args
  | "pwd" => pwdCommand args
  | "cd" => cdCommand args
  | "chdir" => cdCommand args
  | "read" => readCommand args
  | "set" => setCommand args
  | "shift" => shiftCommand args
  | "export" => markVariables "export " true false args
  | "readonly" => markVariables "readonly " false true args
  | "local" => localCommand args
  | "unset" => unsetCommand args
  | "getopts" => getoptsCommand args
  | "break" => breakCommand false args
  | "continue" => breakCommand true args
  | "return" => returnCommand args
  | "exit" => exitCommand args
  | "trap" => trapCommand args
  | "kill" => killCommand args
  | "wait" => waitCommand args
  | "umask" => umaskCommand args
  | "type" => typeCommand args
  | "command" => commandCommand args
  | "hash" => hashCommand args
  | "alias" => aliasCommand args
  | "unalias" => unaliasCommand args
  | "times" => do
    say "0m0.000000s 0m0.000000s\n0m0.000000s 0m0.000000s\n"
    return 0
  | "ulimit" => do
    say "unlimited\n"
    return 0
  | "jobs" => return 0
  | "fg" => fail "No current job"
  | "bg" => fail "No current job"
  | _ => return 0

end SourceOverlay.Process.Shell
