import SourceOverlay.Process.Shell.Arithmetic
import SourceOverlay.Process.Shell.Fields
import SourceOverlay.Process.Shell.State

/-!
# Expansion of words

The pieces of a word become cells: parameters, the output of commands and sums are put in their
places. The cells are cut into fields where that is wanted, and a field that is a pattern becomes
the names of the files that it matches.
-/

set_option autoImplicit false

namespace SourceOverlay.Process.Shell

structure Manner where
  fields : Bool := false
  quoted : Bool := false
  loose : Bool := false
  tilde : Bool := false
  assignment : Bool := false

abbrev Capture := Node → Act String

abbrev Inside := Manner → Word → Act (List Cell)

/-! ### Parameters -/

def cellsOf (quoted loose : Bool) (text : String) : List Cell :=
  text.toList.map fun c => .char c quoted loose

def valueCells (quoted : Bool) (text : String) : List Cell :=
  if quoted then cellsOf true false text else .start false :: cellsOf false true text ++ [.stop]

def separators (s : State) : List Char :=
  match s.value? "IFS" with
  | some text => text.toList
  | none => defaultSeparators

def joiner (s : State) : String :=
  match s.value? "IFS" with
  | some text => String.ofList (text.toList.take 1)
  | none => " "

def optionLetters : List (String × Char) :=
  [("errexit", 'e'), ("noglob", 'f'), ("ignoreeof", 'I'), ("interactive", 'i'), ("monitor", 'm'),
    ("noexec", 'n'), ("stdin", 's'), ("xtrace", 'x'), ("verbose", 'v'), ("vi", 'V'),
    ("emacs", 'E'), ("noclobber", 'C'), ("allexport", 'a'), ("notify", 'b'), ("nounset", 'u')]

def shellNumber : Nat := 4711

def State.parameter? (s : State) (name : String) : Option String :=
  match name with
  | "$" => some (toString shellNumber)
  | "?" => some (toString s.status)
  | "#" => some (toString s.args.length)
  | "!" => s.jobs.head?.map fun job => toString job.1
  | "-" =>
    some (String.ofList ((optionLetters.filter fun o => s.has o.1).map (·.2)).reverse)
  | "0" => some s.name
  | _ =>
    match name.toNat? with
    | some n => if name.all Char.isDigit then s.args[n - 1]? else s.value? name
    | none => s.value? name

/-- The cells of all arguments. Outside quotes and in fields each stands apart; so do they inside
quotes by the first of the two names. -/
def argumentCells (s : State) (m : Manner) (name : String) (quoted : Bool) : List Cell :=
  if m.fields && (!quoted || name == "@") then
    let rows := s.args.map (cellsOf quoted (!quoted))
    if quoted && s.args.isEmpty then []
    else .start quoted :: [Cell.cut].intercalate rows ++ [.stop]
  else cellsOf quoted false ((joiner s).intercalate s.args)

def parameterCells? (s : State) (m : Manner) (name : String) (quoted : Bool) : Option (List Cell) :=
  if name == "@" || name == "*" then
    some (argumentCells s m name quoted)
  else (s.parameter? name).map (valueCells quoted)

def Cell.char? : Cell → Option Char
  | .char c _ _ => some c
  | .cut => some '\x00'
  | _ => none

def isNull (cells : List Cell) : Bool := cells.all fun cell => cell.char?.isNone

def missing {α : Type} (name : String) (nullToo : Bool) (message : Option String) : Act α :=
  match message with
  | some text => fail (name ++ ": " ++ text)
  | none => fail (name ++ ": parameter not set" ++ if nullToo then " or null" else "")

def cutCells (atStart longest : Bool) (p : Pattern) (cells : List Cell) : List Cell :=
  let body := cells.filter fun cell => cell.char?.isSome
  let text := body.filterMap Cell.char?
  let left := if atStart then p.cutStart longest text else p.cutEnd longest text
  let body := if atStart then body.drop (body.length - left.length) else body.take left.length
  match cells.head? with
  | some (.start argsOnly) => .start argsOnly :: body ++ [.stop]
  | _ => body

def demanded (m : Manner) (name : String) (quoted : Bool) : Act (List Cell) := do
  let s ← get
  match parameterCells? s m name quoted with
  | some cells => return cells
  | none =>
    if s.has "nounset" then missing name false none else return []

def expandParameter (inside : Inside) (m : Manner) (quoted : Bool) (name : String) (use : Use)
    (nullToo : Bool) (word : Word) : Act (List Cell) := do
  let s ← get
  let found := (parameterCells? s m name quoted).filter fun cells =>
    !nullToo || !isNull cells
  let nested : Manner := { m with quoted, loose := !quoted, tilde := true, assignment := false }
  let bare : Manner := { tilde := true, quoted }
  match use with
  | .bad => fail "Bad substitution"
  | .value => demanded m name quoted
  | .length =>
    let cells ← demanded { m with fields := false } name true
    return valueCells quoted (toString cells.length)
  | .orElse =>
    match found with
    | some cells => return cells
    | none => inside nested word
  | .andThen => if found.isSome then inside nested word else return []
  | .orFail =>
    match found with
    | some cells => return cells
    | none =>
      let text := textOf (← inside bare word)
      missing name nullToo (if word.isEmpty then none else some text)
  | .orAssign =>
    match found with
    | some cells => return cells
    | none =>
      let text := textOf (← inside bare word)
      assign name text
      return (parameterCells? (← get) m name quoted).getD []
  | .cutEnd longest =>
    let cells ← demanded m name quoted
    return cutCells false longest (patternOf (← inside { tilde := true } word)) cells
  | .cutStart longest =>
    let cells ← demanded m name quoted
    return cutCells true longest (patternOf (← inside { tilde := true } word)) cells

/-! ### Tildes -/

def home? (s : State) (name : String) : Option String :=
  if name == "" then s.value? "HOME" else if name == "root" then some "/root" else none

def tilde? (s : State) (assignment : Bool) (w : Word) : Option (String × Word) :=
  match w with
  | .plain '~' :: rest =>
    let ends (c : Char) : Bool := c == '/' || (assignment && c == ':')
    let name := rest.takeWhile fun
      | .plain c => !ends c
      | _ => false
    let left := rest.drop name.length
    let whole := match left with
      | [] => true
      | .plain _ :: _ => true
      | _ => false
    if whole then (home? s ((plainText? name).getD "")).map (·, left) else none
  | _ => none

/-! ### Words -/

def expandSum (text : String) : Act String := do
  let s ← get
  let ledger : Ledger := ⟨s.value?, s.isFixed⟩
  match Sum.evaluate ledger text with
  | .ok (n, assigned) =>
    assigned.reverse.forM fun (name, value) => assign name value
    return toString n
  | .error (.expression message) =>
    fail ("arithmetic expression: " ++ message ++ ": \"" ++ text ++ "\"")
  | .error (.badNumber number) => fail ("Illegal number: " ++ number)
  | .error (.fixed name) => fail (name ++ ": is read only")

def withoutNewlines (text : String) : String :=
  String.ofList ((text.toList.filter (· != '\x00')).reverse.dropWhile (· == '\n')).reverse

def expandPiece (capture : Capture) (inside : Inside) (m : Manner) (quoted : Bool) :
    Piece → Act (List Cell)
  | .plain c => return [.char c false false]
  | .literal c => return [.char c true false]
  | .mark => return [.mark]
  | .parameter name use nullToo word => expandParameter inside m quoted name use nullToo word
  | .command none => return valueCells quoted ""
  | .command (some n) => return valueCells quoted (withoutNewlines (← capture n))
  | .sum word => do
    let text := textOf (← inside { quoted := true } word)
    return valueCells quoted (← expandSum text)

def looseRun (w : Word) : List Char :=
  (w.map Piece.plain?).takeWhile Option.isSome |>.filterMap id

/-- Expands the pieces of a word. The flags say that a tilde may stand here, and that the pieces
stand inside quotes. The cells that are done come in reverse. -/
def expandPieces (capture : Capture) (inside : Inside) (m : Manner) :
    Nat → Bool → Bool → Word → List Cell → Act (List Cell)
  | 0, _, _, _, done => return done.reverse
  | _, _, _, [], done => return done.reverse
  | fuel + 1, tilde, quoted, p :: rest, done => do
    let s ← get
    match if tilde && !quoted then tilde? s m.assignment (p :: rest) else none with
    | some (home, left) =>
      expandPieces capture inside m fuel false quoted left
        ((cellsOf true false home).reverse ++ done)
    | none =>
      match p, rest with
      | .mark, .parameter "@" .value _ _ :: .mark :: left =>
        if quoted || m.quoted then
          expandPieces capture inside m fuel false (!quoted) rest (.mark :: done)
        else
          let cells ← demanded m "@" true
          expandPieces capture inside m fuel false quoted left (cells.reverse ++ done)
      | .mark, _ => expandPieces capture inside m fuel false (!quoted) rest (.mark :: done)
      | .plain c, _ =>
        if m.loose && !(quoted || m.quoted) then
          let run := looseRun (p :: rest)
          let cells := Cell.start false :: run.map (.char · false true) ++ [.stop]
          expandPieces capture inside m fuel false quoted ((p :: rest).drop run.length)
            (cells.reverse ++ done)
        else
          expandPieces capture inside m fuel (m.assignment && c == ':') quoted rest
            (.char c false false :: done)
      | _, _ =>
        let cells ← expandPiece capture inside m (quoted || m.quoted) p
        expandPieces capture inside m fuel false quoted rest (cells.reverse ++ done)

def expandWord (capture : Capture) : Nat → Inside
  | 0 => fun _ _ => fail "Bad substitution"
  | depth + 1 => fun m w =>
    expandPieces capture (expandWord capture depth) m (w.length + 1) m.tilde false w []

def wordDepth : Nat := 200

def expandCells (capture : Capture) (m : Manner) (w : Word) : Act (List Cell) :=
  expandWord capture wordDepth m w

def expandText (capture : Capture) (m : Manner) (w : Word) : Act String :=
  return textOf (← expandCells capture m w)

/-! ### Names of files -/

def spanSlash (p : Pattern) : Pattern × Pattern :=
  (p.takeWhile (·.1 != '/'), p.dropWhile (·.1 != '/'))

def matchingNames (disk : Disk) (directory : String) (p : Pattern) : List String :=
  let hidden := p.head?.any (·.1 == '.')
  let names := match disk.entries (Text.cooked (if directory == "" then "." else directory)) with
    | .ok names => "." :: ".." :: names.map Text.raw
    | .error _ => []
  names.filter fun name =>
    (hidden || name.toList.head? != some '.') && p.accepts name.toList

def isThere (disk : Disk) (path : String) : Bool :=
  match disk.placeWith false (Text.cooked path) with
  | .ok (.node _ _) => true
  | _ => (programAt? path).isSome || (deviceNamed? path).isSome

/-- The locations that a pattern matches, after a beginning that is settled. The flag says that
the beginning has been found on the disk. -/
def matching (disk : Disk) : Nat → String → Pattern → List String
  | 0, _, _ => []
  | _, done, [] => if isThere disk done then [done] else []
  | fuel + 1, done, p =>
    match spanSlash p with
    | ([], slashes) =>
      let run := slashes.takeWhile (·.1 == '/')
      matching disk fuel (done ++ String.ofList (run.map (·.1))) (slashes.drop run.length)
    | (part, rest) =>
      if Pattern.isMagic part then
        (matchingNames disk done part).flatMap fun name => matching disk fuel (done ++ name) rest
      else matching disk fuel (done ++ String.ofList (part.map (·.1))) rest

def fileNames (disk : Disk) (field : List Cell) : List String :=
  let p := patternOf field
  if !p.isMagic then [textOf field]
  else
    match matching disk (2 * p.length + 2) "" p with
    | [] => [textOf field]
    | names => names.mergeSort fun a b => a ≤ b

def expandFields (capture : Capture) (w : Word) : Act (List String) := do
  let cells ← expandCells capture { fields := true, tilde := true } w
  let s ← get
  let fields := fieldsOf (separators s) none cells
  if s.has "noglob" then return fields.map textOf
  return fields.flatMap (fileNames s.disk)

end SourceOverlay.Process.Shell
