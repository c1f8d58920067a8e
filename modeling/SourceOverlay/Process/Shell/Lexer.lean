import SourceOverlay.Process.Shell.Script

/-!
# Words of a script

Words are read character by character. What a character means depends on the quotes and the
substitutions it stands in, which are kept as a stack of levels. The commands inside a
substitution are read by a reader that is handed in.
-/

set_option autoImplicit false

namespace SourceOverlay.Process.Shell

structure Fault where
  line : Nat
  message : String

inductive Token where
  | ended
  | newline
  | word
  | redirect
  | sign (text : String)
  deriving Repr, DecidableEq

def Token.text : Token → String
  | .ended => "end of file"
  | .newline => "newline"
  | .word => "word"
  | .redirect => "redirection"
  | .sign text => "\"" ++ text ++ "\""

structure Pending where
  number : Nat
  delimiter : List Char
  stripTabs : Bool
  expanded : Bool

structure Checks where
  newlines : Bool := false
  keywords : Bool := false
  aliases : Bool := false
  delimiter : Bool := false

structure Busy where
  name : String
  after : Nat
  goesOn : Bool

structure Reader where
  input : List Char
  line : Nat := 1
  pushed : Bool := false
  last : Token := .ended
  word : Word := []
  quoted : Bool := false
  redirect : Option Redirect := none
  checks : Checks := {}
  pending : List Pending := []
  documents : List (Nat × Word) := []
  nextDocument : Nat := 0
  aliases : List (String × String) := []
  busy : List Busy := []

abbrev Read := StateT Reader (Except Fault)

namespace Read

def fail {α : Type} (message : String) : Read α := fun r =>
  .error ⟨r.line, "Syntax error: " ++ message⟩

def dropHidden : List Char → Nat → List Char × Nat
  | '\\' :: '\n' :: cs, n => dropHidden cs (n + 1)
  | cs, n => (cs, n)

def rawChar : Read (Option Char) := do
  let r ← get
  match r.input with
  | [] => return none
  | c :: cs =>
    set { r with input := cs }
    return some c

def char : Read (Option Char) := do
  modify fun r =>
    let (input, n) := dropHidden r.input 0
    { r with input, line := r.line + n }
  rawChar

def unread (c : Option Char) : Read Unit :=
  modify fun r => { r with input := c.toList ++ r.input }

def nextLine : Read Unit := modify fun r => { r with line := r.line + 1 }

end Read

/-! ### Levels -/

inductive Mode where
  | base
  | double
  | single
  | sum
  deriving DecidableEq

structure Level where
  mode : Mode
  quoted : Bool := false
  opened : Nat := 0
  openedQuoted : Nat := 0
  inner : Bool := false
  made : Bool := false
  parens : Nat := 0

/-- A word under construction, flat: what opens and what closes. -/
inductive Glyph where
  | piece (p : Piece)
  | openParameter (name : String) (use : Use) (nullToo : Bool)
  | closeParameter
  | openSum
  | closeSum

def assemble : Nat → List Glyph → Word → Word × List Glyph
  | 0, gs, done => (done.reverse, gs)
  | _, [], done => (done.reverse, [])
  | fuel + 1, g :: gs, done =>
    match g with
    | .piece p => assemble fuel gs (p :: done)
    | .openParameter name use nullToo =>
      let (word, rest) := assemble fuel gs []
      assemble fuel rest (.parameter name use nullToo word :: done)
    | .openSum =>
      let (word, rest) := assemble fuel gs []
      assemble fuel rest (.sum word :: done)
    | .closeParameter => (done.reverse, gs)
    | .closeSum => (done.reverse, gs)

structure Lexing where
  top : Level
  below : List Level := []
  glyphs : List Glyph := []
  quoted : Bool := false

namespace Lexing

def emit (s : Lexing) (g : Glyph) : Lexing := { s with glyphs := g :: s.glyphs }

def literal (s : Lexing) (c : Char) : Lexing := s.emit (.piece (.literal c))

def ordinary (s : Lexing) (c : Char) : Lexing :=
  if s.top.mode = .base then s.emit (.piece (.plain c)) else s.literal c

def pop (s : Lexing) : Lexing :=
  match s.below with
  | level :: below => { s with top := level, below }
  | [] => s

def push (s : Lexing) (level : Level) : Lexing := { s with top := level, below := s.top :: s.below }

def quoteMark (s : Lexing) (here : Bool) : Lexing := if here then s else s.emit (.piece .mark)

def toggleInner (s : Lexing) : Lexing :=
  if 0 < s.top.opened then { s with top := { s.top with inner := !s.top.inner } } else s

def endQuote (s : Lexing) (here : Bool) (c : Char) : Lexing :=
  if here && s.top.opened = 0 then s.literal c
  else
    let s :=
      if s.top.openedQuoted = 0 then { s with top := { s.top with mode := .base, quoted := false } }
      else s
    let s := { s with quoted := true }
    (if c == '"' then s.toggleInner else s).quoteMark here

def endBrace (s : Lexing) : Lexing :=
  if !s.top.inner && 0 < s.top.opened then
    let top := { s.top with opened := s.top.opened - 1 }
    let s := { s with top }
    let s :=
      if top.opened = 0 && top.made then s.pop
      else { s with top := { top with openedQuoted := top.openedQuoted - 1 } }
    s.emit .closeParameter
  else s.ordinary '\x7d'

def openParameter (s : Lexing) (name : String) (use : Use) (nullToo : Bool) : Lexing :=
  let cuts := match use with
    | .cutEnd _ => true
    | .cutStart _ => true
    | _ => false
  let mode := if cuts then .base else if s.top.mode = .sum then .double else s.top.mode
  let s := s.emit (.openParameter name use nullToo)
  let s :=
    if mode ≠ s.top.mode || s.top.inner then
      s.push { mode, quoted := mode ≠ .base, made := true }
    else s
  { s with top := { s.top with
    opened := s.top.opened + 1
    openedQuoted := if s.top.quoted then s.top.openedQuoted + 1 else s.top.openedQuoted } }

end Lexing

/-! ### Parameters -/

def isSpecialName (c : Char) : Bool := "@*#?$!-".toList.contains c || c.isDigit

def readRun (p : Char → Bool) : Nat → List Char → Read String
  | 0, done => return String.ofList done.reverse
  | fuel + 1, done => do
    match ← Read.char with
    | some c =>
      if p c then readRun p fuel (c :: done)
      else
        Read.unread (some c)
        return String.ofList done.reverse
    | none => return String.ofList done.reverse

def useOf? (c : Option Char) : Option Use :=
  match c with
  | some '\x7d' => some .value
  | some '-' => some .orElse
  | some '+' => some .andThen
  | some '?' => some .orFail
  | some '=' => some .orAssign
  | _ => none

def readBracedName : Read (String × Bool) := do
  let fuel := (← get).input.length + 1
  match ← Read.char with
  | none => return ("", false)
  | some c =>
    if isNameStart c then return (← readRun isNameChar fuel [c], false)
    else if c.isDigit then return (← readRun Char.isDigit fuel [c], false)
    else if c == '#' then
      match ← Read.char with
      | some d =>
        if isNameStart d then return (← readRun isNameChar fuel [d], true)
        else if d.isDigit then return (d.toString, true)
        else
          let e ← Read.char
          Read.unread e
          if d == '\x7d' || e != some '\x7d' then
            Read.unread (some d)
            return ("#", false)
          else return (if isSpecialName d then d.toString else "", isSpecialName d)
      | none => return ("#", false)
    else if isSpecialName c then return (c.toString, false)
    else
      if c == '\x7d' then Read.unread (some c)
      return ("", false)

def readUse : Read (Use × Bool) := do
  match ← Read.char with
  | some ':' =>
    let c ← Read.char
    return ((useOf? c).getD .bad, true)
  | some '%' =>
    let c ← Read.char
    if c == some '%' then return (.cutEnd true, false)
    Read.unread c
    return (.cutEnd false, false)
  | some '#' =>
    let c ← Read.char
    if c == some '#' then return (.cutStart true, false)
    Read.unread c
    return (.cutStart false, false)
  | c => return ((useOf? c).getD .bad, false)

def readBraced (s : Lexing) : Read Lexing := do
  let (name, lengthWanted) ← readBracedName
  if name == "" then return s.openParameter "" .bad false
  else if lengthWanted then
    let c ← Read.char
    Read.unread c
    return s.openParameter name (if c == some '\x7d' then .length else .bad) false
  else
    match ← readUse with
    | (.value, nullToo) => return s.emit (.piece (.parameter name .value nullToo []))
    | (use, nullToo) => return s.openParameter name use nullToo

/-! ### Substitutions -/

def readBackquoted (quoted : Bool) : Nat → List Char → Read (List Char)
  | 0, done => return done.reverse
  | fuel + 1, done => do
    match ← Read.char with
    | none => Read.fail "EOF in backquote substitution"
    | some '\x60' => return done.reverse
    | some '\\' =>
      match ← Read.rawChar with
      | none => readBackquoted quoted fuel ('\\' :: done)
      | some c =>
        if c == '\\' || c == '\x60' || c == '$' || (quoted && c == '"') then
          readBackquoted quoted fuel (c :: done)
        else readBackquoted quoted fuel (c :: '\\' :: done)
    | some c =>
      if c == '\n' then Read.nextLine
      readBackquoted quoted fuel (c :: done)

structure Inner where
  list : Read (Option Node)
  token : Read Token

def apart {α : Type} (read : Read α) : Read α := do
  let outer ← get
  set { outer with pushed := false, checks := {}, pending := [] }
  let a ← read
  modify fun r => { r with
    pushed := outer.pushed, last := outer.last, checks := outer.checks, pending := outer.pending }
  return a

def readCommandSubstitution (inner : Inner) : Read (Option Node) := apart do
  let body ← inner.list
  let t ← inner.token
  if t ≠ .sign ")" then
    Read.fail (t.text ++ " unexpected (expecting \")\")")
  return body

def readBackquotes (inner : Inner) (quoted : Bool) : Read (Option Node) := do
  let fuel := (← get).input.length + 1
  let text ← readBackquoted quoted fuel []
  apart do
    let outer ← get
    set { outer with input := text, line := 1 }
    let body ← inner.list
    modify fun r => { r with input := outer.input, line := outer.line }
    return body

def readDollar (inner : Inner) (s : Lexing) : Read Lexing := do
  if (← get).checks.delimiter then return s.ordinary '$'
  match ← Read.char with
  | some '(' =>
    let c ← Read.char
    if c == some '(' then return (s.emit .openSum).push { mode := .sum, quoted := true }
    Read.unread c
    return s.emit (.piece (.command (← readCommandSubstitution inner)))
  | some '\x7b' => readBraced s
  | some c =>
    if isNameStart c then
      let name ← readRun isNameChar ((← get).input.length + 1) [c]
      return s.emit (.piece (.parameter name .value false []))
    else if isSpecialName c then
      return s.emit (.piece (.parameter c.toString .value false []))
    else
      Read.unread (some c)
      return s.ordinary '$'
  | none => return s.ordinary '$'

/-! ### Words -/

structure Ending where
  delimiter : List Char
  stripTabs : Bool

/-- Looks at the beginning of a line of a here-document. Says whether it is the last. -/
def Ending.reached (e : Ending) : Read Bool := do
  let r ← get
  let input := if e.stripTabs then r.input.dropWhile (· == '\t') else r.input
  let rest := input.drop e.delimiter.length
  if e.delimiter.isPrefixOf input && rest.head?.all (· == '\n') then
    set { r with input := rest.drop 1, line := if rest.isEmpty then r.line else r.line + 1 }
    return true
  else
    set { r with input }
    return false

def readEscaped (s : Lexing) (here : Bool) : Read Lexing := do
  match ← Read.rawChar with
  | none => return s.literal '\\'
  | some c =>
    if c == '\n' then Read.nextLine
    let kept :=
      s.top.quoted && c != '\\' && c != '\x60' && c != '$' &&
        (c != '"' || (here && s.top.opened = 0)) && (c != '\x7d' || s.top.opened = 0)
    let s := if kept then s.literal '\\' else s
    return { s.literal c with quoted := true }

def readSumClose (s : Lexing) : Read Lexing := do
  if 0 < s.top.parens then
    return { s with top := { s.top with parens := s.top.parens - 1 } }.literal ')'
  else
    let c ← Read.char
    if c == some ')' then return (s.emit .closeSum).pop
    Read.unread c
    return s.literal ')'

def lexChar (inner : Inner) (here : Bool) (s : Lexing) (c : Char) : Read (Lexing × Bool) := do
  let go (s : Lexing) : Lexing × Bool := (s, true)
  match s.top.mode, c with
  | .single, '\x27' => return go (s.endQuote here c)
  | .single, _ => return go (s.literal c)
  | .double, '"' => return go (s.endQuote here c)
  | .sum, '"' => return go (s.literal c)
  | .sum, '(' => return go ({ s with top := { s.top with parens := s.top.parens + 1 } }.literal c)
  | .sum, ')' => return go (← readSumClose s)
  | .base, '\x27' => return go ({ s with top := { s.top with mode := .single } }.quoteMark here)
  | .base, '"' =>
    let s := { s with top := { s.top with mode := .double, quoted := true } }
    return go (s.toggleInner.quoteMark here)
  | mode, _ =>
    if c == '\\' then return go (← readEscaped s here)
    else if c == '$' then return go (← readDollar inner s)
    else if c == '\x60' then
      if (← get).checks.delimiter then return go (s.ordinary c)
      return go (s.emit (.piece (.command (← readBackquotes inner s.top.quoted))))
    else if c == '\x7d' then return go s.endBrace
    else if mode = .base && s.top.opened = 0 && "\n<>();&| \t".toList.contains c then
      Read.unread (some c)
      return (s, false)
    else return go (s.ordinary c)

def lexWord (inner : Inner) (ending : Option Ending) : Nat → Lexing → Read Lexing
  | 0, s => return s
  | fuel + 1, s => do
    match ← (if s.top.mode = .single then Read.rawChar else Read.char) with
    | none => return s
    | some c =>
      let (s, goesOn) ← lexChar inner ending.isSome s c
      if !goesOn then return s
      if c == '\n' then
        Read.nextLine
        match ending with
        | some e => if ← e.reached then return s
        | none => pure ()
      lexWord inner ending fuel s

def checkClosed (here : Bool) (s : Lexing) : Read Unit := do
  if s.top.mode = .sum then Read.fail "Missing '))'"
  if s.top.mode ≠ .base && !here then Read.fail "Unterminated quoted string"
  if 0 < s.top.opened then Read.fail "Missing '\x7d'"

def Lexing.word (s : Lexing) : Word :=
  let glyphs := s.glyphs.reverse
  (assemble (glyphs.length + 1) glyphs []).1

def readDocument (inner : Inner) (p : Pending) : Read Unit := do
  let ending : Ending := ⟨p.delimiter, p.stripTabs⟩
  let mode : Mode := if p.expanded then .double else .single
  let start : Lexing := { top := { mode, quoted := p.expanded } }
  let word ← do
    if ← ending.reached then pure []
    else
      let s ← lexWord inner (some ending) ((← get).input.length + 1) start
      checkClosed true s
      pure s.word
  modify fun r => { r with documents := (p.number, word) :: r.documents }

def readQuoted (inner : Inner) : Read Word := do
  let never : Ending := ⟨['\x00'], false⟩
  let start : Lexing := { top := { mode := .double, quoted := true } }
  let s ← lexWord inner (some never) ((← get).input.length + 1) start
  checkClosed true s
  return s.word

def readDocuments (inner : Inner) : Read Unit := do
  let pending := (← get).pending
  modify fun r => { r with pending := [], pushed := if pending.isEmpty then r.pushed else false }
  pending.forM (readDocument inner)

end SourceOverlay.Process.Shell
