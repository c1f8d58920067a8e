import SourceOverlay.Process.Shell.Lexer

/-!
# Commands of a script

A script is read one line of commands at a time, so that what comes first runs before a fault
further down is noticed. The grammar calls itself through a record of readers, each of which may
go one level less deep than the one that calls it.
-/

set_option autoImplicit false

namespace SourceOverlay.Process.Shell

structure Grammar where
  /-- A list of commands. The number says how it ends: 1 at the end of the line, 0 and 2 at a word
  that closes, where a list read with 0 must not be empty. -/
  list : Nat → Read (Option Node)
  command : Read Node

/-! ### Tokens -/

def reservedWords : List String :=
  ["!", "case", "do", "done", "elif", "else", "esac", "fi", "for", "if", "in", "then", "until",
    "while", "\x7b", "\x7d"]

def Token.endsList : Token → Bool
  | .ended => true
  | .sign text =>
    [")", ";;", "do", "done", "elif", "else", "esac", "fi", "then", "\x7d"].contains text
  | _ => false

def readOperator (c : Char) : Read Token := do
  let d ← Read.char
  if d == some c then return .sign (String.ofList [c, c])
  Read.unread d
  return .sign c.toString

def readRedirectSign (digit : Option Char) (sign : Char) : Read Redirect := do
  let at' (default : Nat) : Nat :=
    match digit with
    | some d => d.toNat - '0'.toNat
    | none => default
  let c ← Read.char
  if sign == '>' then
    match c with
    | some '>' => return .file (at' 1) .appending []
    | some '|' => return .file (at' 1) .overwriting []
    | some '&' => return .copyWord (at' 1) []
    | _ =>
      Read.unread c
      return .file (at' 1) .writing []
  else
    match c with
    | some '<' =>
      let d ← Read.char
      if d != some '-' then Read.unread d
      let r ← get
      let pending : Pending := ⟨r.nextDocument, [], d == some '-', true⟩
      set { r with nextDocument := r.nextDocument + 1, pending := r.pending ++ [pending] }
      return .here (at' 0) pending.number true
    | some '&' => return .copyWord (at' 0) []
    | some '>' => return .file (at' 0) .updating []
    | _ =>
      Read.unread c
      return .file (at' 0) .reading []

def descriptorDigit? (s : Lexing) : Option (Option Char) :=
  if s.quoted then none
  else
    match s.glyphs with
    | [] => some none
    | [.piece (.plain c)] => if c.isDigit then some (some c) else none
    | _ => none

def readWordToken (inner : Inner) : Read Token := do
  let start : Lexing := { top := { mode := .base } }
  let s ← lexWord inner none ((← get).input.length + 1) start
  checkClosed false s
  let word (_ : Unit) : Read Token := do
    modify fun r => { r with word := s.word, quoted := s.quoted }
    return .word
  match (← get).input.head?, descriptorDigit? s with
  | some c, some digit =>
    if c == '<' || c == '>' then
      let _ ← Read.rawChar
      let redirect ← readRedirectSign digit c
      modify fun r => { r with redirect := some redirect }
      return .redirect
    else word ()
  | _, _ => word ()

def scanToken (inner : Inner) : Nat → Read Token
  | 0 => return .ended
  | fuel + 1 => do
    match ← Read.char with
    | none => return .ended
    | some c =>
      if c == ' ' || c == '\t' then scanToken inner fuel
      else if c == '#' then
        modify fun r => { r with input := r.input.dropWhile (· != '\n') }
        scanToken inner fuel
      else if c == '\n' then
        Read.nextLine
        return .newline
      else if c == '&' || c == '|' || c == ';' then readOperator c
      else if c == '(' || c == ')' then return .sign c.toString
      else
        Read.unread (some c)
        readWordToken inner

def Reader.alias? (r : Reader) (word : String) : Option String :=
  if r.busy.any fun b => b.name == word then none else r.aliases.lookup word

def Reader.pushAlias (r : Reader) (word value : String) : Reader :=
  let goesOn := value.toList.getLast?.any fun c => c == ' ' || c == '\t'
  { r with
    input := value.toList ++ r.input
    busy := if value == "" then r.busy else ⟨word, r.input.length, goesOn⟩ :: r.busy }

/-- Forgets the aliases whose values have been read. Says whether the word after one of them may be
an alias as well. -/
def Reader.dropAliases (r : Reader) : Bool × Reader :=
  let left := r.input.length
  (r.busy.any fun b => b.goesOn && left < b.after,
    { r with busy := r.busy.filter fun b => b.after ≤ left })

def nextToken (inner : Inner) : Nat → Read Token
  | 0 => return .ended
  | fuel + 1 => do
    let r ← get
    let checks := r.checks
    let t ← if r.pushed then pure r.last else scanToken inner (r.input.length + 2)
    modify fun r => { r with pushed := false, last := t }
    let (again, r) := (← get).dropAliases
    set r
    if t = .newline && checks.newlines then
      readDocuments inner
      nextToken inner fuel
    else
      modify fun r => { r with checks := {} }
      let r ← get
      if t ≠ .word || r.quoted then return t
      match plainText? r.word with
      | none => return t
      | some text =>
        if checks.keywords && reservedWords.contains text then
          let t := Token.sign text
          modify fun r => { r with last := t }
          return t
        else
          match if checks.aliases || again then r.alias? text else none with
          | some value =>
            set { r.pushAlias text value with checks }
            nextToken inner fuel
          | none => return t

namespace Grammar

def inner (g : Grammar) : Inner where
  list := g.list 2
  token := do
    let fuel := (← get).input.length + 2
    nextToken ⟨g.list 2, pure .ended⟩ fuel

def token (g : Grammar) : Read Token := do nextToken g.inner ((← get).input.length + 2)

def expecting (checks : Checks) : Read Unit := modify fun r => { r with checks }

def pushBack : Read Unit := modify fun r => { r with pushed := true }

def unexpected {α : Type} (wanted : Option String) : Read α := do
  let found := (← get).last.text ++ " unexpected"
  match wanted with
  | some w => Read.fail (found ++ " (expecting " ++ w ++ ")")
  | none => Read.fail found

def demand (g : Grammar) (text : String) : Read Unit := do
  if (← g.token) ≠ .sign text then unexpected (some (Token.sign text).text)

def commandChecks : Checks := { keywords := true, aliases := true }

def anyLine : Checks := { newlines := true, keywords := true, aliases := true }

/-! ### Redirections -/

def copyOf (descriptor : Nat) (w : Word) : Redirect :=
  match plainText? w with
  | some text =>
    match text.toList with
    | ['-'] => .copy descriptor none
    | [c] => if c.isDigit then .copy descriptor (some (c.toNat - '0'.toNat))
      else .copyWord descriptor w
    | _ => .copyWord descriptor w
  | none => .copyWord descriptor w

def bareChars (w : Word) : List Char :=
  w.filterMap fun
    | .plain c => some c
    | .literal c => some c
    | _ => none

def target (g : Grammar) : Read Redirect := do
  let redirect := (← get).redirect
  let isHere := match redirect with
    | some (.here _ _ _) => true
    | _ => false
  expecting { delimiter := isHere }
  if (← g.token) ≠ .word then unexpected none
  let r ← get
  match redirect with
  | some (.file descriptor opener _) => return .file descriptor opener r.word
  | some (.copyWord descriptor _) => return copyOf descriptor r.word
  | some (.here descriptor number _) =>
    let finished (p : Pending) : Pending :=
      if p.number = number then { p with delimiter := bareChars r.word, expanded := !r.quoted }
      else p
    set { r with pending := r.pending.map finished }
    return .here descriptor number (!r.quoted)
  | some other => return other
  | none => unexpected none

def redirects (g : Grammar) : Nat → Read (List Redirect)
  | 0 => return []
  | fuel + 1 => do
    expecting commandChecks
    if (← g.token) = .redirect then
      let first ← g.target
      return first :: (← g.redirects fuel)
    else
      pushBack
      return []

/-! ### Simple commands -/

def specialBuiltins : List String :=
  [".", ":", "break", "continue", "eval", "exec", "exit", "export", "local", "readonly", "return",
    "set", "shift", "times", "trap", "unset"]

def functionBody (g : Grammar) (w : Word) : Read Node := do
  g.demand ")"
  match plainText? w with
  | some name =>
    if !isName name || specialBuiltins.contains name then Read.fail "Bad function name"
    expecting anyLine
    let line := (← get).line
    return .function line name (← g.command)
  | none => Read.fail "Bad function name"

def simple (g : Grammar) (line : Nat) :
    Nat → Bool → List Word → List Word → List Redirect → Read Node
  | 0, _, assignments, words, redirects =>
    return .simple line assignments.reverse words.reverse redirects.reverse
  | fuel + 1, leading, assignments, words, redirects => do
    expecting { aliases := leading }
    match ← g.token with
    | .word =>
      let w := (← get).word
      if leading && (assignment? w).isSome then
        g.simple line fuel true (w :: assignments) words redirects
      else g.simple line fuel false assignments (w :: words) redirects
    | .redirect =>
      let r ← g.target
      g.simple line fuel leading assignments words (r :: redirects)
    | t =>
      match t, words, assignments, redirects with
      | .sign "(", [w], [], [] => g.functionBody w
      | _, _, _, _ =>
        pushBack
        return .simple line assignments.reverse words.reverse redirects.reverse

/-! ### Compound commands -/

def choice (g : Grammar) : Nat → Read Node
  | 0 => Read.fail "too deep"
  | fuel + 1 => do
    let condition ← g.list 0
    g.demand "then"
    let body ← g.list 0
    match ← g.token with
    | .sign "elif" => return .choice condition body (some (← g.choice fuel))
    | .sign "else" => return .choice condition body (← g.list 0)
    | _ =>
      pushBack
      return .choice condition body none

def words (g : Grammar) : Nat → List Word → Read (List Word)
  | 0, done => return done.reverse
  | fuel + 1, done => do
    if (← g.token) = .word then g.words fuel ((← get).word :: done) else return done.reverse

def allArguments : Word := [.mark, .parameter "@" .value false [], .mark]

def each (g : Grammar) (line fuel : Nat) : Read Node := do
  let t ← g.token
  let r ← get
  let name := (plainText? r.word).getD ""
  if t ≠ .word || r.quoted || !isName name then Read.fail "Bad for loop variable"
  expecting anyLine
  let items ← do
    if (← g.token) = .sign "in" then
      let items ← g.words fuel []
      let last := (← get).last
      if last ≠ .newline && last ≠ .sign ";" then unexpected none
      pure items
    else
      if (← get).last ≠ .sign ";" then pushBack
      pure [allArguments]
  expecting anyLine
  g.demand "do"
  return .each line name items (← g.list 0)

def patterns (g : Grammar) : Nat → List Word → Read (List Word)
  | 0, done => return done.reverse
  | fuel + 1, done => do
    let done := (← get).word :: done
    if (← g.token) = .sign "|" then
      let _ ← g.token
      g.patterns fuel done
    else return done.reverse

def arms (g : Grammar) :
    Nat → List (List Word × Option Node) → Read (List (List Word × Option Node))
  | 0, done => return done.reverse
  | fuel + 1, done => do
    expecting { newlines := true, keywords := true }
    match ← g.token with
    | .sign "esac" => return done.reverse
    | t =>
      if t = .sign "(" then
        let _ ← g.token
      let ps ← g.patterns fuel []
      if (← get).last ≠ .sign ")" then unexpected (some "\")\"")
      let body ← g.list 2
      expecting { newlines := true, keywords := true }
      match ← g.token with
      | .sign "esac" => return ((ps, body) :: done).reverse
      | .sign ";;" => g.arms fuel ((ps, body) :: done)
      | _ => unexpected (some "\";;\"")

def compound (g : Grammar) (line fuel : Nat) (start : String) : Read Node := do
  match start with
  | "if" =>
    let n ← g.choice fuel
    g.demand "fi"
    return n
  | "for" =>
    let n ← g.each line fuel
    g.demand "done"
    return n
  | "case" =>
    if (← g.token) ≠ .word then unexpected (some "word")
    let word := (← get).word
    expecting anyLine
    g.demand "in"
    return .cases line word (← g.arms fuel [])
  | "(" =>
    let body ← g.list 0
    g.demand ")"
    return .subshell line body []
  | "\x7b" =>
    let body ← g.list 0
    g.demand "\x7d"
    match body with
    | some n => return n
    | none => unexpected none
  | _ =>
    let condition ← g.list 0
    g.demand "do"
    let body ← g.list 0
    g.demand "done"
    return .loop (start == "while") condition body

def opensCompound (text : String) : Bool :=
  ["if", "while", "until", "for", "case", "(", "\x7b"].contains text

def withRedirects (line : Nat) (n : Node) (rs : List Redirect) : Node :=
  match rs, n with
  | [], _ => n
  | _, .subshell l body _ => .subshell l body rs
  | _, _ => .redirected line n rs

def commandStep (g : Grammar) : Read Node := do
  let fuel := (← get).input.length + 2
  let line := (← get).line
  match ← g.token with
  | .sign text =>
    if opensCompound text then
      let n ← g.compound line fuel text
      return withRedirects line n (← g.redirects fuel)
    else unexpected none
  | .word =>
    pushBack
    g.simple (← get).line fuel true [] [] []
  | .redirect =>
    pushBack
    g.simple (← get).line fuel true [] [] []
  | _ => unexpected none

/-! ### Lists -/

def pipelineRest (g : Grammar) : Nat → List Node → Read (List Node)
  | 0, done => return done.reverse
  | fuel + 1, done => do
    if (← g.token) = .sign "|" then
      expecting anyLine
      g.pipelineRest fuel ((← g.command) :: done)
    else
      pushBack
      return done.reverse

def pipeline (g : Grammar) : Read Node := do
  let negated := (← g.token) = .sign "!"
  if negated then expecting commandChecks else pushBack
  let first ← g.command
  let n := match ← g.pipelineRest ((← get).input.length + 2) [first] with
    | [one] => one
    | many => .pipeline many false
  return if negated then .negated n else n

def andOrRest (g : Grammar) : Nat → Node → Read Node
  | 0, n => return n
  | fuel + 1, n => do
    match ← g.token with
    | .sign "&&" =>
      expecting anyLine
      g.andOrRest fuel (.joined .onSuccess n (← g.pipeline))
    | .sign "||" =>
      expecting anyLine
      g.andOrRest fuel (.joined .onFailure n (← g.pipeline))
    | _ =>
      pushBack
      return n

def andOr (g : Grammar) : Read Node := do
  let first ← g.pipeline
  g.andOrRest ((← get).input.length + 2) first

def inBackground (line : Nat) : Node → Node
  | .pipeline members _ => .pipeline members true
  | .redirected line body rs => .background line body rs
  | n => .background line n []

def append (n : Option Node) (m : Node) : Option Node :=
  some (match n with
    | some n => .joined .always n m
    | none => m)

def listFrom (g : Grammar) (untilLine : Bool) :
    Nat → Bool → Option Node → Read (Option Node)
  | 0, _, n => return n
  | fuel + 1, mayEnd, n => do
    expecting { newlines := !untilLine, keywords := true, aliases := true }
    match ← g.token with
    | .newline =>
      readDocuments g.inner
      return n
    | .ended =>
      readDocuments g.inner
      modify fun r => { r with pushed := true, last := .ended }
      return n
    | t =>
      pushBack
      if mayEnd && t.endsList then return n
      let line := (← get).line
      let m ← g.andOr
      match ← g.token with
      | .ended =>
        readDocuments g.inner
        modify fun r => { r with pushed := true, last := .ended }
        return append n m
      | .newline =>
        pushBack
        g.listFrom untilLine fuel (!untilLine) (append n m)
      | .sign "&" => g.listFrom untilLine fuel (!untilLine) (append n (inBackground line m))
      | .sign ";" => g.listFrom untilLine fuel (!untilLine) (append n m)
      | _ =>
        if untilLine then unexpected none
        pushBack
        return append n m

def listStep (g : Grammar) (kind : Nat) : Read (Option Node) := do
  g.listFrom (kind == 1) ((← get).input.length + 2) (kind == 2) none

end Grammar

def grammar : Nat → Grammar
  | 0 => ⟨fun _ => Read.fail "too deep", Read.fail "too deep"⟩
  | depth + 1 =>
    let g := grammar depth
    ⟨g.listStep, g.commandStep⟩

def depthLimit : Nat := 1000

def scriptGrammar : Grammar := grammar depthLimit

def nextCommands (r : Reader) : Except Fault (Option (Option Node × Reader)) := do
  let start := { r with pushed := false, checks := {}, pending := [] }
  let (n, r) ← (scriptGrammar.listStep 1).run start
  match n, r.last with
  | none, .ended => return none
  | _, _ => return some (n, r)

def quotedText? (text : String) : Option Word :=
  ((readQuoted scriptGrammar.inner).run { input := text.toList }).toOption.map (·.1)

end SourceOverlay.Process.Shell
