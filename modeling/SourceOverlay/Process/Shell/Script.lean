/-!
# Shell scripts

The language of the shell. A word is a list of pieces: characters outside and inside quotes, and
substitutions. Commands are simple or put together; each remembers the line it is on. What follows
a here-document sign stands further down in the script and is found by a number.
-/

set_option autoImplicit false

namespace SourceOverlay.Process.Shell

inductive Use where
  | value
  | length
  | orElse
  | andThen
  | orFail
  | orAssign
  | cutEnd (longest : Bool)
  | cutStart (longest : Bool)
  | bad
  deriving Repr, DecidableEq

inductive Opener where
  | reading
  | writing
  | overwriting
  | appending
  | updating
  deriving Repr, DecidableEq

inductive Joint where
  | always
  | onSuccess
  | onFailure
  deriving Repr, DecidableEq

mutual

inductive Piece where
  | plain (c : Char)
  | literal (c : Char)
  | mark
  | parameter (name : String) (use : Use) (nullToo : Bool) (word : List Piece)
  | command (body : Option Node)
  | sum (word : List Piece)

inductive Redirect where
  | file (descriptor : Nat) (opener : Opener) (name : List Piece)
  | copy (descriptor : Nat) (source : Option Nat)
  | copyWord (descriptor : Nat) (source : List Piece)
  | here (descriptor : Nat) (document : Nat) (expanded : Bool)

inductive Node where
  | simple (line : Nat) (assignments words : List (List Piece)) (redirects : List Redirect)
  | pipeline (members : List Node) (background : Bool)
  | redirected (line : Nat) (body : Node) (redirects : List Redirect)
  | background (line : Nat) (body : Node) (redirects : List Redirect)
  | subshell (line : Nat) (body : Option Node) (redirects : List Redirect)
  | joined (joint : Joint) (first second : Node)
  | negated (body : Node)
  | choice (condition : Option Node) (body otherwise : Option Node)
  | loop (whilst : Bool) (condition body : Option Node)
  | each (line : Nat) (name : String) (words : List (List Piece)) (body : Option Node)
  | cases (line : Nat) (word : List Piece) (arms : List (List (List Piece) × Option Node))
  | function (line : Nat) (name : String) (body : Node)

end

abbrev Word := List Piece

def Piece.plain? : Piece → Option Char
  | .plain c => some c
  | _ => none

def plainText? (w : Word) : Option String := (w.mapM Piece.plain?).map String.ofList

def isNameStart (c : Char) : Bool := c.isAlpha || c == '_'

def isNameChar (c : Char) : Bool := isNameStart c || c.isDigit

def isName (text : String) : Bool :=
  text.toList.head?.any isNameStart && text.toList.all isNameChar

def assignment? (w : Word) : Option (String × Word) :=
  let name := (w.map Piece.plain?).takeWhile fun c => c.any isNameChar
  match w.drop name.length with
  | .plain '=' :: value =>
    let name := String.ofList (name.filterMap id)
    if isName name then some (name, value) else none
  | _ => none

end SourceOverlay.Process.Shell
