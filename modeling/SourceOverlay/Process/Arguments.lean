import SourceOverlay.Process.Stream

/-!
# Options and operands

Options start with a hyphen and may be given in short or in long form; short ones may share a hyphen,
and long ones may be cut as long as they stay clear. Some take a value. Options and operands may
be mixed, unless the program wants its options first; two dashes end the options.
-/

set_option autoImplicit false

namespace SourceOverlay.Process

inductive Taking where
  | nothing
  | value
  | perhaps
  deriving DecidableEq

structure LongOption where
  name : String
  taking : Taking := .nothing
  letter : Char

structure Known where
  program : String
  letters : List (Char × Taking)
  long : List LongOption := []
  mixed : Bool := true

abbrev Given := Char × Option String

def lettersOf (plain : String) : List (Char × Taking) := plain.toList.map (·, .nothing)

namespace Known

def candidates (k : Known) (name : String) : List LongOption :=
  match k.long.find? fun l => l.name == name with
  | some l => [l]
  | none => k.long.filter fun l => name.toList.isPrefixOf l.name.toList

/-- The option that a long form stands for, or a complaint; the flag says that the value is still to
come. -/
def readLong (k : Known) (text : String) : Except String (Given × Bool) :=
  let name := String.ofList (text.toList.takeWhile (· != '='))
  let value := match text.toList.drop name.length with
    | _ :: value => some (String.ofList value)
    | [] => none
  match k.candidates name with
  | [] => .error ("unrecognized option '--" ++ text ++ "'")
  | l :: more =>
    if more.any fun m => m.letter != l.letter then
      .error ("option '--" ++ text ++ "' is ambiguous; possibilities:" ++
        String.join ((l :: more).map fun m => " '--" ++ m.name ++ "'"))
    else
      match l.taking, value with
      | .nothing, some _ => .error ("option '--" ++ l.name ++ "' doesn't allow an argument")
      | .value, none => .ok ((l.letter, none), true)
      | _, _ => .ok ((l.letter, value), false)

def readLetters (k : Known) : List Char → List Given × Except String Bool
  | [] => ([], .ok false)
  | c :: cs =>
    match k.letters.lookup c with
    | none => ([], .error ("invalid option -- '" ++ c.toString ++ "'"))
    | some .nothing =>
      let (given, waiting) := k.readLetters cs
      ((c, none) :: given, waiting)
    | some .perhaps => ([(c, if cs.isEmpty then none else some (String.ofList cs))], .ok false)
    | some .value =>
      if cs.isEmpty then ([(c, none)], .ok true)
      else ([(c, some (String.ofList cs))], .ok false)

def join (k : Known) (long : Bool) (given : List Given) (waiting : Bool) (rest : List String)
    (go : List String → List Given × Except String (List String)) :
    List Given × Except String (List String) :=
  match waiting, rest, given.getLast? with
  | false, _, _ =>
    let (more, operands) := go rest
    (given ++ more, operands)
  | true, value :: rest, some (c, _) =>
    let (more, operands) := go rest
    (given.dropLast ++ (c, some value) :: more, operands)
  | true, _, last =>
    let c := (last.map (·.1)).getD '?'
    let name := ((k.long.find? fun l => l.letter == c).map (·.name)).getD ""
    (given.dropLast, .error (
      if long then "option '--" ++ name ++ "' requires an argument"
      else "option requires an argument -- '" ++ c.toString ++ "'"))

def read (k : Known) : Nat → List String → List Given × Except String (List String)
  | 0, args => ([], .ok args)
  | _, [] => ([], .ok [])
  | fuel + 1, arg :: rest =>
    match arg.toList with
    | ['-', '-'] => ([], .ok rest)
    | '-' :: '-' :: text =>
      match k.readLong (String.ofList text) with
      | .ok (given, waiting) => k.join true [given] waiting rest (k.read fuel)
      | .error complaint => ([], .error complaint)
    | '-' :: c :: cs =>
      match k.readLetters (c :: cs) with
      | (given, .ok waiting) => k.join false given waiting rest (k.read fuel)
      | (given, .error complaint) => (given, .error complaint)
    | _ =>
      if k.mixed then
        let (given, operands) := k.read fuel rest
        (given, operands.map (arg :: ·))
      else ([], .ok (arg :: rest))

def parse (k : Known) (args : List String) : List Given × Except String (List String) :=
  k.read (args.length + 1) args

def advise (k : Known) (complaint : String) : Run Nat := do
  complain (k.program ++ ": " ++ complaint)
  complain ("Try '" ++ k.program ++ " --help' for more information.")
  return 1

end Known

def gave (given : List Given) (letter : Char) : Bool := given.any fun g => g.1 == letter

end SourceOverlay.Process
