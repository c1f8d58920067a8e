import SourceOverlay.Process.Translate

/-!
# Patterns

A pattern is matched against a text: a question mark stands for any character, a star for any
number of them, and brackets for one of a set, given by characters, ranges and classes. Characters
that were quoted stand for themselves. Brackets that are not closed stand for themselves too.
-/

set_option autoImplicit false

namespace SourceOverlay.Process.Shell

abbrev PatternChar := Char × Bool

abbrev Pattern := List PatternChar

def isBare (c : Char) (p : PatternChar) : Bool := p.1 == c && !p.2

def Pattern.isMagic (p : Pattern) : Bool :=
  p.any fun c => !c.2 && (c.1 == '*' || c.1 == '?' || c.1 == '[')

def spanMember : Pattern → Option (Char × Pattern)
  | [] => none
  | c :: rest =>
    if isBare '\\' c then
      match rest with
      | d :: rest => some (d.1, rest)
      | [] => none
    else some (c.1, rest)

def spanFamily (chr : Char) (p : Pattern) : Option (Bool × Pattern) :=
  match p with
  | colon :: rest =>
    if !isBare ':' colon then none
    else
      let name := rest.takeWhile fun c => c.1.isAlpha
      match rest.drop name.length with
      | a :: b :: left =>
        if a.1 == ':' && b.1 == ']' then
          (inFamily? (String.ofList (name.map (·.1)))).map fun f => (f chr, left)
        else none
      | _ => none
  | [] => none

/-- Matches one character against the inside of brackets. Gives what follows them; nothing if they
are not closed. The first member may be a closing bracket. -/
def matchSet (chr : Char) : Nat → Bool → Bool → Pattern → Option (Bool × Pattern)
  | 0, _, _, _ => none
  | _, _, _, [] => none
  | fuel + 1, first, found, c :: rest =>
    if isBare ']' c && !first then some (found, rest)
    else
      match if isBare '[' c then spanFamily chr rest else none with
      | some (inside, rest) => matchSet chr fuel false (found || inside) rest
      | none =>
        match spanMember (c :: rest) with
        | none => none
        | some (low, rest) =>
          match rest with
          | hyphen :: last :: more =>
            if isBare '-' hyphen && !isBare ']' last then
              match spanMember (last :: more) with
              | none => none
              | some (high, rest) =>
                matchSet chr fuel false (found || (low ≤ chr && chr ≤ high)) rest
            else matchSet chr fuel false (found || chr == low) rest
          | _ => matchSet chr fuel false (found || chr == low) rest

def matchBrackets (chr : Char) (p : Pattern) : Option (Bool × Pattern) :=
  match p with
  | c :: rest =>
    if isBare '!' c then
      (matchSet chr (p.length + 1) true false rest).map fun (found, left) => (!found, left)
    else matchSet chr (p.length + 1) true false p
  | [] => none

def Pattern.matches : Nat → Pattern → List Char → Bool
  | 0, _, _ => false
  | _, [], text => text.isEmpty
  | fuel + 1, p :: ps, text =>
    let one (c : Char) (ps : Pattern) : Bool :=
      match text with
      | t :: ts => t == c && Pattern.matches fuel ps ts
      | [] => false
    if p.2 then one p.1 ps
    else
      match p.1, ps with
      | '\\', q :: qs => one q.1 qs
      | '?', _ =>
        match text with
        | _ :: ts => Pattern.matches fuel ps ts
        | [] => false
      | '*', _ =>
        Pattern.matches fuel ps text ||
          match text with
          | _ :: ts => Pattern.matches fuel (p :: ps) ts
          | [] => false
      | '[', _ =>
        match text with
        | [] => false
        | t :: ts =>
          match matchBrackets t ps with
          | some (found, rest) => found && Pattern.matches fuel rest ts
          | none => t == '[' && Pattern.matches fuel ps ts
      | c, _ => one c ps

def Pattern.accepts (p : Pattern) (text : List Char) : Bool :=
  Pattern.matches (p.length + text.length + 1) p text

/-! ### Cutting -/

def visible (text : List Char) : List Char := text.takeWhile (· != '\x00')

def Pattern.cutStart (p : Pattern) (longest : Bool) (text : List Char) : List Char :=
  let lengths := List.range (text.length + 1)
  let lengths := if longest then lengths.reverse else lengths
  match lengths.find? fun n => p.accepts (visible (text.take n)) with
  | some n => text.drop n
  | none => text

def Pattern.cutEnd (p : Pattern) (longest : Bool) (text : List Char) : List Char :=
  let lengths := List.range (text.length + 1)
  let lengths := if longest then lengths else lengths.reverse
  match lengths.find? fun n => p.accepts (visible (text.drop n)) with
  | some n => text.take n
  | none => text

end SourceOverlay.Process.Shell
