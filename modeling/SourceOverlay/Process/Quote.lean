import SourceOverlay.Text.Raw

/-!
# Names in complaints

Programs show names in quotes. One way is to show a name as it could be given to a shell again,
in quotes only if it must be; the other puts every name in quotes and escapes what is not
printable.
-/

set_option autoImplicit false

namespace SourceOverlay.Process

def isPrintable (c : Char) : Bool := ' ' ≤ c && c ≤ '~'

def controlEscape? (c : Char) : Option String :=
  match c.toNat with
  | 7 => some "\\a"
  | 8 => some "\\b"
  | 9 => some "\\t"
  | 10 => some "\\n"
  | 11 => some "\\v"
  | 12 => some "\\f"
  | 13 => some "\\r"
  | _ => none

def octal (n : Nat) : String :=
  let digits := String.ofList (Nat.toDigits 8 n)
  String.ofList (List.replicate (3 - digits.length) '0') ++ digits

def escaped (c : Char) : String := (controlEscape? c).getD ("\\" ++ octal c.toNat)

def quote (name : String) : String :=
  let char (c : Char) : String :=
    if c == '\x27' || c == '\\' then "\\" ++ c.toString
    else if isPrintable c then c.toString
    else escaped c
  "'" ++ String.join (name.toList.map char) ++ "'"

/-! ### For a shell -/

def needsQuotes (first : Bool) (c : Char) : Bool :=
  !isPrintable c || " !\"$&()*;<=>[^\x60|\x27\\?".toList.contains c ||
    (first && (c == '#' || c == '~'))

def shellRun (cs : List Char) : String :=
  "'" ++ String.join (cs.map fun c => if c == '\x27' then "'\\''" else c.toString) ++ "'"

/-- The parts of a name one after the other, printable ones in plain quotes and others escaped.
The flag says that an escaped part has just been written. -/
def shellRuns : Bool → List (List Char) → String
  | _, [] => ""
  | escaping, run :: rest =>
    if run.all isPrintable then
      (match escaping, run with
        | true, '\x27' :: cs => "\\'" ++ shellRun cs
        | _, _ => shellRun run) ++ shellRuns false rest
    else "$'" ++ String.join (run.map escaped) ++ "'" ++ shellRuns true rest

def shellParts (name : String) : String :=
  let runs := name.toList.splitBy fun a b => isPrintable a == isPrintable b
  if name.toList.head?.all isPrintable then shellRuns false (if runs.isEmpty then [[]] else runs)
  else "''" ++ shellRuns false runs

def shellAlways (name : String) : String :=
  let cs := name.toList
  let plain := cs.all fun c => isPrintable c && !"!\"$&()*;<=>[^\x60|\\?".toList.contains c
  if cs.contains '\x27' && plain then "\"" ++ name ++ "\"" else shellParts name

def shellQuoteWith (also : List Char) (name : String) : String :=
  let cs := name.toList
  let braces := name == "\x7b" || name == "\x7d"
  let needed :=
    name == "" || braces || cs.any also.contains ||
      (cs.head?.any (needsQuotes true)) || cs.any (needsQuotes false)
  if needed then shellAlways name else name

def shown (name : String) : String := shellQuoteWith [':'] name

def shellQuote (name : String) : String := shellQuoteWith [] name

end SourceOverlay.Process
