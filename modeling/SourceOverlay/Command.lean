import SourceOverlay.Json.Record
import SourceOverlay.Process.Run
import SourceOverlay.Transpiler

/-!
# Compilers run by command

A declaration names a program that reads a source on its input and writes the compiled text. The
mark for the path is replaced in each argument. The output is the code itself, or a JSON object
with the code and perhaps a line map; a map that cannot be read makes the whole output unreadable.
-/

set_option autoImplicit false

namespace SourceOverlay.Command

inductive Form where
  | text
  | json
  deriving Repr, DecidableEq

structure Declaration where
  extension : String
  target : String
  program : String
  args : List String := []
  form : Form := .text
  deriving Repr, DecidableEq

/-! ### Reading declarations -/

def Form.ofName? : String → Option Form
  | "text" => some .text
  | "json" => some .json
  | _ => none

/-- A form is its name, or an object that maps the name to null. -/
def Form.ofTree? : Nat → Json.Tree → Option Form
  | _, .string (some name) => ofName? name
  | _ + 1, .object [(some name, .null)] => ofName? name
  | _, _ => none

namespace Declaration

def fieldNames : List String := ["extension", "targetExtension", "command", "args", "output"]

def ofTree? : Nat → Json.Tree → Option Declaration
  | 0, _ => none
  | nesting + 1, tree => do
    let record ← Json.Record.ofTree? fieldNames tree
    match record.fields with
    | [some extension, some target, some program, args, form] =>
      let extension ← extension.text?
      let target ← target.text?
      let program ← program.text?
      let args ← Json.Record.optional [] (Json.Tree.texts? nesting) args
      let form ← Json.Record.optional .text (Form.ofTree? nesting) form
      some ⟨extension, target, program, args, form⟩
    | _ => none

def read (text : String) : Except Json.Fault Declaration := do
  let tree ← Json.Tree.read text
  match ofTree? Json.Tree.nestingLimit tree with
  | some declaration => return declaration
  | none => throw (Json.Fault.shape text)

end Declaration

/-! ### Running them -/

def pathMark : List Char := ['\x7b', 'p', 'a', 't', 'h', '\x7d']

/-- Puts a text in place of each mark. The number says how many characters of a mark are left. -/
def fillIn (mark text : List Char) : Nat → List Char → List Char
  | _, [] => []
  | left + 1, _ :: cs => fillIn mark text left cs
  | 0, c :: cs =>
    if mark.isPrefixOf (c :: cs) then text ++ fillIn mark text (mark.length - 1) cs
    else c :: fillIn mark text 0 cs

def fillPath (path arg : String) : String :=
  String.ofList (fillIn pathMark path.toList 0 arg.toList)

def outputOfJson (value : Json) : Result :=
  match (value.member? "code").bind Json.text? with
  | none => .error (.garbled "missing string field `code`")
  | some code =>
    match value.member? "map" with
    | none => .ok ⟨code, none⟩
    | some .null => .ok ⟨code, none⟩
    | some map =>
      match LineMap.ofJson? map with
      | some map => .ok ⟨code, some map⟩
      | none => .error (.garbled "invalid `map`")

def readOutput : Form → String → Result
  | .text, out => .ok ⟨out, none⟩
  | .json, out =>
    match Json.read out with
    | .ok value => outputOfJson value
    | .error fault => .error (.garbled fault.message)

def fateText : Process.Fate → String
  | .exited status => "exit status: " ++ toString (status % 256)
  | .killed signal =>
    "signal: " ++ toString signal ++ " (SIG" ++ Process.Shell.signalName signal ++ ")"

def resultOf (program : String) (form : Form) (ending : Process.Ending) : Result :=
  if ending.fate.code ≠ 0 then
    .error (.exited program (fateText ending.fate) (Text.trim (Text.decodeLossy ending.err)))
  else
    match Text.decodeStrict? ending.out with
    | some out => readOutput form out
    | none => .error (.garbled "stdout is not UTF-8")

def compile (program : String) (args : List String) (form : Form) (disk : Disk)
    (path source : String) : Result × Disk :=
  match Process.run disk program (args.map (fillPath path)) (Text.encode source) with
  | .ok ending => (resultOf program form ending, ending.disk)
  | .error refusal => (.error (.notStarted program refusal.message), disk)

def compiler (disk : Disk) (program : String) (args : List String) (form : Form) : Compiler :=
  .ofProgram (fun disk path source =>
    match compile program args form disk path source with
    | (.ok output, disk) => (.done output, disk)
    | (.error error, disk) => (.failed error, disk)) disk

/-! ### From declarations to transpilers -/

/-- A field is void if nothing but blanks follows the dots in front. -/
def isVoid (field : String) : Bool := (Name.Chars.undotted field.toList).all Text.isBlank

namespace Declaration

def voidField? (d : Declaration) : Option String :=
  ([("extension", d.extension), ("targetExtension", d.target), ("command", d.program)].find?
    fun f => isVoid f.2).map (·.1)

def transpiler (disk : Disk) (d : Declaration) : Except PluginError Transpiler :=
  match d.voidField? with
  | some field => .error (.unusable ("`" ++ field ++ "` must not be empty"))
  | none => .ok (Transpiler.make d.extension d.target (compiler disk d.program d.args d.form))

end Declaration

end SourceOverlay.Command
