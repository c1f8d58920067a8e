import SourceOverlay.Import.Module
import SourceOverlay.Name.Segments

/-!
# Native resolution

The default resolver. A relative or rooted name is tried as it is written if it has an extension of
the host language, then with each such extension, then as a directory with an index file. A bare
name is looked for in the package directories of the importing directory and of each directory
around it, the nearest first. What was found is kept; a failure is not.
-/

set_option autoImplicit false

namespace SourceOverlay.Import

def hostExtensions : List String := [".ts", ".tsx", ".d.ts", ".js", ".jsx"]

def declarationExtension : String := ".d.ts"

def endsWith (name ending : String) : Bool := ending.toList.isSuffixOf name.toList

def hostExtension? (name : String) : Option String :=
  if endsWith name declarationExtension then some declarationExtension
  else hostExtensions.find? fun e => e != declarationExtension && endsWith name e

def localCandidates (base : String) : List Module :=
  (hostExtension? base).toList.map (fun e => ⟨base, e, false⟩) ++
    hostExtensions.map (fun e => ⟨base ++ e, e, false⟩) ++
    hostExtensions.map (fun e => ⟨base ++ "/index" ++ e, e, false⟩)

/-! ### Packages -/

def isTop (dir : List Char) : Bool := dir == [] || dir == ['/']

def climb (dir : List Char) : Nat := if isTop dir then 0 else dir.length + 1

theorem climb_folder_lt {dir : List Char} (h : isTop dir = false) :
    climb (Name.Chars.folder dir) < climb dir := by
  have hdir : climb dir = dir.length + 1 := by simp [climb, h]
  have hle : (dir.reverse.dropWhile fun c => !Name.isSeparator c).length ≤ dir.length := by
    simpa using (List.dropWhile_sublist (l := dir.reverse) fun c => !Name.isSeparator c).length_le
  rw [hdir, Name.Chars.folder]
  generalize dir.reverse.dropWhile (fun c => !Name.isSeparator c) = r at hle
  match r with
  | [] => simp [climb, isTop]
  | [_] => simp [climb, isTop]
  | _ :: a :: rest =>
    simp only [climb, List.length_cons] at hle ⊢
    split
    · omega
    · simp; omega

/-- A directory and those around it, up to the root or to the empty name. -/
def enclosing (dir : List Char) : List (List Char) :=
  if isTop dir then [dir] else dir :: enclosing (Name.Chars.folder dir)
termination_by climb dir
decreasing_by exact climb_folder_lt (by simp_all)

def packageIn (dir name : String) : String :=
  if dir == "" then "node_modules/" ++ name
  else if dir == "/" then "/node_modules/" ++ name
  else dir ++ "/node_modules/" ++ name

def packageFiles (package : String) : List Module :=
  [package ++ ".d.ts", package ++ "/index.d.ts"].map (⟨·, declarationExtension, true⟩)

def packageCandidates (importer name : String) : List Module :=
  (enclosing (Name.folder importer).toList).flatMap fun dir =>
    packageFiles (packageIn (String.ofList dir) name)

/-! ### The resolver -/

def candidates (importer name : String) : List Module :=
  match Name.locate? importer name with
  | some base => localCandidates base
  | none => packageCandidates importer name

def lookUp? (host : Host) (importer name : String) : Option Module :=
  (candidates importer name).find? fun m => host.has m.file

def native : Resolver := fun _ host memo importer name =>
  let dir := Name.folder importer
  match memo.find? dir name with
  | some m => (some m, memo)
  | none =>
    match lookUp? host importer name with
    | some m => (some m, memo.insert dir name m)
    | none => (none, memo)

end SourceOverlay.Import
