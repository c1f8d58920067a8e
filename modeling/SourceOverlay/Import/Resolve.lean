import SourceOverlay.Files
import SourceOverlay.Import.Native
import SourceOverlay.Store

/-!
# Resolution over the overlay

Names resolve natively first. A name that does not, and that points at an alternate-syntax file,
resolves to the compiled form of that file: by its own extension if that is registered, else by the
first registered extension under which there is a file. Such a resolution is never kept, and
compiled documents are not shown to the native resolver, so it always reflects the registry.
-/

set_option autoImplicit false

namespace SourceOverlay.Import

/-- The documents that are no compiled ones, and behind them the backing store. -/
def hostOf (store : Store) (files : Files) : Host where
  has path := (store.source? path).isSome || files.has path
  read? path :=
    match store.source? path with
    | some d => some d.text
    | none => files.read? path

def compiledModule (t : Transpiler) (source : String) : Module :=
  ⟨t.compiledName source, t.target, false⟩

def synthesize? (registry : Registry) (host : Host) (importer name : String) : Option Module := do
  let base ← Name.locate? importer name
  match registry.find? (Name.extension base) with
  | some t => if host.has base then some (compiledModule t base) else none
  | none =>
    registry.toList.findSome? fun t =>
      let source := base ++ t.extension
      if host.has source then some (compiledModule t source) else none

def resolve (registry : Registry) (resolver : Resolver) (options : Options) (host : Host)
    (importer : String) (memo : Memo) (name : String) : Option Module × Memo :=
  match resolver options host memo importer name with
  | (some m, memo) => (some m, memo)
  | (none, memo) => (synthesize? registry host importer name, memo)

def resolveAll (registry : Registry) (resolver : Resolver) (options : Options) (host : Host)
    (importer : String) : List String → Memo → List (Option Module) × Memo
  | [], memo => ([], memo)
  | name :: names, memo =>
    let (m, memo) := resolve registry resolver options host importer memo name
    let (ms, memo) := resolveAll registry resolver options host importer names memo
    (m :: ms, memo)

end SourceOverlay.Import
