import SourceOverlay.Document
import SourceOverlay.Error
import SourceOverlay.Report.Moment

/-!
# Reports of failed compiles

A failed compile is reported once, with the source, the compiled path that keeps its last good
text, and the version that was tried. A layout says how reports are written: on one line each, or
richly with notes under a heading, in colour or not, with the moment or without.
-/

set_option autoImplicit false

namespace SourceOverlay

structure Failure where
  source : String
  compiled : String
  extension : String
  version : Version
  error : CompileError
  moment : Option Report.Moment := none
  deriving Repr, DecidableEq

namespace Report

inductive Style where
  | rich
  | brief
  deriving Repr, DecidableEq

structure Layout where
  colored : Bool := true
  style : Style := .rich
  moments : Bool := false
  deriving Repr, DecidableEq

def Layout.plain : Layout := { colored := false }

def Layout.brief : Layout := { colored := false, style := .brief }

def label (l : Layout) : String :=
  if l.colored then "\x1b[1m\x1b[31merror\x1b[39m\x1b[0m" else "error"

def note (l : Layout) : String :=
  if l.colored then "\x1b[36m= note\x1b[39m" else "= note"

def momentLine (l : Layout) (f : Failure) : String :=
  match l.moments, f.moment with
  | true, some moment => "   " ++ note l ++ ": at " ++ moment.render ++ "\n"
  | _, _ => ""

def render (l : Layout) (f : Failure) : String :=
  match l.style with
  | .brief => f.source ++ ": " ++ label l ++ ": " ++ f.error.message ++ "\n"
  | .rich =>
    label l ++ "[" ++ f.extension ++ "]: " ++ f.error.message ++ "\n" ++
      "  --> " ++ f.source ++ " (version " ++ toString f.version ++ ")\n" ++
      "   " ++ note l ++ ": serving last good output for " ++ f.compiled ++ "\n" ++
      momentLine l f

def renderAll (l : Layout) (failures : List Failure) : String :=
  let gap := match l.style with | .rich => "\n" | .brief => ""
  gap.intercalate (failures.map (render l))

end Report

end SourceOverlay
