/-!
# What can go wrong

Three kinds of trouble are told apart: a single compile fails, a plugin does not load, or a project
cannot be opened at all. Each cause has one text.
-/

set_option autoImplicit false

namespace SourceOverlay

inductive CompileError where
  | rejected (reason : String)
  /-- There was something to compile and nothing came back. -/
  | blank
  | crashed (reason : String)
  | notStarted (program reason : String)
  | exited (program status complaint : String)
  | garbled (reason : String)
  deriving Repr, DecidableEq

def CompileError.message : CompileError → String
  | .rejected reason => reason
  | .blank => "compiler produced no output"
  | .crashed reason => "compiler panicked: " ++ reason
  | .notStarted program reason => "failed to run `" ++ program ++ "`: " ++ reason
  | .exited program status complaint =>
    "`" ++ program ++ "` exited with " ++ status ++ ": " ++ complaint
  | .garbled reason => "malformed compiler output: " ++ reason

inductive PluginError where
  | unreadable (path reason : String)
  | malformed (path reason : String)
  | unusable (reason : String)
  deriving Repr, DecidableEq

def PluginError.message : PluginError → String
  | .unreadable path reason => "failed to read plugin " ++ path ++ ": " ++ reason
  | .malformed path reason => "invalid plugin manifest " ++ path ++ ": " ++ reason
  | .unusable reason => "invalid transpiler descriptor: " ++ reason

inductive ProjectError where
  | missingFile (path : String)
  | malformedFile (path reason : String)
  | missingRoot (path : String)
  | foreignUri (uri : String)
  | system (reason : String)
  deriving Repr, DecidableEq

def ProjectError.message : ProjectError → String
  | .missingFile path => "missing project configuration: " ++ path
  | .malformedFile path reason => "invalid project configuration " ++ path ++ ": " ++ reason
  | .missingRoot path => "unreadable project root: " ++ path
  | .foreignUri uri => "unsupported document uri: " ++ uri
  | .system reason => "I/O error: " ++ reason

end SourceOverlay
