import Std.Data.TreeMap
import SourceOverlay.Json.Basic

/-!
# Engine options

The options of the analysis engine are an open set of JSON values by key. They are passed on as
they are; only a few of them mean something here.
-/

set_option autoImplicit false

namespace SourceOverlay

structure Options where
  values : Std.TreeMap String Json := ∅

namespace Options

def get? (o : Options) (key : String) : Option Json := o.values[key]?

def bool? (o : Options) (key : String) : Option Bool := (o.get? key).bind Json.bool?

def text? (o : Options) (key : String) : Option String := (o.get? key).bind Json.text?

def set (o : Options) (key : String) (value : Json) : Options := ⟨o.values.insert key value⟩

def setAll (o : Options) (members : List (String × Json)) : Options :=
  members.foldl (fun o m => o.set m.1 m.2) o

def ofList (members : List (String × Json)) : Options := setAll {} members

def toList (o : Options) : List (String × Json) := o.values.toList

def toJson (o : Options) : Json := .object o.toList

def rootDirKey : String := "rootDir"

def rootDir? (o : Options) : Option String := o.text? rootDirKey

def defaultLibrary : String := "lib.d.ts"

def library (o : Options) : String := (o.text? "defaultLibFileName").getD defaultLibrary

/-- The flags without which the engine would refuse compiled files. -/
def forcedFlags : List String := ["allowArbitraryExtensions", "allowJs"]

def force (o : Options) : Options := o.setAll (forcedFlags.map fun flag => (flag, .bool true))

end Options

end SourceOverlay
