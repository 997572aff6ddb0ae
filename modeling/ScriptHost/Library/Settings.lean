import ScriptHost.Trace.Tracer
/-!
# Settings of the library

Which modules a library has, and how calls of their functions are traced.
-/

namespace ScriptHost.Library

structure Settings where
  /-- The modules that are allowed. All of them, if there is no list. -/
  modules : Option (List String) := none
  /-- The settings of the tracer that all functions share. -/
  trace : Trace.Settings := {}

namespace Settings

def all : Settings := {}

def traced : Settings where
  trace := { enabled := true }

def only (s : Settings) (modules : List String) : Settings :=
  { s with modules := some modules }

def withTrace (s : Settings) (trace : Trace.Settings) : Settings :=
  { s with trace }

def includes (s : Settings) (module : String) : Bool :=
  match s.modules with
  | some allowed => allowed.contains module
  | none => true

end Settings

end ScriptHost.Library
