import ScriptHost.Library.MathModule
import ScriptHost.Library.Settings
import ScriptHost.Library.TextModule
/-!
# The library

The modules that come with the host. Their functions share one tracer. They
are traced only if the tracer is enabled when the library is made.
-/

namespace ScriptHost

/-- The modules that scripts can use. -/
structure Library where
  /-- The modules, as dictionaries of their members. -/
  modules : Dict Value
  tracer : TracerId

namespace Library

/-- Every module that there is, with its members. -/
def packages : List (String × List Declaration) :=
  [("math", MathModule.members), ("text", TextModule.members)]

def buildAll (tracer : Option TracerId) :
    List (String × List Declaration) → World → List (String × Value) × World
  | [], w => ([], w)
  | (name, members) :: rest, w =>
    let (d, w) := { ModuleDraft.empty name with tracer }.declare members w
    let (entries, w) := buildAll tracer rest w
    ((name, .map d.build) :: entries, w)

/-- Makes a library. Allowed modules that do not exist are passed over. -/
def ofSettings (s : Settings) (w : World) : Library × World :=
  let (tracer, w) := w.addTracer (.ofSettings s.trace)
  let (entries, w) :=
    buildAll (if s.trace.enabled then some tracer else none)
      (packages.filter fun p => s.includes p.1) w
  (⟨.ofList entries, tracer⟩, w)

def module? (l : Library) (name : String) : Option (Dict Value) :=
  (l.modules.get? name).bind Value.map?

def moduleNames (l : Library) : List String :=
  l.modules.keys

end Library

end ScriptHost
