import ScriptHost.World
/-!
# Modules

A module is a dictionary of members. It is drafted member by member: constants
are kept as they are, and functions become builtins under the name of the
module and their own. Of two members with one name the later counts.
-/

namespace ScriptHost

/-- A module that is being put together. -/
structure ModuleDraft where
  name : String
  /-- The members so far, in the order in which they were added. -/
  members : List (String × Value)
  /-- The tracer of the functions that are added from now on. -/
  tracer : Option TracerId

namespace ModuleDraft

def empty (name : String) : ModuleDraft where
  name := name
  members := []
  tracer := none

/-- Traces the functions that are added from now on. -/
def traced (d : ModuleDraft) (tracer : TracerId) : ModuleDraft :=
  { d with tracer := some tracer }

def qualify (d : ModuleDraft) (name : String) : String :=
  d.name ++ "." ++ name

def constant (d : ModuleDraft) (name : String) (v : Value) : ModuleDraft :=
  { d with members := d.members ++ [(name, v)] }

/-- Adds a function. It is registered as a new builtin. -/
def function (d : ModuleDraft) (name : String) (c : Callable) (w : World) : ModuleDraft × World :=
  let c :=
    match d.tracer with
    | some t => .traced (d.qualify name) c t
    | none => c
  let (f, w) := w.newBuiltin (d.qualify name) c
  (d.constant name (.builtin f), w)

def build (d : ModuleDraft) : Dict Value :=
  .ofList d.members

end ModuleDraft

/-- A member of a module, as it is written down before the module is put together. -/
inductive Declaration where
  | constant (name : String) (v : Value)
  | function (name : String) (c : Callable)

/-- Adds declared members to a draft. -/
def ModuleDraft.declare (d : ModuleDraft) : List Declaration → World → ModuleDraft × World
  | [], w => (d, w)
  | .constant name v :: rest, w => (d.constant name v).declare rest w
  | .function name c :: rest, w =>
    let (d, w) := d.function name c w
    d.declare rest w

end ScriptHost
