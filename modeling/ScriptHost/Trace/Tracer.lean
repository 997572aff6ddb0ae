import ScriptHost.Trace.Line
import ScriptHost.Trace.Ring
/-!
# Tracers

A tracer records events while it is enabled. It may be limited to some types
of events.
-/

namespace ScriptHost.Trace

inductive Destination where
  | none
  | stderr
deriving DecidableEq, Repr

structure Settings where
  enabled : Bool := false
  capacity : Nat := Ring.defaultCapacity
  destination : Destination := .none
  /-- The types of events that are recorded. All of them, if there are none here. -/
  filter : List String := []

/-- Whether events of a type may be recorded. -/
def Settings.admits (s : Settings) (type : String) : Bool :=
  s.filter.isEmpty || s.filter.contains type

structure Tracer where
  /-- The settings. They may change later, except for the capacity. -/
  settings : Settings
  ring : Ring

namespace Tracer

def ofSettings (s : Settings) : Tracer where
  settings := s
  ring := .ofCapacity s.capacity

def disabled : Tracer :=
  ofSettings {}

instance : Inhabited Tracer where
  default := disabled

/-- A tracer that records every event, and whose lines are written out. -/
def toStderr : Tracer :=
  ofSettings { enabled := true, destination := .stderr }

def isEnabled (t : Tracer) : Bool :=
  t.settings.enabled

def enable (t : Tracer) : Tracer :=
  { t with settings := { t.settings with enabled := true } }

def disable (t : Tracer) : Tracer :=
  { t with settings := { t.settings with enabled := false } }

/-- Writes the lines of recorded events elsewhere from now on. -/
def redirect (t : Tracer) (destination : Destination) : Tracer :=
  { t with settings := { t.settings with destination } }

def clear (t : Tracer) : Tracer :=
  { t with ring := t.ring.clear }

/-- Records an event, if the tracer is enabled and the event is not filtered out. -/
def record (t : Tracer) (timestamp : Nat) (event : Event) : Tracer :=
  if t.isEnabled && t.settings.admits event.type then
    { t with ring := t.ring.push timestamp event }
  else t

/-- The lines of a tracer show times and no numbers. -/
def lineStyle : LineStyle where
  ids := false
  timestamps := true

end Tracer

end ScriptHost.Trace
