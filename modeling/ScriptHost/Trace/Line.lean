import ScriptHost.Decimal.Places
import ScriptHost.Trace.Event
/-!
# Trace records as lines

A record is written with its number and its time, if they are asked for, and
then with its event. Events that end a call are indented.
-/

namespace ScriptHost.Trace

/-- The text, filled up on the left to a width. -/
def padLeft (width : Nat) (fill : Char) (s : String) : String :=
  String.ofList (List.replicate (width - s.length) fill) ++ s

/-- The text of a time in nanoseconds. Times from a millisecond and from a second on are written
in these units, with three decimal places. -/
def timeText (ns : Nat) : String :=
  let us := ns / 1000
  let scaled (unit : Float) : String := (Decimal.magnitude (Float.ofNat us / unit)).toPlaces 3
  if us < 1000 then toString us ++ "us"
  else if us < 1000000 then scaled 1000 ++ "ms"
  else scaled 1000000 ++ "s"

def Event.text : Event → String
  | call f n => "CALL " ++ f ++ "/" ++ toString n
  | returned f k => "  RETURN " ++ f ++ " -> " ++ k.name
  | errorValue f m => "  ERROR " ++ f ++ ": " ++ m
  | rejected f r => "  REJECTED " ++ f ++ ": " ++ r.message

/-- What a line shows in front of the event. -/
structure LineStyle where
  ids : Bool
  timestamps : Bool

namespace LineStyle

def text (style : LineStyle) (r : Record) : String :=
  (if style.ids then "[" ++ padLeft 6 '0' (toString r.id) ++ "] " else "") ++
    (if style.timestamps then padLeft 10 ' ' (timeText r.timestamp) ++ " " else "") ++
    r.event.text

/-- The texts of several records, one below the other. -/
def textOfAll (style : LineStyle) (rs : List Record) : String :=
  "\n".intercalate (rs.map style.text)

end LineStyle

end ScriptHost.Trace
