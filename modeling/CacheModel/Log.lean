import CacheModel.Log.Clause
import CacheModel.Text.Exposed

/-!
# The log

The events that a filter lets through, one line each: the label of the severity, the message, and
the values that go with it.
-/

namespace CacheModel.Log

/-- Labels are moved to the right in a column of this width. -/
def labelWidth : Nat := 5

/-- One named value behind a message. -/
def renderDetail : Detail → String
  | .shown key value => s!" {key}={value}"
  | .text key value => s!" {key}={Text.inspect value}"

/-- The line of an event. -/
def renderLine (event : Event) : String :=
  let label := event.severity.label
  String.ofList (List.replicate (labelWidth - label.length) ' ') ++ label ++ " " ++ event.message ++
    String.join (event.details.map renderDetail) ++ "\n"

/-- The lines of the events that a filter lets through. -/
def render (filter : Filter) (events : List Event) : String :=
  String.join ((events.filter filter.admits).map renderLine)

end CacheModel.Log
