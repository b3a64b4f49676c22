import SlotPool.Text.Words
/-!
Finding the interface that leads outside in a listing of routes.
-/

namespace SlotPool.Linux

/-- Whether a line lists a default route. -/
def isDefaultRoute (line : List Char) : Bool :=
  "default".toList.isPrefixOf (line.dropWhile Text.isBlank)

/-- The word after the first word `dev`. -/
def deviceOf : List (List Char) → Option (List Char)
  | [] => none
  | word :: rest => if word = "dev".toList then rest.head? else deviceOf rest

/-- The interface of a line that lists a default route and names one. -/
def routeDevice (line : List Char) : Option (List Char) :=
  if isDefaultRoute line then deviceOf (Text.words line) else none

/-- The interface of the first default route that names one. -/
def defaultDevice (listing : List Char) : Option (List Char) :=
  (Text.lines listing).findSome? routeDevice

end SlotPool.Linux
