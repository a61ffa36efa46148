import RideDispatch.Json.Record
import RideDispatch.Route

/-!
# Routes as documents

`Route.parse?` reads a route from a JSON document: an object that gives each part of the route by
its name, or an array of the parts in order.
-/

namespace RideDispatch.Route

open Json (required?)

/-- The links that a tree lists. -/
def linksOfTree? : Json.Tree → Option (List LinkId)
  | .arr items => items.mapM fun t => t.word?.map fun n => ⟨n⟩
  | _ => none

/-- The route with the given parts. -/
def ofParts? (departure travelTime : Option UInt64) (cost : Option Float)
    (links : Option (List LinkId)) : Option Route :=
  match departure, travelTime, cost, links with
  | some departure, some travelTime, some cost, some links =>
    some ⟨⟨departure⟩, ⟨travelTime⟩, cost, links⟩
  | _, _, _, _ => none

/-- The route that a tree describes. Entries of unknown names need no value. -/
def ofTree? (t : Json.Tree) : Option Route :=
  match t with
  | .arr [departure, travelTime, cost, links] =>
    ofParts? departure.word? travelTime.word? cost.double? (linksOfTree? links)
  | t =>
    t.entries?.bind fun entries =>
      ofParts? (required? entries "departure" Json.Tree.word?)
        (required? entries "travel_time" Json.Tree.word?)
        (required? entries "cost" Json.Tree.double?)
        (required? entries "links" linksOfTree?)

/-- Reads a route. -/
def parse? (text : String) : Option Route := (Json.Tree.parse? text).bind ofTree?

end RideDispatch.Route
