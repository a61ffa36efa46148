import RideDispatch.Route

/-!
# Routers given by a table

A table lists the travel times between pairs of links. Staying on a link is free, and a pair that
the table leaves out is not connected.
-/

namespace RideDispatch

/-- One line of a table of travel times. -/
structure TravelTime where
  origin : LinkId
  target : LinkId
  time : Time
deriving Repr

namespace Router

/-- The router that answers from a table. Of several lines for one pair the last one counts. -/
def ofTable (table : List TravelTime) : Router where
  route? origin target departure :=
    if origin.link = target.link then
      some ⟨departure, 0, 0.0, [origin.link]⟩
    else
      let line? := table.reverse.find? fun line =>
        line.origin = origin.link ∧ line.target = target.link
      line?.map fun line => ⟨departure, line.time, line.time.toSecs, [origin.link, target.link]⟩

end Router

end RideDispatch
