import Relayer.Endpoint.Calls
import Relayer.Rehearsal.Script

namespace Relayer

/-!
# Switchboard — nodes that answer requests by the book

* `Outlet` — a node, by its address, with what its transport brings back from one request after the
  other;
* `Switchboard` — the nodes, and the requests that arrived;
* `Switchboard.wire` — the transport to them.
-/

/-- A node.  The last delivery repeats. -/
structure Outlet where
  url : String
  deliveries : List Delivery

/-- Nodes with the requests that arrived, each with the place of its node. -/
structure Switchboard where
  outlets : List Outlet
  requests : List (Nat × Query)

namespace Switchboard

/-- How many requests have arrived at a node. -/
def count (b : Switchboard) (place : Nat) : Nat := b.requests.countP (·.1 == place)

/-- A request.  Where there is no node, nothing arrives. -/
def wire : Wire Switchboard := fun url query b =>
  match b.outlets.findIdx? (·.url == url) with
  | none => (.lost, b)
  | some place =>
    let delivery := (b.outlets[place]?.bind fun o => Script.nth? o.deliveries (b.count place))
    (delivery.getD .lost, { b with requests := b.requests ++ [(place, query)] })

end Switchboard

end Relayer
