import HubContract.Data.Basic
import HubContract.Document.Basic

namespace HubContract.Document

-- How deep names may lead is not modelled in the resolver: `resolve` follows them to any depth, and what is
-- proved about it holds of all documents. Where a program runs, the depth of its calls is limited, and a
-- document that leads too far is refused in front of the resolver.

-- The greatest number of declarations that may be met one after the other.
def maxTrail : Nat := 495

-- Whether a name leads to more than `room` declarations that a trail has not met.
def exceeds (d : Document) : Nat → List String → String → Bool
  | 0, trail, name => !trail.contains name && (d.get? name).isSome
  | room + 1, trail, name =>
    !trail.contains name &&
      (d.get? name).any fun e => e.parents.any (exceeds d room (name :: trail))

-- Whether one of the names of a hub client leads too far.
def clientExceeds (d : Document) (decl : Declaration) (marker : HubMarker) : Bool :=
  marker.push.any (d.exceeds maxTrail []) || marker.invoke.any (d.exceeds maxTrail []) ||
    decl.parents.any (d.exceeds (maxTrail - 1) [decl.name])

-- The document, unless names in it lead too far. With few declarations they never do.
def followable (d : Document) : Except Fault Document :=
  if d.declarations.length > maxTrail &&
      d.declarations.any (fun e => e.hubClient.any (d.clientExceeds e)) then .error .recursion
  else .ok d

end HubContract.Document
