import HubContract.Signature.Method

namespace HubContract

-- What makes a declaration a hub client: its address, the name of its binding and its two sides.
structure HubMarker where
  uri : String := ""
  name : Option String := none
  push : Option String := none
  invoke : Option String := none
  deriving DecidableEq, Repr, Inhabited

structure Declaration where
  name : String
  methods : List Method := []
  parents : List String := []
  hubClient : Option HubMarker := none
  deriving DecidableEq, Repr, Inhabited

-- Declarations refer to each other by name. The fakes are names of bindings.
structure Document where
  declarations : List Declaration := []
  fakes : List String := []
  deriving DecidableEq, Repr, Inhabited

namespace Document

def get? (d : Document) (name : String) : Option Declaration :=
  d.declarations.find? (·.name = name)

-- Every declaration of that name becomes the given one.
def replace (d : Document) (decl : Declaration) : Document :=
  { d with declarations := d.declarations.map fun e => if e.name = decl.name then decl else e }

end HubContract.Document
