import HubContract.Document.Basic
import HubContract.Yaml.Writer

namespace HubContract

open HubContract.Yaml

def Parameter.toBlock (p : Parameter) : Block :=
  .mapping [("name", .text p.name), ("type", .text p.type)]

-- A list of entries unless it is empty.
def Document.listed (key : String) (f : α → Block) (xs : List α) : List (String × Block) :=
  if xs.isEmpty then [] else [(key, .list (xs.map f))]

def Method.toBlock (m : Method) : Block :=
  .mapping (("name", .text m.name) :: Document.listed "params" Parameter.toBlock m.parameters ++
    (if m.returns.kind = .unitAsync then [] else [("returns", .text m.returns.text)]) ++
    (if m.invoke then [("markers", .list [.text "invoke"])] else []))

def HubMarker.toBlock (h : HubMarker) : Block :=
  let optional (key : String) (v : Option String) : List (String × Block) :=
    v.toList.map fun s => (key, .text s)
  .mapping (("uri", .text h.uri) :: optional "name" h.name ++ optional "push" h.push ++
    optional "invoke" h.invoke)

def Declaration.toBlock (d : Declaration) : Block :=
  .mapping (("name", .text d.name) :: Document.listed "extends" .text d.parents ++
    Document.listed "methods" Method.toBlock d.methods ++
    d.hubClient.toList.map fun h => ("markers", .mapping [("hub_client", h.toBlock)]))

namespace Document

def entries (d : Document) : List (String × Block) :=
  ("declarations", .list (d.declarations.map Declaration.toBlock)) :: listed "fakes" .text d.fakes

def toBlock (d : Document) : Block := .mapping d.entries

-- The plain data that is written for a document.
def toData (d : Document) : Data := d.toBlock.toData

def toYaml (d : Document) : String := Block.write d.entries

end HubContract.Document
