import HubContract.Binding.Interchange

namespace HubContract

-- The name of a kind of data, for messages.
def Data.kindName : Data → String
  | .null => "NoneType"
  | .bool _ => "bool"
  | .int _ => "int"
  | .float _ => "float"
  | .str _ | .loose _ => "str"
  | .bytes _ => "bytes"
  | .date _ => "date"
  | .timestamp _ => "datetime"
  | .list _ | .again _ .list => "list"
  | .tuple _ | .again _ .tuple => "tuple"
  | .set _ => "set"
  | .mapping _ | .again _ .mapping => "dict"
  | .knot _ body => body.kindName

inductive ManifestOrigin where
  | manifest (manifest : Manifest)
  -- A mapping, or a text that holds one.
  | data (data : Data)
  -- Something that holds no manifest, with the name of its kind.
  | other (kind : String)
  -- A class by name, with what it carries.
  | carrier (className : String) (carried : Option ManifestOrigin)

namespace ManifestOrigin

def ofCheck : Check Manifest → Except ManifestError Manifest
  | .ok m => .ok m
  | .bad is => .error (.invalid is)

def load : ManifestOrigin → Except ManifestError Manifest
  | .manifest m => .ok m
  | .data (.str text) => ofCheck (Manifest.checkText text)
  | .data (.mapping entries) => ofCheck (Manifest.check (.mapping entries))
  | .data d => .error (.unknownSource d.kindName)
  | .other kind => .error (.unknownSource kind)
  | .carrier className none => .error (.absent className)
  | .carrier _ (some o) => o.load

-- The fake of the manifest that is found.
def synthesizeFake (o : ManifestOrigin) (lead : String) : Except ManifestError FakeBinding := do
  (← o.load).synthesizeFake lead

end HubContract.ManifestOrigin
