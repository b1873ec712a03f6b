import HubContract.Diagnostic
import HubContract.Document.Basic

namespace HubContract

inductive FixError where
  | unknownKeys (keys : List String)
  | unknownDeclaration (key declaration : String)
  | unknownTarget (key target : String)
  deriving DecidableEq, Repr

def FixError.message : FixError → String
  | .unknownKeys ks => "Unknown fix key(s): " ++ ", ".intercalate ks
  | .unknownDeclaration k d => "Fix " ++ k ++ " targets unknown declaration '" ++ d ++ "'"
  | .unknownTarget k t => "Fix " ++ k ++ " moves to unknown declaration '" ++ t ++ "'"

namespace Fix

-- Keys without their repetitions.
def distinctKeys (keys : List String) : List String :=
  keys.foldl (fun acc k => if acc.contains k then acc else acc ++ [k]) []

-- The fixes to apply: those with the given keys, or else the first one of every diagnostic. Of
-- several fixes with one key the last one counts.
def select (ds : List Diagnostic) (keys : Option (List String)) : Except FixError (List Fix) :=
  match keys with
  | none => .ok (ds.filterMap (·.fixes.head?))
  | some keys =>
    let all := (ds.flatMap (·.fixes)).reverse
    let wanted := distinctKeys keys
    let missing := wanted.filter fun k => !all.any (·.key = k)
    if missing.isEmpty then .ok (wanted.filterMap fun k => all.find? (·.key = k))
    else .error (.unknownKeys missing)

end Fix

namespace Document

-- Change the first method with a signature: drop it, or put another in its place.
def updateFirst (key : String) (f : Method → Option Method) : List Method → List Method
  | [] => []
  | m :: ms =>
    if m.signatureKey = key then (f m).toList ++ ms else m :: updateFirst key f ms

-- Take a method out of its declaration and put it at the end of the target. A move within one
-- declaration gives the method twice.
def moveMethod (d : Document) (decl target : Declaration) (m : Method) : Document :=
  let moved := { m with owner := target.name, invoke := false }
  let d := d.replace { decl with methods := updateFirst m.signatureKey (fun _ => none) decl.methods }
  d.replace { target with methods := target.methods ++ [moved] }

-- A fix finds its method by declaration and signature; one whose method is no longer there changes
-- nothing.
def applyFix (d : Document) (f : Fix) : Except FixError Document :=
  match d.get? f.declaration with
  | none => .error (.unknownDeclaration f.key f.declaration)
  | some decl =>
    match decl.methods.find? (·.signatureKey = f.method) with
    | none => .ok d
    | some m =>
      if f.kind.isMove then
        match d.get? f.target with
        | none => .error (.unknownTarget f.key f.target)
        | some target => .ok (d.moveMethod decl target m)
      else
        .ok (d.replace { decl with
          methods := updateFirst f.method
            (fun m => some { m with returns := .parse f.target }) decl.methods })

-- Fixes one after the other; the first that cannot be applied ends this.
def applyAll (d : Document) (fs : List Fix) : Except FixError Document := fs.foldlM applyFix d

-- Apply fixes that diagnostics carry.
def applyFixes (d : Document) (ds : List Diagnostic) (keys : Option (List String)) :
    Except FixError Document := do
  d.applyAll (← Fix.select ds keys)

end HubContract.Document
