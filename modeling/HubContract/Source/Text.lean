import HubContract.Signature.Method
import HubContract.Text.Blank
import HubContract.Text.Quoted

namespace HubContract.Source

open HubContract.Text

-- The version of the generator, which every generated module names.
def generatorVersion : String := "0.1.0"

-- Put a backslash in front of every occurrence of a character.
def escapeAll (mark : Char) (cs : List Char) : List Char :=
  cs.flatMap fun c => if c = mark then ['\\', c] else [c]

-- Backslashes are escaped first, so that those that escape double quotes are not.
def escapeDoc (cs : List Char) : List Char := escapeAll '"' (escapeAll '\\' cs)

-- The two replacements come to one in which neither sees what the other puts in.
theorem escapeDoc_eq_flatMap (cs : List Char) :
    escapeDoc cs = cs.flatMap fun c => if c = '\\' ∨ c = '"' then ['\\', c] else [c] := by
  rw [escapeDoc, escapeAll, escapeAll, List.flatMap_assoc]
  congr 1
  funext c
  by_cases backslash : c = '\\'
  · rw [if_pos backslash, if_pos (.inl backslash), backslash]
    rfl
  · by_cases quote : c = '"' <;> simp [backslash, quote]

def docChars (cs : List Char) : List Char := escapeDoc (collapse cs)

-- Declared text for a comment or docstring of one line.
def docText (s : String) : String := String.ofList (docChars s.toList)

-- The lines at the top of every generated module.
def header (subject : String) : List String := [
  "# Generated by hubgen " ++ generatorVersion ++ ". Do not edit.",
  "# " ++ docText subject,
  "",
  "from __future__ import annotations",
  ""]

-- Move lines to the right; empty lines stay empty.
def indented (level : Nat) (lines : List String) : List String :=
  let lead := String.ofList (List.replicate (4 * level) ' ')
  lines.map fun l => if l = "" then "" else lead ++ l

-- The text of a module: its lines without the empty ones at the end.
def joined (lines : List String) : String :=
  "\n".intercalate (lines.reverse.dropWhile (· = "")).reverse ++ "\n"

def commaList (xs : List String) : String := ", ".intercalate xs

-- A cancellation argument as it stands in a signature.
def cancellationArgument (type : String) : String := "cancellation: Optional[" ++ type ++ "] = None"

-- The parameters of a method, the receiver first and a cancellation argument last if asked for.
def signature (ps : List Parameter) (cancellationType : Option String) : String :=
  commaList ("self" :: (ps.map fun p => p.name ++ ": " ++ p.type) ++
    (match cancellationType with
     | some t => if t = "" then [] else [cancellationArgument t]
     | none => []))

-- The parameters as a tuple, which needs a comma when there is only one.
def argumentTuple (ps : List Parameter) : String :=
  match ps with
  | [p] => "(" ++ p.name ++ ",)"
  | ps => "(" ++ commaList (ps.map (·.name)) ++ ")"

def callArguments (ps : List Parameter) : String := commaList (ps.map (·.name))

-- The type of the slot for a push method.
def callableType (ps : List Parameter) : String :=
  "Optional[Callable[[" ++ commaList (ps.map (·.type)) ++ "], Awaitable[None]]]"

-- The type of a recorded value: the single parameter, or a tuple.
def recordedType (ps : List Parameter) : String :=
  match ps with
  | [] => "tuple[()]"
  | [p] => p.type
  | ps => "tuple[" ++ commaList (ps.map (·.type)) ++ "]"

end HubContract.Source
