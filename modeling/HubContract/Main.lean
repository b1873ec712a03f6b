import HubContract.Command.Session

namespace HubContract.Program

def version : String := "hubgen " ++ Source.generatorVersion

def usage : String := "usage: hubgen [-h] [--version] \x7bcompile,check,fix\x7d ..."

def environmentNames : List String :=
  Options.environmentFields.map (·.1) ++ ["HUBGEN_LOG_LEVEL", "HUBGEN_LOG_FORMAT", "HUBGEN_LOG_CHANNELS"]

-- Add a path as a file or directory, if it is one. Paths are added from the top down, so that the
-- way to each is known.
def addPath (fs : Files) (p : Path) : IO Files := do
  match fs.resolve p with
  | .error _ => return fs
  | .ok place =>
    try
      let text ← IO.FS.readFile place.text
      return { fs with texts := fs.texts.set place.text text }
    catch
      | .inappropriateType .. => return { fs with directories := fs.directories ++ [place] }
      | _ => return fs

def picture (i : Invocation) : IO Files :=
  (i.paths.flatMap Path.ancestry).foldlM addPath {}

def environment : IO (Table String) := do
  let found ← environmentNames.mapM fun name => do
    return (← IO.getEnv name).map fun value => (name, value)
  return found.filterMap id

def writeChanges (before after : Files) : IO Unit := do
  for p in after.directories do
    IO.FS.createDirAll p.text
  for (path, text) in before.changed after do
    IO.FS.writeFile path text

def run (i : Invocation) : IO UInt32 := do
  let files ← picture i
  let (outcome, _) := ({ files, environment := ← environment } : Session).run i
  writeChanges files outcome.files
  IO.print outcome.output
  IO.eprint outcome.errorText
  match outcome.exitCode? with
  | some code => return code.toUInt32
  | none =>
    IO.eprintln "hubgen: unexpected data or files"
    return 1

end HubContract.Program

open HubContract HubContract.Program in
def main (arguments : List String) : IO UInt32 := do
  match Invocation.request arguments with
  | .run i => HubContract.Program.run i
  | .nothing | .stop .help => IO.println usage; return 0
  | .stop .version => IO.println version; return 0
  | .stop .misuse => IO.eprintln usage; return 2
