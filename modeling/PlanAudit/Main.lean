import PlanAudit.Command.Run

/-! The command line. -/
namespace PlanAudit

/-- What a failed read means, by the number of the error, which may also be given negated. -/
def ReadFailure.ofCode (code : UInt32) (details : String) : ReadFailure :=
  let number := if code < 0x80000000 then code else 0 - code
  if number == 20 then .notDirectory
  else if number == 21 then .isDirectory
  else .other s!"{details} (os error {number})"

def ReadFailure.ofError : IO.Error → ReadFailure
  | .noFileOrDirectory _ _ _ => .notFound
  | .permissionDenied _ _ _ => .denied
  | .inappropriateType _ code details => ofCode code details
  | .resourceExhausted _ code details => ofCode code details
  | error => .other (toString error)

/-- The files that a command reads. -/
def Command.paths : Command → List String
  | .validate options => options.plan :: options.sectionFile.toList
  | _ => []

def readFile (path : String) : IO (Except ReadFailure ByteArray) := do
  try
    return .ok (← IO.FS.readBinFile path)
  catch error =>
    return .error (.ofError error)

/-- Read the files that a command asks for. -/
def readFiles (paths : List String) : IO FileReader := do
  let contents ← paths.mapM fun (path : String) => do return (path, ← readFile path)
  return fun path => (contents.lookup path).getD (.error .notFound)

end PlanAudit

open PlanAudit in
def main (args : List String) : IO UInt32 := do
  let threshold :=
    match ← IO.getEnv "RUST_LOG" with
    | some word => LogLevel.threshold? word
    | none => some .error
  let read ← readFiles (((Command.parse args).map Command.paths).getD [])
  let outcome := Command.runArgs read threshold args
  IO.eprint outcome.stderr
  IO.print outcome.stdout
  return outcome.status
