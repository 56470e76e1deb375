import Whitespace.CommandLine.Job

/-!
The program: reads the command line, carries out the request and writes what comes of it. All decisions
are in `CommandLine.Request` and `CommandLine.Job`; here files are opened and bytes are moved.
-/

namespace Whitespace.CommandLine

/-- The failure behind an error of a file operation. Some operations report error numbers negated. -/
def systemError : IO.Error → SystemError
  | .noFileOrDirectory _ code details | .permissionDenied _ code details
  | .inappropriateType _ code details | .invalidArgument _ code details
  | .resourceExhausted _ code details | .noSuchThing _ code details
  | .interrupted _ code details | .otherError code details
  | .resourceBusy code details | .hardwareFault code details =>
    .ofCode code.toInt32.toInt.natAbs details
  | error => .other (toString error)

def openOnDisk (path : String) : IO (Except SystemError Contents) := do
  if path.contains '\x00' then return .error .zeroInName
  try
    return .ok (.file (← IO.FS.readBinFile path).toList)
  catch error =>
    match systemError error with
    | .isDirectory => return .ok .directory
    | reason => return .error reason

def Request.paths : Request → List String
  | .exec options _ | .trace options _ => options.origin.path.toList ++ options.input.toList
  | .dump origin _ _ _ | .check origin => origin.path.toList

def environmentOf (request : Request) : IO Environment := do
  let opened ← request.paths.mapM fun path => return (path, ← openOnDisk path)
  let stdin ← if request.origin.usesStdin then (← IO.getStdin).readBinToEnd else pure .empty
  return {
    files := fun path => (opened.lookup path).getD (.error .notFound)
    stdin := stdin.toList
    stdoutIsTerminal := ← (← IO.getStdout).isTty
    stderrIsTerminal := ← (← IO.getStderr).isTty }

def put (stdout : Array UInt8) (stderr : String) : IO Unit := do
  unless stdout.isEmpty do
    let stream ← IO.getStdout
    stream.write ⟨stdout⟩
    stream.flush
  unless stderr.isEmpty do
    (← IO.getStderr).putStr stderr

partial def readLine (stream : IO.FS.Stream) (bytes : ByteArray) : IO ByteArray := do
  let next ← stream.read 1
  if next.isEmpty || next.toList == [10] then return bytes ++ next
  readLine stream (bytes ++ next)

partial def carryOut (readsStdin : Bool) : Job → IO UInt32
  | .finished report => do
    put report.stdout report.stderr
    return report.exitCode.toUInt32
  | .running session => do
    if readsStdin && session.machine.awaitsInput then
      let line ← readLine (← IO.getStdin) .empty
      unless line.isEmpty do
        return ← carryOut readsStdin (.running (session.feed line.toList))
    match session.advance 1 with
    | .finished report => carryOut readsStdin (.finished report)
    | .running session =>
      let (stdout, stderr, session) := session.drain
      put stdout stderr
      carryOut readsStdin (.running session)

end Whitespace.CommandLine

open Whitespace.CommandLine in
def main (arguments : List String) : IO UInt32 := do
  match Request.parse arguments with
  | .error error =>
    let stream ← if error.exitCode = 0 then IO.getStdout else IO.getStderr
    stream.putStr error.message
    return error.exitCode.toUInt32
  | .ok request =>
    let environment ← environmentOf request
    carryOut request.readsStdin (Job.start environment request)
