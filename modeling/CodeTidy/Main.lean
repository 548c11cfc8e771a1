import CodeTidy.Cli.Run

/-!
# The program

Runs a command line in the working directory and prints its report.
-/

namespace CodeTidy.Cli

/-- Reads a stream to its end. -/
partial def readAll (stream : IO.FS.Stream) (acc : ByteArray) : IO ByteArray := do
  let more ← stream.read 65536
  if more.isEmpty then return acc else readAll stream (acc ++ more)

/-- The fault that an error of the operating system stands for. -/
def faultOf (e : IO.Error) : FileFault :=
  match e with
  | .noFileOrDirectory .. => .missing
  | .inappropriateType .. => .isDirectory
  | e => .other (toString e)

/-- The bytes of the file at a path. -/
def readFile (path : String) : IO (Except FileFault ByteArray) := do
  try
    if ← (System.mkFilePath [path]).isDir then return .error .isDirectory
    return .ok (← IO.FS.readBinFile path)
  catch e => return .error (faultOf e)

/-- The bytes of the standard input. -/
def readInput : IO (Except FileFault ByteArray) := do
  try return .ok (← readAll (← IO.getStdin) .empty)
  catch e => return .error (faultOf e)

/-- Does this come true within some hundredths of a second? -/
def comesTrue (now : BaseIO Bool) : Nat → BaseIO Bool
  | 0 => now
  | n + 1 => do
    if ← now then return true
    IO.sleep 10
    comesTrue now n

/-- The surroundings of the running program. The input is kept in `arrived`, since a stream can be
read only once. It is the last that a run reads, so no other file is asked for behind it. -/
def surroundings (arrived : IO.Ref (Option (Except FileFault ByteArray))) : Surroundings IO where
  fileBytes path := do
    match ← arrived.get with
    | some found => return found
    | none => readFile path
  inputBytes := do
    match ← arrived.get with
    | some (.ok bytes) => return bytes
    | _ => return .empty
  inputFault := do
    match ← arrived.get with
    | some (.error fault) => return some fault
    | _ => return none
  isLate path := do
    let reading ← IO.asTask (path.elim readInput readFile) .dedicated
    if ← comesTrue (IO.hasFinished reading) (100 * inputSeconds) then
      arrived.set (some (← IO.ofExcept reading.get))
      return false
    else return true
  workingDirectory := do
    try
      let parts := Text.splitOn (· == '/') (← IO.currentDir).toString.toList
      return some ((parts.filter (!·.isEmpty)).map String.ofList).reverse
    catch _ => return none
  isFile path := do
    let p := System.mkFilePath [path]
    return (← p.pathExists) && !(← p.isDir)
  isThere path := (System.mkFilePath [path]).pathExists

end CodeTidy.Cli

/-- Runs a command line. -/
def main (args : List String) : IO UInt32 := do
  let surroundings := CodeTidy.Cli.surroundings (← IO.mkRef none)
  match ← CodeTidy.Cli.run? surroundings args with
  | none =>
    (← IO.getStderr).putStr (CodeTidy.Cli.helpText none)
    return 2
  | some report =>
    (← IO.getStdout).putStr report.stdout
    (← IO.getStderr).putStr report.stderr
    return report.exit.toUInt32
