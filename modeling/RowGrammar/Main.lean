import RowGrammar.CommandLine.Run

/-!
# The program

Reads the files that the command line names, runs the command and prints what it leaves.
-/

namespace RowGrammar.Main

open RowGrammar.CommandLine

/-- The reason for which a file cannot be read. -/
def reasonText : IO.Error → String
  | .noFileOrDirectory .. => "No such file or directory (os error 2)"
  | .permissionDenied .. => "Permission denied (os error 13)"
  | .inappropriateType .. => "Is a directory (os error 21)"
  | error => toString error

/-- The text of a file, or the reason for which it cannot be read. -/
def readFile (path : String) : IO (Except String String) := do
  try
    return .ok (← IO.FS.readFile path)
  catch error =>
    return .error (reasonText error)

/-- The paths with the texts of their files. -/
def readFiles (paths : List String) : IO (List (String × Except String String)) :=
  paths.mapM fun path => do
    return (path, ← readFile path)

/-- The text of the standard input, if it is needed. -/
def readInput (words : List String) : IO String := do
  if words.contains "-" then
    (← IO.getStdin).readToEnd
  else return ""

/-- Runs the command line and gives its exit code. -/
def runProgram (words : List String) : IO UInt32 := do
  let files ← readFiles (pathsOf words)
  let file := fun path =>
    (files.lookup path).getD (.error "No such file or directory (os error 2)")
  let ending := run words ⟨file, ← readInput words⟩
  (← IO.getStdout).putStr ending.output
  (← IO.getStderr).putStr ending.messages
  return UInt32.ofNat ending.code

end RowGrammar.Main

def main (words : List String) : IO UInt32 :=
  RowGrammar.Main.runProgram words
