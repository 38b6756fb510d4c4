import ModifierToggle.CommandLine.Run

set_option autoImplicit false

/-! # The command line program

Reads the files that the arguments name, answers the request, and carries the answer out. -/

namespace ModifierToggle.Program

/-- The bytes of a text. -/
def bytes (t : Text) : ByteArray := ⟨t.toArray⟩

/-- A text as a string; bytes that are no characters are lost. -/
def string (t : Text) : String := String.ofList t.toChars

/-- Read a file. -/
def readFile (path : Text) : IO (Except FileError Text) := do
  try
    let contents ← IO.FS.readBinFile (string path)
    return .ok contents.data.toList
  catch e =>
    return .error (match e with
      | .noFileOrDirectory .. => .missing
      | .inappropriateType .. => .isADirectory
      | e => .other (utf8 (toString e)))

/-- Read some files. -/
def readFiles (paths : List Text) : IO FileReader := do
  let found ← paths.mapM fun path => return (path, ← readFile path)
  return fun path => (found.lookup path).getD (.error .missing)

/-- Write the file of an answer; gives the error if that fails. -/
def writeFile (answer : Answer) : IO (Option CommandError) := do
  match answer.write with
  | none => return answer.error
  | some (path, text) =>
    try
      IO.FS.writeBinFile (string path) (bytes text)
      return answer.error
    catch e => return some (.save ⟨path, .other (utf8 (toString e))⟩)

/-- Run the program. -/
def run (arguments : List Text) : IO UInt32 := do
  let home := Path.resolve [] (utf8 (toString (← IO.currentDir)))
  let paths := match Request.ofArguments arguments with
    | .ok request => request.paths home
    | .error _ => []
  let read ← readFiles paths
  let output ← IO.getStdout
  let answer := Surroundings.answerArguments { read, home, styled := ← output.isTty } arguments
  output.write (bytes answer.printed)
  output.flush
  match ← writeFile answer with
  | none => return 0
  | some e =>
    IO.eprintln (string e.message)
    return 1

end ModifierToggle.Program

/-- Run the program with the arguments of the command line. -/
def main (arguments : List String) : IO UInt32 :=
  ModifierToggle.Program.run (arguments.map ModifierToggle.utf8)
