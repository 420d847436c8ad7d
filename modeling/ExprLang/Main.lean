import ExprLang.Command

/-!
# Command-line tool
-/

/-- Run the command that the arguments name, with the settings of the environment. -/
def main (args : List String) : IO UInt32 := do
  let cache ← IO.getEnv "EL_CACHE"
  let readOnly ← IO.getEnv "EL_READ_ONLY"
  let environment (name : String) : Option String :=
    if name = "EL_CACHE" then cache else if name = "EL_READ_ONLY" then readOnly else none
  let output := ExprLang.Command.run (ExprLang.Config.ofEnvironment environment) args
  (← IO.getStdout).putStr output.stdout
  (← IO.getStderr).putStr output.stderr
  return UInt32.ofNat output.status
