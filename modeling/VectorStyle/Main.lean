import VectorStyle.CommandLine.Run

/-!
# The program

Reads the two environment variables, runs, and prints. All decisions are made by `CommandLine.run`.
-/

set_option autoImplicit false

open VectorStyle

/-- Runs the program with its words and returns its exit code. -/
def main (words : List String) : IO UInt32 := do
  let dpi ← IO.getEnv "SVGCSS_DPI"
  let level ← IO.getEnv "SVGCSS_LOG_LEVEL"
  let outcome := CommandLine.run words fun name =>
    if name = "SVGCSS_DPI" then dpi else if name = "SVGCSS_LOG_LEVEL" then level else none
  (← IO.getStdout).putStr outcome.stdout
  (← IO.getStderr).putStr outcome.stderr
  if let some failure := outcome.failure then
    (← IO.getStderr).putStrLn ("Error: " ++ failure.message)
  return UInt32.ofNat outcome.exit
