import ScriptDelta.Run
import ScriptDelta.Text.Quoted

/-! # Sessions

A session takes the words of a command line, carries out what they ask for, and ends with an exit
code and what is left to show: the table of the pairs, or the error.
-/

namespace ScriptDelta

/-- How a session ends. -/
structure Outcome where
  code : Nat
  /-- What goes to the standard output. -/
  output : String
  /-- What goes to the standard error after the log. -/
  error : String
deriving DecidableEq

namespace Session

/-- The text filled up with spaces on the right. -/
def padRight (width : Nat) (text : String) : String :=
  text ++ String.ofList (List.replicate (width - text.length) ' ')

/-- The text filled up with spaces on the left. -/
def padLeft (width : Nat) (text : String) : String :=
  String.ofList (List.replicate (width - text.length) ' ') ++ text

/-- A row of the table with a tally. -/
def tallyRow (tag : String) (tally : Tally) : String :=
  let column (name : String) (count : Nat) : String := name ++ " " ++ padLeft 5 (toString count)
  padRight 10 tag ++ " " ++ "  ".intercalate
    [column "added" tally.added, column "removed" tally.removed, column "changed" tally.changed,
      column "unchanged" tally.unchanged]

/-- A row of the table with a pair that was skipped. -/
def skippedRow (skipped : Skipped) : String :=
  padRight 10 skipped.tag ++ " skipped (missing " ++ skipped.missing.text ++ ")"

/-- What announces a dry run. -/
def heading (plan : Plan) : List String :=
  if plan.dryRun then ["== DRY RUN =="] else []

/-- What a run has to show. -/
def table (plan : Plan) (summary : Summary) : List String :=
  ["== methoddiff: Summary =="] ++
  (summary.pairs.rows.map fun (tag, tally) => tallyRow tag tally) ++
  summary.skipped.map skippedRow ++
  [tallyRow "total" summary.total] ++
  if plan.dryRun then [] else ["Output at: " ++ Text.quoted plan.outputDir.text]

/-- Lines of text, each with a line end. -/
def unlines (lines : List String) : String :=
  String.join (lines.map (· ++ "\n"))

/-- An error and its cause. -/
def complaint (headline : String) (cause : Option String) : String :=
  unlines (("Error: " ++ headline) ::
    match cause with
    | some cause => ["", "Caused by:", "    " ++ cause]
    | none => [])

/-- The name and version of the program. -/
def version : String :=
  "methoddiff 0.1.0\n"

/-- How to use the program. -/
def usage : String :=
  unlines
    ["Usage: methoddiff [OPTIONS]",
      "",
      "Options:",
      "      --old <OLD_DIR>            Directory holding the old-variant sources " ++
        "[default: mv] [aliases: --mv]",
      "      --new <NEW_DIR>            Directory holding the new-variant sources " ++
        "[default: mz] [aliases: --mz]",
      "      --out <OUTPUT_DIR>         Output directory for the reports [default: diff_reports]",
      "  -p, --pair <PAIRS>             File pair as OLD:NEW:TAG (repeatable; replaces the " ++
        "built-in table)",
      "  -i, --ignore <IGNORE>...       Glob patterns over definition keys to leave out, e.g. " ++
        "'class:*'",
      "      --max-listed <MAX_LISTED>  Max entries listed per section of the Markdown brief " ++
        "[default: 20000]",
      "      --body-diff                Add a line diff of old/new bodies for every changed " ++
        "definition",
      "      --dry-run                  Do not write anything; only print the summary",
      "  -h, --help                     Print help",
      "  -V, --version                  Print version"]

/-- How a session ends whose command line asks for no run. -/
def refused : CommandLine.Refusal → Outcome
  | .displayHelp => ⟨0, usage, ""⟩
  | .displayVersion => ⟨0, version, ""⟩
  | .unknownArgument => ⟨2, "", unlines ["error: unexpected argument found"]⟩
  | .invalidValue => ⟨2, "", unlines ["error: a value is required"]⟩
  | .valueValidation => ⟨2, "", unlines ["error: invalid value"]⟩
  | .tooManyValues => ⟨2, "", unlines ["error: unexpected value"]⟩
  | .argumentConflict => ⟨2, "", unlines ["error: the argument cannot be used multiple times"]⟩

/-- Carries out a plan and shows the summary or the error. -/
def ofPlan {m : Type → Type} [Monad m] [Host m] (plan : Plan) : m Outcome := do
  match ← (plan.run : ExceptT Failure m Summary).run with
  | .ok summary => return ⟨0, unlines (heading plan ++ table plan summary), ""⟩
  | .error failure =>
    return ⟨1, unlines (heading plan), complaint failure.headline (some failure.cause)⟩

/-- Carries out what the words of a command line ask for. -/
def ofWords {m : Type → Type} [Monad m] [Host m] (words : List String) : m Outcome :=
  match Arguments.parse words with
  | .error refusal => return refused refusal
  | .ok arguments =>
    match Plan.ofArguments arguments with
    | .error fault => return ⟨1, "", complaint fault.headline fault.cause?⟩
    | .ok plan => ofPlan plan

end Session

end ScriptDelta
