/-
# BooleanLexer.CommandLine.Help -- the help texts of the program

There is a text for the program, a summary and a full text for the scan command, and
one for the help command.
-/
import BooleanLexer.Text.Basic

namespace BooleanLexer.CommandLine

set_option autoImplicit false

/-- What can be explained. -/
inductive Topic where
  | program
  | scan (full : Bool)
  | help
deriving DecidableEq

/-- Lines with a line feed behind each. -/
def joinLines (lines : List String) : Text := lines.flatMap fun line => line.toList ++ ['\n']

/-- The text for the program. -/
def programHelp : Text :=
  joinLines [
    "Lexical analysis of boolean expressions for MC/DC test case generation",
    "",
    "Usage: mcdc <COMMAND>",
    "",
    "Commands:",
    "  scan  Show the tokens in a boolean expression",
    "  help  Print this message or the help of the given subcommand(s)",
    "",
    "Options:",
    "  -h, --help     Print help",
    "  -V, --version  Print version"]

/-- The summary for the scan command. -/
def scanSummary : Text :=
  joinLines [
    "Show the tokens in a boolean expression",
    "",
    "Usage: mcdc scan [OPTIONS] [EXPRESSION]",
    "",
    "Arguments:",
    "  [EXPRESSION]  Expression to scan.  If omitted, the expression is read from `--input` or, failing",
    "                that, from stdin",
    "",
    "Options:",
    "  -i, --input <INPUT>    File to read the expression from",
    "  -o, --output <OUTPUT>  Output file name.  If omitted, output is written to stdout",
    "  -f, --format <FORMAT>  Output format [possible values: text, json, ndjson]",
    "  -h, --help             Print help (see more with '--help')"]

/-- The full text for the scan command. -/
def scanHelp : Text :=
  joinLines [
    "Show the tokens in a boolean expression",
    "",
    "Usage: mcdc scan [OPTIONS] [EXPRESSION]",
    "",
    "Arguments:",
    "  [EXPRESSION]",
    "          Expression to scan.  If omitted, the expression is read from `--input` or, failing that,",
    "          from stdin",
    "",
    "Options:",
    "  -i, --input <INPUT>",
    "          File to read the expression from",
    "",
    "  -o, --output <OUTPUT>",
    "          Output file name.  If omitted, output is written to stdout",
    "",
    "  -f, --format <FORMAT>",
    "          Output format",
    "",
    "          Possible values:",
    "          - text:   One line per token",
    "          - json:   Pretty-printed JSON",
    "          - ndjson: Newline-delimited JSON",
    "",
    "  -h, --help",
    "          Print help (see a summary with '-h')"]

/-- The text for the help command. -/
def helpHelp : Text :=
  joinLines [
    "Print this message or the help of the given subcommand(s)",
    "",
    "Usage: mcdc help [COMMAND]...",
    "",
    "Arguments:",
    "  [COMMAND]...  Print help for the subcommand(s)"]

/-- The text that explains a topic. -/
def Topic.text : Topic → Text
  | program => programHelp
  | scan true => scanHelp
  | scan false => scanSummary
  | help => helpHelp

/-- The name and the number of the version. -/
def versionText : Text := joinLines ["mcdc 0.1.0"]

end BooleanLexer.CommandLine
