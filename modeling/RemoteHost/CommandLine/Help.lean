import RemoteHost.CommandLine.Arguments

/-!
# Help

The texts that explain the command line.
-/

namespace RemoteHost.CommandLine

def programName : String := "hostlink-cli"

/-- Lines as one text, each with its break. -/
def ofLines (lines : List String) : String := String.join (lines.map (· ++ "\n"))

def Topic.text : Topic → String
  | .overview => ofLines
    [ "Remote execution and callback bridge for scripting hosts",
      "",
      "Usage: " ++ programName ++ " [OPTIONS] <COMMAND>",
      "",
      "Commands:",
      "  eval     Evaluate a host expression and print its envelope",
      "  prelude  Install the host prelude",
      "  release  Drop handle-table entries by key",
      "  help     Print this message or the help of the given subcommand(s)",
      "",
      "Options:",
      "      --host <HOST>      Address of the host's execution server [default: " ++
        defaultAddress ++ "]",
      "  -c, --config <CONFIG>  Bridge configuration file (JSON)",
      "  -h, --help             Print help" ]
  | .eval => ofLines
    [ "Evaluate a host expression and print its envelope",
      "",
      "Usage: " ++ programName ++ " eval [OPTIONS] <SOURCE>",
      "",
      "Arguments:",
      "  <SOURCE>  Host expression",
      "",
      "Options:",
      "      --shape <SHAPE>  Expected result shape [default: value] [possible values: " ++
        ", ".intercalate (shapeNames.map (·.1)) ++ "]",
      "  -h, --help           Print help" ]
  | .prelude => ofLines
    [ "Install the host prelude",
      "",
      "Usage: " ++ programName ++ " prelude [OPTIONS]",
      "",
      "Options:",
      "      --print  Print the prelude instead of sending it",
      "  -h, --help   Print help" ]
  | .release => ofLines
    [ "Drop handle-table entries by key",
      "",
      "Usage: " ++ programName ++ " release <KEYS>...",
      "",
      "Arguments:",
      "  <KEYS>...  Handle keys to release",
      "",
      "Options:",
      "  -h, --help  Print help" ]
  | .help => ofLines
    [ "Print this message or the help of the given subcommand(s)",
      "",
      "Usage: " ++ programName ++ " help [COMMAND]...",
      "",
      "Arguments:",
      "  [COMMAND]...  Print help for the subcommand(s)" ]

end RemoteHost.CommandLine
