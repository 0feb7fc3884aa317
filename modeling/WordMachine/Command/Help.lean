/-!
# Help

The texts that explain the commands and their options, by topic.
-/

namespace WordMachine.Command

/-- What help is about: all commands, or one of them. -/
inductive Topic where
  | commands
  | run
  | layout
  | debug
  deriving DecidableEq, Repr

def maxStepsHelp : List String :=
  ["  -n, --max-steps INTEGER RANGE  Execution ceiling (steps before the run is",
   "                                 considered an infinite loop)  [default: 1000;",
   "                                 x>=1]"]

def Topic.lines : Topic → List String
  | .commands =>
    ["Usage: ibmasm [OPTIONS] COMMAND [ARGS]...",
     "",
     "  Assemble and interpret programs for a small IBM-style instruction set.",
     "",
     "  Instruction set:",
     "      RR:   AR SR MR DR CR LR      (r1, r2)",
     "      RM:   A S M D C L ST LA      (r1, address)",
     "      Jump: J JP JN JZ             (address)",
     "      Data: DC DS                  (INTEGER(v), n*INTEGER(v))",
     "",
     "Options:",
     "  -v, --verbose  Enable verbose output",
     "  --version      Show the version and exit.",
     "  --help         Show this message and exit.",
     "",
     "Commands:",
     "  debug   Run INPUT_FILE under the debugger, printing state at every...",
     "  layout  Run the layout pass on INPUT_FILE and print listing, symbols...",
     "  run     Run INPUT_FILE to completion and print the final state."]
  | .run =>
    ["Usage: ibmasm run [OPTIONS] INPUT_FILE",
     "",
     "  Run INPUT_FILE to completion and print the final state.",
     "",
     "Options:"]
    ++ maxStepsHelp ++
    ["  -t, --trace                    Print each statement and the registers after",
     "                                 it runs",
     "  -m, --memory                   Also print the final memory image",
     "  --help                         Show this message and exit."]
  | .layout =>
    ["Usage: ibmasm layout [OPTIONS] INPUT_FILE",
     "",
     "  Run the layout pass on INPUT_FILE and print listing, symbols and memory.",
     "",
     "Options:",
     "  --help  Show this message and exit."]
  | .debug =>
    ["Usage: ibmasm debug [OPTIONS] INPUT_FILE",
     "",
     "  Run INPUT_FILE under the debugger, printing state at every breakpoint.",
     "",
     "Options:"]
    ++ maxStepsHelp ++
    ["  -b, --break INTEGER RANGE      Stop before executing this 1-based line (can",
     "                                 be repeated)  [x>=1]",
     "  --help                         Show this message and exit."]

end WordMachine.Command
