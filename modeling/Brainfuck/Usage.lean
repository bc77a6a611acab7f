/-!
The usage text of the tool.
-/

namespace Brainfuck.Usage

/-- A program that greets the world. -/
def helloWorld : String :=
  "++++++++[>++++[>++>+++>+++>+<<<<-]>+>+>->>+[<]<-]>>.>---.+++++++..+++.>>.<-.<.+++.------.--------."
    ++ ">>+.>++."

/-- The usage text of the tool under the given name. -/
def text (name : String) : String :=
  "Usage: " ++ name ++ " [options] <brainfuck_file>\n" ++
  "Options:\n" ++
  "  -c <code>              Execute Brainfuck code directly from command line\n" ++
  "  -h, --help             Show this help message\n" ++
  "  -d                     Print 'I use Arch btw!'\n" ++
  "  --tape-size <N>        Number of tape cells (env BF_TAPE_SIZE; default 30000)\n" ++
  "  --stack-depth <N>      Maximum number of open loops (env BF_STACK_DEPTH; default 1000)\n" ++
  "\n" ++
  "Notes:\n" ++
  "- Input (`,`) reads a single byte from stdin; on EOF the current cell is left unchanged.\n" ++
  "- Characters outside of Brainfuck's ><+-.,[] are ignored as comments.\n" ++
  "- Defaults for the limits can be set in the [interpreter] table of bf.toml\n" ++
  "  in the XDG config directory.\n" ++
  "- Set BF_LOG=trace to log every executed instruction to stderr.\n" ++
  "\n" ++
  "Examples:\n" ++
  "  " ++ name ++ " hello.bf\n" ++
  "  " ++ name ++ " -c \"" ++ helloWorld ++ "\"\n" ++
  "  " ++ name ++ " -d\n"

/-- The greeting of the tool. -/
def greeting : String := "I use Arch btw!\n"

end Brainfuck.Usage
