set_option autoImplicit false

namespace FfiBindings.CommandLine

inductive Flag where
  | help
  | version
  | verbose
  | logFile
  | skipCompile
deriving DecidableEq, Repr

namespace Flag

def long : Flag → String
  | help => "--help"
  | version => "--version"
  | verbose => "--verbose"
  | logFile => "--log-file"
  | skipCompile => "--skip-compile"

def short? : Flag → Option Char
  | help => some 'h'
  | verbose => some 'v'
  | _ => none

def takesValue : Flag → Bool
  | logFile => true
  | _ => false

def names (flag : Flag) : String :=
  match flag.short? with
  | some c => "-" ++ c.toString ++ "/" ++ flag.long
  | none => flag.long

end Flag

inductive CommandName where
  | generate
  | clean
deriving DecidableEq, Repr

namespace CommandName

def text : CommandName → String
  | generate => "generate"
  | clean => "clean"

def all : List CommandName := [generate, clean]

def ofText? (text : String) : Option CommandName :=
  all.find? fun name => name.text == text

end CommandName

-- Who reads the words: the program itself, or one of its commands.
inductive Level where
  | program
  | command (name : CommandName)
deriving DecidableEq, Repr

namespace Level

def flags : Level → List Flag
  | program => [.help, .version, .verbose, .logFile]
  | command .generate => [.help, .verbose, .logFile, .skipCompile]
  | command .clean => [.help, .verbose, .logFile]

def title : Level → String
  | program => "rustport"
  | command name => "rustport " ++ name.text

def usage : Level → List String
  | program =>
    [ "usage: rustport [-h] [--version] [-v] [--log-file LOG_FILE]",
      "                \x7bgenerate,clean\x7d ..." ]
  | command .generate =>
    ["usage: rustport generate [-h] [-v] [--log-file LOG_FILE] [--skip-compile] dir"]
  | command .clean => ["usage: rustport clean [-h] [-v] [--log-file LOG_FILE] [dir]"]

def helpOfFlag : Flag → List String
  | .help => ["  -h, --help           show this help message and exit"]
  | .version => ["  --version            show program's version number and exit"]
  | .verbose => ["  -v, --verbose        Increase log verbosity for troubleshooting."]
  | .logFile => ["  --log-file LOG_FILE  Also write detailed logs to this file."]
  | .skipCompile =>
    [ "  --skip-compile       Only emit bindings; assume libraries in bin/ are",
      "                       already built." ]

def helpOfOperands : Level → List String
  | program =>
    [ "  \x7bgenerate,clean\x7d",
      "    generate           Generate TypeScript bindings for Rust files.",
      "    clean              Remove generated files (mod/ and bin/ directories and",
      "                       index.ts)." ]
  | command .generate =>
    [ "  dir                  Directory containing Rust files (should have an rs/",
      "                       subdirectory)." ]
  | command .clean => ["  dir                  Directory to clean (defaults to lib/)."]

def description : Level → List String
  | program => ["Generate TypeScript FFI bindings for Rust libraries using Bun.", ""]
  | command _ => []

def help (level : Level) : List String :=
  level.usage ++ [""] ++ level.description ++
    ["positional arguments:"] ++ level.helpOfOperands ++ [""] ++
    ["options:"] ++ level.flags.flatMap helpOfFlag

end Level

def versionLine : String := "rustport 1.0.1"

end FfiBindings.CommandLine
