import ElementBinding.Text.Quoted
/-!
# Command line arguments

The words of a command line, and what they ask for. The long name of an option may be shortened as
long as no other begins the same way, and options of one letter may share a dash. The first misuse
ends the reading.
-/
namespace ElementBinding.CommandLine

inductive Flag where
  | help
  | outputRoot
  | reportDirectory
  | check
  | noPrune
  | exclude
  | verbose
deriving DecidableEq

namespace Flag

/-- All options, in the order in which they are listed. -/
def all : List Flag := [help, outputRoot, reportDirectory, check, noPrune, exclude, verbose]

def letter? : Flag → Option Char
  | help => some 'h'
  | outputRoot => some 'o'
  | verbose => some 'v'
  | _ => none

def longName : Flag → String
  | help => "--help"
  | outputRoot => "--output-root"
  | reportDirectory => "--report-dir"
  | check => "--check"
  | noPrune => "--no-prune"
  | exclude => "--exclude"
  | verbose => "--verbose"

def takesValue : Flag → Bool
  | outputRoot => true
  | reportDirectory => true
  | exclude => true
  | _ => false

def title (flag : Flag) : String :=
  match flag.letter? with
  | some letter => String.ofList ['-', letter] ++ "/" ++ flag.longName
  | none => flag.longName

def ofLetter? (letter : Char) : Option Flag := all.find? fun flag => flag.letter? = some letter

/-- The options that a long name may stand for: the one of that name, else all whose name it
begins. -/
def ofLongName (name : List Char) : List Flag :=
  match all.filter fun flag => flag.longName.toList = name with
  | [] => all.filter fun flag => name.isPrefixOf flag.longName.toList
  | named => named

end Flag

/-- What a word of a command line is where options may stand. -/
inductive Word where
  | plain (text : String)
  /-- Two dashes, after which all words are plain. -/
  | separator
  /-- An option by its letter, with the rest of the word. -/
  | letter (flag : Flag) (rest : List Char)
  /-- An option by its long name, with what stands behind an equals sign. -/
  | long (flag : Flag) (value : Option (List Char))
  | unknown (text : String)
deriving DecidableEq

inductive Misuse where
  | ambiguous (word : String) (flags : List Flag)
  | noValue (flag : Flag)
  | needlessValue (flag : Flag) (value : String)
  | unrecognized (words : List String)
deriving DecidableEq

def Misuse.message : Misuse → String
  | ambiguous word flags =>
    "ambiguous option: " ++ word ++ " could match " ++ ", ".intercalate (flags.map (·.longName))
  | noValue flag => "argument " ++ flag.title ++ ": expected one argument"
  | needlessValue flag value =>
    "argument " ++ flag.title ++ ": ignored explicit argument " ++ Text.quoted value
  | unrecognized words => "unrecognized arguments: " ++ " ".intercalate words

def isNegativeNumber : List Char → Bool
  | '-' :: body =>
    let whole := body.takeWhile (·.isDigit)
    match body.drop whole.length with
    | [] => whole ≠ []
    | '.' :: places => places ≠ [] && places.all (·.isDigit)
    | _ => false
  | _ => false

/-- A word that names no option: negative numbers and words with spaces are plain. -/
def Word.unnamed (text : String) : Word :=
  if isNegativeNumber text.toList || text.toList.contains ' ' then .plain text else .unknown text

def Word.of (text : String) : Except Misuse Word :=
  match text.toList with
  | ['-', '-'] => .ok .separator
  | '-' :: '-' :: _ =>
    let name := text.toList.takeWhile (· ≠ '=')
    match Flag.ofLongName name with
    | [] => .ok (.unnamed text)
    | [flag] => .ok (.long flag ((text.toList.drop name.length).tail?))
    | flags => .error (.ambiguous text flags)
  | '-' :: c :: rest =>
    match Flag.ofLetter? c with
    | some flag => .ok (.letter flag rest)
    | none => .ok (.unnamed text)
  | _ => .ok (.plain text)

/-- What the words of a command line are; behind the separator all are plain. -/
def Word.ofAll : List String → Except Misuse (List Word)
  | [] => .ok []
  | text :: rest => do
    match ← Word.of text with
    | .separator => return .separator :: rest.map .plain
    | word => return word :: (← Word.ofAll rest)

structure Arguments where
  sourceRoot : Option String := none
  outputRoot : Option String := none
  reportDirectory : Option String := none
  help : Bool := false
  check : Bool := false
  noPrune : Bool := false
  exclude : List String := []
  verbose : Bool := false
deriving DecidableEq

namespace Arguments

def note (arguments : Arguments) : Flag → Arguments
  | .help => { arguments with help := true }
  | .check => { arguments with check := true }
  | .noPrune => { arguments with noPrune := true }
  | .verbose => { arguments with verbose := true }
  | _ => arguments

def noteValue (arguments : Arguments) (value : String) : Flag → Arguments
  | .outputRoot => { arguments with outputRoot := some value }
  | .reportDirectory => { arguments with reportDirectory := some value }
  | .exclude => { arguments with exclude := arguments.exclude ++ [value] }
  | _ => arguments

end Arguments

/-- How far a command line has been read. -/
structure Progress where
  arguments : Arguments := {}
  /-- An option whose value is the next word. -/
  awaiting : Option Flag := none
  rooted : Bool := false
  /-- The source root was the last word. -/
  justRooted : Bool := false
  /-- The words that mean nothing. -/
  left : List String := []

namespace Progress

/-- Reads an option that has no value in the same word. -/
def readFlag (progress : Progress) (flag : Flag) : Progress :=
  if flag.takesValue then { progress with awaiting := some flag }
  else { progress with arguments := progress.arguments.note flag }

def readValue (progress : Progress) (flag : Flag) (value : List Char) : Progress :=
  { progress with arguments := progress.arguments.noteValue (String.ofList value) flag }

/-- Reads the letters that share a dash, from the one whose option is `flag`. -/
def readLetters (progress : Progress) (flag : Flag) : List Char → Except Misuse Progress
  | [] => .ok (progress.readFlag flag)
  | c :: rest =>
    if flag.takesValue then .ok (progress.readValue flag (if c = '=' then rest else c :: rest))
    else if c = '=' then .error (.needlessValue flag (String.ofList rest))
    else if c = '-' then .error (.needlessValue flag (String.ofList (c :: rest)))
    else
      let progress := progress.readFlag flag
      match Flag.ofLetter? c with
      | some next => progress.readLetters next rest
      | none =>
        .ok { progress with left := progress.left ++ [String.ofList ('-' :: c :: rest)] }

def readLong (progress : Progress) (flag : Flag) : Option (List Char) → Except Misuse Progress
  | none => .ok (progress.readFlag flag)
  | some value =>
    if flag.takesValue then .ok (progress.readValue flag value)
    else .error (.needlessValue flag (String.ofList value))

/-- Reads a word. Nothing is read behind a request for help. The first plain word is the source
root, and a separator may stand on either side of it. -/
def read (progress : Progress) (word : Word) : Except Misuse Progress :=
  let next := { progress with awaiting := none, justRooted := false }
  match progress.awaiting, word with
  | some flag, .plain text => .ok (next.readValue flag text.toList)
  | some flag, _ => .error (.noValue flag)
  | none, word =>
    if progress.arguments.help then .ok progress
    else
      match word with
      | .plain text =>
        if progress.rooted then .ok { next with left := next.left ++ [text] }
        else .ok { next with
          arguments := { next.arguments with sourceRoot := some text }
          rooted := true
          justRooted := true }
      | .separator =>
        if progress.rooted && !progress.justRooted then
          .ok { next with left := next.left ++ ["--"] }
        else .ok next
      | .unknown text => .ok { next with left := next.left ++ [text] }
      | .letter flag rest => next.readLetters flag rest
      | .long flag value => next.readLong flag value

def finish (progress : Progress) : Except Misuse Arguments :=
  match progress.awaiting with
  | some flag => .error (.noValue flag)
  | none =>
    if progress.arguments.help || progress.left.isEmpty then .ok progress.arguments
    else .error (.unrecognized progress.left)

end Progress

/-- What a command line asks for, or how it is misused. -/
def Arguments.read (words : List String) : Except Misuse Arguments := do
  let progress ← (← Word.ofAll words).foldlM Progress.read {}
  progress.finish

end ElementBinding.CommandLine
