import Peering.CommandLine.Start

/-!
# Commands

What a command line asks for. The words are read from left to right, and the
first that is wrong or asks for help decides.
-/

namespace Peering

namespace CommandLine

/-- What help is about. -/
inductive Topic where
  | program
  | start
  | id
  | config
  | help
deriving DecidableEq, Repr

inductive Command where
  | start (options : StartOptions)
  /-- Make a fresh id. -/
  | id
  /-- Show the default settings. -/
  | config
  | version
  | help (topic : Topic)

inductive UsageError where
  | noCommand
  | unexpected (word : String)
  | unknownCommand (word : String)
  | missingValue (option : String)
  | badValue (option value : String)
  | repeated (option : String)
  | valueForFlag (flag : String)
deriving DecidableEq, Repr

def UsageError.message : UsageError → String
  | .noCommand => "a command is needed"
  | .unexpected word => "unexpected argument '" ++ word ++ "'"
  | .unknownCommand word => "unknown command '" ++ word ++ "'"
  | .missingValue option => "a value is needed for '--" ++ option ++ "'"
  | .badValue option value => "invalid value '" ++ value ++ "' for '--" ++ option ++ "'"
  | .repeated option => "the argument '--" ++ option ++ "' cannot be used more than once"
  | .valueForFlag flag => "no value is taken by '--" ++ flag ++ "'"

namespace Command

/-! ## The options of a start -/

def storeValue (option : StartOptions.Valued) (value : String) (options : StartOptions) :
    Except UsageError StartOptions :=
  if option.isGiven options then .error (.repeated option.name)
  else match option.store value options with
    | some options => .ok options
    | none => .error (.badValue option.name value)

def raiseFlag (flag : StartOptions.Flag) (options : StartOptions) :
    Except UsageError StartOptions :=
  if flag.isGiven options then .error (.repeated flag.name) else .ok (flag.raise options)

/-- What a word says about the options of a start. -/
inductive Part where
  /-- It is complete in itself. -/
  | whole (change : StartOptions → Except UsageError StartOptions)
  /-- The next word is the value. -/
  | awaiting (option : StartOptions.Valued)

def Part.ofValued (option : StartOptions.Valued) : Option String → Part
  | some value => .whole (storeValue option value)
  | none => .awaiting option

/-- What a word with a long name says; a name that is not in the tables says nothing. -/
def longPart (name : String) (value : Option String) : Except UsageError Part :=
  match StartOptions.flags.find? (·.name == name), value with
  | some flag, none => .ok (.whole (raiseFlag flag))
  | some _, some _ => .error (.valueForFlag name)
  | none, value =>
      match StartOptions.valued.find? (·.name == name) with
      | some option => .ok (.ofValued option value)
      | none => .error (.unexpected (Word.long name value).text)

def shortPart (letter : Char) (rest : List Char) : Except UsageError Part :=
  match StartOptions.valued.find? (·.letter == some letter) with
  | some option => .ok (.ofValued option (Word.attached rest))
  | none => .error (.unexpected (Word.short letter rest).text)

def partOf : Word → Except UsageError Part
  | .long name value => longPart name value
  | .short letter rest => shortPart letter rest
  | word => .error (.unexpected word.text)

/-- Reads the words after the name of the command. -/
def readStart (options : StartOptions) : List Word → Except UsageError Command
  | [] => .ok (.start options)
  | [.escape] => .ok (.start options)
  | word :: words =>
      if word.asksForHelp then .ok (.help .start)
      else match partOf word, words with
        | .error error, _ => .error error
        | .ok (.whole change), words =>
            match change options with
            | .ok options => readStart options words
            | .error error => .error error
        | .ok (.awaiting option), .plain value :: words =>
            match storeValue option value options with
            | .ok options => readStart options words
            | .error error => .error error
        | .ok (.awaiting option), _ => .error (.missingValue option.name)

/-! ## The other commands -/

/-- Reads the words after the name of a command that takes none. -/
def readNothing (command : Command) (topic : Topic) : List Word → Except UsageError Command
  | [] => .ok command
  | [.escape] => .ok command
  | word :: _ =>
      if word.asksForHelp then .ok (.help topic) else .error (.unexpected word.text)

def topicNamed : String → Option Topic
  | "start" => some .start
  | "id" => some .id
  | "config" => some .config
  | "help" => some .help
  | _ => none

/-- Reads what help is asked for. -/
def readHelp : List Word → Except UsageError Command
  | [] => .ok (.help .program)
  | word :: words =>
      match topicNamed word.text, words with
      | some topic, [] => .ok (.help topic)
      | some _, word :: _ => .error (.unknownCommand word.text)
      | none, _ => .error (.unknownCommand word.text)

/-- Reads what help is asked for, or what the command of this name does with its words. -/
def readNamed (name : String) (words : List Word) : Except UsageError Command :=
  match topicNamed name with
  | some .start => readStart .empty words
  | some .id => readNothing .id .id words
  | some .config => readNothing .config .config words
  | some .help => readHelp words
  | _ => .error (.unknownCommand name)

/-- Reads a command line. -/
def read : List Word → Except UsageError Command
  | [] => .error .noCommand
  | .plain name :: words => readNamed name words
  | word :: _ =>
      if word.asksForHelp then .ok (.help .program)
      else if word.asksForVersion then .ok .version
      else .error (.unexpected word.text)

def parse (arguments : List String) : Except UsageError Command :=
  read (arguments.map Word.ofString)

/-- The file that has to be read before the command can be carried out. -/
def file? : Command → Option String
  | .start options => options.file
  | _ => none

end Command

end CommandLine

end Peering
