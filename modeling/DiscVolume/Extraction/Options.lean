/-! The command line of the extraction tool. Options may be shortened as long as they stay unique,
and a value may follow an option that is written in full after an equals sign. What does not start
with a hyphen, is a negative number or holds a blank is no option, and nothing is after two
hyphens that stand alone.
-/

namespace DiscVolume.Extraction

/-- How much is logged. All that is logged at present is of the lowest level. -/
inductive LogLevel where
  | debug
  | info
  | warning
  | error
  deriving DecidableEq, Repr

namespace LogLevel

def all : List LogLevel := [debug, info, warning, error]

def label : LogLevel → String
  | debug => "debug"
  | info => "info"
  | warning => "warning"
  | error => "error"

def ofLabel? (label : String) : Option LogLevel := all.find? (·.label = label)

end LogLevel

structure Options where
  /-- Whether the paths are only printed. -/
  listsOnly : Bool := false
  level : LogLevel := .warning
  destination : String := "."
  image : String
  deriving DecidableEq, Repr

/-- What is wrong with a command line. -/
inductive UsageFault where
  | noImage
  | unrecognized (arguments : List String)
  | ambiguous (argument : String)
  | noValue (option : String)
  | unwantedValue (argument : String)
  | badLevel (value : String)
  deriving DecidableEq, Repr

def UsageFault.message : UsageFault → String
  | noImage => "the following arguments are required: image"
  | unrecognized arguments => "unrecognized arguments: " ++ " ".intercalate arguments
  | ambiguous argument => "ambiguous option: " ++ argument
  | noValue option => "argument " ++ option ++ ": expected one argument"
  | unwantedValue argument => "ignored explicit argument: " ++ argument
  | badLevel value => "argument -log-level: invalid choice: " ++ value

/-- What a command line asks for. -/
inductive Command where
  | help
  | extract (options : Options)
  deriving DecidableEq, Repr

namespace Options

/-- What the options set. -/
inductive Setting where
  | list
  | logLevel
  | out
  deriving DecidableEq, Repr

def Setting.all : List Setting := [list, logLevel, out]

def Setting.flag : Setting → String
  | list => "-list"
  | logLevel => "-log-level"
  | out => "-out"

def shortHelpFlag : String := "-h"

def longHelpFlag : String := "--help"

/-- The digits of the decimal systems in use are ten consecutive characters each, the first of
which has one of these code points.
-/
def decimalZeros : List Nat :=
  [0x30, 0x660, 0x6f0, 0x7c0, 0x966, 0x9e6, 0xa66, 0xae6, 0xb66, 0xbe6, 0xc66, 0xce6, 0xd66, 0xde6,
    0xe50, 0xed0, 0xf20, 0x1040, 0x1090, 0x17e0, 0x1810, 0x1946, 0x19d0, 0x1a80, 0x1a90, 0x1b50,
    0x1bb0, 0x1c40, 0x1c50, 0xa620, 0xa8d0, 0xa900, 0xa9d0, 0xa9f0, 0xaa50, 0xabf0, 0xff10,
    0x104a0, 0x10d30, 0x11066, 0x110f0, 0x11136, 0x111d0, 0x112f0, 0x11450, 0x114d0, 0x11650,
    0x116c0, 0x11730, 0x118e0, 0x11950, 0x11c50, 0x11d50, 0x11da0, 0x16a60, 0x16ac0, 0x16b50,
    0x1d7ce, 0x1d7d8, 0x1d7e2, 0x1d7ec, 0x1d7f6, 0x1e140, 0x1e2f0, 0x1e950, 0x1fbf0]

def isDecimalDigit (character : Char) : Bool :=
  decimalZeros.any fun first => first ≤ character.toNat && character.toNat < first + 10

/-- A number with a minus sign, and with places after a point or without. A line may end after
it.
-/
def isNegativeNumber (argument : String) : Bool :=
  match argument.toList with
  | '-' :: number =>
      let number := if number.getLast? = some '\n' then number.dropLast else number
      let whole := number.takeWhile isDecimalDigit
      match number.dropWhile isDecimalDigit with
      | [] => !whole.isEmpty
      | '.' :: places => !places.isEmpty && places.all isDecimalDigit
      | _ => false
  | _ => false

/-- What an argument is taken for. -/
inductive Role where
  | plain
  | help
  | setting (setting : Setting) (value : Option String)
  /-- A value is given to an option that takes none. -/
  | misvalued
  | unknown
  | unclear
  deriving DecidableEq, Repr

/-- What letters that follow the short form of the request for help make of it: the same letter
may be repeated, and other letters are passed over.
-/
def helpWith : List Char → Role
  | [] => .help
  | letter :: others =>
      if letter = '-' ∨ letter = '=' then .misvalued
      else if letter = 'h' then helpWith others
      else .help

/-- What an argument is taken for whose first part, up to an equals sign, is a flag in full. -/
def roleOfFlag? (flag : String) (value : Option String) : Option Role :=
  if flag = shortHelpFlag ∨ flag = longHelpFlag then
    some (if value.isNone then .help else .misvalued)
  else
    (Setting.all.find? (·.flag = flag)).map fun setting =>
      if setting = .list ∧ value.isSome then .misvalued else .setting setting value

/-- What an argument is taken for that may be the beginning of a flag, if it is one. -/
def roleOfShortened? (argument part : String) (value : Option String) : Option Role :=
  match argument.toList with
  | '-' :: '-' :: _ =>
      if part.toList.isPrefixOf longHelpFlag.toList then
        some (if value.isNone then .help else .misvalued)
      else none
  | '-' :: 'h' :: others => some (helpWith others)
  | letters =>
      match Setting.all.filter fun setting => letters.isPrefixOf setting.flag.toList with
      | [] => none
      | [setting] => some (.setting setting none)
      | _ => some .unclear

def roleOf (argument : String) : Role :=
  match argument.toList with
  | [] | ['-'] => .plain
  | '-' :: rest =>
      let part := String.ofList ('-' :: rest.takeWhile (· ≠ '='))
      let value :=
        match rest.dropWhile (· ≠ '=') with
        | [] => none
        | _ :: value => some (String.ofList value)
      match roleOfFlag? part value <|> roleOfShortened? argument part value with
      | some role => role
      | none =>
          if isNegativeNumber argument || argument.toList.contains ' ' then .plain else .unknown
  | _ => .plain

/-- Gives a setting its value. -/
def assign (options : Options) (setting : Setting) (value : String)
    : Except UsageFault Options :=
  match setting with
  | .list => .error (.unwantedValue setting.flag)
  | .out => .ok { options with destination := value }
  | .logLevel =>
      match LogLevel.ofLabel? value with
      | some level => .ok { options with level }
      | none => .error (.badLevel value)

/-- The mark after which nothing is an option. -/
def endOfOptions : String := "--"

/-- The end of a command line, with the image if it was named and what could not be used. -/
def finish (options : Options) (image : Option String) (unused : List String)
    : Except UsageFault Command :=
  match image with
  | none => .error .noImage
  | some image =>
      if unused.isEmpty then .ok (.extract { options with image })
      else .error (.unrecognized unused)

/-- (read options image unused arguments) reads arguments one after the other. The first plain one
names the image.
-/
def read (options : Options) (image : Option String) (unused : List String)
    : List String → Except UsageFault Command
  | [] => finish options image unused
  | argument :: others =>
      if argument = endOfOptions then
        match image, others with
        | none, name :: others => finish options (some name) (unused ++ others)
        | _, _ => finish options image (unused ++ argument :: others)
      else
        match roleOf argument with
        | .plain =>
            if image.isSome then read options image (unused ++ [argument]) others
            -- The mark may directly follow the image.
            else if others.head? = some endOfOptions then
              finish options (some argument) (unused ++ others.tail)
            else read options (some argument) unused others
        | .help => .ok .help
        | .misvalued => .error (.unwantedValue argument)
        | .unknown => read options image (unused ++ [argument]) others
        | .unclear => .error (.ambiguous argument)
        | .setting .list _ => read { options with listsOnly := true } image unused others
        | .setting setting (some value) => do
            let options ← options.assign setting value
            read options image unused others
        | .setting setting none =>
            match others with
            | [] => .error (.noValue setting.flag)
            | value :: others =>
                if value ≠ endOfOptions ∧ roleOf value = .plain then do
                  let options ← options.assign setting value
                  read options image unused others
                else .error (.noValue setting.flag)

/-- What a command line asks for. An option that can be taken for several is found out before
anything else.
-/
def ofArguments (arguments : List String) : Except UsageFault Command :=
  let candidates := arguments.takeWhile (· ≠ endOfOptions)
  match candidates.find? (roleOf · = .unclear) with
  | some argument => .error (.ambiguous argument)
  | none => read { image := "" } none [] arguments

/-- The first lines of the help. -/
def usage (program : String) : List String :=
  let opening := "usage: " ++ program ++ " "
  let indented (line : String) : String :=
    String.ofList (List.replicate opening.length ' ') ++ line
  [opening ++ "[-h] [-list]", indented "[-log-level \x7bdebug,info,warning,error\x7d]",
    indented "[-out OUT]", indented "image"]

/-- What a program of some name prints when it is asked for help. -/
def help (program : String) : List String :=
  usage program ++ ["",
    "positional arguments:",
    "  image                 UDF image to open",
    "",
    "options:",
    "  -h, --help            show this help message and exit",
    "  -list                 Only print the paths on the image, do not extract",
    "  -log-level \x7bdebug,info,warning,error\x7d",
    "                        Logging level",
    "  -out OUT              Directory to extract to"]

end Options

end DiscVolume.Extraction
