import FirstKernel.Screen

/-!
# The shell, `kernel/shell.c`

`execute_command` cuts the line at its first blank, looks the first word
up among the commands and runs the handler. Both it and the handlers cut
words with `strtok`, which writes terminators into the line, here the
`key_buffer` of the keyboard, and keeps its place in `last_token`.

The commands are a parameter, as functions on the shell's state and on
the rest of the machine (`world`); `cmd_echo` and `cmd_read` print text
of the user and of the disk, and are given here. Every `print` is called
without further arguments, so a `va_arg` in it fetches what is on the
stack, the words `args`.
-/

namespace FirstKernel

structure Shell (σ : Type) where
  keyBuffer : Buffer 256
  lastToken : Option Nat
  screen : Screen
  world : σ

namespace Shell

variable {σ : Type}

def print (args : Nat → Int32) (message : Text) (s : Shell σ) : Shell σ :=
  { s with screen := printMessage message args s.screen }

def printAll (args : Nat → Int32) (messages : List Text) (s : Shell σ) : Shell σ :=
  messages.foldl (fun s message => s.print args message) s

/-- `strtok` on the command line. -/
def token (str : Option Nat) (delim : UInt8) (s : Shell σ) : Except Fault (Option Nat × Shell σ) :=
  match strtok str delim s.keyBuffer s.lastToken with
  | .ok (start, buffer, last) => .ok (start, { s with keyBuffer := buffer, lastToken := last })
  | .error e => .error e

end Shell

/-- The names in the table of commands. -/
def commands : List Text :=
  ["help", "echo", "color", "read", "math", "write", "draw", "fsinfo", "ls", "mkdummy",
    "mkdir", "cd", "cat", "crash", "clear", "beep", "sleep", "cpuinfo", "uptime", "time",
    "alloc", "lspci", "rm", "run", "mkapp", "kmsg", "hack", "netinit"].map text

abbrev Handler (σ : Type) := Shell σ → Except Fault (Shell σ)

variable {σ : Type}

/-- `strcmp(command, commands[i].name) == 0` -/
def isCommand (command : CString) (name : Text) : Bool :=
  decide (strcmpChars command.chars name = 0)

def executeCommand (args : Nat → Int32) (handler : Text → Handler σ) (s : Shell σ) :
    Except Fault (Shell σ) :=
  if s.keyBuffer ⟨0, by decide⟩ = 0 then .ok s
  else
    match s.token (some 0) 0x20 with
    | .ok (some start, s) =>
        let command := stringFrom s.keyBuffer start
        match commands.find? (isCommand command) with
        | some name => handler name s
        | none => .ok (s.printAll args [text "unknow command: ", command.chars, text "\n"])
    | .ok (none, _) => .error (.outOfRange 0)
    | .error e => .error e

/-! ## Commands that print what they are given -/

/-- The loop of `cmd_echo`, for at most as many words as the line has cells. -/
def echoWords (args : Nat → Int32) : Nat → Handler σ
  | 0, _ => .error .outOfFuel
  | rounds + 1, s =>
      match s.token none 0x20 with
      | .ok (some start, s) =>
          echoWords args rounds
            (s.printAll args [(stringFrom s.keyBuffer start).chars, text " "])
      | .ok (none, s) => .ok (s.print args (text "\n"))
      | .error e => .error e

def cmdEcho (args : Nat → Int32) : Handler σ := echoWords args 257

/-- What `cmd_read` prints for a sector and the number as it was typed. -/
def readReport (sectorNumber : Int32) (sectorStr : CString) (sectorData : Buffer 512) :
    List Text :=
  if sectorNumber = 0 then
    [text "Reading complete. verifying firm the sector 0...\n",
      if sectorData ⟨510, by decide⟩ = 0x55 ∧ sectorData ⟨511, by decide⟩ = 0xAA then
        -- the source is UTF-8, where the exclamation mark has two bytes
        0xC2 :: text "¡SUCCESS! firm 0x55AA found (Bootloader validate).\n"
      else text "Fail. firm not found of the bootloader.\n"]
  else
    [text "content of the sector ", sectorStr.chars, text ":\n",
      (stringAt (List.ofFn (Function.update sectorData ⟨511, by decide⟩ 0))).chars, text "\n"]

def cmdRead (args : Nat → Int32) (readSector : Int32 → σ → Buffer 512) : Handler σ := fun s =>
  match s.token none 0x20 with
  | .ok (none, s) =>
      .ok (s.print args (text "Error: missing args\n - use: read [number_of_sector]\n"))
  | .ok (some start, s) =>
      let sectorStr := stringFrom s.keyBuffer start
      let sectorNumber := atoi sectorStr
      let s := s.print args (text "Reading the sector of the disk...\n")
      .ok (s.printAll args (readReport sectorNumber sectorStr (readSector sectorNumber s.world)))
  | .error e => .error e

end FirstKernel
