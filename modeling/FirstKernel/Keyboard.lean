import FirstKernel.Shell

/-!
# The keyboard, `drivers/keyboard.c`

`keyboard_handler` edits a line in `key_buffer` and shows it on the screen
as it goes. Enter keeps a copy of the line in `last_command` and runs it
as a command, Up brings the copy back, and TAB completes the line to the
first command it begins.

The variables of the editor are `int`s and an access to one of the two
buffers goes through an index: one that is out of range is a fault. The
handler is given what port 0x60 reads. The traces, which no function
reads, are the strings given to `execute_command` and what is written to
ports.
-/

namespace FirstKernel

structure Keyboard (σ : Type) where
  shell : Shell σ
  shiftPressed : Bool
  capsLocks : Bool
  bufferIndex : Int
  lastCommand : Buffer 256
  lastCommandLen : Int
  executed : List CString
  ports : List (UInt16 × UInt8)

def scancodeToChar : List UInt8 :=
  [0, 27] ++ text "1234567890-=" ++ [0x08] ++ text "\tqwertyuiop[]\n" ++
    [0] ++ text "asdfghjkl;'" ++ [0x60] ++ [0] ++
    [0x5C] ++ text "zxcvbnm,./" ++ [0] ++ text "*" ++ [0] ++ text " "

def scancodeToCharShift : List UInt8 :=
  [0, 27] ++ text "!@#$%^&*()_+" ++ [0x08] ++ text "\tQWERTYUIOP" ++ [0x7B, 0x7D] ++ text "\n" ++
    [0] ++ text "ASDFGHJKL:\"~" ++ [0] ++
    text "|ZXCVBNM<>?" ++ [0] ++ text "*" ++ [0] ++ text " "

def osCommands : List Text :=
  ["help", "echo", "color", "read", "math", "write", "draw", "fsinfo", "ls", "mkdummy",
    "mkdir", "cd", "cat", "crash", "clear", "beep", "sleep", "cpuinfo", "uptime", "time",
    "alloc", "lspci", "rm", "run", "mkapp", "kmsg", "hack", "netinit"].map text

namespace Keyboard

variable {σ : Type}

/-- `key_buffer[i] = c` -/
def setKey (i : Int) (c : UInt8) (k : Keyboard σ) : Except Fault (Keyboard σ) :=
  if h : 0 ≤ i ∧ i.toNat < 256 then
    .ok { k with shell := { k.shell with
      keyBuffer := Function.update k.shell.keyBuffer ⟨i.toNat, h.2⟩ c } }
  else .error (.outOfRange i.toNat)

/-- `last_command[i] = c` -/
def setLast (i : Int) (c : UInt8) (k : Keyboard σ) : Except Fault (Keyboard σ) :=
  if h : 0 ≤ i ∧ i.toNat < 256 then
    .ok { k with lastCommand := Function.update k.lastCommand ⟨i.toNat, h.2⟩ c }
  else .error (.outOfRange i.toNat)

/-- `buffer[i]` of one of the two buffers. -/
def getAt (buffer : Buffer 256) (i : Int) : Except Fault UInt8 :=
  if h : 0 ≤ i ∧ i.toNat < 256 then .ok (buffer ⟨i.toNat, h.2⟩)
  else .error (.outOfRange i.toNat)

def printChar (c : UInt8) (k : Keyboard σ) : Keyboard σ :=
  { k with shell := { k.shell with screen := FirstKernel.printChar c k.shell.screen } }

/-- `key_buffer[buffer_index] = c; buffer_index++; print_char(c);` -/
def appendKey (c : UInt8) (k : Keyboard σ) : Except Fault (Keyboard σ) :=
  match k.setKey k.bufferIndex c with
  | .ok k => .ok ({ k with bufferIndex := k.bufferIndex + 1 }.printChar c)
  | .error e => .error e

/-- `port_bytes_out(0x20, 0x20)` -/
def endOfInterrupt (k : Keyboard σ) : Keyboard σ :=
  { k with ports := k.ports ++ [(0x20, 0x20)] }

end Keyboard

variable {σ : Type}

/-! ## TAB -/

/-- The first command that `strncmp` finds equal to the first `n` characters. -/
def firstCompletion (keyBuffer : Text) (n : Nat) : List Text → Except Fault (Option Text)
  | [] => .ok none
  | command :: rest =>
      match strncmp keyBuffer (command ++ [0]) n with
      | .ok result => if result = 0 then .ok (some command) else firstCompletion keyBuffer n rest
      | .error e => .error e

/-- One round of the loop over the missing letters. -/
def completeLetter (command : Text) (k : Keyboard σ) : Except Fault (Keyboard σ) :=
  match (command ++ [0])[k.bufferIndex.toNat]? with
  | none => .error (.outOfRange k.bufferIndex.toNat)
  | some letter => k.appendKey letter

/-- `for (int i = 0; i < n; i++) body(i)` with a body that may fault -/
def loopBelow {τ : Type} (n : Int) (body : Nat → τ → Except Fault τ) (s : τ) : Except Fault τ :=
  (List.range n.toNat).foldlM (fun s i => body i s) s

def autocompleteTab (k : Keyboard σ) : Except Fault (Keyboard σ) :=
  if k.bufferIndex = 0 then .ok k
  else
    match k.setKey k.bufferIndex 0 with
    | .error e => .error e
    | .ok k =>
        match firstCompletion (List.ofFn k.shell.keyBuffer) k.bufferIndex.toNat osCommands with
        | .error e => .error e
        | .ok none => .ok k
        | .ok (some command) =>
            let totalLen : Int := command.length
            loopBelow (totalLen - k.bufferIndex) (fun _ => completeLetter command) k

/-! ## Up -/

/-- The loop `while (buffer_index > 0)`, with the rounds it has left. -/
def eraseLine : Nat → Keyboard σ → Keyboard σ
  | 0, k => k
  | rounds + 1, k => eraseLine rounds { k.printChar 0x08 with bufferIndex := k.bufferIndex - 1 }

def recallLetter (i : Nat) (k : Keyboard σ) : Except Fault (Keyboard σ) :=
  match Keyboard.getAt k.lastCommand i with
  | .error e => .error e
  | .ok c =>
      match k.setKey i c with
      | .ok k => .ok (k.printChar c)
      | .error e => .error e

def recallCommand (k : Keyboard σ) : Except Fault (Keyboard σ) :=
  match loopBelow k.lastCommandLen recallLetter (eraseLine k.bufferIndex.toNat k) with
  | .error e => .error e
  | .ok k => { k with bufferIndex := k.lastCommandLen }.setKey k.lastCommandLen 0

/-! ## Characters -/

/-- The table character of a key, by the modifiers. -/
def finalChar (shiftPressed capsLocks : Bool) (scancode : UInt8) : UInt8 :=
  let letterNormal := scancodeToChar.getD scancode.toNat 0
  let letterShift := scancodeToCharShift.getD scancode.toNat 0
  let isLetter := decide (charValue 0x61 ≤ charValue letterNormal ∧
    charValue letterNormal ≤ charValue 0x7A)
  let finalChar := if shiftPressed then letterShift else letterNormal
  if capsLocks && isLetter then if shiftPressed then letterNormal else letterShift
  else finalChar

def keepLetter (i : Nat) (k : Keyboard σ) : Except Fault (Keyboard σ) :=
  match Keyboard.getAt k.shell.keyBuffer i with
  | .ok c => k.setLast i c
  | .error e => .error e

/-- The history is kept unless the line is empty. -/
def keepCommand (k : Keyboard σ) : Except Fault (Keyboard σ) :=
  if 0 < k.bufferIndex then
    match loopBelow (k.bufferIndex + 1) keepLetter k with
    | .ok k => .ok { k with lastCommandLen := k.bufferIndex }
    | .error e => .error e
  else .ok k

def pressEnter (args : Nat → Int32) (handler : Text → Handler σ) (k : Keyboard σ) :
    Except Fault (Keyboard σ) :=
  match (k.printChar 0x0A).setKey k.bufferIndex 0 with
  | .error e => .error e
  | .ok k =>
      match keepCommand k with
      | .error e => .error e
      | .ok k =>
          match executeCommand args handler k.shell with
          | .error e => .error e
          | .ok shell =>
              let executed := k.executed ++ [stringAt (List.ofFn k.shell.keyBuffer)]
              match { k with shell := shell, executed := executed }.setKey 0 0 with
              | .error e => .error e
              | .ok k =>
                  .ok { k with bufferIndex := 0, shell := k.shell.print args (text "OS> ") }

def typeChar (args : Nat → Int32) (handler : Text → Handler σ) (c : UInt8) (k : Keyboard σ) :
    Except Fault (Keyboard σ) :=
  if c = 0x0A then pressEnter args handler k
  else if c = 0x08 then
    if 0 < k.bufferIndex then
      match { k with bufferIndex := k.bufferIndex - 1 }.setKey (k.bufferIndex - 1) 0 with
      | .ok k => .ok (k.printChar 0x08)
      | .error e => .error e
    else .ok k
  else if c ≠ 0 then
    if k.bufferIndex < 255 then k.appendKey c else .ok k
  else .ok k

def keyboardHandler (args : Nat → Int32) (handler : Text → Handler σ) (scancode : UInt8)
    (k : Keyboard σ) : Except Fault (Keyboard σ) :=
  if scancode = 0x0F then (autocompleteTab k).map Keyboard.endOfInterrupt
  else if scancode = 0x48 ∧ 0 < k.lastCommandLen then
    (recallCommand k).map Keyboard.endOfInterrupt
  else if scancode = 0x2A ∨ scancode = 0x36 then
    .ok { k with shiftPressed := true }.endOfInterrupt
  else if scancode = 0xAA ∨ scancode = 0xB6 then
    .ok { k with shiftPressed := false }.endOfInterrupt
  else if scancode = 0x3A then .ok { k with capsLocks := !k.capsLocks }.endOfInterrupt
  else if scancode ≤ 57 then
    (typeChar args handler (finalChar k.shiftPressed k.capsLocks scancode) k).map
      Keyboard.endOfInterrupt
  else .ok k.endOfInterrupt

end FirstKernel
