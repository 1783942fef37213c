import FirstKernel.Fields
import FirstKernel.Shell

/-!
# Command lines in any array

`execute_command` is given a pointer, and `last_token` is one, so the two
are modelled here over all the arrays of the program: a pointer is an
array and an offset into it. `Shell` is the case of the one array
`key_buffer` (`shell_executeCommand`). The handlers are known by what they
do with `strtok`: they call it for a list of delimiters and act on the
strings that they have got.
-/

namespace FirstKernel

structure Pointer where
  array : Nat
  offset : Nat

/-- The arrays have as many cells as `size` says, and one. -/
structure Session (size : Nat → Nat) (σ : Type) where
  arrays : (a : Nat) → Buffer (size a + 1)
  lastToken : Option Pointer
  screen : Screen
  world : σ

variable {size : Nat → Nat} {σ : Type}

/-- `print` of each of the messages. -/
def printMessages (args : Nat → Int32) (messages : List Text) (s : Screen) : Screen :=
  messages.foldl (fun s message => printMessage message args s) s

/-- What `execute_command` prints about a word that is no command. -/
def unknownCommand (command : Text) : List Text :=
  [text "unknow command: ", command, text "\n"]

namespace Session

/-- `strtok`, in the array that the pointer points into. -/
def token (str : Option Pointer) (delim : UInt8) (s : Session size σ) :
    Except Fault (Option Pointer × Session size σ) :=
  match str.or s.lastToken with
  | none => .ok (none, { s with lastToken := none })
  | some p =>
      match strtok (some p.offset) delim (s.arrays p.array) none with
      | .ok (start, buffer, last) =>
          .ok (start.map (Pointer.mk p.array),
            { s with
              arrays := Function.update s.arrays p.array buffer
              lastToken := last.map (Pointer.mk p.array) })
      | .error e => .error e

/-- The string that a pointer points at. -/
def string (s : Session size σ) (p : Pointer) : CString :=
  stringFrom (s.arrays p.array) p.offset

def executeCommand (args : Nat → Int32)
    (handler : Text → Session size σ → Except Fault (Session size σ)) (input : Nat)
    (s : Session size σ) : Except Fault (Session size σ) :=
  if s.arrays input ⟨0, Nat.succ_pos _⟩ = 0 then .ok s
  else
    match s.token (some ⟨input, 0⟩) 0x20 with
    | .ok (some p, s) =>
        let command := s.string p
        match commands.find? (isCommand command) with
        | some name => handler name s
        | none =>
            .ok { s with screen := printMessages args (unknownCommand command.chars) s.screen }
    | .ok (none, _) => .error (.outOfRange 0)
    | .error e => .error e

/-- `strtok(0, delim)` for each of the delimiters. -/
def readAll : List UInt8 → Session size σ →
    Except Fault (List (Option Pointer) × Session size σ)
  | [], s => .ok ([], s)
  | delim :: delims, s =>
      match s.token none delim with
      | .ok (p, s) =>
          match readAll delims s with
          | .ok (ps, s) => .ok (p :: ps, s)
          | .error e => .error e
      | .error e => .error e

end Session

/-! ## Handlers -/

/-- A token as a handler has it: the array that it points into, and the string. -/
structure Argument where
  array : Nat
  chars : Text

/-- What the handlers do, by their names, with the tokens they have got. -/
abbrev Act (σ : Type) := Text → List (Option Argument) → Screen × σ → Screen × σ

def Session.resolve (s : Session size σ) (p : Pointer) : Argument := ⟨p.array, (s.string p).chars⟩

/-- A handler that asks for these tokens, and then acts. -/
def serve (act : Act σ) (delims : List UInt8) (name : Text) (s : Session size σ) :
    Except Fault (Session size σ) :=
  match s.readAll delims with
  | .ok (ps, s) =>
      let r := act name (ps.map fun p => p.map s.resolve) (s.screen, s.world)
      .ok { s with screen := r.1, world := r.2 }
  | .error e => .error e

/-- A line in an array, and the delimiters that the handler it names asks for. -/
structure CommandLine (size : Nat → Nat) where
  input : Nat
  content : Buffer (size input + 1)
  ended : ∃ i, content i = 0
  delims : List UInt8
  delims_eq : ∀ delim ∈ delims, delim = 0x20 ∨ delim = 0

namespace CommandLine

def line (c : CommandLine size) : Text := (stringAt (List.ofFn c.content)).chars

/-- The line is put into its array and given to `execute_command`. -/
def exec (args : Nat → Int32) (act : Act σ) (c : CommandLine size) (s : Session size σ) :
    Except Fault (Session size σ) :=
  { s with arrays := Function.update s.arrays c.input c.content }.executeCommand args
    (serve act c.delims) c.input

/-- The text before the first blank. -/
def word (c : CommandLine size) : Text := c.line.takeWhile (· ≠ 0x20)

/-- The text after the first blank. -/
def arguments (c : CommandLine size) : Text := (c.line.dropWhile (· ≠ 0x20)).tail

/-- The tokens that the handler should get. -/
def tokens (c : CommandLine size) : List (Option Argument) :=
  (List.range c.delims.length).map fun n =>
    (answer 0x20 0 c.arguments c.delims n).map (Argument.mk c.input)

/-- What a line should do. -/
def effect (args : Nat → Int32) (act : Act σ) (c : CommandLine size) (r : Screen × σ) :
    Screen × σ :=
  if c.line = [] then r
  else if c.word ∈ commands then act c.word c.tokens r
  else (printMessages args (unknownCommand c.word) r.1, r.2)

end CommandLine

/-! ## The one array of the keyboard -/

namespace Session

/-- The shell, if the first array is `key_buffer`. -/
def shell (s : Session (fun _ => 255) σ) : Shell σ where
  keyBuffer := s.arrays 0
  lastToken := s.lastToken.map Pointer.offset
  screen := s.screen
  world := s.world

/-- Nothing was cut in another array. -/
def InKeyBuffer (s : Session (fun _ => 255) σ) : Prop := ∀ p ∈ s.lastToken, p.array = 0

/-- Only the place where `strtok` starts matters, given to it or kept. -/
theorem strtok_congr {n : Nat} {str str' lastToken lastToken' : Option Nat} {delim : UInt8}
    {buffer : Buffer n} (h : str.or lastToken = str'.or lastToken') :
    strtok str delim buffer lastToken = strtok str' delim buffer lastToken' := by
  rw [strtok, strtok, h]

theorem InKeyBuffer.start {s : Session (fun _ => 255) σ} (h : s.InKeyBuffer) {str : Option Nat}
    {p : Pointer} (hstart : (str.map (Pointer.mk 0)).or s.lastToken = some p) : p.array = 0 := by
  cases str with
  | none => exact h p hstart
  | some start =>
      cases hstart
      rfl

theorem shell_token {s : Session (fun _ => 255) σ} (h : s.InKeyBuffer) (str : Option Nat)
    (delim : UInt8) :
    s.shell.token str delim =
      (s.token (str.map (Pointer.mk 0)) delim).map
        fun r => (r.1.map Pointer.offset, r.2.shell) := by
  rw [Shell.token, token]
  cases hstart : (str.map (Pointer.mk 0)).or s.lastToken with
  | none =>
      rw [Option.or_eq_none_iff, Option.map_eq_none_iff] at hstart
      obtain ⟨rfl, hlast⟩ := hstart
      simp [strtok, shell, hlast, Except.map]
  | some p =>
      have harray := h.start hstart
      have hoffset : str.or (s.lastToken.map Pointer.offset) =
          (some p.offset).or none := by
        cases str with
        | none =>
            have hlast : s.lastToken = some p := hstart
            rw [hlast]
            rfl
        | some start =>
            cases hstart
            rfl
      obtain ⟨array, offset⟩ := p
      subst harray
      have hrun : strtok str delim s.shell.keyBuffer s.shell.lastToken =
          strtok (some offset) delim (s.arrays 0) none := strtok_congr hoffset
      rw [hrun]
      cases hcut : strtok (some offset) delim (s.arrays 0) none with
      | error e => simp [hcut, Except.map]
      | ok r =>
          simp [hcut, Except.map, shell, Option.map_map, Function.comp_def]

/-- `strtok` keeps to the array that it starts in. -/
theorem inKeyBuffer_token {s s' : Session (fun _ => 255) σ} (str : Option Nat) {delim : UInt8}
    {p : Option Pointer} (h : s.InKeyBuffer)
    (htoken : s.token (str.map (Pointer.mk 0)) delim = .ok (p, s')) :
    s'.InKeyBuffer ∧ ∀ q ∈ p, q.array = 0 := by
  rw [token] at htoken
  cases hstart : (str.map (Pointer.mk 0)).or s.lastToken with
  | none =>
      rw [hstart] at htoken
      cases htoken
      constructor <;> rintro q ⟨⟩
  | some start =>
      have harray := h.start hstart
      rw [hstart] at htoken
      cases hcut : strtok (some start.offset) delim (s.arrays start.array) none with
      | error e =>
          simp only [hcut] at htoken
          cases htoken
      | ok r =>
          simp only [hcut] at htoken
          cases htoken
          refine ⟨fun q hq => ?_, fun q hq => ?_⟩
          · obtain ⟨_, _, rfl⟩ := Option.map_eq_some_iff.mp hq
            exact harray
          · obtain ⟨_, _, rfl⟩ := Option.map_eq_some_iff.mp hq
            exact harray

end Session

theorem shell_printAll (args : Nat → Int32) (messages : List Text) (s : Shell σ) :
    s.printAll args messages = { s with screen := printMessages args messages s.screen } := by
  induction messages generalizing s with
  | nil => rfl
  | cons message messages ih =>
      rw [Shell.printAll, List.foldl_cons, ← Shell.printAll, ih]
      rfl

/-- **`Shell` is the case of one array.** -/
theorem shell_executeCommand (args : Nat → Int32) {handler : Text → Handler σ}
    {handler' : Text → Session (fun _ => 255) σ → Except Fault (Session (fun _ => 255) σ)}
    (hhandler : ∀ name s, s.InKeyBuffer →
      handler name s.shell = (handler' name s).map Session.shell)
    {s : Session (fun _ => 255) σ} (h : s.InKeyBuffer) :
    executeCommand args handler s.shell = (s.executeCommand args handler' 0).map Session.shell := by
  have htoken := Session.shell_token h (some 0) 0x20
  rw [executeCommand, Session.executeCommand]
  by_cases hnil : s.arrays 0 ⟨0, Nat.succ_pos _⟩ = 0
  · rw [if_pos hnil, if_pos (show s.shell.keyBuffer ⟨0, _⟩ = 0 from hnil)]
    rfl
  · rw [if_neg hnil, if_neg (show ¬s.shell.keyBuffer ⟨0, _⟩ = 0 from hnil), htoken]
    cases hrun : s.token (some ⟨0, 0⟩) 0x20 with
    | error e => simp [Option.map_some, hrun, Except.map]
    | ok r =>
        obtain ⟨p, s'⟩ := r
        obtain ⟨hs', hp⟩ := Session.inKeyBuffer_token (some 0) h hrun
        cases p with
        | none => simp [Option.map_some, hrun, Except.map]
        | some p =>
            have harray := hp p rfl
            obtain ⟨array, offset⟩ := p
            simp only at harray
            subst harray
            simp only [Option.map_some, hrun, Except.map]
            have hstring : stringFrom s'.shell.keyBuffer offset = s'.string ⟨0, offset⟩ := rfl
            rw [hstring]
            cases hfind : commands.find? (isCommand (s'.string ⟨0, offset⟩)) with
            | none =>
                simp only [shell_printAll]
                rfl
            | some name => exact hhandler name s' hs'

end FirstKernel
