import FirstKernel.CommandLine
import FirstKernel.FatSizes
import FirstKernel.TaskStacks

/-!
# The commands of the shell, `kernel/shell.c`

The handlers in the table of commands, over the machine of `Program`. A
handler asks `strtok` for its arguments and passes them on; what the file
system and the frame allocator hand to `print` meanwhile goes to the
screen. The handlers of `deviceCommands` work on hardware that the machine
here does not have, halt it, or start a task; they are a parameter.

The table is independent of that parameter where it matters: each of the
other handlers returns on a well-formed volume and does to it what the
call that its line names does (`callNamed`), whatever the arrays on the
stack and the words that `print` may fetch hold (`handlers_acts`). Only
`mkdummy` does not keep to the volume (`FatDummy`).
-/

namespace FirstKernel

variable {σ : Type}

/-! ## Arguments -/

namespace Shell

/-- `strtok(0, delim)` for each of the delimiters. -/
def pointers : List UInt8 → Shell σ → Except Fault (List (Option Nat) × Shell σ)
  | [], s => .ok ([], s)
  | delim :: delims, s =>
      match s.token none delim with
      | .ok (p, s) =>
          match pointers delims s with
          | .ok (ps, s) => .ok (p :: ps, s)
          | .error e => .error e
      | .error e => .error e

/-- The arguments are read where the pointers point after the last call. -/
def ask (delims : List UInt8) (s : Shell σ) : Except Fault (List (Option CString) × Shell σ) :=
  match s.pointers delims with
  | .ok (ps, s) => .ok (ps.map fun p => p.map (stringFrom s.keyBuffer), s)
  | .error e => .error e

end Shell

/-! ## What the handlers call -/

/-- The file system is called, and prints. -/
def onFiles (args : Nat → Int32) (f : Fs → Except Fault Fs) : Handler Machine := fun s =>
  match f s.world.fs with
  | .ok fs =>
      let messages := fs.printed.drop s.world.fs.printed.length
      .ok ({ s with world := { s.world with fs := fs } }.printAll args messages)
  | .error e => .error e

/-- The handlers with one argument, which they pass on. -/
def withArgument (args : Nat → Int32) (usage : Text) (f : CString → Fs → Except Fault Fs) :
    Handler Machine := fun s =>
  match s.ask [0x20] with
  | .ok ([some argument], s) => onFiles args (f argument) s
  | .ok (_, s) => .ok (s.print args usage)
  | .error e => .error e

theorem bpb_words : 11 + 1 < 512 ∧ 19 + 1 < 512 := by decide

/-- `read_fs_info`, as the strings it prints. A number below 65536 fits in `str_num`. -/
def readFsInfo (fs : Fs) : List Text :=
  let buffer := readSector 0 fs
  let oemName := stringAt (((List.ofFn buffer).drop 3).take 8)
  let fsType := stringAt (((List.ofFn buffer).drop 54).take 8)
  let bytesPerSector := Buffer.load16 buffer 11 bpb_words.1
  let totalSectors := Buffer.load16 buffer 19 bpb_words.2
  [text "\n--- DISC ANALYSIS ---\n",
    text "Manufacturer / OS : ", oemName.chars, text "\n",
    text "Type of format : ", fsType.chars, text "\n",
    text "Bytes x Sector  : ", itoa bytesPerSector.toUInt32.toInt32, text "\n",
    text "Total Sectors: ", itoa totalSectors.toUInt32.toInt32, text "\n",
    text "--------------------------\n"]

/-! ## The handlers -/

def descriptions : List Text :=
  ["shows all the commands", "print a message",
    " changes the color the background and the fonts", "read one sector of the disk",
    "can make basic arithmetic functions", "can write something in one sector",
    "can draw a rectangle", "return the disk information", "return al files available",
    "make a dummy file for test", "make a new directory", "change the directory actual",
    "read a file within the system", "force the page fault", "clear the screen",
    "make a beep sound", "kill the interrupts of the system", "return the cpu information",
    "return time since system bootup", "return the local time of hardwar",
    "make an reserve of memory", "return the pci buses available",
    "delete a file or directory from the disk", "execute a program",
    "make a executeable progrma", "show the event register and start of the kernel",
    "pen-testing: try to shut down the interrupts(break the privileges)",
    "wake the network card E1000"].map text

def cmdHelp (args : Nat → Int32) : Handler σ := fun s =>
  .ok (s.printAll args ([text "--- commands availables ---\n"] ++
    ((commands.zip descriptions).flatMap fun command =>
      [text "- ", command.1, text ": ", command.2, text "\n"]) ++ [text "-----------------\n"]))

def fgColor (fgStr : CString) : UInt32 :=
  if strcmpChars fgStr.chars (text "white") = 0 then 0x00FFFFFF
  else if strcmpChars fgStr.chars (text "blue") = 0 then 0x000000FF
  else if strcmpChars fgStr.chars (text "red") = 0 then 0x00FF0000
  else if strcmpChars fgStr.chars (text "green") = 0 then 0x0000FF00
  else if strcmpChars fgStr.chars (text "cyan") = 0 then 0x0000FFFF
  else 0x00FFFFFF

def cmdColor (args : Nat → Int32) : Handler σ := fun s =>
  match s.ask [0x20] with
  | .ok ([some fgStr], s) =>
      .ok ({ s with screen := clearScreen (setColor (fgColor fgStr) s.screen) }.print args
        (text "- color has been update\n"))
  | .ok (_, s) =>
      .ok (s.print args
        (text "Error: missing agrs\n- use: color [cyan|green|red|blue|white]\n"))
  | .error e => .error e

/-- The sector that the drive is asked for: it gets 28 bits of the number. -/
def sectorOf (sectorNumber : Int32) (m : Machine) : Sector :=
  m.fs.disk (sectorNumber.toUInt32.toNat % 2 ^ 28)

def cmdWrite (args : Nat → Int32) : Handler Machine := fun s =>
  match s.ask [0x20, 0x20, 0] with
  | .ok ([some fileName, some fileExt, some content], s) =>
      onFiles args (exec (.writeFile (fatName fileName fileExt) content)) s
  | .ok (_, s) =>
      .ok (s.print args
        (text "Error: missing args\n- use: write [name(8)] [EXT(8)] [text...]\n"))
  | .error e => .error e

def cmdDraw : Handler σ := fun s =>
  .ok { s with screen := { s.screen with vgaMem := drawRectangle 10 10 50 50 40 s.screen.vgaMem } }

def cmdFsinfo (args : Nat → Int32) : Handler Machine := fun s =>
  .ok (s.printAll args (readFsInfo s.world.fs))

def cmdLs (args : Nat → Int32) (stack : Slot → Buffer 10) : Handler Machine :=
  onFiles args (listFilesInto stack)

def cmdMkdummy (args : Nat → Int32) : Handler Machine :=
  onFiles args fun fs => .ok (createDummyFile fs)

def cmdMkdir (args : Nat → Int32) : Handler Machine :=
  withArgument args (text "Error of sintax.\n- use: mkdir [name]\n") fun dirname =>
    exec (.makeDirectory dirname)

def cmdCat (args : Nat → Int32) : Handler Machine :=
  withArgument args (text "Error: missing args\n- use: cat [filename]\n") fun fileToRead =>
    exec (.catFile fileToRead)

def cmdCd (args : Nat → Int32) : Handler Machine :=
  withArgument args (text "Error of sintax\n- use: cd [dirname]\n") fun dirname =>
    exec (.changeDirectory dirname)

def cmdClear : Handler σ := fun s => .ok { s with screen := clearScreen s.screen }

/-- `cmd_alloc` on the machine, with what it prints on the screen. -/
def cmdAllocPrinted (args : Nat → Int32) : Handler Machine := fun s =>
  let kernel := cmdAlloc s.world.kernel
  let messages := kernel.printed.drop s.world.kernel.printed.length
  .ok ({ s with world := { s.world with kernel := kernel } }.printAll args messages)

def cmdRm (args : Nat → Int32) : Handler Machine :=
  withArgument args (text "Error: missing args.\nUse: rm [name]\n") fun target =>
    exec (.removeFile target)

theorem appName_noNul : ∀ i : Fin 11, (text "APP     BIN").getD i.val 0 ≠ 0 := by decide

def appName : FatName := ⟨fun i => (text "APP     BIN").getD i.val 0, appName_noNul⟩

theorem appCode_noNul : (0 : UInt8) ∉ [0xCD, 0x80, 0xEB, 0xFE] := by decide

def appCode : CString := ⟨[0xCD, 0x80, 0xEB, 0xFE], appCode_noNul⟩

def cmdMkapp (args : Nat → Int32) : Handler Machine := fun s =>
  match onFiles args (exec (.writeFile appName appCode)) s with
  | .ok s => .ok (s.print args (text "Program compiled and installed as APP.BIN\n"))
  | .error e => .error e

def cmdKmsg (args : Nat → Int32) : Handler σ := fun s =>
  .ok { s with screen := dumpKernelLog args s.screen }

/-- The handlers of the other commands. -/
def handlerTable (args : Nat → Int32) (stack : Slot → Buffer 10) :
    List (Text × Handler Machine) :=
  [(text "help", cmdHelp args), (text "echo", cmdEcho args), (text "color", cmdColor args),
    (text "read", cmdRead args sectorOf), (text "write", cmdWrite args), (text "draw", cmdDraw),
    (text "fsinfo", cmdFsinfo args), (text "ls", cmdLs args stack),
    (text "mkdummy", cmdMkdummy args), (text "mkdir", cmdMkdir args), (text "cd", cmdCd args),
    (text "cat", cmdCat args), (text "clear", cmdClear), (text "alloc", cmdAllocPrinted args),
    (text "rm", cmdRm args), (text "mkapp", cmdMkapp args), (text "kmsg", cmdKmsg args)]

/-- The commands that reach beyond the screen and the volume: they use a device, may fault or
halt, wait, or start a task. -/
def deviceCommands : List Text :=
  ["math", "crash", "beep", "sleep", "cpuinfo", "uptime", "time", "lspci", "run", "hack",
    "netinit"].map text

def handlers (args : Nat → Int32) (stack : Slot → Buffer 10) (device : Text → Handler Machine)
    (name : Text) : Handler Machine :=
  ((handlerTable args stack).lookup name).getD (device name)

/-! ## The call that a line names -/

/-- The call of the file system that a command with these arguments makes. -/
def callNamed (name arguments : Text) : Option Call :=
  let argument := ((fields 0x20 arguments)[0]?).map stringAt
  if name = text "write" then
    match fields 0x20 arguments, unread 0x20 2 arguments with
    | fileName :: fileExt :: _, some content =>
        some (.writeFile (fatName (stringAt fileName) (stringAt fileExt)) (stringAt content))
    | _, _ => none
  else if name = text "ls" then some .listFiles
  else if name = text "mkdir" then argument.map .makeDirectory
  else if name = text "cd" then argument.map .changeDirectory
  else if name = text "cat" then argument.map .catFile
  else if name = text "rm" then argument.map .removeFile
  else if name = text "mkapp" then some (.writeFile appName appCode)
  else none

/-- The text before the first blank of a line. -/
def lineWord (line : Text) : Text := line.takeWhile (· ≠ 0x20)

def lineArguments (line : Text) : Text := (line.dropWhile (· ≠ 0x20)).tail

def callOf (line : Text) : Option Call := callNamed (lineWord line) (lineArguments line)

/-! ## Reading the arguments -/

/-- A shell is the case of the one array `key_buffer`. -/
def Shell.session (s : Shell σ) : Session (fun _ => 255) σ where
  arrays _ := s.keyBuffer
  lastToken := s.lastToken.map (Pointer.mk 0)
  screen := s.screen
  world := s.world

theorem shell_session (s : Shell σ) : s.session.shell = s := by
  cases s with
  | mk _ lastToken _ _ => cases lastToken <;> rfl

theorem inKeyBuffer_session (s : Shell σ) : s.session.InKeyBuffer := by
  rintro p hp
  obtain ⟨_, _, rfl⟩ := Option.map_eq_some_iff.mp hp
  rfl

/-- The arguments are still to be read. -/
structure Asks (before rest : Text) (s : Shell σ) : Prop where
  last_eq : s.lastToken = some before.length
  tokenized : Tokenized s.keyBuffer before rest

/-- Nothing but the array and the place in it has changed. -/
structure OnlyRead (s s' : Shell σ) : Prop where
  screen_eq : s'.screen = s.screen
  world_eq : s'.world = s.world

theorem Asks.reading {before rest : Text} {s : Shell σ} (h : Asks before rest s) :
    Reading 0 before rest s.session where
  last_eq := by
    rw [Shell.session, h.last_eq]
    rfl
  tokenized := h.tokenized

theorem Reading.asks {before rest : Text} {t : Session (fun _ => 255) σ}
    (h : Reading 0 before rest t) : Asks before rest t.shell where
  last_eq := by
    rw [Session.shell, h.last_eq]
    rfl
  tokenized := h.tokenized

theorem Asks.token {before rest : Text} {s : Shell σ} (h : Asks before rest s) (delim : UInt8) :
    ∃ s' before', s.token none delim =
        .ok ((nextField delim rest).1.map fun _ => before.length, s') ∧
      OnlyRead s s' ∧ Asks before' (nextField delim rest).2 s' := by
  obtain ⟨t, before', htoken, htakes⟩ := takes_of_tokenized none h.reading.last_eq
    h.reading.tokenized delim
  refine ⟨t.shell, before', ?_, ⟨htakes.screen_eq, htakes.world_eq⟩, htakes.toReading.asks⟩
  have hshell := Session.shell_token (inKeyBuffer_session s) none delim
  rw [shell_session, Option.map_none, htoken] at hshell
  rw [hshell, Except.map, Option.map_map]
  rfl

theorem pointers_shell : ∀ (delims : List UInt8) {t t' : Session (fun _ => 255) σ}
    {ps : List (Option Pointer)}, t.InKeyBuffer → t.readAll delims = .ok (ps, t') →
      t.shell.pointers delims = .ok (ps.map (Option.map Pointer.offset), t'.shell) ∧
        ∀ p ∈ ps, ∀ q ∈ p, q.array = 0
  | [], t, t', ps, _, hread => by
      cases hread
      exact ⟨rfl, fun p hp => by cases hp⟩
  | delim :: delims, t, t', ps, h, hread => by
      have htoken := Session.shell_token h none delim
      rw [Session.readAll] at hread
      rw [Shell.pointers]
      cases hfirst : t.token none delim with
      | error e =>
          rw [hfirst] at hread
          cases hread
      | ok r =>
          obtain ⟨p, t1⟩ := r
          obtain ⟨h1, hp⟩ := Session.inKeyBuffer_token none h hfirst
          rw [Option.map_none, hfirst, Except.map] at htoken
          rw [hfirst] at hread
          simp only at hread
          cases hrest : t1.readAll delims with
          | error e =>
              rw [hrest] at hread
              cases hread
          | ok r =>
              obtain ⟨ps1, t2⟩ := r
              obtain ⟨hpointers, hps⟩ := pointers_shell delims h1 hrest
              rw [hrest] at hread
              cases hread
              rw [htoken]
              simp only [hpointers, List.map_cons, true_and]
              exact List.forall_mem_cons.mpr ⟨hp, hps⟩

/-- What is asked for is there, delimiter by delimiter. -/
theorem Asks.ask {before rest : Text} {s : Shell σ} (h : Asks before rest s)
    (delims : List UInt8) :
    ∃ s', s.ask delims = .ok ((readFields delims rest).map (Option.map stringAt), s') ∧
      OnlyRead s s' := by
  obtain ⟨ps, t, hread, hgets⟩ := gets_readAll delims h.reading
  obtain ⟨hpointers, harray⟩ := pointers_shell delims (inKeyBuffer_session s) hread
  refine ⟨t.shell, ?_, hgets.screen_eq, hgets.world_eq⟩
  rw [shell_session] at hpointers
  have htokens := congrArg (List.map (Option.map fun a => stringAt a.chars)) hgets.tokens_eq
  simp only [List.map_map, Function.comp_def, Option.map_map] at htokens
  rw [Shell.ask, hpointers]
  simp only [List.map_map]
  refine congrArg (fun tokens => Except.ok (tokens, t.shell)) (Eq.trans ?_ htokens)
  refine List.map_congr_left fun p hp => ?_
  cases p with
  | none => rfl
  | some q =>
      have hstring : stringAt (t.string q).chars = t.string q :=
        CString.ext (stringAt_chars (t.string q).noNul)
      simp only [Function.comp_apply, Option.map_some, Session.resolve, hstring]
      rw [Session.string, harray _ hp q rfl]
      rfl

/-- A field that is read with a blank. -/
theorem readFields_blank (rest : Text) :
    readFields [0x20] rest = [(fields 0x20 rest)[0]?] := by
  rw [readFields, readFields, getElem?_fields_zero]

/-! ## What the handlers do to the volume -/

/-- A volume on which every call returns and every listing fits. -/
structure Listable (fs : Fs) : Prop where
  wellFormed : WellFormed fs
  shortSizes : ShortSizes fs.disk

theorem Listable.exec {fs : Fs} (h : Listable fs) {call : Call} (hcall : call.ShortContent) :
    ∃ fs', FirstKernel.exec call fs = .ok fs' ∧ Listable fs' := by
  obtain ⟨fs', hexec, hwf⟩ := exec_wellFormed h.wellFormed call
  exact ⟨fs', hexec, hwf, exec_shortSizes h.wellFormed h.shortSizes hcall hexec⟩

/-- The handler returns, having made these calls of the file system. -/
def Makes (calls : List Call) (handler : Handler Machine) (s : Shell Machine) : Prop :=
  ∃ s', handler s = .ok s' ∧ runs exec calls s.world.fs = .ok s'.world.fs

theorem print_world (args : Nat → Int32) (message : Text) (s : Shell σ) :
    (s.print args message).world = s.world := rfl

theorem printAll_world (args : Nat → Int32) (messages : List Text) (s : Shell σ) :
    (s.printAll args messages).world = s.world := by
  rw [shell_printAll]

theorem Asks.printAll {before rest : Text} {s : Shell σ} (h : Asks before rest s)
    (args : Nat → Int32) (messages : List Text) : Asks before rest (s.printAll args messages) := by
  rw [shell_printAll]
  exact ⟨h.last_eq, h.tokenized⟩

/-- A handler that does not call the file system. -/
theorem makes_nil {handler : Handler Machine} {s s' : Shell Machine} (h : handler s = .ok s')
    (hfs : s'.world.fs = s.world.fs) : Makes [] handler s :=
  ⟨s', h, by rw [hfs]; rfl⟩

theorem makes_onFiles (args : Nat → Int32) {f : Fs → Except Fault Fs} {call : Call}
    {s s1 : Shell Machine} (hread : OnlyRead s s1) {fs : Fs} (hf : f s.world.fs = .ok fs)
    (hexec : exec call s.world.fs = .ok fs) :
    ∃ s', onFiles args f s1 = .ok s' ∧ runs exec [call] s.world.fs = .ok s'.world.fs := by
  rw [onFiles, hread.world_eq, hf]
  refine ⟨_, rfl, ?_⟩
  rw [runs_cons_ok hexec, printAll_world]
  rfl

/-- The handlers with one argument. -/
theorem makes_withArgument (args : Nat → Int32) (usage : Text) (toCall : CString → Call)
    {before rest : Text} {s : Shell Machine} (h : Asks before rest s) (hfs : Listable s.world.fs)
    (hshort : ∀ argument, (toCall argument).ShortContent) :
    Makes ((((fields 0x20 rest)[0]?).map stringAt).map toCall).toList
      (withArgument args usage fun argument => exec (toCall argument)) s := by
  obtain ⟨s1, hask, hread⟩ := h.ask [0x20]
  rw [readFields_blank] at hask
  rw [Makes, withArgument, hask]
  cases hfield : (fields 0x20 rest)[0]? with
  | none => exact ⟨_, rfl, by rw [Shell.print, hread.world_eq]; rfl⟩
  | some field =>
      obtain ⟨fs', hexec, -⟩ := hfs.exec (hshort (stringAt field))
      exact makes_onFiles args hread hexec hexec

theorem echoWords_ok (args : Nat → Int32) : ∀ (rounds : Nat) {before rest : Text} {s : Shell σ},
    Asks before rest s → rest.length < rounds →
      ∃ s', echoWords args rounds s = .ok s' ∧ s'.world = s.world
  | 0, _, _, _, _, hlt => absurd hlt (Nat.not_lt_zero _)
  | rounds + 1, before, rest, s, h, hlt => by
      obtain ⟨s1, before', htoken, hread, hasks⟩ := h.token 0x20
      rw [echoWords, htoken]
      by_cases hnil : rest = []
      · subst hnil
        exact ⟨_, rfl, hread.world_eq⟩
      · have hnext : nextField 0x20 rest =
            (some (rest.takeWhile (· ≠ 0x20)), (rest.dropWhile (· ≠ 0x20)).tail) := if_neg hnil
        have hless : (nextField 0x20 rest).2.length < rest.length := by
          have hpos := List.length_pos_iff.mpr hnil
          have hdrop := (List.dropWhile_sublist (· ≠ 0x20) (l := rest)).length_le
          rw [hnext, List.length_tail]
          omega
        have hsome : (nextField 0x20 rest).1 = some (rest.takeWhile (· ≠ 0x20)) :=
          congrArg Prod.fst hnext
        simp only [hsome, Option.map_some]
        obtain ⟨s', hrun, hworld⟩ := echoWords_ok args rounds (hasks.printAll args
          [(stringFrom s1.keyBuffer before.length).chars, text " "]) (by omega)
        exact ⟨s', hrun, hworld.trans ((printAll_world ..).trans hread.world_eq)⟩

theorem makes_echo (args : Nat → Int32) {before rest : Text} {s : Shell Machine}
    (h : Asks before rest s) : Makes [] (cmdEcho args) s := by
  obtain ⟨s', hrun, hworld⟩ := echoWords_ok args 257 h (by
    have := h.tokenized.lt
    omega)
  exact makes_nil hrun (congrArg Machine.fs hworld)

theorem makes_read (args : Nat → Int32) {before rest : Text} {s : Shell Machine}
    (h : Asks before rest s) : Makes [] (cmdRead args sectorOf) s := by
  obtain ⟨s1, before', htoken, hread, -⟩ := h.token 0x20
  rw [Makes, cmdRead, htoken]
  cases (nextField 0x20 rest).1 with
  | none => exact ⟨_, rfl, by rw [Shell.print, hread.world_eq]; rfl⟩
  | some field => exact ⟨_, rfl, by rw [printAll_world, Shell.print, hread.world_eq]; rfl⟩

theorem makes_color (args : Nat → Int32) {before rest : Text} {s : Shell Machine}
    (h : Asks before rest s) : Makes [] (cmdColor args) s := by
  obtain ⟨s1, hask, hread⟩ := h.ask [0x20]
  rw [readFields_blank] at hask
  rw [Makes, cmdColor, hask]
  cases (fields 0x20 rest)[0]? with
  | none => exact ⟨_, rfl, by rw [Shell.print, hread.world_eq]; rfl⟩
  | some field => exact ⟨_, rfl, by rw [Shell.print, hread.world_eq]; rfl⟩

theorem readFields_write {rest : Text} (hnul : (0 : UInt8) ∉ rest) :
    readFields [0x20, 0x20, 0] rest =
      [(fields 0x20 rest)[0]?, (fields 0x20 rest)[1]?, unread 0x20 2 rest] := by
  have hdelims : ∀ delim ∈ [(0x20 : UInt8), 0x20, 0], delim = 0x20 ∨ delim = 0 := by simp
  rw [readFields_eq (by decide) hdelims hnul]
  simp [List.range_succ, answer]

theorem length_nextField (delim : UInt8) (rest : Text) :
    (nextField delim rest).2.length ≤ rest.length := by
  unfold nextField
  split
  · exact Nat.zero_le _
  · exact (List.tail_sublist _).length_le.trans (List.dropWhile_sublist _).length_le

/-- What remains is no longer than the whole. -/
theorem length_unread {sep : UInt8} : ∀ {n : Nat} {rest content : Text},
    unread sep n rest = some content → content.length ≤ rest.length
  | 0, rest, content, h => by
      by_cases hnil : rest = []
      · rw [hnil, unread_nil] at h
        cases h
      · rw [unread_zero sep hnil] at h
        exact Nat.le_of_eq (congrArg List.length (Option.some.inj h)).symm
  | n + 1, rest, content, h => by
      rw [unread_succ] at h
      exact (length_unread h).trans (length_nextField sep rest)

theorem shortContent_callNamed (name : Text) {arguments : Text}
    (hlt : arguments.length < 1000000000) :
    ∀ call ∈ callNamed name arguments, call.ShortContent := by
  have hargument : ∀ (toCall : CString → Call), (∀ a, (toCall a).ShortContent) →
      ∀ call ∈ (((fields 0x20 arguments)[0]?).map stringAt).map toCall, call.ShortContent := by
    intro toCall hcall call hmem
    obtain ⟨a, -, rfl⟩ := Option.map_eq_some_iff.mp hmem
    exact hcall a
  rw [callNamed]
  split
  · rintro call hcall
    split at hcall
    · next content _ hcontent =>
        cases hcall
        have hsub : (stringAt content).chars.length ≤ content.length :=
          (List.takeWhile_sublist _).length_le
        exact Nat.lt_of_le_of_lt (hsub.trans (length_unread hcontent)) hlt
    · cases hcall
  split
  · rintro call ⟨⟩
    trivial
  split
  · exact hargument _ fun _ => trivial
  split
  · exact hargument _ fun _ => trivial
  split
  · exact hargument _ fun _ => trivial
  split
  · exact hargument _ fun _ => trivial
  split
  · rintro call ⟨⟩
    show 4 < 1000000000
    decide
  · rintro call ⟨⟩

theorem makes_write (args : Nat → Int32) {before rest : Text} {s : Shell Machine}
    (h : Asks before rest s) (hfs : Listable s.world.fs) :
    Makes (callNamed (text "write") rest).toList (cmdWrite args) s := by
  obtain ⟨s1, hask, hread⟩ := h.ask [0x20, 0x20, 0]
  have hlt := h.tokenized.lt
  have hshort := @shortContent_callNamed (text "write") rest (by omega)
  rw [readFields_write h.tokenized.noNul] at hask
  rw [callNamed, if_pos rfl] at hshort
  rw [Makes, cmdWrite, hask, callNamed, if_pos rfl]
  match hwords : fields 0x20 rest, hcontent : unread 0x20 2 rest with
  | [], _ => exact ⟨_, rfl, by rw [Shell.print, hread.world_eq]; rfl⟩
  | [_], _ => exact ⟨_, rfl, by rw [Shell.print, hread.world_eq]; rfl⟩
  | _ :: _ :: _, none => exact ⟨_, rfl, by rw [Shell.print, hread.world_eq]; rfl⟩
  | fileName :: fileExt :: _, some content =>
      rw [hwords, hcontent] at hshort
      obtain ⟨fs', hexec, -⟩ := hfs.exec (hshort _ rfl)
      exact makes_onFiles args hread hexec hexec

theorem makes_ls (args : Nat → Int32) (stack : Slot → Buffer 10) {s : Shell Machine}
    (hfs : Listable s.world.fs) : Makes [.listFiles] (cmdLs args stack) s :=
  makes_onFiles args ⟨rfl, rfl⟩ (listFilesInto_ok stack hfs.wellFormed hfs.shortSizes) rfl

theorem makes_mkapp (args : Nat → Int32) {s : Shell Machine} (hfs : Listable s.world.fs) :
    Makes [.writeFile appName appCode] (cmdMkapp args) s := by
  have hshort : (Call.writeFile appName appCode).ShortContent :=
    show 4 < 1000000000 by decide
  obtain ⟨fs', hexec, -⟩ := hfs.exec hshort
  obtain ⟨s', hrun, hcalls⟩ := makes_onFiles args (⟨rfl, rfl⟩ : OnlyRead s s) hexec hexec
  refine ⟨s'.print args (text "Program compiled and installed as APP.BIN\n"), ?_, hcalls⟩
  rw [cmdMkapp, hrun]

theorem makes_alloc (args : Nat → Int32) (s : Shell Machine) :
    Makes [] (cmdAllocPrinted args) s :=
  ⟨_, rfl, by rw [printAll_world]; rfl⟩

/-- The commands of the table other than `mkdummy`. -/
theorem handlerTable_makes (args : Nat → Int32) (stack : Slot → Buffer 10) {before rest : Text}
    {s : Shell Machine} (h : Asks before rest s) (hfs : Listable s.world.fs) :
    ∀ entry ∈ handlerTable args stack, entry.1 ≠ text "mkdummy" →
      Makes (callNamed entry.1 rest).toList entry.2 s := by
  have hsays : ∀ messages, runs exec [] s.world.fs = .ok (s.printAll args messages).world.fs :=
    fun messages => by rw [printAll_world]; rfl
  simp only [handlerTable, List.forall_mem_cons]
  refine ⟨fun _ => ⟨_, rfl, hsays _⟩, fun _ => makes_echo args h, fun _ => makes_color args h,
    fun _ => makes_read args h, fun _ => makes_write args h hfs, fun _ => ⟨_, rfl, rfl⟩,
    fun _ => ⟨_, rfl, hsays _⟩, fun _ => makes_ls args stack hfs, fun hne => absurd rfl hne,
    fun _ => makes_withArgument args _ _ h hfs fun _ => trivial,
    fun _ => makes_withArgument args _ _ h hfs fun _ => trivial,
    fun _ => makes_withArgument args _ _ h hfs fun _ => trivial, fun _ => ⟨_, rfl, rfl⟩,
    fun _ => makes_alloc args s, fun _ => makes_withArgument args _ _ h hfs fun _ => trivial,
    fun _ => makes_mkapp args hfs, fun _ => ⟨_, rfl, rfl⟩, ?_⟩
  exact fun entry hentry => nomatch hentry

/-! ## Command lines -/

theorem handlers_makes (args : Nat → Int32) (stack : Slot → Buffer 10)
    (device : Text → Handler Machine) {name before rest : Text} {s : Shell Machine}
    (hname : name ∈ commands) (hdevice : name ∉ deviceCommands) (hne : name ≠ text "mkdummy")
    (h : Asks before rest s) (hfs : Listable s.world.fs) :
    Makes (callNamed name rest).toList (handlers args stack device name) s := by
  have hnames : ∀ name ∈ commands, name ∈ deviceCommands ∨
      name ∈ (handlerTable args stack).map Prod.fst := by
    rw [show (handlerTable args stack).map Prod.fst = ["help", "echo", "color", "read", "write",
      "draw", "fsinfo", "ls", "mkdummy", "mkdir", "cd", "cat", "clear", "alloc", "rm", "mkapp",
      "kmsg"].map text from rfl]
    decide +kernel
  have hkey := (hnames name hname).resolve_left hdevice
  cases hlookup : (handlerTable args stack).lookup name with
  | none =>
      obtain ⟨entry, hentry, rfl⟩ := List.mem_map.mp hkey
      have hnone := List.lookup_eq_none_iff.mp hlookup entry hentry
      simp at hnone
  | some handler =>
      obtain ⟨before, after, heq, -⟩ := List.lookup_eq_some_iff.mp hlookup
      have hmem : (name, handler) ∈ handlerTable args stack := heq ▸ by simp
      rw [handlers, hlookup]
      exact handlerTable_makes args stack h hfs (name, handler) hmem hne

/-- A line that is not empty: its word is looked up, and the arguments are to be read. -/
theorem executeCommand_line (args : Nat → Int32) (handler : Text → Handler σ) {line : Text}
    {s : Shell σ} (hcells : line ++ [0] <+: List.ofFn s.keyBuffer) (hnul : (0 : UInt8) ∉ line)
    (hne : line ≠ []) :
    ∃ s1 before, OnlyRead s s1 ∧ Asks before (lineArguments line) s1 ∧
      executeCommand args handler s =
        if lineWord line ∈ commands then handler (lineWord line) s1
        else .ok (s1.printAll args (unknownCommand (lineWord line))) := by
  have htokenized : Tokenized (s.session.arrays 0) [] line := ⟨by rwa [List.nil_append], hnul⟩
  obtain ⟨t, before, htoken, htakes⟩ := takes_of_tokenized (some ⟨0, 0⟩) (s := s.session)
    rfl htokenized 0x20
  have hnext : nextField 0x20 line = (some (lineWord line), lineArguments line) := if_neg hne
  rw [hnext] at htoken
  have hreading : Reading 0 before (lineArguments line) t := by
    have h := htakes.toReading
    rw [hnext] at h
    exact h
  have hwordNul : (0 : UInt8) ∉ lineWord line := fun h0 =>
    hnul (mem_of_mem_nextField_fst (congrArg Prod.fst hnext) h0)
  have hended := htakes.ended (lineWord line) (by rw [hnext]; rfl)
  rw [hnext] at hended
  have hresolve := congrArg Argument.chars (resolve_eq hreading hwordNul hended)
  have hword : (t.string ⟨0, 0⟩).chars = lineWord line := by
    rw [Session.resolve, List.length_nil] at hresolve
    exact hresolve
  have hpos := List.length_pos_iff.mpr hne
  have hcell := htokenized.cell (Tokenized.lt_length_terminated (Nat.zero_le _)) (Nat.succ_pos _)
  rw [List.getElem_append_left hpos] at hcell
  have hfirst : s.keyBuffer ⟨0, Nat.succ_pos _⟩ ≠ 0 := fun h0 => by
    have hzero := hcell.symm.trans h0
    exact hnul (hzero ▸ List.getElem_mem hpos)
  have hshell := Session.shell_token (inKeyBuffer_session s) (some 0) 0x20
  rw [shell_session, Option.map_some, htoken] at hshell
  refine ⟨t.shell, before, ⟨htakes.screen_eq, htakes.world_eq⟩, hreading.asks, ?_⟩
  rw [executeCommand, if_neg hfirst, hshell]
  have hstring : stringFrom t.shell.keyBuffer 0 = t.string ⟨0, 0⟩ := rfl
  simp only [Except.map, Option.map_some, List.length_nil, hstring, find?_isCommand, hword]
  by_cases hmem : lineWord line ∈ commands
  · rw [if_pos hmem, if_pos hmem]
  · rw [if_neg hmem, if_neg hmem]
    rfl

/-- The line names none of these commands, and does not make the dummy. -/
def Deviceless (line : Text) : Prop :=
  lineWord line ∉ deviceCommands ∧ lineWord line ≠ text "mkdummy"

instance (line : Text) : Decidable (Deviceless line) := inferInstanceAs (Decidable (_ ∧ _))

theorem callNamed_eq_none {name : Text} (h : name ∉ commands) (arguments : Text) :
    callNamed name arguments = none := by
  have hne : ∀ command ∈ commands, name ≠ command := fun command hmem heq => h (heq ▸ hmem)
  rw [callNamed, if_neg (hne _ (by decide +kernel)), if_neg (hne _ (by decide +kernel)),
    if_neg (hne _ (by decide +kernel)), if_neg (hne _ (by decide +kernel)),
    if_neg (hne _ (by decide +kernel)), if_neg (hne _ (by decide +kernel)),
    if_neg (hne _ (by decide +kernel))]

/-- **Step lemma.** A command line does to the volume what the call that it names does. -/
theorem executeCommand_makes (args : Nat → Int32) (stack : Slot → Buffer 10)
    (device : Text → Handler Machine) {line : Text} {s : Shell Machine}
    (hcells : line ++ [0] <+: List.ofFn s.keyBuffer) (hnul : (0 : UInt8) ∉ line)
    (hline : Deviceless line) (hfs : Listable s.world.fs) :
    Makes (callOf line).toList (executeCommand args (handlers args stack device)) s := by
  by_cases hnil : line = []
  · subst hnil
    have hfirst : s.keyBuffer ⟨0, by decide⟩ = 0 := by
      have hget := hcells.getElem (i := 0) (by decide)
      rw [List.getElem_ofFn] at hget
      exact hget.symm
    exact makes_nil (if_pos hfirst) rfl
  · obtain ⟨s1, before, hread, hasks, hexec⟩ :=
      executeCommand_line args (handlers args stack device) hcells hnul hnil
    rw [Makes, hexec, ← hread.world_eq]
    by_cases hmem : lineWord line ∈ commands
    · rw [if_pos hmem]
      exact handlers_makes args stack device hmem hline.1 hline.2 hasks
        (by rw [hread.world_eq]; exact hfs)
    · rw [if_neg hmem, callOf, callNamed_eq_none hmem]
      exact ⟨_, rfl, by rw [printAll_world]; rfl⟩

end FirstKernel
