import FirstKernel.Commands
import FirstKernel.FatDriver
import FirstKernel.KeyboardLine

/-!
# From the keyboard to the volume

The layers from `keyboard_handler` down, put together. Keys edit a line
and do nothing else; Enter gives it to `execute_command`, which takes it
apart and calls a handler, which calls the file system. So a run of
scancodes does to the volume what the calls do that the submitted lines
name (`volume_runs`), and what is proved about runs of calls holds of
whatever is typed.
-/

namespace FirstKernel

variable {σ : Type}

/-! ## Keys that only edit -/

/-- What the editing of a line does not change. -/
structure Untouched {τ : Type} (f : Keyboard σ → τ) : Prop where
  buffer : ∀ k buffer, f { k with shell := { k.shell with keyBuffer := buffer } } = f k
  screen : ∀ k screen, f { k with shell := { k.shell with screen := screen } } = f k
  index : ∀ k i, f { k with bufferIndex := i } = f k

theorem untouched_world : Untouched fun k : Keyboard σ => k.shell.world :=
  ⟨fun _ _ => rfl, fun _ _ => rfl, fun _ _ => rfl⟩

namespace Untouched

variable {τ : Type} {f : Keyboard σ → τ} (hf : Untouched f)

include hf

theorem setKey {i : Int} {c : UInt8} {k k' : Keyboard σ} (h : k.setKey i c = .ok k') :
    f k' = f k := by
  unfold Keyboard.setKey at h
  split at h
  · cases h
    exact hf.buffer k _
  · cases h

theorem appendKey {c : UInt8} {k k' : Keyboard σ} (h : k.appendKey c = .ok k') : f k' = f k := by
  unfold Keyboard.appendKey at h
  cases hset : k.setKey k.bufferIndex c with
  | error e =>
      rw [hset] at h
      cases h
  | ok k1 =>
      rw [hset] at h
      cases h
      have hindex := hf.index k1 (k1.bufferIndex + 1)
      exact (hf.screen _ _).trans (hindex.trans (hf.setKey hset))

omit hf in
/-- A loop whose rounds leave it alone. -/
theorem loopBelow {n : Int} {body : Nat → Keyboard σ → Except Fault (Keyboard σ)}
    (hbody : ∀ i k k', body i k = .ok k' → f k' = f k) {k k' : Keyboard σ}
    (h : FirstKernel.loopBelow n body k = .ok k') : f k' = f k := by
  unfold FirstKernel.loopBelow at h
  generalize List.range n.toNat = rounds at h
  induction rounds generalizing k with
  | nil =>
      cases h
      rfl
  | cons i rounds ih =>
      rw [List.foldlM_cons] at h
      cases hround : body i k with
      | error e =>
          rw [hround] at h
          cases h
      | ok k1 =>
          rw [hround] at h
          exact (ih h).trans (hbody i k k1 hround)

theorem completeLetter {command : Text} {k k' : Keyboard σ}
    (h : FirstKernel.completeLetter command k = .ok k') : f k' = f k := by
  unfold FirstKernel.completeLetter at h
  split at h
  · cases h
  · exact hf.appendKey h

theorem autocompleteTab {k k' : Keyboard σ} (h : FirstKernel.autocompleteTab k = .ok k') :
    f k' = f k := by
  unfold FirstKernel.autocompleteTab at h
  split at h
  · cases h
    rfl
  · split at h
    · cases h
    · next k1 hset =>
        split at h
        · cases h
        · cases h
          exact hf.setKey hset
        · exact (loopBelow (fun _ _ _ => hf.completeLetter) h).trans (hf.setKey hset)

theorem eraseLine : ∀ (rounds : Nat) (k : Keyboard σ), f (FirstKernel.eraseLine rounds k) = f k
  | 0, _ => rfl
  | rounds + 1, k => by
      have hindex := hf.index (k.printChar 0x08) (k.bufferIndex - 1)
      exact (eraseLine rounds _).trans (hindex.trans (hf.screen k _))

theorem recallLetter {i : Nat} {k k' : Keyboard σ} (h : FirstKernel.recallLetter i k = .ok k') :
    f k' = f k := by
  unfold FirstKernel.recallLetter at h
  split at h
  · cases h
  · split at h
    · next k1 hset =>
        cases h
        exact (hf.screen k1 _).trans (hf.setKey hset)
    · cases h

theorem recallCommand {k k' : Keyboard σ} (h : FirstKernel.recallCommand k = .ok k') :
    f k' = f k := by
  unfold FirstKernel.recallCommand at h
  split at h
  · cases h
  · next k1 hloop =>
      have hindex := (hf.setKey h).trans (hf.index k1 _)
      exact hindex.trans ((loopBelow (fun _ _ _ => hf.recallLetter) hloop).trans
        (hf.eraseLine _ k))

theorem typeChar {args : Nat → Int32} {handler : Text → Handler σ} {c : UInt8}
    {k k' : Keyboard σ} (hc : c ≠ 0x0A) (h : FirstKernel.typeChar args handler c k = .ok k') :
    f k' = f k := by
  rw [FirstKernel.typeChar, if_neg hc] at h
  split at h
  · split at h
    · split at h
      · next k1 hset =>
          cases h
          exact (hf.screen k1 _).trans ((hf.setKey hset).trans (hf.index k _))
      · cases h
    · cases h
      rfl
  · split at h
    · split at h
      · exact hf.appendKey h
      · cases h
        rfl
    · cases h
      rfl

end Untouched

theorem map_endOfInterrupt_world {result : Except Fault (Keyboard σ)} {k k' : Keyboard σ}
    (hresult : ∀ k1, result = .ok k1 → k1.shell.world = k.shell.world)
    (h : result.map Keyboard.endOfInterrupt = .ok k') : k'.shell.world = k.shell.world := by
  cases hk1 : result with
  | error e =>
      rw [hk1] at h
      cases h
  | ok k1 =>
      have hworld := hresult k1 hk1
      rw [hk1] at h
      cases h
      exact hworld

/-- A scancode that is in none of the other branches. -/
theorem keyboardHandler_char (args : Nat → Int32) (handler : Text → Handler σ) {k : Keyboard σ}
    {scancode : UInt8} (htab : scancode ≠ 0x0F) (hup : scancode ≠ 0x48)
    (hmem : scancode ∉ [(0x2A : UInt8), 0x36, 0x3A]) (hle : scancode ≤ 57) :
    keyboardHandler args handler scancode k =
      (typeChar args handler (finalChar k.shiftPressed k.capsLocks scancode) k).map
        Keyboard.endOfInterrupt := by
  simp only [List.mem_cons, List.not_mem_nil, or_false, not_or] at hmem
  have hrelease : ¬(scancode = 0xAA ∨ scancode = 0xB6) := by
    rintro (rfl | rfl)
    · exact absurd hle (by decide)
    · exact absurd hle (by decide)
  rw [keyboardHandler, if_neg htab, if_neg fun h => hup h.1,
    if_neg (not_or.mpr ⟨hmem.1, hmem.2.1⟩), if_neg hrelease, if_neg hmem.2.2, if_pos hle]

/-- Only Enter does anything to the rest of the machine. -/
theorem keyboardHandler_world {args : Nat → Int32} {handler : Text → Handler σ} {scancode : UInt8}
    {k k' : Keyboard σ} (hkey : keyOf k.modifiers scancode ≠ some .enter)
    (h : keyboardHandler args handler scancode k = .ok k') :
    k'.shell.world = k.shell.world := by
  by_cases hchar : scancode ≠ 0x0F ∧ scancode ≠ 0x48 ∧
      scancode ∉ [(0x2A : UInt8), 0x36, 0x3A] ∧ scancode ≤ 57
  · obtain ⟨htab, hup, hmem, hle⟩ := hchar
    rw [keyOf, if_neg htab, if_neg hup, if_neg hmem, if_pos hle] at hkey
    rw [keyboardHandler_char args handler htab hup hmem hle] at h
    refine map_endOfInterrupt_world (fun k1 hk1 =>
      untouched_world.typeChar (fun hnl => hkey ?_) hk1) h
    rw [keyOfChar]
    exact if_pos hnl
  · unfold keyboardHandler at h
    split at h
    · exact map_endOfInterrupt_world (fun _ => untouched_world.autocompleteTab) h
    split at h
    · exact map_endOfInterrupt_world (fun _ => untouched_world.recallCommand) h
    split at h
    · cases h
      rfl
    split at h
    · cases h
      rfl
    split at h
    · cases h
      rfl
    split at h
    · next htab _ hpress _ hcaps hle =>
        obtain ⟨hleft, hright⟩ := not_or.mp hpress
        refine absurd ⟨htab, ?_, by simp [hleft, hright, hcaps], hle⟩ hchar
        rintro rfl
        exact absurd hle (by decide)
    · cases h
      rfl

/-! ## Enter -/

/-- Enter runs the line, and then only clears it. -/
theorem pressEnter_eq (args : Nat → Int32) (handler : Text → Handler σ) {k : Keyboard σ}
    {e : LineEditor UInt8} (h : Tracks k e) :
    ∃ (shell : Shell σ) (after : Shell σ → Keyboard σ),
      e.line ++ [0] <+: List.ofFn shell.keyBuffer ∧ shell.world = k.shell.world ∧
        (∀ s, (after s).shell.world = s.world) ∧
        pressEnter args handler k = (executeCommand args handler shell).map after := by
  have hle := h.fits.line_le
  obtain ⟨k1, hset, hcell⟩ := setKey_ok (k.printChar 0x0A) (i := e.line.length) (by omega) 0
  have hcells1 : e.line ++ [0] <+: List.ofFn k1.shell.keyBuffer := by
    rw [hcell.cells_eq]
    exact append_prefix_set h.cells (by rw [List.length_ofFn]; omega) 0
  obtain ⟨k2, hkeep, hk2⟩ := keepCommand_ok hle (hcell.index_eq.trans h.index_eq) hcells1
  have hclear : ∀ shell : Shell σ, ∃ k3, { k2 with
      shell := shell
      executed := k2.executed ++ [stringAt (List.ofFn k2.shell.keyBuffer)] }.setKey 0 0 = .ok k3 ∧
        k3.shell.world = shell.world := by
    intro shell
    have hpos : 0 < 256 := by decide
    obtain ⟨k3, hset3, -⟩ := setKey_ok { k2 with
      shell := shell
      executed := k2.executed ++ [stringAt (List.ofFn k2.shell.keyBuffer)] } hpos 0
    rw [Int.natCast_zero] at hset3
    exact ⟨k3, hset3, untouched_world.setKey hset3⟩
  choose cleared hcleared hworld using hclear
  refine ⟨k2.shell, fun s => { cleared s with
    bufferIndex := 0, shell := (cleared s).shell.print args (text "OS> ") }, ?_, ?_, ?_, ?_⟩
  · rw [hk2.shell_eq]
    exact hcells1
  · rw [hk2.shell_eq]
    have hworld1 := untouched_world.setKey hset
    exact hworld1
  · exact fun s => (print_world args _ (cleared s).shell).trans (hworld s)
  · rw [pressEnter, h.index_eq, hset]
    simp only [hkeep]
    cases executeCommand args handler k2.shell with
    | error fault => rfl
    | ok shell =>
        simp only [hcleared]
        rfl

theorem eq_of_keyOfChar {c : UInt8} (h : keyOfChar c = some .enter) : c = 0x0A := by
  by_contra hne
  rw [keyOfChar, if_neg hne] at h
  split at h
  · cases h
  · split at h
    · cases h
    · cases h

theorem keyboardHandler_enter (args : Nat → Int32) (handler : Text → Handler σ) {k : Keyboard σ}
    {scancode : UInt8} (hkey : keyOf k.modifiers scancode = some .enter) :
    keyboardHandler args handler scancode k =
      (pressEnter args handler k).map Keyboard.endOfInterrupt := by
  rw [keyOf] at hkey
  split at hkey
  · cases hkey
  split at hkey
  · cases hkey
  split at hkey
  · cases hkey
  split at hkey
  · next htab hup hmem hle =>
      have hnl : finalChar k.shiftPressed k.capsLocks scancode = 0x0A := eq_of_keyOfChar hkey
      rw [keyboardHandler_char args handler htab hup hmem hle, typeChar, if_pos hnl]
  · cases hkey

/-! ## Runs -/

/-- What the keyboard has done since the volume was `fs`. -/
structure Served (fs : Fs) (k : Keyboard Machine) (e : LineEditor UInt8) : Prop where
  tracks : Tracks k e
  calls : runs exec (e.submitted.filterMap callOf) fs = .ok k.shell.world.fs
  listable : Listable k.shell.world.fs

theorem Listable.runs {fs fs' : Fs} (h : Listable fs) {calls : List Call}
    (hcalls : ∀ call ∈ calls, call.ShortContent)
    (hrun : FirstKernel.runs FirstKernel.exec calls fs = .ok fs') : Listable fs' := by
  induction calls generalizing fs with
  | nil => exact Except.ok.inj hrun ▸ h
  | cons call calls ih =>
      obtain ⟨hcall, hrest⟩ := List.forall_mem_cons.mp hcalls
      obtain ⟨fs1, hstep, hrun⟩ := runs_cons_eq_ok hrun
      obtain ⟨fs2, hexec, hfs2⟩ := h.exec hcall
      obtain rfl := Except.ok.inj (hstep.symm.trans hexec)
      exact ih hfs2 hrest hrun

/-- What a submitted line names does not write a long file. -/
theorem shortContent_callOf {line : Text} (hle : line.length ≤ 255) :
    ∀ call ∈ (callOf line).toList, call.ShortContent := by
  have hlt : (lineArguments line).length < 1000000000 := by
    have htail : (lineArguments line).length ≤ line.length :=
      (List.tail_sublist _).length_le.trans (List.dropWhile_sublist _).length_le
    omega
  intro call hcall
  exact shortContent_callNamed (lineWord line) hlt call (Option.mem_toList.mp hcall)

/-- **Step lemma.** A key that edits leaves the volume alone, and Enter makes the call that
the line names. -/
theorem Served.keyboardHandler {fs : Fs} {k : Keyboard Machine} {e : LineEditor UInt8}
    (h : Served fs k e) (args : Nat → Int32) (stack : Slot → Buffer 10)
    (device : Text → Handler Machine) {scancode : UInt8}
    (hline : keyOf k.modifiers scancode = some .enter → Deviceless e.line) :
    ∃ k', FirstKernel.keyboardHandler args (handlers args stack device) scancode k = .ok k' ∧
      Served fs k' (LineEditor.pressAll 255 osCommands e (keyOf k.modifiers scancode).toList) ∧
      k'.modifiers = k.modifiers.after scancode := by
  have houtcome := outcome_keyboardHandler args (handlers args stack device) h.tracks scancode
  by_cases hkey : keyOf k.modifiers scancode = some .enter
  · obtain ⟨shell, after, hcells, hworld, hafter, hpress⟩ :=
      pressEnter_eq args (handlers args stack device) h.tracks
    obtain ⟨shell', hexec, hcalls⟩ := executeCommand_makes args stack device hcells h.tracks.noNul
      (hline hkey) (hworld ▸ h.listable)
    have hrun : FirstKernel.keyboardHandler args (handlers args stack device) scancode k =
        .ok (after shell').endOfInterrupt := by
      rw [keyboardHandler_enter args _ hkey, hpress, hexec]
      rfl
    have hhandles := houtcome.handles hrun
    have htracks := hhandles.tracks
    rw [hkey] at htracks ⊢
    have hworld' : (after shell').endOfInterrupt.shell.world = shell'.world := hafter shell'
    rw [hworld] at hcalls
    refine ⟨_, hrun, ⟨htracks, ?_, ?_⟩, hhandles.modifiers_eq⟩
    · rw [hworld']
      show runs exec ((e.submitted ++ [e.line]).filterMap callOf) fs = _
      rw [List.filterMap_append, runs_append h.calls]
      exact hcalls
    · rw [hworld']
      exact h.listable.runs (shortContent_callOf h.tracks.fits.line_le) hcalls
  · rcases houtcome with ⟨k', hrun, hhandles⟩ | ⟨henter, -⟩
    · have hworld := keyboardHandler_world hkey hrun
      have hsubmitted : (LineEditor.pressAll 255 osCommands e
          (keyOf k.modifiers scancode).toList).submitted = e.submitted := by
        cases hk : keyOf k.modifiers scancode with
        | none => rfl
        | some key => exact LineEditor.submitted_press fun heq => hkey (heq ▸ hk)
      refine ⟨k', hrun, ⟨hhandles.tracks, ?_, ?_⟩, hhandles.modifiers_eq⟩
      · rw [hsubmitted, hworld]
        exact h.calls
      · rw [hworld]
        exact h.listable
    · exact absurd henter hkey

theorem submitted_isPrefix (keys : List (Key UInt8)) (e : LineEditor UInt8) :
    e.submitted <+: (LineEditor.pressAll 255 osCommands e keys).submitted := by
  induction keys generalizing e with
  | nil => exact List.prefix_refl _
  | cons key keys ih =>
      have hpress : e.submitted <+: (LineEditor.press 255 osCommands e key).submitted := by
        by_cases henter : key = .enter
        · subst henter
          exact List.prefix_append _ _
        · rw [LineEditor.submitted_press henter]
      exact hpress.trans (ih _)

theorem Served.runs (args : Nat → Int32) (stack : Slot → Buffer 10)
    (device : Text → Handler Machine) {fs : Fs} : ∀ (scancodes : List UInt8)
    {k : Keyboard Machine} {e : LineEditor UInt8}, Served fs k e →
    (∀ line ∈ (LineEditor.pressAll 255 osCommands e (keysOf k.modifiers scancodes)).submitted,
      Deviceless line) →
    ∃ k', FirstKernel.runs (FirstKernel.keyboardHandler args (handlers args stack device))
        scancodes k = .ok k' ∧
      Served fs k' (LineEditor.pressAll 255 osCommands e (keysOf k.modifiers scancodes))
  | [], k, _, h, _ => ⟨k, rfl, h⟩
  | scancode :: scancodes, k, e, h, hlines => by
      have hkeys : LineEditor.pressAll 255 osCommands e
          (keysOf k.modifiers (scancode :: scancodes)) =
          LineEditor.pressAll 255 osCommands
            (LineEditor.pressAll 255 osCommands e (keyOf k.modifiers scancode).toList)
            (keysOf (k.modifiers.after scancode) scancodes) := List.foldl_append
      rw [hkeys] at hlines ⊢
      have hline : keyOf k.modifiers scancode = some .enter → Deviceless e.line := by
        intro henter
        refine hlines e.line ((submitted_isPrefix _ _).subset ?_)
        rw [henter]
        exact List.mem_append_right _ (List.mem_singleton_self _)
      obtain ⟨k1, hstep, hserved, hmods⟩ := h.keyboardHandler args stack device hline
      rw [← hmods] at hlines ⊢
      obtain ⟨k', hrun, hserved'⟩ := Served.runs args stack device scancodes hserved hlines
      exact ⟨k', (runs_cons_ok hstep).trans hrun, hserved'⟩

/-- The lines that a sequence of scancodes submits from boot on. -/
def submittedBy (scancodes : List UInt8) : List Text :=
  (LineEditor.pressAll 255 osCommands .empty (keysOf ⟨false, false⟩ scancodes)).submitted

theorem volume_runs (args : Nat → Int32) (stack : Slot → Buffer 10)
    (device : Text → Handler Machine) (shell : Shell Machine) (hfs : Formatted shell.world.fs)
    (scancodes : List UInt8) (hlines : ∀ line ∈ submittedBy scancodes, Deviceless line) :
    ∃ k, runs (keyboardHandler args (handlers args stack device)) scancodes
        (bootKeyboard shell) = .ok k ∧
      runs exec ((submittedBy scancodes).filterMap callOf) shell.world.fs =
        .ok k.shell.world.fs ∧ WellFormed k.shell.world.fs := by
  have hboot : Served shell.world.fs (bootKeyboard shell) .empty :=
    ⟨tracks_boot shell, rfl, hfs.wellFormed, hfs.shortSizes⟩
  obtain ⟨k, hrun, hserved⟩ := Served.runs args stack device scancodes hboot hlines
  exact ⟨k, hrun, hserved.calls, hserved.listable.wellFormed⟩

/-- **What is typed is done.** From boot with a formatted drive, whatever is typed, as long as
no submitted line names a command of `deviceCommands` or makes the dummy, `keyboard_handler`
returns each time. The volume is then the well-formed one that the calls make which the lines
name, and so are the sectors of the drive on which these calls are made. -/
theorem typed_onDrive (args : Nat → Int32) (stack : Slot → Buffer 10)
    (device : Text → Handler Machine) (shell : Shell Machine) (hfs : Formatted shell.world.fs)
    (d : Ata.Drive σ) (buffer : Sector) {s : σ} (hs : d.accepts s)
    (hsectors : driveSectors d s = shell.world.fs.sectors) (scancodes : List UInt8)
    (hlines : ∀ line ∈ submittedBy scancodes, Deviceless line) :
    ∃ k s', runs (keyboardHandler args (handlers args stack device)) scancodes
        (bootKeyboard shell) = .ok k ∧
      runs exec ((submittedBy scancodes).filterMap callOf) shell.world.fs =
        .ok k.shell.world.fs ∧ WellFormed k.shell.world.fs ∧
      Returns (fun rounds => execOnDrive d buffer rounds
        ((submittedBy scancodes).filterMap callOf) shell.world.fs.vars s)
        (k.shell.world.fs.vars, s') ∧
      driveSectors d s' = k.shell.world.fs.sectors := by
  obtain ⟨k, hrun, hcalls, hwf⟩ := volume_runs args stack device shell hfs scancodes hlines
  obtain ⟨fs', s', hcalls', -, hreturns, -, hend⟩ :=
    files_onDrive d buffer ((submittedBy scancodes).filterMap callOf) hfs.wellFormed hs hsectors
  obtain rfl := Except.ok.inj (hcalls.symm.trans hcalls')
  exact ⟨k, s', hrun, hcalls, hwf, hreturns, hend⟩

/-- The keys of `mkdir a`, Enter, `ls` and Enter. -/
def mkdirKeys : List UInt8 :=
  [0x32, 0x25, 0x20, 0x17, 0x13, 0x39, 0x1E, 0x1C, 0x26, 0x1F, 0x1C]

def blankShell : Shell Machine :=
  ⟨fun _ => 0, none, bootScreen, ⟨blankFs, blankKernel, 0, 0, [], []⟩⟩

theorem typed_onDrive_mkdir :
    ∃ k s', runs (keyboardHandler (fun _ => 0) (handlers (fun _ => 0) (fun _ => Buffer.zeros 10)
        fun _ => .ok)) mkdirKeys (bootKeyboard blankShell) = .ok k ∧
      runs exec ((submittedBy mkdirKeys).filterMap callOf) blankFs = .ok k.shell.world.fs ∧
      WellFormed k.shell.world.fs ∧
      Returns (fun rounds => execOnDrive (Ata.plainDrive 3) (Buffer.zeros 512) rounds
        ((submittedBy mkdirKeys).filterMap callOf) blankFs.vars Ata.blankDrive)
        (k.shell.world.fs.vars, s') ∧
      driveSectors (Ata.plainDrive 3) s' = k.shell.world.fs.sectors :=
  typed_onDrive (fun _ => 0) (fun _ => Buffer.zeros 10) (fun _ => .ok) blankShell
    formatted_blankFs (Ata.plainDrive 3) (Buffer.zeros 512) (s := Ata.blankDrive) rfl rfl mkdirKeys
    (by decide +kernel)

example : (submittedBy mkdirKeys).map callOf =
    [some (.makeDirectory (stringAt (text "a"))), some .listFiles] := rfl

end FirstKernel
