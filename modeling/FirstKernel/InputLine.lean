import FirstKernel.KeyboardLine
import FirstKernel.Rendering

/-!
# The line on the screen

What the handler puts out for a key changes the text after the prompt as
the key changes the line (`ShowsLine.echo`), whatever the cells before it
show. So from a prompt until Enter the cells up to the cursor are what
was there and then the line, less the rows that have scrolled away, and
the cells from the cursor on are black (`showsInput_runs`).

A line and a row are fewer cells than the screen has, so a row of the
line, or the one that the prompt is in, never scrolls away.
-/

namespace FirstKernel

variable {σ α : Type}

theorem line_room : 255 + 50 ≤ 37 * 50 := by decide

/-- The screen shows the line, in a colour, after the cells of `base`. -/
def ShowsLine (v : Cells α) (mem : FrameBuffer) (base : List α) (color : UInt32) (s : Screen)
    (line : Text) : Prop :=
  ∃ (gone : Nat) (t : Terminal α 37 50), Renders v mem s t.shown ∧ s.currentColor = color ∧
    t.Typed 255 base (line.map fun c => v.glyph c color) gone

namespace ShowsLine

variable {v : Cells α} {mem : FrameBuffer} {base : List α} {color : UInt32} {s : Screen}
  {line : Text}

theorem append (h : ShowsLine v mem base color s line) {c : UInt8} (hc : Plain c)
    (hlt : line.length < 255) : ShowsLine v mem base color (printChar c s) (line ++ [c]) := by
  obtain ⟨gone, t, hrenders, hcolor, htyped⟩ := h
  obtain ⟨gone', hput⟩ := htyped.put line_room (by rw [List.length_map]; exact hlt)
    (v.glyph c color)
  have hstep := renders_printChar hrenders c
  rw [Terminal.type, if_neg hc.2.1, if_neg hc.2.2, hcolor] at hstep
  refine ⟨gone', _, hstep, (printChar_currentColor c s).trans hcolor, ?_⟩
  rw [List.map_append]
  exact hput

theorem erase (h : ShowsLine v mem base color s line) (hne : line ≠ []) :
    ShowsLine v mem base color (printChar 0x08 s) line.dropLast := by
  obtain ⟨gone, t, hrenders, hcolor, htyped⟩ := h
  have hstep := renders_printChar hrenders 0x08
  rw [Terminal.type, if_neg (by decide), if_pos rfl] at hstep
  refine ⟨gone, _, hstep, (printChar_currentColor 0x08 s).trans hcolor, ?_⟩
  rw [List.map_dropLast]
  exact htyped.backspace line_room fun hnil => hne (List.map_eq_nil_iff.mp hnil)

theorem appendAll : ∀ {cs : Text} {s : Screen} {line : Text},
    ShowsLine v mem base color s line → (∀ c ∈ cs, Plain c) → line.length + cs.length ≤ 255 →
    ShowsLine v mem base color (printChars cs s) (line ++ cs)
  | [], _, line, h, _, _ => by
      rw [List.append_nil]
      exact h
  | c :: cs, s, line, h, hcs, hle => by
      rw [List.length_cons] at hle
      have hone := h.append (hcs c (List.mem_cons_self ..)) (by omega)
      have hrest := appendAll hone (fun c' hc' => hcs c' (List.mem_cons_of_mem c hc'))
        (by rw [List.length_append, List.length_singleton]; omega)
      rw [List.append_assoc] at hrest
      exact hrest

theorem eraseAll : ∀ {n : Nat} {s : Screen} {line : Text}, line.length = n →
    ShowsLine v mem base color s line →
    ShowsLine v mem base color (printChars (List.replicate n 0x08) s) []
  | 0, _, _, hlen, h => by
      rw [List.length_eq_zero_iff.mp hlen] at h
      exact h
  | n + 1, s, line, hlen, h => by
      have hne : line ≠ [] := List.ne_nil_of_length_eq_add_one hlen
      exact eraseAll (s := printChar 0x08 s) (by rw [List.length_dropLast, hlen]; rfl)
        (h.erase hne)

/-- What is put out for a key does to the screen what the key does to the line. -/
theorem echo {e : LineEditor UInt8} (h : ShowsLine v mem base color s e.line)
    (hfits : e.Fits 255) (hplain : e.Only Plain) {key : Key UInt8} (hkey : Editing key) :
    ShowsLine v mem base color (printChars (echo e key) s)
      (LineEditor.press 255 osCommands e key).line := by
  cases key with
  | char c =>
      rw [FirstKernel.echo, LineEditor.press]
      split
      · next hlt => exact h.append hkey hlt
      · exact h
  | backspace =>
      rw [FirstKernel.echo, LineEditor.press]
      split
      · next hnil =>
          simp only [hnil] at h ⊢
          exact h
      · next hne => exact h.erase hne
  | tab =>
      rw [FirstKernel.echo, LineEditor.press]
      rcases LineEditor.completed_cases osCommands e.line with heq | ⟨hmem, hpre⟩
      · simp only [heq, List.drop_length]
        exact h
      · obtain ⟨rest, hrest⟩ := hpre
        obtain ⟨hlen, hcommand⟩ := osCommands_fit _ hmem
        simp only [← hrest] at hlen hcommand ⊢
        rw [List.drop_left]
        refine h.appendAll (fun c hc => hcommand c (List.mem_append_right _ hc)) ?_
        rwa [← List.length_append]
  | up =>
      rw [FirstKernel.echo, LineEditor.press]
      split
      · exact h
      · rw [printChars, List.foldl_append]
        refine (h.eraseAll rfl).appendAll hplain.history ?_
        rw [List.length_nil, Nat.zero_add]
        exact hfits.history_le
  | enter => exact hkey.elim

end ShowsLine

/-! ## Runs -/

theorem editing_keyOf {m : Modifiers} {scancode : UInt8} {key : Key UInt8}
    (h : keyOf m scancode = some key) (hne : key ≠ .enter) : Editing key := by
  have htable : ∀ {c : UInt8}, keyOfChar c = some key → Editing key := by
    intro c hc
    unfold keyOfChar at hc
    split at hc
    · exact absurd (Option.some.inj hc).symm hne
    · next hnl =>
        split at hc
        · cases hc
          trivial
        · next hbs =>
            split at hc
            · cases hc
            · next hnul =>
                cases hc
                exact ⟨hnul, hnl, hbs⟩
  unfold keyOf at h
  split at h
  · cases h
    trivial
  · split at h
    · cases h
      trivial
    · split at h
      · cases h
      · split at h
        · exact htable h
        · cases h

/-- The step lemma: a scancode that does not submit the line keeps it in view. -/
theorem Handles.showsLine {v : Cells α} {mem : FrameBuffer} {base : List α} {color : UInt32}
    {k k' : Keyboard σ} {e : LineEditor UInt8} {scancode : UInt8}
    (hhandles : Handles k e scancode k') (h : Tracks k e)
    (hne : keyOf k.modifiers scancode ≠ some .enter)
    (hline : ShowsLine v mem base color k.shell.screen e.line) :
    ShowsLine v mem base color k'.shell.screen
      (LineEditor.pressAll 255 osCommands e (keyOf k.modifiers scancode).toList).line := by
  rw [hhandles.screen_eq hne]
  cases hkey : keyOf k.modifiers scancode with
  | none => exact hline
  | some key =>
      exact hline.echo h.fits h.plain
        (editing_keyOf hkey fun henter => hne (hkey.trans (congrArg some henter)))

/-- Nothing fails before the line is submitted, and the line stays in view. -/
theorem showsLine_runs (args : Nat → Int32) (handler : Text → Handler σ) {v : Cells α}
    {mem : FrameBuffer} {base : List α} {color : UInt32} :
    ∀ (scancodes : List UInt8) {k : Keyboard σ} {e : LineEditor UInt8}, Tracks k e →
      Key.enter ∉ keysOf k.modifiers scancodes →
      ShowsLine v mem base color k.shell.screen e.line →
      ∃ k' e', runs (keyboardHandler args handler) scancodes k = .ok k' ∧ Tracks k' e' ∧
        ShowsLine v mem base color k'.shell.screen e'.line
  | [], k, e, h, _, hline => ⟨k, e, rfl, h, hline⟩
  | scancode :: scancodes, k, e, h, hnot, hline => by
      rw [keysOf, List.mem_append, not_or] at hnot
      have hne : keyOf k.modifiers scancode ≠ some .enter := fun henter => hnot.1 (by
        rw [henter]
        exact List.mem_singleton_self _)
      rcases outcome_keyboardHandler args handler h scancode with ⟨k1, hk1, hhandles⟩ | hfail
      · rw [← hhandles.modifiers_eq] at hnot
        obtain ⟨k', e', hrun, htracks, hshows⟩ :=
          showsLine_runs args handler scancodes hhandles.tracks hnot.2
            (hhandles.showsLine h hne hline)
        exact ⟨k', e', (runs_cons_ok hk1).trans hrun, htracks, hshows⟩
      · exact absurd hfail.1 hne

/-! ## A prompt that something was printed before -/

/-- What a cell shows. -/
def pictureAt (mem : FrameBuffer) (n : Nat) : Picture := fun row col k =>
  mem (((n / 50 * 16 + row) * 800 + (n % 50 * 16 + col)) * 3 + k)

/-- The cells before the cursor. -/
def shownBefore (s : Screen) : List Picture := (List.range (cursor s)).map (pictureAt s.vgaMem)

theorem length_shownBefore (s : Screen) : (shownBefore s).length = cursor s := by
  rw [shownBefore, List.length_map, List.length_range]

/-- Cells that hold their picture. -/
def pictureCells : Cells Picture := ⟨black, charPicture, id, rfl, fun _ _ => rfl⟩

theorem ClearAhead.cursor_lt {s : Screen} (h : ClearAhead s) : cursor s < 37 * 50 := by
  have hrow := toNatClampNeg_lt (n := 37) h.row_range.2 (by decide)
  have hcol := toNatClampNeg_lt (n := 50) h.col_range.2 (by decide)
  unfold cursor
  omega

theorem ClearAhead.fits {s : Screen} (h : ClearAhead s) : (shownBefore s).length < 37 * 50 :=
  (length_shownBefore s).trans_lt h.cursor_lt

/-- What a screen that is clear ahead of the cursor shows, as a terminal. -/
def ClearAhead.terminal {s : Screen} (h : ClearAhead s) : Terminal Picture 37 50 :=
  ⟨shownBefore s, h.fits⟩

theorem ClearAhead.renders {s : Screen} (h : ClearAhead s) (hvga : s.vgaNull = false) :
    Renders pictureCells s.vgaMem s (shownBefore s) := by
  have hlt := h.cursor_lt
  have hrow := Int32.ofNat_toNatClampNeg _ h.row_range.1
  have hcol := Int32.ofNat_toNatClampNeg _ h.col_range.1
  have hcollt := toNatClampNeg_lt (n := 50) h.col_range.2 (by decide)
  have hlen := length_shownBefore s
  have hdiv : cursor s / 50 = s.currentRow.toNatClampNeg := by
    unfold cursor
    omega
  have hmod : cursor s % 50 = s.currentCol.toNatClampNeg := by
    unfold cursor
    omega
  refine ⟨hvga, ?_, ?_, ?_, ?_⟩
  · rw [hlen, hdiv, hrow]
  · rw [hlen, hmod, hcol]
  · funext i
    unfold framebuffer
    split
    · next hi =>
        show _ = pictureCells.pictures _ (cellAt i) _ _ _
        by_cases hbefore : cellAt i < cursor s
        · rw [Cells.pictures, List.getD_eq_getElem _ _ (by rw [hlen]; exact hbefore)]
          simp only [shownBefore, List.getElem_map, List.getElem_range]
          show _ = s.vgaMem _
          congr 1
          unfold cellAt
          omega
        · rw [pictureCells.pictures_of_le (by rw [hlen]; omega)]
          exact h.black_after i hi (by omega)
    · split
      · next hge hlt => exact h.black_below i (by omega) hlt
      · rfl
  · rw [hlen]
    omega

/-- The cells of a screen on which the line has been put after what an earlier one showed,
less so many rows. -/
def inputCells (before : Screen) (gone : Nat) (letters : Text) (n : Nat) : Picture :=
  if n < cursor before - gone * 50 then pictureAt before.vgaMem (n + gone * 50)
  else (letters[n - (cursor before - gone * 50)]?).elim black fun c =>
    charPicture c before.currentColor

/-- The screen shows what stood before the prompt's end and then what is in the buffer, and
nothing from the cursor on. If rows have scrolled away, they ended long before the
prompt. -/
structure ShowsInput (before : Screen) (gone : Nat) (k : Keyboard σ) : Prop
    extends ClearAhead k.shell.screen where
  gone_le : gone = 0 ∨ gone * 50 + 1545 ≤ cursor before
  cursor_eq : (cursor k.shell.screen : Int) + gone * 50 = cursor before + k.bufferIndex
  mem_eq : k.shell.screen.vgaMem = framebuffer
    (inputCells before gone ((List.ofFn k.shell.keyBuffer).take k.bufferIndex.toNat))
    before.vgaMem

/-- The keyboard in front of another screen. -/
def Keyboard.onScreen (k : Keyboard σ) (screen : Screen) : Keyboard σ :=
  { k with shell := { k.shell with screen := screen } }

theorem Tracks.onScreen {k : Keyboard σ} {e : LineEditor UInt8} (h : Tracks k e)
    (screen : Screen) : Tracks (k.onScreen screen) e :=
  ⟨⟨h.index_eq, h.cells⟩, h.fits, h.plain, h.lastLen_eq, h.lastCells, h.executed_eq⟩

/-- The cells of a line that is in view after what a screen showed. -/
theorem pictures_inputCells {before : Screen} {gone : Nat} (hgone : gone * 50 ≤ cursor before)
    (letters : Text) :
    pictureCells.pictures ((shownBefore before ++
      letters.map fun c => charPicture c before.currentColor).drop (gone * 50)) =
      inputCells before gone letters := by
  have hlen := length_shownBefore before
  rw [pictureCells.pictures_drop]
  funext n
  unfold inputCells
  by_cases hbefore : n < cursor before - gone * 50
  · have hlt : n + gone * 50 < cursor before := by omega
    rw [if_pos hbefore, Cells.pictures, List.getD_append _ _ _ _ (by rw [hlen]; exact hlt),
      List.getD_eq_getElem _ _ (by rw [hlen]; exact hlt)]
    simp only [shownBefore, List.getElem_map, List.getElem_range]
    rfl
  · have hindex : n + gone * 50 - cursor before = n - (cursor before - gone * 50) := by omega
    rw [if_neg hbefore, Cells.pictures, List.getD_append_right _ _ _ _ (by rw [hlen]; omega),
      hlen, hindex, List.getD_eq_getElem?_getD, List.getElem?_map]
    cases letters[n - (cursor before - gone * 50)]? <;> rfl

/-- **The input line is in view.** From a prompt on any screen that is black from the cursor
on, any scancodes that do not submit the line leave the cells up to the cursor as what the
screen showed and then the buffered line. -/
theorem showsInput_runs (args : Nat → Int32) (handler : Text → Handler σ) (shell : Shell σ)
    (earlier scancodes : List UInt8) {k : Keyboard σ} {screen : Screen}
    (hprompt : runs (keyboardHandler args handler) earlier (bootKeyboard shell) = .ok k)
    (hempty : k.bufferIndex = 0) (hvga : screen.vgaNull = false) (hclear : ClearAhead screen)
    (hnot : Key.enter ∉ keysOf k.modifiers scancodes) :
    ∃ gone k', runs (keyboardHandler args handler) scancodes (k.onScreen screen) = .ok k' ∧
      ShowsInput screen gone k' := by
  have htracks := tracks_of_runs earlier (tracks_boot shell) hprompt
  generalize LineEditor.pressAll 255 osCommands .empty (keysOf _ earlier) = e at htracks
  have hnil : e.line = [] := by
    have hindex := htracks.index_eq
    rw [hempty] at hindex
    exact List.length_eq_zero_iff.mp (by omega)
  have hlen := length_shownBefore screen
  have hstart : ShowsLine pictureCells screen.vgaMem
      (shownBefore screen) screen.currentColor (k.onScreen screen).shell.screen e.line := by
    rw [hnil]
    exact ⟨0, hclear.terminal, hclear.renders hvga, rfl, Terminal.typed_nil 255 hclear.terminal⟩
  obtain ⟨k', e', hrun, htracks', gone, t, hrenders, -, htyped⟩ :=
    showsLine_runs args handler scancodes (htracks.onScreen screen) hnot hstart
  have hgone : gone * 50 ≤ cursor screen := by
    have hle := htyped.gone_le_base line_room
    rwa [hlen] at hle
  have hline := htracks'.readsAs.line_eq
  refine ⟨gone, k', hrun, hrenders.clearAhead, ?_, ?_, ?_⟩
  · have hle := htyped.gone_le
    rw [hlen] at hle
    omega
  · rw [hrenders.cursor_eq, htyped.shown_eq, List.length_drop, List.length_append, hlen,
      List.length_map, htracks'.index_eq]
    omega
  · rw [hrenders.mem_eq, htyped.shown_eq, hline]
    exact congrArg (fun cells => framebuffer cells screen.vgaMem)
      (pictures_inputCells hgone e'.line)

theorem clearAhead_bootScreen : ClearAhead bootScreen :=
  ⟨by decide, by decide, fun _ _ _ => rfl, fun _ _ _ => rfl⟩

/-- The letters h and i and a backspace on the screen at boot. -/
theorem showsInput_runs_boot :
    ∃ gone k', runs (keyboardHandler (fun _ => 0) fun _ => .ok) [0x23, 0x17, 0x0E]
        ((bootKeyboard ⟨fun _ => 0, none, bootScreen, ()⟩).onScreen bootScreen) = .ok k' ∧
      ShowsInput bootScreen gone k' :=
  showsInput_runs (fun _ => 0) (fun _ => .ok) ⟨fun _ => 0, none, bootScreen, ()⟩ []
    [0x23, 0x17, 0x0E] rfl rfl rfl clearAhead_bootScreen (by decide)

end FirstKernel
