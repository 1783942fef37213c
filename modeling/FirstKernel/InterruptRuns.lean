import FirstKernel.Interrupts

/-!
# Runs of interrupts

Between interrupts nothing is in service, so the lines are served in the
order of their priorities (`Follows`): each that has a handler, until the
machine stops at one that has none (`interrupts_inOrder`). None is left
waiting longer than those before it take (`raised_served`). And the file
system is what the typed lines make of it, whatever other interrupts come
in between (`interrupts_volume`).
-/

namespace FirstKernel

variable {σ : Type}

/-- The requests that an occurrence makes, and whether the processor looks. -/
def Occurrence.lines : Occurrence → List (Lines.Event Line)
  | .raise line => [.raise line]
  | .interrupt _ _ during => .take :: during.map .raise

def linesOf (occurrences : List Occurrence) : List (Lines.Event Line) :=
  occurrences.flatMap Occurrence.lines

/-- The machine when interrupts are allowed first, whatever state the controllers were in. -/
def bootBoard (pics : Pics) (idtAddr : UInt32) (address : Isr → UInt32) (keyboard : Keyboard σ)
    (mouse : Mouse) : Board σ :=
  let r := isrInstall Pics.ports idtAddr address pics blankIdt
  ⟨r.1, r.2, 0, keyboard, mouse, true, []⟩

theorem picRemap_eq (pics : Pics) :
    picRemap Pics.ports pics = Pics.waiting 0x20 0x28 fun _ => false := by
  have hnone : (fun i : Fin lineCount => if i = 2 then false else false) = fun _ => false :=
    funext fun i => ite_self _
  have hprimary := pics.primary.initialized 0x20 0x04
  have hsecondary := pics.secondary.initialized 0x28 0x02
  rw [Pics.waiting, hnone]
  exact congrArg₂ Pics.mk hprimary hsecondary

theorem raiseAll_waiting (raised : List Line) (l : Lines Line) :
    Pics.raiseAll raised (Pics.waiting 0x20 0x28 l.pending) =
      Pics.waiting 0x20 0x28 (l.after Pics.order (raised.map .raise)).pending ∧
      (l.after Pics.order (raised.map .raise)).taken = l.taken := by
  induction raised generalizing l with
  | nil => exact ⟨rfl, rfl⟩
  | cons line raised ih =>
      obtain ⟨hpics, htaken⟩ := ih (l.raise line)
      refine ⟨Eq.trans ?_ hpics, htaken⟩
      rw [Pics.raiseAll, List.foldl_cons, Pics.raise_waiting]
      rfl

/-- The board has served what priority takes, unless it has come to a line without a handler. -/
structure Follows (idt : Idt) (b : Board σ) (l : Lines Line) : Prop where
  handled : ∀ line ∈ b.served, lineIsr line ≠ none
  ticks : b.timerTicks = UInt32.ofNat (b.served.count (.primary 0))
  state :
    b.running = true ∧ b.idt = idt ∧ b.served = l.taken ∧
        b.pics = Pics.waiting 0x20 0x28 l.pending ∨
      b.running = false ∧ ∃ line, lineIsr line = none ∧ b.served ++ [line] <+: l.taken

theorem follows_boot (pics : Pics) (idtAddr : UInt32) (address : Isr → UInt32)
    (keyboard : Keyboard σ) (mouse : Mouse) :
    Follows (installedIdt idtAddr address) (bootBoard pics idtAddr address keyboard mouse)
      Lines.none :=
  ⟨fun _ h => absurd h List.not_mem_nil, rfl, Or.inl ⟨rfl, rfl, rfl, picRemap_eq pics⟩⟩

theorem taken_isPrefix_after (events : List (Lines.Event Line)) (l : Lines Line) :
    l.taken <+: (l.after Pics.order events).taken := by
  induction events generalizing l with
  | nil => exact List.prefix_refl _
  | cons event events ih =>
      refine List.IsPrefix.trans ?_ (ih (l.step Pics.order event))
      cases event with
      | raise line => exact List.prefix_refl _
      | take =>
          show l.taken <+: (l.take Pics.order).taken
          rw [Lines.take]
          split
          · exact List.prefix_refl _
          · exact List.prefix_append _ _

/-- A board that has stopped stays as it is. -/
theorem Follows.of_stopped {idt : Idt} {b : Board σ} {l : Lines Line} (h : Follows idt b l)
    (hstopped : b.running = false) (pics : Pics) (events : List (Lines.Event Line)) :
    Follows idt { b with pics := pics } (l.after Pics.order events) := by
  refine ⟨h.handled, h.ticks, Or.inr ⟨hstopped, ?_⟩⟩
  rcases h.state with ⟨hrunning, -⟩ | ⟨-, line, hline, hprefix⟩
  · exact absurd (hrunning.symm.trans hstopped) (by decide)
  · exact ⟨line, hline, hprefix.trans (taken_isPrefix_after events l)⟩

theorem ticks_served {ticks : UInt32} {served : List Line} {line : Line}
    (h : ticks = UInt32.ofNat (served.count (.primary 0))) :
    (ticks + if line = .primary 0 then 1 else 0) =
      UInt32.ofNat ((served ++ [line]).count (.primary 0)) := by
  rw [List.count_append, UInt32.ofNat_add, h, List.count_singleton]
  by_cases hline : line = .primary 0
  · rw [if_pos hline, if_pos (beq_iff_eq.mpr hline)]
    rfl
  · rw [if_neg hline, if_neg (by simpa using hline)]
    rfl

section

variable {args : Nat → Int32} {handler : Text → Handler σ} {idtAddr : UInt32}
  {address : Isr → UInt32}

/-- A line that has been acknowledged is served, or stops the machine. -/
theorem Follows.deliver (haddress : Function.Injective address) {b b' : Board σ} {l : Lines Line}
    (h : Follows (installedIdt idtAddr address) b l) (hrunning : b.running = true)
    (hidt : b.idt = installedIdt idtAddr address) (hserved : b.served = l.taken)
    {line : Line} (hnext : l.next Pics.order = some line) {status data : UInt8}
    {during : List Line} {pending : Line → Bool}
    (hdeliver : Board.deliver args handler address status data line
      (Pics.vector line (Pics.waiting 0x20 0x28 pending))
      { b with
        pics := Pics.raiseAll during ((Pics.waiting 0x20 0x28 l.pending).acknowledge line) } =
      .ok b') :
    Follows (installedIdt idtAddr address) b'
      ((l.take Pics.order).after Pics.order (during.map .raise)) := by
  have htake : l.take Pics.order = ⟨Function.update l.pending line false, l.taken ++ [line]⟩ := by
    rw [Lines.take, hnext]
  obtain ⟨hpics, htaken⟩ := raiseAll_waiting during (l.take Pics.order)
  rw [Board.deliver, show Board.idt _ = installedIdt idtAddr address from hidt,
    dispatch_line idtAddr haddress] at hdeliver
  simp only at hdeliver
  cases hisr : lineIsr line with
  | none =>
      rw [hisr] at hdeliver
      cases hdeliver
      refine ⟨h.handled, h.ticks, Or.inr ⟨rfl, line, hisr, ?_⟩⟩
      rw [htaken, htake]
      show b.served ++ [line] <+: _
      rw [hserved]
  | some isr =>
      rw [hisr, Option.getD_some] at hdeliver
      split at hdeliver
      · cases hdeliver
      next b1 hrun =>
      have hserves := runIsr_serves hisr hrun
      have hrunning' : b1.running = true := hserves.running_eq.trans hrunning
      have hserved' : b1.served = b.served := hserves.served_eq
      rw [if_pos hrunning'] at hdeliver
      cases hdeliver
      refine ⟨?_, ?_, Or.inl ⟨hrunning', hserves.idt_eq, ?_, ?_⟩⟩
      · intro other hother
        show lineIsr other ≠ none
        rcases List.mem_append.mp hother with hbefore | hnow
        · exact h.handled other (hserved' ▸ hbefore)
        · rw [List.mem_singleton.mp hnow, hisr]
          exact Option.some_ne_none isr
      · show b1.timerTicks = _
        rw [hserves.ticks_eq]
        show _ = UInt32.ofNat ((b1.served ++ [line]).count _)
        rw [hserved']
        exact ticks_served h.ticks
      · show b1.served ++ [line] = _
        rw [htaken, htake, hserved', hserved]
      · show b1.pics = _
        rw [← hpics, hserves.pics_eq]
        show Pics.out _ (Pics.raiseAll during _) = _
        rw [Pics.out_ends_raiseAll, Pics.out_ends, htake]

/-- **Step lemma.** What has been served goes on being what priority takes. -/
theorem Follows.step (haddress : Function.Injective address) {b b' : Board σ} {l : Lines Line}
    (h : Follows (installedIdt idtAddr address) b l) {occurrence : Occurrence}
    (hstep : b.step args handler address occurrence = .ok b') :
    Follows (installedIdt idtAddr address) b' (l.after Pics.order occurrence.lines) := by
  rcases h.state with ⟨hrunning, hidt, hserved, hpics⟩ | ⟨hstopped, -⟩
  · cases occurrence with
    | raise line =>
        cases hstep
        refine ⟨h.handled, h.ticks, Or.inl ⟨hrunning, hidt, hserved, ?_⟩⟩
        show b.pics.raise line = _
        rw [hpics, Pics.raise_waiting]
        rfl
    | interrupt status data during =>
        have hnext : b.pics.pending = l.next Pics.order := by
          rw [hpics, Pics.pending_waiting]
          rfl
        rw [Board.step, if_pos hrunning, hnext] at hstep
        cases hline : l.next Pics.order with
        | none =>
            rw [hline] at hstep
            cases hstep
            obtain ⟨hraised, htaken⟩ := raiseAll_waiting during l
            have htake : l.take Pics.order = l := by rw [Lines.take, hline]
            have hlines : l.after Pics.order (Occurrence.interrupt status data during).lines =
                l.after Pics.order (during.map .raise) :=
              congrArg (fun l => Lines.after Pics.order (during.map .raise) l) htake
            rw [hlines]
            refine ⟨h.handled, h.ticks, Or.inl ⟨hrunning, hidt, hserved.trans htaken.symm, ?_⟩⟩
            show Pics.raiseAll during b.pics = _
            rw [hpics, hraised]
        | some line =>
            rw [hline] at hstep
            simp only [hpics] at hstep
            exact h.deliver haddress hrunning hidt hserved hline hstep
  · cases occurrence with
    | raise line =>
        cases hstep
        exact h.of_stopped hstopped (b.pics.raise line) [.raise line]
    | interrupt status data during =>
        rw [Board.step, if_neg (by rw [hstopped]; exact Bool.false_ne_true)] at hstep
        cases hstep
        exact h.of_stopped hstopped b.pics _

theorem Follows.runs (haddress : Function.Injective address) : ∀ (occurrences : List Occurrence)
    {b b' : Board σ} {l : Lines Line}, Follows (installedIdt idtAddr address) b l →
    FirstKernel.runs (Board.step args handler address) occurrences b = .ok b' →
    Follows (installedIdt idtAddr address) b' (l.after Pics.order (linesOf occurrences))
  | [], _, _, _, h, hrun => Except.ok.inj hrun ▸ h
  | occurrence :: occurrences, b, b', l, h, hrun => by
      obtain ⟨b1, hstep, hrest⟩ := runs_cons_eq_ok hrun
      have hlines : l.after Pics.order (linesOf (occurrence :: occurrences)) =
          (l.after Pics.order occurrence.lines).after Pics.order (linesOf occurrences) := by
        rw [linesOf, List.flatMap_cons]
        exact List.foldl_append
      rw [hlines]
      exact Follows.runs haddress occurrences (h.step haddress hstep) hrest

/-- The processor looks whether a line is pending. -/
def Occurrence.looks : Occurrence → Bool
  | .raise _ => false
  | .interrupt _ _ _ => true

theorem countP_linesOf (occurrences : List Occurrence) :
    (linesOf occurrences).countP Lines.isTake = occurrences.countP Occurrence.looks := by
  induction occurrences with
  | nil => rfl
  | cons occurrence occurrences ih =>
      rw [linesOf, List.flatMap_cons, List.countP_append, List.countP_cons]
      rw [show (occurrences.flatMap Occurrence.lines) = linesOf occurrences from rfl, ih]
      cases occurrence with
      | raise line => exact Nat.add_comm ..
      | interrupt status data during =>
          have hraised : (during.map Lines.Event.raise).countP Lines.isTake = 0 := by
            rw [List.countP_eq_zero]
            intro event hevent
            obtain ⟨line, -, rfl⟩ := List.mem_map.mp hevent
            exact Bool.false_ne_true
          rw [Occurrence.lines, List.countP_cons, hraised]
          exact Nat.add_comm ..

/-- A line is taken where the processor looks. -/
theorem linesOf_split {occurrences : List Occurrence} {before after : List (Lines.Event Line)}
    (h : linesOf occurrences = before ++ .take :: after) :
    ∃ earlier occurrence later, occurrences = earlier ++ occurrence :: later ∧
      occurrence.looks = true ∧ linesOf earlier = before ∧
      linesOf (occurrence :: later) = .take :: after := by
  induction occurrences generalizing before with
  | nil => exact absurd h.symm (by simp [linesOf])
  | cons occurrence occurrences ih =>
      cases occurrence with
      | raise line =>
          cases before with
          | nil => cases h
          | cons event before =>
              obtain ⟨hevent, hrest⟩ := List.cons.inj h
              obtain ⟨earlier, found, later, rfl, hlooks, hbefore, hafter⟩ := ih hrest
              refine ⟨.raise line :: earlier, found, later, rfl, hlooks, ?_, hafter⟩
              rw [← hevent, ← hbefore]
              rfl
      | interrupt status data during =>
          cases before with
          | nil => exact ⟨[], _, occurrences, rfl, rfl, rfl, h⟩
          | cons event before =>
              obtain ⟨hevent, hrest⟩ := List.cons.inj h
              have hsplit : ∃ before', before = during.map .raise ++ before' ∧
                  linesOf occurrences = before' ++ .take :: after := by
                rcases List.append_eq_append_iff.mp hrest with h' | ⟨raised, hraised, htail⟩
                · exact h'
                · cases raised with
                  | nil => exact ⟨[], by rw [hraised, List.append_nil, List.append_nil], htail.symm⟩
                  | cons first raised =>
                      -- what is raised during the handler is no look
                      obtain ⟨hfirst, -⟩ := List.cons.inj htail
                      have hmem : Lines.Event.take ∈ during.map Lines.Event.raise := by
                        rw [hraised, hfirst]
                        simp
                      simp at hmem
              obtain ⟨before', rfl, hlater⟩ := hsplit
              obtain ⟨earlier, found, later, rfl, hlooks, hbefore, hafter⟩ := ih hlater
              refine ⟨.interrupt status data during :: earlier, found, later, rfl, hlooks, ?_,
                hafter⟩
              rw [← hevent, ← hbefore]
              rfl

theorem running_of_runs {occurrences : List Occurrence} {b b' : Board σ}
    (hrun : runs (Board.step args handler address) occurrences b = .ok b')
    (h : b'.running = true) : b.running = true := by
  by_contra hnot
  have hstopped : b.running = false := Bool.not_eq_true _ ▸ hnot
  have hstep : ∀ (occurrence : Occurrence) (b b' : Board σ), b.running = false →
      b.step args handler address occurrence = .ok b' → b'.running = false := by
    intro occurrence b b' hb hstep
    cases occurrence with
    | raise line =>
        cases hstep
        exact hb
    | interrupt status data during =>
        rw [Board.step, if_neg (by rw [hb]; exact Bool.false_ne_true)] at hstep
        cases hstep
        exact hb
  have hkept : b'.running = false := runs_preserves hstep occurrences hstopped hrun
  rw [hkept] at h
  cases h

end

/-! ## Typing among interrupts -/

/-- The scancode that is taken, if the keyboard's line is. -/
def Occurrence.key (l : Lines Line) : Occurrence → List UInt8
  | .raise _ => []
  | .interrupt _ data _ => if l.next Pics.order = some (.primary 1) then [data] else []

def keysTaken : List Occurrence → Lines Line → List UInt8
  | [], _ => []
  | occurrence :: occurrences, l =>
      occurrence.key l ++ keysTaken occurrences (l.after Pics.order occurrence.lines)

/-- What has been typed does not depend on the screen. -/
theorem Served.of_screen {fs : Fs} {k : Keyboard Machine} {e : LineEditor UInt8} (h : Served fs k e)
    (screen : Screen) :
    Served fs { k with shell := { k.shell with screen := screen } } e :=
  ⟨⟨⟨h.tracks.index_eq, h.tracks.cells⟩, h.tracks.fits, h.tracks.plain, h.tracks.lastLen_eq,
    h.tracks.lastCells, h.tracks.executed_eq⟩, h.calls, h.listable⟩

/-- What a key does to the editor, and what no key does. -/
structure TypedOn (fs : Fs) (keys : List UInt8) (m : Modifiers) (e : LineEditor UInt8)
    (k : Keyboard Machine) : Prop where
  served : Served fs k (LineEditor.pressAll 255 osCommands e (keysOf m keys))
  modifiers_eq : k.modifiers = keys.foldl Modifiers.after m

section

variable {args : Nat → Int32} {stack : Slot → Buffer 10} {device : Text → Handler Machine}

/-- Only the keyboard's handler touches what is typed. -/
theorem Served.runIsr {fs : Fs} {b : Board Machine} {e : LineEditor UInt8}
    (h : Served fs b.keyboard e) {line : Line} {isr : Isr} (hisr : lineIsr line = some isr)
    (status : UInt8) {data : UInt8}
    (hline : line = .primary 1 → keyOf b.keyboard.modifiers data = some .enter →
      Deviceless e.line) :
    ∃ b', FirstKernel.runIsr args (handlers args stack device) status data isr b = .ok b' ∧
      TypedOn fs (if line = .primary 1 then [data] else []) b.keyboard.modifiers e b'.keyboard := by
  have hmem : (line, isr) ∈ lineHandlers := mem_lineHandlers hisr
  simp only [lineHandlers, List.mem_cons, Prod.mk.injEq, List.not_mem_nil, or_false] at hmem
  obtain ⟨rfl, rfl⟩ | ⟨rfl, rfl⟩ | ⟨rfl, rfl⟩ | ⟨rfl, rfl⟩ | ⟨rfl, rfl⟩ := hmem
  · exact ⟨_, rfl, h, rfl⟩
  · obtain ⟨k, hrun, hserved, hmods⟩ := h.keyboardHandler args stack device (hline rfl)
    have hboard : b.keyboardHandler args (handlers args stack device) data =
        .ok ({ b with keyboard := k }.out (k.ports.drop b.keyboard.ports.length)) := by
      rw [Board.keyboardHandler, hrun]
    refine ⟨_, hboard, ?_, hmods⟩
    rw [if_pos rfl, keysOf, keysOf, List.append_nil]
    exact hserved
  · exact ⟨_, rfl, h, rfl⟩
  · exact ⟨_, rfl, h.of_screen _, rfl⟩
  · exact ⟨_, rfl, h, rfl⟩

variable {idtAddr : UInt32} {address : Isr → UInt32}

/-- **Step lemma.** An occurrence does what its scancode does, if it brings one. -/
theorem Served.step (haddress : Function.Injective address) {fs : Fs} {b : Board Machine}
    {l : Lines Line} {e : LineEditor UInt8} (h : Served fs b.keyboard e)
    (hfollows : Follows (installedIdt idtAddr address) b l) (hrunning : b.running = true)
    {occurrence : Occurrence}
    (hhandled : ∀ line ∈ (l.after Pics.order occurrence.lines).taken, lineIsr line ≠ none)
    (hline : ∀ data ∈ occurrence.key l, keyOf b.keyboard.modifiers data = some .enter →
      Deviceless e.line) :
    ∃ b', b.step args (handlers args stack device) address occurrence = .ok b' ∧
      b'.running = true ∧
      TypedOn fs (occurrence.key l) b.keyboard.modifiers e b'.keyboard := by
  rcases hfollows.state with ⟨-, hidt, -, hpics⟩ | ⟨hstopped, -⟩
  · cases occurrence with
    | raise line => exact ⟨_, rfl, hrunning, h, rfl⟩
    | interrupt status data during =>
        have hnext : b.pics.pending = l.next Pics.order := by
          rw [hpics, Pics.pending_waiting]
          rfl
        rw [Board.step, if_pos hrunning, hnext]
        cases hpending : l.next Pics.order with
        | none =>
            rw [Occurrence.key, hpending]
            exact ⟨_, rfl, hrunning, h, rfl⟩
        | some line =>
            have hline' : line = .primary 1 → keyOf b.keyboard.modifiers data = some .enter →
                Deviceless e.line := by
              rintro rfl
              refine hline data ?_
              rw [Occurrence.key, hpending, if_pos rfl]
              exact List.mem_singleton_self data
            have hmem : line ∈ (l.after Pics.order
                (Occurrence.interrupt status data during).lines).taken := by
              refine (taken_isPrefix_after (during.map .raise) (l.take Pics.order)).subset ?_
              rw [Lines.take, hpending]
              exact List.mem_append_right _ (List.mem_singleton_self line)
            obtain ⟨isr, hisr⟩ := Option.ne_none_iff_exists'.mp (hhandled line hmem)
            have hkeyboard : Served fs (Board.keyboard { b with
                pics := Pics.raiseAll during (b.pics.acknowledge line) }) e := h
            obtain ⟨b', hrun, htyped⟩ := hkeyboard.runIsr hisr status hline'
            have hrunning' : b'.running = true :=
              (runIsr_serves hisr hrun).running_eq.trans hrunning
            have hkey : (Occurrence.interrupt status data during).key l =
                if line = .primary 1 then [data] else [] := by
              rw [Occurrence.key, hpending]
              simp only [Option.some.injEq]
            refine ⟨{ b' with served := b'.served ++ [line] }, ?_, hrunning', hkey ▸ htyped⟩
            simp only [Board.deliver, hidt, hpics, dispatch_line idtAddr haddress, hisr]
            simp only [hpics, hidt, Option.getD_some] at hrun ⊢
            rw [hrun]
            exact congrArg Except.ok (if_pos hrunning')
  · exact absurd (hrunning.symm.trans hstopped) (by decide)

theorem keysOf_append (scancodes later : List UInt8) (m : Modifiers) :
    keysOf m (scancodes ++ later) =
      keysOf m scancodes ++ keysOf (scancodes.foldl Modifiers.after m) later := by
  induction scancodes generalizing m with
  | nil => rfl
  | cons scancode scancodes ih =>
      rw [List.cons_append, keysOf, keysOf, ih, List.foldl_cons, List.append_assoc]

theorem board_runs_served (haddress : Function.Injective address) {fs : Fs} :
    ∀ (occurrences : List Occurrence) {b : Board Machine} {l : Lines Line} {e : LineEditor UInt8},
    Served fs b.keyboard e → Follows (installedIdt idtAddr address) b l → b.running = true →
    (∀ line ∈ (l.after Pics.order (linesOf occurrences)).taken, lineIsr line ≠ none) →
    (∀ line ∈ (LineEditor.pressAll 255 osCommands e
        (keysOf b.keyboard.modifiers (keysTaken occurrences l))).submitted, Deviceless line) →
    ∃ b', runs (Board.step args (handlers args stack device) address) occurrences b = .ok b' ∧
      b'.running = true ∧ Served fs b'.keyboard (LineEditor.pressAll 255 osCommands e
        (keysOf b.keyboard.modifiers (keysTaken occurrences l)))
  | [], b, _, _, h, _, hrunning, _, _ => ⟨b, rfl, hrunning, h⟩
  | occurrence :: occurrences, b, l, e, h, hfollows, hrunning, hhandled, hlines => by
      have hrest : l.after Pics.order (linesOf (occurrence :: occurrences)) =
          (l.after Pics.order occurrence.lines).after Pics.order (linesOf occurrences) := by
        rw [linesOf, List.flatMap_cons]
        exact List.foldl_append
      rw [hrest] at hhandled
      have hfirst : ∀ line ∈ (l.after Pics.order occurrence.lines).taken, lineIsr line ≠ none :=
        fun line hline => hhandled line ((taken_isPrefix_after _ _).subset hline)
      have hkeys : LineEditor.pressAll 255 osCommands e
          (keysOf b.keyboard.modifiers (keysTaken (occurrence :: occurrences) l)) =
          LineEditor.pressAll 255 osCommands (LineEditor.pressAll 255 osCommands e
            (keysOf b.keyboard.modifiers (occurrence.key l)))
            (keysOf ((occurrence.key l).foldl Modifiers.after b.keyboard.modifiers)
              (keysTaken occurrences (l.after Pics.order occurrence.lines))) := by
        rw [keysTaken, keysOf_append]
        exact List.foldl_append
      rw [hkeys] at hlines ⊢
      have hline : ∀ data ∈ occurrence.key l,
          keyOf b.keyboard.modifiers data = some .enter → Deviceless e.line := by
        intro data hdata henter
        refine hlines e.line ((submitted_isPrefix _ _).subset ?_)
        cases occurrence with
        | raise line => cases hdata
        | interrupt status data' during =>
            rw [Occurrence.key] at hdata ⊢
            split at hdata
            · next hnext =>
                obtain rfl := List.mem_singleton.mp hdata
                rw [if_pos hnext, keysOf, keysOf, henter]
                exact List.mem_append_right _ (List.mem_singleton_self _)
            · cases hdata
      obtain ⟨b1, hstep, hrunning1, htyped⟩ :=
        h.step haddress hfollows hrunning hfirst hline
      rw [← htyped.modifiers_eq] at hlines ⊢
      obtain ⟨b', hrun, hrunning', hserved⟩ := board_runs_served haddress occurrences htyped.served
        (hfollows.step haddress hstep) hrunning1 hhandled hlines
      exact ⟨b', (runs_cons_ok hstep).trans hrun, hrunning', hserved⟩

end

/-! ## Results -/

/-- A key, a tick, and a movement of the mouse while the key is served. -/
def keyAmongOthers : List Occurrence :=
  [.raise (.primary 1), .raise (.primary 0), .interrupt 0x14 0x1E [],
    .interrupt 0x14 0x1E [.secondary 4], .interrupt 0x34 0x08 []]

/-- Controllers as the firmware may leave them. -/
def strayPic : Pic := ⟨fun _ => true, fun _ => true, fun _ => true, 0x08, 0, true, .ready⟩

theorem keyAmongOthers_runs :
    ∃ b, runs (Board.step (fun _ => 0) (handlers (fun _ => 0) (fun _ => Buffer.zeros 10)
        fun _ => .ok) linkedAddress) keyAmongOthers
        (bootBoard ⟨strayPic, strayPic⟩ 0x8000 linkedAddress (bootKeyboard blankShell)
          bootMouse) = .ok b ∧ b.running = true := by
  have hboot : Served blankFs (bootKeyboard blankShell) .empty :=
    ⟨tracks_boot blankShell, rfl, formatted_blankFs.wellFormed, formatted_blankFs.shortSizes⟩
  obtain ⟨b, hrun, hrunning, -⟩ := board_runs_served linkedAddress_injective keyAmongOthers hboot
    (follows_boot ⟨strayPic, strayPic⟩ 0x8000 linkedAddress (bootKeyboard blankShell) bootMouse)
    rfl (by decide) (by decide)
  exact ⟨b, hrun, hrunning⟩

section

variable {args : Nat → Int32} {handler : Text → Handler σ} {idtAddr : UInt32}
  {address : Isr → UInt32} {pics : Pics} {keyboard : Keyboard σ} {mouse : Mouse}
  {occurrences : List Occurrence}

/-- **Interrupts are served by priority.** From whatever state the controllers were in, the lines
are served in the order in which priority takes them, and the timer counts its own. The machine
is running just as long as they all have handlers, and then nothing is in service; it stops
before the first one without. -/
theorem interrupts_inOrder (haddress : Function.Injective address) {b : Board σ}
    (hrun : runs (Board.step args handler address) occurrences
      (bootBoard pics idtAddr address keyboard mouse) = .ok b) :
    let l := Lines.none.after Pics.order (linesOf occurrences)
    (b.running = true ↔ ∀ line ∈ l.taken, lineIsr line ≠ none) ∧
      (b.running = true → b.served = l.taken ∧ b.pics = Pics.waiting 0x20 0x28 l.pending) ∧
      (b.running = false → ∃ line, lineIsr line = none ∧ b.served ++ [line] <+: l.taken) ∧
      (∀ line ∈ b.served, lineIsr line ≠ none) ∧
      b.timerTicks = UInt32.ofNat (b.served.count (.primary 0)) := by
  intro l
  have h : Follows (installedIdt idtAddr address) b l :=
    Follows.runs haddress occurrences (follows_boot pics idtAddr address keyboard mouse) hrun
  rcases h.state with ⟨hrunning, -, hserved, hpics⟩ | ⟨hstopped, line, hline, hprefix⟩
  · have hall : ∀ line ∈ l.taken, lineIsr line ≠ none := hserved ▸ h.handled
    exact ⟨⟨fun _ => hall, fun _ => hrunning⟩, fun _ => ⟨hserved, hpics⟩,
      fun hfalse => absurd (hrunning.symm.trans hfalse) (by decide), h.handled, h.ticks⟩
  · have hnot : b.running ≠ true := by
      rw [hstopped]
      exact Bool.false_ne_true
    have hmem : line ∈ l.taken := hprefix.subset (List.mem_append_right _ List.mem_cons_self)
    exact ⟨⟨fun htrue => absurd htrue hnot, fun hall => absurd hline (hall line hmem)⟩,
      fun htrue => absurd htrue hnot, fun _ => ⟨line, hline, hprefix⟩, h.handled, h.ticks⟩

end

theorem interrupts_inOrder_keyAmongOthers :
    let l := Lines.none.after Pics.order (linesOf keyAmongOthers)
    ∃ b, runs (Board.step (fun _ => 0) (handlers (fun _ => 0) (fun _ => Buffer.zeros 10)
        fun _ => .ok) linkedAddress) keyAmongOthers
        (bootBoard ⟨strayPic, strayPic⟩ 0x8000 linkedAddress (bootKeyboard blankShell)
          bootMouse) = .ok b ∧
      (b.running = true ↔ ∀ line ∈ l.taken, lineIsr line ≠ none) ∧
      (b.running = true → b.served = l.taken ∧ b.pics = Pics.waiting 0x20 0x28 l.pending) ∧
      (b.running = false → ∃ line, lineIsr line = none ∧ b.served ++ [line] <+: l.taken) ∧
      (∀ line ∈ b.served, lineIsr line ≠ none) ∧
      b.timerTicks = UInt32.ofNat (b.served.count (.primary 0)) := by
  obtain ⟨b, hrun, -⟩ := keyAmongOthers_runs
  exact ⟨b, hrun, interrupts_inOrder linkedAddress_injective hrun⟩

example : (Lines.none.after Pics.order (linesOf keyAmongOthers)).taken =
    [.primary 0, .primary 1, .secondary 4] := by decide

section

variable {args : Nat → Int32} {handler : Text → Handler σ} {idtAddr : UInt32}
  {address : Isr → UInt32} {pics : Pics} {keyboard : Keyboard σ} {mouse : Mouse}

/-- **No line is left waiting.** A line that is raised is served as soon as the processor has
looked once more than there are more important lines pending, if no such line is raised
meanwhile and the machine goes on running. -/
theorem raised_served (haddress : Function.Injective address) {before after : List Occurrence}
    {b b' : Board σ}
    (hbefore : runs (Board.step args handler address) before
      (bootBoard pics idtAddr address keyboard mouse) = .ok b)
    (hafter : runs (Board.step args handler address) after b = .ok b')
    (hrunning : b'.running = true) (line : Line) (hraised : b.pics.requested line = true)
    (hbehind : ∀ event ∈ linesOf after, Lines.Behind Pics.order line event)
    (hcount : (Pics.order.takeWhile (· ≠ line)).countP b.pics.requested <
      after.countP Occurrence.looks) :
    ∃ earlier occurrence later b1, after = earlier ++ occurrence :: later ∧
      occurrence.looks = true ∧
      runs (Board.step args handler address) earlier b = .ok b1 ∧
      b1.pics.pending = some line ∧ b1.served ++ [line] <+: b'.served := by
  have h := Follows.runs haddress before
    (follows_boot pics idtAddr address keyboard mouse) hbefore
  generalize Lines.none.after Pics.order (linesOf before) = l at h
  have hpics : b.pics = Pics.waiting 0x20 0x28 l.pending := by
    rcases h.state with ⟨-, -, -, hpics⟩ | ⟨hstopped, -⟩
    · exact hpics
    · have hb := running_of_runs hafter hrunning
      exact absurd (hb.symm.trans hstopped) (by decide)
  have hline : line ≠ .primary 2 := by
    rintro rfl
    rw [hpics] at hraised
    exact Bool.false_ne_true hraised
  have hpending : l.pending line = true := by
    rwa [hpics, Pics.requested_waiting hline] at hraised
  have hahead : l.ahead Pics.order line ≤ (linesOf after).countP Lines.isTake := by
    have hsame : ∀ other ∈ Pics.order.takeWhile (· ≠ line),
        (b.pics.requested other = true ↔ l.pending other = true) := by
      intro other hother
      have hmem := (List.takeWhile_sublist _).subset hother
      rw [hpics, Pics.requested_waiting (Pics.ne_two_of_mem_order hmem)]
    rw [List.countP_congr hsame] at hcount
    rw [countP_linesOf]
    exact hcount
  obtain ⟨taken, rest, hsplit, hnext⟩ :=
    Lines.taken_of_pending (Pics.mem_order hline) hpending hbehind hahead
  obtain ⟨earlier, occurrence, later, rfl, hlooks, rfl, hlater⟩ := linesOf_split hsplit
  obtain ⟨b1, hrun1, hrun2⟩ := runs_append_eq_ok hafter
  have h1 := Follows.runs haddress earlier h hrun1
  have h2 := Follows.runs haddress _ h1 hrun2
  rcases h1.state with ⟨-, -, hserved1, hpics1⟩ | ⟨hstopped, -⟩
  · refine ⟨earlier, occurrence, later, b1, rfl, hlooks, hrun1, ?_, ?_⟩
    · rw [hpics1, Pics.pending_waiting]
      exact hnext
    · rcases h2.state with ⟨-, -, hserved2, -⟩ | ⟨hstopped, -⟩
      · rw [hserved1, hserved2, hlater]
        refine List.IsPrefix.trans ?_ (taken_isPrefix_after rest _)
        show _ <+: (Lines.take _ _).taken
        rw [Lines.take, hnext]
      · exact absurd (hrunning.symm.trans hstopped) (by decide)
  · have hb := running_of_runs hrun2 hrunning
    exact absurd (hb.symm.trans hstopped) (by decide)

end

/-- The key, with the tick before it. -/
theorem raised_served_keyAmongOthers :
    let step := Board.step (fun _ => 0) (handlers (fun _ => 0) (fun _ => Buffer.zeros 10)
      fun _ => .ok) linkedAddress
    ∃ b b', runs step (keyAmongOthers.take 2) (bootBoard ⟨strayPic, strayPic⟩ 0x8000
        linkedAddress (bootKeyboard blankShell) bootMouse) = .ok b ∧
      runs step (keyAmongOthers.drop 2) b = .ok b' ∧
      ∃ earlier occurrence later b1, keyAmongOthers.drop 2 = earlier ++ occurrence :: later ∧
        occurrence.looks = true ∧ runs step earlier b = .ok b1 ∧
        b1.pics.pending = some (.primary 1) ∧ b1.served ++ [.primary 1] <+: b'.served := by
  obtain ⟨b', hrun, hrunning⟩ := keyAmongOthers_runs
  obtain ⟨b, hbefore, hafter⟩ := runs_append_eq_ok
    (show runs _ (keyAmongOthers.take 2 ++ keyAmongOthers.drop 2) _ = _ from hrun)
  refine ⟨b, b', hbefore, hafter, ?_⟩
  have hb := hbefore
  cases hb
  exact raised_served linkedAddress_injective hbefore hafter hrunning (.primary 1) rfl
    (by decide) (by decide)

/-- **Typing among interrupts.** From boot with a formatted volume, as long as only lines with
handlers are taken and no submitted line names a command of `deviceCommands` or makes the dummy,
the machine keeps running whatever interrupts come in which order, and the volume is the
well-formed one that the submitted lines make. -/
theorem interrupts_volume (args : Nat → Int32) (stack : Slot → Buffer 10)
    (device : Text → Handler Machine) (shell : Shell Machine) (hfs : Formatted shell.world.fs)
    (pics : Pics) (idtAddr : UInt32) {address : Isr → UInt32}
    (haddress : Function.Injective address) (mouse : Mouse) (occurrences : List Occurrence)
    (hhandled : ∀ line ∈ (Lines.none.after Pics.order (linesOf occurrences)).taken,
      lineIsr line ≠ none)
    (hlines : ∀ line ∈ submittedBy (keysTaken occurrences Lines.none), Deviceless line) :
    ∃ b, runs (Board.step args (handlers args stack device) address) occurrences
        (bootBoard pics idtAddr address (bootKeyboard shell) mouse) = .ok b ∧
      b.running = true ∧
      runs exec ((submittedBy (keysTaken occurrences Lines.none)).filterMap callOf)
        shell.world.fs = .ok b.keyboard.shell.world.fs ∧
      WellFormed b.keyboard.shell.world.fs := by
  have hboot : Served shell.world.fs (bootKeyboard shell) .empty :=
    ⟨tracks_boot shell, rfl, hfs.wellFormed, hfs.shortSizes⟩
  obtain ⟨b, hrun, hrunning, hserved⟩ := board_runs_served haddress occurrences hboot
    (follows_boot pics idtAddr address (bootKeyboard shell) mouse) rfl hhandled hlines
  exact ⟨b, hrun, hrunning, hserved.calls, hserved.listable.wellFormed⟩

theorem interrupts_volume_keyAmongOthers :
    ∃ b, runs (Board.step (fun _ => 0) (handlers (fun _ => 0) (fun _ => Buffer.zeros 10)
        fun _ => .ok) linkedAddress) keyAmongOthers
        (bootBoard ⟨strayPic, strayPic⟩ 0x8000 linkedAddress (bootKeyboard blankShell)
          bootMouse) = .ok b ∧
      b.running = true ∧
      runs exec ((submittedBy (keysTaken keyAmongOthers Lines.none)).filterMap callOf)
        blankFs = .ok b.keyboard.shell.world.fs ∧
      WellFormed b.keyboard.shell.world.fs :=
  interrupts_volume (fun _ => 0) (fun _ => Buffer.zeros 10) (fun _ => .ok) blankShell
    formatted_blankFs ⟨strayPic, strayPic⟩ 0x8000 linkedAddress_injective bootMouse
    keyAmongOthers (by decide) (by decide)

end FirstKernel
