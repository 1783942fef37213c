import FirstKernel.KeyboardLine

/-!
# Letter case and the keys that are held

A key sends its scancode when it goes down and the scancode with the top
bit when it comes up. `shift_pressed` and `caps_locks` are what the
handler remembers of that (`modifiers_of_events`): whether the last of
the shift keys to move went down, and whether caps lock went down an odd
number of times. The first is not whether a shift key is held: when one
of two held shift keys comes up, the flag is cleared (`Overlapped`).
-/

namespace FirstKernel

structure KeyEvent where
  key : UInt8
  pressed : Bool
  isKey : key < 0x80

namespace KeyEvent

/-- The make code of the key, or its break code. -/
def scancode (e : KeyEvent) : UInt8 := if e.pressed then e.key else e.key + 0x80

theorem toNat_scancode (e : KeyEvent) :
    e.scancode.toNat = if e.pressed then e.key.toNat else e.key.toNat + 128 := by
  have hlt : e.key.toNat < 128 := UInt8.lt_iff_toNat_lt.mp e.isKey
  rw [scancode]
  cases e.pressed with
  | true => rfl
  | false =>
      have htop : (0x80 : UInt8).toNat = 128 := rfl
      show (e.key + 0x80).toNat = e.key.toNat + 128
      rw [UInt8.toNat_add, htop]
      omega

theorem scancode_eq_make (e : KeyEvent) {c : UInt8} (hc : c.toNat < 128) :
    e.scancode = c ↔ e.key = c ∧ e.pressed = true := by
  rw [← UInt8.toNat_inj, ← UInt8.toNat_inj, toNat_scancode]
  cases e.pressed with
  | true => simp
  | false => simp; omega

theorem scancode_eq_break (e : KeyEvent) {c b : UInt8} (hb : b.toNat = c.toNat + 128) :
    e.scancode = b ↔ e.key = c ∧ e.pressed = false := by
  have hlt : e.key.toNat < 128 := UInt8.lt_iff_toNat_lt.mp e.isKey
  rw [← UInt8.toNat_inj, ← UInt8.toNat_inj, toNat_scancode, hb]
  cases e.pressed with
  | true => simp; omega
  | false => simp

end KeyEvent

/-! ## What is held -/

/-- Whether the last event of these keys was a press, if they had one. -/
def lastOf (keys : List UInt8) (events : List KeyEvent) : Option Bool :=
  ((events.filter fun e => e.key ∈ keys).getLast?).map KeyEvent.pressed

def held (key : UInt8) (events : List KeyEvent) : Bool := decide (lastOf [key] events = some true)

def shiftHeld (events : List KeyEvent) : Bool := held 0x2A events || held 0x36 events

/-- Caps lock has gone down an odd number of times. -/
def capsOn (events : List KeyEvent) : Bool :=
  decide ((events.countP fun e => e.key = 0x3A ∧ e.pressed) % 2 = 1)

/-- A shift key is held, and the other one came up after it had gone down. -/
def Overlapped (events : List KeyEvent) : Prop :=
  shiftHeld events = true ∧ lastOf [0x2A, 0x36] events = some false

/-! ## Characters -/

def isLetter (key : UInt8) : Bool :=
  let letterNormal := scancodeToChar.getD key.toNat 0
  decide (charValue 0x61 ≤ charValue letterNormal ∧ charValue letterNormal ≤ charValue 0x7A)

def tableChar (shifted : Bool) (key : UInt8) : UInt8 :=
  if shifted then scancodeToCharShift.getD key.toNat 0 else scancodeToChar.getD key.toNat 0

/-- Whether the character of a key should be the shifted one. -/
def shifted (events : List KeyEvent) (key : UInt8) : Bool :=
  if isLetter key then shiftHeld events ^^ capsOn events else shiftHeld events

/-- A key that the handler looks up in its tables. -/
def Typed (key : UInt8) : Prop := key ≤ 57 ∧ key ∉ [(0x0F : UInt8), 0x2A, 0x36]

theorem finalChar_eq (shift caps : Bool) (key : UInt8) :
    finalChar shift caps key =
      tableChar (if isLetter key then shift ^^ caps else shift) key := by
  have hfinal : finalChar shift caps key =
      if caps && isLetter key then tableChar (!shift) key else tableChar shift key := by
    cases shift <;> rfl
  rw [hfinal]
  cases shift <;> cases caps <;> cases isLetter key <;> rfl

variable {σ : Type}

theorem keyboardHandler_typed (args : Nat → Int32) (handler : Text → Handler σ) {key : UInt8}
    (h : Typed key) (k : Keyboard σ) :
    keyboardHandler args handler key k =
      (typeChar args handler (finalChar k.shiftPressed k.capsLocks key) k).map
        Keyboard.endOfInterrupt := by
  obtain ⟨hle, hmem⟩ := h
  have hlt : key.toNat ≤ 57 := UInt8.le_iff_toNat_le.mp hle
  have hne : ∀ c : UInt8, 57 < c.toNat → key ≠ c := fun c hc heq => by
    rw [heq] at hlt
    omega
  simp only [List.mem_cons, List.not_mem_nil, or_false, not_or] at hmem
  rw [keyboardHandler, if_neg hmem.1, if_neg fun h => hne 0x48 (by decide) h.1,
    if_neg (not_or.mpr hmem.2),
    if_neg (not_or.mpr ⟨hne 0xAA (by decide), hne 0xB6 (by decide)⟩),
    if_neg (hne 0x3A (by decide)), if_pos hle]

/-- At each press of a key of the tables, whatever the commands do, the character is the one
that the keys held before ask for. -/
def CaseFollows (events : List KeyEvent) : Prop :=
  ∀ {σ : Type} (args : Nat → Int32) (handler : Text → Handler σ) (shell : Shell σ)
    (pre : List KeyEvent) (e : KeyEvent) (k : Keyboard σ), pre ++ [e] <+: events →
    runs (keyboardHandler args handler) (pre.map KeyEvent.scancode) (bootKeyboard shell) = .ok k →
    e.pressed = true → Typed e.key →
      finalChar k.shiftPressed k.capsLocks e.scancode = tableChar (shifted pre e.key) e.key

/-! ## The flags -/

theorem lastOf_append_singleton (keys : List UInt8) (events : List KeyEvent) (e : KeyEvent) :
    lastOf keys (events ++ [e]) =
      if e.key ∈ keys then some e.pressed else lastOf keys events := by
  rw [lastOf, List.filter_append]
  by_cases hmem : e.key ∈ keys
  · rw [if_pos hmem, List.filter_singleton, decide_eq_true hmem]
    simp
  · rw [if_neg hmem, List.filter_singleton, decide_eq_false hmem]
    simp [lastOf]

theorem capsOn_append_singleton (events : List KeyEvent) (e : KeyEvent) :
    capsOn (events ++ [e]) =
      if e.key = 0x3A ∧ e.pressed = true then !capsOn events else capsOn events := by
  rw [capsOn, capsOn, List.countP_append, List.countP_singleton]
  by_cases hcaps : e.key = 0x3A ∧ e.pressed = true
  · rw [if_pos hcaps, if_pos (decide_eq_true hcaps), ← decide_not, decide_eq_decide]
    omega
  · rw [if_neg hcaps, if_neg (by simpa using hcaps), Nat.add_zero]

/-- What the handler remembers after an event. -/
theorem after_scancode (m : Modifiers) (e : KeyEvent) :
    m.after e.scancode =
      if e.key ∈ [(0x2A : UInt8), 0x36] then { m with shift := e.pressed }
      else if e.key = 0x3A ∧ e.pressed = true then { m with caps := !m.caps }
      else m := by
  have hshift : e.key ∈ [(0x2A : UInt8), 0x36] ↔ e.key = 0x2A ∨ e.key = 0x36 := by
    rw [List.mem_pair]
  have hmake : (e.scancode = 0x2A ∨ e.scancode = 0x36) ↔
      (e.key = 0x2A ∨ e.key = 0x36) ∧ e.pressed = true := by
    rw [e.scancode_eq_make (by decide), e.scancode_eq_make (by decide), or_and_right]
  have hbreak : (e.scancode = 0xAA ∨ e.scancode = 0xB6) ↔
      (e.key = 0x2A ∨ e.key = 0x36) ∧ e.pressed = false := by
    rw [e.scancode_eq_break (c := 0x2A) (by decide), e.scancode_eq_break (c := 0x36) (by decide),
      or_and_right]
  have hcaps : e.scancode = 0x3A ↔ e.key = 0x3A ∧ e.pressed = true :=
    e.scancode_eq_make (by decide)
  simp only [Modifiers.after, hshift, hmake, hbreak, hcaps]
  by_cases hkey : e.key = 0x2A ∨ e.key = 0x36
  · cases hpressed : e.pressed <;> simp [hkey]
  · simp [hkey]

/-- The flags after any events. -/
theorem foldl_after (events : List KeyEvent) :
    (events.map KeyEvent.scancode).foldl Modifiers.after ⟨false, false⟩ =
      ⟨decide (lastOf [0x2A, 0x36] events = some true), capsOn events⟩ := by
  induction events using List.reverseRecOn with
  | nil => rfl
  | append_singleton events e ih =>
      rw [List.map_append, List.foldl_append, ih, List.map_singleton, List.foldl_cons,
        List.foldl_nil, after_scancode, lastOf_append_singleton, capsOn_append_singleton]
      by_cases hshift : e.key ∈ [(0x2A : UInt8), 0x36]
      · have hcaps : ¬(e.key = 0x3A ∧ e.pressed = true) := fun h => by
          rw [h.1] at hshift
          exact absurd hshift (by decide)
        rw [if_pos hshift, if_pos hshift, if_neg hcaps]
        simp
      · rw [if_neg hshift, if_neg hshift]
        by_cases hcaps : e.key = 0x3A ∧ e.pressed = true
        · rw [if_pos hcaps, if_pos hcaps]
        · rw [if_neg hcaps, if_neg hcaps]

theorem modifiers_of_runs {args : Nat → Int32} {handler : Text → Handler σ} :
    ∀ (scancodes : List UInt8) {k k' : Keyboard σ} {e : LineEditor UInt8}, Tracks k e →
      runs (keyboardHandler args handler) scancodes k = .ok k' →
      k'.modifiers = scancodes.foldl Modifiers.after k.modifiers
  | [], _, _, _, _, hrun => by
      cases hrun
      rfl
  | scancode :: scancodes, k, k', e, h, hrun => by
      obtain ⟨k1, hk1, hrest⟩ := runs_cons_eq_ok hrun
      have hhandles := (outcome_keyboardHandler args handler h scancode).handles hk1
      rw [modifiers_of_runs scancodes hhandles.tracks hrest, hhandles.modifiers_eq,
        List.foldl_cons]

/-- **The flags follow the events**: the last event of a shift key, and the presses of caps
lock. -/
theorem modifiers_of_events {args : Nat → Int32} {handler : Text → Handler σ}
    {shell : Shell σ} {events : List KeyEvent} {k : Keyboard σ}
    (hrun : runs (keyboardHandler args handler) (events.map KeyEvent.scancode)
      (bootKeyboard shell) = .ok k) :
    k.shiftPressed = decide (lastOf [0x2A, 0x36] events = some true) ∧
      k.capsLocks = capsOn events := by
  have hmods := (modifiers_of_runs _ (tracks_boot shell) hrun).trans (foldl_after events)
  exact ⟨congrArg Modifiers.shift hmods, congrArg Modifiers.caps hmods⟩

/-! ## Shift keys that overlap -/

/-- The last event of the shift keys is the last event of one of the two. -/
theorem lastOf_pair (events : List KeyEvent) :
    lastOf [0x2A, 0x36] events = lastOf [0x2A] events ∨
      lastOf [0x2A, 0x36] events = lastOf [0x36] events := by
  induction events using List.reverseRecOn with
  | nil => exact Or.inl rfl
  | append_singleton events e ih =>
      simp only [lastOf_append_singleton, List.mem_cons, List.not_mem_nil, or_false]
      by_cases hleft : e.key = 0x2A
      · rw [if_pos (Or.inl hleft), if_pos hleft]
        exact Or.inl rfl
      · by_cases hright : e.key = 0x36
        · rw [if_pos (Or.inr hright), if_pos hright]
          exact Or.inr rfl
        · rw [if_neg (not_or.mpr ⟨hleft, hright⟩), if_neg hleft, if_neg hright]
          exact ih

theorem lastOf_eq_none_iff {keys : List UInt8} {events : List KeyEvent} :
    lastOf keys events = none ↔ ∀ e ∈ events, e.key ∉ keys := by
  rw [lastOf, Option.map_eq_none_iff, List.getLast?_eq_none_iff, List.filter_eq_nil_iff]
  simp only [decide_eq_true_eq]

theorem shiftHeld_iff (events : List KeyEvent) :
    shiftHeld events = true ↔
      lastOf [0x2A] events = some true ∨ lastOf [0x36] events = some true := by
  rw [shiftHeld, held, held, Bool.or_eq_true, decide_eq_true_iff, decide_eq_true_iff]

/-- The flag says whether a shift key is held, unless their holds have overlapped. -/
theorem flag_eq_shiftHeld_iff (events : List KeyEvent) :
    decide (lastOf [0x2A, 0x36] events = some true) = shiftHeld events ↔
      ¬Overlapped events := by
  rw [Overlapped, Bool.eq_iff_iff, decide_eq_true_iff]
  cases hlast : lastOf [0x2A, 0x36] events with
  | none =>
      have hnone := lastOf_eq_none_iff.mp hlast
      have hleft : lastOf [0x2A] events = none := lastOf_eq_none_iff.mpr fun e he hmem =>
        hnone e he (List.mem_cons.mpr (Or.inl (List.mem_singleton.mp hmem)))
      have hright : lastOf [0x36] events = none := lastOf_eq_none_iff.mpr fun e he hmem =>
        hnone e he (List.mem_cons_of_mem _ hmem)
      simp [shiftHeld_iff, hleft, hright]
  | some pressed =>
      cases pressed with
      | false => simp
      | true =>
          have hheld : shiftHeld events = true := by
            rw [shiftHeld_iff, ← hlast]
            exact (lastOf_pair events).imp Eq.symm Eq.symm
          simp [hheld]

theorem tableChar_eq_iff (letter shift shift' caps : Bool) (key : UInt8) :
    tableChar (if letter then shift ^^ caps else shift) key =
        tableChar (if letter then shift' ^^ caps else shift') key ↔
      tableChar false key ≠ tableChar true key → shift = shift' := by
  cases letter <;> cases shift <;> cases shift' <;> cases caps <;>
    simp [eq_comm (a := tableChar true key)]

/-- The character of a key that goes down is the right one, unless the key has two and the
holds have overlapped. -/
theorem finalChar_eq_iff (pre : List KeyEvent) {e : KeyEvent} (hpressed : e.pressed = true) :
    finalChar (decide (lastOf [0x2A, 0x36] pre = some true)) (capsOn pre) e.scancode =
        tableChar (shifted pre e.key) e.key ↔
      (tableChar false e.key ≠ tableChar true e.key → ¬Overlapped pre) := by
  rw [KeyEvent.scancode, if_pos hpressed, finalChar_eq, shifted, tableChar_eq_iff,
    flag_eq_shiftHeld_iff]

/-- The handler gets to every event where the commands do nothing. -/
theorem CaseFollows.not_overlapped {events pre : List KeyEvent} {e : KeyEvent}
    (h : CaseFollows events) (hpre : pre ++ [e] <+: events) (hpressed : e.pressed = true)
    (htyped : Typed e.key) (htwo : tableChar false e.key ≠ tableChar true e.key) :
    ¬Overlapped pre := by
  obtain ⟨k, hrun⟩ := runs_ok (fun _ => 0) (fun _ s => ⟨s, rfl⟩) (pre.map KeyEvent.scancode)
    (tracks_boot ⟨fun _ => 0, none, bootScreen, ()⟩)
  obtain ⟨hshift, hcaps⟩ := modifiers_of_events hrun
  have hfinal := h _ _ _ pre e k hpre hrun hpressed htyped
  rw [hshift, hcaps] at hfinal
  exact (finalChar_eq_iff pre hpressed).mp hfinal htwo

/-- **Letter case follows the keys held**, in the sequences of events in which no key with two
characters goes down while the holds of the shift keys have overlapped. -/
theorem caseFollows_iff (events : List KeyEvent) :
    CaseFollows events ↔
      ∀ pre e, pre ++ [e] <+: events → e.pressed = true → Typed e.key →
        tableChar false e.key ≠ tableChar true e.key → ¬Overlapped pre := by
  refine ⟨fun h pre e => h.not_overlapped, fun h σ args handler shell pre e k hpre hrun => ?_⟩
  intro hpressed htyped
  obtain ⟨hshift, hcaps⟩ := modifiers_of_events hrun
  rw [hshift, hcaps]
  exact (finalChar_eq_iff pre hpressed).mpr (h pre e hpre hpressed htyped)

/-- Both shift keys go down, and the right one comes up. -/
def overlappingShifts : List KeyEvent :=
  [⟨0x2A, true, by decide⟩, ⟨0x36, true, by decide⟩, ⟨0x36, false, by decide⟩]

def pressA : KeyEvent := ⟨0x1E, true, by decide⟩

/-- The letter that goes down while the left shift key is held is a small one. -/
theorem not_caseFollows_pressA : ¬CaseFollows (overlappingShifts ++ [pressA]) := fun h =>
  h.not_overlapped (List.prefix_refl _) rfl ⟨by decide, by decide⟩ (by decide +kernel)
    ⟨by decide, by decide⟩

end FirstKernel
