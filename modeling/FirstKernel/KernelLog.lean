import FirstKernel.RingLog
import FirstKernel.Screen

/-!
# Replaying the kernel log

`klog_buffer`, `klog_index` and `klog_wrapped` are a `RingLog`
(`Screen.klog`), and `log_char` is its `push`. What `dump_kernel_log`
prints between its two lines is the `scan` of that ring
(`dumpKernelLog_spec`), and it leaves the ring alone. So the dump
replays the log as long as the index stands on the first cell once the
ring has wrapped, which is a matter of how many characters were printed
(`dumpKernelLog_replays_iff`).
-/

namespace FirstKernel

def Screen.klog (s : Screen) : RingLog UInt8 4096 :=
  ⟨s.klogBuffer, s.klogIndex, s.klogWrapped⟩

/-- The two states differ in the cursor and the frame buffer only. -/
structure SameLog (s s' : Screen) : Prop where
  klog_eq : s'.klog = s.klog
  dmesg_eq : s'.dmesgActive = s.dmesgActive
  emitted_eq : s'.emitted = s.emitted

theorem SameLog.trans {s s' s'' : Screen} (h : SameLog s s') (h' : SameLog s' s'') :
    SameLog s s'' :=
  ⟨h'.klog_eq.trans h.klog_eq, h'.dmesg_eq.trans h.dmesg_eq,
    h'.emitted_eq.trans h.emitted_eq⟩

theorem sameLog_backspaceOnScreen (s : Screen) : SameLog s (backspaceOnScreen s) := by
  unfold backspaceOnScreen
  simp only
  by_cases hcol : 0 < s.currentCol
  · simp only [if_pos hcol]
    exact ⟨rfl, rfl, rfl⟩
  · by_cases hrow : 0 < s.currentRow
    · simp only [if_neg hcol, if_pos hrow]
      exact ⟨rfl, rfl, rfl⟩
    · simp only [if_neg hcol, if_neg hrow]
      exact ⟨rfl, rfl, rfl⟩

theorem sameLog_placeChar (c : UInt8) (s : Screen) : SameLog s (placeChar c s) := by
  unfold placeChar
  split
  · exact ⟨rfl, rfl, rfl⟩
  · split
    · exact sameLog_backspaceOnScreen s
    · simp only
      split <;> exact ⟨rfl, rfl, rfl⟩

theorem sameLog_scrollScreen (s : Screen) : SameLog s (scrollScreen s) := by
  unfold scrollScreen
  split <;> exact ⟨rfl, rfl, rfl⟩

theorem klog_logChar (c : UInt8) (s : Screen) :
    (logChar c s).klog = if s.dmesgActive then s.klog else s.klog.push c := by
  unfold logChar
  split <;> rfl

theorem logChar_dmesgActive (c : UInt8) (s : Screen) :
    (logChar c s).dmesgActive = s.dmesgActive := by
  unfold logChar
  split <;> rfl

theorem logChar_emitted (c : UInt8) (s : Screen) : (logChar c s).emitted = s.emitted := by
  unfold logChar
  split <;> rfl

/-- Drawing and scrolling come after the log entry and do not touch it. -/
theorem sameLog_printChar (c : UInt8) (s : Screen) :
    SameLog (logChar c { s with emitted := s.emitted ++ [c] }) (printChar c s) := by
  have hplace := sameLog_placeChar c (logChar c { s with emitted := s.emitted ++ [c] })
  unfold printChar
  simp only
  split
  · exact hplace.trans (sameLog_scrollScreen _)
  · exact hplace

/-! ## Printing -/

theorem printChars_cons (c : UInt8) (cs : Text) (s : Screen) :
    printChars (c :: cs) s = printChars cs (printChar c s) := rfl

theorem emitted_printChars : ∀ (cs : Text) (s : Screen),
    (printChars cs s).emitted = s.emitted ++ cs
  | [], s => (List.append_nil _).symm
  | c :: cs, s => by
      have hone : (printChar c s).emitted = s.emitted ++ [c] :=
        (sameLog_printChar c s).emitted_eq.trans (logChar_emitted ..)
      rw [printChars_cons, emitted_printChars cs, hone, List.append_assoc,
        List.singleton_append]

theorem dmesgActive_printChars : ∀ (cs : Text) (s : Screen),
    (printChars cs s).dmesgActive = s.dmesgActive
  | [], _ => rfl
  | c :: cs, s => by
      have hone : (printChar c s).dmesgActive = s.dmesgActive :=
        (sameLog_printChar c s).dmesg_eq.trans (logChar_dmesgActive ..)
      rw [printChars_cons, dmesgActive_printChars cs, hone]

theorem klog_printChars_of_active : ∀ (cs : Text) {s : Screen}, s.dmesgActive = true →
    (printChars cs s).klog = s.klog
  | [], _, _ => rfl
  | c :: cs, s, h => by
      have hone : (printChar c s).klog = s.klog := by
        rw [(sameLog_printChar c s).klog_eq, klog_logChar]
        exact if_pos h
      have hactive : (printChar c s).dmesgActive = true :=
        (dmesgActive_printChars [c] s).trans h
      rw [printChars_cons, klog_printChars_of_active cs hactive, hone]

theorem klog_printChars : ∀ (cs : Text) {s : Screen}, s.dmesgActive = false →
    (printChars cs s).klog = s.klog.pushAll cs
  | [], _, _ => rfl
  | c :: cs, s, h => by
      have hone : (printChar c s).klog = s.klog.push c := by
        rw [(sameLog_printChar c s).klog_eq, klog_logChar]
        exact if_neg (Bool.eq_false_iff.mp h)
      have hinactive : (printChar c s).dmesgActive = false :=
        (dmesgActive_printChars [c] s).trans h
      rw [printChars_cons, klog_printChars cs hinactive, hone]
      rfl

/-- A message without a percent sign is printed as it stands. -/
theorem formatted_of_not_mem : ∀ {message : Text} (args : Nat → Int32),
    (0x25 : UInt8) ∉ message → formatted message args = message
  | [], _, _ => rfl
  | [c], _, _ => rfl
  | c :: c' :: rest, args, h => by
      have hc : c ≠ 0x25 := fun heq => h (heq ▸ List.mem_cons_self ..)
      rw [formatted, if_neg fun hcc => hc hcc.1,
        formatted_of_not_mem args fun hmem => h (List.mem_cons_of_mem _ hmem)]

/-! ## The dump -/

/-- The state has been reached from `s` by printing `cs` while the log is closed. -/
structure Printed (s : Screen) (cs : Text) (s' : Screen) : Prop where
  klog_eq : s'.klog = s.klog
  active : s'.dmesgActive = true
  emitted_eq : s'.emitted = s.emitted ++ cs

theorem printed_printChars (cs : Text) {s : Screen} (h : s.dmesgActive = true) :
    Printed s cs (printChars cs s) :=
  ⟨klog_printChars_of_active cs h, (dmesgActive_printChars cs s).trans h,
    emitted_printChars cs s⟩

theorem Printed.trans {s s' s'' : Screen} {cs cs' : Text} (h : Printed s cs s')
    (h' : Printed s' cs' s'') : Printed s (cs ++ cs') s'' := by
  refine ⟨h'.klog_eq.trans h.klog_eq, h'.active, ?_⟩
  rw [h'.emitted_eq, h.emitted_eq, List.append_assoc]

/-- The two loops over `klog_buffer`. -/
def dumpRing (s : Screen) : Screen :=
  let s := if s.klogWrapped then printChars (List.ofFn s.klogBuffer) s else s
  printChars ((List.ofFn s.klogBuffer).take s.klogIndex.val) s

theorem printed_dumpRing {s : Screen} (h : s.dmesgActive = true) :
    Printed s s.klog.scan (dumpRing s) := by
  have hfirst : Printed s (if s.klogWrapped then s.klog.cells else [])
      (if s.klogWrapped then printChars (List.ofFn s.klogBuffer) s else s) := by
    by_cases hw : s.klogWrapped
    · simp only [if_pos hw]
      exact printed_printChars _ h
    · simp only [if_neg hw]
      exact ⟨rfl, h, (List.append_nil _).symm⟩
  have hnewest := congrArg RingLog.newest hfirst.klog_eq
  refine hfirst.trans ?_
  rw [← hnewest]
  exact printed_printChars _ hfirst.active

theorem dumpKernelLog_eq (args : Nat → Int32) (s : Screen) :
    dumpKernelLog args s =
      { printChars dumpFooter
          (dumpRing (printChars dumpHeader { s with dmesgActive := true })) with
        dmesgActive := false } := by
  have hheader : formatted dumpHeader args = dumpHeader :=
    formatted_of_not_mem args (by decide)
  have hfooter : formatted dumpFooter args = dumpFooter :=
    formatted_of_not_mem args (by decide)
  simp only [dumpKernelLog, printMessage, hheader, hfooter]
  rfl

/-- Everything the dump emits, while the log stays as it is. -/
theorem dumpKernelLog_spec (args : Nat → Int32) (s : Screen) :
    (dumpKernelLog args s).emitted
        = s.emitted ++ (dumpHeader ++ s.klog.scan ++ dumpFooter) ∧
      (dumpKernelLog args s).klog = s.klog := by
  have hclosed : Printed s [] { s with dmesgActive := true } :=
    ⟨rfl, rfl, (List.append_nil _).symm⟩
  have hheader := hclosed.trans (printed_printChars dumpHeader hclosed.active)
  have hring := hheader.trans (printed_dumpRing hheader.active)
  have hall := hring.trans (printed_printChars dumpFooter hring.active)
  rw [hheader.klog_eq, List.nil_append] at hall
  rw [dumpKernelLog_eq]
  generalize printChars dumpFooter
    (dumpRing (printChars dumpHeader { s with dmesgActive := true })) = s' at hall ⊢
  exact ⟨hall.emitted_eq, hall.klog_eq⟩

/-! ## When the dump replays the log -/

/-- The log at boot; the other fields are arbitrary. -/
structure Booted (s : Screen) : Prop where
  index_eq : s.klogIndex = 0
  not_wrapped : s.klogWrapped = false
  not_active : s.dmesgActive = false

/-- Between its two lines the dump emits the last 4096 characters of `chars`, and
it leaves the log and the flag as they were. -/
def Replays (args : Nat → Int32) (s : Screen) (chars : Text) : Prop :=
  (dumpKernelLog args s).emitted
      = s.emitted ++ (dumpHeader ++ chars.rtake 4096 ++ dumpFooter) ∧
    (dumpKernelLog args s).klog = s.klog ∧
    (dumpKernelLog args s).dmesgActive = s.dmesgActive

theorem Booted.empty {s : Screen} (h : Booted s) : s.klog.Empty where
  index_eq := by simp [Screen.klog, h.index_eq]
  not_wrapped := h.not_wrapped

theorem Booted.contents {s : Screen} (h : Booted s) (chars : Text) :
    (printChars chars s).klog.contents = chars.rtake 4096 := by
  rw [klog_printChars chars h.not_active, h.empty.contents_pushAll]

/-- The dump replays the characters exactly when the scan of the ring is the log. -/
theorem Booted.replays_iff_scan {boot : Screen} (hboot : Booted boot) (chars : Text)
    (args : Nat → Int32) :
    Replays args (printChars chars boot) chars ↔
      (4096 ≤ chars.length → chars.length % 4096 = 0) := by
  obtain ⟨hindex, hwrapped⟩ := hboot.empty.index_wrapped chars
  obtain ⟨hemitted, hklog⟩ := dumpKernelLog_spec args (printChars chars boot)
  have hflag : (dumpKernelLog args (printChars chars boot)).dmesgActive
      = (printChars chars boot).dmesgActive := by
    rw [dmesgActive_printChars, hboot.not_active, dumpKernelLog_eq]
  have hscan := (printChars chars boot).klog.scan_eq_contents_iff
  rw [klog_printChars chars hboot.not_active, hindex, hwrapped,
    ← klog_printChars chars hboot.not_active] at hscan
  rw [← hscan, Replays, hemitted, hboot.contents]
  simp only [List.append_cancel_left_eq, List.append_cancel_right_eq, hklog, hflag,
    and_self, and_true]

/-- **The dump is the log unless the ring is in the middle of a round.** -/
theorem dumpKernelLog_replays_iff {boot : Screen} (hboot : Booted boot) (chars : Text)
    (args : Nat → Int32) :
    Replays args (printChars chars boot) chars ↔
      chars.length < 4096 ∨ 4096 ∣ chars.length := by
  rw [hboot.replays_iff_scan, Nat.dvd_iff_mod_eq_zero]
  omega

/-- A screen at boot. -/
def bootScreen : Screen where
  vgaNull := false
  vgaMem _ := 0
  currentColor := 0x00FFFFFF
  currentCol := 0
  currentRow := 0
  klogBuffer _ := 0
  klogIndex := 0
  klogWrapped := false
  dmesgActive := false
  emitted := []

theorem booted_bootScreen : Booted bootScreen := ⟨rfl, rfl, rfl⟩

theorem dumpKernelLog_replays_hi :
    Replays (fun _ => 0) (printChars (text "hi") bootScreen) (text "hi") :=
  (dumpKernelLog_replays_iff booted_bootScreen (text "hi") _).mpr (Or.inl (by decide))

/-- After 4097 characters the dump begins with the last of them. -/
theorem not_replays_wrapped :
    ¬Replays (fun _ => 0) (printChars (List.replicate 4096 0x41 ++ [0x42]) bootScreen)
      (List.replicate 4096 0x41 ++ [0x42]) := by
  rw [booted_bootScreen.replays_iff_scan, List.length_append, List.length_replicate]
  decide

end FirstKernel
