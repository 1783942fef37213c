import FirstKernel.KernelLog
import FirstKernel.Shell

/-!
# Text that is printed as a format

`print` takes its message for a format, also where the shell and the file
system pass it a text of the user or of the disk and nothing else: the
words of `cmd_echo`, the unknown command, the names and file contents
that the file system prints, the sector of `cmd_read`. Such a text comes
out as it is, and without a `va_arg`, just when it has no percent sign
with a `d` after it (`verbatim_iff`).
-/

namespace FirstKernel

/-- `%d` occurs in the message. -/
def HasDirective (message : Text) : Prop := [0x25, 0x64] <:+: message

instance (message : Text) : Decidable (HasDirective message) :=
  inferInstanceAs (Decidable ([0x25, 0x64] <:+: message))

/-- `print` hands the message to `print_char` as it is and fetches no argument. -/
structure Verbatim (message : Text) : Prop where
  emitted_eq : ∀ (args : Nat → Int32) (s : Screen),
    (printMessage message args s).emitted = s.emitted ++ message
  fetches_eq : fetches message = 0

theorem emitted_printMessage (message : Text) (args : Nat → Int32) (s : Screen) :
    (printMessage message args s).emitted = s.emitted ++ formatted message args :=
  emitted_printChars ..

theorem not_hasDirective_tail {c : UInt8} {rest : Text} (h : ¬HasDirective (c :: rest)) :
    ¬HasDirective rest :=
  fun hrest => h (hrest.trans (List.suffix_cons c rest).isInfix)

theorem not_directive_head {c c' : UInt8} {rest : Text}
    (h : ¬HasDirective (c :: c' :: rest)) : ¬(c = 0x25 ∧ c' = 0x64) := by
  rintro ⟨rfl, rfl⟩
  exact h (List.prefix_append [0x25, 0x64] rest).isInfix

theorem formatted_of_not_hasDirective : ∀ {message : Text} (args : Nat → Int32),
    ¬HasDirective message → formatted message args = message
  | [], _, _ => rfl
  | [_], _, _ => rfl
  | c :: c' :: rest, args, h => by
      rw [formatted, if_neg (not_directive_head h),
        formatted_of_not_hasDirective args (not_hasDirective_tail h)]

theorem fetches_eq_zero_iff : ∀ {message : Text},
    fetches message = 0 ↔ ¬HasDirective message
  | [] => iff_of_true rfl (by decide)
  | [c] => iff_of_true rfl fun h => absurd h.length_le (by simp)
  | c :: c' :: rest => by
      by_cases hhead : c = 0x25 ∧ c' = 0x64
      · rw [fetches, if_pos hhead]
        exact iff_of_false (Nat.succ_ne_zero _) (not_not.mpr (by
          rw [hhead.1, hhead.2]
          exact (List.prefix_append [0x25, 0x64] rest).isInfix))
      · rw [fetches, if_neg hhead, fetches_eq_zero_iff]
        refine ⟨fun h hdir => ?_, not_hasDirective_tail⟩
        rcases List.infix_cons_iff.mp hdir with hpre | hin
        · obtain ⟨hc, hpre⟩ := List.cons_prefix_cons.mp hpre
          exact hhead ⟨hc.symm, (List.cons_prefix_cons.mp hpre).1.symm⟩
        · exact h hin

/-- **Formats.** A text of the user or of the disk is printed verbatim just when it
has no `%d`. -/
theorem verbatim_iff (s : CString) : Verbatim s.chars ↔ ¬HasDirective s.chars := by
  constructor
  · exact fun h => fetches_eq_zero_iff.mp h.fetches_eq
  · intro h
    refine ⟨fun args screen => ?_, fetches_eq_zero_iff.mpr h⟩
    rw [emitted_printMessage, formatted_of_not_hasDirective args h]

/-- A shell that has been given a line. -/
def typed (line : Text) : Shell Unit where
  keyBuffer := fun i => line.getD i.val 0
  lastToken := none
  screen := bootScreen
  world := ()

/-- `echo %d` puts out the number 7 that was on the stack. -/
theorem not_verbatim_echo :
    (∃ s, executeCommand (fun _ => 7) (fun _ => cmdEcho fun _ => 7) (typed (text "echo %d")) =
        .ok s ∧ s.screen.emitted = text "7 \n") ∧
      ¬Verbatim (text "%d") := by
  refine ⟨?_, fun h => absurd h.fetches_eq (by decide)⟩
  obtain ⟨s, hs, hout⟩ := exists_of_endsWith
    (r := executeCommand (fun _ => 7) (fun _ => cmdEcho fun _ => 7) (typed (text "echo %d")))
    (p := fun s => decide (s.screen.emitted = text "7 \n")) (by decide +kernel)
  exact ⟨s, hs, of_decide_eq_true hout⟩

end FirstKernel
