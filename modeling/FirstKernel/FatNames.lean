import FirstKernel.FatFrame

/-!
# Which entries can be named

The shell hands space-free words to the file system, of the 7-bit
characters that the keyboard has. Whatever commands were typed since the
disk was formatted, each live entry has the padded name of such a word
(`Named`), because nothing else creates entries. That does not make every
entry reachable by a word: no creation looks for the name it is about to
use, and a lookup stops at its first match. What can be named is therefore
the first of the entries with a name (`exists_lookup_iff_runs`).
-/

namespace FirstKernel

/-- A word of a command line that was typed, as `strtok` cuts it at the blanks. -/
structure Token where
  word : CString
  spaceFree : (0x20 : UInt8) ∉ word.chars
  sevenBit : SevenBit word

/-- The shell commands on the file system. `mkapp` is a `write` with words of its
own. -/
inductive ShellCall where
  | write (fileName fileExt : Token) (content : CString)
  | mkdir (dirname : Token)
  | rm (target : Token)
  | cd (dirname : Token)
  | cat (fileToRead : Token)
  | ls

def ShellCall.call : ShellCall → Call
  | .write fileName fileExt content =>
      .writeFile (fatName fileName.word fileExt.word) content
  | .mkdir dirname => .makeDirectory dirname.word
  | .rm target => .removeFile target.word
  | .cd dirname => .changeDirectory dirname.word
  | .cat fileToRead => .catFile fileToRead.word
  | .ls => .listFiles

def execShell (call : ShellCall) (fs : Fs) : Except Fault Fs := exec call.call fs

/-- Every live entry has the padded name of a word. -/
def Named (fs : Fs) : Prop :=
  ∀ d i, LiveEntry fs.disk d i → ∃ t : Token, (dir fs.disk d).name i = padded 8 t.word

/-- **The entries that can be named.** They are the first live ones with their name. -/
theorem exists_lookup_iff {fs : Fs} {i : Slot} (hlive : Live (readCurrentDirectory fs) i)
    (hnamed : ∃ t : Token, (readCurrentDirectory fs).name i = padded 8 t.word) :
    (∃ t : Token, lookup t.word fs = some i) ↔
      ∀ j < i, Live (readCurrentDirectory fs) j →
        (readCurrentDirectory fs).name j ≠ (readCurrentDirectory fs).name i := by
  constructor
  · rintro ⟨t, hlook⟩ j hj hlive' heq
    obtain ⟨-, hm, hfirst⟩ := findEntry_eq_some.mp hlook
    refine hfirst j hj hlive' fun m => ?_
    rw [heq]
    exact hm m
  · intro hfirst
    obtain ⟨t, ht⟩ := hnamed
    have h7 := t.sevenBit.padded 8
    refine ⟨t, findEntry_eq_some.mpr ⟨hlive, (nameMatches_iff h7).mpr ht,
      fun j hj hlive' hm => ?_⟩⟩
    exact hfirst j hj hlive' (((nameMatches_iff h7).mp hm).trans ht.symm)

/-! ## Every live entry has the name of a word -/

theorem Formatted.named {fs : Fs} (h : Formatted fs) : Named fs :=
  fun d i hlive => absurd hlive (h.not_liveEntry d i)

theorem ShellCall.newName_word {call : ShellCall} {name : Buffer 11}
    (h : call.call.newName = some name) : ∃ t : Token, nameOf name = padded 8 t.word := by
  cases call with
  | write fileName fileExt content =>
      obtain rfl := Option.some.inj h
      exact ⟨fileName, nameOf_fatName fileName.word fileExt.word⟩
  | mkdir dirname =>
      obtain rfl := Option.some.inj h
      exact ⟨dirname, nameOf_dirName dirname.word⟩
  | rm target => cases h
  | cd dirname => cases h
  | cat fileToRead => cases h
  | ls => cases h

/-- An entry that was there and has kept its slot has kept its name. -/
theorem Keeps.named {fs fs' : Fs} {s : Slot} {d : UInt16} {i : Slot}
    (h : Keeps fs fs' s d i) (hnamed : ∃ t : Token, (dir fs.disk d).name i = padded 8 t.word) :
    ∃ t : Token, (dir fs'.disk d).name i = padded 8 t.word := by
  obtain ⟨t, ht⟩ := hnamed
  exact ⟨t, h.slot.whole_name_eq.trans ht⟩

theorem Effect.named {call : ShellCall} {fs fs' : Fs} (h : Effect call.call fs fs')
    (hwf : WellFormed fs) (hnamed : Named fs) : Named fs' := by
  generalize hcall : call.call = c at h
  cases h with
  | quiet hd _ => rw [Named, hd]; exact hnamed
  | moved hd _ => rw [Named, hd]; exact hnamed
  | created hnew h hdata =>
      have hname := Call.newName_ne_zero hnew
      intro d i hlive
      rcases ((h.alloc hwf hname hdata).live_iff hwf.sound).mp hlive.live with
        hold | ⟨rfl, rfl, -⟩
      · obtain ⟨hold, -⟩ := liveEntry_of_live hold
        exact (h.keeps hwf hname hold).named (hnamed d i hold)
      · -- the new entry
        obtain ⟨t, ht⟩ := ShellCall.newName_word (hcall ▸ hnew)
        refine ⟨t, ?_⟩
        rw [h.at_dir, ← ht]
        exact funext name_fillEntry_self
  | removed _ h =>
      intro d i hlive
      obtain ⟨hold, hne⟩ := (h.prune hwf).live_of hlive.live
      obtain ⟨hold, -⟩ := liveEntry_of_live hold
      exact (h.keeps hwf hold hne).named (hnamed d i hold)

/-- **What a word can name.** After any shell commands on a formatted disk, a live
entry of the current directory is what some word resolves to if and only if no live entry
before it has the same eight bytes of name. -/
theorem exists_lookup_iff_runs {fs : Fs} (hfs : Formatted fs) (calls : List ShellCall) :
    ∃ fs', runs execShell calls fs = .ok fs' ∧
      ∀ i, Live (readCurrentDirectory fs') i →
        ((∃ t : Token, lookup t.word fs' = some i) ↔
          ∀ j < i, Live (readCurrentDirectory fs') j →
            (readCurrentDirectory fs').name j ≠ (readCurrentDirectory fs').name i) := by
  obtain ⟨fs', hrun, hwf, hnamed⟩ := runs_invariant
    (fun (call : ShellCall) fs (h : WellFormed fs ∧ Named fs) _ => by
      obtain ⟨fs', hrun, heff⟩ := exec_effect h.1 call.call
      exact ⟨fs', hrun, heff.wellFormed h.1, heff.named h.1 h.2⟩)
    calls fs ⟨hfs.wellFormed, hfs.named⟩ (guarded_true calls fs)
  exact ⟨fs', hrun, fun i hlive =>
    exists_lookup_iff hlive (hnamed _ i ⟨hwf.cwd, hlive⟩)⟩

def tokA : Token := ⟨strA, by decide, by decide⟩

def tokTxt : Token := ⟨strTxt, by decide, by decide⟩

/-- Of two files called `A`, with a directory between them, the first can be named. -/
theorem exists_lookup_iff_runs_blankFs :
    ∃ fs', runs execShell [.write tokA tokTxt strHi, .mkdir tokTxt, .write tokA tokTxt strHi]
        blankFs = .ok fs' ∧ (∃ t : Token, lookup t.word fs' = some 0) ∧
      ∃ t : Token, lookup t.word fs' = some 1 := by
  obtain ⟨fs', hrun, hiff⟩ := exists_lookup_iff_runs formatted_blankFs
    [.write tokA tokTxt strHi, .mkdir tokTxt, .write tokA tokTxt strHi]
  obtain rfl := Except.ok.inj hrun
  refine ⟨_, rfl, (hiff 0 (by decide +kernel)).mpr fun j hj => ?_,
    (hiff 1 (by decide +kernel)).mpr (by decide +kernel)⟩
  exact absurd hj (Fin.not_lt_zero j)

/-- The second of two files called `A` cannot be named. -/
theorem not_every_entry_named :
    ∃ fs, runs execShell [.write tokA tokTxt strHi, .write tokA tokTxt strHi] blankFs
      = .ok fs ∧ Live (readCurrentDirectory fs) 1 ∧
      ¬∃ t : Token, lookup t.word fs = some 1 := by
  obtain ⟨fs, hrun, hend⟩ := exists_of_endsWith
    (r := runs execShell [.write tokA tokTxt strHi, .write tokA tokTxt strHi] blankFs)
    (p := fun fs => decide (Live (readCurrentDirectory fs) 0 ∧
      Live (readCurrentDirectory fs) 1 ∧ (readCurrentDirectory fs).name 0 = padded 8 strA ∧
      (readCurrentDirectory fs).name 1 = padded 8 strA)) (by decide +kernel)
  obtain ⟨hlive0, hlive1, hname0, hname1⟩ := of_decide_eq_true hend
  refine ⟨fs, hrun, hlive1, fun hex => ?_⟩
  have hfirst := (exists_lookup_iff hlive1 ⟨tokA, hname1⟩).mp hex
  exact hfirst 0 (by decide) hlive0 (hname0.trans hname1.symm)

end FirstKernel
