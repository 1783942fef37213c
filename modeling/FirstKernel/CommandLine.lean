import FirstKernel.Session

/-!
# Command lines are read field by field

`strtok` writes its terminators over the delimiters behind it, so an array
is at any time the strings of the tokens and then what is still to be read
(`Tokenized`). Each call yields what the reader of `Fields` does, and what
stands before the place of `last_token` does not change any more. So the
handler of a line gets the fields of that line, whatever the arrays and
`last_token` were before.
-/

namespace FirstKernel

variable {size : Nat → Nat} {σ : Type}

/-- What has been read, and what is still to be read. -/
structure Tokenized {n : Nat} (buffer : Buffer n) (before rest : Text) : Prop where
  cells : before ++ rest ++ [0] <+: List.ofFn buffer
  noNul : (0 : UInt8) ∉ rest

/-! ## One call -/

theorem tokenEnd_eq_some {n : Nat} {buffer : Buffer n} {delim : UInt8} {start : Nat} {i : Fin n}
    (hle : start ≤ i.val) (hi : buffer i = 0 ∨ buffer i = delim)
    (hbefore : ∀ j : Fin n, start ≤ j.val → j < i → buffer j ≠ 0 ∧ buffer j ≠ delim) :
    tokenEnd delim buffer start = some i := by
  rw [tokenEnd, List.find?_eq_some_iff_getElem]
  refine ⟨decide_eq_true ⟨hle, hi⟩, i.val, by simp, by simp, fun j hj => ?_⟩
  have hlt : j < n := Nat.lt_trans hj i.isLt
  simp only [List.getElem_finRange, Bool.not_eq_true', decide_eq_false_iff_not]
  rintro ⟨hstart, hor⟩
  obtain ⟨hzero, hdelim⟩ := hbefore ⟨j, hlt⟩ hstart hj
  exact hor.elim hzero hdelim

namespace Tokenized

variable {n : Nat} {buffer : Buffer n} {before rest : Text}

theorem lt (h : Tokenized buffer before rest) : before.length + rest.length < n := by
  have hlen := h.cells.length_le
  simp only [List.length_append, List.length_singleton, List.length_ofFn] at hlen
  exact hlen

theorem lt_length_terminated {k : Nat} {rest : Text} (hk : k ≤ rest.length) :
    k < (rest ++ [(0 : UInt8)]).length := by
  rw [List.length_append]
  exact Nat.lt_succ_of_le hk

/-- The cells of what is still to be read, with the terminator. -/
theorem cell (h : Tokenized buffer before rest) {k : Nat}
    (hk : k < (rest ++ [(0 : UInt8)]).length) (hlt : before.length + k < n) :
    buffer ⟨before.length + k, hlt⟩ = (rest ++ [(0 : UInt8)])[k] := by
  have hget := h.cells.getElem (i := before.length + k) (by
    simp only [List.append_assoc, List.length_append] at hk ⊢
    omega)
  rw [List.getElem_ofFn] at hget
  rw [← hget]
  simp only [List.append_assoc]
  rw [List.getElem_append_right (Nat.le_add_right _ _)]
  simp only [Nat.add_sub_cancel_left]

/-- The string at the place where the reading goes on. -/
theorem string_eq {token : Text} (h : before ++ token ++ [0] <+: List.ofFn buffer)
    (htoken : (0 : UInt8) ∉ token) : (stringFrom buffer before.length).chars = token := by
  obtain ⟨post, hpost⟩ := h
  refine stringAt_of_prefix (⟨post, ?_⟩ : token ++ [0] <+: _) htoken
  rw [← hpost]
  simp only [List.append_assoc, List.drop_left]

end Tokenized

/-- What a call of `strtok` does to an array: it yields what a read yields, and goes past
it. The token has its terminator, if not there then where the text ends. -/
structure Cuts {n : Nat} (delim : UInt8) (before rest : Text)
    (r : Option Nat × Buffer n × Option Nat) (before' : Text) : Prop where
  start_eq : r.1 = (nextField delim rest).1.map fun _ => before.length
  last_eq : r.2.2 = some before'.length
  tokenized : Tokenized r.2.1 before' (nextField delim rest).2
  kept : before <+: before'
  still : rest = [] → before' = before
  ended : ∀ token ∈ (nextField delim rest).1, before ++ token ++ [0] <+: before' ∨
    before' = before ++ token ∧ (nextField delim rest).2 = []

/-- The text ends before the next delimiter. -/
theorem cuts_last {n : Nat} {buffer : Buffer n} {before rest : Text}
    (h : Tokenized buffer before rest) {delim : UInt8} (hdelim : delim ∉ rest) :
    ∃ r, strtok (some before.length) delim buffer none = .ok r ∧
      Cuts delim before rest r (before ++ rest) := by
  have hend : tokenEnd delim buffer before.length =
      some ⟨before.length + rest.length, h.lt⟩ := by
    refine tokenEnd_eq_some (Nat.le_add_right _ _) (Or.inl ?_) fun j hstart hj => ?_
    · rw [h.cell (Tokenized.lt_length_terminated (Nat.le_refl _)) h.lt]
      simp
    · obtain ⟨k, hk⟩ := Nat.exists_eq_add_of_le hstart
      have hj' : j.val < before.length + rest.length := hj
      have hlt : k < rest.length := by omega
      have hcell : buffer j = rest[k] := by
        have hget := h.cell (Tokenized.lt_length_terminated (Nat.le_of_lt hlt)) (by omega)
        rw [List.getElem_append_left hlt] at hget
        rw [← hget]
        exact congrArg buffer (Fin.ext hk)
      rw [hcell]
      exact ⟨fun h0 => h.noNul (h0 ▸ List.getElem_mem hlt),
        fun hd => hdelim (hd ▸ List.getElem_mem hlt)⟩
  have hzero : buffer ⟨before.length + rest.length, h.lt⟩ = 0 := by
    rw [h.cell (Tokenized.lt_length_terminated (Nat.le_refl _)) h.lt]
    simp
  have hrun : strtok (some before.length) delim buffer none =
      .ok (if before.length + rest.length = before.length then none else some before.length,
        buffer, some (before.length + rest.length)) := by
    rw [strtok, Option.some_or]
    simp only [hend, if_pos hzero]
  refine ⟨_, hrun, ?_⟩
  · by_cases hnil : rest = []
    · subst hnil
      exact ⟨by simp, by simp, by simpa using h, by simp, fun _ => by simp, by simp⟩
    · have hlen := List.length_pos_iff.mpr hnil
      have hcells : before ++ rest ++ [] ++ [0] <+: List.ofFn buffer := by
        rw [List.append_nil]
        exact h.cells
      have hne : ¬before.length + rest.length = before.length := by omega
      refine ⟨?_, ?_, ?_, List.prefix_append _ _, fun h0 => absurd h0 hnil, ?_⟩
      · rw [nextField_last hdelim hnil, if_neg hne]
        rfl
      · rw [List.length_append]
      · rw [nextField_last hdelim hnil]
        exact ⟨hcells, List.not_mem_nil⟩
      · rw [nextField_last hdelim hnil]
        rintro token ⟨⟩
        exact Or.inr ⟨rfl, rfl⟩

/-- A delimiter comes, and a terminator is written over it. -/
theorem cuts_append {n : Nat} {buffer : Buffer n} {before field rest : Text} {delim : UInt8}
    (h : Tokenized buffer before (field ++ delim :: rest)) (hdelim : delim ∉ field) :
    ∃ r, strtok (some before.length) delim buffer none = .ok r ∧
      Cuts delim before (field ++ delim :: rest) r (before ++ field ++ [0]) := by
  have hlt : before.length + field.length < n := by
    have := h.lt
    simp only [List.length_append, List.length_cons] at this
    omega
  have hle : ∀ {k}, k ≤ field.length → k ≤ (field ++ delim :: rest).length := by
    intro k hk
    simp only [List.length_append]
    omega
  have hat : buffer ⟨before.length + field.length, hlt⟩ = delim := by
    rw [h.cell (Tokenized.lt_length_terminated (hle (Nat.le_refl _))) hlt]
    simp
  have hne : delim ≠ 0 := fun h0 => h.noNul (by simp [h0])
  have hend : tokenEnd delim buffer before.length =
      some ⟨before.length + field.length, hlt⟩ := by
    refine tokenEnd_eq_some (Nat.le_add_right _ _) (Or.inr hat) fun j hstart hj => ?_
    obtain ⟨k, hk⟩ := Nat.exists_eq_add_of_le hstart
    have hj' : j.val < before.length + field.length := hj
    have hk' : k < field.length := by omega
    have hcell : buffer j = field[k] := by
      have hget := h.cell (Tokenized.lt_length_terminated (hle (Nat.le_of_lt hk'))) (by omega)
      simp only [List.append_assoc, List.getElem_append_left hk'] at hget
      rw [← hget]
      exact congrArg buffer (Fin.ext hk)
    have hmem := List.getElem_mem hk'
    rw [hcell]
    exact ⟨fun h0 => h.noNul (List.mem_append_left _ (h0 ▸ hmem)), fun hd => hdelim (hd ▸ hmem)⟩
  have hrun : strtok (some before.length) delim buffer none =
      .ok (some before.length,
        Function.update buffer ⟨before.length + field.length, hlt⟩ 0,
        some (before.length + field.length + 1)) := by
    rw [strtok, Option.some_or]
    simp only [hend, hat, if_neg hne]
  refine ⟨_, hrun, ?_⟩
  · have hcells : before ++ field ++ [0] ++ rest ++ [0] <+:
        List.ofFn (Function.update buffer ⟨before.length + field.length, hlt⟩ 0) := by
      obtain ⟨post, hpost⟩ := h.cells
      refine ⟨post, ?_⟩
      rw [ofFn_update, ← hpost]
      simp only [List.append_assoc]
      rw [List.set_append_right _ _ (Nat.le_add_right _ _), Nat.add_sub_cancel_left,
        List.set_append_right _ _ (Nat.le_refl _), Nat.sub_self]
      rfl
    refine ⟨?_, ?_, ?_, ?_, ?_, ?_⟩
    · rw [nextField_append hdelim]
      rfl
    · simp [Nat.add_assoc]
    · rw [nextField_append hdelim]
      exact ⟨hcells, fun h0 => h.noNul (by simp [h0])⟩
    · rw [List.append_assoc]
      exact List.prefix_append _ _
    · simp
    · rw [nextField_append hdelim]
      rintro token ⟨⟩
      exact Or.inl (List.prefix_refl _)

theorem cuts_strtok {n : Nat} {buffer : Buffer n} {before rest : Text}
    (h : Tokenized buffer before rest) (delim : UInt8) :
    ∃ r before', strtok (some before.length) delim buffer none = .ok r ∧
      Cuts delim before rest r before' := by
  rcases eq_field_or_append delim rest with hlast | ⟨field, rest', hfield, rfl⟩
  · obtain ⟨r, hr, hcuts⟩ := cuts_last h hlast
    exact ⟨r, _, hr, hcuts⟩
  · obtain ⟨r, hr, hcuts⟩ := cuts_append h hfield
    exact ⟨r, _, hr, hcuts⟩

/-! ## The calls of a handler -/

/-- Reading goes on in the array, after what has been read. -/
structure Reading (a : Nat) (before rest : Text) (s : Session size σ) : Prop where
  last_eq : s.lastToken = some ⟨a, before.length⟩
  tokenized : Tokenized (s.arrays a) before rest

/-- A call of `strtok` in the array: as in `Cuts`, and nothing else has changed. -/
structure Takes (a : Nat) (delim : UInt8) (before rest : Text) (s : Session size σ)
    (before' : Text) (s' : Session size σ) : Prop
    extends Reading a before' (nextField delim rest).2 s' where
  screen_eq : s'.screen = s.screen
  world_eq : s'.world = s.world
  kept : before <+: before'
  still : rest = [] → before' = before
  ended : ∀ token ∈ (nextField delim rest).1, before ++ token ++ [0] <+: before' ∨
    before' = before ++ token ∧ (nextField delim rest).2 = []

theorem takes_of_tokenized {a : Nat} {before rest : Text} (str : Option Pointer)
    {s : Session size σ} (hstart : str.or s.lastToken = some ⟨a, before.length⟩)
    (h : Tokenized (s.arrays a) before rest) (delim : UInt8) :
    ∃ s' before', s.token str delim =
        .ok ((nextField delim rest).1.map fun _ => ⟨a, before.length⟩, s') ∧
      Takes a delim before rest s before' s' := by
  obtain ⟨⟨start, buffer, last⟩, before', hrun, hcuts⟩ := cuts_strtok h delim
  refine ⟨{ s with
    arrays := Function.update s.arrays a buffer
    lastToken := some ⟨a, before'.length⟩ }, before', ?_, ?_⟩
  · have hfound : start = (nextField delim rest).1.map fun _ => before.length := hcuts.start_eq
    have hlast : last = some before'.length := hcuts.last_eq
    rw [Session.token, hstart]
    simp only [hrun]
    rw [hfound, hlast, Option.map_map]
    rfl
  · refine ⟨⟨rfl, ?_⟩, rfl, rfl, hcuts.kept, hcuts.still, hcuts.ended⟩
    simp only [Function.update_self]
    exact hcuts.tokenized

/-- The handler has got these tokens, as they stand in the arrays. -/
structure Gets (a : Nat) (before rest : Text) (fields : List (Option Text)) (s : Session size σ)
    (ps : List (Option Pointer)) (s' : Session size σ) : Prop where
  tokens_eq : ps.map (fun p => p.map s'.resolve) = fields.map fun f => f.map (Argument.mk a)
  screen_eq : s'.screen = s.screen
  world_eq : s'.world = s.world
  kept : ∃ before' rest', Reading a before' rest' s' ∧ before <+: before' ∧
    (rest = [] → before' = before ∧ rest' = [])

/-- A token is there to the end: nothing that was read is written again. -/
theorem resolve_eq {a : Nat} {before token rest before' : Text} {s' : Session size σ}
    (hreading : Reading a before' rest s') (htoken : (0 : UInt8) ∉ token)
    (h : before ++ token ++ [0] <+: before' ∨ before' = before ++ token ∧ rest = []) :
    s'.resolve ⟨a, before.length⟩ = ⟨a, token⟩ := by
  have hcells : before ++ token ++ [0] <+: List.ofFn (s'.arrays a) := by
    have hall := hreading.tokenized.cells
    rcases h with hkept | ⟨rfl, rfl⟩
    · rw [List.append_assoc] at hall
      exact hkept.trans ((List.prefix_append _ _).trans hall)
    · rw [List.append_nil] at hall
      exact hall
  rw [Session.resolve, Session.string, Tokenized.string_eq hcells htoken]

theorem gets_readAll : ∀ (delims : List UInt8) {a : Nat} {before rest : Text}
    {s : Session size σ}, Reading a before rest s →
    ∃ ps s', s.readAll delims = .ok (ps, s') ∧
      Gets a before rest (readFields delims rest) s ps s'
  | [], _, before, rest, s, h =>
      ⟨[], s, rfl, rfl, rfl, rfl, before, rest, h, List.prefix_refl _, fun hnil => ⟨rfl, hnil⟩⟩
  | delim :: delims, a, before, rest, s, h => by
      obtain ⟨s1, before1, htoken, htakes⟩ := takes_of_tokenized none h.last_eq
        h.tokenized delim
      obtain ⟨ps, s', hrest, hgets⟩ := gets_readAll delims htakes.toReading
      obtain ⟨before', rest', hreading, hkept, hstill⟩ := hgets.kept
      let p : Option Pointer := (nextField delim rest).1.map fun _ => ⟨a, before.length⟩
      have hhead : p.map s'.resolve = (nextField delim rest).1.map (Argument.mk a) := by
        cases hfield : (nextField delim rest).1 with
        | none => simp only [p, hfield, Option.map_none]
        | some token =>
            have hnul : (0 : UInt8) ∉ token := fun h0 =>
              h.tokenized.noNul (mem_of_mem_nextField_fst hfield h0)
            have hplace : before ++ token ++ [0] <+: before' ∨
                before' = before ++ token ∧ rest' = [] := by
              rcases htakes.ended token hfield with hended | ⟨hended, hnext⟩
              · exact Or.inl (hended.trans hkept)
              · obtain ⟨hsame, hnone⟩ := hstill hnext
                exact Or.inr ⟨hsame.trans hended, hnone⟩
            simp only [p, hfield, Option.map_some]
            rw [resolve_eq hreading hnul hplace]
      refine ⟨p :: ps, s', ?_, ?_, ?_, ?_, before', rest', hreading, htakes.kept.trans hkept, ?_⟩
      · rw [Session.readAll, htoken]
        simp only [hrest, p]
      · rw [readFields, List.map_cons, List.map_cons, hgets.tokens_eq, hhead]
      · exact hgets.screen_eq.trans htakes.screen_eq
      · exact hgets.world_eq.trans htakes.world_eq
      · intro hnil
        have hnext : (nextField delim rest).2 = [] := by
          rw [hnil, nextField_nil]
        obtain ⟨hsame, hnone⟩ := hstill hnext
        exact ⟨hsame.trans (htakes.still hnil), hnone⟩

/-! ## Dispatch -/

theorem noNul_of_mem_commands : ∀ name ∈ commands, (0 : UInt8) ∉ name := by
  decide +kernel

/-- The command is the one of that name, if there is one. -/
theorem find?_isCommand (command : CString) :
    commands.find? (isCommand command) =
      if command.chars ∈ commands then some command.chars else none := by
  have heq : ∀ name ∈ commands, (isCommand command name = true ↔ name = command.chars) := by
    intro name hname
    rw [isCommand, decide_eq_true_iff,
      strcmpChars_eq_zero command.noNul (noNul_of_mem_commands name hname), eq_comm]
  by_cases hmem : command.chars ∈ commands
  · rw [if_pos hmem]
    cases hfind : commands.find? (isCommand command) with
    | none =>
        have hnot := List.find?_eq_none.mp hfind _ hmem
        exact absurd ((heq _ hmem).mpr rfl) hnot
    | some name =>
        exact congrArg some ((heq name (List.mem_of_find?_eq_some hfind)).mp
          (List.find?_some hfind))
  · rw [if_neg hmem, List.find?_eq_none]
    intro name hname htrue
    rw [(heq name hname).mp htrue] at hname
    exact hmem hname

namespace CommandLine

/-- The line stands in its array, to be read from the start. -/
theorem tokenized (c : CommandLine size) : Tokenized c.content [] c.line := by
  refine ⟨?_, (stringAt _).noNul⟩
  obtain ⟨i, hi⟩ := c.ended
  have hmem : (0 : UInt8) ∈ List.ofFn c.content := List.mem_ofFn.mpr ⟨i, hi⟩
  obtain ⟨before, after, hsplit, hbefore⟩ := List.eq_append_cons_of_mem hmem
  have hprefix : before ++ [0] <+: List.ofFn c.content := ⟨after, by rw [hsplit]; simp⟩
  rw [List.nil_append, line, stringAt_of_prefix hprefix hbefore]
  exact hprefix

theorem content_zero_iff (c : CommandLine size) :
    c.content ⟨0, Nat.succ_pos _⟩ = 0 ↔ c.line = [] := by
  have hcell := c.tokenized.cell (Tokenized.lt_length_terminated (Nat.zero_le _)) (Nat.succ_pos _)
  have hnul := c.tokenized.noNul
  rw [show c.content ⟨0, Nat.succ_pos _⟩ = _ from hcell]
  cases hline : c.line with
  | nil => simp
  | cons b rest =>
      rw [hline, List.mem_cons, not_or] at hnul
      simp [Ne.symm hnul.1]

/-- The handler gets the fields of the line. -/
theorem serve_ok (act : Act σ) (c : CommandLine size) {before : Text} {s : Session size σ}
    (h : Reading c.input before c.arguments s) :
    ∃ s', serve act c.delims c.word s = .ok s' ∧
      (s'.screen, s'.world) = act c.word c.tokens (s.screen, s.world) := by
  obtain ⟨ps, s', hread, hgets⟩ := gets_readAll c.delims h
  have htokens : ps.map (fun p => p.map s'.resolve) = c.tokens := by
    rw [hgets.tokens_eq, readFields_eq (by decide) c.delims_eq h.tokenized.noNul, tokens,
      List.map_map]
    rfl
  rw [serve, hread]
  refine ⟨_, rfl, ?_⟩
  simp only [htokens, hgets.screen_eq, hgets.world_eq]

/-- **Step lemma.** A line does what its word and its fields say, whatever the arrays and
the place of the tokenizer were before. -/
theorem exec_ok (args : Nat → Int32) (act : Act σ) (c : CommandLine size) (s : Session size σ) :
    ∃ s', c.exec args act s = .ok s' ∧
      (s'.screen, s'.world) = c.effect args act (s.screen, s.world) := by
  rw [exec, effect, Session.executeCommand]
  simp only [Function.update_self]
  by_cases hnil : c.line = []
  · rw [if_pos (c.content_zero_iff.mpr hnil), if_pos hnil]
    exact ⟨_, rfl, rfl⟩
  · rw [if_neg fun h0 => hnil (c.content_zero_iff.mp h0), if_neg hnil]
    let s0 : Session size σ := { s with arrays := Function.update s.arrays c.input c.content }
    have htokenized : Tokenized (s0.arrays c.input) [] c.line := by
      simp only [s0, Function.update_self]
      exact c.tokenized
    obtain ⟨s1, before, htoken, htakes⟩ := takes_of_tokenized (some ⟨c.input, 0⟩) (s := s0)
      rfl htokenized 0x20
    have hnext : nextField 0x20 c.line = (some c.word, c.arguments) := if_neg hnil
    rw [hnext] at htoken
    have hreading : Reading c.input before c.arguments s1 := by
      have h := htakes.toReading
      rw [hnext] at h
      exact h
    have hnul : (0 : UInt8) ∉ c.word := fun h0 =>
      c.tokenized.noNul (mem_of_mem_nextField_fst (congrArg Prod.fst hnext) h0)
    have hplace := htakes.ended c.word (by rw [hnext]; rfl)
    rw [hnext] at hplace
    have hword : (s1.string ⟨c.input, 0⟩).chars = c.word :=
      congrArg Argument.chars (resolve_eq hreading hnul hplace)
    simp only [s0] at htoken
    rw [htoken]
    simp only [Option.map_some, List.length_nil, find?_isCommand, hword]
    by_cases hmem : c.word ∈ commands
    · rw [if_pos hmem, if_pos hmem]
      obtain ⟨s', hserve, heffect⟩ := c.serve_ok act hreading
      rw [htakes.screen_eq, htakes.world_eq] at heffect
      exact ⟨s', hserve, heffect⟩
    · rw [if_neg hmem, if_neg hmem]
      refine ⟨_, rfl, ?_⟩
      simp only [htakes.screen_eq, htakes.world_eq]
      rfl

end CommandLine

/-- **Command lines, field by field.** -/
theorem commandLines_runs (args : Nat → Int32) (act : Act σ) : ∀ (cs : List (CommandLine size))
    (s : Session size σ), ∃ s', runs (CommandLine.exec args act) cs s = .ok s' ∧
      (s'.screen, s'.world) = cs.foldl (fun r c => c.effect args act r) (s.screen, s.world)
  | [], s => ⟨s, rfl, rfl⟩
  | c :: cs, s => by
      obtain ⟨s1, hexec, heffect⟩ := c.exec_ok args act s
      obtain ⟨s', hrun, hall⟩ := commandLines_runs args act cs s1
      refine ⟨s', (runs_cons_ok hexec).trans hrun, ?_⟩
      rw [hall, heffect, List.foldl_cons]

end FirstKernel
