import Mathlib.Algebra.GroupWithZero.Nat
import Mathlib.Data.List.Basic
import Mathlib.Logic.Function.Basic
import FirstKernel.Ports

/-!
# Interrupt controllers

Requests are taken by priority (`Lines`): a line that is raised is pending
until it is the first pending one in the order of priorities when the
processor looks. A line is overtaken only by those before it, so it is
taken as soon as these have been (`taken_of_pending`).

Two 8259A controllers, the second at line 2 of the first, come to this
only if every interrupt is acknowledged to the controllers that delivered
it: a line in service holds back the later ones. Between interrupts that
are, the pair is in one of the states `waiting`, where it chooses the line
that `Lines` does (`pending_waiting`), and the acknowledgement leads back
to such a state (`endOfInterrupt_waiting`). Rotating priorities, polling,
the special modes and reading of the in-service register are left out.
-/

namespace FirstKernel

/-! ## Priorities -/

/-- The lines that are pending, and those that have been taken, in order. -/
structure Lines (α : Type*) where
  pending : α → Bool
  taken : List α

namespace Lines

variable {α : Type*} [DecidableEq α]

def none : Lines α := ⟨fun _ => false, []⟩

def raise (line : α) (l : Lines α) : Lines α :=
  { l with pending := Function.update l.pending line true }

def next (order : List α) (l : Lines α) : Option α := order.find? l.pending

def take (order : List α) (l : Lines α) : Lines α :=
  match l.next order with
  | .none => l
  | some line => ⟨Function.update l.pending line false, l.taken ++ [line]⟩

/-- The pending lines before a line, and the line. -/
def ahead (order : List α) (line : α) (l : Lines α) : Nat :=
  (order.takeWhile (· ≠ line)).countP l.pending + 1

inductive Event (α : Type*) where
  | raise (line : α)
  | take

def step (order : List α) : Event α → Lines α → Lines α
  | .raise line, l => l.raise line
  | .take, l => l.take order

/-- The lines after a sequence of events. -/
def after (order : List α) (events : List (Event α)) (l : Lines α) : Lines α :=
  events.foldl (fun l event => l.step order event) l

def isTake : Event α → Bool
  | .take => true
  | .raise _ => false

/-- While a line is pending, what is taken is the line, or one that stands before it. -/
theorem next_of_pending {order : List α} {line : α} {l : Lines α} (hmem : line ∈ order)
    (hpending : l.pending line = true) :
    l.next order = some line ∨ ∃ other ∈ order.takeWhile (· ≠ line), other ≠ line ∧
      l.next order = some other := by
  induction order with
  | nil => cases hmem
  | cons first order ih =>
      by_cases hfirst : first = line
      · subst hfirst
        exact Or.inl (List.find?_cons_of_pos hpending)
      have hrest : line ∈ order := (List.mem_cons.mp hmem).resolve_left (Ne.symm hfirst)
      have hwhile : (first :: order).takeWhile (· ≠ line) =
          first :: order.takeWhile (· ≠ line) := List.takeWhile_cons_of_pos (decide_eq_true hfirst)
      rw [hwhile]
      by_cases hnow : l.pending first = true
      · exact Or.inr ⟨first, List.mem_cons_self .., hfirst, List.find?_cons_of_pos hnow⟩
      · have hskip : l.next (first :: order) = l.next order := List.find?_cons_of_neg hnow
        rw [hskip]
        rcases ih hrest with hline | ⟨other, hother, hne, hnext⟩
        · exact Or.inl hline
        · exact Or.inr ⟨other, List.mem_cons_of_mem _ hother, hne, hnext⟩

/-- The line is not overtaken by what is raised. -/
def Behind (order : List α) (line : α) : Event α → Prop
  | .raise other => other ∉ order.takeWhile (· ≠ line)
  | .take => True

instance (order : List α) (line : α) : DecidablePred (Behind order line)
  | .raise other => inferInstanceAs (Decidable (other ∉ order.takeWhile (· ≠ line)))
  | .take => inferInstanceAs (Decidable True)

theorem raise_ahead {order : List α} {line other : α} {l : Lines α}
    (h : other ∉ order.takeWhile (· ≠ line)) :
    (l.raise other).ahead order line = l.ahead order line := by
  have hsame : ∀ a ∈ order.takeWhile (· ≠ line),
      ((l.raise other).pending a = true ↔ l.pending a = true) := by
    intro a ha
    have hne : a ≠ other := fun heq => h (heq ▸ ha)
    show Function.update l.pending other true a = true ↔ _
    rw [Function.update_of_ne hne]
  rw [ahead, ahead, List.countP_congr hsame]

theorem take_ahead {order : List α} {line other : α} {l : Lines α}
    (hmem : other ∈ order.takeWhile (· ≠ line)) (hnext : l.next order = some other) :
    (l.take order).ahead order line < l.ahead order line := by
  have hpending : l.pending other = true := List.find?_some hnext
  obtain ⟨before, after, hsplit⟩ := List.append_of_mem hmem
  have hle : ∀ xs : List α, xs.countP (Function.update l.pending other false) ≤
      xs.countP l.pending := by
    intro xs
    refine List.countP_mono_left fun a _ ha => ?_
    by_cases heq : a = other
    · rw [heq]
      exact hpending
    · rwa [Function.update_of_ne heq] at ha
  have hbefore := hle before
  have hafter := hle after
  rw [take, hnext, ahead, ahead, hsplit]
  simp only [List.countP_append, List.countP_cons, Function.update_self, hpending]
  simp only [if_true, Bool.false_eq_true, if_false]
  omega

/-- **Nothing is left waiting.** A pending line is taken as soon as there have been as many
chances as it has lines before it, and one, unless more important ones come. -/
theorem taken_of_pending {order : List α} {line : α} (hmem : line ∈ order) {l : Lines α}
    (hpending : l.pending line = true) {events : List (Event α)}
    (hbehind : ∀ event ∈ events, Behind order line event)
    (hcount : l.ahead order line ≤ events.countP isTake) :
    ∃ before after, events = before ++ .take :: after ∧
      (l.after order before).next order = some line := by
  induction events generalizing l with
  | nil => exact absurd hcount (Nat.not_succ_le_zero _)
  | cons event events ih =>
      obtain ⟨hevent, hrest⟩ := List.forall_mem_cons.mp hbehind
      cases event with
      | raise other =>
          have hstill : (l.raise other).pending line = true := by
            show Function.update l.pending other true line = true
            by_cases heq : line = other
            · rw [heq, Function.update_self]
            · rwa [Function.update_of_ne heq]
          rw [List.countP_cons_of_neg Bool.false_ne_true, ← raise_ahead hevent] at hcount
          obtain ⟨before, after, rfl, hnext⟩ := ih hstill hrest hcount
          exact ⟨.raise other :: before, after, rfl, hnext⟩
      | take =>
          rw [List.countP_cons_of_pos rfl] at hcount
          rcases next_of_pending hmem hpending with hline | ⟨other, hother, hne, hnext⟩
          · exact ⟨[], events, rfl, hline⟩
          · have hless := take_ahead hother hnext
            have hstill : (l.take order).pending line = true := by
              rw [take, hnext]
              show Function.update l.pending other false line = true
              rwa [Function.update_of_ne (Ne.symm hne)]
            obtain ⟨before, after, rfl, hfound⟩ := ih hstill hrest (by omega)
            exact ⟨.take :: before, after, rfl, hfound⟩

end Lines

/-! ## One controller -/

/-- The lines of a controller. -/
def lineCount : Nat := 8

instance neZero_lineCount : NeZero lineCount := ⟨by decide⟩

/-- What the controller takes the next byte for: the words of the initialization follow each
other. -/
inductive Stage where
  | ready
  | vector (cascaded mode : Bool)
  | cascade (mode : Bool)
  | mode
deriving DecidableEq

structure Pic where
  requested : Fin lineCount → Bool
  inService : Fin lineCount → Bool
  masked : Fin lineCount → Bool
  vectorBase : UInt8
  cascadeWord : UInt8
  autoEnd : Bool
  stage : Stage

namespace Pic

def bits (data : UInt8) (i : Fin lineCount) : Bool := data.toNat.testBit i.val

def byteOf (bits : Fin lineCount → Bool) : UInt8 := UInt8.ofNat (Nat.ofBits bits)

/-- The unspecific end of interrupt: the first line in service is no longer. -/
def endOfInterrupt (p : Pic) : Pic :=
  match (List.finRange lineCount).find? p.inService with
  | none => p
  | some i => { p with inService := Function.update p.inService i false }

def writeCommand (data : UInt8) (p : Pic) : Pic :=
  if data &&& 0x10 ≠ 0 then
    { p with
      requested := fun _ => false
      inService := fun _ => false
      masked := fun _ => false
      autoEnd := false
      stage := .vector (data &&& 0x02 == 0) (data &&& 0x01 != 0) }
  else if data &&& 0xE8 = 0x20 then p.endOfInterrupt
  else p

def writeData (data : UInt8) (p : Pic) : Pic :=
  match p.stage with
  | .ready => { p with masked := bits data }
  | .vector cascaded mode =>
      { p with
        vectorBase := data &&& 0xF8
        stage := if cascaded then .cascade mode else if mode then .mode else .ready }
  | .cascade mode => { p with cascadeWord := data, stage := if mode then .mode else .ready }
  | .mode => { p with autoEnd := data &&& 0x02 != 0, stage := .ready }

/-- The line that the controller asks the processor to take: the first that is requested, unless
it or one before it is in service. -/
def pending (p : Pic) : Option (Fin lineCount) :=
  match (List.finRange lineCount).find? fun i =>
    (p.requested i && !p.masked i) || p.inService i with
  | none => none
  | some i => if p.inService i ∨ p.stage ≠ .ready then none else some i

def request (i : Fin lineCount) (p : Pic) : Pic :=
  { p with requested := Function.update p.requested i true }

def acknowledge (i : Fin lineCount) (p : Pic) : Pic :=
  { p with
    requested := Function.update p.requested i false
    inService := if p.autoEnd then p.inService else Function.update p.inService i true }

/-- Initialized, with nothing masked and nothing in service. -/
def idle (requested : Fin lineCount → Bool) (vectorBase cascadeWord : UInt8) : Pic where
  requested := requested
  inService _ := false
  masked _ := false
  vectorBase := vectorBase
  cascadeWord := cascadeWord
  autoEnd := false
  stage := .ready

/-- The initialization words put a controller in order. -/
theorem initialized (p : Pic) (vectorBase cascadeWord : UInt8) :
    ((((p.writeCommand 0x11).writeData vectorBase).writeData cascadeWord).writeData 0x01).writeData
      0x00 = idle (fun _ => false) (vectorBase &&& 0xF8) cascadeWord := by
  have hmask : bits 0x00 = fun _ => false := funext fun i => Nat.zero_testBit _
  have hcommand : p.writeCommand 0x11 =
      ⟨fun _ => false, fun _ => false, fun _ => false, p.vectorBase, p.cascadeWord, false,
        .vector true true⟩ := rfl
  rw [hcommand, idle, ← hmask]
  rfl

variable {requested : Fin lineCount → Bool} {vectorBase cascadeWord : UInt8}

theorem pending_idle :
    (idle requested vectorBase cascadeWord).pending =
      (List.finRange lineCount).find? requested := by
  have hall : (fun i => requested i && !false || false) = requested := by
    funext i
    rw [Bool.not_false, Bool.and_true, Bool.or_false]
  simp only [pending, idle, hall]
  cases (List.finRange lineCount).find? requested with
  | none => rfl
  | some i => simp

/-- The end of interrupt does not look at the requests. -/
theorem endOfInterrupt_request (i : Fin lineCount) (p : Pic) :
    (p.request i).endOfInterrupt = p.endOfInterrupt.request i := by
  simp only [endOfInterrupt, request]
  cases (List.finRange lineCount).find? p.inService <;> rfl

/-- The only line in service is the one that the end of interrupt finds. -/
theorem find?_inService (i : Fin lineCount) :
    (List.finRange lineCount).find? (Function.update (fun _ => false) i true) = some i := by
  revert i
  decide

theorem endOfInterrupt_acknowledge (i : Fin lineCount) :
    ((idle requested vectorBase cascadeWord).acknowledge i).endOfInterrupt =
      idle (Function.update requested i false) vectorBase cascadeWord := by
  simp only [endOfInterrupt, acknowledge, idle, Bool.false_eq_true, if_false, find?_inService,
    Function.update_idem, Function.update_eq_self]

end Pic

/-! ## The pair -/

/-- The lines of the first controller, and those of the second. -/
inductive Line where
  | primary (i : Fin lineCount)
  | secondary (i : Fin lineCount)
deriving DecidableEq

structure Pics where
  primary : Pic
  secondary : Pic

namespace Pics

/-- Line 2 of the first controller is no line of its own. -/
def raise : Line → Pics → Pics
  | .primary i, p =>
      if i = 2 then p else { p with primary := p.primary.request i }
  | .secondary i, p => { p with secondary := p.secondary.request i }

/-- The first controller with what the second asks for. -/
def cascade (p : Pics) : Pic :=
  { p.primary with
    requested := Function.update p.primary.requested 2 p.secondary.pending.isSome }

/-- Both controllers have been told that they are connected at line 2. -/
def Connected (p : Pics) : Prop :=
  Pic.bits p.primary.cascadeWord 2 = true ∧ p.secondary.cascadeWord &&& 0x07 = 2

instance (p : Pics) : Decidable p.Connected := inferInstanceAs (Decidable (_ ∧ _))

/-- The line that the processor will take. -/
def pending (p : Pics) : Option Line :=
  match p.cascade.pending with
  | none => none
  | some i =>
      if i = 2 ∧ p.Connected then p.secondary.pending.map .secondary else some (.primary i)

def acknowledge : Line → Pics → Pics
  | .primary i, p => { p with primary := p.primary.acknowledge i }
  | .secondary i, p => ⟨p.primary.acknowledge 2, p.secondary.acknowledge i⟩

/-- The vector that the processor is given for a line. -/
def vector : Line → Pics → UInt8
  | .primary i, p => p.primary.vectorBase + UInt8.ofNat i.val
  | .secondary i, p => p.secondary.vectorBase + UInt8.ofNat i.val

/-- The ports of a PC. -/
def ports : BytePorts Pics where
  bytesIn port p :=
    if port = 0x20 then (Pic.byteOf p.primary.requested, p)
    else if port = 0x21 then (Pic.byteOf p.primary.masked, p)
    else if port = 0xA0 then (Pic.byteOf p.secondary.requested, p)
    else if port = 0xA1 then (Pic.byteOf p.secondary.masked, p)
    else (0xFF, p)
  bytesOut port data p :=
    if port = 0x20 then { p with primary := p.primary.writeCommand data }
    else if port = 0x21 then { p with primary := p.primary.writeData data }
    else if port = 0xA0 then { p with secondary := p.secondary.writeCommand data }
    else if port = 0xA1 then { p with secondary := p.secondary.writeData data }
    else p

def requested (p : Pics) : Line → Bool
  | .primary i => p.primary.requested i
  | .secondary i => p.secondary.requested i

/-- The lines by priority. -/
def order : List Line :=
  [.primary 0, .primary 1] ++ (List.finRange lineCount).map .secondary ++
    [3, 4, 5, 6, 7].map .primary

/-- Initialized, with these lines pending and nothing in service. -/
def waiting (vectorBase vectorBase' : UInt8) (pending : Line → Bool) : Pics where
  primary := Pic.idle (fun i => if i = 2 then false else pending (.primary i)) vectorBase 0x04
  secondary := Pic.idle (fun i => pending (.secondary i)) vectorBase' 0x02

theorem mem_order {line : Line} (h : line ≠ .primary 2) : line ∈ order := by
  cases line with
  | primary i =>
      have hne : i ≠ 2 := fun heq => h (heq ▸ rfl)
      revert i
      decide
  | secondary i =>
      revert i
      decide

theorem ne_two_of_mem_order {line : Line} (h : line ∈ order) : line ≠ .primary 2 := by
  rintro rfl
  exact absurd h (by decide)

variable {vectorBase vectorBase' : UInt8} {lines : Line → Bool}

theorem requested_waiting {line : Line} (h : line ≠ .primary 2) :
    (waiting vectorBase vectorBase' lines).requested line = lines line := by
  cases line with
  | primary i =>
      have hne : i ≠ 2 := fun heq => h (heq ▸ rfl)
      exact if_neg hne
  | secondary i => rfl

theorem connected_waiting : (waiting vectorBase vectorBase' lines).Connected := by
  show Pic.bits 0x04 2 = true ∧ (0x02 : UInt8) &&& 0x07 = 2
  decide

/-- **The pair chooses by priority.** -/
theorem pending_waiting :
    (waiting vectorBase vectorBase' lines).pending = order.find? lines := by
  have hsecondary : (waiting vectorBase vectorBase' lines).secondary.pending =
      (List.finRange lineCount).find? fun i => lines (.secondary i) := Pic.pending_idle
  have hcascade : (waiting vectorBase vectorBase' lines).cascade.pending =
      (List.finRange lineCount).find? (Function.update
        (fun i => if i = 2 then false else lines (.primary i)) 2
        ((List.finRange lineCount).find? fun i => lines (.secondary i)).isSome) := by
    rw [← hsecondary]
    exact Pic.pending_idle
  have hmap : ((List.finRange lineCount).map Line.secondary).find? lines =
      ((List.finRange lineCount).find? fun i => lines (.secondary i)).map .secondary :=
    List.find?_map
  rw [pending, hcascade, hsecondary, order, List.find?_append, List.find?_append, hmap]
  simp only [connected_waiting, and_true]
  generalize (List.finRange lineCount).find? (fun i => lines (.secondary i)) = second
  rw [show List.finRange lineCount = [0, 1, 2, 3, 4, 5, 6, 7] from rfl]
  cases h0 : lines (.primary 0) with
  | true => simp [List.find?, h0]
  | false =>
  cases h1 : lines (.primary 1) with
  | true => simp [List.find?, h0, h1]
  | false =>
  cases second with
  | some i => simp [List.find?, h0, h1]
  | none =>
      -- the lines after the second controller
      have hrest : [3, 4, 5, 6, 7].find? (Function.update
          (fun i : Fin lineCount => if i = 2 then false else lines (.primary i)) 2 false) =
          [3, 4, 5, 6, 7].find? fun i => lines (.primary i) := by
        simp [List.find?]
      have hlast : (([3, 4, 5, 6, 7] : List (Fin lineCount)).map Line.primary).find? lines =
          ([3, 4, 5, 6, 7].find? fun i => lines (.primary i)).map .primary := List.find?_map
      rw [hlast]
      have hskip : [0, 1, 2, 3, 4, 5, 6, 7].find? (Function.update
          (fun i : Fin lineCount => if i = 2 then false else lines (.primary i)) 2 false) =
          [3, 4, 5, 6, 7].find? fun i => lines (.primary i) := by
        rw [← hrest]
        simp [List.find?, h0, h1]
      rw [Option.isSome_none, hskip]
      cases hfound : ([3, 4, 5, 6, 7] : List (Fin lineCount)).find? fun i => lines (.primary i) with
      | none => simp [h0, h1]
      | some i =>
          have hne : i ≠ 2 := by
            have hmem := List.mem_of_find?_eq_some hfound
            rintro rfl
            exact absurd hmem (by decide)
          simp [h0, h1, hne]

theorem raise_waiting (line : Line) :
    (waiting vectorBase vectorBase' lines).raise line =
      waiting vectorBase vectorBase' (Function.update lines line true) := by
  cases line with
  | primary i =>
      have hsecondary : (fun j => Function.update lines (.primary i) true (.secondary j)) =
          fun j => lines (.secondary j) := by
        funext j
        exact Function.update_of_ne (by simp) ..
      rw [raise]
      by_cases htwo : i = 2
      · rw [if_pos htwo, waiting, waiting, hsecondary]
        have hprimary : ∀ j, (if j = 2 then false else lines (.primary j)) =
            if j = 2 then false else Function.update lines (.primary i) true (.primary j) := by
          intro j
          by_cases hj : j = 2
          · rw [if_pos hj, if_pos hj]
          · rw [if_neg hj, if_neg hj, Function.update_of_ne (by simp [hj, htwo])]
        rw [funext hprimary]
      · rw [if_neg htwo, waiting, waiting, hsecondary]
        have hprimary : Function.update (fun j => if j = 2 then false else lines (.primary j)) i
            true = fun j => if j = 2 then false
              else Function.update lines (.primary i) true (.primary j) := by
          funext j
          by_cases hj : j = i
          · subst hj
            rw [Function.update_self, if_neg htwo, Function.update_self]
          · rw [Function.update_of_ne hj, Function.update_of_ne (by simp [hj])]
        simp only [Pic.idle, Pic.request, hprimary]
  | secondary i =>
      have hprimary : (fun j : Fin lineCount => if j = 2 then false
          else Function.update lines (.secondary i) true (.primary j)) =
          fun j => if j = 2 then false else lines (.primary j) := by
        funext j
        rw [Function.update_of_ne (by simp)]
      have hsecondary : Function.update (fun j => lines (.secondary j)) i true =
          fun j => Function.update lines (.secondary i) true (.secondary j) := by
        funext j
        by_cases hj : j = i
        · subst hj
          rw [Function.update_self, Function.update_self]
        · rw [Function.update_of_ne hj, Function.update_of_ne (by simp [hj])]
      rw [raise, waiting, waiting, hprimary]
      simp only [Pic.idle, Pic.request, hsecondary]

/-- Writes to ports, one after the other. -/
def out (writes : PortLog) (p : Pics) : Pics :=
  writes.foldl (fun p write => ports.bytesOut write.1 write.2 p) p

/-- What the controllers have to be written when a line has been served. -/
def ends : Line → PortLog
  | .primary _ => [(0x20, 0x20)]
  | .secondary _ => [(0xA0, 0x20), (0x20, 0x20)]

theorem ports_end_primary (p : Pics) :
    ports.bytesOut 0x20 0x20 p = { p with primary := p.primary.endOfInterrupt } := rfl

theorem ports_end_secondary (p : Pics) :
    ports.bytesOut 0xA0 0x20 p = { p with secondary := p.secondary.endOfInterrupt } := rfl

/-- **A line that is served and ended is just no longer pending.** -/
theorem out_ends (line : Line) :
    out (ends line) ((waiting vectorBase vectorBase' lines).acknowledge line) =
      waiting vectorBase vectorBase' (Function.update lines line false) := by
  cases line with
  | primary i =>
      have hprimary : Function.update (fun j => if j = 2 then false else lines (.primary j)) i
          false = fun j => if j = 2 then false
            else Function.update lines (.primary i) false (.primary j) := by
        funext j
        by_cases hj : j = i
        · subst hj
          rw [Function.update_self, Function.update_self, ite_self]
        · rw [Function.update_of_ne hj, Function.update_of_ne (by simp [hj])]
      have hsecondary : (fun j => Function.update lines (.primary i) false (.secondary j)) =
          fun j => lines (.secondary j) := by
        funext j
        exact Function.update_of_ne (by simp) ..
      rw [ends, out, List.foldl_cons, List.foldl_nil, ports_end_primary, waiting, acknowledge,
        Pic.endOfInterrupt_acknowledge, hprimary, waiting, hsecondary]
  | secondary i =>
      have hprimary : Function.update (fun j => if j = 2 then false else lines (.primary j)) 2
          false = fun j => if j = 2 then false
            else Function.update lines (.secondary i) false (.primary j) := by
        funext j
        by_cases hj : j = 2
        · rw [hj, Function.update_self, if_pos rfl]
        · rw [Function.update_of_ne hj, if_neg hj, if_neg hj, Function.update_of_ne (by simp)]
      have hsecondary : Function.update (fun j => lines (.secondary j)) i false =
          fun j => Function.update lines (.secondary i) false (.secondary j) := by
        funext j
        by_cases hj : j = i
        · subst hj
          rw [Function.update_self, Function.update_self]
        · rw [Function.update_of_ne hj, Function.update_of_ne (by simp [hj])]
      rw [ends, out, List.foldl_cons, List.foldl_cons, List.foldl_nil, ports_end_secondary,
        ports_end_primary, waiting, acknowledge, Pic.endOfInterrupt_acknowledge,
        Pic.endOfInterrupt_acknowledge, hprimary, hsecondary, waiting]

/-- What is raised while a line is served stays pending. -/
theorem out_ends_raise (served line : Line) (p : Pics) :
    out (ends served) (p.raise line) = (out (ends served) p).raise line := by
  cases line with
  | primary i =>
      cases served <;>
        simp only [ends, out, List.foldl_cons, List.foldl_nil, ports_end_primary,
          ports_end_secondary, raise] <;>
        split <;>
        simp only [Pic.endOfInterrupt_request]
  | secondary i =>
      cases served <;>
        simp only [ends, out, List.foldl_cons, List.foldl_nil, ports_end_primary,
          ports_end_secondary, raise, Pic.endOfInterrupt_request]

def raiseAll (raised : List Line) (p : Pics) : Pics := raised.foldl (fun p line => p.raise line) p

theorem out_ends_raiseAll (served : Line) (raised : List Line) (p : Pics) :
    out (ends served) (raiseAll raised p) = raiseAll raised (out (ends served) p) := by
  induction raised generalizing p with
  | nil => rfl
  | cons line raised ih =>
      rw [raiseAll, List.foldl_cons]
      refine (ih _).trans ?_
      rw [out_ends_raise]
      rfl

end Pics

end FirstKernel
