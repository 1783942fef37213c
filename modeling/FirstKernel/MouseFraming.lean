import FirstKernel.Mouse

/-!
# The framing of mouse packets

`mouse_handler` takes its bytes by threes, from the first one it ever
gets, and looks at the header only when it has three. So it processes
the packets of a stream just when each of them starts a three, that is,
comes after a multiple of three stray bytes (`processes_iff`); one or two
strays shift every later packet.

A run of the handler over a stream keeps beside each cell of
`mouse_bytes` the position its byte had in the stream, and so for each
packet that was processed the positions of its three bytes.
-/

namespace FirstKernel

structure MouseRun where
  mouse : Mouse
  vgaMem : FrameBuffer
  received : Nat
  origin : Fin 3 → Nat
  processed : List (Fin 3 → Nat)

/-- One interrupt with the data bit of the status set. -/
def deliver (s : MouseRun) (byte : UInt8) : MouseRun :=
  let r := mouseHandler 0x20 byte s.mouse s.vgaMem
  let origin := Function.update s.origin s.mouse.mouseCycle s.received
  { mouse := r.1
    vgaMem := r.2
    received := s.received + 1
    origin := origin
    processed := if s.mouse.packets.length < r.1.packets.length then s.processed ++ [origin]
      else s.processed }

def deliverAll (s : MouseRun) (bytes : List UInt8) : MouseRun := bytes.foldl deliver s

/-- A stream starts, whatever is on the screen. -/
def startRun (m : Mouse) (vgaMem : FrameBuffer) : MouseRun :=
  ⟨m, vgaMem, 0, fun _ => 0, []⟩

/-- A packet has bit 3 of its first byte set. -/
structure Packet where
  b0 : UInt8
  b1 : UInt8
  b2 : UInt8
  header : b0 &&& 0x08 ≠ 0

def Packet.bytes (p : Packet) : List UInt8 := [p.b0, p.b1, p.b2]

def Packet.cells (p : Packet) : Fin 3 → UInt8 := fun i => p.bytes.getD i.val 0

inductive Item where
  | stray (b : UInt8) (clear : b &&& 0x08 = 0)
  | packet (p : Packet)

def stream : List Item → List UInt8
  | [] => []
  | .stray b _ :: is => b :: stream is
  | .packet p :: is => p.bytes ++ stream is

def packetsOf : List Item → List (Fin 3 → UInt8)
  | [] => []
  | .stray _ _ :: is => packetsOf is
  | .packet p :: is => p.cells :: packetsOf is

/-- Where the bytes of each packet stand in the stream, from position `n` on. -/
def positionsOf : List Item → Nat → List (Fin 3 → Nat)
  | [], _ => []
  | .stray _ _ :: is, n => positionsOf is (n + 1)
  | .packet _ :: is, n => (fun i => n + i.val) :: positionsOf is (n + 3)

/-- Each packet comes after a multiple of three stray bytes; `n` have been before. -/
def InThrees : List Item → Nat → Prop
  | [], _ => True
  | .stray _ _ :: is, n => InThrees is (n + 1)
  | .packet _ :: is, n => 3 ∣ n ∧ InThrees is n

/-- The packets of the stream and no others are processed, each from its own bytes. -/
structure Processes (m : Mouse) (items : List Item) (s : MouseRun) : Prop where
  processed_eq : s.processed = positionsOf items 0
  packets_eq : s.mouse.packets = m.packets ++ packetsOf items

/-! ## One byte -/

/-- The bytes are a packet as far as the handler looks. -/
def Passes (bytes : Fin 3 → UInt8) : Prop := bytes 0 &&& 0x08 ≠ 0

theorem movePointer_packets (m : Mouse) (vgaMem : FrameBuffer) :
    (movePointer m vgaMem).1.packets = m.packets ++ [m.mouseBytes] := by
  unfold movePointer
  rfl

theorem takeByte_of_lt {m : Mouse} (h : m.mouseCycle.val + 1 < 3) (byte : UInt8)
    (vgaMem : FrameBuffer) :
    takeByte byte m vgaMem =
      ({ m with
          mouseBytes := Function.update m.mouseBytes m.mouseCycle byte
          mouseCycle := ⟨m.mouseCycle.val + 1, h⟩ }, vgaMem) := dif_pos h

theorem takeByte_of_last {m : Mouse} (h : ¬m.mouseCycle.val + 1 < 3) (byte : UInt8)
    (vgaMem : FrameBuffer) :
    takeByte byte m vgaMem =
      let m' := { m with
        mouseBytes := Function.update m.mouseBytes m.mouseCycle byte
        mouseCycle := 0 }
      if m'.mouseBytes 0 &&& 0x08 = 0 then (m', vgaMem) else movePointer m' vgaMem := dif_neg h

/-- What one interrupt does to the framing: the byte goes to its cell, and the
cells are emitted if they are full and the first is a header. -/
structure Delivered (s : MouseRun) (byte : UInt8) (s' : MouseRun) : Prop where
  received_eq : s'.received = s.received + 1
  bytes_eq : s'.mouse.mouseBytes = Function.update s.mouse.mouseBytes s.mouse.mouseCycle byte
  origin_eq : s'.origin = Function.update s.origin s.mouse.mouseCycle s.received
  cycle_of_lt : s.mouse.mouseCycle.val + 1 < 3 →
    s'.mouse.mouseCycle.val = s.mouse.mouseCycle.val + 1
  cycle_of_last : ¬s.mouse.mouseCycle.val + 1 < 3 → s'.mouse.mouseCycle = 0
  quiet : s.mouse.mouseCycle.val + 1 < 3 ∨ ¬Passes s'.mouse.mouseBytes →
    s'.mouse.packets = s.mouse.packets ∧ s'.processed = s.processed
  emits : ¬s.mouse.mouseCycle.val + 1 < 3 → Passes s'.mouse.mouseBytes →
    s'.mouse.packets = s.mouse.packets ++ [s'.mouse.mouseBytes] ∧
    s'.processed = s.processed ++ [s'.origin]

theorem mouseHandler_ready {status : UInt8} (h : status &&& 0x20 ≠ 0) (byte : UInt8)
    (m : Mouse) (vgaMem : FrameBuffer) :
    mouseHandler status byte m vgaMem =
      let r := takeByte byte m vgaMem
      ({ r.1 with ports := r.1.ports ++ [(0xA0, 0x20), (0x20, 0x20)] }, r.2) := by
  unfold mouseHandler
  rw [if_neg h]

theorem delivered_deliver (s : MouseRun) (byte : UInt8) : Delivered s byte (deliver s byte) := by
  unfold deliver
  rw [mouseHandler_ready (by decide)]
  by_cases hlt : s.mouse.mouseCycle.val + 1 < 3
  · rw [takeByte_of_lt hlt]
    exact ⟨rfl, rfl, rfl, fun _ => rfl, fun h => absurd hlt h,
      fun _ => ⟨rfl, if_neg (Nat.lt_irrefl _)⟩, fun h => absurd hlt h⟩
  · rw [takeByte_of_last hlt]
    simp only
    split
    · next hclear =>
        exact ⟨rfl, rfl, rfl, fun h => absurd h hlt, fun _ => rfl,
          fun _ => ⟨rfl, if_neg (Nat.lt_irrefl _)⟩, fun _ hpass => absurd hclear hpass⟩
    · next hpass =>
        refine ⟨rfl, rfl, rfl, fun h => absurd h hlt, fun _ => rfl,
          fun h => absurd hpass (h.resolve_left hlt), fun _ _ => ⟨rfl, if_pos ?_⟩⟩
        rw [movePointer_packets, List.length_append]
        exact Nat.lt_succ_self _

/-! ## Any stream is taken by threes -/

/-- Every third byte is the first of a three, and no packet starts elsewhere. -/
structure ByThrees (s : MouseRun) : Prop where
  cycle_eq : s.mouse.mouseCycle.val = s.received % 3
  origin_eq : ∀ i, i < s.mouse.mouseCycle →
    s.origin i + s.mouse.mouseCycle.val = s.received + i.val
  processed_dvd : ∀ f ∈ s.processed, 3 ∣ f 0

theorem ByThrees.deliver {s : MouseRun} (h : ByThrees s) (byte : UInt8) :
    ByThrees (deliver s byte) := by
  have hd := delivered_deliver s byte
  have hcycle := h.cycle_eq
  by_cases hlt : s.mouse.mouseCycle.val + 1 < 3
  · have hnext := hd.cycle_of_lt hlt
    refine ⟨by rw [hnext, hd.received_eq]; omega, fun i hi => ?_, ?_⟩
    · rw [hnext, hd.received_eq, hd.origin_eq]
      by_cases heq : i = s.mouse.mouseCycle
      · rw [heq, Function.update_self]
        omega
      · have hi' : i.val < s.mouse.mouseCycle.val + 1 := hnext ▸ Fin.lt_def.mp hi
        have hne : i.val ≠ s.mouse.mouseCycle.val := fun hval => heq (Fin.ext hval)
        have := h.origin_eq i (Fin.lt_def.mpr (by omega))
        rw [Function.update_of_ne heq]
        omega
    · rw [(hd.quiet (Or.inl hlt)).2]
      exact h.processed_dvd
  · have hzero := hd.cycle_of_last hlt
    refine ⟨by rw [hzero, hd.received_eq]; simp only [Fin.val_zero]; omega, fun i hi => ?_, ?_⟩
    · rw [hzero] at hi
      exact absurd hi (Fin.not_lt_zero i)
    · by_cases hpass : Passes (FirstKernel.deliver s byte).mouse.mouseBytes
      · intro f hf
        rw [(hd.emits hlt hpass).2, List.mem_append, List.mem_singleton] at hf
        rcases hf with hf | rfl
        · exact h.processed_dvd f hf
        · have hne : (0 : Fin 3) ≠ s.mouse.mouseCycle := fun heq => by
            rw [← heq] at hlt
            exact hlt (by decide)
          have hfirst := h.origin_eq 0 (Fin.pos_iff_ne_zero.mpr hne.symm)
          rw [hd.origin_eq, Function.update_of_ne hne]
          have := s.mouse.mouseCycle.isLt
          simp only [Fin.val_zero] at hfirst
          omega
      · rw [(hd.quiet (Or.inr hpass)).2]
        exact h.processed_dvd

theorem ByThrees.deliverAll : ∀ (bytes : List UInt8) {s : MouseRun}, ByThrees s →
    ByThrees (deliverAll s bytes)
  | [], _, h => h
  | byte :: bytes, _, h => ByThrees.deliverAll bytes (h.deliver byte)

theorem byThrees_startRun {m : Mouse} (hm : m.mouseCycle = 0) (vgaMem : FrameBuffer) :
    ByThrees (startRun m vgaMem) where
  cycle_eq := congrArg Fin.val hm
  origin_eq := fun i hi => by
    have hi' : i < (0 : Fin 3) := hm ▸ hi
    exact absurd hi' (Fin.not_lt_zero i)
  processed_dvd := fun f hf => absurd hf (List.not_mem_nil)

/-- Packets whose positions are all multiples of three come after multiples of
three strays. -/
theorem inThrees_of_positions : ∀ (items : List Item) (n k : Nat), n % 3 = k % 3 →
    (∀ f ∈ positionsOf items n, 3 ∣ f 0) → InThrees items k
  | [], _, _, _, _ => trivial
  | .stray _ _ :: is, n, k, hmod, h =>
      inThrees_of_positions is (n + 1) (k + 1) (by omega) h
  | .packet _ :: is, n, k, hmod, h => by
      have hfirst : 3 ∣ n := h _ (List.mem_cons_self ..)
      refine ⟨by omega, inThrees_of_positions is (n + 3) k (by omega) fun f hf => ?_⟩
      exact h f (List.mem_cons_of_mem _ hf)

/-! ## Streams in threes -/

/-- After `n` strays: what is in the cells are strays. -/
structure InGap (s : MouseRun) (n : Nat) : Prop where
  cycle_eq : s.mouse.mouseCycle.val = n % 3
  clear : s.mouse.mouseCycle ≠ 0 → ¬Passes s.mouse.mouseBytes

theorem InGap.stray {s : MouseRun} {n : Nat} (h : InGap s n) {b : UInt8}
    (hb : b &&& 0x08 = 0) :
    InGap (deliver s b) (n + 1) ∧ (deliver s b).mouse.packets = s.mouse.packets ∧
      (deliver s b).processed = s.processed := by
  have hd := delivered_deliver s b
  have hcycle := h.cycle_eq
  have hclear : ¬Passes (deliver s b).mouse.mouseBytes := by
    rw [Passes, hd.bytes_eq, not_not]
    by_cases hzero : s.mouse.mouseCycle = 0
    · rw [hzero, Function.update_self]
      exact hb
    · rw [Function.update_of_ne (Ne.symm hzero)]
      exact not_not.mp (h.clear hzero)
  refine ⟨⟨?_, fun _ => hclear⟩, hd.quiet (Or.inr hclear)⟩
  by_cases hlt : s.mouse.mouseCycle.val + 1 < 3
  · rw [hd.cycle_of_lt hlt]
    omega
  · rw [hd.cycle_of_last hlt]
    simp only [Fin.val_zero]
    omega

theorem eq_of_three {α : Type*} {f g : Fin 3 → α} (h0 : f 0 = g 0) (h1 : f 1 = g 1)
    (h2 : f 2 = g 2) : f = g := by
  funext i
  match i with
  | 0 => exact h0
  | 1 => exact h1
  | 2 => exact h2

/-- The three bytes of a packet, taken from the first cell on. -/
theorem deliverAll_packet {s : MouseRun} (h : s.mouse.mouseCycle = 0) (p : Packet) :
    let s' := deliverAll s p.bytes
    s'.received = s.received + 3 ∧ s'.mouse.mouseCycle = 0 ∧
    s'.mouse.packets = s.mouse.packets ++ [p.cells] ∧
    s'.processed = s.processed ++ [fun i => s.received + i.val] := by
  have hd1 := delivered_deliver s p.b0
  have hc1 : (deliver s p.b0).mouse.mouseCycle = 1 := by
    refine Fin.ext ((hd1.cycle_of_lt (by rw [h]; decide)).trans ?_)
    rw [h]
    rfl
  obtain ⟨hk1, hp1⟩ := hd1.quiet (Or.inl (by rw [h]; decide))
  have hd2 := delivered_deliver (deliver s p.b0) p.b1
  have hc2 : (deliver (deliver s p.b0) p.b1).mouse.mouseCycle = 2 := by
    refine Fin.ext ((hd2.cycle_of_lt (by rw [hc1]; decide)).trans ?_)
    rw [hc1]
    rfl
  obtain ⟨hk2, hp2⟩ := hd2.quiet (Or.inl (by rw [hc1]; decide))
  have hd3 := delivered_deliver (deliver (deliver s p.b0) p.b1) p.b2
  have hlast : ¬(deliver (deliver s p.b0) p.b1).mouse.mouseCycle.val + 1 < 3 := by
    rw [hc2]
    decide
  have hcells : (deliver (deliver (deliver s p.b0) p.b1) p.b2).mouse.mouseBytes = p.cells := by
    rw [hd3.bytes_eq, hd2.bytes_eq, hd1.bytes_eq, hc2, hc1, h]
    exact eq_of_three rfl rfl rfl
  have horigin : (deliver (deliver (deliver s p.b0) p.b1) p.b2).origin =
      fun i => s.received + i.val := by
    rw [hd3.origin_eq, hd2.origin_eq, hd1.origin_eq, hd2.received_eq, hd1.received_eq,
      hc2, hc1, h]
    exact eq_of_three rfl rfl rfl
  obtain ⟨hk3, hp3⟩ := hd3.emits hlast (by rw [hcells]; exact p.header)
  refine ⟨?_, hd3.cycle_of_last hlast, ?_, ?_⟩
  · exact hd3.received_eq.trans (by rw [hd2.received_eq, hd1.received_eq])
  · exact hk3.trans (by rw [hcells, hk2, hk1])
  · exact hp3.trans (by rw [horigin, hp2, hp1])

theorem deliverAll_inThrees : ∀ (items : List Item) {s : MouseRun} {n : Nat},
    InGap s n → InThrees items n →
    (deliverAll s (stream items)).processed = s.processed ++ positionsOf items s.received ∧
    (deliverAll s (stream items)).mouse.packets = s.mouse.packets ++ packetsOf items
  | [], s, _, _, _ => ⟨(List.append_nil _).symm, (List.append_nil _).symm⟩
  | .stray b hb :: is, s, n, h, hin => by
      obtain ⟨hgap, hpackets, hprocessed⟩ := h.stray hb
      have ih := deliverAll_inThrees is hgap hin
      rw [hpackets, hprocessed] at ih
      exact ih
  | .packet p :: is, s, n, h, hin => by
      have hzero : s.mouse.mouseCycle = 0 :=
        Fin.ext (h.cycle_eq.trans (Nat.mod_eq_zero_of_dvd hin.1))
      obtain ⟨hreceived, hcycle, hpackets, hprocessed⟩ := deliverAll_packet hzero p
      have hgap : InGap (deliverAll s p.bytes) n :=
        ⟨by rw [hcycle, ← hzero]; exact h.cycle_eq, fun hne => absurd hcycle hne⟩
      have ih := deliverAll_inThrees is hgap hin.2
      rw [hpackets, hprocessed, hreceived] at ih
      have hsplit : deliverAll s (stream (.packet p :: is)) =
          deliverAll (deliverAll s p.bytes) (stream is) := List.foldl_append
      rw [hsplit, ih.1, ih.2, positionsOf, packetsOf, List.append_assoc, List.append_assoc,
        List.singleton_append, List.singleton_append]
      exact ⟨rfl, rfl⟩

/-- **Framing.** The packets of a stream are processed, each from its own bytes and
nothing else, just when they come after multiples of three strays. -/
theorem processes_iff (items : List Item) (m : Mouse) (vgaMem : FrameBuffer)
    (hm : m.mouseCycle = 0) :
    Processes m items (deliverAll (startRun m vgaMem) (stream items)) ↔ InThrees items 0 := by
  constructor
  · intro h
    refine inThrees_of_positions items 0 0 rfl fun f hf => ?_
    exact ((byThrees_startRun hm vgaMem).deliverAll (stream items)).processed_dvd f
      (h.processed_eq ▸ hf)
  · intro h
    have hgap : InGap (startRun m vgaMem) 0 := ⟨congrArg Fin.val hm, fun hne => absurd hm hne⟩
    obtain ⟨hprocessed, hpackets⟩ := deliverAll_inThrees items hgap h
    exact ⟨hprocessed, hpackets⟩

theorem header_eight : (0x08 : UInt8) &&& 0x08 ≠ 0 := by decide

def onePacket : List Item := [.packet ⟨0x08, 1, 1, header_eight⟩]

/-- Three strays are dropped together, and the packets after them are processed. -/
def threeStrays : List Item :=
  .stray 0 rfl :: .stray 0x17 rfl :: .stray 0xF0 rfl ::
    (onePacket ++ [.packet ⟨0x18, 0xFE, 2, by decide⟩])

theorem processes_iff_threeStrays :
    Processes bootMouse threeStrays
      (deliverAll (startRun bootMouse fun _ => 0) (stream threeStrays)) :=
  (processes_iff threeStrays bootMouse (fun _ => 0) rfl).mpr ⟨by decide, by decide, trivial⟩

def strayThenPacket : List Item := .stray 0 rfl :: onePacket

/-- After one stray byte the packet that follows is lost. -/
theorem not_processes_stray :
    ¬Processes bootMouse strayThenPacket
      (deliverAll (startRun bootMouse fun _ => 0) (stream strayThenPacket)) := by
  intro h
  have hlength := congrArg List.length h.processed_eq
  revert hlength
  decide +kernel

end FirstKernel
