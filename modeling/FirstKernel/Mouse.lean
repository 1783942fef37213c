import FirstKernel.Screen

/-!
# The mouse, `drivers/mouse.c`

Each interrupt brings one byte of a three-byte packet. `mouse_handler`
collects the bytes in `mouse_bytes`; with the third it looks at the
header, takes the two movements out of the bytes and moves the pointer,
which it draws over a saved 16 by 16 piece of the frame buffer.

The handler is given what ports 0x64 and 0x60 would read. `ports` is the
trace of what it writes to ports, and `packets` the trace of the packets
whose header passed; no function reads either.
-/

namespace FirstKernel

instance neZero_mouseBytes : NeZero 3 := ⟨by decide⟩

structure Mouse where
  mouseBytes : Fin 3 → UInt8
  mouseCycle : Fin 3
  mouseX : Int32
  mouseY : Int32
  prevMouseX : Int32
  prevMouseY : Int32
  mouseBackBuffer : Fin 256 → UInt32
  packets : List (Fin 3 → UInt8)
  ports : List (UInt16 × UInt8)

/-- The module's variables before the first interrupt. -/
def bootMouse : Mouse where
  mouseBytes := fun _ => 0
  mouseCycle := 0
  mouseX := 400
  mouseY := 300
  prevMouseX := 400
  prevMouseY := 300
  mouseBackBuffer := fun _ => 0
  packets := []
  ports := []

/-! ## The pointer on the screen -/

def mousePointer : List (List Nat) :=
  [[1,0,0,0,0,0,0,0,0,0,0,0,0,0,0,0],
   [1,1,0,0,0,0,0,0,0,0,0,0,0,0,0,0],
   [1,2,1,0,0,0,0,0,0,0,0,0,0,0,0,0],
   [1,2,2,1,0,0,0,0,0,0,0,0,0,0,0,0],
   [1,2,2,2,1,0,0,0,0,0,0,0,0,0,0,0],
   [1,2,2,2,2,1,0,0,0,0,0,0,0,0,0,0],
   [1,2,2,2,2,2,1,0,0,0,0,0,0,0,0,0],
   [1,2,2,2,2,2,2,1,0,0,0,0,0,0,0,0],
   [1,2,2,2,2,2,2,2,1,0,0,0,0,0,0,0],
   [1,2,2,2,2,2,2,2,2,1,0,0,0,0,0,0],
   [1,2,2,2,2,2,2,2,2,2,1,0,0,0,0,0],
   [1,2,2,2,2,2,2,1,1,1,1,1,0,0,0,0],
   [1,2,2,1,1,2,2,1,0,0,0,0,0,0,0,0],
   [1,2,1,0,0,1,2,2,1,0,0,0,0,0,0,0],
   [1,1,0,0,0,0,1,2,2,1,0,0,0,0,0,0],
   [0,0,0,0,0,0,0,1,1,0,0,0,0,0,0,0]]

/-- `for (i = 0; i < 16; i++) for (j = 0; j < 16; j++) body(i, j)` -/
def eachPixel {σ : Type} (body : Fin 16 → Fin 16 → σ → σ) (s : σ) : σ :=
  (List.finRange 16).foldl (fun s i => (List.finRange 16).foldl (fun s j => body i j s) s) s

def backIndex (i j : Fin 16) : Fin 256 := ⟨i.val * 16 + j.val, by omega⟩

/-- `save_background`, to the back buffer. -/
def saveBackground (x y : Int32) (vgaMem : FrameBuffer) :
    (Fin 256 → UInt32) → Fin 256 → UInt32 :=
  eachPixel fun i j buffer => Function.update buffer (backIndex i j)
    (getPixel (x + Int32.ofNat j.val) (y + Int32.ofNat i.val) vgaMem)

def restoreBackground (x y : Int32) (buffer : Fin 256 → UInt32) :
    FrameBuffer → FrameBuffer :=
  eachPixel fun i j =>
    putPixel (x + Int32.ofNat j.val) (y + Int32.ofNat i.val) (buffer (backIndex i j))

def drawMousePointer (x y : Int32) (fillColor : UInt32) : FrameBuffer → FrameBuffer :=
  eachPixel fun i j vgaMem =>
    let shade := (mousePointer.getD i.val []).getD j.val 0
    if shade = 1 then putPixel (x + Int32.ofNat j.val) (y + Int32.ofNat i.val) 0 vgaMem
    else if shade = 2 then
      putPixel (x + Int32.ofNat j.val) (y + Int32.ofNat i.val) fillColor vgaMem
    else vgaMem

/-! ## The interrupt -/

/-- A movement: the byte as a `char`, with the upper bytes set if `negative`. -/
def delta (byte : UInt8) (negative : Bool) : Int32 :=
  if negative then byte.toInt8.toInt32 ||| 0xFFFFFF00 else byte.toInt8.toInt32

/-- `if (v < 0) v = 0; if (v > high) v = high;` -/
def limited (high v : Int32) : Int32 :=
  let v := if v < 0 then 0 else v
  if high < v then high else v

/-- What `mouse_handler` does with a packet whose header passed. -/
def movePointer (m : Mouse) (vgaMem : FrameBuffer) : Mouse × FrameBuffer :=
  let deltaX := delta (m.mouseBytes 1) (m.mouseBytes 0 &&& 0x10 ≠ 0)
  let deltaY := delta (m.mouseBytes 2) (m.mouseBytes 0 &&& 0x20 ≠ 0)
  let vgaMem := restoreBackground m.prevMouseX m.prevMouseY m.mouseBackBuffer vgaMem
  let x := limited 784 (m.mouseX + deltaX)
  let y := limited 584 (m.mouseY - deltaY)
  let buffer := saveBackground x y vgaMem m.mouseBackBuffer
  let fillColor : UInt32 := if m.mouseBytes 0 &&& 0x01 ≠ 0 then 0x0000FF00 else 0x00FFFFFF
  ({ m with
      mouseX := x
      mouseY := y
      prevMouseX := x
      prevMouseY := y
      mouseBackBuffer := buffer
      packets := m.packets ++ [m.mouseBytes] },
    drawMousePointer x y fillColor vgaMem)

/-- `mouse_bytes[mouse_cycle++] = data`, and what follows the third byte. -/
def takeByte (data : UInt8) (m : Mouse) (vgaMem : FrameBuffer) : Mouse × FrameBuffer :=
  let bytes := Function.update m.mouseBytes m.mouseCycle data
  if h : m.mouseCycle.val + 1 < 3 then
    ({ m with mouseBytes := bytes, mouseCycle := ⟨m.mouseCycle.val + 1, h⟩ }, vgaMem)
  else
    let m := { m with mouseBytes := bytes, mouseCycle := 0 }
    if bytes 0 &&& 0x08 = 0 then (m, vgaMem) else movePointer m vgaMem

def mouseHandler (status data : UInt8) (m : Mouse) (vgaMem : FrameBuffer) :
    Mouse × FrameBuffer :=
  let r := if status &&& 0x20 = 0 then (m, vgaMem) else takeByte data m vgaMem
  ({ r.1 with ports := r.1.ports ++ [(0xA0, 0x20), (0x20, 0x20)] }, r.2)

end FirstKernel
