import FirstKernel.CString
import FirstKernel.Font

/-!
# The screen, `drivers/screen.c` and `drivers/vga.c`

Text is drawn into the frame buffer that `vga_mem` points at, 800 by 600
pixels of three bytes, and each character is also kept in the ring
`klog_buffer` for `dump_kernel_log`. The bytes from `vga_mem` on are a
function of the offset, and `vgaNull` says that the pointer is null,
which only `clear_screen` and `scroll_screen` look at.

Coordinates are 32-bit `int`s. `print` takes its variadic arguments from
`args`, the words that successive `va_arg` calls fetch, whoever put them
there. The trace `emitted` collects the characters handed to
`print_char`; no function reads it.
-/

namespace FirstKernel

abbrev FrameBuffer := Nat → UInt8

instance neZero_klogSize : NeZero 4096 := ⟨by decide⟩

structure Screen where
  vgaNull : Bool
  vgaMem : FrameBuffer
  currentColor : UInt32
  currentCol : Int32
  currentRow : Int32
  klogBuffer : Fin 4096 → UInt8
  klogIndex : Fin 4096
  klogWrapped : Bool
  dmesgActive : Bool
  emitted : Text

/-! ## Pixels -/

def putPixel (x y : Int32) (color : UInt32) (vgaMem : FrameBuffer) : FrameBuffer :=
  if 0 ≤ x ∧ x < 800 ∧ 0 ≤ y ∧ y < 600 then
    let offset := (y * 800 * 3 + x * 3).toNatClampNeg
    let vgaMem := Function.update vgaMem offset (color &&& 0xFF).toUInt8
    let vgaMem := Function.update vgaMem (offset + 1) (color >>> 8 &&& 0xFF).toUInt8
    Function.update vgaMem (offset + 2) (color >>> 16 &&& 0xFF).toUInt8
  else vgaMem

def getPixel (x y : Int32) (vgaMem : FrameBuffer) : UInt32 :=
  if 0 ≤ x ∧ x < 800 ∧ 0 ≤ y ∧ y < 600 then
    let offset := (y * 800 * 3 + x * 3).toNatClampNeg
    let b := (vgaMem offset).toUInt32
    let g := (vgaMem (offset + 1)).toUInt32
    let r := (vgaMem (offset + 2)).toUInt32
    r <<< 16 ||| g <<< 8 ||| b
  else 0

/-- `for (int i = 0; i < n; i++) body(i)` -/
def forBelow {σ : Type} (n : Int32) (body : Int32 → σ → σ) (s : σ) : σ :=
  (List.range n.toNatClampNeg).foldl (fun s i => body (Int32.ofNat i) s) s

def drawRectangle (x y width height : Int32) (color : UInt32) : FrameBuffer → FrameBuffer :=
  forBelow height fun i => forBelow width fun j => putPixel (x + j) (y + i) color

/-- `draw_char_graphic`, which draws each pixel of the glyph as a 2 by 2 rectangle. -/
def drawCharGraphic (c : UInt8) (x y : Int32) (color : UInt32) : FrameBuffer → FrameBuffer :=
  if charValue c < 32 ∨ 127 < charValue c then id
  else
    forBelow 8 fun cy => forBelow 8 fun cx =>
      let bit := (font8x8 c cy.toNatClampNeg >>> (7 - cx).toUInt32.toUInt8) &&& 1
      drawRectangle (x + cx * 2) (y + cy * 2) 2 2 (if bit = 0 then 0 else color)

/-! ## Characters -/

def logChar (c : UInt8) (s : Screen) : Screen :=
  if s.dmesgActive then s
  else
    { s with
      klogBuffer := Function.update s.klogBuffer s.klogIndex c
      klogIndex := if h : s.klogIndex.val + 1 < 4096 then ⟨s.klogIndex.val + 1, h⟩ else 0
      klogWrapped := s.klogWrapped || decide (4096 ≤ s.klogIndex.val + 1) }

def clearScreen (s : Screen) : Screen :=
  if s.vgaNull then s
  else
    { s with
      vgaMem := fun i => if i < 800 * 600 * 3 then 0 else s.vgaMem i
      currentCol := 0
      currentRow := 0 }

def setColor (color : UInt32) (s : Screen) : Screen := { s with currentColor := color }

/-- The copying loop goes up, so each byte is read before it is overwritten. -/
def scrollScreen (s : Screen) : Screen :=
  if s.vgaNull then s
  else
    { s with
      vgaMem := fun i =>
        if i < 600 * 2400 - 38400 then s.vgaMem (i + 38400)
        else if i < 600 * 2400 then 0
        else s.vgaMem i
      currentRow := 36
      currentCol := 0 }

def backspaceOnScreen (s : Screen) : Screen :=
  let s :=
    if 0 < s.currentCol then { s with currentCol := s.currentCol - 1 }
    else if 0 < s.currentRow then
      { s with currentRow := s.currentRow - 1, currentCol := 49 }
    else s
  { s with
    vgaMem := drawRectangle (s.currentCol * 16) (s.currentRow * 16) 16 16 0 s.vgaMem }

/-- What `print_char` does with the cursor and the frame buffer before it looks
whether to scroll. -/
def placeChar (c : UInt8) (s : Screen) : Screen :=
  if c = 0x0A then { s with currentRow := s.currentRow + 1, currentCol := 0 }
  else if c = 0x08 then backspaceOnScreen s
  else
    let vgaMem :=
      drawCharGraphic c (s.currentCol * 16) (s.currentRow * 16) s.currentColor s.vgaMem
    if 50 ≤ s.currentCol + 1 then
      { s with vgaMem := vgaMem, currentCol := 0, currentRow := s.currentRow + 1 }
    else { s with vgaMem := vgaMem, currentCol := s.currentCol + 1 }

def printChar (c : UInt8) (s : Screen) : Screen :=
  let s := placeChar c (logChar c { s with emitted := s.emitted ++ [c] })
  if 37 ≤ s.currentRow then scrollScreen s else s

def printChars (cs : Text) (s : Screen) : Screen := cs.foldl (fun s c => printChar c s) s

/-! ## Messages -/

/-- The characters of a message, with a number for each `%d`. -/
def formatted : Text → (Nat → Int32) → Text
  | [], _ => []
  | [c], _ => [c]
  | c :: c' :: rest, args =>
      if c = 0x25 ∧ c' = 0x64 then itoa (args 0) ++ formatted rest fun n => args (n + 1)
      else c :: formatted (c' :: rest) args

/-- How many times `print` calls `va_arg` for a message. -/
def fetches : Text → Nat
  | [] => 0
  | [_] => 0
  | c :: c' :: rest =>
      if c = 0x25 ∧ c' = 0x64 then fetches rest + 1 else fetches (c' :: rest)

/-- `print` of a message, without its terminator. -/
def printMessage (message : Text) (args : Nat → Int32) (s : Screen) : Screen :=
  printChars (formatted message args) s

def dumpHeader : Text := text "\n--- start of the kernel log (dmesg) ---\n"

def dumpFooter : Text := text "\n--- end of the kernel log ---\n"

def dumpKernelLog (args : Nat → Int32) (s : Screen) : Screen :=
  let s := printMessage dumpHeader args { s with dmesgActive := true }
  let s := if s.klogWrapped then printChars (List.ofFn s.klogBuffer) s else s
  let s := printChars ((List.ofFn s.klogBuffer).take s.klogIndex.val) s
  { printMessage dumpFooter args s with dmesgActive := false }

end FirstKernel
