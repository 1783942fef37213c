import FirstKernel.FatSameWalk
import FirstKernel.FatConserve
import FirstKernel.FatAreas
import FirstKernel.FatCrash
import FirstKernel.FatDummy
import FirstKernel.FatFrame
import FirstKernel.Shell
import FirstKernel.TaskStart
import FirstKernel.Program
import FirstKernel.KeyboardLine
import FirstKernel.FatDurable
import FirstKernel.FatNames
import FirstKernel.Formats
import FirstKernel.Frames
import FirstKernel.Mouse
import FirstKernel.MouseFraming
import FirstKernel.MouseMotion
import FirstKernel.Painting
import FirstKernel.Pixels
import FirstKernel.Rendering
import FirstKernel.InputLine
import FirstKernel.MousePointer
import FirstKernel.MouseOverlay
import FirstKernel.TextOverlay
import FirstKernel.Fields
import FirstKernel.Session
import FirstKernel.CommandLine
import FirstKernel.HeapRuns
import FirstKernel.ErasingWalk
import FirstKernel.FatCycles
import FirstKernel.TaskStacks
import FirstKernel.RunProgram
import FirstKernel.Gdt
import FirstKernel.FatContents
import FirstKernel.FatStores
import FirstKernel.FatUndo
import FirstKernel.FatPaths
import FirstKernel.FatLookup
import FirstKernel.Decimal
import FirstKernel.Numbers
import FirstKernel.MathCommand
import FirstKernel.NumberBuffers
import FirstKernel.ReservedFrames
import FirstKernel.KeyboardCase
import FirstKernel.Rectangles
import FirstKernel.Pit
import FirstKernel.Disk
import FirstKernel.DiskStore
import FirstKernel.Preemption
import FirstKernel.BlockProgram
import FirstKernel.FatDriver
import FirstKernel.Commands
import FirstKernel.Console
import FirstKernel.Idt
import FirstKernel.InterruptRuns
import FirstKernel.E1000
import FirstKernel.MouseSetup
import FirstKernel.Catalog
import FirstKernel.FatCatalog
import FirstKernel.UserMode
import FirstKernel.Clock
import FirstKernel.Paging
