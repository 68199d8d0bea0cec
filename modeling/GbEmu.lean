import GbEmu.MemMap
import GbEmu.Lib.BitField
import GbEmu.Lib.Run
import GbEmu.Lib.Follows
import GbEmu.Lib.Codec
import GbEmu.Lib.Copy
import GbEmu.Lib.Drain
import GbEmu.Lib.Nested
import GbEmu.Lib.Table
import GbEmu.Lib.Blocks
import GbEmu.Lib.Trace
import GbEmu.Lib.Painter
import GbEmu.Lib.Memo
import GbEmu.Lib.Text
import GbEmu.Lib.Messages
import GbEmu.Lib.Digits
import GbEmu.Lib.Brackets
import GbEmu.Lib.Refines
import GbEmu.Cartridge
import GbEmu.Cartridge.BankSelect
import GbEmu.Cartridge.Bounds
import GbEmu.Cartridge.Load
import GbEmu.Cartridge.Battery
import GbEmu.Cartridge.Clock
import GbEmu.Util
import GbEmu.Configuration
import GbEmu.Configuration.Parse
import GbEmu.Configuration.RoundTrip
import GbEmu.Configuration.Malformed
import GbEmu.Hardware
import GbEmu.Hardware.Link
import GbEmu.ConsoleLink
import GbEmu.ConsoleLink.Threads
import GbEmu.ConsoleLink.Responses
import GbEmu.ConsoleLink.Exchange
import GbEmu.ConsoleLink.TransferFlag
import GbEmu.ConsoleLink.Cycle
import GbEmu.Gpu
import GbEmu.Bus
import GbEmu.Bus.Frame
import GbEmu.Bus.Update
import GbEmu.Bus.Guard
import GbEmu.Bus.WorkRam
import GbEmu.Bus.Cells
import GbEmu.Bus.OamDma
import GbEmu.Bus.VramDma
import GbEmu.Bus.Termination
import GbEmu.Interrupt
import GbEmu.Timer
import GbEmu.Timer.Counting
import GbEmu.Pause
import GbEmu.Pause.Halt
import GbEmu.Pause.Pacing
import GbEmu.Pause.Stop
import GbEmu.Gpu.Render
import GbEmu.Gpu.Background
import GbEmu.Gpu.Sprites
import GbEmu.Gpu.SingleSprite
import GbEmu.Gpu.Priority
import GbEmu.Gpu.Cycle
import GbEmu.Gpu.Timing
import GbEmu.Gpu.Schedule
import GbEmu.Gpu.Scanline
import GbEmu.Gpu.Happened
import GbEmu.Gpu.Position
import GbEmu.Gpu.Frames
import GbEmu.Gpu.VBlank
import GbEmu.Gpu.VideoBank
import GbEmu.Gpu.PaletteMemory
import GbEmu.Gpu.Lines
import GbEmu.Gpu.ColorCopy
import GbEmu.JoyPad
import GbEmu.JoyPad.Register
import GbEmu.Processor
import GbEmu.Machine
import GbEmu.Machine.Tick
import GbEmu.Machine.Devices
import GbEmu.Machine.StackArea
import GbEmu.Bus.Plain
import GbEmu.Timer.DoubleSpeed
import GbEmu.Timer.Rate
import GbEmu.Processor.Opcodes
import GbEmu.Processor.Execute
import GbEmu.Processor.IgnoresTimer
import GbEmu.Processor.Follows
import GbEmu.Interrupt.Requests
import GbEmu.Processor.Interrupts
import GbEmu.Processor.Halt
import GbEmu.Processor.Stack
import GbEmu.Processor.Speed
import GbEmu.Processor.Reset
import GbEmu.Processor.Alu
import GbEmu.Processor.MultiByte
import GbEmu.Processor.Decoder
import GbEmu.Core
import GbEmu.Core.Refinement
import GbEmu.Server
import GbEmu.Server.Requests
import GbEmu.Server.Events
import GbEmu.Server.Framing
import GbEmu.Server.Answers
import GbEmu.Server.Controls
import GbEmu.Server.DocumentRoot
import GbEmu.Server.WebSocket
import GbEmu.Server.Base64
import GbEmu.Server.Handshake
import GbEmu.Server.Broadcast
import GbEmu.GameScreen
import GbEmu.GameScreen.Delivery
