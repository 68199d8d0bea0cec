/-!
The memory map of `memmap.h`: offsets and sizes of the regions and the bus
addresses of the mapped registers. Bytes are `uint8_t`, addresses `uint16_t`;
region bounds are compared as `int`, so they are natural numbers here.
-/

namespace GbEmu


/-! ## Regions -/

@[simp] abbrev rom0Size : Nat := 16384
@[simp] abbrev rom0Offset : Nat := 0x0000
@[simp] abbrev rom1Size : Nat := rom0Size
@[simp] abbrev rom1Offset : Nat := 0x4000
@[simp] abbrev gpuRamSize : Nat := 8192
@[simp] abbrev gpuRamOffset : Nat := 0x8000
@[simp] abbrev extRamSize : Nat := 8192
@[simp] abbrev extRamOffset : Nat := 0xA000
@[simp] abbrev workingRamSize : Nat := 8192
@[simp] abbrev workingRamOffset : Nat := 0xC000
@[simp] abbrev graphicsRamSize : Nat := 160
@[simp] abbrev graphicsRamOffset : Nat := 0xFE00
@[simp] abbrev unusableMemSize : Nat := 96
@[simp] abbrev unusableMemOffset : Nat := 0xFEA0
@[simp] abbrev ioSize : Nat := 128
@[simp] abbrev ioOffset : Nat := 0xFF00
@[simp] abbrev zramSize : Nat := 128
@[simp] abbrev zramOffset : Nat := 0xFF80

/-! ## Mapped registers -/

@[simp] abbrev joypadInputAddress : UInt16 := 0xFF00
@[simp] abbrev serialDataAddress : UInt16 := 0xFF01
@[simp] abbrev serialControlAddress : UInt16 := 0xFF02
@[simp] abbrev cpuTimerDivAddress : UInt16 := 0xFF04
@[simp] abbrev cpuTimerCounterAddress : UInt16 := 0xFF05
@[simp] abbrev cpuTimerModuloAddress : UInt16 := 0xFF06
@[simp] abbrev cpuTimerControlAddress : UInt16 := 0xFF07
@[simp] abbrev interruptFlagsAddress : UInt16 := 0xFF0F
@[simp] abbrev gpuControlAddress : UInt16 := 0xFF40
@[simp] abbrev gpuStatusAddress : UInt16 := 0xFF41
@[simp] abbrev gpuScrollYAddress : UInt16 := 0xFF42
@[simp] abbrev gpuScrollXAddress : UInt16 := 0xFF43
@[simp] abbrev gpuScanlineAddress : UInt16 := 0xFF44
@[simp] abbrev gpuDmaOam : UInt16 := 0xFF46
@[simp] abbrev gpuPaletteAddress : UInt16 := 0xFF47
@[simp] abbrev gpuObp1Address : UInt16 := 0xFF48
@[simp] abbrev gpuObp2Address : UInt16 := 0xFF49
@[simp] abbrev gpuWindowYAddress : UInt16 := 0xFF4A
@[simp] abbrev gpuWindowXAddress : UInt16 := 0xFF4B
@[simp] abbrev cgbSpeedSwitchAddress : UInt16 := 0xFF4D
@[simp] abbrev gpuBankSelectAddress : UInt16 := 0xFF4F
@[simp] abbrev gpuDmaSrcHigh : UInt16 := 0xFF51
@[simp] abbrev gpuDmaSrcLow : UInt16 := 0xFF52
@[simp] abbrev gpuDmaDestHigh : UInt16 := 0xFF53
@[simp] abbrev gpuDmaDestLow : UInt16 := 0xFF54
@[simp] abbrev gpuDmaMode : UInt16 := 0xFF55
@[simp] abbrev gpuBgPaletteIndex : UInt16 := 0xFF68
@[simp] abbrev gpuBgPaletteData : UInt16 := 0xFF69
@[simp] abbrev gpuSpritePaletteIndex : UInt16 := 0xFF6A
@[simp] abbrev gpuSpritePaletteData : UInt16 := 0xFF6B
@[simp] abbrev workingRamBankSelect : UInt16 := 0xFF70
@[simp] abbrev interruptMaskAddress : UInt16 := 0xFFFF

end GbEmu
