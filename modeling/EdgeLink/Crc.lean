import EdgeLink.LittleEndian

namespace EdgeLink
open LittleEndian

def crc32Bit (crc : UInt32) : UInt32 :=
  if crc &&& 1 ≠ 0 then (crc >>> 1) ^^^ 0xEDB88320 else crc >>> 1

def crc32Byte (crc : UInt32) (b : UInt8) : UInt32 := crc32Bit^[8] (crc ^^^ b.toUInt32)

def blCrc32 (data : Bytes) : UInt32 := ~~~ data.foldl crc32Byte 0xFFFFFFFF

/-- The application's copy of the bootloader's CRC. -/
def otaCrc32 (data : Bytes) : UInt32 := blCrc32 data

/-- The CRC of a long input piece by piece. -/
theorem crc32_split (crc : UInt32) (data : Bytes) (n : ℕ) :
    data.foldl crc32Byte crc =
      (data.drop n).foldl crc32Byte ((data.take n).foldl crc32Byte crc) := by
  rw [← List.foldl_append, List.take_append_drop]

def crc16Bit (crc : UInt16) : UInt16 :=
  if crc &&& 1 ≠ 0 then (crc >>> 1) ^^^ 0xA001 else crc >>> 1

def crc16Byte (crc : UInt16) (b : UInt8) : UInt16 := crc16Bit^[8] (crc ^^^ b.toUInt16)

def crc16Modbus (data : Bytes) : UInt16 := data.foldl crc16Byte 0xFFFF

/-- The bootloader's copy of the gateway's frame CRC. -/
def blCrc16Modbus (data : Bytes) : UInt16 := crc16Modbus data

-- the check values of both CRCs over "123456789"
example : blCrc32 [0x31, 0x32, 0x33, 0x34, 0x35, 0x36, 0x37, 0x38, 0x39] =
    0xCBF43926 := by decide +kernel
example : crc16Modbus [0x31, 0x32, 0x33, 0x34, 0x35, 0x36, 0x37, 0x38, 0x39] =
    0x4B37 := by decide +kernel

end EdgeLink
