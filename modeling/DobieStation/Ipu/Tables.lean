import DobieStation.Ipu.Vlc

/-! # The tables of the IPU -/

namespace DobieStation.Ipu

def macroblockAddrInc : VLCTable where
  table := [
    ⟨0x1, 0x10001, 1⟩, ⟨0x3, 0x30002, 3⟩, ⟨0x2, 0x30003, 3⟩, ⟨0x3, 0x40004, 4⟩, ⟨0x2, 0x40005, 4⟩,
    ⟨0x3, 0x50006, 5⟩, ⟨0x2, 0x50007, 5⟩, ⟨0x7, 0x70008, 7⟩, ⟨0x6, 0x70009, 7⟩, ⟨0xB, 0x8000A, 8⟩,
    ⟨0xA, 0x8000B, 8⟩, ⟨0x9, 0x8000C, 8⟩, ⟨0x8, 0x8000D, 8⟩, ⟨0x7, 0x8000E, 8⟩, ⟨0x6, 0x8000F, 8⟩,
    ⟨0x17, 0xA0010, 10⟩, ⟨0x16, 0xA0011, 10⟩, ⟨0x15, 0xA0012, 10⟩, ⟨0x14, 0xA0013, 10⟩,
    ⟨0x13, 0xA0014, 10⟩, ⟨0x12, 0xA0015, 10⟩, ⟨0x23, 0xB0016, 11⟩, ⟨0x22, 0xB0017, 11⟩,
    ⟨0x21, 0xB0018, 11⟩, ⟨0x20, 0xB0019, 11⟩, ⟨0x1F, 0xB001A, 11⟩, ⟨0x1E, 0xB001B, 11⟩,
    ⟨0x1D, 0xB001C, 11⟩, ⟨0x1C, 0xB001D, 11⟩, ⟨0x1B, 0xB001E, 11⟩, ⟨0x1A, 0xB001F, 11⟩,
    ⟨0x19, 0xB0020, 11⟩, ⟨0x18, 0xB0021, 11⟩, ⟨0xF, 0xB0022, 11⟩, ⟨0x8, 0xB0023, 11⟩]
  tableSize := 35
  maxBits := 11
  indexTable := [0, 1, 1, 3, 5, 5, 7, 9, 9, 15, 21]

def macroblockIPic : VLCTable where
  table := [
    ⟨0x1, 0x10001, 1⟩, ⟨0x1, 0x20011, 2⟩]
  tableSize := 2
  maxBits := 2
  indexTable := [0, 1]

def macroblockPPic : VLCTable where
  table := [
    ⟨0x1, 0x1000A, 1⟩, ⟨0x1, 0x20002, 2⟩, ⟨0x1, 0x30008, 3⟩, ⟨0x3, 0x50001, 5⟩, ⟨0x2, 0x5001A, 5⟩,
    ⟨0x1, 0x50012, 5⟩, ⟨0x1, 0x60011, 6⟩]
  tableSize := 7
  maxBits := 6
  indexTable := [0, 1, 2, 2, 3, 6]

def macroblockBPic : VLCTable where
  table := [
    ⟨0x2, 0x2000C, 2⟩, ⟨0x3, 0x2000E, 2⟩, ⟨0x2, 0x30004, 3⟩, ⟨0x3, 0x30006, 3⟩, ⟨0x2, 0x40008, 4⟩,
    ⟨0x3, 0x4000A, 4⟩, ⟨0x3, 0x50001, 5⟩, ⟨0x2, 0x5001E, 5⟩, ⟨0x3, 0x6001A, 6⟩, ⟨0x2, 0x60016, 6⟩,
    ⟨0x1, 0x60011, 6⟩]
  tableSize := 11
  maxBits := 6
  indexTable := [0, 0, 2, 4, 6, 8]

def codedBlockPattern : VLCTable where
  table := [
    ⟨0x7, 60, 3⟩, ⟨0xD, 4, 4⟩, ⟨0xC, 8, 4⟩, ⟨0xB, 16, 4⟩, ⟨0xA, 32, 4⟩, ⟨0x13, 12, 5⟩, ⟨0x12, 48, 5⟩,
    ⟨0x11, 20, 5⟩, ⟨0x10, 40, 5⟩, ⟨0xF, 28, 5⟩, ⟨0xE, 44, 5⟩, ⟨0xD, 52, 5⟩, ⟨0xC, 56, 5⟩, ⟨0xB, 1, 5⟩,
    ⟨0xA, 61, 5⟩, ⟨0x9, 2, 5⟩, ⟨0x8, 62, 5⟩, ⟨0xF, 24, 6⟩, ⟨0xE, 36, 6⟩, ⟨0xD, 3, 6⟩, ⟨0xC, 63, 6⟩,
    ⟨0x17, 5, 7⟩, ⟨0x16, 9, 7⟩, ⟨0x15, 17, 7⟩, ⟨0x14, 33, 7⟩, ⟨0x13, 6, 7⟩, ⟨0x12, 10, 7⟩,
    ⟨0x11, 18, 7⟩, ⟨0x10, 34, 7⟩, ⟨0x1F, 7, 8⟩, ⟨0x1E, 11, 8⟩, ⟨0x1D, 19, 8⟩, ⟨0x1C, 35, 8⟩,
    ⟨0x1B, 13, 8⟩, ⟨0x1A, 49, 8⟩, ⟨0x19, 21, 8⟩, ⟨0x18, 41, 8⟩, ⟨0x17, 14, 8⟩, ⟨0x16, 50, 8⟩,
    ⟨0x15, 22, 8⟩, ⟨0x14, 42, 8⟩, ⟨0x13, 15, 8⟩, ⟨0x12, 51, 8⟩, ⟨0x11, 23, 8⟩, ⟨0x10, 43, 8⟩,
    ⟨0xF, 25, 8⟩, ⟨0xE, 37, 8⟩, ⟨0xD, 26, 8⟩, ⟨0xC, 38, 8⟩, ⟨0xB, 29, 8⟩, ⟨0xA, 45, 8⟩, ⟨0x9, 53, 8⟩,
    ⟨0x8, 57, 8⟩, ⟨0x7, 30, 8⟩, ⟨0x6, 46, 8⟩, ⟨0x5, 54, 8⟩, ⟨0x4, 58, 8⟩, ⟨0x7, 31, 9⟩, ⟨0x6, 47, 9⟩,
    ⟨0x5, 55, 9⟩, ⟨0x4, 59, 9⟩, ⟨0x3, 27, 9⟩, ⟨0x2, 39, 9⟩, ⟨0x1, 0, 9⟩]
  tableSize := 64
  maxBits := 9
  indexTable := [0, 0, 0, 1, 5, 17, 21, 29, 57]

def motionCode : VLCTable where
  table := [
    ⟨0x1, 0x10000, 1⟩, ⟨0x2, 0x30001, 3⟩, ⟨0x3, 0x3FFFF, 3⟩, ⟨0x2, 0x40002, 4⟩, ⟨0x3, 0x4FFFE, 4⟩,
    ⟨0x2, 0x50003, 5⟩, ⟨0x3, 0x5FFFD, 5⟩, ⟨0x6, 0x70004, 7⟩, ⟨0x7, 0x7FFFC, 7⟩, ⟨0xA, 0x80005, 8⟩,
    ⟨0xB, 0x8FFFB, 8⟩, ⟨0x8, 0x80006, 8⟩, ⟨0x9, 0x8FFFA, 8⟩, ⟨0x6, 0x80007, 8⟩, ⟨0x7, 0x8FFF9, 8⟩,
    ⟨0x16, 0xA0008, 10⟩, ⟨0x17, 0xAFFF8, 10⟩, ⟨0x14, 0xA0009, 10⟩, ⟨0x15, 0xAFFF7, 10⟩,
    ⟨0x12, 0xA000A, 10⟩, ⟨0x13, 0xAFFF6, 10⟩, ⟨0x22, 0xB000B, 11⟩, ⟨0x23, 0xBFFF5, 11⟩,
    ⟨0x20, 0xB000C, 11⟩, ⟨0x21, 0xBFFF4, 11⟩, ⟨0x1E, 0xB000D, 11⟩, ⟨0x1F, 0xBFFF3, 11⟩,
    ⟨0x1C, 0xB000E, 11⟩, ⟨0x1D, 0xBFFF2, 11⟩, ⟨0x1A, 0xB000F, 11⟩, ⟨0x1B, 0xBFFF1, 11⟩,
    ⟨0x18, 0xB0010, 11⟩, ⟨0x19, 0xBFFF0, 11⟩]
  tableSize := 33
  maxBits := 11
  indexTable := [0, 1, 1, 3, 5, 7, 7, 9, 15, 15, 21]

def lumTable : VLCTable where
  table := [
    ⟨0x0000, 1, 2⟩, ⟨0x0001, 2, 2⟩, ⟨0x0004, 0, 3⟩, ⟨0x0005, 3, 3⟩, ⟨0x0006, 4, 3⟩, ⟨0x000E, 5, 4⟩,
    ⟨0x001E, 6, 5⟩, ⟨0x003E, 7, 6⟩, ⟨0x007E, 8, 7⟩, ⟨0x00FE, 9, 8⟩, ⟨0x01FE, 10, 9⟩, ⟨0x01FF, 11, 9⟩]
  tableSize := 12
  maxBits := 9
  indexTable := [0, 0, 2, 5, 6, 7, 8, 9, 10]

def chromTable : VLCTable where
  table := [
    ⟨0x0, 0, 2⟩, ⟨0x1, 1, 2⟩, ⟨0x2, 2, 2⟩, ⟨0x6, 3, 3⟩, ⟨0xE, 4, 4⟩, ⟨0x1E, 5, 5⟩, ⟨0x3E, 6, 6⟩,
    ⟨0x7E, 7, 7⟩, ⟨0xFE, 8, 8⟩, ⟨0x1FE, 9, 9⟩, ⟨0x3FE, 10, 10⟩, ⟨0x3FF, 11, 10⟩]
  tableSize := 12
  maxBits := 10
  indexTable := [0, 0, 3, 4, 5, 6, 7, 8, 9, 10]

def dctCoeffTable0 : VLCTable where
  table := [
    ⟨0x3, 0, 2⟩, ⟨0x3, 1, 3⟩, ⟨0x4, 2, 4⟩, ⟨0x5, 3, 4⟩, ⟨0x5, 4, 5⟩, ⟨0x7, 5, 5⟩, ⟨0x6, 6, 5⟩,
    ⟨0x6, 7, 6⟩, ⟨0x7, 8, 6⟩, ⟨0x5, 9, 6⟩, ⟨0x4, 10, 6⟩, ⟨0x1, 15, 6⟩, ⟨0x6, 11, 7⟩, ⟨0x4, 12, 7⟩,
    ⟨0x7, 13, 7⟩, ⟨0x5, 14, 7⟩, ⟨0x26, 16, 8⟩, ⟨0x21, 17, 8⟩, ⟨0x25, 18, 8⟩, ⟨0x24, 19, 8⟩,
    ⟨0x27, 20, 8⟩, ⟨0x23, 21, 8⟩, ⟨0x22, 22, 8⟩, ⟨0x20, 23, 8⟩, ⟨0xA, 24, 10⟩, ⟨0xC, 25, 10⟩,
    ⟨0xB, 26, 10⟩, ⟨0xF, 27, 10⟩, ⟨0x9, 28, 10⟩, ⟨0xE, 29, 10⟩, ⟨0xD, 30, 10⟩, ⟨0x8, 31, 10⟩,
    ⟨0x1D, 32, 12⟩, ⟨0x18, 33, 12⟩, ⟨0x13, 34, 12⟩, ⟨0x10, 35, 12⟩, ⟨0x1B, 36, 12⟩, ⟨0x14, 37, 12⟩,
    ⟨0x1C, 38, 12⟩, ⟨0x12, 39, 12⟩, ⟨0x1E, 40, 12⟩, ⟨0x15, 41, 12⟩, ⟨0x11, 42, 12⟩, ⟨0x1F, 43, 12⟩,
    ⟨0x1A, 44, 12⟩, ⟨0x19, 45, 12⟩, ⟨0x17, 46, 12⟩, ⟨0x16, 47, 12⟩, ⟨0x1A, 48, 13⟩, ⟨0x19, 49, 13⟩,
    ⟨0x18, 50, 13⟩, ⟨0x17, 51, 13⟩, ⟨0x16, 52, 13⟩, ⟨0x15, 53, 13⟩, ⟨0x14, 54, 13⟩, ⟨0x13, 55, 13⟩,
    ⟨0x12, 56, 13⟩, ⟨0x11, 57, 13⟩, ⟨0x10, 58, 13⟩, ⟨0x1F, 59, 13⟩, ⟨0x1E, 60, 13⟩, ⟨0x1D, 61, 13⟩,
    ⟨0x1C, 62, 13⟩, ⟨0x1B, 63, 13⟩, ⟨0x1F, 64, 14⟩, ⟨0x1E, 65, 14⟩, ⟨0x1D, 66, 14⟩, ⟨0x1C, 67, 14⟩,
    ⟨0x1B, 68, 14⟩, ⟨0x1A, 69, 14⟩, ⟨0x19, 70, 14⟩, ⟨0x18, 71, 14⟩, ⟨0x17, 72, 14⟩, ⟨0x16, 73, 14⟩,
    ⟨0x15, 74, 14⟩, ⟨0x14, 75, 14⟩, ⟨0x13, 76, 14⟩, ⟨0x12, 77, 14⟩, ⟨0x11, 78, 14⟩, ⟨0x10, 79, 14⟩,
    ⟨0x18, 80, 15⟩, ⟨0x17, 81, 15⟩, ⟨0x16, 82, 15⟩, ⟨0x15, 83, 15⟩, ⟨0x14, 84, 15⟩, ⟨0x13, 85, 15⟩,
    ⟨0x12, 86, 15⟩, ⟨0x11, 87, 15⟩, ⟨0x10, 88, 15⟩, ⟨0x1F, 89, 15⟩, ⟨0x1E, 90, 15⟩, ⟨0x1D, 91, 15⟩,
    ⟨0x1C, 92, 15⟩, ⟨0x1B, 93, 15⟩, ⟨0x1A, 94, 15⟩, ⟨0x19, 95, 15⟩, ⟨0x13, 96, 16⟩, ⟨0x12, 97, 16⟩,
    ⟨0x11, 98, 16⟩, ⟨0x10, 99, 16⟩, ⟨0x14, 100, 16⟩, ⟨0x1A, 101, 16⟩, ⟨0x19, 102, 16⟩, ⟨0x18, 103, 16⟩,
    ⟨0x17, 104, 16⟩, ⟨0x16, 105, 16⟩, ⟨0x15, 106, 16⟩, ⟨0x1F, 107, 16⟩, ⟨0x1E, 108, 16⟩,
    ⟨0x1D, 109, 16⟩, ⟨0x1C, 110, 16⟩, ⟨0x1B, 111, 16⟩]
  tableSize := 112
  maxBits := 16
  indexTable := [0, 0, 1, 2, 4, 7, 12, 16, 24, 24, 32, 32, 48, 64, 80, 96]

def dctCoeffTable1 : VLCTable where
  table := [
    ⟨0x2, 0, 2⟩, ⟨0x2, 1, 3⟩, ⟨0x6, 2, 3⟩, ⟨0x7, 4, 4⟩, ⟨0x5, 3, 5⟩, ⟨0x7, 5, 5⟩, ⟨0x6, 7, 5⟩,
    ⟨0x1C, 11, 5⟩, ⟨0x1D, 16, 5⟩, ⟨0x6, 6, 6⟩, ⟨0x7, 8, 6⟩, ⟨0x5, 17, 6⟩, ⟨0x4, 24, 6⟩, ⟨0x1, 15, 6⟩,
    ⟨0x79, 18, 7⟩, ⟨0x7A, 20, 7⟩, ⟨0x7, 12, 7⟩, ⟨0x5, 13, 7⟩, ⟨0x78, 14, 7⟩, ⟨0x6, 9, 7⟩, ⟨0x4, 10, 7⟩,
    ⟨0x7B, 32, 7⟩, ⟨0x7C, 33, 7⟩, ⟨0x26, 19, 8⟩, ⟨0x21, 21, 8⟩, ⟨0x25, 22, 8⟩, ⟨0x24, 23, 8⟩,
    ⟨0x27, 25, 8⟩, ⟨0xFC, 26, 8⟩, ⟨0xFD, 27, 8⟩, ⟨0xFA, 48, 8⟩, ⟨0xFB, 49, 8⟩, ⟨0xFE, 50, 8⟩,
    ⟨0xFF, 51, 8⟩, ⟨0x23, 34, 8⟩, ⟨0x22, 35, 8⟩, ⟨0x20, 36, 8⟩, ⟨0x4, 28, 9⟩, ⟨0x5, 29, 9⟩,
    ⟨0x7, 30, 9⟩, ⟨0xD, 31, 10⟩, ⟨0xC, 37, 10⟩, ⟨0x1C, 38, 12⟩, ⟨0x12, 39, 12⟩, ⟨0x1E, 40, 12⟩,
    ⟨0x15, 41, 12⟩, ⟨0x11, 42, 12⟩, ⟨0x1F, 43, 12⟩, ⟨0x1A, 44, 12⟩, ⟨0x19, 45, 12⟩, ⟨0x17, 46, 12⟩,
    ⟨0x16, 47, 12⟩, ⟨0x16, 52, 13⟩, ⟨0x15, 53, 13⟩, ⟨0x14, 54, 13⟩, ⟨0x13, 55, 13⟩, ⟨0x12, 56, 13⟩,
    ⟨0x11, 57, 13⟩, ⟨0x10, 58, 13⟩, ⟨0x1F, 59, 13⟩, ⟨0x1E, 60, 13⟩, ⟨0x1D, 61, 13⟩, ⟨0x1C, 62, 13⟩,
    ⟨0x1B, 63, 13⟩, ⟨0x1F, 64, 14⟩, ⟨0x1E, 65, 14⟩, ⟨0x1D, 66, 14⟩, ⟨0x1C, 67, 14⟩, ⟨0x1B, 68, 14⟩,
    ⟨0x1A, 69, 14⟩, ⟨0x19, 70, 14⟩, ⟨0x18, 71, 14⟩, ⟨0x17, 72, 14⟩, ⟨0x16, 73, 14⟩, ⟨0x15, 74, 14⟩,
    ⟨0x14, 75, 14⟩, ⟨0x13, 76, 14⟩, ⟨0x12, 77, 14⟩, ⟨0x11, 78, 14⟩, ⟨0x10, 79, 14⟩, ⟨0x18, 80, 15⟩,
    ⟨0x17, 81, 15⟩, ⟨0x16, 82, 15⟩, ⟨0x15, 83, 15⟩, ⟨0x14, 84, 15⟩, ⟨0x13, 85, 15⟩, ⟨0x12, 86, 15⟩,
    ⟨0x11, 87, 15⟩, ⟨0x10, 88, 15⟩, ⟨0x1F, 89, 15⟩, ⟨0x1E, 90, 15⟩, ⟨0x1D, 91, 15⟩, ⟨0x1C, 92, 15⟩,
    ⟨0x1B, 93, 15⟩, ⟨0x1A, 94, 15⟩, ⟨0x19, 95, 15⟩, ⟨0x13, 96, 16⟩, ⟨0x12, 97, 16⟩, ⟨0x11, 98, 16⟩,
    ⟨0x10, 99, 16⟩, ⟨0x14, 100, 16⟩, ⟨0x1A, 101, 16⟩, ⟨0x19, 102, 16⟩, ⟨0x18, 103, 16⟩, ⟨0x17, 104, 16⟩,
    ⟨0x16, 105, 16⟩, ⟨0x15, 106, 16⟩, ⟨0x1F, 107, 16⟩, ⟨0x1E, 108, 16⟩, ⟨0x1D, 109, 16⟩,
    ⟨0x1C, 110, 16⟩, ⟨0x1B, 111, 16⟩]
  tableSize := 112
  maxBits := 16
  indexTable := [0, 0, 1, 3, 4, 9, 14, 23, 37, 40, 40, 42, 52, 64, 80, 96]

def vlcTables : List VLCTable :=
  [macroblockAddrInc, macroblockIPic, macroblockPPic, macroblockBPic, codedBlockPattern, motionCode,
    lumTable, chromTable, dctCoeffTable0, dctCoeffTable1]

theorem checked_tables : ∀ T ∈ vlcTables, VLCTable.apart T.table = true ∧ T.Entries := by decide +kernel

theorem sound_of_mem {T : VLCTable} (hT : T ∈ vlcTables) : T.Sound := by
  obtain ⟨hapart, hentries⟩ := checked_tables T hT
  exact (hentries.checked hapart).sound

/-! ### Symbols -/

open PrefixCode FIFO

/-- The answer is the entry whose code the stream begins with. Without one it is an error if as many bits are
available as the longest code has, and else a request for more data. -/
theorem getSymbol_decodes {T : VLCTable} (hT : T ∈ vlcTables) {calls : List Call} (hcalls : Call.ClearAll calls reset)
    (stack : Quad) :
    let q := Call.execAll calls reset
    let out := T.getSymbol stack q
    PrefixFree VLCEntry.code T.table ∧
      (∀ e ∈ T.table, e ∈ (T.entriesFrom (e.bits - 1)).takeWhile (·.bits = e.bits)) ∧
      (∀ e ∈ T.table, e.code <+: q.stream → out.1 = .ok e.value ∧ out.2.stream = q.stream.drop e.bits) ∧
      (out.1 = .error .vlcError ↔ Dead VLCEntry.code T.table q.stream ∧ T.maxBits ≤ q.stream.length) ∧
      (out.1 = .error .moreData ↔ Undecided VLCEntry.code T.table q.stream ∨
        Dead VLCEntry.code T.table q.stream ∧ q.stream.length < T.maxBits) ∧
      ((∃ e, out.1 = .error e) → out.2.f = q.f ∧ out.2.bitPointer = q.bitPointer) := by
  intro q out
  have hsound := sound_of_mem hT
  have hq : q.Coherent := coherent_reset.execAll calls hcalls
  refine ⟨hsound.prefixFree, hsound.index, ?_, ?_, ?_, ?_⟩
  · exact fun e he hs => hsound.getSymbol_of_prefix stack hq he hs
  · exact (hsound.getSymbol_error_iff stack hq).trans (symbol_vlcError_iff hsound)
  · exact (hsound.getSymbol_error_iff stack hq).trans (symbol_moreData_iff hsound)
  · rintro ⟨x, hx⟩
    exact hsound.getSymbol_error stack hq hx

/-- The bits 1100… of a first quadword, of which the first is a macroblock type. -/
theorem decodes_macroblock_type :
    (macroblockIPic.getSymbol 0 (Call.execAll [.reset 0, .push 0xC0] reset)).1 = .ok 0x10001 := by
  have hcalls : Call.ClearAll [.reset 0, .push 0xC0] reset := ⟨trivial, trivial, trivial⟩
  have hdecodes := getSymbol_decodes (T := macroblockIPic) (by simp [vlcTables]) hcalls 0
  exact (hdecodes.2.2.1 ⟨0x1, 0x10001, 1⟩ (by decide) (by decide)).1

/-- Eight zeros begin no macroblock address increment, but more data is asked for. -/
theorem not_getSymbol_decided : ¬ ∀ T ∈ vlcTables, ∀ calls, Call.ClearAll calls reset → ∀ stack,
    ((T.getSymbol stack (Call.execAll calls reset)).1 = .error .vlcError ↔
      Dead VLCEntry.code T.table (Call.execAll calls reset).stream) := by
  intro h
  have hstream : (Call.execAll [.reset 120, .push 0] reset).stream = List.replicate 8 false := by decide
  have hdead : Dead VLCEntry.code macroblockAddrInc.table (Call.execAll [.reset 120, .push 0] reset).stream := by
    rw [hstream, dead_iff]
    decide
  have herror := (h macroblockAddrInc (by simp [vlcTables]) [.reset 120, .push 0] ⟨trivial, trivial, trivial⟩ 0).mpr
    hdead
  exact absurd herror (by decide)

end DobieStation.Ipu
