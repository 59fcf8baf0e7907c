import DobieStation.Mmi.Model

/-! # What the packed instructions mean

The lanes of the result of each instruction, as functions of its sources: nothing here stores or runs in
an order. Arithmetic is that of integers, brought into the range of the lane where the instruction
saturates. -/

namespace DobieStation.Mmi.Meaning

open DobieStation.Lib.Lanes DobieStation.Mmi.Model
open DobieStation.Ee.Interface (Word Quad U128 Registers)
open DobieStation.Ee.Instructions (rs rt rd)

variable {w : ℕ}

/-- What an instruction works on: the registers before it, and its shift amount. -/
structure Sources where
  rs : Quad
  rt : Quad
  LO : Quad
  HI : Quad
  SA : ℕ
  sa : ℕ

def sources (i : Word) (r : Registers) : Sources where
  rs := r.gpr (rs i)
  rt := r.gpr (rt i)
  LO := quad r.LO
  HI := quad r.HI
  SA := r.SA.toNat
  sa := sa i 5

/-! ### Lanes -/

/-- The integer of a lane's signed range that is closest to `v`. -/
def signed (w : ℕ) (v : ℤ) : BitVec w := BitVec.ofInt w (max (-2 ^ (w - 1)) (min v (2 ^ (w - 1) - 1)))

/-- The integer of a lane's unsigned range that is closest to `v`. -/
def unsigned (w : ℕ) (v : ℤ) : BitVec w := BitVec.ofInt w (max 0 (min v (2 ^ w - 1)))

def mask (w : ℕ) (p : Prop) [Decidable p] : BitVec w := if p then BitVec.allOnes w else 0#w

/-- 1-5-5-5 to 8-8-8-8. -/
def widened (x : Word) : Word :=
  x.extractLsb' 15 1 ++ 0#7 ++ (x.extractLsb' 10 5 ++ 0#3) ++ (x.extractLsb' 5 5 ++ 0#3) ++
    (x.extractLsb' 0 5 ++ 0#3)

/-- 8-8-8-8 to 1-5-5-5. -/
def narrowed (x : Word) : Word :=
  0#16 ++ x.extractLsb' 31 1 ++ x.extractLsb' 19 5 ++ x.extractLsb' 11 5 ++ x.extractLsb' 3 5

/-! ### Words of lanes -/

def each (n : ℕ) (f : BitVec w → BitVec w → BitVec w) (s : Sources) : Quad :=
  ofLanes 128 n fun k => f (lane w s.rs k) (lane w s.rt k)

def interleaved (n : ℕ) (even odd : ℕ → BitVec w) : Quad :=
  ofLanes 128 n fun k => if k % 2 = 0 then even (k / 2) else odd (k / 2)

def joined (n : ℕ) (low high : ℕ → BitVec w) : Quad :=
  ofLanes 128 n fun k => if k < n / 2 then low k else high (k - n / 2)

def permuted (w n : ℕ) (table : List ℕ) (q : Quad) : Quad :=
  ofLanes 128 n fun k => lane w q (table.getD k 0)

/-- The words 0 and 1 of LO, 0 and 1 of HI, 2 and 3 of LO, 2 and 3 of HI, as halfwords. -/
def halfwords (f : BitVec 32 → BitVec 16) (s : Sources) : Quad :=
  ofLanes 128 8 fun k => f (lane 32 (if k / 2 % 2 = 0 then s.LO else s.HI) (k / 4 * 2 + k % 2))

/-! ### The instructions -/

/-- The result of an instruction whose destination is a general register. -/
def value (op : Packed) (s : Sources) : Quad :=
  match op with
  | .psllh => each 8 (fun _ (x : BitVec 16) => x <<< (s.sa % 16)) s
  | .psrlh => each 8 (fun _ (x : BitVec 16) => x >>> (s.sa % 16)) s
  | .psrah => each 8 (fun _ (x : BitVec 16) => x.sshiftRight (s.sa % 16)) s
  | .psllw => each 4 (fun _ (x : BitVec 32) => x <<< s.sa) s
  | .psrlw => each 4 (fun _ (x : BitVec 32) => x >>> s.sa) s
  | .psraw => each 4 (fun _ (x : BitVec 32) => x.sshiftRight s.sa) s
  | .pmfhllw => interleaved 4 (fun k => lane 32 s.LO (2 * k)) fun k => lane 32 s.HI (2 * k)
  | .pmfhluw => interleaved 4 (fun k => lane 32 s.LO (2 * k + 1)) fun k => lane 32 s.HI (2 * k + 1)
  | .pmfhlslw => ofLanes 128 2 fun k =>
      (signed 32 (lane 32 s.HI (2 * k) ++ lane 32 s.LO (2 * k)).toInt).signExtend 64
  | .pmfhllh => halfwords (fun x => x.setWidth 16) s
  | .pmfhlsh => halfwords (fun x => signed 16 x.toInt) s
  | .paddw => each 4 (fun (x y : BitVec 32) => x + y) s
  | .psubw => each 4 (fun (x y : BitVec 32) => x - y) s
  | .pcgtw => each 4 (fun (x y : BitVec 32) => mask 32 (y.toInt < x.toInt)) s
  | .pmaxw => each 4 (fun (x y : BitVec 32) => BitVec.ofInt 32 (max x.toInt y.toInt)) s
  | .paddh => each 8 (fun (x y : BitVec 16) => x + y) s
  | .psubh => each 8 (fun (x y : BitVec 16) => x - y) s
  | .pcgth => each 8 (fun (x y : BitVec 16) => mask 16 (y.toInt < x.toInt)) s
  | .pmaxh => each 8 (fun (x y : BitVec 16) => BitVec.ofInt 16 (max x.toInt y.toInt)) s
  | .paddb => each 16 (fun (x y : BitVec 8) => x + y) s
  | .psubb => each 16 (fun (x y : BitVec 8) => x - y) s
  | .pcgtb => each 16 (fun (x y : BitVec 8) => mask 8 (y.toInt < x.toInt)) s
  | .paddsw => each 4 (fun (x y : BitVec 32) => signed 32 (x.toInt + y.toInt)) s
  | .psubsw => each 4 (fun (x y : BitVec 32) => signed 32 (x.toInt - y.toInt)) s
  | .pextlw => interleaved 4 (lane 32 s.rt) (lane 32 s.rs)
  | .ppacw => joined 4 (fun k => lane 32 s.rt (2 * k)) fun k => lane 32 s.rs (2 * k)
  | .paddsh => each 8 (fun (x y : BitVec 16) => signed 16 (x.toInt + y.toInt)) s
  | .psubsh => each 8 (fun (x y : BitVec 16) => signed 16 (x.toInt - y.toInt)) s
  | .pextlh => interleaved 8 (lane 16 s.rt) (lane 16 s.rs)
  | .ppach => joined 8 (fun k => lane 16 s.rt (2 * k)) fun k => lane 16 s.rs (2 * k)
  | .paddsb => each 16 (fun (x y : BitVec 8) => signed 8 (x.toInt + y.toInt)) s
  | .psubsb => each 16 (fun (x y : BitVec 8) => signed 8 (x.toInt - y.toInt)) s
  | .pextlb => interleaved 16 (lane 8 s.rt) (lane 8 s.rs)
  | .ppacb => joined 16 (fun k => lane 8 s.rt (2 * k)) fun k => lane 8 s.rs (2 * k)
  | .pext5 => each 4 (fun _ => widened) s
  | .ppac5 => each 4 (fun _ => narrowed) s
  | .pabsw => each 4 (fun _ (x : BitVec 32) => signed 32 |x.toInt|) s
  | .pceqw => each 4 (fun (x y : BitVec 32) => mask 32 (x = y)) s
  | .pminw => each 4 (fun (x y : BitVec 32) => BitVec.ofInt 32 (min x.toInt y.toInt)) s
  | .padsbh => joined 8 (fun k => lane 16 s.rs k - lane 16 s.rt k) fun k =>
      lane 16 s.rs (k + 4) + lane 16 s.rt (k + 4)
  | .pabsh => each 8 (fun _ (x : BitVec 16) => signed 16 |x.toInt|) s
  | .pceqh => each 8 (fun (x y : BitVec 16) => mask 16 (x = y)) s
  | .pminh => each 8 (fun (x y : BitVec 16) => BitVec.ofInt 16 (min x.toInt y.toInt)) s
  | .pceqb => each 16 (fun (x y : BitVec 8) => mask 8 (x = y)) s
  | .padduw => each 4 (fun (x y : BitVec 32) => unsigned 32 (x.toNat + y.toNat)) s
  | .psubuw => each 4 (fun (x y : BitVec 32) => unsigned 32 (x.toNat - y.toNat)) s
  | .pextuw => interleaved 4 (fun k => lane 32 s.rt (k + 2)) fun k => lane 32 s.rs (k + 2)
  | .padduh => each 8 (fun (x y : BitVec 16) => unsigned 16 (x.toNat + y.toNat)) s
  | .psubuh => each 8 (fun (x y : BitVec 16) => unsigned 16 (x.toNat - y.toNat)) s
  | .pextuh => interleaved 8 (fun k => lane 16 s.rt (k + 4)) fun k => lane 16 s.rs (k + 4)
  | .paddub => each 16 (fun (x y : BitVec 8) => unsigned 8 (x.toNat + y.toNat)) s
  | .psubub => each 16 (fun (x y : BitVec 8) => unsigned 8 (x.toNat - y.toNat)) s
  | .pextub => interleaved 16 (fun k => lane 8 s.rt (k + 8)) fun k => lane 8 s.rs (k + 8)
  | .qfsrv => ((s.rs ++ s.rt) >>> (8 * s.SA)).setWidth 128
  | .psllvw => each 2 (fun (x y : BitVec 64) => (y.setWidth 32 <<< (x.toNat % 32)).signExtend 64) s
  | .psrlvw => each 2 (fun (x y : BitVec 64) => (y.setWidth 32 >>> (x.toNat % 32)).signExtend 64) s
  | .psravw =>
      each 2 (fun (x y : BitVec 64) => ((y.setWidth 32).sshiftRight (x.toNat % 32)).signExtend 64) s
  | .pmfhi => s.HI
  | .pmflo => s.LO
  | .pinth => interleaved 8 (lane 16 s.rt) fun k => lane 16 s.rs (k + 4)
  | .pinteh => interleaved 8 (fun k => lane 16 s.rt (2 * k)) fun k => lane 16 s.rs (2 * k)
  | .pcpyld => joined 2 (fun _ => lane 64 s.rt 0) fun _ => lane 64 s.rs 0
  | .pcpyud => joined 2 (fun _ => lane 64 s.rs 1) fun _ => lane 64 s.rt 1
  | .pand => s.rs &&& s.rt
  | .pxor => s.rs ^^^ s.rt
  | .por => s.rs ||| s.rt
  | .pnor => ~~~(s.rs ||| s.rt)
  | .pexeh => permuted 16 8 [2, 1, 0, 3, 6, 5, 4, 7] s.rt
  | .prevh => permuted 16 8 [3, 2, 1, 0, 7, 6, 5, 4] s.rt
  | .pexew => permuted 32 4 [2, 1, 0, 3] s.rt
  | .prot3w => permuted 32 4 [1, 2, 0, 3] s.rt
  | .pexch => permuted 16 8 [0, 2, 1, 3, 4, 6, 5, 7] s.rt
  | .pcpyh => permuted 16 8 [0, 0, 0, 0, 4, 4, 4, 4] s.rt
  | .pexcw => permuted 32 4 [0, 2, 1, 3] s.rt
  | .pmthllw | .pmthi | .pmtlo => 0

/-- A register as a whole; the register 0 stays zero. -/
def write (g : File) (id : BitVec 5) (q : Quad) : File :=
  if id = 0 then g else Function.update g id q

/-- The registers after an instruction: its destination, and no other. -/
def result (op : Packed) (i : Word) (r : Registers) : Registers :=
  let s := sources i r
  match op with
  | .pmthi => { r with HI := halves s.rs }
  | .pmtlo => { r with LO := halves s.rs }
  | .pmthllw =>
    { r with
      LO := halves (interleaved 4 (fun k => lane 32 s.rs (2 * k)) fun k => lane 32 s.LO (2 * k + 1))
      HI := halves (interleaved 4 (fun k => lane 32 s.rs (2 * k + 1)) fun k =>
        lane 32 s.HI (2 * k + 1)) }
  | op => { r with gpr := write r.gpr (rd i) (value op s) }

/-- How an instruction of the MMI class is encoded: its function, and the field that selects it there. -/
def code (op : Packed) : ℕ × Option ℕ :=
  match op with
  | .psllh => (0x34, none)
  | .psrlh => (0x36, none)
  | .psrah => (0x37, none)
  | .psllw => (0x3C, none)
  | .psrlw => (0x3E, none)
  | .psraw => (0x3F, none)
  | .pmfhllw => (0x30, some 0x00)
  | .pmfhluw => (0x30, some 0x01)
  | .pmfhlslw => (0x30, some 0x02)
  | .pmfhllh => (0x30, some 0x03)
  | .pmfhlsh => (0x30, some 0x04)
  | .pmthllw => (0x31, none)
  | .paddw => (0x08, some 0x00)
  | .psubw => (0x08, some 0x01)
  | .pcgtw => (0x08, some 0x02)
  | .pmaxw => (0x08, some 0x03)
  | .paddh => (0x08, some 0x04)
  | .psubh => (0x08, some 0x05)
  | .pcgth => (0x08, some 0x06)
  | .pmaxh => (0x08, some 0x07)
  | .paddb => (0x08, some 0x08)
  | .psubb => (0x08, some 0x09)
  | .pcgtb => (0x08, some 0x0A)
  | .paddsw => (0x08, some 0x10)
  | .psubsw => (0x08, some 0x11)
  | .pextlw => (0x08, some 0x12)
  | .ppacw => (0x08, some 0x13)
  | .paddsh => (0x08, some 0x14)
  | .psubsh => (0x08, some 0x15)
  | .pextlh => (0x08, some 0x16)
  | .ppach => (0x08, some 0x17)
  | .paddsb => (0x08, some 0x18)
  | .psubsb => (0x08, some 0x19)
  | .pextlb => (0x08, some 0x1A)
  | .ppacb => (0x08, some 0x1B)
  | .pext5 => (0x08, some 0x1E)
  | .ppac5 => (0x08, some 0x1F)
  | .pabsw => (0x28, some 0x01)
  | .pceqw => (0x28, some 0x02)
  | .pminw => (0x28, some 0x03)
  | .padsbh => (0x28, some 0x04)
  | .pabsh => (0x28, some 0x05)
  | .pceqh => (0x28, some 0x06)
  | .pminh => (0x28, some 0x07)
  | .pceqb => (0x28, some 0x0A)
  | .padduw => (0x28, some 0x10)
  | .psubuw => (0x28, some 0x11)
  | .pextuw => (0x28, some 0x12)
  | .padduh => (0x28, some 0x14)
  | .psubuh => (0x28, some 0x15)
  | .pextuh => (0x28, some 0x16)
  | .paddub => (0x28, some 0x18)
  | .psubub => (0x28, some 0x19)
  | .pextub => (0x28, some 0x1A)
  | .qfsrv => (0x28, some 0x1B)
  | .psllvw => (0x09, some 0x02)
  | .psrlvw => (0x09, some 0x03)
  | .pmfhi => (0x09, some 0x08)
  | .pmflo => (0x09, some 0x09)
  | .pinth => (0x09, some 0x0A)
  | .pcpyld => (0x09, some 0x0E)
  | .pand => (0x09, some 0x12)
  | .pxor => (0x09, some 0x13)
  | .pexeh => (0x09, some 0x1A)
  | .prevh => (0x09, some 0x1B)
  | .pexew => (0x09, some 0x1E)
  | .prot3w => (0x09, some 0x1F)
  | .psravw => (0x29, some 0x03)
  | .pmthi => (0x29, some 0x08)
  | .pmtlo => (0x29, some 0x09)
  | .pinteh => (0x29, some 0x0A)
  | .pcpyud => (0x29, some 0x0E)
  | .por => (0x29, some 0x12)
  | .pnor => (0x29, some 0x13)
  | .pexch => (0x29, some 0x1A)
  | .pcpyh => (0x29, some 0x1B)
  | .pexcw => (0x29, some 0x1E)

end DobieStation.Mmi.Meaning
