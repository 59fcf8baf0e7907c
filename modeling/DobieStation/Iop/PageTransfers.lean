import DobieStation.Iop.Serial
import DobieStation.Lib.Windows
import Mathlib.Tactic.IntervalCases

/-! # Writing a page of a memory card and reading it back

A page is written by a transfer that sets its number and by transfers of chunks, and read back in the same
way. Each transfer is followed from its first byte on: `set_page`, `write_chunk` and `read_chunk` say where
it leaves the address and the image (`At`), and the last one what it answers. -/

namespace DobieStation.Iop.PageTransfers

open DobieStation.Lib.Fault DobieStation.Lib.Windows DobieStation.Iop.Serial

/-- A transfer to the card. The byte that chooses the card starts it, and those after it are answered. -/
def transfer (bytes : List Byte) : M (List Byte) := do
  startTransfer
  bytes.mapM writeSerial

/-- The number of a page, the lowest byte first. -/
def pageBytes (page : Word) : List Byte := [byteOf 0 page, byteOf 1 page, byteOf 2 page, byteOf 3 page]

def setPage (cmd : Byte) (page : Word) (rest : List Byte) : List Byte := cmd :: (pageBytes page ++ rest)

/-- The length of a chunk, its bytes and what the console sends behind them. -/
def writeChunk (data rest : List Byte) : List Byte :=
  0x42 :: BitVec.ofNat 8 data.length :: (data ++ rest)

/-- The length of a chunk and the bytes that fetch it. -/
def readChunk (n : ℕ) (fill : List Byte) : List Byte := 0x43 :: BitVec.ofNat 8 n :: fill

/-- `do_checksum`. -/
def checksum (data : List Byte) : Byte := data.foldl (· ^^^ ·) 0

/-- The answer to a read: the data between the terminators, with their checksum. -/
def frame (terminator : Byte) (data : List Byte) : List Byte :=
  [0x2B, terminator] ++ (data ++ [checksum data, terminator])

theorem frame_length (t : Byte) (data : List Byte) : (frame t data).length = data.length + 4 := by
  simp [frame]

/-! ### A byte of a transfer -/

section

variable {c c' : Memcard} {b : Byte}

theorem gives_first (h : c.cmdLength = 0) (hb : Gives (beginCommand b) { c with cmd := b } ⟨⟩ c') :
    Gives (writeSerial b) c 0xFF c' := by
  unfold writeSerial
  refine gives_get.bind ?_
  rw [if_pos h]
  exact gives_modify.bind (hb.bind gives_pure)

theorem gives_readResponse (h : c.responseReadPos < bufferSize) :
    Gives readResponse c (c.responseBuffer c.responseReadPos)
      { c with responseReadPos := c.responseReadPos + 1 } := by
  have hload : Gives (loadResponse c.responseReadPos) c (c.responseBuffer c.responseReadPos) c := by
    unfold loadResponse
    refine gives_get.bind ?_
    rw [if_pos ⟨Int.natCast_nonneg _, by exact_mod_cast h⟩]
    exact gives_pure
  unfold readResponse
  refine gives_get.bind ?_
  rw [if_neg (not_le.mpr h)]
  exact gives_pure.bind (hload.bind (gives_modify.bind gives_pure))

/-- One byte further in a transfer. -/
def past (k : ℕ) (c : Memcard) : Memcard :=
  { c with cmdParams := c.cmdParams + k, responseReadPos := c.responseReadPos + k }

theorem gives_later (h : c.cmdLength ≠ 0) (hb : Gives (continueCommand b) c ⟨⟩ c')
    (hroom : c'.responseReadPos < bufferSize) :
    Gives (writeSerial b) c (c'.responseBuffer c'.responseReadPos) (past 1 c') := by
  unfold writeSerial
  refine gives_get.bind ?_
  rw [if_neg h]
  exact hb.bind (gives_modify.bind (gives_readResponse (c := { c' with cmdParams := c'.cmdParams + 1 }) hroom))

/-- Bytes that only fetch the answer. -/
theorem gives_idle (h : c.cmdLength ≠ 0)
    (hidle : ∀ k b, Gives (continueCommand b) (past k c) ⟨⟩ (past k c)) :
    ∀ (l : List Byte) (k : ℕ), c.responseReadPos + k + l.length ≤ bufferSize →
      Gives (l.mapM writeSerial) (past k c)
        (window c.responseBuffer (c.responseReadPos + k) l.length) (past (k + l.length) c)
  | [], _, _ => gives_pure
  | b :: l, k, hroom => by
    rw [List.length_cons] at hroom
    have hstep := gives_later (c := past k c) h (hidle k b) (by show c.responseReadPos + k < _; omega)
    have hrest := gives_idle h hidle l (k + 1) (by omega)
    rw [List.length_cons, window_succ, show k + (l.length + 1) = k + 1 + l.length by omega]
    exact gives_mapM_cons hstep hrest

/-! ### What is written to the response buffer -/

/-- Some bytes of the answer have been written. -/
def answered (l : List Byte) (c : Memcard) : Memcard :=
  { c with
    responseBuffer := put c.responseBuffer c.responseWritePos l
    responseWritePos := c.responseWritePos + l.length
    responseSize := c.responseSize + l.length }

theorem answered_append (l l' : List Byte) : answered l' (answered l c) = answered (l ++ l') c := by
  unfold answered
  simp only [put_append, List.length_append, Nat.add_assoc]

theorem gives_storeResponse {i : ℕ} (h : i < bufferSize) :
    Gives (storeResponse i b) c ⟨⟩ { c with responseBuffer := put c.responseBuffer i [b] } := by
  unfold storeResponse
  rw [if_pos ⟨Int.natCast_nonneg _, by exact_mod_cast h⟩, put_singleton]
  exact gives_modify

theorem gives_writeResponse (h : c.responseWritePos + 1 < bufferSize) :
    Gives (writeResponse b) c ⟨⟩ (answered [b] c) := by
  have hstore := gives_storeResponse (c := c) (b := b) (Nat.lt_of_succ_lt h)
  unfold writeResponse
  refine gives_get.bind (hstore.bind (gives_modify.bind (gives_get.bind ?_)))
  rw [if_neg (not_le.mpr h)]
  exact gives_pure

theorem gives_readImage {a : Word} (h : a.toNat < imageSize) : Gives (readImage a) c (c.mem a.toNat) c := by
  unfold readImage
  refine gives_get.bind ?_
  rw [if_pos h]
  exact gives_pure

theorem gives_writeImage {a : Word} (h : a.toNat < imageSize) :
    Gives (writeImage a b) c ⟨⟩ { c with mem := put c.mem a.toNat [b] } := by
  unfold writeImage
  rw [if_pos h, put_singleton]
  exact gives_modify

/-- The card between two transfers: its image, the address that is kept and the terminator. -/
structure At (c : Memcard) (mem : ℕ → Byte) (addr : ℕ) (t : Byte) : Prop where
  mem : c.mem = mem
  addr : c.memAddr.toNat = addr
  terminator : c.terminator = t

def started (c : Memcard) : Memcard :=
  { c with
    cmdLength := 0
    cmdParams := 0
    responseReadPos := 0
    responseWritePos := 0
    responseSize := 0
    authF0DoXor := false
    responseBuffer := fun _ => 0 }

theorem gives_transfer {l : List Byte} {bs : List Byte} (h : Gives (l.mapM writeSerial) (started c) bs c') :
    Gives (transfer l) c bs c' := gives_modify.bind h

/-! ### A page is set -/

theorem gives_responseEnd {n : ℕ} (h : c.cmdLength = n + 2) (hroom : n + 1 < bufferSize) :
    Gives responseEnd c ⟨⟩
      { c with responseBuffer := put (put c.responseBuffer n [0x2B]) (n + 1) [c.terminator] } := by
  have h1 : c.cmdLength - 2 = (n : ℤ) := by omega
  have h2 : c.cmdLength - 1 = ((n + 1 : ℕ) : ℤ) := by omega
  unfold responseEnd
  refine gives_get.bind ?_
  rw [h1, h2]
  exact (gives_storeResponse (Nat.lt_of_succ_lt hroom)).bind (gives_storeResponse hroom)

/-- The state of a card after `k` bytes of the number of a page. -/
def addressed (k : ℕ) (addr : Word) (c : Memcard) : Memcard :=
  past k { c with memAddr := addr }

theorem gives_sectorOp {x : Word} {k : ℕ} (hparams : c.cmdParams = 0) :
    Gives (sectorOp b) (addressed k x c) ⟨⟩ (addressed k (sectorAddr k x b) c) := by
  have hk : (addressed k x c).cmdParams = k := by
    show c.cmdParams + k = k
    omega
  have hop : Gives (sectorOp b) (addressed k x c) ⟨⟩
      { addressed k x c with memAddr := sectorAddr (addressed k x c).cmdParams x b } := gives_modify
  rw [hk] at hop
  exact hop

theorem gives_address {x : Word} {k : ℕ} (hcmd : c.cmd = 0x22 ∨ c.cmd = 0x23) (hlen : c.cmdLength ≠ 0)
    (hparams : c.cmdParams = 0) (hroom : c.responseReadPos + k < bufferSize) :
    Gives (writeSerial b) (addressed k x c) (c.responseBuffer (c.responseReadPos + k))
      (addressed (k + 1) (sectorAddr k x b) c) := by
  have hcmd' : (addressed k x c).cmd = 0x22 ∨ (addressed k x c).cmd = 0x23 := hcmd
  have hb : Gives (continueCommand b) (addressed k x c) ⟨⟩ (addressed k (sectorAddr k x b) c) := by
    unfold continueCommand
    refine gives_get.bind ?_
    rcases hcmd' with h | h
    · rw [h]
      exact gives_sectorOp hparams
    · rw [h]
      exact gives_sectorOp hparams
  refine gives_later (c := addressed k x c) hlen hb ?_
  exact hroom

/-- Behind the number nothing is done. -/
theorem gives_behind {x : Word} {k : ℕ} (hcmd : c.cmd = 0x22 ∨ c.cmd = 0x23) (hparams : c.cmdParams = 0)
    (hk : 4 ≤ k) : Gives (continueCommand b) (addressed k x c) ⟨⟩ (addressed k x c) := by
  have hcmd' : (addressed k x c).cmd = 0x22 ∨ (addressed k x c).cmd = 0x23 := hcmd
  have hop := gives_sectorOp (b := b) (x := x) (k := k) hparams
  have hsame : sectorAddr k x b = x := by
    obtain ⟨j, rfl⟩ := Nat.exists_eq_add_of_le hk
    rw [Nat.add_comm]
    rfl
  rw [hsame] at hop
  unfold continueCommand
  refine gives_get.bind ?_
  rcases hcmd' with h | h
  · rw [h]
    exact hop
  · rw [h]
    exact hop

/-- The four bytes put together. -/
theorem sectorAddr_page (page old : Word) :
    sectorAddr 3 (sectorAddr 2 (sectorAddr 1 (sectorAddr 0 old (byteOf 0 page)) (byteOf 1 page))
      (byteOf 2 page)) (byteOf 3 page) = page * 528 := by
  have hor : (byteOf 0 page).setWidth 32 ||| (byteOf 1 page).setWidth 32 <<< 8 |||
      (byteOf 2 page).setWidth 32 <<< 16 ||| (byteOf 3 page).setWidth 32 <<< 24 = page := by
    unfold byteOf
    refine BitVec.eq_of_getLsbD_eq fun i hi => ?_
    interval_cases i <;> simp
  show ((byteOf 0 page).setWidth 32 ||| (byteOf 1 page).setWidth 32 <<< 8 |||
      (byteOf 2 page).setWidth 32 <<< 16 ||| (byteOf 3 page).setWidth 32 <<< 24) * 528 = page * 528
  rw [hor]

theorem gives_page (hcmd : c.cmd = 0x22 ∨ c.cmd = 0x23) (hlen : c.cmdLength ≠ 0) (hparams : c.cmdParams = 0)
    (hroom : c.responseReadPos + 4 ≤ bufferSize) (page old : Word) :
    ∃ r, Gives ((pageBytes page).mapM writeSerial) (addressed 0 old c) r (addressed 4 (page * 528) c) := by
  have haddress (k : ℕ) (x : Word) (b : Byte) (hk : k < 4) :=
    gives_address (b := b) (x := x) (k := k) hcmd hlen hparams (by omega)
  rw [← sectorAddr_page page old]
  exact ⟨_, gives_mapM_cons (haddress 0 _ _ (by omega)) (gives_mapM_cons (haddress 1 _ _ (by omega))
    (gives_mapM_cons (haddress 2 _ _ (by omega)) (gives_mapM_cons (haddress 3 _ _ (by omega)) gives_pure)))⟩

theorem past_past (j k : ℕ) : past k (past j c) = past (j + k) c := by
  unfold past
  simp only [Nat.add_assoc]

/-- The first byte of a command that sets a page. -/
def setting (cmd : Byte) (c : Memcard) : Memcard :=
  { started c with
    cmd := cmd
    cmdLength := 7
    responseBuffer := put (put (fun _ => 0) 5 [0x2B]) 6 [c.terminator] }

theorem gives_setting {cmd : Byte} (hcmd : cmd = 0x22 ∨ cmd = 0x23) :
    Gives (writeSerial cmd) (started c) 0xFF (setting cmd c) := by
  have hplain : Gives (plain 7) { started c with cmd := cmd } ⟨⟩ (setting cmd c) := by
    unfold plain setLength
    exact gives_modify.bind (gives_responseEnd (n := 5) rfl (by decide))
  refine gives_first rfl ?_
  rcases hcmd with rfl | rfl
  · exact hplain
  · exact hplain

/-- **The number of a page.** -/
theorem set_page {mem : ℕ → Byte} {a : ℕ} {t : Byte} {cmd : Byte} (hcmd : cmd = 0x22 ∨ cmd = 0x23)
    (h : At c mem a t) (page : ℕ) (hpage : 528 * page < 2 ^ 32) {rest : List Byte}
    (hrest : rest.length + 4 ≤ bufferSize) :
    ∃ r c', Gives (transfer (setPage cmd (BitVec.ofNat 32 page) rest)) c r c' ∧ At c' mem (528 * page) t := by
  have hlen : (setting cmd c).cmdLength ≠ 0 := (by decide : (7 : ℤ) ≠ 0)
  obtain ⟨rs, hpages⟩ := gives_page (c := setting cmd c) hcmd hlen rfl
    (by decide : 0 + 4 ≤ bufferSize) (BitVec.ofNat 32 page) c.memAddr
  have hidle := gives_idle (c := addressed 4 (BitVec.ofNat 32 page * 528) (setting cmd c)) hlen
    (fun k b => by
      have hb := gives_behind (c := setting cmd c) (b := b) (x := BitVec.ofNat 32 page * 528)
        (k := 4 + k) hcmd rfl (by omega)
      unfold addressed at hb ⊢
      rwa [past_past]) rest 0 (by show 0 + 4 + 0 + rest.length ≤ bufferSize; omega)
  refine ⟨_, _, gives_transfer (gives_mapM_cons (gives_setting hcmd) (gives_mapM_append hpages hidle)), h.mem, ?_,
    h.terminator⟩
  show (BitVec.ofNat 32 page * 528).toNat = 528 * page
  rw [BitVec.toNat_mul, BitVec.toNat_ofNat]
  simp
  omega

/-! ### A chunk is written -/

/-- What the bytes of a chunk leave. -/
structure Wrote (c : Memcard) (l : List Byte) (c' : Memcard) : Prop where
  mem : c'.mem = put c.mem c.memAddr.toNat l
  addr : c'.memAddr.toNat = c.memAddr.toNat + l.length
  params : c'.cmdParams = c.cmdParams + l.length
  read : c'.responseReadPos = c.responseReadPos + l.length
  command : c'.cmd = c.cmd ∧ c'.cmdLength = c.cmdLength ∧ c'.memWriteSize = c.memWriteSize
  terminator : c'.terminator = c.terminator

theorem continue_write (hcmd : c.cmd = 0x42) (h : Gives (writeMem b) c ⟨⟩ c') :
    Gives (continueCommand b) c ⟨⟩ c' := by
  unfold continueCommand
  refine gives_get.bind ?_
  rw [hcmd]
  exact h

theorem gives_byte (hcmd : c.cmd = 0x42) (hlen : c.cmdLength ≠ 0) (hparams : c.cmdParams ≠ 0)
    (hsize : c.cmdParams ≤ c.memWriteSize.toNat) (himage : c.memAddr.toNat < imageSize)
    (hroom : c.responseReadPos < bufferSize) :
    ∃ r c', Gives (writeSerial b) c r c' ∧ Wrote c [b] c' := by
  have hw : Gives (writeMem b) c ⟨⟩
      { c with isDirty := true, mem := put c.mem c.memAddr.toNat [b], memAddr := c.memAddr + 1 } := by
    unfold writeMem
    refine gives_get.bind ?_
    rw [if_neg hparams, if_pos (by omega)]
    exact gives_modify.bind ((gives_writeImage (c := { c with isDirty := true }) himage).bind gives_modify)
  refine ⟨_, _, gives_later hlen (continue_write hcmd hw) hroom, rfl, ?_, rfl, rfl, ⟨rfl, rfl, rfl⟩, rfl⟩
  show (c.memAddr + 1).toNat = c.memAddr.toNat + 1
  have : imageSize = 0x840000 := rfl
  rw [BitVec.toNat_add]
  simp
  omega

theorem gives_bytes : ∀ (l : List Byte) {c : Memcard}, c.cmd = 0x42 → c.cmdLength ≠ 0 → c.cmdParams ≠ 0 →
    c.cmdParams + l.length ≤ c.memWriteSize.toNat + 1 → c.memAddr.toNat + l.length ≤ imageSize →
      c.responseReadPos + l.length ≤ bufferSize → ∃ r c', Gives (l.mapM writeSerial) c r c' ∧ Wrote c l c'
  | [], c, _, _, _, _, _, _ => ⟨[], c, gives_pure, ⟨put_nil.symm, rfl, rfl, rfl, ⟨rfl, rfl, rfl⟩, rfl⟩⟩
  | b :: l, c, hcmd, hlen, hparams, hsize, himage, hroom => by
    rw [List.length_cons] at hsize himage hroom
    obtain ⟨r, c₁, h₁, w₁⟩ := gives_byte (b := b) hcmd hlen hparams (by omega) (by omega) (by omega)
    obtain ⟨hc, hl, hs⟩ := w₁.command
    have hp := w₁.params
    have ha := w₁.addr
    have hr := w₁.read
    rw [List.length_singleton] at hp ha hr
    obtain ⟨rs, c₂, h₂, w₂⟩ := gives_bytes l (c := c₁) (hc.trans hcmd) (by rw [hl]; exact hlen) (by omega)
      (by rw [hs]; omega) (by omega) (by omega)
    refine ⟨_, c₂, gives_mapM_cons h₁ h₂, ?_, ?_, ?_, ?_, ?_, w₂.terminator.trans w₁.terminator⟩
    · rw [w₂.mem, w₁.mem, ha]
      exact put_append
    · rw [w₂.addr, ha, List.length_cons]
      omega
    · rw [w₂.params, hp, List.length_cons]
      omega
    · rw [w₂.read, hr, List.length_cons]
      omega
    · obtain ⟨hc', hl', hs'⟩ := w₂.command
      exact ⟨hc'.trans hc, hl'.trans hl, hs'.trans hs⟩

/-- The first byte of a command of chunks. -/
def chunking (cmd : Byte) (c : Memcard) : Memcard :=
  answered [0x2B, c.terminator] { started c with cmd := cmd, cmdLength := 132 }

theorem gives_chunking {cmd : Byte} (hcmd : cmd = 0x42 ∨ cmd = 0x43) :
    Gives (writeSerial cmd) (started c) 0xFF (chunking cmd c) := by
  have hheader : Gives writeHeader { started c with cmd := cmd, cmdLength := 132 } ⟨⟩ (chunking cmd c) := by
    have h1 := gives_writeResponse (c := { started c with cmd := cmd, cmdLength := 132 }) (b := 0x2B)
      (by decide : 0 + 1 < bufferSize)
    have h2 := gives_writeResponse (c := answered [0x2B] { started c with cmd := cmd, cmdLength := 132 })
      (b := c.terminator) (by decide : 1 + 1 < bufferSize)
    rw [answered_append] at h2
    exact h1.bind (gives_get.bind h2)
  refine gives_first rfl ?_
  rcases hcmd with rfl | rfl
  · exact gives_modify.bind hheader
  · exact gives_modify.bind hheader

/-- The length of a chunk that is to be written. -/
def sized (n : ℕ) (c : Memcard) : Memcard :=
  { chunking 0x42 c with
    memWriteSize := BitVec.ofNat 8 n
    responseBuffer := put (chunking 0x42 c).responseBuffer (n + 3) [c.terminator] }

theorem gives_sized {n : ℕ} (hn : n < 256) :
    Gives (writeMem (BitVec.ofNat 8 n)) (chunking 0x42 c) ⟨⟩ (sized n c) := by
  have hto : (BitVec.ofNat 8 n).toNat = n := by
    rw [BitVec.toNat_ofNat]
    omega
  have hzero : (chunking 0x42 c).cmdParams = 0 := rfl
  have hstore := gives_storeResponse (c := { chunking 0x42 c with memWriteSize := BitVec.ofNat 8 n })
    (b := c.terminator) (i := n + 3) (by unfold bufferSize; omega)
  unfold writeMem
  refine gives_get.bind ?_
  rw [if_pos hzero, hto]
  exact gives_modify.bind hstore

/-- Behind the chunk nothing is written. -/
theorem gives_unwritten (hcmd : c.cmd = 0x42) (hparams : c.cmdParams = c.memWriteSize.toNat + 1)
    (k : ℕ) : Gives (continueCommand b) (past k c) ⟨⟩ (past k c) := by
  have hp : (past k c).cmdParams = c.memWriteSize.toNat + 1 + k := by
    rw [← hparams]
    rfl
  refine continue_write (c := past k c) hcmd ?_
  unfold writeMem
  refine gives_get.bind ?_
  rw [if_neg (by omega), if_neg (by show ¬ _ < c.memWriteSize.toNat; omega)]
  exact gives_pure

/-- **A chunk is written** where the address is, and the address moves behind it. -/
theorem write_chunk {mem : ℕ → Byte} {a : ℕ} {t : Byte} (h : At c mem a t) {data rest : List Byte}
    (hsize : data.length < 256) (himage : a + data.length ≤ imageSize)
    (hroom : data.length + rest.length + 1 ≤ bufferSize) :
    ∃ r c', Gives (transfer (writeChunk data rest)) c r c' ∧ At c' (put mem a data) (a + data.length) t := by
  have hlen : (chunking 0x42 c).cmdLength ≠ 0 := (by decide : (132 : ℤ) ≠ 0)
  have hto : (BitVec.ofNat 8 data.length).toNat = data.length := by
    rw [BitVec.toNat_ofNat]
    omega
  have hfirst := gives_later hlen (continue_write rfl (gives_sized (c := c) hsize)) (by decide : 0 < bufferSize)
  obtain ⟨rs, c₁, h₁, w⟩ := gives_bytes data (c := past 1 (sized data.length c)) rfl hlen
    (by decide : 0 + 1 ≠ 0)
    (by show 0 + 1 + data.length ≤ (BitVec.ofNat 8 data.length).toNat + 1; omega)
    (by show c.memAddr.toNat + data.length ≤ imageSize; rw [h.addr]; exact himage)
    (by show 0 + 1 + data.length ≤ bufferSize; omega)
  obtain ⟨hc, hl, hs⟩ := w.command
  have hparams : c₁.cmdParams = c₁.memWriteSize.toNat + 1 := by
    rw [w.params, hs]
    show 0 + 1 + data.length = (BitVec.ofNat 8 data.length).toNat + 1
    omega
  have hread : c₁.responseReadPos = 0 + 1 + data.length := w.read
  have hidle := gives_idle (c := c₁) (by rw [hl]; exact hlen)
    (fun k b => gives_unwritten hc hparams k) rest 0 (by omega)
  refine ⟨_, _, gives_transfer (gives_mapM_cons (gives_chunking (Or.inl rfl)) (gives_mapM_cons hfirst
    (gives_mapM_append h₁ hidle))), ?_, ?_, ?_⟩
  · show c₁.mem = _
    rw [w.mem]
    show put c.mem c.memAddr.toNat data = _
    rw [h.mem, h.addr]
  · show c₁.memAddr.toNat = _
    rw [w.addr, ← h.addr]
    rfl
  · exact w.terminator.trans h.terminator

/-! ### A chunk is read -/

theorem gives_copyResponse {x : Word} {i : ℕ} (himage : x.toNat + i < imageSize)
    (hroom : c.responseWritePos + 1 < bufferSize) :
    Gives (copyResponse x i) c ⟨⟩ (answered [c.mem (x.toNat + i)] c) := by
  have hsize : imageSize = 0x840000 := rfl
  have hto : (x + BitVec.ofNat 32 i).toNat = x.toNat + i := by
    rw [BitVec.toNat_add, BitVec.toNat_ofNat]
    omega
  have hread := gives_readImage (c := c) (a := x + BitVec.ofNat 32 i) (by omega)
  rw [hto] at hread
  exact hread.bind (gives_writeResponse hroom)

/-- The loop that copies a chunk to the answer. -/
theorem gives_copies {x : Word} {n : ℕ} (himage : x.toNat + n ≤ imageSize)
    (hroom : c.responseWritePos + n < bufferSize) :
    Gives (upTo (copyResponse x) n 0) c ⟨⟩ (answered (window c.mem x.toNat n) c) := by
  have hloop := gives_upTo (d := copyResponse x)
    (g := fun i => answered (window c.mem x.toNat i) c) n 0 (by
      intro i _ hi
      have hpos : (answered (window c.mem x.toNat i) c).responseWritePos = c.responseWritePos + i := by
        show c.responseWritePos + (window c.mem x.toNat i).length = _
        rw [window_length]
      have hcopy := gives_copyResponse (c := answered (window c.mem x.toNat i) c) (x := x) (i := i)
        (by omega) (by omega)
      rw [answered_append] at hcopy
      rw [window_concat]
      exact hcopy)
  have hzero : answered (window c.mem x.toNat 0) c = c := by
    show answered [] c = c
    unfold answered
    rw [put_nil]
    rfl
  rw [hzero, Nat.zero_add] at hloop
  exact hloop

theorem gives_checksum {x : Word} : ∀ (n first : ℕ) (acc : Byte), x.toNat + first + n ≤ imageSize →
    Gives (checksumImage x n first acc) c ((window c.mem (x.toNat + first) n).foldl (· ^^^ ·) acc) c
  | 0, _, _, _ => gives_pure
  | n + 1, first, acc, himage => by
    have hsize : imageSize = 0x840000 := rfl
    have hto : (x + BitVec.ofNat 32 first).toNat = x.toNat + first := by
      rw [BitVec.toNat_add, BitVec.toNat_ofNat]
      omega
    have hread := gives_readImage (c := c) (a := x + BitVec.ofNat 32 first) (by omega)
    rw [hto] at hread
    rw [window_succ, List.foldl_cons]
    exact hread.bind (gives_checksum n (first + 1) _ (by omega))

theorem gives_readMem {x : Word} {n : Byte} (himage : x.toNat + n.toNat ≤ imageSize)
    (hroom : c.responseWritePos + n.toNat + 2 < bufferSize) :
    Gives (readMem x n) c ⟨⟩ (answered (window c.mem x.toNat n.toNat ++
      [checksum (window c.mem x.toNat n.toNat), c.terminator]) c) := by
  have hcopies := gives_copies (c := c) (x := x) (n := n.toNat) himage (by omega)
  have hlen : (answered (window c.mem x.toNat n.toNat) c).responseWritePos =
      c.responseWritePos + n.toNat := by
    show c.responseWritePos + (window c.mem x.toNat n.toNat).length = _
    rw [window_length]
  have hsum := gives_checksum (c := answered (window c.mem x.toNat n.toNat) c) (x := x)
    n.toNat 0 0 (by omega)
  have h1 := gives_writeResponse (c := answered (window c.mem x.toNat n.toNat) c)
    (b := checksum (window c.mem x.toNat n.toNat)) (by omega)
  rw [answered_append] at h1
  have h2 := gives_writeResponse
    (c := answered (window c.mem x.toNat n.toNat ++ [checksum (window c.mem x.toNat n.toNat)]) c)
    (b := c.terminator) (by
      show c.responseWritePos + (window c.mem x.toNat n.toNat ++ [_]).length + 1 < bufferSize
      rw [List.length_append, window_length]
      exact hroom)
  rw [answered_append, List.append_assoc] at h2
  exact hcopies.bind (hsum.bind (h1.bind (gives_get.bind h2)))

theorem continue_read {r : Byte} (hcmd : c.cmd = 0x43) (hparams : c.cmdParams = 0)
    (h : Gives (readMem c.memAddr r) c ⟨⟩ c') :
    Gives (continueCommand r) c ⟨⟩ { c' with memAddr := c'.memAddr + r.setWidth 32 } := by
  unfold continueCommand
  refine gives_get.bind ?_
  rw [hcmd]
  show Gives (if c.cmdParams = 0 then _ else _) _ _ _
  rw [if_pos hparams]
  exact h.bind gives_modify

theorem gives_fetched (hcmd : c.cmd = 0x43) (hparams : c.cmdParams ≠ 0) :
    Gives (continueCommand b) c ⟨⟩ c := by
  unfold continueCommand
  refine gives_get.bind ?_
  rw [hcmd]
  show Gives (if c.cmdParams = 0 then _ else _) _ _ _
  rw [if_neg hparams]
  exact gives_pure

/-- A card that has answered to the length of a chunk. -/
def fetching (n : ℕ) (c : Memcard) : Memcard :=
  { answered (frame c.terminator (window c.mem c.memAddr.toNat n))
      { started c with cmd := 0x43, cmdLength := 132 } with
    memAddr := c.memAddr + (BitVec.ofNat 8 n).setWidth 32 }

theorem gives_fetching {n : ℕ} (hn : n < 256) (himage : c.memAddr.toNat + n ≤ imageSize) :
    Gives (continueCommand (BitVec.ofNat 8 n)) (chunking 0x43 c) ⟨⟩ (fetching n c) := by
  have hto : (BitVec.ofNat 8 n).toNat = n := by
    rw [BitVec.toNat_ofNat]
    omega
  have hread := gives_readMem (c := chunking 0x43 c) (x := c.memAddr) (n := BitVec.ofNat 8 n)
    (by omega) (by show 2 + _ + 2 < 1024; omega)
  rw [hto] at hread
  have hframe := continue_read (c := chunking 0x43 c) rfl rfl hread
  unfold chunking at hframe
  rw [answered_append] at hframe
  exact hframe

/-- **A chunk is read**, and the address moves behind it. -/
theorem read_chunk {mem : ℕ → Byte} {a : ℕ} {t : Byte} (h : At c mem a t) {n : ℕ} {fill : List Byte}
    (hn : n < 256) (himage : a + n ≤ imageSize) (hfill : fill.length = n + 3) :
    ∃ c', Gives (transfer (readChunk n fill)) c (0xFF :: frame t (window mem a n)) c' ∧
      At c' mem (a + n) t := by
  have hlen : (fetching n c).cmdLength ≠ 0 := (by decide : (132 : ℤ) ≠ 0)
  have hfetch := gives_fetching (c := c) hn (by rw [h.addr]; exact himage)
  have hfirst := gives_later (by decide : (132 : ℤ) ≠ 0) hfetch (by decide : 0 < bufferSize)
  have hidle := gives_idle (c := past 1 (fetching n c)) hlen
    (fun k b => gives_fetched (c := past k (past 1 (fetching n c))) rfl
      (by show 0 + 1 + k ≠ 0; omega)) fill 0
    (by show 0 + 1 + 0 + fill.length ≤ 1024; omega)
  have hall := gives_transfer (gives_mapM_cons (gives_chunking (Or.inr rfl)) (gives_mapM_cons hfirst hidle))
  have hanswer : (fetching n c).responseBuffer (fetching n c).responseReadPos ::
      window (past 1 (fetching n c)).responseBuffer ((past 1 (fetching n c)).responseReadPos + 0) fill.length =
        frame t (window mem a n) := by
    have hbuffer : (fetching n c).responseBuffer = put (fun _ => 0) 0 (frame t (window mem a n)) := by
      rw [← h.mem, ← h.addr, ← h.terminator]
      rfl
    have hframe : fill.length + 1 = (frame t (window mem a n)).length := by
      rw [frame_length, window_length, hfill]
    show (fetching n c).responseBuffer 0 :: window (fetching n c).responseBuffer (0 + 1) fill.length = _
    rw [← window_succ, hbuffer, hframe, window_put]
  rw [hanswer] at hall
  refine ⟨_, hall, h.mem, ?_, h.terminator⟩
  show (c.memAddr + (BitVec.ofNat 8 n).setWidth 32).toNat = a + n
  have hsize : imageSize = 0x840000 := rfl
  have haddr := h.addr
  rw [BitVec.toNat_add, BitVec.toNat_setWidth, BitVec.toNat_ofNat]
  omega

/-! ### A page, chunk by chunk -/

theorem write_chunks {t : Byte} : ∀ (writes : List (List Byte × List Byte)) {c : Memcard} {mem : ℕ → Byte} {a : ℕ},
    At c mem a t → (∀ w ∈ writes, w.1.length < 256 ∧ w.1.length + w.2.length + 1 ≤ bufferSize) →
      a + (writes.map Prod.fst).flatten.length ≤ imageSize →
        ∃ rs c', Gives ((writes.map fun w => writeChunk w.1 w.2).mapM transfer) c rs c' ∧
          rs.length = writes.length ∧ At c' (put mem a (writes.map Prod.fst).flatten)
            (a + (writes.map Prod.fst).flatten.length) t
  | [], c, mem, a, h, _, _ => by
    refine ⟨[], c, gives_pure, rfl, ?_⟩
    show At c (put mem a []) (a + 0) t
    rw [put_nil]
    exact h
  | w :: writes, c, mem, a, h, hw, himage => by
    simp only [List.map_cons, List.flatten_cons, List.length_append] at himage ⊢
    obtain ⟨hsize, hroom⟩ := hw w List.mem_cons_self
    obtain ⟨r, c₁, h₁, hat⟩ := write_chunk h hsize (by omega) hroom
    obtain ⟨rs, c₂, h₂, hlen, hat'⟩ := write_chunks writes hat (fun v hv => hw v (List.mem_cons_of_mem w hv)) (by omega)
    rw [put_append, Nat.add_assoc] at hat'
    exact ⟨r :: rs, c₂, gives_mapM_cons h₁ h₂, by rw [List.length_cons, hlen, List.length_cons], hat'⟩

theorem read_chunks {t : Byte} : ∀ (reads : List (ℕ × List Byte)) {c : Memcard} {mem : ℕ → Byte} {a : ℕ},
    At c mem a t → (∀ r ∈ reads, r.1 < 256 ∧ r.2.length = r.1 + 3) →
      a + (reads.map Prod.fst).sum ≤ imageSize →
        ∃ c', Gives ((reads.map fun r => readChunk r.1 r.2).mapM transfer) c
          (((reads.map Prod.fst).splitLengths (window mem a (reads.map Prod.fst).sum)).map
            fun l => 0xFF :: frame t l) c' ∧ At c' mem (a + (reads.map Prod.fst).sum) t
  | [], c, _, _, h, _, _ => ⟨c, gives_pure, h⟩
  | r :: reads, c, mem, a, h, hr, himage => by
    simp only [List.map_cons, List.sum_cons] at himage ⊢
    obtain ⟨hn, hfill⟩ := hr r List.mem_cons_self
    obtain ⟨c₁, h₁, hat⟩ := read_chunk h hn (by omega) hfill
    obtain ⟨c₂, h₂, hat'⟩ := read_chunks reads hat (fun v hv => hr v (List.mem_cons_of_mem r hv)) (by omega)
    rw [Nat.add_assoc] at hat'
    rw [splitLengths_window, List.map_cons]
    exact ⟨c₂, gives_mapM_cons h₁ h₂, hat'⟩

end

/-- The transfers that write a page and read it back. -/
def session (page : Word) (rest rest' : List Byte) (writes : List (List Byte × List Byte))
    (reads : List (ℕ × List Byte)) : List (List Byte) :=
  (setPage 0x22 page rest :: writes.map fun w => writeChunk w.1 w.2) ++
    (setPage 0x23 page rest' :: reads.map fun r => readChunk r.1 r.2)

/-- **The round trip.** Whatever state the card is in, each read answers the next bytes of what has been
written, with their checksum, and nothing else of the image changes. -/
theorem page_round_trip (c : Memcard) (page : ℕ) (writes : List (List Byte × List Byte))
    (reads : List (ℕ × List Byte)) (rest rest' : List Byte) (hpage : page < 0x4000)
    (hrest : rest.length + 4 ≤ bufferSize) (hrest' : rest'.length + 4 ≤ bufferSize)
    (hwrites : ∀ w ∈ writes, w.1.length < 256 ∧ w.1.length + w.2.length + 1 ≤ bufferSize)
    (hpagesize : (writes.map Prod.fst).flatten.length ≤ 528)
    (hreads : ∀ r ∈ reads, r.1 < 256 ∧ r.2.length = r.1 + 3)
    (hsum : (reads.map Prod.fst).sum = (writes.map Prod.fst).flatten.length) :
    ∃ (before chunks : List (List Byte)) (c' : Memcard),
      Gives ((session (BitVec.ofNat 32 page) rest rest' writes reads).mapM transfer) c
        (before ++ chunks.map fun l => 0xFF :: frame c.terminator l) c' ∧
      before.length = writes.length + 2 ∧
      chunks.flatten = (writes.map Prod.fst).flatten ∧ chunks.map List.length = reads.map Prod.fst ∧
      window c'.mem (528 * page) (writes.map Prod.fst).flatten.length = (writes.map Prod.fst).flatten ∧
      ∀ k, k < 528 * page ∨ 528 * page + (writes.map Prod.fst).flatten.length ≤ k → c'.mem k = c.mem k := by
  have hsize : imageSize = 0x840000 := rfl
  obtain ⟨r₁, c₁, h₁, hat₁⟩ := set_page (Or.inl rfl) (At.mk (c := c) rfl rfl rfl) page (by omega) hrest
  obtain ⟨rs, c₂, h₂, hlen, hat₂⟩ := write_chunks writes hat₁ hwrites (by omega)
  obtain ⟨r₃, c₃, h₃, hat₃⟩ := set_page (Or.inr rfl) hat₂ page (by omega) hrest'
  obtain ⟨c₄, h₄, hat₄⟩ := read_chunks reads hat₃ hreads (by omega)
  rw [hsum, window_put] at h₄
  have hall := gives_mapM_append (gives_mapM_cons h₁ h₂) (gives_mapM_cons h₃ h₄)
  refine ⟨r₁ :: rs ++ [r₃], _, c₄, ?_, ?_, List.flatten_splitLengths _ _ hsum.ge,
    List.map_splitLengths_length _ _ hsum.le, ?_, ?_⟩
  · rw [List.append_assoc]
    exact hall
  · simp only [List.length_append, List.length_cons, List.length_nil, hlen]
  · rw [hat₄.mem, window_put]
  · rintro k (hk | hk)
    · rw [hat₄.mem, put_of_lt hk]
    · rw [hat₄.mem, put_of_le hk]

/-- A card of erased pages that has been put in. -/
def erased : Memcard where
  specs := ⟨0x200, 16, 0x4000⟩
  mem := fun _ => 0xFF
  cmdLength := 0
  cmdParams := 0
  cmd := 0
  terminator := 0x55
  fileOpened := true
  isDirty := false
  responseBuffer := fun _ => 0
  responseReadPos := 0
  responseWritePos := 0
  responseSize := 0
  memAddr := 0
  memWriteSize := 0
  authF0DoXor := false
  authF0Checksum := 0

/-- The first bytes of the last page, in two chunks and back in two others. -/
theorem page_round_trip_last :
    ∃ (before chunks : List (List Byte)) (c' : Memcard),
      Gives ((session 0x3FFF [0, 0, 0] [0, 0, 0] [([1, 2, 3], [0, 0]), ([4, 5], [1, 0])]
        [(1, [0, 0, 0, 0]), (4, [0, 0, 0, 0, 0, 0, 0])]).mapM transfer)
        erased (before ++ chunks.map fun l => 0xFF :: frame 0x55 l) c' ∧
      chunks.flatten = [1, 2, 3, 4, 5] := by
  obtain ⟨before, chunks, c', h, -, hdata, -⟩ := page_round_trip erased 0x3FFF
    [([1, 2, 3], [0, 0]), ([4, 5], [1, 0])] [(1, [0, 0, 0, 0]), (4, [0, 0, 0, 0, 0, 0, 0])]
    [0, 0, 0] [0, 0, 0] (by decide) (by decide) (by decide) (by decide) (by decide) (by decide) (by decide)
  exact ⟨before, chunks, c', h, hdata⟩

end DobieStation.Iop.PageTransfers
