import Mathlib.Data.BitVec
import Mathlib.Data.List.GetD

/-! # Files that are written and read back

A file is the list of the values that were written to it, one cell each. `write x` is what a value
leaves in the file, `read` takes it back from the front, and `run_read` is the law between the two.
An image of a record is that of its fields, of an array that of its elements. -/

namespace DobieStation.Lib.Serial

/-- A machine word of a width, or a number that is not bounded by one. -/
inductive Cell where
  | bits (width : ℕ) (v : BitVec width)
  | int (v : ℤ)
  deriving DecidableEq, Repr

abbrev File := List Cell

/-- What takes values from the front of a file. -/
abbrev Load (α : Type) := StateT File Option α

/-- The values of a type, as they stand in a file. -/
class Image (α : Type) where
  put : α → File
  get : File → Option (α × File)
  get_put : ∀ x rest, get (put x ++ rest) = some (x, rest)

section
variable {α β : Type} [Image α]

def write (x : α) : File := Image.put x

def read : Load α := Image.get

@[simp] theorem run_read (x : α) (rest : File) : read.run (write x ++ rest) = some (x, rest) :=
  Image.get_put x rest

@[simp] theorem run_read_bind (f : α → Load β) (x : α) (rest : File) :
    (read >>= f).run (write x ++ rest) = (f x).run rest := by
  rw [StateT.run_bind, run_read]
  rfl

omit [Image α] in
/-- A value that is there already. -/
@[simp] theorem run_some_bind (f : α → Load β) (x : α) (file : File) :
    ((liftM (some x) : Load α) >>= f).run file = (f x).run file := rfl

/-- The elements of a list one after the other. -/
def writeAll (xs : List α) : File := xs.flatMap write

def readAll : ℕ → Load (List α)
  | 0 => return []
  | n + 1 => do
    let x ← read
    return x :: (← readAll n)

@[simp] theorem run_readAll (xs : List α) (rest : File) :
    (readAll xs.length).run (writeAll xs ++ rest) = some (xs, rest) := by
  induction xs with
  | nil => rfl
  | cons x xs ih =>
    have hcons : writeAll (x :: xs) ++ rest = write x ++ (writeAll xs ++ rest) := by
      rw [writeAll, List.flatMap_cons, List.append_assoc]
      rfl
    rw [hcons, List.length_cons, readAll, run_read_bind, StateT.run_bind, ih]
    rfl

@[simp] theorem run_readAll_bind (f : List α → Load β) (xs : List α) (rest : File) :
    (readAll xs.length >>= f).run (writeAll xs ++ rest) = (f xs).run rest := by
  rw [StateT.run_bind, run_readAll]
  rfl

end

/-! ### Images -/

section
variable {α β κ : Type}

/-- A type that is read through another one. -/
@[reducible] def Image.ofLeftInverse [Image α] (g : β → α) (f : α → β) (h : ∀ y, f (g y) = y) : Image β where
  put y := Image.put (g y)
  get file := (Image.get file).map fun r => (f r.1, r.2)
  get_put y rest := by
    rw [Image.get_put, Option.map_some, h]

instance (w : ℕ) : Image (BitVec w) where
  put v := [.bits w v]
  get
    | .bits w' v :: rest => if h : w' = w then some (v.cast h, rest) else none
    | _ => none
  get_put v rest := by
    simp only [List.singleton_append, dite_true]
    rfl

instance : Image ℤ where
  put v := [.int v]
  get
    | .int v :: rest => some (v, rest)
    | _ => none
  get_put _ _ := rfl

instance : Image ℕ :=
  Image.ofLeftInverse (α := ℤ) (fun n => (n : ℤ)) Int.toNat Int.toNat_natCast

instance : Image Bool :=
  Image.ofLeftInverse (α := BitVec 8) (fun b => if b then 1 else 0) (fun v => v != 0) (by decide)

instance : Image Unit where
  put _ := []
  get file := some ((), file)
  get_put _ _ := rfl

instance [Image α] [Image β] : Image (α × β) where
  put x := write x.1 ++ write x.2
  get file := (read >>= fun a => read >>= fun b => pure (a, b) : Load (α × β)).run file
  get_put x rest := by
    have := run_read_bind (fun a => read >>= fun b => (pure (a, b) : Load (α × β))) x.1
      (write x.2 ++ rest)
    rw [List.append_assoc, this, run_read_bind]
    rfl

/-- An array indexed by the elements of `keys`. -/
@[reducible] def Image.array [DecidableEq κ] [Image α] [Inhabited α] (keys : List κ) (hall : ∀ k, k ∈ keys) :
    Image (κ → α) where
  put f := writeAll (keys.map f)
  get file := ((readAll keys.length).run file).map fun r =>
    (fun k => r.1.getD (keys.idxOf k) default, r.2)
  get_put f rest := by
    have hlen : (keys.map f).length = keys.length := List.length_map f
    rw [← hlen, run_readAll, Option.map_some]
    congr 2
    funext k
    have hk := List.idxOf_lt_length_of_mem (hall k)
    dsimp only
    rw [List.getD_eq_getElem _ _ (by rwa [hlen]), List.getElem_map, List.getElem_idxOf]

instance (n : ℕ) [Image α] [Inhabited α] : Image (Fin n → α) :=
  Image.array (List.finRange n) List.mem_finRange

end

/-! ### Lengths -/

/-- A length as a signed word of 32 bits; a loop up to a negative one makes no turn. -/
def writeLength (n : ℕ) : File := write (BitVec.ofNat 32 n)

def readLength : Load ℕ := do
  let n : BitVec 32 ← read
  return n.toInt.toNat

theorem run_readLength_bind {β : Type} (f : ℕ → Load β) {n : ℕ} (hn : n < 2 ^ 31) (rest : File) :
    (readLength >>= f).run (writeLength n ++ rest) = (f n).run rest := by
  have hmod : (BitVec.ofNat 32 n).toNat = n := by
    rw [BitVec.toNat_ofNat]
    omega
  have hint : (BitVec.ofNat 32 n).toInt.toNat = n := by
    rw [BitVec.toInt_eq_toNat_of_lt (by omega), hmod]
    omega
  unfold readLength writeLength
  rw [bind_assoc, run_read_bind, pure_bind, hint]

end DobieStation.Lib.Serial
