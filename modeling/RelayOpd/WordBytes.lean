import Mathlib.Data.List.Basic
import Mathlib.Algebra.Order.Ring.Nat

/-! Arrays of fixed-width records as bytes: big-endian words, and sequences of
equally wide records read back by position. -/
namespace WordBytes

/-- The low `width` bytes of a number, most significant first. -/
def bigEndian : Nat → Nat → List UInt8
  | 0, _ => []
  | width + 1, n => UInt8.ofNat (n / 256 ^ width) :: bigEndian width (n % 256 ^ width)

def value : List UInt8 → Nat
  | [] => 0
  | b :: rest => b.toNat * 256 ^ rest.length + value rest

@[simp] theorem bigEndian_length (width n : Nat) : (bigEndian width n).length = width := by
  induction width generalizing n with
  | zero => rfl
  | succ width ih => simp [bigEndian,ih]

/-- A number that fits survives being written and read. -/
theorem value_bigEndian (width n : Nat) (fits : n < 256 ^ width) :
    value (bigEndian width n) = n := by
  induction width generalizing n with
  | zero =>
    have zero : n = 0 := by simpa using fits
    simp [bigEndian,value,zero]
  | succ width ih =>
    have positive : 0 < 256 ^ width := Nat.pow_pos (by decide)
    have digit : n / 256 ^ width < 256 := by
      rw [Nat.div_lt_iff_lt_mul positive]
      rwa [pow_succ,mul_comm] at fits
    have low : n % 256 ^ width < 256 ^ width := Nat.mod_lt n positive
    simp only [bigEndian,value,bigEndian_length,ih _ low,UInt8.toNat_ofNat',
      Nat.mod_eq_of_lt digit]
    exact Nat.div_add_mod' n (256 ^ width)

section Records

variable (write : α → List UInt8) (read : List UInt8 → α) (width : Nat)

def pack (xs : List α) : List UInt8 := xs.flatMap write

/-- The first `count` records. -/
def unpack : Nat → List UInt8 → List α
  | 0, _ => []
  | count + 1, bytes => read (bytes.take width) :: unpack count (bytes.drop width)

@[simp] theorem pack_nil : pack write [] = [] := rfl

@[simp] theorem pack_cons (x : α) (xs : List α) : pack write (x :: xs) = write x ++ pack write xs := rfl

@[simp] theorem unpack_length (count : Nat) (bytes : List UInt8) :
    (unpack read width count bytes).length = count := by
  induction count generalizing bytes with
  | zero => rfl
  | succ count ih => simp [unpack,ih]

variable {write read width}

theorem pack_length (wide : ∀ x, (write x).length = width) (xs : List α) :
    (pack write xs).length = width * xs.length := by
  induction xs with
  | nil => simp
  | cons x xs ih => simp [wide,ih,Nat.mul_succ,Nat.add_comm]

/-- Records that read back one by one read back as a sequence. -/
theorem unpack_pack (wide : ∀ x, (write x).length = width) (xs : List α)
    (exact : ∀ x ∈ xs, read (write x) = x) :
    unpack read width xs.length (pack write xs) = xs := by
  induction xs with
  | nil => rfl
  | cons x xs ih =>
    have head : read (write x) = x := exact x List.mem_cons_self
    have tail := ih (fun y member => exact y (List.mem_cons_of_mem x member))
    simp [unpack,List.take_left' (wide x),List.drop_left' (wide x),head,tail]

end Records

/-- The 32-bit words, written in four bytes. -/
def writeWord (w : BitVec 32) : List UInt8 := bigEndian 4 w.toNat

def readWord (bytes : List UInt8) : BitVec 32 := BitVec.ofNat 32 (value bytes)

@[simp] theorem writeWord_length (w : BitVec 32) : (writeWord w).length = 4 := bigEndian_length 4 _

@[simp] theorem readWord_writeWord (w : BitVec 32) : readWord (writeWord w) = w := by
  have fits : w.toNat < 256 ^ 4 := w.isLt
  simp [readWord,writeWord,value_bigEndian _ _ fits]

/-- Signed integers in two's complement. -/
def writeInt (x : Int) : List UInt8 := writeWord (BitVec.ofInt 32 x)

def readInt (bytes : List UInt8) : Int := (readWord bytes).toInt

def Int32Range (x : Int) : Prop := -2147483648 ≤ x ∧ x ≤ 2147483647

instance (x : Int) : Decidable (Int32Range x) := inferInstanceAs (Decidable (_ ∧ _))

@[simp] theorem writeInt_length (x : Int) : (writeInt x).length = 4 := writeWord_length _

theorem readInt_writeInt (x : Int) (range : Int32Range x) : readInt (writeInt x) = x := by
  obtain ⟨low,high⟩ := range
  simp only [readInt,writeInt,readWord_writeWord,BitVec.toInt_ofInt,Int.bmod_def]
  omega

end WordBytes
