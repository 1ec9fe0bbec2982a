import Mathlib.Algebra.BigOperators.Group.List.Basic

/-! Contiguous tensors as bytes, byte buffers with slices, and views of a slice as a tensor. -/
namespace TensorBytes

inductive Dtype where
  | float64 | float32 | float16 | bfloat16 | float8E4m3fn | float8E5m2
  | int64 | int32 | int16 | int8 | uint8 | bool | complex64 | complex128
  | float8E4m3fnuz | float8E5m2fnuz | float8E8m0fnu | uint64 | uint32 | uint16 | complex32
deriving DecidableEq

def Dtype.itemsize : Dtype → Nat
  | complex128 => 16
  | float64 | int64 | uint64 | complex64 => 8
  | float32 | int32 | uint32 | complex32 => 4
  | float16 | bfloat16 | int16 | uint16 => 2
  | float8E4m3fn | float8E5m2 | float8E4m3fnuz | float8E5m2fnuz | float8E8m0fnu | int8 | uint8 | bool => 1

structure Tensor where
  dtype : Dtype
  shape : List Nat
  bytes : List UInt8
  size : bytes.length = dtype.itemsize * shape.prod
deriving DecidableEq

def Tensor.nbytes (t : Tensor) : Nat := t.bytes.length

/-- `slice.view(dtype).view(shape)` of bytes that begin at `offset` in their storage. -/
def view (offset : Nat) (bytes : List UInt8) (dtype : Dtype) (shape : List Nat) : Option Tensor :=
  if dtype.itemsize ∣ offset then
    if size : bytes.length = dtype.itemsize * shape.prod then some ⟨dtype,shape,bytes,size⟩ else none
  else none

/-- `buffer[offset : offset + size]`. -/
def read (offset size : Nat) (buffer : List UInt8) : List UInt8 := (buffer.drop offset).take size

/-- `buffer[offset : offset + len(bytes)] = bytes`. -/
def write (offset : Nat) (bytes buffer : List UInt8) : List UInt8 :=
  buffer.take offset ++ bytes ++ buffer.drop (offset + bytes.length)

theorem Dtype.itemsize_pos (dtype : Dtype) : 0 < dtype.itemsize := by cases dtype <;> decide

theorem view_tensor (offset : Nat) (t : Tensor) :
    view offset t.bytes t.dtype t.shape = if t.dtype.itemsize ∣ offset then some t else none := by
  unfold view
  rw [dif_pos t.size]

theorem write_length (offset : Nat) (bytes buffer : List UInt8) (fits : offset + bytes.length ≤ buffer.length) :
    (write offset bytes buffer).length = buffer.length := by
  simp only [write,List.length_append,List.length_take,List.length_drop]
  omega

/-- Pieces that lie one after the other from the start of a buffer. -/
def Packed (pieces : List (List UInt8)) (buffer : List UInt8) : Prop := pieces.flatten <+: buffer

theorem Packed.nil (buffer : List UInt8) : Packed [] buffer := List.nil_prefix

/-- The next piece goes behind the packed ones. -/
theorem Packed.write {pieces : List (List UInt8)} {buffer : List UInt8} (packed : Packed pieces buffer)
    (bytes : List UInt8) : Packed (pieces ++ [bytes]) (write pieces.flatten.length bytes buffer) := by
  obtain ⟨rest,rfl⟩ := packed
  refine ⟨(pieces.flatten ++ rest).drop (pieces.flatten.length + bytes.length),?_⟩
  simp [TensorBytes.write]

theorem Packed.read {before after : List (List UInt8)} {bytes buffer : List UInt8}
    (packed : Packed (before ++ bytes :: after) buffer) : read before.flatten.length bytes.length buffer = bytes := by
  obtain ⟨rest,rfl⟩ := packed
  simp [TensorBytes.read,List.append_assoc]

end TensorBytes
