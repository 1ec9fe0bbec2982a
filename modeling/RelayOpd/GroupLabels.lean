import Mathlib
import RelayOpd.GroupBy

/-! Group labels of a batch as a numpy array of one kind, and `as_torch_index`, which turns
them into integers by rounding, by coercion or by factorisation. -/
namespace RelayOpd

section PyInt

/-- Code points that `str.isspace` accepts. -/
def spaceCodes : List Nat :=
  [0x9,0xa,0xb,0xc,0xd,0x1c,0x1d,0x1e,0x1f,0x20,0x85,0xa0,0x1680,0x2000,0x2001,0x2002,0x2003,0x2004,0x2005,0x2006,
    0x2007,0x2008,0x2009,0x200a,0x2028,0x2029,0x202f,0x205f,0x3000]

/-- The zeros of the decimal digits of Unicode 14, each followed by its nine other digits. -/
def zeroCodes : List Nat :=
  [0x30,0x660,0x6f0,0x7c0,0x966,0x9e6,0xa66,0xae6,0xb66,0xbe6,0xc66,0xce6,0xd66,0xde6,0xe50,0xed0,0xf20,0x1040,0x1090,
    0x17e0,0x1810,0x1946,0x19d0,0x1a80,0x1a90,0x1b50,0x1bb0,0x1c40,0x1c50,0xa620,0xa8d0,0xa900,0xa9d0,0xa9f0,0xaa50,
    0xabf0,0xff10,0x104a0,0x10d30,0x11066,0x110f0,0x11136,0x111d0,0x112f0,0x11450,0x114d0,0x11650,0x116c0,0x11730,
    0x118e0,0x11950,0x11c50,0x11d50,0x11da0,0x16a60,0x16ac0,0x16b50,0x1d7ce,0x1d7d8,0x1d7e2,0x1d7ec,0x1d7f6,0x1e140,
    0x1e2f0,0x1e950,0x1fbf0]

def isPySpace (c : Char) : Bool := c.toNat ∈ spaceCodes

def decimalDigit (c : Char) : Option Nat :=
  (zeroCodes.find? (fun first => first ≤ c.toNat && c.toNat < first + 10)).map (c.toNat - ·)

/-- Digits with single underscores between them. -/
def pyDigits (value : Nat) (afterDigit : Bool) : List Char → Option Nat
  | [] => if afterDigit then some value else none
  | c :: rest =>
    if c = '_' then (if afterDigit then pyDigits value false rest else none)
    else match decimalDigit c with
      | some digit => pyDigits (10 * value + digit) true rest
      | none => none

/-- `int(s)`; a literal has at most 4300 digits. -/
def pyInt (s : String) : Option Int :=
  let body := (((s.toList.dropWhile isPySpace).reverse).dropWhile isPySpace).reverse
  if (body.filter (fun c => (decimalDigit c).isSome)).length > 4300 then none
  else match body with
    | '-' :: digits => (pyDigits 0 false digits).map (fun n => -(n : Int))
    | '+' :: digits => (pyDigits 0 false digits).map (fun n => (n : Int))
    | digits => (pyDigits 0 false digits).map (fun n => (n : Int))

end PyInt

section Arrays

/-- A `float64`; every finite one is a rational. -/
inductive FloatLabel where
  | finite (value : Rat)
  | infinite (negative : Bool)
  | nan
  deriving DecidableEq

/-- `np.rint`: to the nearest integer, ties to even. -/
def rint (value : Rat) : Int :=
  if (round value : Rat) - value = 1 / 2 ∧ ¬ Even (round value) then round value - 1 else round value

/-- The double that `1e-6` stands for. -/
def atol : Rat := 4722366482869645 / 2 ^ 72

def fitsInt64 (n : Int) : Bool := -2 ^ 63 ≤ n && n < 2 ^ 63

/-- A float that is no `int64` becomes the least one. -/
def castInt64 (n : Int) : Int := if fitsInt64 n then n else -2 ^ 63

namespace FloatLabel

/-- `np.isclose(x, np.rint(x), rtol=0.0, atol=1e-6)`. -/
def nearInteger : FloatLabel → Bool
  | finite value => |value - rint value| ≤ atol
  | infinite _ => true
  | nan => false

def rounded : FloatLabel → Int
  | finite value => castInt64 (rint value)
  | _ => -2 ^ 63

/-- `astype(np.int64)` rounds towards zero. -/
def truncated : FloatLabel → Int
  | finite value => castInt64 (Int.tdiv value.num value.den)
  | _ => -2 ^ 63

end FloatLabel

/-- A one-dimensional array of `n` labels. -/
inductive Labels (n : Nat) where
  | ints (xs : Fin n → Int64)
  | floats (xs : Fin n → FloatLabel)
  | strings (xs : Fin n → String)

inductive Label where
  | int (x : Int64)
  | float (x : FloatLabel)
  | str (x : String)
  deriving DecidableEq

instance : ToString Label where
  toString
    | .int x => toString x
    | .float _ => "float"
    | .str x => x

def Labels.get : Labels n → Fin n → Label
  | .ints xs,i => .int (xs i)
  | .floats xs,i => .float (xs i)
  | .strings xs,i => .str (xs i)

/-- `np.unique(xs)`. -/
def npUnique [LinearOrder κ] (xs : Fin n → κ) : List κ := (List.ofFn xs).dedup.insertionSort (· ≤ ·)

/-- `np.unique(xs, return_inverse=True)[1]`. -/
def uniqueInverse [LinearOrder κ] (xs : Fin n → κ) (i : Fin n) : Nat := (npUnique xs).idxOf (xs i)

theorem npUnique_nodup [LinearOrder κ] (xs : Fin n → κ) : (npUnique xs).Nodup :=
  (List.perm_insertionSort _ _).nodup_iff.mpr (List.nodup_dedup _)

theorem mem_npUnique [LinearOrder κ] (xs : Fin n → κ) (i : Fin n) : xs i ∈ npUnique xs :=
  (List.perm_insertionSort _ _).mem_iff.mpr (List.mem_dedup.mpr (List.mem_ofFn.mpr ⟨i,rfl⟩))

/-- Factorisation gives equal labels, and no others, equal codes. -/
theorem uniqueInverse_eq_iff [LinearOrder κ] (xs : Fin n → κ) (i j : Fin n) :
    uniqueInverse xs i = uniqueInverse xs j ↔ xs i = xs j :=
  List.idxOf_inj (mem_npUnique xs i)

/-- The codes are the numbers below the number of distinct labels. -/
theorem uniqueInverse_lt_iff [LinearOrder κ] (xs : Fin n → κ) (capacity : Nat) :
    (∀ i, uniqueInverse xs i < capacity) ↔ (npUnique xs).length ≤ capacity := by
  constructor
  · intro below
    by_contra more
    have inside : capacity < (npUnique xs).length := by omega
    have listed : (npUnique xs)[capacity] ∈ (List.ofFn xs).dedup :=
      (List.perm_insertionSort _ _).mem_iff.mp (List.getElem_mem inside)
    obtain ⟨i,same⟩ := List.mem_ofFn.mp (List.mem_dedup.mp listed)
    have code : uniqueInverse xs i = capacity := by
      rw [uniqueInverse,same]
      exact (npUnique_nodup xs).idxOf_getElem capacity inside
    exact absurd (below i) (by omega)
  · intro bound i
    exact (List.idxOf_lt_length_iff.mpr (mem_npUnique xs i)).trans_le bound

/-- `int(label)` where it is an `int64`. -/
def coerced (label : String) : Option Int := (pyInt label).filter fitsInt64

/-- `as_torch_index` of a numpy array. -/
def asTorchIndex : Labels n → Fin n → Int
  | .ints xs,i => (xs i).toInt
  | .floats xs,i => if ∀ j, (xs j).nearInteger then (xs i).rounded else (xs i).truncated
  | .strings xs,i =>
    if ∀ j, (coerced (xs j)).isSome then (coerced (xs i)).getD 0 else uniqueInverse xs i

/-- Equal labels have equal codes. -/
theorem asTorchIndex_congr (labels : Labels n) (i j : Fin n) (same : labels.get i = labels.get j) :
    asTorchIndex labels i = asTorchIndex labels j := by
  cases labels with
  | ints xs => rw [asTorchIndex,asTorchIndex,Label.int.inj same]
  | floats xs => rw [asTorchIndex,asTorchIndex,Label.float.inj same]
  | strings xs =>
    have alike := Label.str.inj same
    rw [asTorchIndex,asTorchIndex,alike,uniqueInverse,uniqueInverse,alike]

/-- Codes below a capacity, none of them negative, that distinct labels do not share. -/
structure Distinguishes (capacity : Nat) (code : Fin n → Int) (label : Fin n → α) : Prop where
  nonneg : ∀ i, 0 ≤ code i
  fits : ∀ i, code i < capacity
  injective : ∀ i j, code i = code j → label i = label j

/-- What the labels of an array must be like for `as_torch_index` to keep them apart: integers,
floats near integers, other floats, literals of integers or other strings. -/
def LabelsKept (capacity : Nat) : Labels n → Prop
  | .ints xs => ∀ i, 0 ≤ (xs i).toInt ∧ (xs i).toInt < capacity
  | .floats xs => (∀ i, xs i ≠ .nan) ∧
    if ∀ j, (xs j).nearInteger = true then Distinguishes capacity (fun i => (xs i).rounded) xs
    else Distinguishes capacity (fun i => (xs i).truncated) xs
  | .strings xs =>
    if ∀ j, (coerced (xs j)).isSome = true then Distinguishes capacity (fun i => (coerced (xs i)).getD 0) xs
    else (npUnique xs).length ≤ capacity

theorem Distinguishes.map {capacity : Nat} {code : Fin n → Int} {label : Fin n → α} (f : α → β)
    (inj : ∀ x y, f x = f y → x = y) :
    Distinguishes capacity code (fun i => f (label i)) ↔ Distinguishes capacity code label := by
  constructor
  · exact fun kept => ⟨kept.nonneg,kept.fits,fun i j same => inj _ _ (kept.injective i j same)⟩
  · exact fun kept => ⟨kept.nonneg,kept.fits,fun i j same => congrArg f (kept.injective i j same)⟩

theorem labelsKept_iff (capacity : Nat) (labels : Labels n) :
    LabelsKept capacity labels ↔
      (∀ i, labels.get i ≠ .float .nan) ∧ Distinguishes capacity (asTorchIndex labels) labels.get := by
  cases labels with
  | ints xs =>
    constructor
    · intro kept
      exact ⟨fun i => by simp [Labels.get],fun i => (kept i).1,fun i => (kept i).2,
        fun i j same => congrArg Label.int (Int64.toInt_inj.mp same)⟩
    · exact fun canonical i => ⟨canonical.2.nonneg i,canonical.2.fits i⟩
  | floats xs =>
    have numbers : (∀ i, (Labels.floats xs).get i ≠ .float .nan) ↔ ∀ i, xs i ≠ .nan := by simp [Labels.get]
    have wrapped := fun code => @Distinguishes.map n FloatLabel Label capacity code xs Label.float
      (fun _ _ => Label.float.inj)
    rw [LabelsKept,numbers]
    refine and_congr_right fun _ => ?_
    by_cases near : ∀ j, (xs j).nearInteger = true
    · have codes : asTorchIndex (.floats xs) = fun i => (xs i).rounded := funext fun i => if_pos near
      rw [if_pos near,codes]
      exact (wrapped _).symm
    · have codes : asTorchIndex (.floats xs) = fun i => (xs i).truncated := funext fun i => if_neg near
      rw [if_neg near,codes]
      exact (wrapped _).symm
  | strings xs =>
    have numbers : ∀ i, (Labels.strings xs).get i ≠ .float .nan := fun i => by simp [Labels.get]
    rw [LabelsKept,and_iff_right numbers]
    by_cases literals : ∀ j, (coerced (xs j)).isSome = true
    · have codes : asTorchIndex (.strings xs) = fun i => (coerced (xs i)).getD 0 := funext fun i => if_pos literals
      rw [if_pos literals,codes]
      exact (Distinguishes.map Label.str (fun _ _ => Label.str.inj)).symm
    · have codes : asTorchIndex (.strings xs) = fun i => (uniqueInverse xs i : Int) := funext fun i => if_neg literals
      rw [if_neg literals,codes,← uniqueInverse_lt_iff]
      constructor
      · exact fun below => ⟨fun i => Int.natCast_nonneg _,fun i => Int.ofNat_lt.mpr (below i),fun i j same =>
          congrArg Label.str ((uniqueInverse_eq_iff xs i j).mp (Int.ofNat.inj same))⟩
      · exact fun kept i => Int.ofNat_lt.mp (kept.fits i)

end Arrays

end RelayOpd
