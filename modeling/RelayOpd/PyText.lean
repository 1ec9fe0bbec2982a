import Mathlib.Algebra.Order.Field.Basic
import Mathlib.Data.List.DropRight

/-! Python's text operations, on lists of characters, and the values of `float(text)`. -/
namespace RelayOpd.PyText

/-- `str.isspace` of one character. -/
def isSpace (c : Char) : Bool :=
  let n := c.toNat
  (0x9 ≤ n && n ≤ 0xd) || (0x1c ≤ n && n ≤ 0x20) || n == 0x85 || n == 0xa0 || n == 0x1680 ||
    (0x2000 ≤ n && n ≤ 0x200a) || n == 0x2028 || n == 0x2029 || n == 0x202f || n == 0x205f || n == 0x3000

/-- `text.strip()`. -/
def strip (text : List Char) : List Char := (text.dropWhile isSpace).rdropWhile isSpace

/-- `[part.strip() for part in text.split(sep) if part.strip()]`. -/
def fields (sep : Char) (text : List Char) : List (List Char) :=
  ((text.splitOn sep).map strip).filter (fun part => !part.isEmpty)

/-- `text.split(sep, 1)` of a text that has the separator. -/
def splitOnce (sep : Char) (text : List Char) : List Char × List Char :=
  (text.takeWhile (· != sep),(text.dropWhile (· != sep)).tail)

def join (sep : Char) (parts : List (List Char)) : List Char := [sep].intercalate parts

theorem mem_of_mem_strip {c : Char} {text : List Char} (member : c ∈ strip text) : c ∈ text :=
  (List.dropWhile_suffix isSpace).mem ((List.rdropWhile_prefix isSpace (text.dropWhile isSpace)).mem member)

/-- Without surrounding space. -/
def Trimmed (text : List Char) : Prop :=
  text ≠ [] ∧ (∀ c ∈ text.head?, isSpace c = false) ∧ ∀ c ∈ text.getLast?, isSpace c = false

theorem Trimmed.strip_eq {text : List Char} (trimmed : Trimmed text) : strip text = text := by
  obtain ⟨nonempty,first,last⟩ := trimmed
  have front : text.dropWhile isSpace = text := by
    cases text with
    | nil => rfl
    | cons c rest => rw [List.dropWhile_cons_of_neg (by simp [first c rfl])]
  rw [strip,front,List.rdropWhile_eq_self_iff]
  intro some_
  simp [last _ (List.getLast?_eq_getLast_of_ne_nil some_)]

theorem splitOnce_append (sep : Char) (first second : List Char) (plain : sep ∉ first) :
    splitOnce sep (first ++ sep :: second) = (first,second) := by
  have passes : ∀ c ∈ first, (c != sep) = true := by
    intro c member
    exact bne_iff_ne.mpr (fun same => plain (same ▸ member))
  rw [splitOnce,List.takeWhile_append_of_pos passes,List.dropWhile_append_of_pos passes,
    List.takeWhile_cons_of_neg (by simp),List.dropWhile_cons_of_neg (by simp),List.append_nil,List.tail_cons]

/-- A separated text is its two parts again. -/
theorem splitOnce_spec (sep : Char) (text : List Char) (separated : sep ∈ text) :
    sep ∉ (splitOnce sep text).1 ∧ text = (splitOnce sep text).1 ++ sep :: (splitOnce sep text).2 := by
  obtain ⟨first,second,rfl,plain⟩ := List.eq_append_cons_of_mem separated
  rw [splitOnce_append sep first second plain]
  exact ⟨plain,rfl⟩

section Floats

variable {𝕜 : Type} [Field 𝕜] [LinearOrder 𝕜]

/-- A Python float whose finite values are exact. -/
inductive PyFloat (𝕜 : Type) where
  | finite (x : 𝕜)
  | inf
  | negInf
  | nan
  deriving DecidableEq

/-- `bound <= 0`. -/
def PyFloat.nonpos : PyFloat 𝕜 → Bool
  | .finite x => x ≤ 0
  | .negInf => true
  | _ => false

/-- `bound <= x`. -/
def PyFloat.below (x : 𝕜) : PyFloat 𝕜 → Bool
  | .finite lower => lower ≤ x
  | .negInf => true
  | _ => false

/-- `x <= bound`. -/
def PyFloat.above (x : 𝕜) : PyFloat 𝕜 → Bool
  | .finite upper => x ≤ upper
  | .inf => true
  | _ => false

/-- `1.0 / bound`. -/
def PyFloat.recip : PyFloat 𝕜 → Except String (PyFloat 𝕜)
  | .finite x => if x = 0 then .error "float division by zero" else .ok (.finite x⁻¹)
  | .nan => .ok .nan
  | _ => .ok (.finite 0)

end Floats

end RelayOpd.PyText
