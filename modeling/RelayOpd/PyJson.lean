import Mathlib.Data.List.Basic
import Mathlib.Tactic.IntervalCases
import Mathlib.Tactic.SplitIfs

/-! JSON text as Python's `json` module writes it for flat objects and reads it in
general. A float is kept as its literal, and an escape naming half a surrogate
pair has no value here. -/
namespace PyJson

inductive Value where
  | null
  | bool (b : Bool)
  | int (n : Int)
  | real (literal : List Char)
  | str (text : String)
  | arr (items : List Value)
  | obj (fields : List (String × Value))

/-- The values that flat objects hold. -/
inductive Scalar where
  | int (n : Int)
  | str (text : String)
  deriving DecidableEq, Repr

def Scalar.toValue : Scalar → Value
  | .int n => .int n
  | .str text => .str text

/-- A dictionary of scalars, in insertion order. -/
structure FlatDict where
  fields : List (String × Scalar)
  distinct : (fields.map Prod.fst).Nodup

def toValues (fields : List (String × Scalar)) : List (String × Value) :=
  fields.map (fun field => (field.1,field.2.toValue))

section Dumps

def hexDigit (n : Nat) : Char := Nat.digitChar n

/-- `ESCAPE_DCT`, with `ensure_ascii=False`. -/
def escape (c : Char) : List Char :=
  if c = '"' then ['\\','"']
  else if c = '\\' then ['\\','\\']
  else if c = '\n' then ['\\','n']
  else if c = '\r' then ['\\','r']
  else if c = '\t' then ['\\','t']
  else if c = '\x0c' then ['\\','f']
  else if c = '\x08' then ['\\','b']
  else if c.toNat < 0x20 then ['\\','u','0','0',hexDigit (c.toNat / 16),hexDigit (c.toNat % 16)]
  else [c]

def dumpString (text : List Char) : List Char := '"' :: (text.flatMap escape ++ ['"'])

def dumpInt : Int → List Char
  | .ofNat n => Nat.toDigits 10 n
  | .negSucc n => '-' :: Nat.toDigits 10 (n + 1)

def Scalar.dump : Scalar → List Char
  | .int n => dumpInt n
  | .str text => dumpString text.toList

def dumpField (field : String × Scalar) : List Char :=
  dumpString field.1.toList ++ [':',' '] ++ field.2.dump

def dumpFields : List (String × Scalar) → List Char
  | [] => []
  | [field] => dumpField field
  | field :: fields => dumpField field ++ [',',' '] ++ dumpFields fields

def dumpObject (fields : List (String × Scalar)) : List Char := '{' :: (dumpFields fields ++ ['}'])

/-- `json.dumps` of a flat dictionary. -/
def dumps (d : FlatDict) : List Char := dumpObject d.fields

end Dumps

section Loads

def isSpace (c : Char) : Bool := c = ' ' || c = '\t' || c = '\n' || c = '\r'

def skip (text : List Char) : List Char := text.dropWhile isSpace

def hexValue (c : Char) : Option Nat :=
  if '0' ≤ c ∧ c ≤ '9' then some (c.toNat - '0'.toNat)
  else if 'a' ≤ c ∧ c ≤ 'f' then some (c.toNat - 'a'.toNat + 10)
  else if 'A' ≤ c ∧ c ≤ 'F' then some (c.toNat - 'A'.toNat + 10)
  else none

/-- The code unit named by four hexadecimal digits. -/
def codeUnit (a b c d : Char) : Option Nat := do
  let a ← hexValue a
  let b ← hexValue b
  let c ← hexValue c
  let d ← hexValue d
  return ((a * 16 + b) * 16 + c) * 16 + d

def unescape (c : Char) : Option Char :=
  if c = '"' ∨ c = '\\' ∨ c = '/' then some c
  else if c = 'b' then some '\x08'
  else if c = 'f' then some '\x0c'
  else if c = 'n' then some '\n'
  else if c = 'r' then some '\r'
  else if c = 't' then some '\t'
  else none

def isHighSurrogate (unit : Nat) : Bool := 0xd800 ≤ unit && unit ≤ 0xdbff

def isLowSurrogate (unit : Nat) : Bool := 0xdc00 ≤ unit && unit ≤ 0xdfff

def joinSurrogates (high low : Nat) : Char :=
  Char.ofNat (0x10000 + (high - 0xd800) * 0x400 + (low - 0xdc00))

def push (c : Char) (scanned : List Char × List Char) : List Char × List Char :=
  (c :: scanned.1,scanned.2)

/-- The rest of a string after its opening quote, and what follows it. -/
def scanString : List Char → Option (List Char × List Char)
  | [] => none
  | '"' :: rest => some ([],rest)
  | '\\' :: 'u' :: a :: b :: c :: d :: rest =>
    match codeUnit a b c d with
    | none => none
    | some unit =>
      if isHighSurrogate unit then
        match rest with
        | '\\' :: 'u' :: e :: f :: g :: h :: rest =>
          match codeUnit e f g h with
          | none => none
          | some low =>
            if isLowSurrogate low then (scanString rest).map (push (joinSurrogates unit low)) else none
        | _ => none
      else if isLowSurrogate unit then none
      else (scanString rest).map (push (Char.ofNat unit))
  | '\\' :: c :: rest =>
    match unescape c with
    | none => none
    | some c => (scanString rest).map (push c)
  | c :: rest => if c = '\\' ∨ c.toNat < 0x20 then none else (scanString rest).map (push c)

/-- `\.\d+`, or nothing. -/
def scanFraction : List Char → List Char × List Char
  | '.' :: rest =>
    let digits := rest.takeWhile Char.isDigit
    if digits = [] then ([],'.' :: rest) else ('.' :: digits,rest.dropWhile Char.isDigit)
  | text => ([],text)

/-- `[eE][-+]?\d+`, or nothing. -/
def scanExponent (text : List Char) : List Char × List Char :=
  match text with
  | [] => ([],text)
  | e :: rest =>
    if e = 'e' ∨ e = 'E' then
      let sign := rest.take 1 |>.filter (fun c => c = '-' || c = '+')
      let body := rest.drop sign.length
      let digits := body.takeWhile Char.isDigit
      if digits = [] then ([],text) else (e :: sign ++ digits,body.dropWhile Char.isDigit)
    else ([],text)

/-- `0|[1-9]\d*`. -/
def scanWhole : List Char → Option (List Char × List Char)
  | '0' :: rest => some (['0'],rest)
  | text =>
    let digits := text.takeWhile Char.isDigit
    if digits = [] then none else some (digits,text.dropWhile Char.isDigit)

def scanUnsigned (negative : Bool) (text : List Char) : Option (Value × List Char) :=
  match scanWhole text with
  | none => none
  | some (whole,rest) =>
    let (fraction,rest) := scanFraction rest
    let (exponent,rest) := scanExponent rest
    if fraction = [] ∧ exponent = [] then
      let n : Int := Nat.ofDigitChars 10 whole 0
      some (.int (if negative then -n else n),rest)
    else
      let sign := if negative then ['-'] else []
      some (.real (sign ++ whole ++ fraction ++ exponent),rest)

def scanNumber : List Char → Option (Value × List Char)
  | '-' :: rest => scanUnsigned true rest
  | text => scanUnsigned false text

/-- `d[key] = value`: an old key keeps its place. -/
def put (fields : List (String × Value)) (field : String × Value) : List (String × Value) :=
  if fields.any (fun old => old.1 = field.1) then
    fields.map (fun old => if old.1 = field.1 then field else old)
  else fields ++ [field]

def dict (pairs : List (String × Value)) : List (String × Value) := pairs.foldl put []

def literals : List (String × Value) :=
  [("null",.null),("true",.bool true),("false",.bool false),("NaN",.real "NaN".toList),
    ("Infinity",.real "Infinity".toList),("-Infinity",.real "-Infinity".toList)]

def scanLiteral (text : List Char) : Option (Value × List Char) :=
  (literals.find? (fun entry => entry.1.toList.isPrefixOf text)).map
    (fun entry => (entry.2,text.drop entry.1.length))

mutual

/-- `scan_once`. Every call consumes a character, so the text's length is fuel enough. -/
def scan : Nat → List Char → Option (Value × List Char)
  | 0, _ => none
  | fuel + 1, text =>
    match text with
    | [] => none
    | '"' :: rest => (scanString rest).map (fun (text,rest) => (.str (String.ofList text),rest))
    | '{' :: rest =>
      match skip rest with
      | '}' :: rest => some (.obj [],rest)
      | rest => (scanFields fuel rest).map (fun (fields,rest) => (.obj (dict fields),rest))
    | '[' :: rest =>
      match skip rest with
      | ']' :: rest => some (.arr [],rest)
      | rest => (scanItems fuel rest).map (fun (items,rest) => (.arr items,rest))
    | text => (scanLiteral text).or (scanNumber text)

def scanFields : Nat → List Char → Option (List (String × Value) × List Char)
  | 0, _ => none
  | fuel + 1, text =>
    match text with
    | '"' :: rest =>
      match scanString rest with
      | none => none
      | some (key,rest) =>
        match skip rest with
        | ':' :: rest =>
          match scan fuel (skip rest) with
          | none => none
          | some (value,rest) =>
            match skip rest with
            | '}' :: rest => some ([(String.ofList key,value)],rest)
            | ',' :: rest => (scanFields fuel (skip rest)).map
                (fun (fields,rest) => ((String.ofList key,value) :: fields,rest))
            | _ => none
        | _ => none
    | _ => none

def scanItems : Nat → List Char → Option (List Value × List Char)
  | 0, _ => none
  | fuel + 1, text =>
    match scan fuel text with
    | none => none
    | some (item,rest) =>
      match skip rest with
      | ']' :: rest => some ([item],rest)
      | ',' :: rest => (scanItems fuel (skip rest)).map (fun (items,rest) => (item :: items,rest))
      | _ => none

end

/-- `json.loads`. A byte order mark or text after the value is an error. -/
def loads (text : List Char) : Option Value :=
  if text.head? = some '\ufeff' then none
  else
    match scan (text.length + 1) (skip text) with
    | none => none
    | some (value,rest) => if skip rest = [] then some value else none

end Loads

section RoundTrip

/-- A character that stands for itself in a string. -/
def plain (c : Char) : Bool := c != '"' && c != '\\' && !(c.toNat < 0x20)

theorem scanString_plain (c : Char) (rest : List Char) (ok : plain c = true) :
    scanString (c :: rest) = (scanString rest).map (push c) := by
  simp only [plain,Bool.and_eq_true,bne_iff_ne,Bool.not_eq_true',decide_eq_false_iff_not] at ok
  rw [scanString.eq_5 _ _ (by simp [ok]) (by simp [ok]) (by simp [ok]),if_neg (by simp [ok])]

theorem codeUnit_control : ∀ n < 0x20,
    codeUnit '0' '0' (hexDigit (n / 16)) (hexDigit (n % 16)) = some n := by decide

theorem scanString_escape (c : Char) (rest : List Char) :
    scanString (escape c ++ rest) = (scanString rest).map (push c) := by
  unfold escape
  split_ifs with quote backslash newline carriage tab feed back control
  iterate 7
    · subst c
      simp [scanString,unescape]
  · have unit := codeUnit_control c.toNat control
    have high : isHighSurrogate c.toNat = false := by
      simp only [isHighSurrogate,Bool.and_eq_false_iff,decide_eq_false_iff_not]
      omega
    have low : isLowSurrogate c.toNat = false := by
      simp only [isLowSurrogate,Bool.and_eq_false_iff,decide_eq_false_iff_not]
      omega
    simp [scanString,unit,high,low,Char.ofNat_toNat]
  · have ok : plain c = true := by simp [plain,quote,backslash,control]
    exact scanString_plain c rest ok

theorem scanString_escaped (text rest : List Char) :
    scanString (text.flatMap escape ++ '"' :: rest) = some (text,rest) := by
  induction text with
  | nil => rfl
  | cons c text ih => simp [List.append_assoc,scanString_escape,ih,push]

/-- A digit string ends where no digit follows. -/
theorem takeWhile_digits (digits rest : List Char) (all : ∀ c ∈ digits, c.isDigit = true)
    (stop : ∀ c ∈ rest.head?, c.isDigit = false) :
    (digits ++ rest).takeWhile Char.isDigit = digits ∧
      (digits ++ rest).dropWhile Char.isDigit = rest := by
  induction digits with
  | nil => cases rest <;> simp_all
  | cons d digits ih =>
    have first := all d List.mem_cons_self
    have others := ih (fun c member => all c (List.mem_cons_of_mem d member))
    simp [first,others]

/-- No number but zero is written with a leading zero. -/
theorem toDigits_head (n : Nat) (positive : 0 < n) :
    ∀ c ∈ (Nat.toDigits 10 n).head?, c ≠ '0' := by
  induction n using Nat.strongRecOn with
  | _ n ih =>
    by_cases small : n < 10
    · intro c top
      rw [Nat.toDigits_of_lt_base small] at top
      obtain rfl := Option.some.inj top
      interval_cases n <;> decide
    · have quotient : 0 < n / 10 := by omega
      have nonempty : Nat.toDigits 10 (n / 10) ≠ [] := Nat.toDigits_ne_nil
      rw [Nat.toDigits_of_base_le (by decide) (by omega),List.head?_append_of_ne_nil _ nonempty]
      exact ih (n / 10) (by omega) quotient

theorem scanWhole_toDigits (n : Nat) (rest : List Char)
    (stop : ∀ c ∈ rest.head?, c.isDigit = false) :
    scanWhole (Nat.toDigits 10 n ++ rest) = some (Nat.toDigits 10 n,rest) := by
  by_cases zero : n = 0
  · subst zero; rfl
  · have digits : ∀ c ∈ Nat.toDigits 10 n, c.isDigit = true := fun c member =>
      Nat.isDigit_of_mem_toDigits (by decide) (by decide) member
    have head := toDigits_head n (Nat.pos_of_ne_zero zero)
    have nonempty : Nat.toDigits 10 n ≠ [] := Nat.toDigits_ne_nil
    obtain ⟨taken,dropped⟩ := takeWhile_digits _ rest digits stop
    obtain ⟨d,ds,shape⟩ := List.exists_cons_of_ne_nil nonempty
    rw [shape] at head taken dropped ⊢
    have first : d ≠ '0' := head d (by simp)
    simp only [List.cons_append] at taken dropped ⊢
    rw [scanWhole.eq_2 _ (by simp [first])]
    simp [taken,dropped]

theorem toDigits_cons (n : Nat) :
    ∃ d ds, Nat.toDigits 10 n = d :: ds ∧ d.isDigit = true := by
  obtain ⟨d,ds,shape⟩ := List.exists_cons_of_ne_nil (Nat.toDigits_ne_nil (n := n) (b := 10))
  have member : d ∈ Nat.toDigits 10 n := shape ▸ List.mem_cons_self
  exact ⟨d,ds,shape,Nat.isDigit_of_mem_toDigits (by decide) (by decide) member⟩

theorem digit_ne {d c : Char} (digit : d.isDigit = true) (other : c.isDigit = false) : d ≠ c := by
  rintro rfl
  simp [digit] at other

/-- What may follow a value inside an object. -/
def Closes (rest : List Char) : Prop := ∃ c tail, rest = c :: tail ∧ (c = ',' ∨ c = '}')

theorem scanUnsigned_toDigits (negative : Bool) (n : Nat) (rest : List Char) (closes : Closes rest) :
    scanUnsigned negative (Nat.toDigits 10 n ++ rest) =
      some (.int (if negative then -n else n),rest) := by
  obtain ⟨c,tail,rfl,ends⟩ := closes
  have stop : ∀ d ∈ (c :: tail).head?, d.isDigit = false := by
    rcases ends with rfl | rfl <;> simp
  have fraction : scanFraction (c :: tail) = ([],c :: tail) := by
    rcases ends with rfl | rfl <;> rfl
  have exponent : scanExponent (c :: tail) = ([],c :: tail) := by
    rcases ends with rfl | rfl <;> rfl
  simp [scanUnsigned,scanWhole_toDigits n _ stop,fraction,exponent]

theorem scanNumber_dumpInt (n : Int) (rest : List Char) (closes : Closes rest) :
    scanNumber (dumpInt n ++ rest) = some (.int n,rest) := by
  cases n with
  | ofNat n =>
    have scanned := scanUnsigned_toDigits false n rest closes
    obtain ⟨d,ds,shape,digit⟩ := toDigits_cons n
    have unsigned : d ≠ '-' := digit_ne digit (by decide)
    simp only [dumpInt,shape,List.cons_append] at scanned ⊢
    rw [scanNumber.eq_2 _ (by simp [unsigned]),scanned]
    simp
  | negSucc n =>
    have scanned := scanUnsigned_toDigits true (n + 1) rest closes
    simp only [dumpInt,List.cons_append,scanNumber,scanned]
    simp [Int.negSucc_eq]

theorem scanLiteral_dumpInt (n : Int) (rest : List Char) : scanLiteral (dumpInt n ++ rest) = none := by
  cases n with
  | ofNat n =>
    obtain ⟨d,ds,shape,digit⟩ := toDigits_cons n
    have apart : ∀ c, c.isDigit = false → c ≠ d := fun c other => (digit_ne digit other).symm
    simp [scanLiteral,literals,dumpInt,shape,apart]
  | negSucc n =>
    obtain ⟨d,ds,shape,digit⟩ := toDigits_cons (n + 1)
    have apart : 'I' ≠ d := (digit_ne digit (by decide)).symm
    simp [scanLiteral,literals,dumpInt,shape,apart]

theorem dumpInt_cons (n : Int) :
    ∃ c tail, dumpInt n = c :: tail ∧ (c = '-' ∨ c.isDigit = true) := by
  cases n with
  | ofNat n =>
    obtain ⟨d,ds,shape,digit⟩ := toDigits_cons n
    exact ⟨d,ds,shape,.inr digit⟩
  | negSucc n => exact ⟨'-',_,rfl,.inl rfl⟩

theorem scan_dumpInt (fuel : Nat) (n : Int) (rest : List Char) (closes : Closes rest) :
    scan (fuel + 1) (dumpInt n ++ rest) = some (.int n,rest) := by
  have number := scanNumber_dumpInt n rest closes
  have literal := scanLiteral_dumpInt n rest
  obtain ⟨c,tail,shape,first⟩ := dumpInt_cons n
  have other : c ≠ '"' ∧ c ≠ '{' ∧ c ≠ '[' := by
    rcases first with rfl | digit
    · decide
    · exact ⟨digit_ne digit (by decide),digit_ne digit (by decide),digit_ne digit (by decide)⟩
  rw [shape,List.cons_append] at number literal ⊢
  rw [scan]
  · simp [literal,number]
  all_goals simp [other]

theorem scan_dumpString (fuel : Nat) (text : String) (rest : List Char) :
    scan (fuel + 1) (dumpString text.toList ++ rest) = some (.str text,rest) := by
  simp [dumpString,scan,scanString_escaped]

theorem scan_dump (fuel : Nat) (s : Scalar) (rest : List Char) (closes : Closes rest) :
    scan (fuel + 1) (s.dump ++ rest) = some (s.toValue,rest) := by
  cases s with
  | int n => exact scan_dumpInt fuel n rest closes
  | str text => exact scan_dumpString fuel text rest

theorem skip_cons (c : Char) (rest : List Char) (dark : isSpace c = false) :
    skip (c :: rest) = c :: rest := by simp [skip,dark]

/-- No value starts with white space. -/
theorem skip_dump (s : Scalar) (rest : List Char) : skip (' ' :: (s.dump ++ rest)) = s.dump ++ rest := by
  have start : ∃ c tail, s.dump = c :: tail ∧ isSpace c = false := by
    cases s with
    | str text => exact ⟨'"',_,rfl,by decide⟩
    | int n =>
      obtain ⟨c,tail,shape,first⟩ := dumpInt_cons n
      refine ⟨c,tail,shape,?_⟩
      rcases first with rfl | digit
      · decide
      · have apart : ∀ d, d.isDigit = false → c ≠ d := fun d => digit_ne digit
        simp [isSpace,apart]
  obtain ⟨c,tail,shape,dark⟩ := start
  rw [shape,List.cons_append]
  exact skip_cons c _ dark

theorem dumpFields_cons (field : String × Scalar) (fields : List (String × Scalar)) :
    ∃ text, dumpFields (field :: fields) = '"' :: text := by
  cases fields <;> exact ⟨_,rfl⟩

/-- One field, up to the separator after it. -/
theorem scanFields_dumpField (fuel : Nat) (field : String × Scalar) (rest : List Char)
    (closes : Closes rest) :
    scanFields (fuel + 2) (dumpField field ++ rest) =
      match skip rest with
      | '}' :: rest => some ([(field.1,field.2.toValue)],rest)
      | ',' :: rest => (scanFields (fuel + 1) (skip rest)).map
          (fun (fields,rest) => ((field.1,field.2.toValue) :: fields,rest))
      | _ => none := by
  have value := scan_dump fuel field.2 rest closes
  simp only [dumpField,dumpString,List.cons_append,List.append_assoc,List.nil_append]
  rw [scanFields]
  simp only [scanString_escaped,skip_cons ':' _ (by decide),skip_dump,value,String.ofList_toList]

theorem scanFields_dumpFields (fields : List (String × Scalar)) (nonempty : fields ≠ []) (fuel : Nat)
    (enough : fields.length < fuel) (rest : List Char) :
    scanFields fuel (dumpFields fields ++ '}' :: rest) = some (toValues fields,rest) := by
  induction fields generalizing fuel with
  | nil => exact absurd rfl nonempty
  | cons field fields ih =>
    obtain ⟨fuel,rfl⟩ : ∃ k, fuel = k + 2 := ⟨fuel - 2,by simp at enough; omega⟩
    cases fields with
    | nil =>
      rw [dumpFields,scanFields_dumpField fuel field _ ⟨_,_,rfl,.inr rfl⟩]
      simp [skip_cons '}' rest (by decide),toValues]
    | cons next fields =>
      have others := ih (by simp) (fuel + 1) (by simpa using enough)
      obtain ⟨text,shape⟩ := dumpFields_cons next fields
      have gap : skip (' ' :: (dumpFields (next :: fields) ++ '}' :: rest)) =
          dumpFields (next :: fields) ++ '}' :: rest := by
        rw [shape]; rfl
      simp only [dumpFields,List.append_assoc,List.cons_append,List.nil_append]
      rw [scanFields_dumpField fuel field _ ⟨_,_,rfl,.inl rfl⟩]
      simp [skip_cons ',' _ (by decide),gap,others,toValues]

theorem dict_of_nodup (pairs : List (String × Value)) (distinct : (pairs.map Prod.fst).Nodup) :
    dict pairs = pairs := by
  have general : ∀ done, ((done ++ pairs).map Prod.fst).Nodup → pairs.foldl put done = done ++ pairs := by
    intro done fresh
    induction pairs generalizing done with
    | nil => simp
    | cons pair pairs ih =>
      have absent : done.any (fun old => old.1 = pair.1) = false := by
        simp only [List.map_append,List.map_cons,List.nodup_append] at fresh
        simp only [List.any_eq_false,decide_eq_true_eq]
        exact fun old member => fresh.2.2 old.1 (List.mem_map_of_mem member) pair.1 (by simp)
      have tail : (pairs.map Prod.fst).Nodup := (List.nodup_cons.mp distinct).2
      have moved : ((done ++ [pair] ++ pairs).map Prod.fst).Nodup := by simpa using fresh
      simp [put,absent,ih tail _ moved]
  exact general [] (by simpa using distinct)

theorem toValues_keys (fields : List (String × Scalar)) :
    (toValues fields).map Prod.fst = fields.map Prod.fst := by
  simp [toValues,Function.comp_def]

theorem length_le_dumpFields (fields : List (String × Scalar)) :
    fields.length ≤ (dumpFields fields).length := by
  induction fields with
  | nil => simp
  | cons field fields ih =>
    cases fields with
    | nil => simp [dumpFields,dumpField,dumpString]
    | cons next fields =>
      simp only [dumpFields,List.length_append,List.length_cons] at ih ⊢
      omega

/-- A flat dictionary survives being written and read. -/
theorem loads_dumps (d : FlatDict) : loads (dumps d) = some (.obj (toValues d.fields)) := by
  obtain ⟨fields,distinct⟩ := d
  cases fields with
  | nil => rfl
  | cons field fields =>
    have counted := length_le_dumpFields (field :: fields)
    have enough : (field :: fields).length < (dumpObject (field :: fields)).length := by
      simp only [dumpObject,List.length_append,List.length_cons] at counted ⊢
      omega
    have scanned := scanFields_dumpFields (field :: fields) (by simp) _ enough []
    obtain ⟨text,shape⟩ := dumpFields_cons field fields
    have merged : dict (toValues (field :: fields)) = toValues (field :: fields) :=
      dict_of_nodup _ (by rw [toValues_keys]; exact distinct)
    have whole : scan ((dumpObject (field :: fields)).length + 1) (skip (dumpObject (field :: fields))) =
        some (.obj (toValues (field :: fields)),[]) := by
      rw [show skip (dumpObject (field :: fields)) = dumpObject (field :: fields) from
        skip_cons '{' _ (by decide)]
      generalize (dumpObject (field :: fields)).length = fuel at scanned
      simp only [dumpObject,shape,List.cons_append] at scanned ⊢
      rw [scan]
      simp only [skip_cons '"' _ (by decide)]
      simp [scanned,merged]
    rw [loads,dumps,if_neg (by simp [dumpObject]),whole]
    rfl

end RoundTrip

end PyJson
