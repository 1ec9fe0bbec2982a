import RelayOpd.OrderedDict
import RelayOpd.PyJson
import RelayOpd.PyText
import RelayOpd.TextScan
import Mathlib

/-! The Gemma4 tool call parser: two regular expressions over the decoded response. -/
namespace RelayOpd.Gemma4Tools

open TextScan PyText

/-- The character tables behind `\w` and `int`, fixed on ASCII. -/
structure Unicode where
  isWord : Char → Bool
  decimal : Char → Option Nat
  isWord_ascii : ∀ c : Char, c.toNat < 128 → isWord c = (c.isAlphanum || c == '_')
  decimal_digit : ∀ c : Char, c.isDigit = true → decimal c = some (c.toNat - '0'.toNat)
  decimal_ascii : ∀ c : Char, c.toNat < 128 → c.isDigit = false → decimal c = none

/-- The ASCII letters and digits alone. -/
def asciiTable : Unicode where
  isWord c := c.isAlphanum || c == '_'
  decimal c := if c.isDigit then some (c.toNat - '0'.toNat) else none
  isWord_ascii _ _ := rfl
  decimal_digit _ digit := if_pos digit
  decimal_ascii _ _ other := if_neg (by rw [other]; exact Bool.false_ne_true)

/-- `float` and `repr` of Python floats. -/
structure FloatText (𝔽 : Type) where
  parse : List Char → Option 𝔽
  repr : 𝔽 → List Char
  finite : 𝔽 → Prop
  parse_repr : ∀ x, finite x → parse (repr x) = some x
  repr_letters : ∀ x, finite x → ∀ c ∈ repr x, c.isDigit = true ∨ c = '-' ∨ c = '+' ∨ c = '.' ∨ c = 'e'
  repr_head : ∀ x, finite x → ∃ c rest, repr x = c :: rest ∧ (c.isDigit = true ∨ c = '-')
  repr_point : ∀ x, finite x → '.' ∈ repr x ∨ 'e' ∈ repr x
  parse_angle : ∀ text, parse ('<' :: text) = none

inductive ArgValue (𝔽 : Type) where
  | str (text : List Char)
  | int (n : Int)
  | float (x : 𝔽)
  | bool (b : Bool)
  | null
  deriving DecidableEq

/-- `arguments` is the dictionary that `json.dumps` is given. -/
structure FunctionCall (𝔽 : Type) where
  name : List Char
  arguments : OrderedDict (List Char) (ArgValue 𝔽)

section Parser

variable {𝔽 : Type} (U : Unicode) (F : FloatText 𝔽)

/-- `<|"|>`. -/
def quoteToken : List Char := ['<','|','"','|','>']

/-- `<|tool_call>`. -/
def toolCallStartToken : List Char := ['<','|','t','o','o','l','_','c','a','l','l','>']

/-- `<|tool_call>call:`. -/
def callOpening : List Char := toolCallStartToken ++ ['c','a','l','l',':']

/-- `}<tool_call|>`. -/
def closing : List Char := ['\x7d','<','t','o','o','l','_','c','a','l','l','|','>']

/-- The largest number of digits `int` reads. -/
def intMaxStrDigits : Nat := 4300

/-- `\w+` and what follows. -/
def word (text : List Char) : Option (List Char × List Char) :=
  if (text.takeWhile U.isWord).isEmpty then none else some (text.takeWhile U.isWord,text.dropWhile U.isWord)

inductive ArgMatch where
  | quoted (value : List Char)
  | bare (value : List Char)

/-- `(?:<\|"\|>(.*?)<\|"\|>|([^,}]*))`, where the dot takes no newline. -/
def valueMatch (text : List Char) : ArgMatch × List Char :=
  match (stripPrefix quoteToken text).bind (untilLiteral (· == '\n') quoteToken) with
  | some found => (.quoted found.1,found.2)
  | none =>
    let inside := fun c : Char => c != ',' && c != '\x7d'
    (.bare (text.takeWhile inside),text.dropWhile inside)

/-- `arg_regex` at one position. -/
def argMatch (text : List Char) : Option ((List Char × ArgMatch) × List Char) :=
  match word U text with
  | none => none
  | some found =>
    match stripPrefix [':'] found.2 with
    | none => none
    | some rest => some ((found.1,(valueMatch rest).1),(valueMatch rest).2)

/-- `<\|tool_call>call:(\w+)\{`. -/
def toolOpen (text : List Char) : Option (List Char × List Char) :=
  ((stripPrefix callOpening text).bind (word U)).bind
    (fun found => (stripPrefix ['\x7b'] found.2).map (fun rest => (found.1,rest)))

/-- `tool_call_regex` at one position. -/
def toolMatch (text : List Char) : Option ((List Char × List Char) × List Char) :=
  (toolOpen U text).bind (fun found =>
    (untilLiteral (fun _ => false) closing found.2).map (fun args => ((found.1,args.1),args.2)))

/-- Decimal digits, with single underscores between them. -/
def pyDigits (text : List Char) : Option Nat :=
  let groups := text.splitOn '_'
  let digits := groups.flatten
  if groups.any List.isEmpty || digits.any (fun c => (U.decimal c).isNone) || intMaxStrDigits < digits.length then none
  else some ((digits.filterMap U.decimal).foldl (fun n d => 10 * n + d) 0)

/-- `int(text)`, `none` for a `ValueError`. -/
def pyInt (text : List Char) : Option Int :=
  match strip text with
  | '-' :: rest => (pyDigits U rest).map (fun n : Nat => -(n : Int))
  | '+' :: rest => (pyDigits U rest).map Int.ofNat
  | rest => (pyDigits U rest).map Int.ofNat

/-- `text.lower()`, as far as ASCII letters go. -/
def lower (text : List Char) : List Char := text.map Char.toLower

def bareValue (text : List Char) : ArgValue 𝔽 :=
  let bareVal := strip text
  if lower bareVal = "true".toList then .bool true
  else if lower bareVal = "false".toList then .bool false
  else if lower bareVal = "null".toList then .null
  else
    match pyInt U bareVal with
    | some n => .int n
    | none =>
      match F.parse bareVal with
      | some x => .float x
      | none => .str bareVal

def ArgMatch.value : ArgMatch → ArgValue 𝔽
  | .quoted text => .str text
  | .bare text => bareValue U F text

/-- `_parse_arguments`. -/
def parseArguments (argsStr : List Char) : OrderedDict (List Char) (ArgValue 𝔽) :=
  (scanAll (argMatch U) argsStr).foldl (fun result entry => result.set entry.1 (entry.2.value U F)) .empty

/-- `text.replace(pad, "")`, if there is a pad token. -/
def cleanText (padToken : Option (List Char)) (text : List Char) : List Char :=
  match padToken with
  | none | some [] => text
  | some pad => without pad text

/-- `text.find(literal)`. -/
def findText (literal : List Char) : List Char → Option Nat
  | [] => if literal.isEmpty then some 0 else none
  | c :: text => if (stripPrefix literal (c :: text)).isSome then some 0 else (findText literal text).map (· + 1)

/-- `extract_tool_calls` of the decoded text. -/
def extractToolCalls (padToken : Option (List Char)) (decoded : List Char) : List Char × List (FunctionCall 𝔽) :=
  let text := cleanText padToken decoded
  match findText toolCallStartToken text with
  | none => (text,[])
  | some contentIdx =>
    let matches_ := scanAll (toolMatch U) text
    if matches_.isEmpty then (text,[])
    else (text.take contentIdx,matches_.map (fun found => ⟨found.1,parseArguments U F found.2⟩))

/-! The documented format. -/

def renderValue : ArgValue 𝔽 → List Char
  | .str text => quoteToken ++ (text ++ quoteToken)
  | .int n => PyJson.dumpInt n
  | .float x => F.repr x
  | .bool true => "true".toList
  | .bool false => "false".toList
  | .null => "null".toList

def renderArgs : List (List Char × ArgValue 𝔽) → List Char
  | [] => []
  | [entry] => entry.1 ++ (':' :: renderValue F entry.2)
  | entry :: rest => entry.1 ++ (':' :: (renderValue F entry.2 ++ (',' :: renderArgs rest)))

def renderCall (call : FunctionCall 𝔽) : List Char :=
  callOpening ++ (call.name ++ ('\x7b' :: (renderArgs F call.arguments.entries ++ closing)))

/-- A text that starts with `first` and has each call followed by some more text. -/
def layout (first : List Char) : List (FunctionCall 𝔽 × List Char) → List Char
  | [] => first
  | (call,gap) :: rest => first ++ (renderCall F call ++ layout gap rest)

/-- No call opens in the text. -/
def NoOpening (text : List Char) : Prop := Quiet (fun here => (toolOpen U here).isSome = true) text []

/-- What the format can carry: no quote token and no closing in a string, finite floats. -/
def ArgValue.Plain : ArgValue 𝔽 → Prop
  | .str text => ¬ quoteToken <:+: text ∧ ¬ closing <:+: text
  | .float x => F.finite x
  | _ => True

/-- Values that are read back: strings in one line, integers of up to 4300 digits. -/
def ArgValue.Legible : ArgValue 𝔽 → Prop
  | .str text => '\n' ∉ text
  | .int n => (Nat.toDigits 10 n.natAbs).length ≤ intMaxStrDigits
  | _ => True

/-- A name or key that `\w+` takes. -/
def IsWord (text : List Char) : Prop := text ≠ [] ∧ ∀ c ∈ text, U.isWord c = true

/-! The pieces of the two expressions. -/

theorem not_word (c : Char) (ascii : c.toNat < 128) (other : (c.isAlphanum || c == '_') = false) : U.isWord c = false :=
  (U.isWord_ascii c ascii).trans other

theorem word_run (w rest : List Char) (isWord : IsWord U w) (stop : ∀ c ∈ rest.head?, U.isWord c = false) :
    word U (w ++ rest) = some (w,rest) := by
  have taken : (w ++ rest).takeWhile U.isWord = w := by
    rw [List.takeWhile_append_of_pos isWord.2]
    cases rest with
    | nil => rw [List.takeWhile_nil,List.append_nil]
    | cons c rest => rw [List.takeWhile_cons_of_neg (by simp [stop c rfl]),List.append_nil]
  have dropped : (w ++ rest).dropWhile U.isWord = rest := by
    rw [List.dropWhile_append_of_pos isWord.2]
    cases rest with
    | nil => rfl
    | cons c rest => rw [List.dropWhile_cons_of_neg (by simp [stop c rfl])]
  rw [word,taken,dropped,if_neg (by simpa using isWord.1)]

theorem word_eq_some {text w rest : List Char} (found : word U text = some (w,rest)) :
    IsWord U w ∧ text = w ++ rest := by
  rw [word] at found
  split at found
  · cases found
  · next some_ =>
    obtain ⟨rfl,rfl⟩ := Prod.mk.inj (Option.some.inj found)
    refine ⟨⟨by simpa using some_,fun c member => ?_⟩,(List.takeWhile_append_dropWhile).symm⟩
    exact List.mem_takeWhile_imp member

theorem word_none (c : Char) (rest : List Char) (other : U.isWord c = false) : word U (c :: rest) = none := by
  rw [word,List.takeWhile_cons_of_neg (by simp [other])]
  rfl

theorem valueMatch_quoted (text rest : List Char) (clean : ¬ quoteToken <:+: text) (line : '\n' ∉ text) :
    valueMatch (quoteToken ++ (text ++ quoteToken) ++ rest) = (.quoted text,rest) := by
  have quiet : Quiet (quoteToken <+: ·) text (quoteToken ++ rest) := by
    refine quiet_of_not_infix _ _ _ clean (fun n positive less => ?_)
    have bound : n < 5 := less
    interval_cases n <;> simp [quoteToken]
  have passes : ∀ c ∈ text, (c == '\n') = false := by
    intro c member
    exact beq_eq_false_iff_ne.mpr (fun same => line (same ▸ member))
  rw [valueMatch,List.append_assoc,List.append_assoc,stripPrefix_append,Option.bind_some,
    untilLiteral_run _ _ _ _ quiet passes]

theorem valueMatch_bare (body rest : List Char) (apart : (stripPrefix quoteToken (body ++ rest)).bind
      (untilLiteral (· == '\n') quoteToken) = none) (inside : ∀ c ∈ body, c ≠ ',' ∧ c ≠ '\x7d')
    (stop : ∀ c ∈ rest.head?, c = ',') : valueMatch (body ++ rest) = (.bare body,rest) := by
  have passes : ∀ c ∈ body, (c != ',' && c != '\x7d') = true := by
    intro c member
    simpa using inside c member
  rw [valueMatch,apart]
  dsimp only
  rw [List.takeWhile_append_of_pos passes,List.dropWhile_append_of_pos passes]
  cases rest with
  | nil => rw [List.takeWhile_nil,List.append_nil,List.dropWhile_nil]
  | cons c rest =>
    obtain rfl := stop c rfl
    rw [List.takeWhile_cons_of_neg (by simp),List.dropWhile_cons_of_neg (by simp),List.append_nil]

/-- What the expression makes of a rendered value. -/
def matchOf : ArgValue 𝔽 → ArgMatch
  | .str text => if '\n' ∈ text then .bare (quoteToken ++ (text ++ quoteToken)) else .quoted text
  | value => .bare (renderValue F value)

/-- A string of several lines is cut at no comma or brace. -/
def Uncut : ArgValue 𝔽 → Prop
  | .str text => '\n' ∈ text → ∀ c ∈ text, c ≠ ',' ∧ c ≠ '\x7d'
  | _ => True

theorem dumpInt_letters (n : Int) : ∀ c ∈ PyJson.dumpInt n, c.isDigit = true ∨ c = '-' := by
  have digits : ∀ k, ∀ c ∈ Nat.toDigits 10 k, c.isDigit = true :=
    fun k c member => Nat.isDigit_of_mem_toDigits (by decide) (by decide) member
  intro c member
  cases n with
  | ofNat k => exact .inl (digits k c member)
  | negSucc k =>
    rcases List.mem_cons.mp member with rfl | later
    · exact .inr rfl
    · exact .inl (digits (k + 1) c later)

/-- Letters of bare values. -/
def Letter (c : Char) : Prop := c.isAlphanum = true ∨ c = '-' ∨ c = '+' ∨ c = '.'

theorem Letter.plain {c : Char} (letter : Letter c) : c ≠ ',' ∧ c ≠ '\x7d' ∧ c ≠ '<' ∧ c ≠ '\n' ∧ isSpace c = false := by
  have apart : ∀ d : Char, d.isAlphanum = false → d ≠ '-' → d ≠ '+' → d ≠ '.' → c ≠ d := by
    rintro d other minus plus point rfl
    rcases letter with alpha | same | same | same
    · exact Bool.false_ne_true (other.symm.trans alpha)
    · exact minus same
    · exact plus same
    · exact point same
  refine ⟨apart _ rfl (by decide) (by decide) (by decide),apart _ rfl (by decide) (by decide) (by decide),
    apart _ rfl (by decide) (by decide) (by decide),apart _ rfl (by decide) (by decide) (by decide),?_⟩
  rcases letter with alpha | rfl | rfl | rfl
  · have range : (65 ≤ c.toNat ∧ c.toNat ≤ 90) ∨ (97 ≤ c.toNat ∧ c.toNat ≤ 122) ∨ (48 ≤ c.toNat ∧ c.toNat ≤ 57) := by
      simpa [Char.isAlphanum,Char.isAlpha,Char.isUpper,Char.isLower,Char.isDigit,UInt32.le_iff_toNat_le,or_assoc]
        using alpha
    have dark : ¬ isSpace c = true := by
      simp only [isSpace,Bool.or_eq_true,Bool.and_eq_true,decide_eq_true_eq,beq_iff_eq]
      omega
    simpa using dark
  · rfl
  · rfl
  · rfl

theorem bare_letters (value : ArgValue 𝔽) (plain : value.Plain F) (bare : ∀ text, value ≠ .str text) :
    ∃ c rest, renderValue F value = c :: rest ∧ ∀ d ∈ c :: rest, Letter d := by
  cases value with
  | str text => exact (bare text rfl).elim
  | int n =>
    obtain ⟨c,rest,shape,_⟩ := PyJson.dumpInt_cons n
    refine ⟨c,rest,shape,fun d member => ?_⟩
    rcases dumpInt_letters n d (shape ▸ member) with digit | rfl
    · exact .inl (by simp [Char.isAlphanum,digit])
    · exact .inr (.inl rfl)
  | float x =>
    obtain ⟨c,rest,shape,_⟩ := F.repr_head x plain
    refine ⟨c,rest,shape,fun d member => ?_⟩
    rcases F.repr_letters x plain d (shape ▸ member) with digit | rfl | rfl | rfl | rfl
    · exact .inl (by simp [Char.isAlphanum,digit])
    · exact .inr (.inl rfl)
    · exact .inr (.inr (.inl rfl))
    · exact .inr (.inr (.inr rfl))
    · exact .inl rfl
  | bool b =>
    cases b with
    | true => exact ⟨'t',['r','u','e'],rfl,by simp [Letter]⟩
    | false => exact ⟨'f',['a','l','s','e'],rfl,by simp [Letter]⟩
  | null => exact ⟨'n',['u','l','l'],rfl,by simp [Letter]⟩

theorem valueMatch_render (value : ArgValue 𝔽) (plain : value.Plain F) (uncut : Uncut value) (rest : List Char)
    (stop : ∀ c ∈ rest.head?, c = ',') : valueMatch (renderValue F value ++ rest) = (matchOf F value,rest) := by
  by_cases string : ∃ text, value = .str text
  · obtain ⟨text,rfl⟩ := string
    by_cases line : '\n' ∈ text
    · rw [matchOf,if_pos line]
      refine valueMatch_bare _ _ ?_ ?_ stop
      · have quiet : Quiet (quoteToken <+: ·) text (quoteToken ++ rest) := by
          refine quiet_of_not_infix _ _ _ plain.1 (fun n positive less => ?_)
          have bound : n < 5 := less
          interval_cases n <;> simp [quoteToken]
        rw [show renderValue F (.str text) = quoteToken ++ (text ++ quoteToken) from rfl,List.append_assoc,
          List.append_assoc,stripPrefix_append,Option.bind_some,untilLiteral_stopped _ _ _ _ quiet ⟨'\n',line,rfl⟩]
      · intro c member
        rcases List.mem_append.mp member with quote | member
        · simp only [quoteToken,List.mem_cons,List.not_mem_nil,or_false] at quote
          rcases quote with rfl | rfl | rfl | rfl | rfl <;> decide
        · rcases List.mem_append.mp member with inside | quote
          · exact uncut line c inside
          · simp only [quoteToken,List.mem_cons,List.not_mem_nil,or_false] at quote
            rcases quote with rfl | rfl | rfl | rfl | rfl <;> decide
    · rw [matchOf,if_neg line]
      exact valueMatch_quoted text rest plain.1 line
  · have bare : ∀ text, value ≠ .str text := fun text same => string ⟨text,same⟩
    obtain ⟨c,tail,shape,letters⟩ := bare_letters F value plain bare
    have same : matchOf F value = .bare (renderValue F value) := by
      cases value with
      | str text => exact (bare text rfl).elim
      | int | float | bool | null => rfl
    rw [same]
    refine valueMatch_bare _ _ ?_ ?_ stop
    · rw [shape,List.cons_append,quoteToken,stripPrefix,if_neg (letters c List.mem_cons_self).plain.2.2.1.symm,
        Option.bind_none]
    · intro d member
      obtain ⟨comma,brace,_⟩ := (letters d (shape ▸ member)).plain
      exact ⟨comma,brace⟩

theorem argMatch_render (key : List Char) (isWord : IsWord U key) (value : ArgValue 𝔽) (plain : value.Plain F)
    (uncut : Uncut value) (rest : List Char) (stop : ∀ c ∈ rest.head?, c = ',') :
    argMatch U (key ++ (':' :: (renderValue F value ++ rest))) = some ((key,matchOf F value),rest) := by
  have colon : U.isWord ':' = false := not_word U ':' (by decide) rfl
  rw [argMatch,word_run U key _ isWord (by simpa using colon)]
  dsimp only
  rw [show (':' :: (renderValue F value ++ rest)) = [':'] ++ (renderValue F value ++ rest) from rfl,stripPrefix_append]
  dsimp only
  rw [valueMatch_render F value plain uncut rest stop]

theorem valueMatch_le (text : List Char) : (valueMatch text).2.length ≤ text.length := by
  rw [valueMatch]
  cases found : (stripPrefix quoteToken text).bind (untilLiteral (· == '\n') quoteToken) with
  | none => exact (List.dropWhile_suffix _).length_le
  | some run =>
    obtain ⟨body,start,inside⟩ := Option.bind_eq_some_iff.mp found
    have whole := stripPrefix_eq_some start
    have run_ := (untilLiteral_eq_some inside).1
    rw [whole,run_]
    simp only [List.length_append]
    omega

theorem argMatch_shrinks : Shrinks (argMatch U) := by
  intro text found rest made
  rw [argMatch] at made
  split at made
  · cases made
  · next w found' =>
    obtain ⟨isWord,whole⟩ := word_eq_some U found'
    split at made
    · cases made
    · next after colon =>
      obtain ⟨rfl,rfl⟩ := Prod.mk.inj (Option.some.inj made)
      have le := valueMatch_le after
      have tail := congrArg List.length (stripPrefix_eq_some colon)
      have total := congrArg List.length whole
      simp only [List.length_append,List.length_cons,List.length_nil] at tail total
      omega

theorem renderArgs_cons (entry next : List Char × ArgValue 𝔽) (rest : List (List Char × ArgValue 𝔽)) :
    renderArgs F (entry :: next :: rest) =
      entry.1 ++ (':' :: (renderValue F entry.2 ++ (',' :: renderArgs F (next :: rest)))) := rfl

theorem scan_renderArgs (entries : List (List Char × ArgValue 𝔽)) (words : ∀ entry ∈ entries, IsWord U entry.1)
    (plain : ∀ entry ∈ entries, entry.2.Plain F) (uncut : ∀ entry ∈ entries, Uncut entry.2) :
    scanAll (argMatch U) (renderArgs F entries) = entries.map (fun entry => (entry.1,matchOf F entry.2)) := by
  have done : scanAll (argMatch U) [] = [] := scanAll_nil rfl
  have comma : U.isWord ',' = false := not_word U ',' (by decide) rfl
  induction entries with
  | nil => exact done
  | cons entry rest ih =>
    have first := argMatch_render U F entry.1 (words entry List.mem_cons_self) entry.2 (plain entry List.mem_cons_self)
      (uncut entry List.mem_cons_self)
    have others := ih (fun e m => words e (List.mem_cons_of_mem _ m)) (fun e m => plain e (List.mem_cons_of_mem _ m))
      (fun e m => uncut e (List.mem_cons_of_mem _ m))
    cases rest with
    | nil =>
      have single := first [] (by simp)
      rw [List.append_nil] at single
      rw [renderArgs,scanAll_match (argMatch_shrinks U) _ _ _ single,done]
      rfl
    | cons next rest =>
      rw [renderArgs_cons,scanAll_match (argMatch_shrinks U) _ _ _ (first (',' :: renderArgs F (next :: rest)) (by simp)),
        scanAll_skip _ _ (by rw [argMatch,word_none U ',' _ comma]),others]
      rfl

/-! The values. -/

theorem Letter.trimmed (c : Char) (rest : List Char) (letters : ∀ d ∈ c :: rest, Letter d) : Trimmed (c :: rest) := by
  refine ⟨List.cons_ne_nil c rest,fun d first => ?_,fun d last => ?_⟩
  · exact (letters d (List.mem_of_mem_head? first)).plain.2.2.2.2
  · exact (letters d (List.mem_of_mem_getLast? last)).plain.2.2.2.2

theorem digits_value (n : Nat) :
    ((Nat.toDigits 10 n).filterMap U.decimal).foldl (fun n d => 10 * n + d) 0 = n := by
  have digits : ∀ c ∈ Nat.toDigits 10 n, c.isDigit = true :=
    fun c member => Nat.isDigit_of_mem_toDigits (by decide) (by decide) member
  have mapped : (Nat.toDigits 10 n).filterMap U.decimal = (Nat.toDigits 10 n).map (fun c => c.toNat - '0'.toNat) := by
    rw [← List.filterMap_eq_map]
    exact List.filterMap_congr (fun c member => U.decimal_digit c (digits c member))
  rw [mapped,List.foldl_map]
  have value := Nat.ofDigitChars_ten_toDigits (n := n)
  rwa [Nat.ofDigitChars_eq_foldl] at value

theorem pyDigits_toDigits (n : Nat) :
    pyDigits U (Nat.toDigits 10 n) = if (Nat.toDigits 10 n).length ≤ intMaxStrDigits then some n else none := by
  have digits : ∀ c ∈ Nat.toDigits 10 n, c.isDigit = true :=
    fun c member => Nat.isDigit_of_mem_toDigits (by decide) (by decide) member
  have single : (Nat.toDigits 10 n).splitOn '_' = [Nat.toDigits 10 n] :=
    List.splitOn_eq_singleton (fun member => Bool.false_ne_true (digits '_' member))
  have known : (Nat.toDigits 10 n).any (fun c => (U.decimal c).isNone) = false := by
    rw [List.any_eq_false]
    intro c member
    rw [U.decimal_digit c (digits c member)]
    exact Bool.false_ne_true
  have some_ : [Nat.toDigits 10 n].any List.isEmpty = false := by
    simp
  rw [pyDigits,single,List.flatten_singleton,known,some_,digits_value U n,Bool.or_self,Bool.false_or]
  by_cases short : (Nat.toDigits 10 n).length ≤ intMaxStrDigits
  · rw [if_pos short,if_neg (by simpa using short)]
  · rw [if_neg short,if_pos (by simpa using short)]

theorem dumpInt_trimmed (n : Int) : strip (PyJson.dumpInt n) = PyJson.dumpInt n := by
  obtain ⟨c,rest,shape,_⟩ := PyJson.dumpInt_cons n
  rw [shape]
  refine (Letter.trimmed c rest (fun d member => ?_)).strip_eq
  rcases dumpInt_letters n d (shape ▸ member) with digit | rfl
  · exact .inl (by simp [Char.isAlphanum,digit])
  · exact .inr (.inl rfl)

theorem pyInt_dumpInt (n : Int) :
    pyInt U (PyJson.dumpInt n) = if (Nat.toDigits 10 n.natAbs).length ≤ intMaxStrDigits then some n else none := by
  rw [pyInt,dumpInt_trimmed]
  cases n with
  | ofNat k =>
    obtain ⟨d,ds,shape,digit⟩ := PyJson.toDigits_cons k
    have read := pyDigits_toDigits U k
    rw [shape] at read
    rw [PyJson.dumpInt,shape]
    split
    · next same => exact (PyJson.digit_ne digit (by decide) (List.cons.inj same).1).elim
    · next same => exact (PyJson.digit_ne digit (by decide) (List.cons.inj same).1).elim
    · rw [read,show (Int.ofNat k).natAbs = k from rfl,shape]
      split <;> rfl
  | negSucc k =>
    change (pyDigits U (Nat.toDigits 10 (k + 1))).map (fun n : Nat => -(n : Int)) = _
    rw [pyDigits_toDigits U (k + 1),Int.natAbs_negSucc]
    split <;> rfl

/-- No word of the source is a number. -/
theorem lower_ne (text : List Char) (c : Char) (rest : List Char) (shape : text = c :: rest)
    (head : c.isDigit = true ∨ c = '-' ∨ c = '<') (literal : List Char)
    (alpha : ∀ d ∈ literal.head?, d = 't' ∨ d = 'f' ∨ d = 'n') : lower text ≠ literal := by
  intro same
  rw [shape,lower,List.map_cons] at same
  have first := alpha c.toLower (same ▸ rfl)
  have low : c.val.toNat < 65 := by
    rcases head with digit | rfl | rfl
    · rw [Char.isDigit,Bool.and_eq_true,decide_eq_true_eq,decide_eq_true_eq] at digit
      have bound : c.val.toNat ≤ 57 := UInt32.le_iff_toNat_le.mp digit.2
      omega
    · decide
    · decide
  have fixed : c.toLower = c := by
    refine dif_neg (fun range => ?_)
    have high : 65 ≤ c.val.toNat := UInt32.le_iff_toNat_le.mp range.1
    omega
  rw [fixed] at first
  rcases first with rfl | rfl | rfl <;> exact absurd low (by decide)

/-- What is not one of the three words is read as a number or stays a string. -/
theorem bareValue_number (text : List Char) (trimmed : strip text = text) (c : Char) (rest : List Char)
    (shape : text = c :: rest) (head : c.isDigit = true ∨ c = '-' ∨ c = '<') :
    bareValue U F text = match pyInt U text with
      | some n => .int n
      | none =>
        match F.parse text with
        | some x => .float x
        | none => .str text := by
  rw [bareValue,trimmed,if_neg (lower_ne text c rest shape head _ (by simp)),
    if_neg (lower_ne text c rest shape head _ (by simp)),if_neg (lower_ne text c rest shape head _ (by simp))]

theorem mem_groups (text : List Char) (d : Char) (member : d ∈ text) (plain : d ≠ '_') :
    d ∈ (text.splitOn '_').flatten := by
  induction text with
  | nil => cases member
  | cons x text ih =>
    rw [List.splitOn_cons_eq_if_modifyHead]
    obtain ⟨group,groups,shape⟩ := List.exists_cons_of_ne_nil (List.splitOn_ne_nil '_' text)
    rw [shape,List.flatten_cons] at ih
    by_cases separator : (x == '_') = true
    · rw [if_pos separator,List.flatten_cons,List.nil_append,shape,List.flatten_cons]
      rcases List.mem_cons.mp member with rfl | later
      · exact (plain (by simpa using separator)).elim
      · exact ih later
    · rw [if_neg separator,shape,List.modifyHead_cons,List.flatten_cons,List.cons_append]
      rcases List.mem_cons.mp member with rfl | later
      · exact List.mem_cons_self
      · exact List.mem_cons_of_mem x (ih later)

/-- A text with a letter that no integer has. -/
theorem pyInt_none (text : List Char) (trimmed : strip text = text) (d : Char) (member : d ∈ text)
    (ascii : d.toNat < 128) (digit : d.isDigit = false) (plain : d ≠ '-' ∧ d ≠ '+' ∧ d ≠ '_') : pyInt U text = none := by
  have none_ : ∀ body : List Char, d ∈ body → pyDigits U body = none := by
    intro body inside
    have unknown : (body.splitOn '_').flatten.any (fun c => (U.decimal c).isNone) = true :=
      List.any_eq_true.mpr ⟨d,mem_groups body d inside plain.2.2,by rw [U.decimal_ascii d ascii digit]; rfl⟩
    rw [pyDigits,unknown,Bool.or_true,Bool.true_or,if_pos rfl]
  have later : ∀ first rest, text = first :: rest → d ≠ first → d ∈ rest := by
    rintro first rest rfl apart
    exact (List.mem_cons.mp member).resolve_left apart
  rw [pyInt,trimmed]
  split
  · next rest => rw [none_ rest (later '-' rest rfl plain.1)]; rfl
  · next rest => rw [none_ rest (later '+' rest rfl plain.2.1)]; rfl
  · rw [none_ text member]
    rfl

/-- A bare text that is not read as anything stays the string it is. -/
theorem wrapped_value (text : List Char) :
    bareValue U F (quoteToken ++ (text ++ quoteToken)) = .str (quoteToken ++ (text ++ quoteToken)) := by
  have trimmed : strip (quoteToken ++ (text ++ quoteToken)) = quoteToken ++ (text ++ quoteToken) := by
    refine Trimmed.strip_eq ⟨by simp [quoteToken],fun c first => ?_,fun c last => ?_⟩
    · obtain rfl : '<' = c := by simpa [quoteToken] using first
      rfl
    · rw [← List.append_assoc,List.getLast?_append_of_ne_nil _ (by simp [quoteToken])] at last
      obtain rfl : '>' = c := by simpa [quoteToken] using last
      rfl
  rw [bareValue_number U F _ trimmed '<' _ rfl (.inr (.inr rfl)),
    pyInt_none U _ trimmed '<' List.mem_cons_self (by decide) rfl (by decide)]
  dsimp only
  rw [show F.parse (quoteToken ++ (text ++ quoteToken)) = none from F.parse_angle _]

/-- A rendered value is read back exactly when it is legible. -/
theorem value_matchOf (value : ArgValue 𝔽) (plain : value.Plain F) :
    (matchOf F value).value U F = value ↔ value.Legible := by
  cases value with
  | str text =>
    rw [matchOf]
    by_cases line : '\n' ∈ text
    · rw [if_pos line,ArgMatch.value,wrapped_value]
      refine ⟨fun same => ?_,fun legible => (legible line).elim⟩
      have lengths := congrArg List.length (ArgValue.str.inj same)
      simp only [quoteToken,List.length_append,List.length_cons,List.length_nil] at lengths
      omega
    · rw [if_neg line]
      exact ⟨fun _ => line,fun _ => rfl⟩
  | int n =>
    obtain ⟨c,rest,shape,head⟩ := PyJson.dumpInt_cons n
    change bareValue U F (PyJson.dumpInt n) = .int n ↔ _
    rw [bareValue_number U F _ (dumpInt_trimmed n) c rest shape (by tauto),pyInt_dumpInt,ArgValue.Legible]
    by_cases short : (Nat.toDigits 10 n.natAbs).length ≤ intMaxStrDigits
    · rw [if_pos short]
      exact ⟨fun _ => short,fun _ => rfl⟩
    · rw [if_neg short]
      dsimp only
      refine ⟨fun same => ?_,fun legible => (short legible).elim⟩
      cases parsed : F.parse (PyJson.dumpInt n) with
      | none =>
        rw [parsed] at same
        cases same
      | some x =>
        rw [parsed] at same
        cases same
  | float x =>
    refine ⟨fun _ => trivial,fun _ => ?_⟩
    obtain ⟨c,rest,shape,head⟩ := F.repr_head x plain
    obtain ⟨c',rest',shape',letters⟩ := bare_letters F (.float x) plain (by simp)
    have trimmed : strip (F.repr x) = F.repr x := by
      rw [show F.repr x = c' :: rest' from shape']
      exact (Letter.trimmed c' rest' letters).strip_eq
    have noInt : pyInt U (F.repr x) = none := by
      rcases F.repr_point x plain with point | exponent
      · exact pyInt_none U _ trimmed '.' point (by decide) rfl (by decide)
      · exact pyInt_none U _ trimmed 'e' exponent (by decide) rfl (by decide)
    change bareValue U F (F.repr x) = .float x
    rw [bareValue_number U F _ trimmed c rest shape (by tauto),noInt]
    dsimp only
    rw [F.parse_repr x plain]
  | bool b => cases b <;> exact ⟨fun _ => trivial,fun _ => rfl⟩
  | null => exact ⟨fun _ => trivial,fun _ => rfl⟩

/-! The dictionary of one call. -/

theorem parseArguments_eq (text : List Char) : parseArguments U F text =
    ((scanAll (argMatch U) text).map (fun entry => (entry.1,entry.2.value U F))).foldl
      (fun d pair => d.set pair.1 pair.2) .empty := by
  rw [parseArguments,List.foldl_map]

theorem parse_render (d : OrderedDict (List Char) (ArgValue 𝔽)) (words : ∀ entry ∈ d.entries, IsWord U entry.1)
    (plain : ∀ entry ∈ d.entries, entry.2.Plain F) (uncut : ∀ entry ∈ d.entries, Uncut entry.2) :
    (parseArguments U F (renderArgs F d.entries)).entries =
      d.entries.map (fun entry => (entry.1,(matchOf F entry.2).value U F)) := by
  rw [parseArguments_eq,scan_renderArgs U F d.entries words plain uncut,List.map_map]
  refine OrderedDict.entries_foldl_set _ _ ?_ (fun pair _ known => (by cases known))
  rw [List.map_map]
  exact d.distinct

theorem bareValue_uncut (text : List Char) (inside : ∀ c ∈ text, c ≠ ',' ∧ c ≠ '\x7d') :
    Uncut (bareValue U F text) := by
  rw [bareValue]
  split
  · trivial
  split
  · trivial
  split
  · trivial
  split
  · trivial
  split
  · trivial
  · exact fun _ c member => inside c (mem_of_mem_strip member)

/-- Keys are words, and a string of several lines came from a bare run. -/
theorem parse_entry (text : List Char) (entry : List Char × ArgValue 𝔽)
    (member : entry ∈ (parseArguments U F text).entries) : IsWord U entry.1 ∧ Uncut entry.2 := by
  rw [parseArguments_eq] at member
  rcases OrderedDict.mem_foldl_set _ _ _ member with none_ | given
  · cases none_
  obtain ⟨⟨key,found⟩,inside,rfl⟩ := List.mem_map.mp given
  obtain ⟨here,rest,made⟩ := mem_scanAll _ _ inside
  rw [argMatch] at made
  split at made
  · cases made
  next w run =>
  split at made
  · cases made
  next after colon =>
  obtain ⟨same,_⟩ := Prod.mk.inj (Option.some.inj made)
  obtain ⟨rfl,rfl⟩ := Prod.mk.inj same
  refine ⟨(word_eq_some U run).1,?_⟩
  rw [valueMatch]
  cases quoted : (stripPrefix quoteToken after).bind (untilLiteral (· == '\n') quoteToken) with
  | some value =>
    obtain ⟨body,_,inner⟩ := Option.bind_eq_some_iff.mp quoted
    have passes := (untilLiteral_eq_some inner).2
    intro line
    exact absurd (passes _ line) (by simp)
  | none =>
    refine bareValue_uncut U F _ (fun c member => ?_)
    simpa using List.mem_takeWhile_imp member

/-! Finding the calls. -/

theorem quiet_renderValue (value : ArgValue 𝔽) (plain : value.Plain F) (b : List Char) :
    Quiet (closing <+: ·) (renderValue F value) b := by
  have bare : ∀ a b : List Char, '\x7d' ∉ a → Quiet (closing <+: ·) a b := fun a b missing => quiet_of_head _ _ a b missing
  by_cases string : ∃ text, value = .str text
  · obtain ⟨text,rfl⟩ := string
    rw [renderValue,quiet_append,quiet_append]
    refine ⟨bare _ _ (by decide),?_,bare _ _ (by decide)⟩
    refine quiet_of_not_infix _ _ _ plain.2 (fun n positive less => ?_)
    have bound : n < 13 := less
    interval_cases n <;> simp [quoteToken,closing]
  · obtain ⟨c,rest,shape,letters⟩ := bare_letters F value plain (fun text same => string ⟨text,same⟩)
    exact bare _ _ (fun inside => (letters _ (shape ▸ inside)).plain.2.1 rfl)

/-- Rendered arguments hold no closing. -/
theorem quiet_renderArgs (entries : List (List Char × ArgValue 𝔽))
    (words : ∀ entry ∈ entries, ∀ c ∈ entry.1, U.isWord c = true) (plain : ∀ entry ∈ entries, entry.2.Plain F)
    (b : List Char) : Quiet (closing <+: ·) (renderArgs F entries) b := by
  have brace : U.isWord '\x7d' = false := not_word U '\x7d' (by decide) rfl
  have bare : ∀ a b : List Char, '\x7d' ∉ a → Quiet (closing <+: ·) a b := fun a b missing => quiet_of_head _ _ a b missing
  have key : ∀ entry ∈ entries, '\x7d' ∉ entry.1 :=
    fun entry member inside => Bool.false_ne_true (brace.symm.trans (words entry member _ inside))
  induction entries with
  | nil => trivial
  | cons entry rest ih =>
    have others := ih (fun e m => words e (List.mem_cons_of_mem _ m)) (fun e m => plain e (List.mem_cons_of_mem _ m))
      (fun e m => key e (List.mem_cons_of_mem _ m))
    have value := quiet_renderValue F entry.2 (plain entry List.mem_cons_self)
    have colon : ∀ b, Quiet (closing <+: ·) [':'] b := fun b => bare _ _ (by decide)
    have comma : ∀ b, Quiet (closing <+: ·) [','] b := fun b => bare _ _ (by decide)
    cases rest with
    | nil =>
      rw [renderArgs,show (':' :: renderValue F entry.2) = [':'] ++ renderValue F entry.2 from rfl,quiet_append,quiet_append]
      exact ⟨bare _ _ (key entry List.mem_cons_self),colon _,value _⟩
    | cons next rest =>
      rw [renderArgs_cons,show (':' :: (renderValue F entry.2 ++ (',' :: renderArgs F (next :: rest)))) =
        [':'] ++ (renderValue F entry.2 ++ ([','] ++ renderArgs F (next :: rest))) from rfl,quiet_append,quiet_append,
        quiet_append,quiet_append]
      exact ⟨bare _ _ (key entry List.mem_cons_self),colon _,value _,comma _,others⟩

theorem toolOpen_callOpening (body : List Char) : toolOpen U (callOpening ++ body) =
    (word U body).bind (fun found => (stripPrefix ['\x7b'] found.2).map (fun rest => (found.1,rest))) := by
  rw [toolOpen,stripPrefix_append,Option.bind_some]

theorem toolOpen_call (call : FunctionCall 𝔽) (name : IsWord U call.name) (rest : List Char) :
    toolOpen U (renderCall F call ++ rest) = some (call.name,renderArgs F call.arguments.entries ++ (closing ++ rest)) := by
  have brace : U.isWord '\x7b' = false := not_word U '\x7b' (by decide) rfl
  have shape : renderCall F call ++ rest =
      callOpening ++ (call.name ++ (['\x7b'] ++ (renderArgs F call.arguments.entries ++ (closing ++ rest)))) := by
    simp only [renderCall,List.append_assoc,List.cons_append,List.nil_append]
  rw [shape,toolOpen_callOpening,word_run U call.name _ name (by simpa using brace),Option.bind_some,stripPrefix_append,
    Option.map_some]

theorem toolMatch_call (call : FunctionCall 𝔽) (name : IsWord U call.name)
    (words : ∀ entry ∈ call.arguments.entries, ∀ c ∈ entry.1, U.isWord c = true)
    (plain : ∀ entry ∈ call.arguments.entries, entry.2.Plain F) (rest : List Char) :
    toolMatch U (renderCall F call ++ rest) = some ((call.name,renderArgs F call.arguments.entries),rest) := by
  rw [toolMatch,toolOpen_call U F call name,Option.bind_some,untilLiteral_run _ _ _ _
    (quiet_renderArgs U F call.arguments.entries words plain _) (fun _ _ => rfl)]
  rfl

theorem toolOpen_eq_some {text name rest : List Char} (found : toolOpen U text = some (name,rest)) :
    IsWord U name ∧ text = callOpening ++ (name ++ ('\x7b' :: rest)) := by
  obtain ⟨⟨w,after⟩,run,brace⟩ := Option.bind_eq_some_iff.mp found
  obtain ⟨body,start,inner⟩ := Option.bind_eq_some_iff.mp run
  obtain ⟨tail,opened,same⟩ := Option.map_eq_some_iff.mp brace
  obtain ⟨rfl,rfl⟩ := Prod.mk.inj same
  obtain ⟨isWord,whole⟩ := word_eq_some U inner
  have brace_ : after = '\x7b' :: tail := stripPrefix_eq_some opened
  exact ⟨isWord,by rw [stripPrefix_eq_some start,whole,brace_]⟩

theorem toolMatch_eq_some {text name args rest : List Char} (found : toolMatch U text = some ((name,args),rest)) :
    IsWord U name ∧ text = callOpening ++ (name ++ ('\x7b' :: (args ++ (closing ++ rest)))) := by
  obtain ⟨⟨w,body⟩,opened,run⟩ := Option.bind_eq_some_iff.mp found
  obtain ⟨⟨inner,after⟩,inside,same⟩ := Option.map_eq_some_iff.mp run
  obtain ⟨both,tail⟩ := Prod.mk.inj same
  obtain ⟨first,second⟩ := Prod.mk.inj both
  obtain rfl : rest = after := tail.symm
  obtain rfl : name = w := first.symm
  obtain rfl : args = inner := second.symm
  obtain ⟨isWord,whole⟩ := toolOpen_eq_some U opened
  have run_ : body = args ++ (closing ++ rest) := (untilLiteral_eq_some inside).1
  exact ⟨isWord,by rw [whole,run_]⟩

theorem toolMatch_shrinks : Shrinks (toolMatch U) := by
  intro text found rest made
  have total := congrArg List.length (toolMatch_eq_some U made).2
  simp only [List.length_append,List.length_cons] at total
  omega

/-- An opening lies before the next call or not at all. -/
theorem toolOpen_before (text rest : List Char) (some_ : text ≠ []) (none_ : toolOpen U text = none) :
    toolOpen U (text ++ ('<' :: rest)) = none := by
  by_contra opened
  obtain ⟨⟨name,body⟩,found⟩ := Option.ne_none_iff_exists'.mp opened
  obtain ⟨isWord,whole⟩ := toolOpen_eq_some U found
  have angle : U.isWord '<' = false := not_word U '<' (by decide) rfl
  have start : callOpening <+: text ++ ('<' :: rest) := ⟨_,whole.symm⟩
  by_cases long : callOpening.length ≤ text.length
  · obtain ⟨tail,rfl⟩ := List.prefix_of_prefix_length_le start (List.prefix_append _ _) long
    rw [List.append_assoc] at whole
    rcases List.append_eq_append_iff.mp (List.append_cancel_left whole) with ⟨more,longer,ends⟩ | ⟨more,longer,ends⟩
    · cases more with
      | nil => exact absurd (List.cons.inj ends).1 (by decide)
      | cons c more =>
        have first : '<' = c := (List.cons.inj ends).1
        have member : '<' ∈ name := by
          rw [longer,first]
          exact List.mem_append_right _ List.mem_cons_self
        exact Bool.false_ne_true (angle.symm.trans (isWord.2 _ member))
    · cases more with
      | nil => exact absurd (List.cons.inj ends).1 (by decide)
      | cons c more =>
        obtain rfl : '\x7b' = c := (List.cons.inj ends).1
        have brace : U.isWord '\x7b' = false := not_word U '\x7b' (by decide) rfl
        rw [longer,toolOpen_callOpening,word_run U name _ isWord (by simpa using brace),Option.bind_some] at none_
        cases none_
  · obtain ⟨tail,same⟩ := List.prefix_of_prefix_length_le (List.prefix_append text _) start (by omega)
    rw [← same,List.append_assoc] at whole
    have positive : 0 < text.length := List.length_pos_iff.mpr some_
    have dropped : callOpening.drop text.length = tail := by rw [← same,List.drop_left]
    have less : text.length < 17 := not_le.mp long
    have head : (callOpening.drop text.length).head? = some '<' := by
      have next := List.append_cancel_left whole
      cases tail with
      | nil =>
        have lengths := congrArg List.length same
        rw [List.append_nil] at lengths
        omega
      | cons c tail =>
        rw [dropped,(List.cons.inj next).1]
        rfl
    generalize text.length = n at positive less head
    interval_cases n <;> simp [callOpening,toolCallStartToken] at head

theorem toolMatch_none {text : List Char} (none_ : toolOpen U text = none) : toolMatch U text = none := by
  rw [toolMatch,none_,Option.bind_none]

theorem quiet_gap (gap rest : List Char) (noOpening : NoOpening U gap) :
    Quiet (fun text => (toolMatch U text).isSome = true) gap ('<' :: rest) := by
  induction gap with
  | nil => trivial
  | cons c gap ih =>
    refine ⟨fun found => ?_,ih noOpening.2⟩
    have closed : toolOpen U (c :: gap) = none := by
      have first := noOpening.1
      rw [List.append_nil] at first
      simpa using first
    rw [← List.cons_append,toolMatch_none U (toolOpen_before U (c :: gap) rest (List.cons_ne_nil c gap) closed)] at found
    cases found

theorem quiet_last (gap : List Char) (noOpening : NoOpening U gap) :
    Quiet (fun text => (toolMatch U text).isSome = true) gap [] := by
  refine Quiet.imp (fun text found => ?_) noOpening
  by_contra closed
  rw [toolMatch_none U (by simpa using closed)] at found
  cases found

/-- A call as it can be rendered: keys of word characters and values of the format. -/
structure Renderable (call : FunctionCall 𝔽) : Prop where
  words : ∀ entry ∈ call.arguments.entries, ∀ c ∈ entry.1, U.isWord c = true
  plain : ∀ entry ∈ call.arguments.entries, entry.2.Plain F

theorem scan_layout (first : List Char) (items : List (FunctionCall 𝔽 × List Char)) (noFirst : NoOpening U first)
    (gaps : ∀ item ∈ items, NoOpening U item.2) (renderable : ∀ item ∈ items, Renderable U F item.1)
    (names : ∀ item ∈ items, IsWord U item.1.name) :
    scanAll (toolMatch U) (layout F first items) =
      items.map (fun item => (item.1.name,renderArgs F item.1.arguments.entries)) := by
  induction items generalizing first with
  | nil =>
    have quiet := scanAll_quiet first [] (quiet_last U first noFirst)
    rw [List.append_nil] at quiet
    rw [layout,quiet]
    exact scanAll_nil rfl
  | cons item items ih =>
    obtain ⟨call,gap⟩ := item
    have here := renderable _ List.mem_cons_self
    have name : IsWord U call.name := names _ List.mem_cons_self
    rw [layout,scanAll_quiet first (renderCall F call ++ layout F gap items) (quiet_gap U first _ noFirst),
      scanAll_match (toolMatch_shrinks U) _ _ _ (toolMatch_call U F call name here.words here.plain _),
      ih gap (gaps _ List.mem_cons_self) (fun i m => gaps i (List.mem_cons_of_mem _ m))
        (fun i m => renderable i (List.mem_cons_of_mem _ m)) (fun i m => names i (List.mem_cons_of_mem _ m))]
    rfl

theorem findText_none {literal text : List Char} (none_ : findText literal text = none) :
    Quiet (literal <+: ·) text [] := by
  induction text with
  | nil => trivial
  | cons c text ih =>
    rw [findText] at none_
    split at none_
    · cases none_
    · next absent =>
      refine ⟨?_,ih (by simpa using none_)⟩
      rw [List.append_nil]
      exact stripPrefix_eq_none.mp (by simpa using absent)

/-- The calls are the matches, whatever is decided on the way. -/
theorem extract_calls (padToken : Option (List Char)) (decoded : List Char) :
    (extractToolCalls U F padToken decoded).2 =
      (scanAll (toolMatch U) (cleanText padToken decoded)).map (fun found => ⟨found.1,parseArguments U F found.2⟩) := by
  rw [extractToolCalls]
  cases start : findText toolCallStartToken (cleanText padToken decoded) with
  | none =>
    have quiet : Quiet (fun text => (toolMatch U text).isSome = true) (cleanText padToken decoded) [] := by
      refine Quiet.imp (fun text found => ?_) (findText_none start)
      obtain ⟨⟨⟨name,args⟩,rest⟩,made⟩ := Option.isSome_iff_exists.mp found
      rw [(toolMatch_eq_some U made).2,callOpening,List.append_assoc]
      exact List.prefix_append _ _
    have nothing := scanAll_quiet _ [] quiet
    rw [List.append_nil] at nothing
    rw [nothing,scanAll_nil rfl]
    rfl
  | some contentIdx =>
    dsimp only
    split
    · next empty => rw [List.isEmpty_iff.mp empty]; rfl
    · rfl

/-- In a text without pad tokens the calls come back exactly when names and keys are non-empty words,
strings have one line and integers at most 4300 digits. -/
theorem calls_iff (padToken : Option (List Char)) (decoded first : List Char)
    (items : List (FunctionCall 𝔽 × List Char)) (clean : cleanText padToken decoded = layout F first items)
    (noFirst : NoOpening U first) (gaps : ∀ item ∈ items, NoOpening U item.2)
    (renderable : ∀ item ∈ items, Renderable U F item.1) :
    (extractToolCalls U F padToken decoded).2 = items.map Prod.fst ↔
      ∀ item ∈ items, IsWord U item.1.name ∧
        ∀ entry ∈ item.1.arguments.entries, entry.1 ≠ [] ∧ entry.2.Legible := by
  rw [extract_calls,clean]
  constructor
  · intro same
    have names : ∀ item ∈ items, IsWord U item.1.name := by
      intro item member
      have inside : item.1 ∈ items.map Prod.fst := List.mem_map_of_mem member
      rw [← same] at inside
      obtain ⟨found,matched,named⟩ := List.mem_map.mp inside
      obtain ⟨here,rest,made⟩ := mem_scanAll _ _ matched
      rw [← named]
      exact (toolMatch_eq_some U made).1
    rw [scan_layout U F first items noFirst gaps renderable names,List.map_map] at same
    intro item member
    have parsed : parseArguments U F (renderArgs F item.1.arguments.entries) = item.1.arguments :=
      congrArg FunctionCall.arguments (List.map_inj_left.mp same item member)
    have each : ∀ entry ∈ item.1.arguments.entries, IsWord U entry.1 ∧ Uncut entry.2 := by
      intro entry inside
      rw [← parsed] at inside
      exact parse_entry U F _ entry inside
    have read := parse_render U F item.1.arguments (fun entry inside => (each entry inside).1) (renderable item member).plain
      (fun entry inside => (each entry inside).2)
    rw [parsed] at read
    refine ⟨names item member,fun entry inside => ⟨(each entry inside).1.1,?_⟩⟩
    have fixed : (entry.1,(matchOf F entry.2).value U F) = entry :=
      List.map_inj_left.mp (read.symm.trans (List.map_id _).symm) entry inside
    exact (value_matchOf U F entry.2 ((renderable item member).plain entry inside)).mp (congrArg Prod.snd fixed)
  · intro legible
    rw [scan_layout U F first items noFirst gaps renderable (fun item member => (legible item member).1),List.map_map]
    refine List.map_congr_left (fun item member => ?_)
    have here := renderable item member
    have each := (legible item member).2
    have uncut : ∀ entry ∈ item.1.arguments.entries, Uncut entry.2 := by
      rintro ⟨key,value⟩ inside
      cases value with
      | str text => exact fun line => ((each _ inside).2 line).elim
      | int | float | bool | null => trivial
    have read := parse_render U F item.1.arguments
      (fun entry inside => ⟨(each entry inside).1,here.words entry inside⟩) here.plain uncut
    have dictionary : parseArguments U F (renderArgs F item.1.arguments.entries) = item.1.arguments := by
      refine OrderedDict.ext_entries (read.trans ?_)
      rw [List.map_congr_left (fun entry inside => congrArg (Prod.mk entry.1)
        ((value_matchOf U F entry.2 (here.plain entry inside)).mpr (each entry inside).2))]
      exact List.map_id _
    exact congrArg (FunctionCall.mk item.1.name) dictionary

end Parser

end RelayOpd.Gemma4Tools
