import RelayOpd.Gemma4Tools

/-! Rendered calls in a text with pad tokens, which the parser removes before it looks for calls.
A pad token in a string argument goes with the others. -/
namespace RelayOpd.Gemma4Tools

open TextScan PyText

/-- What tags, separators, bare words and numbers are written with, digits apart. -/
def formatLetters : List Char :=
  ['<','|','t','o','l','_','c','a','>',':','\x7b','\x7d','"',',','-','+','.','r','u','e','f','s','n']

/-- A special token `<...>`, with a letter that the format does not use. -/
structure PadToken where
  name : List Char
  mark : Char
  plain : '<' ∉ name ∧ '>' ∉ name
  marked : mark ∈ name
  foreign : mark ∉ formatLetters ∧ mark.isDigit = false

def PadToken.text (pad : PadToken) : List Char := '<' :: (pad.name ++ ['>'])

/-- `tokenizer.pad_token`. -/
def padText (padToken : Option PadToken) : Option (List Char) := padToken.map PadToken.text

section Removal

variable (pad : PadToken)

theorem PadToken.some : pad.text ≠ [] := List.cons_ne_nil _ _

theorem cleanText_pad (text : List Char) : cleanText (some pad.text) text = without pad.text text := rfl

/-- No pad token lies across the start of a tag. -/
theorem without_tag (a b : List Char) (tag : ∀ c ∈ b.head?, c = '<') :
    without pad.text (a ++ b) = without pad.text a ++ without pad.text b := by
  refine without_append pad.some a b (fun x y _ some_ start => ?_)
  obtain ⟨c,y,rfl⟩ := List.exists_cons_of_ne_nil some_
  rcases List.prefix_or_prefix_of_prefix start (List.prefix_append (c :: y) b) with inside | ⟨more,longer⟩
  · exact inside
  · cases more with
    | nil => exact ⟨[],by rw [← longer,List.append_nil,List.append_nil]⟩
    | cons d more =>
      obtain ⟨rest,whole⟩ := start
      rw [← longer,List.append_assoc] at whole
      have head := tag d (by rw [← List.append_cancel_left whole]; rfl)
      have inner : y ++ d :: more = pad.name ++ ['>'] := (List.cons.inj longer).2
      have member : '<' ∈ pad.name ++ ['>'] := by
        rw [← inner,head]
        exact List.mem_append_right _ List.mem_cons_self
      rcases List.mem_append.mp member with named | last
      · exact (pad.plain.1 named).elim
      · exact absurd (List.mem_singleton.mp last) (by decide)

/-- Text without angle brackets holds no part of a pad token. -/
theorem without_word (a b : List Char) (plain : '<' ∉ a) :
    without pad.text (a ++ b) = a ++ without pad.text b := by
  induction a with
  | nil => rfl
  | cons c a ih =>
    rw [List.mem_cons,not_or] at plain
    have apart : ¬ pad.text <+: c :: (a ++ b) := fun start => plain.1 (List.cons_prefix_cons.mp start).1
    rw [List.cons_append,without_cons c _ apart,ih plain.2,List.cons_append]

/-- Another tag stays. -/
theorem without_other (name b : List Char) (plain : '<' ∉ name ∧ '>' ∉ name) (other : name ≠ pad.name) :
    without pad.text ('<' :: (name ++ ('>' :: b))) = '<' :: (name ++ ('>' :: without pad.text b)) := by
  have apart : ¬ pad.text <+: '<' :: (name ++ ('>' :: b)) := by
    intro start
    obtain ⟨rest,whole⟩ := (List.cons_prefix_cons.mp start).2
    have cut : ∀ (word tail : List Char), '>' ∉ word → (word ++ ('>' :: tail)).takeWhile (· != '>') = word := by
      intro word tail missing
      rw [List.takeWhile_append_of_pos (fun c member => bne_iff_ne.mpr (fun same : c = '>' => missing (same ▸ member))),
        List.takeWhile_cons_of_neg (by simp),List.append_nil]
    rw [List.append_assoc] at whole
    have same := congrArg (List.takeWhile (· != '>')) whole
    rw [List.singleton_append,cut _ _ pad.plain.2,cut _ _ plain.2] at same
    exact other same.symm
  have tail : '<' ∉ name ++ ['>'] := by simpa using plain.1
  have rest := without_word pad (name ++ ['>']) b tail
  rw [List.append_assoc,List.append_assoc,List.singleton_append,List.singleton_append] at rest
  rw [without_cons _ _ apart,rest]

theorem PadToken.ne (name : List Char) (format : ∀ c ∈ name, c ∈ formatLetters) : name ≠ pad.name :=
  fun same => pad.foreign.1 (format _ (same ▸ pad.marked))

theorem without_colon (b : List Char) : without pad.text (':' :: b) = ':' :: without pad.text b :=
  without_word pad [':'] b (by decide)

theorem without_comma (b : List Char) : without pad.text (',' :: b) = ',' :: without pad.text b :=
  without_word pad [','] b (by decide)

theorem without_quote (b : List Char) : without pad.text (quoteToken ++ b) = quoteToken ++ without pad.text b :=
  without_other pad ['|','"','|'] b (by decide) (pad.ne _ (by simp [formatLetters]))

theorem without_closing (b : List Char) : without pad.text (closing ++ b) = closing ++ without pad.text b := by
  have brace := without_word pad ['\x7d'] ('<' :: (['t','o','o','l','_','c','a','l','l','|'] ++ ('>' :: b))) (by decide)
  rw [without_other pad _ b (by decide) (pad.ne _ (by simp [formatLetters]))] at brace
  exact brace

theorem without_opening (b : List Char) : without pad.text (callOpening ++ b) = callOpening ++ without pad.text b := by
  have tag := without_other pad ['|','t','o','o','l','_','c','a','l','l'] (['c','a','l','l',':'] ++ b) (by decide)
    (pad.ne _ (by simp [formatLetters]))
  rw [without_word pad ['c','a','l','l',':'] b (by decide)] at tag
  exact tag

end Removal

section Cleaned

variable {𝔽 : Type} (U : Unicode) (F : FloatText 𝔽) (pad : PadToken)

def cleanValue : ArgValue 𝔽 → ArgValue 𝔽
  | .str text => .str (without pad.text text)
  | value => value

def cleanCall (call : FunctionCall 𝔽) : FunctionCall 𝔽 :=
  ⟨call.name,call.arguments.mapWithKey (fun _ value => cleanValue pad value)⟩

/-- A string argument without the pad token. -/
def ArgValue.Unpadded : ArgValue 𝔽 → Prop
  | .str text => ¬ pad.text <:+: text
  | _ => True

theorem without_renderValue (value : ArgValue 𝔽) (plain : value.Plain F) (b : List Char) :
    without pad.text (renderValue F value ++ b) = renderValue F (cleanValue pad value) ++ without pad.text b := by
  by_cases string : ∃ text, value = .str text
  · obtain ⟨text,rfl⟩ := string
    simp only [renderValue,cleanValue,List.append_assoc]
    rw [without_quote,without_tag pad text _ (by simp [quoteToken]),without_quote]
  · have bare : ∀ text, value ≠ .str text := fun text same => string ⟨text,same⟩
    obtain ⟨c,rest,shape,letters⟩ := bare_letters F value plain bare
    have same : cleanValue pad value = value := by
      cases value with
      | str text => exact (bare text rfl).elim
      | int | float | bool | null => rfl
    rw [same]
    exact without_word pad _ b (fun inside => (letters _ (shape ▸ inside)).plain.2.2.1 rfl)

def cleanEntry (entry : List Char × ArgValue 𝔽) : List Char × ArgValue 𝔽 := (entry.1,cleanValue pad entry.2)

theorem without_renderArgs (entries : List (List Char × ArgValue 𝔽))
    (words : ∀ entry ∈ entries, ∀ c ∈ entry.1, U.isWord c = true) (plain : ∀ entry ∈ entries, entry.2.Plain F)
    (b : List Char) : without pad.text (renderArgs F entries ++ b) =
      renderArgs F (entries.map (cleanEntry pad)) ++ without pad.text b := by
  have angle : U.isWord '<' = false := not_word U '<' (by decide) rfl
  induction entries with
  | nil => rfl
  | cons entry rest ih =>
    have key : '<' ∉ entry.1 :=
      fun inside => Bool.false_ne_true (angle.symm.trans (words entry List.mem_cons_self _ inside))
    have value := without_renderValue F pad entry.2 (plain entry List.mem_cons_self)
    have others := ih (fun e m => words e (List.mem_cons_of_mem _ m)) (fun e m => plain e (List.mem_cons_of_mem _ m))
    cases rest with
    | nil =>
      simp only [renderArgs,List.map_cons,List.map_nil,cleanEntry,List.append_assoc,List.cons_append]
      rw [without_word pad entry.1 _ key,without_colon,value]
    | cons next rest =>
      rw [renderArgs_cons,List.append_assoc,List.cons_append,List.append_assoc,List.cons_append,
        without_word pad entry.1 _ key,without_colon,value,without_comma,others]
      simp only [List.map_cons,renderArgs_cons,cleanEntry,List.append_assoc,List.cons_append]

theorem without_renderCall (call : FunctionCall 𝔽) (name : IsWord U call.name) (renderable : Renderable U F call)
    (b : List Char) :
    without pad.text (renderCall F call ++ b) = renderCall F (cleanCall pad call) ++ without pad.text b := by
  have angle : U.isWord '<' = false := not_word U '<' (by decide) rfl
  have plain : '<' ∉ call.name ++ ['\x7b'] := by
    intro inside
    rcases List.mem_append.mp inside with named | brace
    · exact Bool.false_ne_true (angle.symm.trans (name.2 _ named))
    · exact absurd (List.mem_singleton.mp brace) (by decide)
  have shape : ∀ (call : FunctionCall 𝔽) (b : List Char), renderCall F call ++ b =
      callOpening ++ ((call.name ++ ['\x7b']) ++ (renderArgs F call.arguments.entries ++ (closing ++ b))) := by
    intro call b
    simp only [renderCall,List.append_assoc,List.cons_append,List.nil_append]
  rw [shape,without_opening,without_word pad _ _ plain,
    without_renderArgs U F pad call.arguments.entries renderable.words renderable.plain,without_closing,shape]
  rfl

/-- The items of a layout once the pad tokens are gone. -/
def cleanItem (item : FunctionCall 𝔽 × List Char) : FunctionCall 𝔽 × List Char :=
  (cleanCall pad item.1,without pad.text item.2)

theorem without_layout (first : List Char) (items : List (FunctionCall 𝔽 × List Char))
    (names : ∀ item ∈ items, IsWord U item.1.name) (renderable : ∀ item ∈ items, Renderable U F item.1) :
    without pad.text (layout F first items) = layout F (without pad.text first) (items.map (cleanItem pad)) := by
  induction items generalizing first with
  | nil => rfl
  | cons item items ih =>
    obtain ⟨call,gap⟩ := item
    have name : IsWord U call.name := names _ List.mem_cons_self
    have here : Renderable U F call := renderable _ List.mem_cons_self
    rw [layout,without_tag pad first _ (by simp [renderCall,callOpening,toolCallStartToken]),
      without_renderCall U F pad call name here,
      ih gap (fun i m => names i (List.mem_cons_of_mem _ m)) (fun i m => renderable i (List.mem_cons_of_mem _ m))]
    rfl

theorem cleanCall_eq (call : FunctionCall 𝔽) (clean : ∀ entry ∈ call.arguments.entries, entry.2.Unpadded pad) :
    cleanCall pad call = call := by
  have same : call.arguments.mapWithKey (fun _ value => cleanValue pad value) = call.arguments := by
    refine OrderedDict.ext_entries ?_
    refine (List.map_congr_left (fun entry member => ?_)).trans (List.map_id _)
    have unpadded := clean entry member
    obtain ⟨key,value⟩ := entry
    cases value with
    | str text => exact congrArg (fun cleaned => (key,ArgValue.str cleaned)) (without_eq text unpadded)
    | int | float | bool | null => rfl
  rw [cleanCall,same]

end Cleaned

/-! How often a letter stands in the names, keys and strings of calls. -/

section Letters

variable {𝔽 : Type} (U : Unicode) (F : FloatText 𝔽) (c : Char)

def ArgValue.letters : ArgValue 𝔽 → Nat
  | .str text => text.count c
  | _ => 0

def entryLetters (entry : List Char × ArgValue 𝔽) : Nat := entry.1.count c + entry.2.letters c

def dictLetters (d : OrderedDict (List Char) (ArgValue 𝔽)) : Nat := (d.entries.map (entryLetters c)).sum

def callLetters (call : FunctionCall 𝔽) : Nat := call.name.count c + dictLetters c call.arguments

def ArgMatch.text : ArgMatch → List Char
  | .quoted text => text
  | .bare text => text

theorem strip_count (text : List Char) : (strip text).count c ≤ text.count c :=
  ((List.rdropWhile_prefix isSpace (text.dropWhile isSpace)).sublist.trans
    (List.dropWhile_suffix isSpace).sublist).count_le c

theorem ArgMatch.value_letters (found : ArgMatch) : (found.value U F).letters c ≤ found.text.count c := by
  cases found with
  | quoted text => exact le_rfl
  | bare text =>
    rw [ArgMatch.value,bareValue]
    split
    · exact Nat.zero_le _
    split
    · exact Nat.zero_le _
    split
    · exact Nat.zero_le _
    split
    · exact Nat.zero_le _
    split
    · exact Nat.zero_le _
    · exact strip_count c text

theorem valueMatch_count (text : List Char) :
    (valueMatch text).1.text.count c + (valueMatch text).2.count c ≤ text.count c := by
  rw [valueMatch]
  cases found : (stripPrefix quoteToken text).bind (untilLiteral (· == '\n') quoteToken) with
  | none =>
    dsimp only [ArgMatch.text]
    rw [← List.count_append,List.takeWhile_append_dropWhile]
  | some run =>
    obtain ⟨body,start,inside⟩ := Option.bind_eq_some_iff.mp found
    have whole := congrArg (List.count c) (stripPrefix_eq_some start)
    have inner := congrArg (List.count c) (untilLiteral_eq_some inside).1
    simp only [List.count_append] at whole inner
    dsimp only [ArgMatch.text]
    omega

theorem argMatch_count (text : List Char) (found : List Char × ArgMatch) (rest : List Char)
    (made : argMatch U text = some (found,rest)) : found.1.count c + found.2.text.count c + rest.count c ≤ text.count c := by
  rw [argMatch] at made
  split at made
  · cases made
  · next w run =>
    have word_ := congrArg (List.count c) (word_eq_some U run).2
    split at made
    · cases made
    · next after colon =>
      obtain ⟨rfl,rfl⟩ := Prod.mk.inj (Option.some.inj made)
      have value := valueMatch_count c after
      have tail := congrArg (List.count c) (stripPrefix_eq_some colon)
      simp only [List.count_append] at word_ tail
      dsimp only
      omega

theorem replaced_letters (entries : List (List Char × ArgValue 𝔽)) (distinct : (entries.map Prod.fst).Nodup)
    (key : List Char) (value : ArgValue 𝔽) :
    ((entries.map (fun entry => if entry.1 = key then (key,value) else entry)).map (entryLetters c)).sum ≤
      (entries.map (entryLetters c)).sum + entryLetters c (key,value) := by
  induction entries with
  | nil => exact Nat.zero_le _
  | cons entry entries ih =>
    obtain ⟨fresh,rest⟩ := List.nodup_cons.mp distinct
    simp only [List.map_cons,List.sum_cons]
    by_cases here : entry.1 = key
    · have others : entries.map (fun entry => if entry.1 = key then (key,value) else entry) = entries := by
        refine (List.map_congr_left (fun other member => ?_)).trans (List.map_id _)
        refine if_neg (fun same => fresh ?_)
        rw [here,← same]
        exact List.mem_map_of_mem member
      rw [if_pos here,others]
      omega
    · have tail := ih rest
      rw [if_neg here]
      omega

/-- Setting a key replaces at most its own value. -/
theorem dictLetters_set (d : OrderedDict (List Char) (ArgValue 𝔽)) (key : List Char) (value : ArgValue 𝔽) :
    dictLetters c (d.set key value) ≤ dictLetters c d + entryLetters c (key,value) := by
  rw [dictLetters,dictLetters,OrderedDict.set]
  dsimp only
  split
  · exact replaced_letters c d.entries d.distinct key value
  · rw [List.map_append,List.sum_append,List.map_singleton,List.sum_singleton]

theorem dictLetters_foldl (pairs : List (List Char × ArgValue 𝔽)) (d : OrderedDict (List Char) (ArgValue 𝔽)) :
    dictLetters c (pairs.foldl (fun d pair => d.set pair.1 pair.2) d) ≤
      dictLetters c d + (pairs.map (entryLetters c)).sum := by
  induction pairs generalizing d with
  | nil => exact le_rfl
  | cons pair pairs ih =>
    have first : _ ≤ _ + entryLetters c pair := dictLetters_set c d pair.1 pair.2
    have rest := ih (d.set pair.1 pair.2)
    simp only [List.foldl_cons,List.map_cons,List.sum_cons]
    exact rest.trans (by omega)

/-- What is parsed was written. -/
theorem parseArguments_letters (text : List Char) : dictLetters c (parseArguments U F text) ≤ text.count c := by
  have written : ((scanAll (argMatch U) text).map (fun found => found.1.count c + found.2.text.count c)).sum ≤ text.count c :=
    sum_scanAll_le _ (List.count c) (fun d text => (List.sublist_cons_self d text).count_le c) (argMatch_count U c) text
  rw [parseArguments_eq]
  refine (dictLetters_foldl c _ _).trans (le_trans ?_ written)
  rw [List.map_map,show dictLetters c (OrderedDict.empty : OrderedDict (List Char) (ArgValue 𝔽)) = 0 from rfl,Nat.zero_add]
  exact List.sum_le_sum (fun found _ => Nat.add_le_add_left (found.2.value_letters U F c) _)

/-- What a match of a call has, its tags apart. -/
def matchLetters (found : List Char × List Char) : Nat := found.1.count c + found.2.count c

theorem quiet_closing (rest : List Char) : Quiet (fun text => (toolMatch U text).isSome = true) closing rest := by
  have start : Quiet (callOpening <+: ·) closing rest := by
    simp [Quiet,closing,callOpening,toolCallStartToken]
  refine Quiet.imp (fun text found => ?_) start
  obtain ⟨⟨⟨name,args⟩,rest⟩,made⟩ := Option.isSome_iff_exists.mp found
  rw [(toolMatch_eq_some U made).2]
  exact List.prefix_append _ _

/-- A call that opens before a closing ends there or earlier. -/
theorem toolMatch_within (a rest : List Char) (found : List Char × List Char) (after : List Char)
    (made : toolMatch U (a ++ (closing ++ rest)) = some (found,after)) :
    matchLetters c found ≤ a.count c ∧ after = rest ∨
      ∃ later, matchLetters c found + later.count c ≤ a.count c ∧ later.length < a.length ∧
        after = later ++ (closing ++ rest) := by
  obtain ⟨⟨name,body⟩,opened,run⟩ := Option.bind_eq_some_iff.mp made
  obtain ⟨⟨args,tail⟩,inside,same⟩ := Option.map_eq_some_iff.mp run
  obtain ⟨rfl,rfl⟩ := Prod.mk.inj same
  obtain ⟨isWord,whole⟩ := toolOpen_eq_some U opened
  have brace : U.isWord '\x7d' = false := not_word U '\x7d' (by decide) rfl
  have plain : '\x7d' ∉ callOpening ++ (name ++ ['\x7b']) := by
    intro member
    rcases List.mem_append.mp member with tag | member
    · exact absurd tag (by decide)
    · rcases List.mem_append.mp member with named | last
      · exact Bool.false_ne_true (brace.symm.trans (isWord.2 _ named))
      · exact absurd (List.mem_singleton.mp last) (by decide)
  have split_ : a ++ (closing ++ rest) = (callOpening ++ (name ++ ['\x7b'])) ++ body := by
    rw [whole]
    simp only [List.append_assoc,List.singleton_append]
  obtain ⟨more,rfl⟩ : ∃ more, a = (callOpening ++ (name ++ ['\x7b'])) ++ more := by
    rcases List.append_eq_append_iff.mp split_ with ⟨more,longer,ends⟩ | ⟨more,longer,ends⟩
    · cases more with
      | nil => exact ⟨[],by rw [longer,List.append_nil,List.append_nil]⟩
      | cons d more =>
        obtain rfl : '\x7d' = d := (List.cons.inj ends).1
        exact (plain (longer ▸ List.mem_append_right _ List.mem_cons_self)).elim
    · exact ⟨more,longer⟩
  have rest_ : body = more ++ (closing ++ rest) := by
    rw [List.append_assoc] at split_
    exact (List.append_cancel_left split_).symm
  rw [rest_] at inside
  have apart : ∀ n, 0 < n → n < closing.length → ¬ closing.drop n <+: closing ++ rest := by
    intro n positive less
    have bound : n < 13 := less
    interval_cases n <;> simp [closing]
  simp only [matchLetters,List.count_append,List.length_append]
  rcases untilLiteral_within apart inside with ⟨rfl,ends⟩ | ⟨later,shorter,ends⟩
  · exact .inl ⟨by omega,ends⟩
  · have total := congrArg (List.count c) shorter
    have length := congrArg List.length shorter
    simp only [List.count_append,List.length_append] at total length
    refine .inr ⟨later,by omega,?_,ends⟩
    have tag : 0 < callOpening.length := by decide
    omega

/-- What the calls found before a closing weigh. -/
theorem scan_closing (a rest : List Char) :
    ((scanAll (toolMatch U) (a ++ (closing ++ rest))).map (matchLetters c)).sum ≤
      a.count c + ((scanAll (toolMatch U) rest).map (matchLetters c)).sum := by
  induction size : a.length using Nat.strong_induction_on generalizing a with
  | _ n ih =>
    cases made : toolMatch U (a ++ (closing ++ rest)) with
    | none =>
      cases a with
      | nil =>
        rw [List.nil_append,scanAll_quiet closing rest (quiet_closing U rest)]
        exact Nat.le_add_left _ _
      | cons d a =>
        have fewer := ih a.length (by rw [← size,List.length_cons]; exact Nat.lt_succ_self _) a rfl
        have sub := (List.sublist_cons_self d a).count_le c
        rw [List.cons_append] at made ⊢
        rw [scanAll_skip _ _ made]
        omega
    | some match_ =>
      obtain ⟨found,after⟩ := match_
      rw [scanAll_match (toolMatch_shrinks U) _ found after made,List.map_cons,List.sum_cons]
      rcases toolMatch_within U c a rest found after made with ⟨bound,rfl⟩ | ⟨later,bound,less,rfl⟩
      · omega
      · have fewer := ih later.length (size ▸ less) later rfl
        omega

/-- The calls of a layout weigh no more than what is rendered of them. -/
theorem scan_layout_letters (outside : c ∉ callOpening ++ ['\x7b']) (first : List Char)
    (items : List (FunctionCall 𝔽 × List Char)) (noFirst : NoOpening U first)
    (gaps : ∀ item ∈ items, NoOpening U item.2) :
    ((scanAll (toolMatch U) (layout F first items)).map (matchLetters c)).sum ≤
      (items.map (fun item => item.1.name.count c + (renderArgs F item.1.arguments.entries).count c)).sum := by
  induction items generalizing first with
  | nil =>
    have quiet := scanAll_quiet first [] (quiet_last U first noFirst)
    rw [List.append_nil] at quiet
    rw [layout,quiet]
    exact le_rfl
  | cons item items ih =>
    obtain ⟨call,gap⟩ := item
    have shape : renderCall F call ++ layout F gap items =
        (callOpening ++ (call.name ++ (['\x7b'] ++ renderArgs F call.arguments.entries))) ++
          (closing ++ layout F gap items) := by
      simp only [renderCall,List.append_assoc,List.cons_append,List.nil_append]
    have own := scan_closing U c (callOpening ++ (call.name ++ (['\x7b'] ++ renderArgs F call.arguments.entries)))
      (layout F gap items)
    have others := ih gap (gaps _ List.mem_cons_self) (fun i m => gaps i (List.mem_cons_of_mem _ m))
    have tag := List.count_eq_zero_of_not_mem outside
    simp only [List.count_append] at own tag
    rw [layout,scanAll_quiet first (renderCall F call ++ layout F gap items) (quiet_gap U first _ noFirst),shape,
      List.map_cons,List.sum_cons]
    dsimp only
    omega

theorem renderArgs_letters (outside : c ∉ [':',',']) (entries : List (List Char × ArgValue 𝔽))
    (values : ∀ entry ∈ entries, (renderValue F entry.2).count c = entry.2.letters c) :
    (renderArgs F entries).count c = (entries.map (entryLetters c)).sum := by
  have apart : c ≠ ':' ∧ c ≠ ',' := by simpa using outside
  induction entries with
  | nil => rfl
  | cons entry rest ih =>
    have others := ih (fun e m => values e (List.mem_cons_of_mem _ m))
    have value := values entry List.mem_cons_self
    cases rest with
    | nil =>
      simp only [renderArgs,List.count_append,List.count_cons_of_ne apart.1.symm,value,List.map_cons,List.map_nil,
        List.sum_cons,List.sum_nil,entryLetters,Nat.add_zero]
    | cons next rest =>
      rw [renderArgs_cons,List.count_append,List.count_cons_of_ne apart.1.symm,List.count_append,
        List.count_cons_of_ne apart.2.symm,others,value]
      simp only [List.map_cons,List.sum_cons,entryLetters]
      omega

end Letters

section Padded

variable {𝔽 : Type} (U : Unicode) (F : FloatText 𝔽) (pad : PadToken)

theorem PadToken.outside (text : List Char) (format : ∀ c ∈ text, c ∈ formatLetters) : pad.mark ∉ text :=
  fun member => pad.foreign.1 (format _ member)

theorem value_marks (value : ArgValue 𝔽) (plain : value.Plain F) :
    (renderValue F (cleanValue pad value)).count pad.mark = (cleanValue pad value).letters pad.mark := by
  have digit : ∀ d : Char, d.isDigit = true → d ≠ pad.mark := by
    rintro d digit rfl
    exact Bool.false_ne_true (pad.foreign.2.symm.trans digit)
  have letter : ∀ d ∈ formatLetters, d ≠ pad.mark := by
    rintro d member rfl
    exact pad.foreign.1 member
  cases value with
  | str text =>
    have quote := List.count_eq_zero_of_not_mem (pad.outside quoteToken (by simp [quoteToken,formatLetters]))
    simp only [cleanValue,renderValue,List.count_append,quote,ArgValue.letters]
    omega
  | int n =>
    refine List.count_eq_zero_of_not_mem (fun member => ?_)
    rcases dumpInt_letters n _ member with digit_ | minus
    · exact digit _ digit_ rfl
    · exact letter '-' (by simp [formatLetters]) minus.symm
  | float x =>
    refine List.count_eq_zero_of_not_mem (fun member => ?_)
    rcases F.repr_letters x plain _ member with digit_ | same | same | same | same
    · exact digit _ digit_ rfl
    · exact letter '-' (by simp [formatLetters]) same.symm
    · exact letter '+' (by simp [formatLetters]) same.symm
    · exact letter '.' (by simp [formatLetters]) same.symm
    · exact letter 'e' (by simp [formatLetters]) same.symm
  | bool b =>
    refine List.count_eq_zero_of_not_mem (pad.outside _ ?_)
    cases b <;> simp [cleanValue,renderValue,formatLetters]
  | null => exact List.count_eq_zero_of_not_mem (pad.outside _ (by simp [cleanValue,renderValue,formatLetters]))

theorem cleanValue_letters (value : ArgValue 𝔽) : (cleanValue pad value).letters pad.mark ≤ value.letters pad.mark := by
  cases value with
  | str text => exact count_without_le pad.some _ text
  | int | float | bool | null => exact le_rfl

theorem cleanValue_fewer (value : ArgValue 𝔽) (padded : ¬ value.Unpadded pad) :
    (cleanValue pad value).letters pad.mark < value.letters pad.mark := by
  cases value with
  | str text =>
    refine count_without_lt pad.some _ ?_ text (not_not.mp padded)
    exact List.mem_cons_of_mem _ (List.mem_append_left _ pad.marked)
  | int | float | bool | null => exact (padded trivial).elim

theorem cleanCall_letters (call : FunctionCall 𝔽) :
    callLetters pad.mark (cleanCall pad call) = call.name.count pad.mark +
      (call.arguments.entries.map (entryLetters pad.mark ∘ cleanEntry pad)).sum := by
  rw [← List.map_map]
  rfl

theorem cleanCall_le (call : FunctionCall 𝔽) : callLetters pad.mark (cleanCall pad call) ≤ callLetters pad.mark call := by
  rw [cleanCall_letters,callLetters,dictLetters]
  exact Nat.add_le_add_left (List.sum_le_sum
    (fun entry _ => Nat.add_le_add_left (cleanValue_letters pad entry.2) _)) _

theorem cleanCall_lt (call : FunctionCall 𝔽) (entry : List Char × ArgValue 𝔽) (member : entry ∈ call.arguments.entries)
    (padded : ¬ entry.2.Unpadded pad) : callLetters pad.mark (cleanCall pad call) < callLetters pad.mark call := by
  rw [cleanCall_letters,callLetters,dictLetters]
  exact Nat.add_lt_add_left (List.sum_lt_sum _ _
    (fun other _ => Nat.add_le_add_left (cleanValue_letters pad other.2) _)
    ⟨entry,member,Nat.add_lt_add_left (cleanValue_fewer pad entry.2 padded) _⟩) _

/-- Calls that come back had no pad token in their strings: the removed letters are nowhere else. -/
theorem unpadded_of_calls (first : List Char) (items : List (FunctionCall 𝔽 × List Char))
    (noFirst : NoOpening U (without pad.text first)) (gaps : ∀ item ∈ items, NoOpening U (without pad.text item.2))
    (renderable : ∀ item ∈ items, Renderable U F item.1)
    (same : (scanAll (toolMatch U) (layout F (without pad.text first) (items.map (cleanItem pad)))).map
      (fun found => (⟨found.1,parseArguments U F found.2⟩ : FunctionCall 𝔽)) = items.map Prod.fst) :
    ∀ item ∈ items, ∀ entry ∈ item.1.arguments.entries, entry.2.Unpadded pad := by
  intro item member entry inside
  by_contra padded
  have written := scan_layout_letters U F pad.mark (pad.outside _ (by
      simp [callOpening,toolCallStartToken,formatLetters])) (without pad.text first) (items.map (cleanItem pad)) noFirst (by
    intro cleaned listed
    obtain ⟨item,held,rfl⟩ := List.mem_map.mp listed
    exact gaps item held)
  have read : (items.map (fun item => callLetters pad.mark item.1)).sum ≤
      ((scanAll (toolMatch U) (layout F (without pad.text first) (items.map (cleanItem pad)))).map
        (matchLetters pad.mark)).sum := by
    have calls := congrArg (fun calls => (calls.map (callLetters pad.mark)).sum) same
    simp only [List.map_map,Function.comp_def] at calls
    rw [← calls]
    exact List.sum_le_sum (fun found _ => Nat.add_le_add_left (parseArguments_letters U F pad.mark found.2) _)
  have rendered : (items.map (cleanItem pad)).map
        (fun item => item.1.name.count pad.mark + (renderArgs F item.1.arguments.entries).count pad.mark) =
      items.map (fun item => callLetters pad.mark (cleanCall pad item.1)) := by
    rw [List.map_map]
    refine List.map_congr_left (fun item held => congrArg (item.1.name.count pad.mark + ·) ?_)
    refine renderArgs_letters F pad.mark (pad.outside _ (by simp [formatLetters])) _ (fun entry listed => ?_)
    obtain ⟨entry,here,rfl⟩ := List.mem_map.mp listed
    exact value_marks F pad entry.2 ((renderable item held).plain entry here)
  have fewer : (items.map (fun item => callLetters pad.mark (cleanCall pad item.1))).sum <
      (items.map (fun item => callLetters pad.mark item.1)).sum :=
    List.sum_lt_sum _ _ (fun other _ => cleanCall_le pad other.1) ⟨item,member,cleanCall_lt pad item.1 entry inside padded⟩
  rw [rendered] at written
  omega

/-- A string argument in which the parser finds no pad token to remove. -/
def Kept (padToken : Option PadToken) (value : ArgValue 𝔽) : Prop := ∀ pad ∈ padToken, value.Unpadded pad

/-- The calls come back exactly when names and keys are non-empty words, strings have one line and no
pad token, and integers have at most 4300 digits. -/
theorem tool_calls_iff (padToken : Option PadToken) (first : List Char) (items : List (FunctionCall 𝔽 × List Char))
    (noFirst : NoOpening U (cleanText (padText padToken) first))
    (gaps : ∀ item ∈ items, NoOpening U (cleanText (padText padToken) item.2))
    (renderable : ∀ item ∈ items, Renderable U F item.1) :
    (extractToolCalls U F (padText padToken) (layout F first items)).2 = items.map Prod.fst ↔
      ∀ item ∈ items, IsWord U item.1.name ∧
        ∀ entry ∈ item.1.arguments.entries, entry.1 ≠ [] ∧ entry.2.Legible ∧ Kept padToken entry.2 := by
  have named : ∀ text : List Char,
      (scanAll (toolMatch U) text).map (fun found => (⟨found.1,parseArguments U F found.2⟩ : FunctionCall 𝔽)) =
        items.map Prod.fst → ∀ item ∈ items, IsWord U item.1.name := by
    intro text same item member
    have inside : item.1 ∈ items.map Prod.fst := List.mem_map_of_mem member
    rw [← same] at inside
    obtain ⟨found,matched,named⟩ := List.mem_map.mp inside
    obtain ⟨here,rest,made⟩ := mem_scanAll _ _ matched
    rw [← named]
    exact (toolMatch_eq_some U made).1
  cases padToken with
  | none =>
    have criterion := calls_iff U F none (layout F first items) first items rfl noFirst gaps renderable
    refine criterion.trans ?_
    simp [Kept]
  | some pad =>
    have kept : (∀ item ∈ items, IsWord U item.1.name) →
        (∀ item ∈ items, ∀ entry ∈ item.1.arguments.entries, entry.2.Unpadded pad) →
        without pad.text (layout F first items) =
          layout F (without pad.text first) (items.map (fun item => (item.1,without pad.text item.2))) := by
      intro names unpadded
      rw [without_layout U F pad first items names renderable]
      refine congrArg _ (List.map_congr_left (fun item member => ?_))
      rw [cleanItem,cleanCall_eq pad item.1 (unpadded item member)]
    have noGaps : ∀ item ∈ items.map (fun item => (item.1,without pad.text item.2)), NoOpening U item.2 :=
      List.forall_mem_map.mpr (fun item member => gaps item member)
    have each : ∀ item ∈ items.map (fun item => (item.1,without pad.text item.2)), Renderable U F item.1 :=
      List.forall_mem_map.mpr (fun item member => renderable item member)
    have criterion := fun clean => calls_iff U F (some pad.text) (layout F first items) (without pad.text first)
      (items.map (fun item => (item.1,without pad.text item.2))) clean noFirst
      noGaps each
    simp only [List.map_map,Function.comp_def,List.forall_mem_map] at criterion
    constructor
    · intro same
      have calls := same
      rw [extract_calls,padText,Option.map_some,cleanText_pad] at calls
      have names := named _ calls
      rw [without_layout U F pad first items names renderable] at calls
      have unpadded := unpadded_of_calls U F pad first items noFirst gaps renderable calls
      have legible := (criterion (kept names unpadded)).mp same
      intro item member
      refine ⟨names item member,fun entry inside => ?_⟩
      obtain ⟨filled,read⟩ := (legible item member).2 entry inside
      refine ⟨filled,read,?_⟩
      rintro _ ⟨⟩
      exact unpadded item member entry inside
    · intro each
      refine (criterion (kept (fun item member => (each item member).1) ?_)).mpr (fun item member => ?_)
      · intro item member entry inside
        exact ((each item member).2 entry inside).2.2 pad rfl
      · refine ⟨(each item member).1,fun entry inside => ?_⟩
        obtain ⟨filled,read,_⟩ := (each item member).2 entry inside
        exact ⟨filled,read⟩


end Padded

/-- One float, `1.5`. -/
def oneFloat : FloatText Unit where
  parse text := if text = ['1','.','5'] then some () else none
  repr _ := ['1','.','5']
  finite _ := True
  parse_repr _ _ := rfl
  repr_letters _ _ := List.forall_mem_cons.mpr ⟨.inl (by decide),List.forall_mem_cons.mpr
    ⟨.inr (.inr (.inr (.inl rfl))),List.forall_mem_cons.mpr ⟨.inl (by decide),fun _ empty => absurd empty List.not_mem_nil⟩⟩⟩
  repr_head _ _ := ⟨'1',['.','5'],rfl,.inl rfl⟩
  repr_point _ _ := .inl (by decide)
  parse_angle _ := if_neg (fun same => absurd (List.cons.inj same).1 (by decide))

def mixedCall : FunctionCall Unit :=
  ⟨['f'],⟨[(['k'],.str ['a',',','\x7d']),(['n'],.int (-12)),(['x'],.float ()),(['b'],.bool true),(['z'],.null)],
    by decide⟩⟩

theorem mixedCall_words (entry : List Char × ArgValue Unit) (member : entry ∈ mixedCall.arguments.entries) :
    ∀ c ∈ entry.1, asciiTable.isWord c = true := by
  simp only [mixedCall,List.mem_cons,List.not_mem_nil,or_false] at member
  rcases member with rfl | rfl | rfl | rfl | rfl <;> exact List.forall_mem_singleton.mpr rfl

/-- `<pad>`. -/
def gemmaPad : PadToken := ⟨['p','a','d'],'p',by decide,by decide,by decide⟩

theorem gemmaPad_ends : cleanText (padText (some gemmaPad)) (['o','k'] ++ gemmaPad.text) = ['o','k'] ∧
    cleanText (padText (some gemmaPad)) (gemmaPad.text ++ gemmaPad.text) = [] := by decide

/-- Pad tokens before and behind a call. -/
theorem tool_calls_padded :
    (extractToolCalls asciiTable oneFloat (padText (some gemmaPad)) (layout oneFloat (['o','k'] ++ gemmaPad.text)
      [(mixedCall,gemmaPad.text ++ gemmaPad.text)])).2 = [mixedCall] :=
  (tool_calls_iff asciiTable oneFloat (some gemmaPad) (['o','k'] ++ gemmaPad.text)
    [(mixedCall,gemmaPad.text ++ gemmaPad.text)]
    (by
      rw [gemmaPad_ends.1]
      exact ⟨by decide,by decide,trivial⟩)
    (by
      intro item member
      obtain rfl := List.mem_singleton.mp member
      rw [gemmaPad_ends.2]
      trivial)
    (by
      intro item member
      obtain rfl := List.mem_singleton.mp member
      refine ⟨mixedCall_words,fun entry inside => ?_⟩
      simp only [mixedCall,List.mem_cons,List.not_mem_nil,or_false] at inside
      rcases inside with rfl | rfl | rfl | rfl | rfl
      · exact ⟨by decide,by decide⟩
      · trivial
      · trivial
      · trivial
      · trivial)).mpr
    (by
      intro item member
      obtain rfl := List.mem_singleton.mp member
      refine ⟨⟨by decide,List.forall_mem_singleton.mpr rfl⟩,fun entry inside => ?_⟩
      simp only [mixedCall,List.mem_cons,List.not_mem_nil,or_false] at inside
      refine ⟨?_,?_,?_⟩
      · rcases inside with rfl | rfl | rfl | rfl | rfl <;> decide
      · rcases inside with rfl | rfl | rfl | rfl | rfl
        · exact (by decide : '\n' ∉ ['a',',','\x7d'])
        · exact (by decide : (Nat.toDigits 10 12).length ≤ 4300)
        · trivial
        · trivial
        · trivial
      · rintro _ ⟨⟩
        rcases inside with rfl | rfl | rfl | rfl | rfl
        · exact (by decide : ¬ gemmaPad.text <:+: ['a',',','\x7d'])
        · trivial
        · trivial
        · trivial
        · trivial)

/-- A pad token in a string is removed with the others. -/
example : (extractToolCalls asciiTable oneFloat (padText (some gemmaPad))
    (layout oneFloat [] [(⟨['f'],⟨[(['k'],.str (['a'] ++ gemmaPad.text ++ ['b']))],by decide⟩⟩,[])])).2.map
      (fun call => (call.name,call.arguments.entries)) = [(['f'],[(['k'],.str ['a','b'])])] := by decide

def twoLines : FunctionCall Unit := ⟨['f'],⟨[(['k'],.str ['a','\n','b'])],by decide⟩⟩

/-- A string of two lines comes back with its quote tokens. -/
theorem tool_calls_newline :
    (extractToolCalls asciiTable oneFloat none (layout oneFloat [] [(twoLines,[])])).2.map
      (fun call => (call.name,call.arguments.entries)) =
    [(['f'],[(['k'],.str (quoteToken ++ ['a','\n','b'] ++ quoteToken))])] := by decide

end RelayOpd.Gemma4Tools
