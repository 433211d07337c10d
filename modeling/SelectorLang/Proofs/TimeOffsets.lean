import SelectorLang.Proofs.Forms
import SelectorLang.Proofs.Reading
import SelectorLang.Proofs.Squeezing
import SelectorLang.Time.Expression

set_option autoImplicit false

namespace SelectorLang

namespace Instant

theorem ofUnix?_of_steady {nanos : Nat} (steady : nanos < nanosPerSecond) (seconds : Int) :
    ofUnix? seconds nanos =
      if inRange : firstSecond ≤ seconds ∧ seconds ≤ lastSecond then
        some ⟨seconds, nanos, inRange, Or.inl steady⟩
      else none := by
  simp only [ofUnix?, steady, true_or, ↓reduceDIte]

theorem shift?_of_steady {now : Instant} (steady : now.nanos < nanosPerSecond) (seconds : Int) :
    now.shift? seconds = ofUnix? (now.seconds + seconds) now.nanos := by
  rw [shift?]
  split
  · rename_i zero
    rw [zero, Int.add_zero, ofUnix?_of_steady steady, dif_pos now.inRange]
  · have leapless : now.isLeap = false := by
      rw [isLeap, decide_eq_false_iff_not]
      omega
    rw [leapless]
    rfl

end Instant

namespace TimeExpression

open Reader

structure Gap where
  chars : List Char
  blank : chars.all isBlank = true

structure Break extends Gap where
  nonempty : chars ≠ []

/-- A decimal numeral, with any number of zeros in front. -/
structure Digits where
  chars : List Char
  nonempty : chars ≠ []
  wellFormed : chars.all Char.isDigit = true

def Digits.number (digits : Digits) : Nat := Nat.ofDigitChars 10 digits.chars 0

inductive Amount where
  | numeral (digits : Digits)
  | article (long : Bool)

namespace Amount

def chars : Amount → List Char
  | .numeral digits => digits.chars
  | .article long => if long then ['a', 'n'] else ['a']

def number : Amount → Nat
  | .numeral digits => digits.number
  | .article _ => 1

def one : Amount := .numeral ⟨['1'], List.cons_ne_nil _ _, rfl⟩

end Amount

def sign (back : Bool) : Char := if back then '-' else '+'

def nowText (now : Option (List Char)) : List Char := now.elim [] (['n', 'o', 'w'] ++ ·)

def direction (back : Bool) : List Char :=
  if back then ['l', 'a', 's', 't'] else ['n', 'e', 'x', 't']

/-- The forms of an offset, up to its unit and to letter case. -/
inductive Spelling where
  | ago (amount : Amount) (gap : Gap) (space : Break)
  | ahead (space : Break) (amount : Amount) (gap : Gap)
  | signed (now : Option Gap) (back : Bool) (gap : Gap) (digits : Digits) (space : Gap)
  | neighbour (back : Bool) (space : Break)

namespace Spelling

def text (unit : List Char) : Spelling → List Char
  | .ago amount gap space => amount.chars ++ gap.chars ++ unit ++ space.chars ++ ['a', 'g', 'o']
  | .ahead space amount gap => ['i', 'n'] ++ space.chars ++ amount.chars ++ gap.chars ++ unit
  | .signed now back gap digits space =>
    nowText (now.map (·.chars)) ++ [sign back] ++ gap.chars ++ digits.chars ++ space.chars ++ unit
  | .neighbour back space => direction back ++ space.chars ++ unit

def amount : Spelling → Amount
  | .ago amount _ _ => amount
  | .ahead _ amount _ => amount
  | .signed _ _ _ digits _ => .numeral digits
  | .neighbour _ _ => .one

def back : Spelling → Bool
  | .ago _ _ _ => true
  | .ahead _ _ _ => false
  | .signed _ back _ _ _ => back
  | .neighbour back _ => back

/-- The seconds that an offset goes, in a unit of so many. -/
def offset (spelling : Spelling) (seconds : Nat) : Int :=
  if spelling.back then -(spelling.amount.number * seconds : Nat)
  else (spelling.amount.number * seconds : Nat)

def step (spelling : Spelling) (unit : List Char) : Step :=
  ⟨spelling.back, spelling.amount.chars, unit⟩

end Spelling

theorem word?_of_lt {value : Nat} (fits : value < 0x8000_0000_0000_0000) :
    word? value = some (value : Int) := by
  rw [word?, if_pos]
  omega

theorem eq_of_word? {value found : Int} (read : word? value = some found) : found = value := by
  rw [word?] at read
  split at read
  · exact (Option.some.inj read).symm
  · cases read

theorem number?_chars (amount : Amount) : number? amount.chars = word? amount.number := by
  cases amount with
  | article long =>
    rw [Amount.number, word?_of_lt (by decide)]
    cases long <;> rfl
  | numeral digits =>
    have noArticle : ¬(digits.chars = ['a'] ∨ digits.chars = ['a', 'n']) := by
      rintro (same | same) <;>
      · have wellFormed := digits.wellFormed
        rw [same] at wellFormed
        exact absurd wellFormed (by decide)
    rw [Amount.chars, number?, if_neg noArticle, if_pos digits.wellFormed]
    rfl

/-- What the name of a unit with so many seconds is like. -/
structure Names (unit : List Char) (seconds : Nat) : Prop where
  nonempty : unit ≠ []
  letters : unit.all isLetter = true
  noArticle : Stops (· == 'n') unit
  positive : 0 < seconds

theorem names_of_known {unit : String} {seconds : Nat} (known : unitSeconds? unit = some seconds) :
    Names unit.toList seconds := by
  have table : units.all (fun entry => entry.1.all (fun name => !name.toList.isEmpty &&
      name.toList.all isLetter && name.toList.head? != some 'n') && 0 < entry.2) = true := by
    decide
  rw [unitSeconds?, Option.map_eq_some_iff] at known
  obtain ⟨entry, found, rfl⟩ := known
  have listed := List.all_eq_true.mp table entry (List.mem_of_find?_eq_some found)
  have named : unit ∈ entry.1 := by
    have accepted := List.find?_some found
    rwa [List.contains_eq_mem, decide_eq_true_eq] at accepted
  rw [Bool.and_eq_true, decide_eq_true_eq] at listed
  have own := List.all_eq_true.mp listed.1 unit named
  simp only [Bool.and_eq_true, Bool.not_eq_true', List.isEmpty_eq_false_iff, bne_iff_ne] at own
  refine ⟨own.1.1, own.1.2, ?_, listed.2⟩
  intro c first
  rw [beq_eq_false_iff_ne]
  rintro rfl
  exact own.2 first

/-- The bounds of machine words come to one bound: a length with milliseconds that fit a word. -/
theorem length?_eq {unit : String} {seconds : Nat} (known : unitSeconds? unit = some seconds)
    (back : Bool) (amount : Amount) :
    Step.length? ⟨back, amount.chars, unit.toList⟩ =
      if amount.number * seconds ≤ longest then some ((amount.number * seconds : Nat) : Int)
      else none := by
  have positive := (names_of_known known).positive
  have least : amount.number ≤ amount.number * seconds := Nat.le_mul_of_pos_right _ positive
  simp only [Step.length?, number?_chars, String.ofList_toList, known, Option.bind_eq_bind,
    Option.bind_some]
  rw [longest]
  split
  · rename_i short
    rw [word?_of_lt (by omega), Option.bind_some, ← Int.natCast_mul, word?_of_lt (by omega),
      Option.bind_some, Int.natAbs_natCast, if_pos short]
    rfl
  · rename_i long
    rw [Option.bind_eq_none_iff]
    intro value number
    rw [Option.bind_eq_none_iff]
    intro length product
    rw [eq_of_word? product, eq_of_word? number, ← Int.natCast_mul, Int.natAbs_natCast, if_neg long]

/-- Where a length is beyond the bounds, there is no instant to lead to either. -/
theorem from?_step {unit : String} {seconds : Nat} (known : unitSeconds? unit = some seconds)
    (spelling : Spelling) {now : Instant} (steady : now.nanos < nanosPerSecond) :
    (spelling.step unit.toList).from? now =
      Instant.ofUnix? (now.seconds + spelling.offset seconds) now.nanos := by
  rw [Step.from?, Spelling.step, length?_eq known]
  split
  · rw [Option.bind_some, Instant.shift?_of_steady steady]
    rfl
  · rename_i long
    have range := now.inRange
    rw [Option.bind_none, Instant.ofUnix?_of_steady steady, dif_neg]
    simp only [longest, Instant.firstSecond, Instant.lastSecond, Spelling.offset] at long range ⊢
    split <;> omega

variable {rest : List Char}

theorem stops_single {accepts : Char → Bool} (refused : accepts ' ' = false) (gap : List Char)
    (stops : Stops accepts rest) : Stops accepts (Text.single gap ++ rest) := by
  cases gap with
  | nil => exact stops
  | cons c others => exact stops_cons refused rest

theorem Digits.decimal (digits : Digits) : digits.chars.all isDecimalDigit = true :=
  all_isDecimalDigit digits.wellFormed

/-- What a reader of amounts must not meet behind an amount: another digit, or the end of an
article. -/
structure EndsAmount (rest : List Char) : Prop where
  noDigit : Stops isDecimalDigit rest
  noArticle : Stops (· == 'n') rest

theorem amount_append (number : Amount) (ends : EndsAmount rest) :
    amount (number.chars ++ rest) = some (number.chars, rest) := by
  cases number with
  | numeral digits =>
    have read := run1_append digits.nonempty digits.decimal ends.noDigit
    simp only [amount, orElse_apply, Amount.chars, read, Option.some_or]
  | article long =>
    have noNumeral : ∀ others, run1 isDecimalDigit ('a' :: others) = none :=
      fun others => run1_of_stops (stops_cons rfl others)
    cases long with
    | true =>
      have read := bind_of_some (fun _ => pure ['a', 'n']) (exactly_append ['a', 'n'] rest)
      simp only [amount, orElse_apply, Amount.chars, ↓reduceIte, List.cons_append, List.nil_append,
        noNumeral, Option.none_or] at read ⊢
      rw [read, pure_apply, Option.some_or]
    | false =>
      have short : exactly ['a', 'n'] ('a' :: rest) = none := by
        rw [exactly_cons, exactly_of_stops ends.noArticle]
      have read := bind_of_some (fun _ => pure ['a']) (exactly_singleton 'a' rest)
      simp only [amount, orElse_apply, Amount.chars, Bool.false_eq_true, ↓reduceIte,
        List.cons_append, List.nil_append, noNumeral, bind_of_none _ short, Option.none_or]
      exact read

theorem letter_induction (holds : Char → Prop)
    (codes : ∀ code ∈ List.range' 97 26, holds (Char.ofNat code)) {c : Char}
    (letter : isLetter c = true) : holds c := by
  simp only [isLetter, Bool.and_eq_true, decide_eq_true_eq, Char.le_def,
    UInt32.le_iff_toNat_le] at letter
  exact Text.code_induction holds codes letter.1 (Nat.lt_succ_of_le letter.2)

theorem isWord_of_letters {chars : List Char} (nonempty : chars ≠ [])
    (letters : chars.all isLetter = true) : Text.IsWord chars := by
  refine Text.isWord_of_all nonempty letters (fun c letter => ?_)
  exact letter_induction (fun d => isBlank d = false) (by decide) letter

theorem Digits.isWord (digits : Digits) : Text.IsWord digits.chars :=
  Text.isWord_of_all digits.nonempty digits.wellFormed
    (fun _ digit => isBlank_of_isFieldChar (isFieldChar_of_isDigit digit))

theorem Amount.isWord (amount : Amount) : Text.IsWord amount.chars := by
  cases amount with
  | numeral digits => exact digits.isWord
  | article long => cases long <;> exact isWord_of_letters (List.cons_ne_nil _ _) rfl

namespace Names

variable {unit : List Char} {seconds : Nat} (names : Names unit seconds)

include names

theorem isWord : Text.IsWord unit := isWord_of_letters names.nonempty names.letters

theorem endsAmount (gap rest : List Char) : EndsAmount (Text.single gap ++ (unit ++ rest)) := by
  have noDigit : Stops isDecimalDigit unit := by
    intro c first
    have letter := List.all_eq_true.mp names.letters c (List.mem_of_head? first)
    exact letter_induction (fun d => isDecimalDigit d = false) (by decide) letter
  exact ⟨stops_single rfl gap (noDigit.append names.nonempty rest),
    stops_single rfl gap (names.noArticle.append names.nonempty rest)⟩

theorem endsAmount_self (gap : List Char) : EndsAmount (Text.single gap ++ unit) := by
  rw [← List.append_nil unit]
  exact names.endsAmount gap []

theorem read_append (stops : Stops isLetter rest) :
    run1 isLetter (unit ++ rest) = some (unit, rest) :=
  run1_append names.nonempty names.letters stops

theorem read_self : run1 isLetter unit = some (unit, []) := by
  have read := names.read_append (stops_nil isLetter)
  rwa [List.append_nil] at read

theorem squeeze_ago (number : Amount) (gap : Gap) (space : Break) :
    Text.squeeze ((Spelling.ago number gap space).text unit) =
      number.chars ++ (Text.single gap.chars ++ (unit ++ (Text.single space.chars ++
        ['a', 'g', 'o']))) := by
  have last : Text.IsWord ['a', 'g', 'o'] := isWord_of_letters (List.cons_ne_nil _ _) rfl
  simp only [Spelling.text, List.append_assoc]
  rw [number.isWord.squeeze_append gap.blank (names.isWord.goesOn _),
    names.isWord.squeeze_append space.blank rfl, last.squeeze]

theorem squeeze_ahead (space : Break) (number : Amount) (gap : Gap) :
    Text.squeeze ((Spelling.ahead space number gap).text unit) =
      ['i', 'n'] ++
        (Text.single space.chars ++ (number.chars ++ (Text.single gap.chars ++ unit))) := by
  have first : Text.IsWord ['i', 'n'] := isWord_of_letters (List.cons_ne_nil _ _) rfl
  simp only [Spelling.text, List.append_assoc]
  rw [first.squeeze_append space.blank (number.isWord.goesOn _),
    number.isWord.squeeze_append gap.blank names.isWord.goesOn_self, names.isWord.squeeze]

theorem squeeze_signed (now : Option Gap) (back : Bool) (gap : Gap) (digits : Digits)
    (space : Gap) :
    Text.squeeze ((Spelling.signed now back gap digits space).text unit) =
      nowText (now.map (Text.single ·.chars)) ++ ([sign back] ++
        (Text.single gap.chars ++ (digits.chars ++ (Text.single space.chars ++ unit)))) := by
  have marked : Text.IsWord [sign back] := by
    cases back <;> exact ⟨List.cons_ne_nil _ _, List.forall_mem_singleton.mpr rfl⟩
  have first : Text.IsWord ['n', 'o', 'w'] := isWord_of_letters (List.cons_ne_nil _ _) rfl
  have behind :
      Text.squeeze ([sign back] ++ (gap.chars ++ (digits.chars ++ (space.chars ++ unit)))) =
        [sign back] ++
          (Text.single gap.chars ++ (digits.chars ++ (Text.single space.chars ++ unit))) := by
    rw [marked.squeeze_append gap.blank (digits.isWord.goesOn _),
      digits.isWord.squeeze_append space.blank names.isWord.goesOn_self, names.isWord.squeeze]
  cases now with
  | none =>
    simpa only [Spelling.text, nowText, Option.map, Option.elim, List.nil_append,
      List.append_assoc] using behind
  | some lead =>
    simp only [Spelling.text, nowText, Option.map, Option.elim, List.append_assoc]
    rw [first.squeeze_append lead.blank (marked.goesOn _), behind]

theorem squeeze_neighbour (back : Bool) (space : Break) :
    Text.squeeze ((Spelling.neighbour back space).text unit) =
      direction back ++ (Text.single space.chars ++ unit) := by
  have first : Text.IsWord (direction back) := by
    cases back <;> exact isWord_of_letters (List.cons_ne_nil _ _) rfl
  simp only [Spelling.text, List.append_assoc]
  rw [first.squeeze_append space.blank names.isWord.goesOn_self, names.isWord.squeeze]

end Names

theorem stops_space {word : List Char} (isWord : Text.IsWord word) : Stops (· == ' ') word := by
  intro c first
  rw [beq_eq_false_iff_ne]
  rintro rfl
  have dark := isWord.dark ' ' (List.mem_of_head? first)
  cases dark

theorem stops_space_append {word : List Char} (isWord : Text.IsWord word) (rest : List Char) :
    Stops (· == ' ') (word ++ rest) :=
  (stops_space isWord).append isWord.nonempty rest

theorem spaces_single (gap : List Char) (stops : Stops (· == ' ') rest) :
    spaces (Text.single gap ++ rest) = some ((), rest) :=
  bind_of_some _ (run_append (Text.single_all gap) stops)

theorem spaces1_single (space : Break) (stops : Stops (· == ' ') rest) :
    spaces1 (Text.single space.chars ++ rest) = some ((), rest) := by
  rw [Text.single_of_ne_nil space.nonempty]
  exact bind_of_some _ (run1_append (List.cons_ne_nil _ _) rfl stops)

namespace Names

variable {unit : List Char} {seconds : Nat} (names : Names unit seconds)

include names

theorem ago_reads (number : Amount) (gap : Gap) (space : Break) :
    ago (number.chars ++ (Text.single gap.chars ++ (unit ++ (Text.single space.chars ++
      ['a', 'g', 'o'])))) = some (⟨true, number.chars, unit⟩, []) := by
  have unitEnds : Stops isLetter (Text.single space.chars ++ ['a', 'g', 'o']) := by
    rw [Text.single_of_ne_nil space.nonempty]
    exact stops_cons rfl _
  rw [ago, bind_of_some _ (amount_append number (names.endsAmount _ _)),
    bind_of_some _ (spaces_single _ (stops_space_append names.isWord _)),
    bind_of_some _ (names.read_append unitEnds),
    bind_of_some _ (spaces1_single space (stops_cons rfl _))]
  rfl

theorem ahead_reads (space : Break) (number : Amount) (gap : Gap) :
    ahead (['i', 'n'] ++ (Text.single space.chars ++ (number.chars ++ (Text.single gap.chars ++
      unit)))) = some (⟨false, number.chars, unit⟩, []) := by
  rw [ahead, bind_of_some _ (exactly_append ['i', 'n'] _),
    bind_of_some _ (spaces1_single space (stops_space_append number.isWord _)),
    bind_of_some _ (amount_append number (names.endsAmount_self _)),
    bind_of_some _ (spaces_single _ (stops_space names.isWord)),
    bind_of_some _ names.read_self]
  rfl

omit names in
theorem leadingNow_reads (now : Option Gap) (back : Bool) (rest : List Char) :
    leadingNow (nowText (now.map (Text.single ·.chars)) ++ ([sign back] ++ rest)) =
      some ((), [sign back] ++ rest) := by
  cases now with
  | none => cases back <;> rfl
  | some gap =>
    have noSpace : Stops (· == ' ') ([sign back] ++ rest) := by
      cases back <;> exact stops_cons rfl rest
    simp only [nowText, Option.map, Option.elim, List.append_assoc]
    rw [leadingNow, orElse_apply, bind_of_some _ (exactly_append ['n', 'o', 'w'] _),
      spaces_single gap.chars noSpace, Option.some_or]

theorem signed_reads (now : Option Gap) (back : Bool) (gap : Gap) (digits : Digits)
    (space : Gap) :
    signed (nowText (now.map (Text.single ·.chars)) ++ ([sign back] ++
      (Text.single gap.chars ++ (digits.chars ++ (Text.single space.chars ++ unit))))) =
      some (⟨back, digits.chars, unit⟩, []) := by
  have accepted : (sign back == '+' || sign back == '-') = true := by cases back <;> rfl
  have marked : (sign back == '-') = back := by cases back <;> rfl
  rw [signed, bind_of_some _ (leadingNow_reads now back _), List.singleton_append,
    bind_of_some _ (satisfy_cons accepted _),
    bind_of_some _ (spaces_single _ (stops_space_append digits.isWord _)),
    bind_of_some _ (run1_append digits.nonempty digits.decimal (names.endsAmount_self _).noDigit),
    bind_of_some _ (spaces_single _ (stops_space names.isWord)),
    bind_of_some _ names.read_self, marked]
  rfl

theorem neighbour_reads (back : Bool) (space : Break) :
    neighbour (direction back ++ (Text.single space.chars ++ unit)) =
      some (⟨back, ['1'], unit⟩, []) := by
  have directed : ∀ rest, ((do exactly ['n', 'e', 'x', 't']; pure false)
      <|> (do exactly ['l', 'a', 's', 't']; pure true) : Reader Bool) (direction back ++ rest) =
        some (back, rest) := by
    intro rest
    cases back <;> rfl
  rw [neighbour, bind_of_some _ (directed _),
    bind_of_some _ (spaces1_single space (stops_space names.isWord)),
    bind_of_some _ names.read_self]
  rfl

/-- Whatever its gaps, a spelling is read as its step. The forms begin differently, so the readers
tried before its own let it pass. -/
theorem step?_squeeze (spelling : Spelling) :
    step? (Text.squeeze (spelling.text unit)) = some (spelling.step unit) := by
  cases spelling with
  | ago number gap space =>
    rw [names.squeeze_ago, step?, readAll_of_some (names.ago_reads number gap space)]
    rfl
  | ahead space number gap =>
    have noAgo : ∀ rest, ago (['i', 'n'] ++ rest) = none := fun _ => rfl
    rw [names.squeeze_ahead, step?, readAll_of_none (noAgo _),
      readAll_of_some (names.ahead_reads space number gap)]
    rfl
  | signed now back gap digits space =>
    have noAgo : ∀ rest, ago (nowText (now.map (Text.single ·.chars)) ++
        ([sign back] ++ rest)) = none := by
      intro rest
      cases now <;> cases back <;> rfl
    have noAhead : ∀ rest, ahead (nowText (now.map (Text.single ·.chars)) ++
        ([sign back] ++ rest)) = none := by
      intro rest
      cases now <;> cases back <;> rfl
    rw [names.squeeze_signed, step?, readAll_of_none (noAgo _), readAll_of_none (noAhead _),
      readAll_of_some (names.signed_reads now back gap digits space)]
    rfl
  | neighbour back space =>
    have noAgo : ∀ rest, ago (direction back ++ rest) = none := by
      cases back <;> exact fun _ => rfl
    have noAhead : ∀ rest, ahead (direction back ++ rest) = none := by
      cases back <;> exact fun _ => rfl
    have noSign : ∀ rest, signed (direction back ++ rest) = none := by
      cases back <;> exact fun _ => rfl
    rw [names.squeeze_neighbour, step?, readAll_of_none (noAgo _), readAll_of_none (noAhead _),
      readAll_of_none (noSign _), readAll_of_some (names.neighbour_reads back space)]
    rfl

end Names

-- Besides the ASCII capitals the Kelvin sign has an ASCII lower case; no spelling has one.
theorem Gap.plain (gap : Gap) : '\u212A' ∉ gap.chars := not_mem_of_all gap.blank rfl

theorem Amount.plain (amount : Amount) : '\u212A' ∉ amount.chars := by
  cases amount with
  | numeral digits => exact not_mem_of_all digits.wellFormed rfl
  | article long => cases long <;> exact @not_mem_of_all isLetter _ rfl _ rfl

theorem Names.plain {unit : List Char} {seconds : Nat} (names : Names unit seconds)
    (spelling : Spelling) : '\u212A' ∉ spelling.text unit := by
  have own : '\u212A' ∉ unit := not_mem_of_all names.letters rfl
  cases spelling with
  | ago amount gap space => simp [Spelling.text, own, amount.plain, gap.plain, space.plain]
  | ahead space amount gap => simp [Spelling.text, own, amount.plain, gap.plain, space.plain]
  | signed now back gap digits space =>
    have leading : '\u212A' ∉ nowText (now.map (·.chars)) := by
      cases now with
      | none => exact List.not_mem_nil
      | some lead => simp [nowText, lead.plain]
    have marked : '\u212A' ≠ sign back := by cases back <;> decide
    have amount : '\u212A' ∉ digits.chars := (Amount.numeral digits).plain
    simp [Spelling.text, own, leading, marked, amount, gap.plain, space.plain]
  | neighbour back space =>
    have directed : '\u212A' ∉ direction back := by cases back <;> simp [direction]
    simp [Spelling.text, own, directed, space.plain]

/-- No keyword spells a step. -/
theorem resolve?_of_step {expression : String} {step : Step}
    (read : step? (normalized expression.toList) = some step) (now : Instant) :
    resolve? expression now = step.from? now := by
  have other : ∀ keyword, step? keyword = none → normalized expression.toList ≠ keyword := by
    rintro keyword unread rfl
    rw [unread] at read
    cases read
  simp only [resolve?, read]
  rw [if_neg (other ['n', 'o', 'w'] rfl), if_neg (other ['t', 'o', 'd', 'a', 'y'] rfl),
    if_neg (other ['y', 'e', 's', 't', 'e', 'r', 'd', 'a', 'y'] rfl),
    if_neg (other ['t', 'o', 'm', 'o', 'r', 'r', 'o', 'w'] rfl)]

theorem normalized_of_spelled {expression : List Char} (lead trail : Gap) {text : List Char}
    (plain : '\u212A' ∉ text)
    (spelled : expression.map Char.toLower = lead.chars ++ text ++ trail.chars) :
    normalized expression = Text.squeeze text := by
  have absent : '\u212A' ∉ lead.chars ++ text ++ trail.chars := by
    simp only [List.mem_append, not_or]
    exact ⟨⟨lead.plain, plain⟩, trail.plain⟩
  rw [normalized, Text.fold_squeeze, Text.fold_of_toLower spelled absent,
    Text.squeeze_surrounded lead.blank trail.blank]

/-- However an offset is spelled, it leads to the instant exactly so many seconds away, and it is
refused only where there is no such instant. -/
theorem resolve_spelled {unit : String} {seconds : Nat} (known : unitSeconds? unit = some seconds)
    (spelling : Spelling) (lead trail : Gap) {expression : String}
    (spelled : expression.toList.map Char.toLower =
      lead.chars ++ spelling.text unit.toList ++ trail.chars)
    {now : Instant} (steady : now.nanos < nanosPerSecond) :
    resolve expression now =
      if inRange : Instant.firstSecond ≤ now.seconds + spelling.offset seconds ∧
          now.seconds + spelling.offset seconds ≤ Instant.lastSecond then
        .ok ⟨now.seconds + spelling.offset seconds, now.nanos, inRange, Or.inl steady⟩
      else .error (.invalidTime expression) := by
  have names := names_of_known known
  have squeezed := normalized_of_spelled lead trail (names.plain spelling) spelled
  have read : step? (normalized expression.toList) = some (spelling.step unit.toList) := by
    rw [squeezed, names.step?_squeeze]
  rw [resolve, resolve?_of_step read, from?_step known spelling steady,
    Instant.ofUnix?_of_steady steady]
  by_cases inRange : Instant.firstSecond ≤ now.seconds + spelling.offset seconds ∧
      now.seconds + spelling.offset seconds ≤ Instant.lastSecond
  · rw [dif_pos inRange, dif_pos inRange]
  · rw [dif_neg inRange, dif_neg inRange]

/-- 2024-01-15T14:35:42Z. -/
def sampleNow : Instant := ⟨1705329342, 0, by decide, by decide⟩

/-- A week back in other letters, and more days than a machine word counts. -/
theorem resolve_spelled_sample :
    resolve "\tNow -  007 Days\n" sampleNow = .ok ⟨1704724542, 0, by decide, by decide⟩ ∧
    resolve "99999999999999999999 days ago" sampleNow =
      .error (.invalidTime "99999999999999999999 days ago") := by
  constructor
  · have resolved := @resolve_spelled "days" 86400 rfl
      (.signed (some ⟨[' '], rfl⟩) true ⟨[' ', ' '], rfl⟩
        ⟨['0', '0', '7'], List.cons_ne_nil _ _, rfl⟩ ⟨[' '], rfl⟩)
      ⟨['\t'], rfl⟩ ⟨['\n'], rfl⟩ "\tNow -  007 Days\n" rfl sampleNow (by decide)
    rwa [dif_pos (by decide)] at resolved
  · have resolved := @resolve_spelled "days" 86400 rfl
      (.ago (.numeral ⟨List.replicate 20 '9', List.cons_ne_nil _ _, rfl⟩) ⟨[' '], rfl⟩
        ⟨⟨[' '], rfl⟩, List.cons_ne_nil _ _⟩)
      ⟨[], rfl⟩ ⟨[], rfl⟩ "99999999999999999999 days ago" rfl sampleNow (by decide)
    rwa [dif_neg (by decide)] at resolved

end TimeExpression

end SelectorLang
