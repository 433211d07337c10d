import SelectorLang.Proofs.Embedding
import SelectorLang.Proofs.Remainders

set_option autoImplicit false

namespace SelectorLang

def openBraces : List Char → Nat
  | [] => 0
  | [c] => if c == '\x7b' then 1 else 0
  | c :: next :: rest =>
    if c == '\\' then openBraces rest
    else (if c == '\x7b' then 1 else 0) + openBraces (next :: rest)

theorem openBraces_plain {c : Char} (unescaped : c ≠ '\\') (rest : List Char) :
    openBraces (c :: rest) = (if c == '\x7b' then 1 else 0) + openBraces rest := by
  cases rest with
  | nil => rfl
  | cons next others => simp only [openBraces, beq_iff_eq, unescaped, ↓reduceIte]

def referenceOpening (field : FieldName) (negated : Bool) : List Char :=
  field.chars ++ Clause.mark negated ++ ['<', '\x7b']

theorem subqueryText_eq (field : FieldName) (negated : Bool) (body : List Char) :
    Clause.subqueryText field negated body =
      referenceOpening field negated ++ (body ++ ['\x7d'] ++ ['>']) := by
  simp only [Clause.subqueryText, referenceOpening, List.append_assoc, List.cons_append,
    List.nil_append]

namespace Region

/-- The region behind a brace that opens a body. -/
def entered : Region → Region
  | .plain => .reference 0
  | .quoted => .quoted
  | .reference inner => .reference (inner + 1)

/-- The region behind a closing brace, with so many braces open inside the body. -/
def closed : Nat → Region
  | 0 => .plain
  | outer + 1 => .reference outer

end Region

namespace Scanner

/-- From the opening on the scanner is in a reference body, up to the brace behind the body. -/
def Encloses (scanner : Scanner) (opening body : List Char) : Prop :=
  (∀ front back, body = front ++ back →
    ∃ inner, (scanner.after (opening ++ front)).region = .reference inner) ∧
  (scanner.after (opening ++ (body ++ ['\x7d']))).region = .plain

/-- The text leads from one state of the scanner to another past no structural parenthesis. -/
structure Carries (before : Scanner) (text : List Char) (behind : Scanner) : Prop where
  hides : Hides before text behind
  after : before.after text = behind

namespace Carries

variable {before middle behind : Scanner}

theorem nil (scanner : Scanner) : Carries scanner [] scanner := ⟨.nil scanner, rfl⟩

theorem append {front back : List Char} (first : Carries before front middle)
    (second : Carries middle back behind) : Carries before (front ++ back) behind := by
  refine ⟨first.hides.append second.hides, ?_⟩
  rw [after_append, first.after, second.after]

theorem cons {c : Char} {rest : List Char}
    (hidden : before.exposes = false ∨ (c ≠ '(' ∧ c ≠ ')')) (stepped : before.step c = middle)
    (others : Carries middle rest behind) : Carries before (c :: rest) behind := by
  refine ⟨.cons hidden stepped others.hides, ?_⟩
  rw [after_cons, stepped, others.after]

/-- There is no structural parenthesis in the text. -/
theorem silent {text : List Char} (carries : Carries before text behind) (offset : Nat) :
    Paren.scanFrom before offset text = [] := by
  have found := carries.hides offset []
  rw [List.append_nil] at found
  exact found

end Carries

/-- A character that leaves every region as it is. -/
def isMute (c : Char) : Bool := isOrdinary c && c != '\x7d'

theorem step_mute {c : Char} (mute : isMute c = true) (scanner : Scanner) :
    scanner.step c = ⟨scanner.region, false, false⟩ := by
  obtain ⟨region, escaped, angle⟩ := scanner
  simp only [isMute, isOrdinary, Bool.and_eq_true, bne_iff_ne] at mute
  obtain ⟨⟨⟨⟨⟨⟨backslash, quote⟩, _⟩, _⟩, less⟩, opening⟩, closing⟩ := mute
  have same : regionAfter ⟨region, false, angle⟩ c = region := by
    cases region <;> simp only [regionAfter, beq_iff_eq, quote, closing, ↓reduceIte,
      beq_eq_false_iff_ne.mpr opening, Bool.false_and, Bool.false_eq_true]
  cases escaped with
  | true => simp only [step, ↓reduceIte, beq_eq_false_iff_ne.mpr less]
  | false => simp only [step, Bool.false_eq_true, ↓reduceIte, beq_iff_eq, backslash, same,
      beq_eq_false_iff_ne.mpr less]

theorem ne_paren_of_isMute {c : Char} (mute : isMute c = true) : c ≠ '(' ∧ c ≠ ')' := by
  rw [isMute, Bool.and_eq_true] at mute
  exact ne_paren_of_isOrdinary mute.1

theorem carries_mute {text : List Char} (nonempty : text ≠ [])
    (mute : ∀ c ∈ text, isMute c = true) (scanner : Scanner) :
    Carries scanner text ⟨scanner.region, false, false⟩ := by
  induction text generalizing scanner with
  | nil => exact absurd rfl nonempty
  | cons c rest ih =>
    have first := mute c List.mem_cons_self
    have stepped := step_mute first scanner
    refine .cons (Or.inr (ne_paren_of_isMute first)) stepped ?_
    cases rest with
    | nil => exact .nil _
    | cons d others =>
      exact ih (List.cons_ne_nil d others) (fun e member => mute e (List.mem_cons_of_mem c member))
        ⟨scanner.region, false, false⟩

theorem carries_opening (field : FieldName) (negated : Bool) (scanner : Scanner) :
    Carries scanner (referenceOpening field negated) ⟨scanner.region.entered, false, false⟩ := by
  have mute : ∀ c ∈ field.chars ++ Clause.mark negated, isMute c = true := by
    intro c member
    rcases List.mem_append.mp member with name | mark
    · have letter := Phrase.isFieldChar_of_mem field name
      have closing : c ≠ '\x7d' := Reader.ne_of_accepted letter rfl
      rw [isMute, isOrdinary_of_isFieldChar letter, bne_iff_ne.mpr closing, Bool.and_self]
    · rw [Clause.eq_of_mem_mark mark]
      rfl
  have nonempty := List.append_ne_nil_of_left_ne_nil field.nonempty (Clause.mark negated)
  have angle : ∀ region,
      Carries ⟨region, false, false⟩ ['<', '\x7b'] ⟨region.entered, false, false⟩ := by
    intro region
    refine .cons (Or.inr (by decide)) rfl (.cons (Or.inr (by decide)) ?_ (.nil _))
    cases region <;> rfl
  exact (carries_mute nonempty mute scanner).append (angle scanner.region)

theorem step_plain {c : Char} (unescaped : c ≠ '\\') (inside : (c == '\x7d') = false)
    (inner : Nat) (angle : Bool) :
    step ⟨.reference inner, false, angle⟩ c =
      ⟨.reference (inner + if c == '\x7b' then 1 else 0), false, c == '<'⟩ := by
  simp only [step, regionAfter, Bool.false_eq_true, ↓reduceIte, beq_iff_eq, unescaped,
    beq_eq_false_iff_ne.mp inside]
  split
  · rfl
  · rfl

theorem hidden_reference (inner : Nat) (escaped angle : Bool) (c : Char) :
    (⟨.reference inner, escaped, angle⟩ : Scanner).exposes = false ∨ (c ≠ '(' ∧ c ≠ ')') :=
  Or.inl (Bool.and_false _)

/-- In a body the scanner counts the opening braces. -/
theorem carries_body {body : List Char} (units : Body (· == '\x7d') body) (inner : Nat)
    (angle : Bool) :
    ∃ last, Carries ⟨.reference inner, false, angle⟩ body
      ⟨.reference (inner + openBraces body), false, last⟩ := by
  induction units generalizing inner angle with
  | nil => exact ⟨angle, .nil _⟩
  | pair c rest _ _ ih =>
    obtain ⟨last, others⟩ := ih inner (c == '<')
    exact ⟨last, .cons (hidden_reference ..) rfl (.cons (hidden_reference ..) rfl others)⟩
  | plain c rest unescaped inside _ ih =>
    obtain ⟨last, others⟩ := ih (inner + if c == '\x7b' then 1 else 0) (c == '<')
    rw [Nat.add_assoc, ← openBraces_plain unescaped] at others
    exact ⟨last, .cons (hidden_reference ..) (step_plain unescaped inside inner angle) others⟩

/-- A body does not end before its closing brace. -/
theorem region_of_prefix {body front back : List Char} (units : Body (· == '\x7d') body)
    (parts : body = front ++ back) (inner : Nat) (angle : Bool) :
    ∃ deeper, (after ⟨.reference inner, false, angle⟩ front).region = .reference deeper := by
  induction units generalizing front inner angle with
  | nil =>
    obtain ⟨rfl, _⟩ := List.append_eq_nil_iff.mp parts.symm
    exact ⟨inner, rfl⟩
  | pair c rest _ _ ih =>
    cases front with
    | nil => exact ⟨inner, rfl⟩
    | cons d others =>
      obtain ⟨rfl, behind⟩ := List.cons.inj parts
      cases others with
      | nil => exact ⟨inner, rfl⟩
      | cons e others =>
        obtain ⟨rfl, later⟩ := List.cons.inj behind
        exact ih later inner (c == '<')
  | plain c rest unescaped inside _ ih =>
    cases front with
    | nil => exact ⟨inner, rfl⟩
    | cons d others =>
      obtain ⟨rfl, later⟩ := List.cons.inj parts
      rw [after_cons, step_plain unescaped inside]
      exact ih later _ _

theorem step_closing (inner : Nat) (angle : Bool) :
    step ⟨.reference inner, false, angle⟩ '\x7d' = ⟨.closed inner, false, false⟩ := by
  cases inner <;> rfl

section

variable (field : FieldName) (negated : Bool) {body : List Char} (units : Body (· == '\x7d') body)

include units

/-- A body is carried to its closing brace. -/
theorem carries_closing {scanner : Scanner} {inner : Nat}
    (entered : scanner.region.entered = .reference inner) :
    Carries scanner (referenceOpening field negated ++ (body ++ ['\x7d']))
      ⟨.closed (inner + openBraces body), false, false⟩ := by
  have opening := carries_opening field negated scanner
  rw [entered] at opening
  obtain ⟨last, inside⟩ := carries_body units inner false
  have closing := Carries.cons (hidden_reference (inner + openBraces body) false last '\x7d')
    (step_closing _ last) (.nil _)
  exact opening.append (inside.append closing)

theorem carries_subqueryText {scanner : Scanner} (plain : scanner.region = .plain) :
    Carries scanner (Clause.subqueryText field negated body)
      ⟨.closed (openBraces body), false, false⟩ := by
  have entered : scanner.region.entered = .reference 0 := by
    rw [plain]
    rfl
  have closing := carries_closing field negated units entered
  rw [Nat.zero_add] at closing
  have bracket := Carries.cons (Or.inr (by decide))
    (step_mute (c := '>') rfl ⟨.closed (openBraces body), false, false⟩) (.nil _)
  rw [subqueryText_eq, ← List.append_assoc]
  exact closing.append bracket

/-- The scanner and the readers agree on the end of a body just where it begins outside quotes and
other bodies and opens no brace. -/
theorem encloses_iff (scanner : Scanner) :
    scanner.Encloses (referenceOpening field negated) body ↔
      scanner.region = .plain ∧ openBraces body = 0 := by
  have opening := (carries_opening field negated scanner).after
  constructor
  · rintro ⟨inside, ended⟩
    obtain ⟨inner, begins⟩ := inside [] body rfl
    rw [List.append_nil, opening] at begins
    rw [(carries_closing field negated units begins).after] at ended
    cases region : scanner.region with
    | quoted =>
      rw [region] at begins
      cases begins
    | reference outer =>
      rw [region] at begins
      obtain rfl : outer + 1 = inner := Region.reference.inj begins
      rw [Nat.add_right_comm] at ended
      cases ended
    | plain =>
      rw [region] at begins
      obtain rfl : 0 = inner := Region.reference.inj begins
      refine ⟨rfl, ?_⟩
      rw [Nat.zero_add] at ended
      cases count : openBraces body with
      | zero => rfl
      | succ outer =>
        rw [count] at ended
        cases ended
  · rintro ⟨plain, none⟩
    have entered : scanner.region.entered = .reference 0 := by
      rw [plain]
      rfl
    constructor
    · intro front back parts
      rw [after_append, opening, entered]
      exact region_of_prefix units parts 0 false
    · rw [(carries_closing field negated units entered).after, none]
      rfl

end

end Scanner

structure ReferenceRegion (before : List Char) (field : FieldName) (negated : Bool)
    (body : List Char) : Prop where
  /-- The body is a region of its own just where it opens no brace and begins outside the others. -/
  encloses : (({} : Scanner).after before).Encloses (referenceOpening field negated) body ↔
    (({} : Scanner).after before).region = .plain ∧ openBraces body = 0
  /-- The region is open behind the reference where the body opens braces. -/
  parens : (({} : Scanner).after before).region = .plain → ∀ behind,
    Paren.scan (before ++ Clause.subqueryText field negated body ++ behind) =
      Paren.scan before ++
        Paren.scanFrom ⟨.closed (openBraces body), false, false⟩
          (before ++ Clause.subqueryText field negated body).length behind
  /-- Else the groups behind the reference are found. -/
  groups : (({} : Scanner).after before).region = .plain → openBraces body = 0 →
    (Paren.matching before).unclosed = [] → ∀ behind,
      split (before ++ Clause.subqueryText field negated body ++ behind) =
        ⟨(split before).groups ++ (split behind).groups.map
            (Group.move (before ++ Clause.subqueryText field negated body).length),
          (split before).remainder ++ Clause.subqueryText field negated body ++
            (split behind).remainder⟩

theorem referenceRegion (before : List Char) (field : FieldName) (negated : Bool)
    {body : List Char} (units : Body (· == '\x7d') body) :
    ReferenceRegion before field negated body := by
  have parens : (({} : Scanner).after before).region = .plain → ∀ behind,
      Paren.scan (before ++ Clause.subqueryText field negated body ++ behind) =
        Paren.scan before ++
          Paren.scanFrom ⟨.closed (openBraces body), false, false⟩
            (before ++ Clause.subqueryText field negated body).length behind := by
    intro plain behind
    have carried := Scanner.carries_subqueryText field negated units plain
    rw [Paren.scan, Paren.scanFrom_append, Paren.scanFrom_append, carried.silent, List.append_nil,
      Scanner.after_append, carried.after, Nat.zero_add]
    rfl
  refine ⟨Scanner.encloses_iff field negated units _, parens, ?_⟩
  intro plain none closed behind
  have carried := Scanner.carries_subqueryText field negated units plain
  have fresh : ({} : Scanner).after (before ++ Clause.subqueryText field negated body) = {} := by
    rw [Scanner.after_append, carried.after, none]
    rfl
  have same : Paren.scan (before ++ Clause.subqueryText field negated body) =
      Paren.scan before := by
    have found := parens plain []
    rw [List.append_nil] at found
    rw [found]
    exact List.append_nil _
  have whole :
      (Paren.matching (before ++ Clause.subqueryText field negated body)).unclosed = [] := by
    rw [Paren.matching, same]
    exact closed
  rw [split_append fresh whole, split_append_silent (carried.silent _)]

theorem split_spaced_group {content : List Char} (inside : Paren.Enclosed {} 0 content) :
    split (' ' :: '(' :: (content ++ [')'])) =
      ⟨[Group.ofSpan (' ' :: '(' :: (content ++ [')'])) ⟨1, content.length + 3⟩], [' ', ' ']⟩ := by
  have blank : ∀ c ∈ [' '], Scanner.isOrdinary c = true := List.forall_mem_singleton.mpr rfl
  have moved := split_ordinary_append blank ('(' :: (content ++ [')']))
  have place : 1 + content.length + 2 = content.length + 3 := by omega
  have group := Group.ofSpan_content [' '] content []
  rw [List.length_singleton, place, List.singleton_append] at group
  rw [split_enclosed inside] at moved
  rw [group]
  exact moved

def Compiler.referringSelector (compiler : Compiler) (field : FieldName) (target : EntityClass)
    (text : List Char) (children : List Selector) : Selector :=
  { kind := .allOf
    subqueries := ⟨[(String.ofList field.chars,
      compiler.queryAt Selector.simplify (compiler.maxDepth - 1) target
        (Text.trim (LiteralKind.curly.unescape text)))], []⟩
    nested := ⟨children, []⟩ }

section

variable (field : FieldName) (name : ClassName) (body content : List Char)

def namedReference : List Char := Clause.subqueryText field false (name.chars ++ ' ' :: body)

def groupedText : List Char :=
  namedReference field name body ++ ' ' :: '(' :: (content ++ [')'])

def groupedSpan : Span :=
  ⟨(namedReference field name body).length + 1, (groupedText field name body content).length⟩

variable {field name body content} (units : Body (· == '\x7d') (name.chars ++ ' ' :: body))

include units

theorem split_groupedText (inside : Paren.Enclosed {} 0 content)
    (none : openBraces (name.chars ++ ' ' :: body) = 0) :
    split (groupedText field name body content) =
      ⟨[Group.ofSpan (groupedText field name body content) (groupedSpan field name body content)],
        namedReference field name body ++ [' ', ' ']⟩ := by
  have region := referenceRegion [] field false units
  have divided := region.groups rfl none rfl (' ' :: '(' :: (content ++ [')']))
  have place : groupedSpan field name body content =
      Span.move (namedReference field name body).length ⟨1, content.length + 3⟩ := by
    have size : (groupedText field name body content).length =
        content.length + 3 + (namedReference field name body).length := by
      rw [groupedText, List.length_append, List.length_cons, List.length_cons, List.length_append,
        List.length_singleton]
      omega
    rw [groupedSpan, size, Nat.add_comm _ 1]
    rfl
  rw [split_spaced_group inside] at divided
  have proper : 1 < content.length + 3 := by omega
  rw [place, groupedText, Group.ofSpan_back _ _ proper]
  exact divided

/-- The group is found just where the body opens no brace. -/
theorem mem_split_groupedText (inside : Paren.Enclosed {} 0 content) :
    (∃ group ∈ (split (groupedText field name body content)).groups,
        group.span = groupedSpan field name body content) ↔
      openBraces (name.chars ++ ' ' :: body) = 0 := by
  constructor
  · rintro ⟨group, member, place⟩
    cases count : openBraces (name.chars ++ ' ' :: body) with
    | zero => rfl
    | succ outer =>
      have region := referenceRegion [] field false units
      have parens := region.parens rfl (' ' :: '(' :: (content ++ [')']))
      rw [count, Region.closed, Paren.scanFrom_hidden (Scanner.hidden_reference ..),
        Paren.scanFrom_hidden (Or.inl rfl)] at parens
      obtain ⟨span, found, rfl⟩ := List.mem_map.mp member
      rcases Paren.start_of_mem_outermostFrom found with ⟨_, held, _⟩ | ⟨paren, listed, start⟩
      · cases held
      · have found : Paren.scan (groupedText field name body content) =
            Paren.scanFrom _ _ (content ++ [')']) := parens
        rw [found] at listed
        have behind := (Paren.offset_of_mem_scanFrom listed).1
        have first : paren.offset = (namedReference field name body).length + 1 :=
          start.trans (congrArg Span.start place)
        rw [first] at behind
        have same : ([] ++ Clause.subqueryText field false (name.chars ++ ' ' :: body)).length =
            (namedReference field name body).length := rfl
        omega
  · intro none
    rw [split_groupedText units inside none]
    exact ⟨_, List.mem_singleton_self _, rfl⟩

variable (field)

/-- Taking the directives out of a reference leaves a reference with another text in its body. -/
theorem extract_namedReference {tail : List Char} (blank : tail.all isBlank = true)
    (options : Options) :
    ∃ left, Body (· == '\x7d') (name.chars ++ ' ' :: left) ∧
      (Directive.extract (namedReference field name body ++ tail) options).1 =
        namedReference field name left ++ tail := by
  have shape : ∀ text, namedReference field name text ++ tail =
      field.chars ++ '<' :: '\x7b' :: name.chars ++ ' ' :: (text ++ '\x7d' :: '>' :: tail) := by
    intro text
    simp only [namedReference, Clause.subqueryText, Clause.mark_false, List.append_nil,
      List.append_assoc, List.cons_append, List.nil_append]
  have word : ∀ c ∈ field.chars ++ '<' :: '\x7b' :: name.chars, isBlank c = false := by
    intro c member
    rcases List.mem_append.mp member with letter | later
    · exact isBlank_of_isFieldChar (Phrase.isFieldChar_of_mem field letter)
    · rcases List.mem_cons.mp later with rfl | last
      · rfl
      · rcases List.mem_cons.mp last with rfl | letter
        · rfl
        · exact name.dark c letter
  obtain ⟨kept, exchanged⟩ := (Body.units_iff.mp units).exchange (by decide)
  have space : ' ' ≠ '\\' ∧ (' ' == '\x7d') = false := by decide
  obtain ⟨left, fits, extracted⟩ :=
    Directive.extract_body field rfl word kept space blank options
  refine ⟨left, Body.units_iff.mpr (exchanged left fits), ?_⟩
  rw [shape, shape]
  exact extracted

omit units in
theorem simplify_referringSelector (compiler : Compiler) (target : EntityClass) (text : List Char)
    (children : List Selector) :
    (compiler.referringSelector field target text children).simplify =
      compiler.referringSelector field target text children := by
  apply Selector.simplify_of_not_wraps
  intro child wraps
  obtain ⟨only, _, count⟩ := wraps
  obtain rfl : children = [child] := only
  simp [Compiler.referringSelector, Selector.clauseCount, Signed.size] at count

theorem fill_namedReference {compiler : Compiler} (deep : 0 < compiler.maxDepth)
    (cls : EntityClass) {target : EntityClass}
    (registered :
      compiler.class? (String.ofList (LiteralKind.curly.unescape name.chars)) = some target)
    {tail : List Char} (blank : tail.all isBlank = true) (groups : List Group) :
    compiler.fill (compiler.innerAt Selector.simplify compiler.maxDepth cls) .allOf groups
        (namedReference field name body ++ tail) =
      (' ' :: tail,
        compiler.referringSelector field target body
          (groups.filterMap (compiler.innerAt Selector.simplify compiler.maxDepth cls).group)) := by
  have claims := claims_subqueryText field
    (compiler.embed (compiler.innerAt Selector.simplify compiler.maxDepth cls)) false name.nonempty
    name.dark units
  rw [compiler.embed_innerAt deep, registered] at claims
  have nonempty : namedReference field name body ≠ [] :=
    List.append_ne_nil_of_left_ne_nil
      (List.append_ne_nil_of_left_ne_nil field.nonempty (Clause.mark false)) _
  exact Compiler.fill_alone claims nonempty blank .allOf groups

/-- Where the body opens no brace, the text is compiled to the reference and the group. -/
theorem compile_groupedText {compiler : Compiler} (deep : 0 < compiler.maxDepth)
    (cls : EntityClass) {target : EntityClass}
    (registered :
      compiler.class? (String.ofList (LiteralKind.curly.unescape name.chars)) = some target)
    (inside : Paren.Enclosed {} 0 content) (none : openBraces (name.chars ++ ' ' :: body) = 0) :
    ∃ left,
      (Directive.extract (namedReference field name body ++ [' ', ' '])
          { className := cls.name }).1 = namedReference field name left ++ [' ', ' '] ∧
        compiler.compile (String.ofList (groupedText field name body content)) cls =
          ⟨(Directive.extract (namedReference field name body ++ [' ', ' '])
              { className := cls.name }).2,
            [compiler.referringSelector field target left
              ((compiler.innerAt Selector.simplify compiler.maxDepth cls).group
                (Group.ofSpan (groupedText field name body content)
                  (groupedSpan field name body content))).toList]⟩ := by
  obtain ⟨left, kept, remaining⟩ := extract_namedReference field units
    (Eq.refl (List.all [' ', ' '] isBlank)) { className := cls.name }
  have filled := fill_namedReference field kept deep cls registered
    (Eq.refl (List.all [' ', ' '] isBlank))
    [Group.ofSpan (groupedText field name body content) (groupedSpan field name body content)]
  have silent : compiler.bareSelector cls [' ', ' ', ' '] = .none :=
    Compiler.bareSelector_of_words compiler cls rfl
  have single : ∀ (inner : Compiler.Inner) (group : Group),
      [group].filterMap inner.group = (inner.group group).toList := by
    intro inner group
    rw [List.filterMap_cons]
    cases inner.group group with
    | none => rfl
    | some selector => rfl
  rw [single] at filled
  refine ⟨left, remaining, ?_⟩
  simp only [Compiler.compile, Compiler.queryAt, Compiler.queryWith, String.toList_ofList,
    split_groupedText units inside none, remaining, filled, silent, simplify_referringSelector,
    Option.isSome_none, Bool.and_false, Bool.false_eq_true, ↓reduceIte, Option.toList_none,
    List.append_nil]

end

namespace Clause

open Reader

theorem takes_subquery_body (embed : List Char → List Char → Option Query) :
    Takes (subquery embed) (fun lexeme _ => ∃ field negated body,
      lexeme = subqueryText field negated body ∧ body ≠ [] ∧ Body (· == '\x7d') body) := by
  refine (takes_subquery embed).mono ?_
  rintro _ _ ⟨field, negated, body, same, nonempty, units, _, _⟩
  exact ⟨field, negated, body, same, nonempty, units⟩

theorem takes_reference_body : Takes reference (fun lexeme _ => ∃ field negated body,
    lexeme = subqueryText field negated body ∧ body ≠ [] ∧ Body (· == '\x7d') body) := by
  refine takes_referenceText.mono ?_
  rintro _ _ ⟨field, negated, digits, rfl, known, _⟩
  have hex : ∀ c ∈ digits, isHexDigit c = true :=
    List.all_eq_true.mp (Bool.and_eq_true_iff.mp known).2
  refine ⟨field, negated, digits, rfl, ?_, .of_all (fun c member => ?_)⟩
  · rintro rfl
    cases known
  · have digit := hex c member
    exact ⟨ne_of_accepted digit rfl, beq_eq_false_iff_ne.mpr (ne_of_accepted digit rfl)⟩

end Clause

theorem Stage.takes_reference_body (embed : List Char → List Char → Option Query) :
    ∀ pass ∈ placed (all embed), pass.stage = "qref" ∨ pass.stage = "ref" →
      pass.reader.Takes (fun lexeme _ => ∃ field negated body,
        lexeme = Clause.subqueryText field negated body ∧ body ≠ [] ∧ Body (· == '\x7d') body) := by
  refine forall_placed (fun _ => Clause.takes_subquery_body embed) ?_
    (fun _ => Clause.takes_reference_body) ?_ ?_ ?_ ?_ ?_ ?_ ?_ ?_
  · exact fun named => absurd named (by decide)
  · exact fun named => absurd named (by decide)
  · exact fun named => absurd named (by decide)
  · exact fun named => absurd named (by decide)
  · exact fun named => absurd named (by decide)
  · exact fun named => absurd named (by decide)
  · exact fun named => absurd named (by decide)
  · exact fun relation named => absurd named (by cases relation <;> decide)
  · exact fun relation named => absurd named (by cases relation <;> decide)

/-- What is read as a reference is a region of its own for the scanner just where its body opens no
brace and begins outside quotes and other regions; the groups behind it are then found, and so the
reference and a group behind it are both compiled. Where the body opens braces, the group is not
found. Directives in the body are taken out of it. -/
theorem reference_regions (compiler : Compiler) (deep : 0 < compiler.maxDepth) :
    (∀ depth cls source,
      ∀ claim ∈ Pass.claimsAll (Stage.placed (compiler.stagesAt depth cls)) source,
        claim.stage = "qref" ∨ claim.stage = "ref" →
          ∃ field negated body, claim.lexeme = Clause.subqueryText field negated body ∧
            ∀ before, ReferenceRegion before field negated body) ∧
    (∀ (field : FieldName) (name : ClassName) (body content : List Char)
      (cls target : EntityClass), Body (· == '\x7d') (name.chars ++ ' ' :: body) →
      compiler.class? (String.ofList (LiteralKind.curly.unescape name.chars)) = some target →
      Paren.Enclosed {} 0 content →
        ((∃ group ∈ (split (groupedText field name body content)).groups,
            group.span = groupedSpan field name body content) ↔
          openBraces (name.chars ++ ' ' :: body) = 0) ∧
        (openBraces (name.chars ++ ' ' :: body) = 0 →
          ∃ left,
            (Directive.extract (namedReference field name body ++ [' ', ' '])
                { className := cls.name }).1 = namedReference field name left ++ [' ', ' '] ∧
              compiler.compile (String.ofList (groupedText field name body content)) cls =
                ⟨(Directive.extract (namedReference field name body ++ [' ', ' '])
                    { className := cls.name }).2,
                  [compiler.referringSelector field target left
                    ((compiler.innerAt Selector.simplify compiler.maxDepth cls).group
                      (Group.ofSpan (groupedText field name body content)
                        (groupedSpan field name body content))).toList]⟩)) := by
  constructor
  · intro depth cls source claim member named
    obtain ⟨pass, listed, stage, _, source, token⟩ := Pass.mem_claimsAll member
    have takes := Stage.takes_reference_body _ pass listed (stage ▸ named)
    obtain ⟨field, negated, body, same, _, units⟩ := (Token.token_scan takes token).1
    exact ⟨field, negated, body, same, fun before => referenceRegion before field negated units⟩
  · intro field name body content cls target units registered inside
    exact ⟨mem_split_groupedText units inside,
      compile_groupedText field units deep cls registered inside⟩

def bracedField : FieldName :=
  ⟨['o', 'w', 'n', 'e', 'r'], List.cons_ne_nil 'o' ['w', 'n', 'e', 'r'], rfl⟩

def bracedName : ClassName := ⟨['C'], List.cons_ne_nil 'C' [], rfl⟩

/-- A brace that the body opens hides the group behind the reference in `owner<{C a={b}> (x=1)`;
without the brace the group is found. -/
theorem reference_regions_brace :
    0 < ({ classes := [⟨"C", []⟩] } : Compiler).maxDepth ∧
      (∃ field negated body,
        namedReference bracedField bracedName "a=\x7bb".toList =
            Clause.subqueryText field negated body ∧
          ∀ before, ReferenceRegion before field negated body) ∧
      (¬∃ group ∈ (split (groupedText bracedField bracedName "a=\x7bb".toList "x=1".toList)).groups,
          group.span = groupedSpan bracedField bracedName "a=\x7bb".toList "x=1".toList) ∧
      ∃ group ∈ (split (groupedText bracedField bracedName "a=b".toList "x=1".toList)).groups,
        group.span = groupedSpan bracedField bracedName "a=b".toList "x=1".toList := by
  have deep : 0 < ({ classes := [⟨"C", []⟩] } : Compiler).maxDepth := by decide
  obtain ⟨tokens, texts⟩ := reference_regions { classes := [⟨"C", []⟩] } deep
  have listed : ∃ clause others,
      Pass.claimsAll
        (Stage.placed (({ classes := [⟨"C", []⟩] } : Compiler).stagesAt 0 ⟨"User", []⟩))
          (namedReference bracedField bracedName "a=\x7bb".toList) =
        ⟨"qref", 0, namedReference bracedField bracedName "a=\x7bb".toList, clause⟩ :: others :=
    ⟨_, _, rfl⟩
  obtain ⟨clause, others, listed⟩ := listed
  have inside : Paren.Enclosed {} 0 "x=1".toList :=
    .other (Or.inr (by decide))
      (.other (Or.inr (by decide)) (.other (Or.inr (by decide)) (.done rfl)))
  have braced : Body (· == '\x7d') (bracedName.chars ++ ' ' :: "a=\x7bb".toList) :=
    .plain _ _ (by decide) rfl (.plain _ _ (by decide) rfl (.plain _ _ (by decide) rfl
      (.plain _ _ (by decide) rfl (.plain _ _ (by decide) rfl (.plain _ _ (by decide) rfl .nil)))))
  have plain : Body (· == '\x7d') (bracedName.chars ++ ' ' :: "a=b".toList) :=
    .plain _ _ (by decide) rfl (.plain _ _ (by decide) rfl (.plain _ _ (by decide) rfl
      (.plain _ _ (by decide) rfl (.plain _ _ (by decide) rfl .nil))))
  have hidden := (texts bracedField bracedName _ _ ⟨"User", []⟩ ⟨"C", []⟩ braced rfl inside).1
  have found := (texts bracedField bracedName _ _ ⟨"User", []⟩ ⟨"C", []⟩ plain rfl inside).1
  refine ⟨deep, ?_, ?_, ?_⟩
  · exact tokens 0 ⟨"User", []⟩ _ _ (listed ▸ List.mem_cons_self) (Or.inl rfl)
  · intro group
    have none := hidden.mp group
    revert none
    decide
  · exact found.mpr rfl

end SelectorLang
