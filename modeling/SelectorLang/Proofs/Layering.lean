import Mathlib.Data.List.DropRight
import SelectorLang.Config.Basic
import SelectorLang.Proofs.Layout
import SelectorLang.Proofs.Shrinking

set_option autoImplicit false

namespace SelectorLang

namespace Text

theorem cut_of_not_mem {separates : Char → Bool} {part : List Char}
    (whole : ∀ c ∈ part, separates c = false) : cut separates part = [part] := by
  induction part with
  | nil => rfl
  | cons c rest ih =>
    have own := whole c List.mem_cons_self
    have others := ih (fun d member => whole d (List.mem_cons_of_mem c member))
    simp [cut, own, others]

theorem cut_intercalate {separator : Char} {parts : List (List Char)} (some : parts ≠ [])
    (whole : ∀ part ∈ parts, separator ∉ part) :
    cut (· == separator) (List.intercalate [separator] parts) = parts := by
  have alone : ∀ part ∈ parts, cut (· == separator) part = [part] := by
    intro part member
    apply cut_of_not_mem
    intro c inside
    rw [beq_eq_false_iff_ne]
    rintro rfl
    exact whole part member inside
  induction parts with
  | nil => exact absurd rfl some
  | cons part others ih =>
    cases others with
    | nil =>
      rw [List.intercalate_singleton]
      exact alone part List.mem_cons_self
    | cons next others =>
      have behind := ih (List.cons_ne_nil _ _)
        (fun other member => whole other (List.mem_cons_of_mem part member))
        (fun other member => alone other (List.mem_cons_of_mem part member))
      rw [List.intercalate_cons_cons, List.append_assoc, List.singleton_append,
        cut_append_separator (· == separator) _ _ _ (beq_self_eq_true separator), behind,
        alone part List.mem_cons_self]
      rfl

theorem not_mem_of_mem_cut {separates : Char → Bool} {text part : List Char}
    (member : part ∈ cut separates text) : ∀ c ∈ part, separates c = false := by
  induction text generalizing part with
  | nil =>
    rw [cut, List.mem_singleton] at member
    rw [member]
    exact List.forall_mem_nil _
  | cons c rest ih =>
    rw [cut] at member
    split at member
    · rcases List.mem_cons.mp member with rfl | later
      · exact List.forall_mem_nil _
      · exact ih later
    · rename_i own
      cases parts : cut separates rest with
      | nil => exact absurd parts (cut_ne_nil separates rest)
      | cons first others =>
        rw [parts, List.modifyHead_cons] at member
        rw [parts] at ih
        rcases List.mem_cons.mp member with rfl | later
        · exact List.forall_mem_cons.mpr
            ⟨Bool.not_eq_true _ ▸ own, ih List.mem_cons_self⟩
        · exact ih (List.mem_cons_of_mem first later)

structure IsTrimmed (text : List Char) : Prop where
  begins : ∀ c ∈ text.head?, isBlank c = false
  ends : ∀ c ∈ text.getLast?, isBlank c = false

theorem trimEnd_eq (text : List Char) : trimEnd text = text.rdropWhile isBlank := rfl

theorem isTrimmed_trim (text : List Char) : IsTrimmed (trim text) := by
  constructor
  · intro c first
    -- What is cut at the end leaves the beginning as it is.
    obtain ⟨cut, parts⟩ := List.rdropWhile_prefix isBlank (trimStart text)
    have start : (trimStart text).head? = some c := by
      rw [← parts, List.head?_append, ← trimEnd_eq, ← trim, first, Option.some_or]
    have stopped := List.head?_dropWhile_not isBlank text
    rw [← trimStart, start] at stopped
    simpa using stopped
  · intro c last
    have nonempty : trim text ≠ [] := by
      rintro empty
      rw [empty] at last
      cases last
    rw [List.getLast?_eq_some_getLast nonempty, Option.mem_some_iff] at last
    rw [← last, ← Bool.not_eq_true]
    exact List.rdropWhile_last_not isBlank (trimStart text) nonempty

theorem trimEnd_append_blanks {trail : List Char} (blank : trail.all isBlank = true)
    (text : List Char) : trimEnd (text ++ trail) = trimEnd text := by
  have dropped : trail.reverse.dropWhile isBlank = [] := by
    rw [List.dropWhile_eq_nil_iff]
    intro c member
    exact List.all_eq_true.mp blank c (List.mem_reverse.mp member)
  rw [trimEnd, trimEnd, List.reverse_append, List.dropWhile_append, dropped]
  rfl

namespace IsTrimmed

variable {text : List Char} (trimmed : IsTrimmed text)

include trimmed

theorem trimEnd_eq_self : trimEnd text = text := by
  rw [trimEnd_eq, List.rdropWhile_eq_self_iff]
  intro nonempty
  have last := trimmed.ends _ (List.getLast?_eq_some_getLast nonempty)
  rw [last]
  exact Bool.false_ne_true

theorem trim_surrounded {lead trail : List Char} (before : lead.all isBlank = true)
    (behind : trail.all isBlank = true) : trim (lead ++ (text ++ trail)) = text := by
  rw [trim, trimStart_append before]
  cases text with
  | nil =>
    have all : trail.dropWhile isBlank = [] := by
      rw [List.dropWhile_eq_nil_iff]
      exact List.all_eq_true.mp behind
    rw [List.nil_append, trimStart, all]
    rfl
  | cons c rest =>
    have first := trimmed.begins c rfl
    have start : trimStart ((c :: rest) ++ trail) = (c :: rest) ++ trail := by
      rw [trimStart, List.cons_append, List.dropWhile_cons, first, if_neg Bool.false_ne_true]
    rw [start, trimEnd_append_blanks behind, trimmed.trimEnd_eq_self]

end IsTrimmed

end Text

namespace Config

structure IsListed (name : List Char) : Prop where
  nonempty : name ≠ []
  whole : ',' ∉ name
  trimmed : Text.IsTrimmed name

/-- What stands between two commas: a name with blanks around it, or only blanks. -/
structure Entry where
  lead : List Char
  name : Option {name : List Char // IsListed name}
  trail : List Char
  before : lead.all isBlank = true
  behind : trail.all isBlank = true

namespace Entry

def chars (entry : Entry) : List Char := (entry.name.map Subtype.val).getD []

def text (entry : Entry) : List Char := entry.lead ++ (entry.chars ++ entry.trail)

theorem chars_trimmed (entry : Entry) : Text.IsTrimmed entry.chars := by
  rw [chars]
  cases entry.name with
  | none => exact ⟨nofun, nofun⟩
  | some name => exact name.property.trimmed

theorem trim_text (entry : Entry) : Text.trim entry.text = entry.chars :=
  entry.chars_trimmed.trim_surrounded entry.before entry.behind

theorem whole_text (entry : Entry) : ',' ∉ entry.text := by
  have dark : ∀ {gap : List Char}, gap.all isBlank = true → ',' ∉ gap :=
    fun blank => Reader.not_mem_of_all blank rfl
  have name : ',' ∉ entry.chars := by
    rw [chars]
    cases entry.name with
    | none => exact List.not_mem_nil
    | some name => exact name.property.whole
  rw [text, List.mem_append, List.mem_append, not_or, not_or]
  exact ⟨dark entry.before, name, dark entry.behind⟩

end Entry

def listText (entries : List Entry) : List Char :=
  List.intercalate [','] (entries.map Entry.text)

def listedNames (entries : List Entry) : List String :=
  (entries.filterMap Entry.name).map (fun name => String.ofList name.val)

theorem filter_chars (entries : List Entry) :
    (entries.map Entry.chars).filter (fun name => !name.isEmpty) =
      (entries.filterMap Entry.name).map Subtype.val := by
  induction entries with
  | nil => rfl
  | cons entry others ih =>
    rw [List.map_cons, List.filter_cons, List.filterMap_cons, ih, Entry.chars]
    cases entry.name with
    | none => rfl
    | some name =>
      have nonempty := List.isEmpty_eq_false_iff.mpr name.property.nonempty
      simp only [Option.map_some, Option.getD_some, nonempty, Bool.not_false, ↓reduceIte,
        List.map_cons]

/-- The names of a list are found in its text, in order. -/
theorem namesIn_listText (entries : List Entry) :
    namesIn (String.ofList (listText entries)) = listedNames entries := by
  have parts : ((Text.cut (· == ',') (listText entries)).map Text.trim).filter
      (fun name => !name.isEmpty) =
        (entries.map Entry.chars).filter (fun name => !name.isEmpty) := by
    by_cases some : entries = []
    · subst some
      rfl
    · have whole : ∀ part ∈ entries.map Entry.text, ',' ∉ part :=
        List.forall_mem_map.mpr (fun entry _ => entry.whole_text)
      rw [listText, Text.cut_intercalate (by simpa using some) whole, List.map_map]
      congr 1
      exact List.map_congr_left (fun entry _ => entry.trim_text)
  rw [namesIn, String.toList_ofList, parts, filter_chars, listedNames, List.map_map]
  rfl

theorem isListed_of_mem_namesIn {text name : String} (found : name ∈ namesIn text) :
    IsListed name.toList := by
  simp only [namesIn, List.mem_map, List.mem_filter] at found
  obtain ⟨_, ⟨⟨part, member, rfl⟩, nonempty⟩, rfl⟩ := found
  rw [String.toList_ofList]
  refine ⟨?_, ?_, Text.isTrimmed_trim part⟩
  · simpa using nonempty
  · intro inside
    have comma := Text.not_mem_of_mem_cut member ',' ((Text.sublist_trim part).subset inside)
    cases comma

/-- The text is a whole number of 64 bits in ASCII digits, perhaps behind a plus sign. -/
def SpellsWord (text : String) (value : Nat) : Prop :=
  ∃ digits : List Char, (text.toList = digits ∨ text.toList = '+' :: digits) ∧ digits ≠ [] ∧
    digits.all Char.isDigit = true ∧ Nat.ofDigitChars 10 digits 0 = value ∧
    value < 0x1_0000_0000_0000_0000

theorem wordOf?_eq_some_iff {digits : List Char} {value : Nat} :
    (Directive.wordOf? digits).map UInt64.toNat = some value ↔ digits ≠ [] ∧
      digits.all Char.isDigit = true ∧ Nat.ofDigitChars 10 digits 0 = value ∧
      value < 0x1_0000_0000_0000_0000 := by
  have exact : ∀ {size : Nat}, size < 0x1_0000_0000_0000_0000 → (UInt64.ofNat size).toNat = size :=
    fun small => UInt64.toNat_ofNat_of_lt' small
  rw [Directive.wordOf?]
  by_cases shape : (digits.all Char.isDigit && !digits.isEmpty) = true
  · obtain ⟨all, nonempty⟩ := Bool.and_eq_true_iff.mp shape
    rw [Bool.not_eq_true', List.isEmpty_eq_false_iff] at nonempty
    rw [if_pos shape]
    by_cases small : Nat.ofDigitChars 10 digits 0 < 0x1_0000_0000_0000_0000
    · rw [if_pos small, Option.map_some, exact small, Option.some.injEq]
      exact ⟨fun same => ⟨nonempty, all, same, same ▸ small⟩, fun spelled => spelled.2.2.1⟩
    · rw [if_neg small, Option.map_none]
      exact ⟨nofun, fun ⟨_, _, same, bound⟩ => absurd (same ▸ bound) small⟩
  · rw [if_neg shape, Option.map_none]
    refine ⟨nofun, fun ⟨nonempty, all, _⟩ => absurd ?_ shape⟩
    rw [all, List.isEmpty_eq_false_iff.mpr nonempty]
    rfl

theorem depth?_eq_some_iff {text : String} {value : Nat} :
    depth? text = some value ↔ SpellsWord text value := by
  have sign : ∀ {digits : List Char}, digits.all Char.isDigit = true →
      ∀ rest, digits ≠ '+' :: rest := by
    rintro _ all rest rfl
    cases (Bool.and_eq_true_iff.mp all).1
  rw [depth?, wordOf?_eq_some_iff, SpellsWord]
  generalize text.toList = chars
  split
  · rename_i rest
    constructor
    · intro spelled
      exact ⟨rest, Or.inr rfl, spelled⟩
    · rintro ⟨digits, rfl | same, spelled⟩
      · exact absurd rfl (sign spelled.2.1 rest)
      · cases same
        exact spelled
  · rename_i unsigned
    constructor
    · intro spelled
      exact ⟨chars, Or.inl rfl, spelled⟩
    · rintro ⟨digits, rfl | same, spelled⟩
      · exact spelled
      · exact absurd same (unsigned digits)

structure Layered (environment : Environment) (below above : Config) : Prop where
  classes : above.compiler.classes = below.compiler.classes
  fields : above.compiler.defaultFields =
    ((environment "ENTITY_QUERY_DEFAULT_FIELDS").map namesIn).getD below.compiler.defaultFields
  /-- Of what a variable says only names count. -/
  listed : environment "ENTITY_QUERY_DEFAULT_FIELDS" ≠ none →
    ∀ name ∈ above.compiler.defaultFields, IsListed name.toList
  names : ∀ entries : List Entry,
    environment "ENTITY_QUERY_DEFAULT_FIELDS" = some (String.ofList (listText entries)) →
      above.compiler.defaultFields = listedNames entries
  depth : ∀ text value, environment "ENTITY_QUERY_MAX_DEPTH" = some text → SpellsWord text value →
    above.compiler.maxDepth = value
  /-- A variable that spells no number does not count. -/
  unread : (∀ text value, environment "ENTITY_QUERY_MAX_DEPTH" = some text →
    ¬SpellsWord text value) → above.compiler.maxDepth = below.compiler.maxDepth
  level : above.log.level = (environment "ENTITY_QUERY_LOG_LEVEL").getD below.log.level
  format : above.log.format = (environment "ENTITY_QUERY_LOG_FORMAT").getD below.log.format

theorem layered_override (environment : Environment) (config : Config) :
    Layered environment config (override environment config) where
  classes := rfl
  fields := rfl
  level := rfl
  format := rfl
  listed := by
    intro set name member
    obtain ⟨text, found⟩ := Option.ne_none_iff_exists'.mp set
    simp only [override, found, Option.map_some, Option.getD_some] at member
    exact isListed_of_mem_namesIn member
  names := by
    intro entries found
    simp only [override, found, Option.map_some, Option.getD_some]
    exact namesIn_listText entries
  depth := by
    intro text value found spelled
    simp only [override, found, Option.bind_some, depth?_eq_some_iff.mpr spelled, Option.getD_some]
  unread := by
    intro other
    have absent : (environment "ENTITY_QUERY_MAX_DEPTH").bind depth? = none := by
      rw [Option.bind_eq_none_iff]
      intro text found
      rw [Option.eq_none_iff_forall_not_mem]
      intro value read
      exact other text value found (depth?_eq_some_iff.mp read)
    simp only [override, absent, Option.getD_none]

theorem override_override (environment : Environment) (config : Config) :
    override environment (override environment config) = override environment config := by
  have again : ∀ {α : Type} (given : Option α) (other : α),
      given.getD (given.getD other) = given.getD other := by
    intro α given other
    cases given <;> rfl
  simp only [override, again]

/-- A file is refused with an environment where it is refused without one. Otherwise the environment
comes over the file, and where there is no file over the standard settings: it gives the settings
that it has variables for, and coming over them again it changes nothing. -/
theorem layers (environment : Environment) :
    Layered environment {} (ofEnvironment environment) ∧
    override environment (ofEnvironment environment) = ofEnvironment environment ∧
    ∀ text, (ofTextWith? environment text = none ↔ ofText? text = none) ∧
      ∀ file, ofText? text = some file → ∃ loaded, ofTextWith? environment text = some loaded ∧
        Layered environment file loaded ∧ override environment loaded = loaded := by
  refine ⟨layered_override environment {}, override_override environment {}, fun text => ?_⟩
  refine ⟨?_, fun file read => ⟨override environment file, ?_, layered_override environment file,
    override_override environment file⟩⟩
  · rw [ofTextWith?, Option.map_eq_none_iff]
  · rw [ofTextWith?, read, Option.map_some]

def sampleEnvironment : Environment := fun key =>
  [("ENTITY_QUERY_DEFAULT_FIELDS", "name ,\t, e m"), ("ENTITY_QUERY_MAX_DEPTH", "+4")].lookup key

/-- A file with a class, and a depth that the environment has another value for. -/
theorem layers_sample :
    let text := "[parser]\nmax_depth = 7\nclasses = [\"User\"]\n"
    ∃ file loaded, ofText? text = some file ∧ file.compiler.maxDepth = 7 ∧
      ofTextWith? sampleEnvironment text = some loaded ∧ loaded.compiler.classes = ["User"] ∧
      loaded.compiler.defaultFields = ["name", "e m"] ∧ loaded.compiler.maxDepth = 4 ∧
      loaded.log = {} := by
  intro text
  have read : ofText? text = some { compiler := { maxDepth := 7, classes := ["User"] } } := by
    decide +kernel
  obtain ⟨loaded, found, layered, _⟩ := ((layers sampleEnvironment).2.2 text).2 _ read
  have name : IsListed ['n', 'a', 'm', 'e'] :=
    ⟨List.cons_ne_nil _ _, by decide, by rintro c ⟨⟩; rfl, by rintro c ⟨⟩; rfl⟩
  have spaced : IsListed ['e', ' ', 'm'] :=
    ⟨List.cons_ne_nil _ _, by decide, by rintro c ⟨⟩; rfl, by rintro c ⟨⟩; rfl⟩
  have names := layered.names
    [⟨[], some ⟨_, name⟩, [' '], rfl, rfl⟩, ⟨['\t'], none, [], rfl, rfl⟩,
      ⟨[' '], some ⟨_, spaced⟩, [], rfl, rfl⟩] rfl
  have spelled : SpellsWord "+4" 4 :=
    ⟨['4'], Or.inr rfl, List.cons_ne_nil _ _, rfl, rfl, by decide⟩
  refine ⟨_, loaded, read, rfl, found, layered.classes, ?_, ?_, ?_⟩
  · exact names
  · exact layered.depth "+4" 4 rfl spelled
  · rw [LogSettings.mk.injEq]
    exact ⟨layered.level, layered.format⟩

end Config

end SelectorLang
