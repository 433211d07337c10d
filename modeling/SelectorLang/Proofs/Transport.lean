import SelectorLang.Proofs.Columns

set_option autoImplicit false

namespace SelectorLang

open Json Json.Term

namespace Options

def columns (options : Options) : List (String × Option Json) :=
  [("class", some (.string options.className)), ("limit", options.limit.map wordJson),
    ("offset", options.offset.map wordJson),
    ("sort", options.sort.map (fun value => Json.string value.name)),
    ("reverse", options.reverse.map Json.bool)]

theorem toJson_eq (options : Options) : options.toJson = .object (present options.columns) := by
  obtain ⟨className, limit, offset, sort, reverse⟩ := options
  cases limit <;> cases offset <;> cases sort <;> cases reverse <;> rfl

theorem keys_columns (options : Options) : options.columns.map Prod.fst = fieldNames := rfl

theorem word?_wordJson (value : UInt64) (room : Nat) :
    word? room (toTerm (wordJson value)) = some value := by
  have natural : (0 : Int) ≤ value.toNat := Int.natCast_nonneg _
  simp only [wordJson, toTerm, word?, Option.bind_some, Number.toWord?, natural, ↓reduceIte,
    Int.toNat_natCast, UInt64.ofNat_toNat]

theorem ofName?_name (field : SortField) : SortField.ofName? field.name = some field := by
  cases field <;> rfl

/-- Options hold no brackets but their own. -/
theorem nesting_toJson (options : Options) : options.toJson.nesting = 1 := by
  have flat : membersNesting (present options.columns) ≤ 0 := by
    rw [membersNesting_present_le_iff]
    obtain ⟨className, limit, offset, sort, reverse⟩ := options
    simp only [columns, List.forall_mem_cons, List.not_mem_nil, false_implies, implies_true,
      and_true]
    refine ⟨Nat.le_refl 0, ?_, ?_, ?_, ?_⟩
    · cases limit <;> exact Nat.le_refl 0
    · cases offset <;> exact Nat.le_refl 0
    · cases sort <;> exact Nat.le_refl 0
    · cases reverse <;> exact Nat.le_refl 0
  rw [toJson_eq, nesting]
  omega

theorem restores (options : Options) (limit : Nat) :
    Restores ofTerm? limit options.toJson options := by
  intro room _
  rw [nesting_toJson]
  cases room with
  | zero => rfl
  | succ room =>
    obtain ⟨others, same⟩ : ∃ others, options.columns = others := ⟨_, rfl⟩
    have distinct : (others.map Prod.fst).Nodup := by
      rw [← same, keys_columns]
      decide
    have listed : ∀ column ∈ options.columns, column ∈ others := by
      rw [same]
      exact fun _ column => column
    simp only [columns, List.forall_mem_cons, List.not_mem_nil, false_implies, implies_true,
      and_true] at listed
    obtain ⟨className, limit, offset, sort, reverse⟩ := listed
    have limits : optional? (fieldsOf (present others)) "limit" word? room = some options.limit :=
      optional?_column distinct limit (fun held => ⟨nofun, word?_wordJson held room⟩)
    have offsets : optional? (fieldsOf (present others)) "offset" word? room =
        some options.offset :=
      optional?_column distinct offset (fun held => ⟨nofun, word?_wordJson held room⟩)
    have sorts : optional? (fieldsOf (present others)) "sort"
        (fun room term => (name? room term).bind SortField.ofName?) room = some options.sort :=
      optional?_column distinct sort (fun held => ⟨nofun, by
        rw [toTerm, name?, Option.bind_some, ofName?_name]⟩)
    have reverses : optional? (fieldsOf (present others)) "reverse" bool? room =
        some options.reverse :=
      optional?_column distinct reverse (fun held => ⟨nofun, rfl⟩)
    rw [ofTerm?, toJson_eq, record?_present (keys_columns options) (by decide), same]
    simp only [Option.bind_eq_bind, Option.bind_some, required?_column distinct className, limits,
      offsets, sorts, reverses, toTerm, string?]
    rw [if_pos (Nat.le_add_left 1 room)]
    rfl

end Options

namespace Comparison

/-- A comparison with a number and one with a time expression are never taken for each other. -/
theorem ofTerm?_toTerm (comparison : Comparison) (room : Nat) :
    ofTerm? (room + 1) (toTerm comparison.toJson) = some comparison := by
  cases comparison <;> rfl

theorem nesting_toJson (comparison : Comparison) : comparison.toJson.nesting = 1 := by
  cases comparison <;> rfl

theorem restores (comparison : Comparison) (limit : Nat) :
    Restores ofTerm? limit comparison.toJson comparison := by
  intro room _
  rw [nesting_toJson]
  cases room with
  | zero => cases comparison <;> rfl
  | succ room =>
    rw [ofTerm?_toTerm, if_pos (Nat.le_add_left 1 room)]

end Comparison

namespace Clauses

def columns (clauses : Clauses) : List (String × Option Json) :=
  signedColumns "guid" Json.string clauses.guid ++
  signedColumns "tag" Json.string clauses.tag ++
  signedColumns "defined" Json.string clauses.defined ++
  signedColumns "truthy" Json.string clauses.truthy ++
  signedColumns "equal" valuePair clauses.equal ++
  signedColumns "contain" valuePair clauses.contain ++
  signedColumns "match" textPair clauses.regex ++
  signedColumns "imatch" textPair clauses.regexFold ++
  signedColumns "like" textPair clauses.like ++
  signedColumns "ilike" textPair clauses.likeFold ++
  signedColumns "gt" Comparison.toJson clauses.greater ++
  signedColumns "gte" Comparison.toJson clauses.greaterEq ++
  signedColumns "lt" Comparison.toJson clauses.less ++
  signedColumns "lte" Comparison.toJson clauses.lessEq ++
  signedColumns "ref" textPair clauses.reference

theorem members_eq (clauses : Clauses) : clauses.members = present clauses.columns := by
  simp only [members, columns, present_append, present_signedColumns]

/-- In the values that fields are compared with all objects are in order. -/
def Ordered (clauses : Clauses) : Prop :=
  ∀ negated, (∀ entry ∈ clauses.equal.side negated, entry.2.Ordered) ∧
    ∀ entry ∈ clauses.contain.side negated, entry.2.Ordered

/-- All clause lists are restored from their columns, if these fit into the room. -/
theorem ofFields?_columns {clauses : Clauses} (ordered : clauses.Ordered)
    {others : List (String × Option Json)} (distinct : (others.map Prod.fst).Nodup)
    (listed : ∀ column ∈ clauses.columns, column ∈ others) (room : Nat) :
    ofFields? (fieldsOf (present others)) room =
      if ∀ column ∈ clauses.columns, columnNesting column.2 ≤ room then some clauses else none := by
  have within : room ≤ room + 1 := Nat.le_add_right room 1
  have text : ∀ value : String, Restores string? room (.string value) value :=
    restores_string room
  have textPairs : ∀ entry : String × String, Restores textPair? room (textPair entry) entry := by
    intro entry
    have halves := restores_pair (restores_string room entry.1) (restores_string room entry.2)
    intro smaller fits
    exact halves smaller (by omega)
  have valuePairs : ∀ entry : String × Json, entry.2.Ordered →
      Restores valuePair? room (valuePair entry) entry := by
    intro entry known smaller fits
    exact restores_pair (restores_string room entry.1) (restores_value room known) smaller
      (by omega)
  simp only [columns, List.forall_mem_append] at listed
  obtain ⟨⟨⟨⟨⟨⟨⟨⟨⟨⟨⟨⟨⟨⟨guid, tag⟩, defined⟩, truthy⟩, equal⟩, contain⟩, regex⟩, regexFold⟩, like⟩,
    likeFold⟩, greater⟩, greaterEq⟩, less⟩, lessEq⟩, reference⟩ := listed
  have texts := fun (lists : Signed String) (negated : Bool) (value : String)
    (_ : value ∈ lists.side negated) => text value
  have pairs := fun (lists : Signed (String × String)) (negated : Bool) (entry : String × String)
    (_ : entry ∈ lists.side negated) => textPairs entry
  have comparisons := fun (lists : Signed Comparison) (negated : Bool) (comparison : Comparison)
    (_ : comparison ∈ lists.side negated) => comparison.restores room
  simp only [ofFields?, signed?_columns distinct guid within (texts _),
    signed?_columns distinct tag within (texts _),
    signed?_columns distinct defined within (texts _),
    signed?_columns distinct truthy within (texts _),
    signed?_columns distinct equal within
      (fun negated entry member => valuePairs entry ((ordered negated).1 entry member)),
    signed?_columns distinct contain within
      (fun negated entry member => valuePairs entry ((ordered negated).2 entry member)),
    signed?_columns distinct regex within (pairs _),
    signed?_columns distinct regexFold within (pairs _),
    signed?_columns distinct like within (pairs _),
    signed?_columns distinct likeFold within (pairs _),
    signed?_columns distinct greater within (comparisons _),
    signed?_columns distinct greaterEq within (comparisons _),
    signed?_columns distinct less within (comparisons _),
    signed?_columns distinct lessEq within (comparisons _),
    signed?_columns distinct reference within (pairs _),
    Option.bind_eq_bind, ite_some_bind, Option.pure_def, ← ite_and, columns,
    List.forall_mem_append, and_assoc]

end Clauses

mutual

/-- In all values of the selector's clauses, at all depths, objects are in order. -/
inductive Selector.Ordered : Selector → Prop
  | mk (selector : Selector) (clauses : selector.clauses.Ordered)
      (subqueries : ∀ negated, ∀ entry ∈ selector.subqueries.side negated, entry.2.Ordered)
      (nested : ∀ negated, ∀ child ∈ selector.nested.side negated, child.Ordered) :
      Selector.Ordered selector

/-- In all values of the query's clauses, at all depths, objects are in order. -/
inductive Query.Ordered : Query → Prop
  | mk (query : Query) (selectors : ∀ selector ∈ query.selectors, selector.Ordered) :
      Query.Ordered query

end

/-- The lists that hold values have to be in order, no others. -/
theorem Selector.ordered_of_empty {selector : Selector} (equal : selector.clauses.equal = {})
    (contain : selector.clauses.contain = {}) (subqueries : selector.subqueries = {})
    (nested : selector.nested = {}) : selector.Ordered := by
  have nothing : ∀ {α : Type} {lists : Signed α}, lists = {} →
      ∀ negated, ∀ entry, entry ∉ lists.side negated := by
    rintro α _ rfl negated entry
    cases negated <;> exact List.not_mem_nil
  exact .mk _
    (fun negated => ⟨fun entry member => absurd member (nothing equal negated entry),
      fun entry member => absurd member (nothing contain negated entry)⟩)
    (fun negated entry member => absurd member (nothing subqueries negated entry))
    (fun negated child member => absurd member (nothing nested negated child))

def Query.entryJson (entry : String × Query) : Json := .array [.string entry.1, entry.2.toJson]

theorem Query.entriesToJson_eq (entries : List (String × Query)) :
    entriesToJson entries = entries.map entryJson := by
  induction entries with
  | nil => rfl
  | cons entry rest ih => rw [entriesToJson, ih, List.map_cons, entryJson]

theorem Selector.listToJson_eq (selectors : List Selector) :
    listToJson selectors = selectors.map toJson := by
  induction selectors with
  | nil => rfl
  | cons selector rest ih => rw [listToJson, ih, List.map_cons]

namespace Selector

def columns (selector : Selector) : List (String × Option Json) :=
  ("type", some (.string selector.kind.marker)) ::
    (selector.clauses.columns ++ signedColumns "qref" Query.entryJson selector.subqueries ++
      signedColumns "selector" toJson selector.nested)

theorem toJson_eq (selector : Selector) : selector.toJson = .object (present selector.columns) := by
  obtain ⟨kind, clauses, ⟨subqueries, notSubqueries⟩, ⟨nested, notNested⟩⟩ := selector
  rw [toJson, columns, present_some, present_append, present_append, present_signedColumns,
    present_signedColumns, Clauses.members_eq, Query.entriesToJson_eq, Query.entriesToJson_eq,
    listToJson_eq, listToJson_eq]
  rfl

theorem keys_columns (selector : Selector) : selector.columns.map Prod.fst = fieldNames := by
  simp only [columns, Clauses.columns, signedColumns, listColumn, List.map_cons,
    List.map_nil, fieldNames, Clauses.keys, List.flatMap_cons,
    List.flatMap_nil, List.cons_append, List.nil_append]

theorem nodup_fieldNames : fieldNames.Nodup := by decide +kernel

theorem nesting_toJson_le_iff (selector : Selector) (room : Nat) :
    selector.toJson.nesting ≤ room + 1 ↔
      ∀ column ∈ selector.columns, columnNesting column.2 ≤ room := by
  rw [toJson_eq, nesting, Nat.add_le_add_iff_right, membersNesting_present_le_iff]

end Selector

theorem Combinator.ofMarker?_marker (kind : Combinator) : ofMarker? kind.marker = some kind := by
  cases kind <;> rfl

/-- A selector is restored if what stands under it is. -/
theorem Selector.restores_of_inner {selector : Selector} (own : selector.clauses.Ordered)
    {limit : Nat}
    (queries : ∀ negated, ∀ entry ∈ selector.subqueries.side negated,
      Restores (pair? string? (Query.ofTerm? limit)) limit (Query.entryJson entry) entry)
    (children : ∀ negated, ∀ child ∈ selector.nested.side negated,
      Restores (Selector.ofTerm? limit) limit child.toJson child) :
    Restores (Selector.ofTerm? (limit + 1)) (limit + 1) selector.toJson selector := by
  intro room within
  cases room with
  | zero =>
    rw [toJson_eq]
    rfl
  | succ room =>
    have smaller : room ≤ limit + 1 := by omega
    have known := record?_present selector.keys_columns nodup_fieldNames room
    have fits := selector.nesting_toJson_le_iff room
    rw [toJson_eq] at fits ⊢
    obtain ⟨others, same⟩ : ∃ others, selector.columns = others := ⟨_, rfl⟩
    have distinct : (others.map Prod.fst).Nodup := by
      rw [← same, keys_columns]
      exact nodup_fieldNames
    have listed : ∀ column ∈ selector.columns, column ∈ others := by
      rw [same]
      exact fun _ column => column
    simp only [columns, List.forall_mem_cons, List.forall_mem_append] at listed
    obtain ⟨kind, ⟨clauses, subqueries⟩, nested⟩ := listed
    have parts : (∀ column ∈ selector.columns, columnNesting column.2 ≤ room) ↔
        (∀ column ∈ selector.clauses.columns, columnNesting column.2 ≤ room) ∧
        (∀ column ∈ signedColumns "qref" Query.entryJson selector.subqueries,
          columnNesting column.2 ≤ room) ∧
        ∀ column ∈ signedColumns "selector" toJson selector.nested,
          columnNesting column.2 ≤ room := by
      simp only [columns, List.forall_mem_cons, List.forall_mem_append, columnNesting, nesting,
        Nat.zero_le, true_and, and_assoc]
    rw [Selector.ofTerm?, known, same]
    simp only [required?_column distinct kind, Clauses.ofFields?_columns own distinct clauses room,
      signed?_columns distinct subqueries smaller queries,
      signed?_columns distinct nested smaller children, toTerm, name?, Combinator.ofMarker?_marker,
      Option.bind_eq_bind, Option.bind_some, ite_some_bind, Option.pure_def, ← ite_and]
    rw [← same]
    split
    · rename_i all
      rw [if_pos (fits.mpr (parts.mpr all))]
      cases selector
      rfl
    · rename_i short
      rw [if_neg (fun fit => short (parts.mp (fits.mp fit)))]

mutual

theorem Selector.restores (selector : Selector) (ordered : selector.Ordered) (limit : Nat) :
    Restores (Selector.ofTerm? limit) limit selector.toJson selector := by
  cases limit with
  | zero =>
    intro room within
    obtain rfl := Nat.le_zero.mp within
    rw [Selector.toJson_eq]
    rfl
  | succ limit =>
    obtain ⟨kind, clauses, ⟨subqueries, notSubqueries⟩, ⟨nested, notNested⟩⟩ := selector
    obtain ⟨_, own, queries, children⟩ := ordered
    refine Selector.restores_of_inner own ?_ ?_
    · intro negated
      cases negated with
      | false => exact Query.restores_entries subqueries (queries false) limit
      | true => exact Query.restores_entries notSubqueries (queries true) limit
    · intro negated
      cases negated with
      | false => exact Selector.restores_all nested (children false) limit
      | true => exact Selector.restores_all notNested (children true) limit
termination_by structural selector

theorem Query.restores (query : Query) (ordered : query.Ordered) (limit : Nat) :
    Restores (Query.ofTerm? limit) limit query.toJson query := by
  intro room within
  obtain ⟨options, selectors⟩ := query
  cases room with
  | zero => cases limit <;> rfl
  | succ room =>
    obtain ⟨limit, rfl⟩ : ∃ less, limit = less + 1 := ⟨limit - 1, by omega⟩
    obtain ⟨_, ordered⟩ := ordered
    have inside := Selector.restores_all selectors ordered limit
    rw [Query.toJson, toTerm, itemsToTerm, Query.ofTerm?, options.restores limit room (by omega),
      Selector.listToJson_eq, mapM_itemsToTerm (by omega) inside]
    simp only [nesting, itemsNesting, Nat.add_le_add_iff_right, Nat.max_le, Option.bind_eq_bind,
      ite_some_bind, Option.pure_def, ← ite_and]
termination_by structural query

theorem Selector.restores_all (selectors : List Selector)
    (ordered : ∀ selector ∈ selectors, selector.Ordered) (limit : Nat) :
    ∀ selector ∈ selectors, Restores (Selector.ofTerm? limit) limit selector.toJson selector := by
  cases selectors with
  | nil => exact nofun
  | cons selector rest =>
    rw [List.forall_mem_cons] at ordered ⊢
    exact ⟨Selector.restores selector ordered.1 limit, Selector.restores_all rest ordered.2 limit⟩
termination_by structural selectors

theorem Query.restores_entries (entries : List (String × Query))
    (ordered : ∀ entry ∈ entries, entry.2.Ordered) (limit : Nat) :
    ∀ entry ∈ entries,
      Restores (pair? string? (Query.ofTerm? limit)) limit (Query.entryJson entry) entry := by
  cases entries with
  | nil => exact nofun
  | cons entry rest =>
    obtain ⟨field, query⟩ := entry
    rw [List.forall_mem_cons] at ordered ⊢
    refine ⟨?_, Query.restores_entries rest ordered.2 limit⟩
    intro room within
    exact restores_pair (restores_string limit field) (Query.restores query ordered.1 limit) room
      (by omega)
termination_by structural entries

end

/-- The compact JSON form of a query is read back as the query if and only if its brackets nest no
deeper than is allowed, and is refused otherwise. -/
theorem Query.ofText_compact (query : Query) (ordered : query.Ordered)
    (reads : ∀ number ∈ query.toJson.numbers, number.ReadsBack) :
    Query.ofText (compact query.toJson) =
      if query.toJson.nesting ≤ maxNesting then .ok query else .error .malformedTransport := by
  rw [ofText, Json.Term.ofText?_compact query.toJson reads, Option.bind_some,
    query.restores ordered maxNesting maxNesting (Nat.le_refl _)]
  by_cases fits : query.toJson.nesting ≤ maxNesting
  · rw [if_pos fits, if_pos fits]
  · rw [if_neg fits, if_neg fits]

theorem Clauses.missing_of_ofFields? {fields : List (String × Term)} {room : Nat}
    {clauses : Clauses} (read : ofFields? fields room = some clauses) :
    ∀ column ∈ clauses.columns, fields.lookup column.1 = none → column.2 = none := by
  rw [ofFields?] at read
  obtain ⟨_, guid, read⟩ := Option.bind_eq_some_iff.mp read
  obtain ⟨_, tag, read⟩ := Option.bind_eq_some_iff.mp read
  obtain ⟨_, defined, read⟩ := Option.bind_eq_some_iff.mp read
  obtain ⟨_, truthy, read⟩ := Option.bind_eq_some_iff.mp read
  obtain ⟨_, equal, read⟩ := Option.bind_eq_some_iff.mp read
  obtain ⟨_, contain, read⟩ := Option.bind_eq_some_iff.mp read
  obtain ⟨_, regex, read⟩ := Option.bind_eq_some_iff.mp read
  obtain ⟨_, regexFold, read⟩ := Option.bind_eq_some_iff.mp read
  obtain ⟨_, like, read⟩ := Option.bind_eq_some_iff.mp read
  obtain ⟨_, likeFold, read⟩ := Option.bind_eq_some_iff.mp read
  obtain ⟨_, greater, read⟩ := Option.bind_eq_some_iff.mp read
  obtain ⟨_, greaterEq, read⟩ := Option.bind_eq_some_iff.mp read
  obtain ⟨_, less, read⟩ := Option.bind_eq_some_iff.mp read
  obtain ⟨_, lessEq, read⟩ := Option.bind_eq_some_iff.mp read
  obtain ⟨_, reference, same⟩ := Option.bind_eq_some_iff.mp read
  cases same
  simp only [columns, List.forall_mem_append]
  exact ⟨⟨⟨⟨⟨⟨⟨⟨⟨⟨⟨⟨⟨⟨signed?_missing guid _, signed?_missing tag _⟩, signed?_missing defined _⟩,
    signed?_missing truthy _⟩, signed?_missing equal _⟩, signed?_missing contain _⟩,
    signed?_missing regex _⟩, signed?_missing regexFold _⟩, signed?_missing like _⟩,
    signed?_missing likeFold _⟩, signed?_missing greater _⟩, signed?_missing greaterEq _⟩,
    signed?_missing less _⟩, signed?_missing lessEq _⟩, signed?_missing reference _⟩

/-- A selector that is read from an object has nothing in the columns whose keys the object
lacks. -/
theorem Selector.column_of_missing {depth room : Nat} {members : List (Option String × Term)}
    {selector : Selector} (read : ofTerm? depth room (.object members) = some selector)
    {key : String} (list : key ≠ "type") (missing : some key ∉ members.map Prod.fst) :
    ∀ column ∈ selector.columns, column.1 = key → column.2 = none := by
  obtain ⟨depth, rfl⟩ : ∃ less, depth = less + 1 := by
    cases depth with
    | zero => cases read
    | succ depth => exact ⟨depth, rfl⟩
  obtain ⟨room, rfl⟩ : ∃ less, room = less + 1 := by
    cases room with
    | zero => cases read
    | succ room => exact ⟨room, rfl⟩
  simp only [ofTerm?, Option.bind_eq_bind, Option.bind_eq_some_iff, Option.pure_def] at read
  obtain ⟨fields, known, kind, _, clauses, own, subqueries, queries, nested, children, same⟩ := read
  have absent : fields.lookup key = none := by
    rw [List.lookup_eq_none_iff]
    intro field listed
    refine bne_iff_ne.mpr ?_
    rintro rfl
    exact missing (key_mem_of_knownMembers known (List.mem_map.mpr ⟨field, listed, rfl⟩))
  cases same
  simp only [columns, List.forall_mem_cons, List.forall_mem_append]
  refine ⟨fun same => absurd same.symm list, ⟨?_, ?_⟩, ?_⟩
  · rintro column listed rfl
    exact Clauses.missing_of_ofFields? own column listed absent
  · rintro column listed rfl
    exact signed?_missing queries _ column listed absent
  · rintro column listed rfl
    exact signed?_missing children _ column listed absent

/-- Transport loses nothing. A query whose form nests no deeper than a reader of JSON allows comes
back as it was, if its objects are in order and its doubles are read back. Comparisons of the two
kinds are never taken for each other, a missing key stands for an empty list, and no two lists share
a key. -/
theorem Query.transport (query : Query) (ordered : query.Ordered)
    (reads : ∀ double, Number.double double ∈ query.toJson.numbers →
      (Number.double double).ReadsBack)
    (nesting : query.toJson.nesting ≤ 127) :
    Query.ofText (compact query.toJson) = .ok query ∧
      (∀ (comparison : Comparison) (room : Nat),
        Comparison.ofTerm? (room + 1) (toTerm comparison.toJson) = some comparison) ∧
      (∀ depth room members selector,
        Selector.ofTerm? depth room (.object members) = some selector → ∀ key ≠ "type",
          some key ∉ members.map Prod.fst → selector.toJson.member? key = none) ∧
      Selector.fieldNames.Nodup := by
  refine ⟨?_, Comparison.ofTerm?_toTerm, ?_, Selector.nodup_fieldNames⟩
  · rw [Query.ofText_compact query ordered (Number.readsBack_of_doubles reads)]
    exact if_pos nesting
  · intro depth room members selector read key list missing
    rw [Selector.toJson_eq]
    exact lookup_present_of_empty (Selector.column_of_missing read list missing)

def Double.sample : Double := ⟨false, 0x3ff8_0000_0000_0000, by decide⟩

/-- A query with an object, both kinds of comparison, a subquery and a nested selector. -/
def Query.sample : Query :=
  ⟨{ className := "User", limit := some 10 },
    [⟨.allOf,
      { equal := ⟨[("size", .object [("deep", .number (.double .sample)), ("wide", .null)])], []⟩
        less := ⟨[.absolute "age" (.whole 18 (by decide))], [.relative "cdate" "yesterday"]⟩ },
      ⟨[("group", ⟨{ className := "Group" }, []⟩)], []⟩,
      ⟨[], [⟨.anyOf, { tag := ⟨["a\"b"], []⟩ }, {}, {}⟩]⟩⟩]⟩

theorem Query.transport_sample :
    (Query.sample.Ordered ∧ (Number.double .sample).ReadsBack ∧ Query.sample.toJson.nesting ≤ 127) ∧
      Query.ofText (compact Query.sample.toJson) = .ok Query.sample := by
  have ordered : Query.sample.Ordered := by
    have size : Json.Ordered
        (.object [("deep", .number (.double .sample)), ("wide", .null)]) :=
      ⟨by decide, trivial, trivial, trivial⟩
    have group : Query.Ordered ⟨{ className := "Group" }, []⟩ := .mk _ nofun
    have leaf : Selector.Ordered ⟨.anyOf, { tag := ⟨["a\"b"], []⟩ }, {}, {}⟩ :=
      Selector.ordered_of_empty rfl rfl rfl rfl
    refine .mk _ (List.forall_mem_singleton.mpr (.mk _ ?_ ?_ ?_))
    · intro negated
      cases negated with
      | false => exact ⟨List.forall_mem_singleton.mpr size, nofun⟩
      | true => exact ⟨nofun, nofun⟩
    · intro negated
      cases negated with
      | false => exact List.forall_mem_singleton.mpr group
      | true => exact nofun
    · intro negated
      cases negated with
      | false => exact nofun
      | true => exact List.forall_mem_singleton.mpr leaf
  have reads : (Number.double .sample).ReadsBack := by decide +kernel
  have nesting : Query.sample.toJson.nesting ≤ 127 := by decide +kernel
  have numbers : Query.sample.toJson.numbers =
      [.whole 10 (by decide), .double .sample, .whole 18 (by decide)] := by decide +kernel
  refine ⟨⟨ordered, reads, nesting⟩, (Query.transport Query.sample ordered ?_ nesting).1⟩
  intro double member
  rw [numbers] at member
  simp only [List.mem_cons, reduceCtorEq, Number.double.injEq, List.not_mem_nil, or_false,
    false_or] at member
  rw [member]
  exact reads

end SelectorLang
