import SelectorLang.Proofs.ClauseLists
import SelectorLang.Proofs.JsonValues
import SelectorLang.Selector.Decoding
import SelectorLang.Selector.Transport

set_option autoImplicit false

namespace SelectorLang

namespace Json

/-- The members for the columns that hold a value. -/
def present (columns : List (String × Option Json)) : List (String × Json) :=
  columns.filterMap (fun column => column.2.map (column.1, ·))

@[simp] theorem present_nil : present [] = [] := rfl

@[simp] theorem present_append (left right : List (String × Option Json)) :
    present (left ++ right) = present left ++ present right :=
  List.filterMap_append

@[simp] theorem present_some (key : String) (value : Json) (rest : List (String × Option Json)) :
    present ((key, some value) :: rest) = (key, value) :: present rest := rfl

@[simp] theorem present_none (key : String) (rest : List (String × Option Json)) :
    present ((key, none) :: rest) = present rest := rfl

theorem key_mem_of_present {columns : List (String × Option Json)} {member : String × Json}
    (found : member ∈ present columns) : member.1 ∈ columns.map Prod.fst := by
  obtain ⟨column, listed, same⟩ := List.mem_filterMap.mp found
  obtain ⟨value, _, rfl⟩ := Option.map_eq_some_iff.mp same
  exact List.mem_map_of_mem listed

theorem lookup_present {columns : List (String × Option Json)}
    (distinct : (columns.map Prod.fst).Nodup) {key : String} {value : Option Json}
    (listed : (key, value) ∈ columns) : (present columns).lookup key = value := by
  induction columns with
  | nil => cases listed
  | cons column rest ih =>
    obtain ⟨other, held⟩ := column
    rw [List.map_cons, List.nodup_cons] at distinct
    rcases List.mem_cons.mp listed with same | behind
    · cases same
      cases value with
      | some value => rw [present_some, List.lookup_cons_self]
      | none =>
        rw [present_none, List.lookup_eq_none_iff]
        intro member found
        have elsewhere := key_mem_of_present found
        exact bne_iff_ne.mpr (fun same => distinct.1 (same ▸ elsewhere))
    · have differs : key ≠ other := by
        intro same
        subst same
        exact distinct.1 (List.mem_map.mpr ⟨_, behind, rfl⟩)
      cases held with
      | none => exact ih distinct.2 behind
      | some old =>
        rw [present_some, List.lookup_cons, beq_eq_false_iff_ne.mpr differs]
        exact ih distinct.2 behind

theorem lookup_present_of_empty {columns : List (String × Option Json)} {key : String}
    (empty : ∀ column ∈ columns, column.1 = key → column.2 = none) :
    (present columns).lookup key = none := by
  rw [List.lookup_eq_none_iff]
  intro member found
  obtain ⟨column, listed, same⟩ := List.mem_filterMap.mp found
  obtain ⟨value, held, rfl⟩ := Option.map_eq_some_iff.mp same
  refine bne_iff_ne.mpr (fun named => ?_)
  rw [empty column listed named.symm] at held
  cases held

theorem nodup_present {columns : List (String × Option Json)}
    (distinct : (columns.map Prod.fst).Nodup) : ((present columns).map Prod.fst).Nodup := by
  have part : ((present columns).map Prod.fst).Sublist (columns.map Prod.fst) := by
    clear distinct
    induction columns with
    | nil => exact .slnil
    | cons column rest ih =>
      obtain ⟨key, value⟩ := column
      cases value with
      | none => exact ih.cons key
      | some value => exact ih.cons_cons key
  exact distinct.sublist part

def listColumn (key : String) (items : List Json) : String × Option Json :=
  (key, if items.isEmpty then none else some (.array items))

def signedColumns {α : Type} (key : String) (encode : α → Json) (lists : Signed α) :
    List (String × Option Json) :=
  [listColumn key (lists.positive.map encode), listColumn ("!" ++ key) (lists.negative.map encode)]

theorem present_listColumn (key : String) (items : List Json)
    (rest : List (String × Option Json)) :
    present (listColumn key items :: rest) = listMember key items ++ present rest := by
  cases items <;> rfl

theorem present_signedColumns {α : Type} (key : String) (encode : α → Json) (lists : Signed α) :
    present (signedColumns key encode lists) = Clauses.membersOf key encode lists := by
  rw [signedColumns, present_listColumn, present_listColumn, present_nil, List.append_nil]
  rfl

/-- How deep the value of a column nests; a column that is left out needs no room. -/
def columnNesting : Option Json → Nat
  | none => 0
  | some value => value.nesting

theorem membersNesting_present_le_iff (columns : List (String × Option Json)) (room : Nat) :
    membersNesting (present columns) ≤ room ↔
      ∀ column ∈ columns, columnNesting column.2 ≤ room := by
  induction columns with
  | nil => simp only [present_nil, membersNesting, Nat.zero_le, List.not_mem_nil, false_implies,
      implies_true]
  | cons column rest ih =>
    obtain ⟨key, value⟩ := column
    rw [List.forall_mem_cons, ← ih]
    cases value with
    | none => simp only [present_none, columnNesting, Nat.zero_le, true_and]
    | some value => rw [present_some, membersNesting, Nat.max_le, columnNesting]

namespace Term

def fieldsOf (members : List (String × Json)) : List (String × Term) :=
  members.map (fun member => (member.1, toTerm member.2))

theorem lookup_fieldsOf (members : List (String × Json)) (key : String) :
    (fieldsOf members).lookup key = (members.lookup key).map toTerm := by
  induction members with
  | nil => rfl
  | cons member rest ih =>
    obtain ⟨other, value⟩ := member
    rw [fieldsOf, List.map_cons, List.lookup_cons, List.lookup_cons]
    cases key == other with
    | true => rfl
    | false => exact ih

/-- An object with known keys, none of which comes twice, gives all its members. -/
theorem knownMembers_membersToTerm {fields : List String} {members : List (String × Json)}
    (known : ∀ key ∈ members.map Prod.fst, key ∈ fields)
    (distinct : (members.map Prod.fst).Nodup) :
    knownMembers fields (membersToTerm members) = some (fieldsOf members) := by
  induction members with
  | nil => rfl
  | cons member rest ih =>
    obtain ⟨key, value⟩ := member
    rw [List.map_cons, List.forall_mem_cons] at known
    rw [List.map_cons, List.nodup_cons] at distinct
    have contained : fields.contains key = true := List.contains_iff_mem.mpr known.1
    have single : (fieldsOf rest).lookup key = none := by
      rw [lookup_fieldsOf, Option.map_eq_none_iff, List.lookup_eq_none_iff]
      intro member found
      exact bne_iff_ne.mpr
        (fun same => distinct.1 (List.mem_map.mpr ⟨member, found, same.symm⟩))
    rw [membersToTerm, knownMembers, ih known.2 distinct.2]
    simp only [Option.bind_eq_bind, Option.bind_some, contained, single, Bool.not_true,
      Bool.false_eq_true, Option.isSome_none, ↓reduceIte, Option.pure_def]
    rfl

/-- A record's fields are the columns that hold a value. -/
theorem record?_present {fields : List String} {columns : List (String × Option Json)}
    (keys : columns.map Prod.fst = fields) (distinct : fields.Nodup) (room : Nat) :
    record? fields (room + 1) (toTerm (.object (present columns))) =
      some (fieldsOf (present columns)) := by
  rw [toTerm, record?]
  subst keys
  apply knownMembers_membersToTerm _ (nodup_present distinct)
  intro key listed
  obtain ⟨member, found, rfl⟩ := List.mem_map.mp listed
  exact key_mem_of_present found

variable {α β : Type}

/-- The decoder gives back what was encoded, under so many levels at most, if and only if the
brackets of its form fit into the room. -/
def Restores (decode : Decoder α) (limit : Nat) (form : Json) (item : α) : Prop :=
  ∀ room ≤ limit, decode room (toTerm form) = if form.nesting ≤ room then some item else none

theorem restores_string (limit : Nat) (value : String) :
    Restores string? limit (.string value) value := fun _ _ => rfl

theorem restores_value (limit : Nat) {value : Json} (ordered : value.Ordered) :
    Restores value? limit value value := fun room _ => toJson?_toTerm room value ordered

theorem restores_pair {first : Decoder α} {second : Decoder β} {limit : Nat} {left right : Json}
    {a : α} {b : β} (one : Restores first limit left a) (other : Restores second limit right b) :
    Restores (pair? first second) (limit + 1) (.array [left, right]) (a, b) := by
  intro room within
  cases room with
  | zero => rfl
  | succ room =>
    have fits : (Json.array [left, right]).nesting ≤ room + 1 ↔
        left.nesting ≤ room ∧ right.nesting ≤ room := by
      simp only [nesting, itemsNesting, Nat.add_le_add_iff_right, Nat.max_le, Nat.zero_le, and_true]
    simp only [toTerm, itemsToTerm, pair?, one room (by omega), other room (by omega),
      Option.bind_eq_bind, ite_some_bind, Option.pure_def, ← ite_and, fits]

theorem mapM_itemsToTerm {decode : Decoder α} {encode : α → Json} {limit room : Nat}
    (within : room ≤ limit) {items : List α}
    (restores : ∀ item ∈ items, Restores decode limit (encode item) item) :
    (itemsToTerm (items.map encode)).mapM (decode room) =
      if itemsNesting (items.map encode) ≤ room then some items else none := by
  induction items with
  | nil => rfl
  | cons item rest ih =>
    obtain ⟨own, others⟩ := List.forall_mem_cons.mp restores
    rw [List.map_cons, itemsToTerm, List.mapM_cons, own room within, ih others, itemsNesting]
    simp only [Option.bind_eq_bind, ite_some_bind, Option.pure_def, ← ite_and, Nat.max_le]

theorem restores_list {decode : Decoder α} {encode : α → Json} {limit : Nat} {items : List α}
    (restores : ∀ item ∈ items, Restores decode limit (encode item) item) :
    Restores (list? decode) (limit + 1) (.array (items.map encode)) items := by
  intro room within
  cases room with
  | zero => rfl
  | succ room =>
    rw [toTerm, list?, mapM_itemsToTerm (by omega) restores, nesting]
    simp only [Nat.add_le_add_iff_right]

theorem required?_column {columns : List (String × Option Json)}
    (distinct : (columns.map Prod.fst).Nodup) {key : String} {value : Json}
    (listed : (key, some value) ∈ columns) (decode : Decoder α) (room : Nat) :
    required? (fieldsOf (present columns)) key decode room = decode room (toTerm value) := by
  rw [required?, lookup_fieldsOf, lookup_present distinct listed]
  rfl

theorem optional?_column {columns : List (String × Option Json)}
    (distinct : (columns.map Prod.fst).Nodup) {key : String} {encode : α → Json} {value : Option α}
    (listed : (key, value.map encode) ∈ columns) {decode : Decoder α} {room : Nat}
    (restores : ∀ held, toTerm (encode held) ≠ .null ∧
      decode room (toTerm (encode held)) = some held) :
    optional? (fieldsOf (present columns)) key decode room = some value := by
  rw [optional?, lookup_fieldsOf, lookup_present distinct listed]
  cases value with
  | none => rfl
  | some held =>
    obtain ⟨known, read⟩ := restores held
    simp only [Option.map_some, read]

theorem entries?_column {columns : List (String × Option Json)}
    (distinct : (columns.map Prod.fst).Nodup) {key : String} {encode : α → Json} {items : List α}
    (listed : listColumn key (items.map encode) ∈ columns) {decode : Decoder α} {limit room : Nat}
    (within : room ≤ limit + 1)
    (restores : ∀ item ∈ items, Restores decode limit (encode item) item) :
    entries? (fieldsOf (present columns)) key decode room =
      if columnNesting (listColumn key (items.map encode)).2 ≤ room then some items else none := by
  rw [entries?, lookup_fieldsOf, lookup_present distinct listed]
  cases items with
  | nil => rfl
  | cons item rest => exact restores_list restores room within

theorem signed?_columns {columns : List (String × Option Json)}
    (distinct : (columns.map Prod.fst).Nodup) {key : String} {encode : α → Json} {lists : Signed α}
    (listed : ∀ column ∈ signedColumns key encode lists, column ∈ columns) {decode : Decoder α}
    {limit room : Nat} (within : room ≤ limit + 1)
    (restores : ∀ negated, ∀ item ∈ lists.side negated, Restores decode limit (encode item) item) :
    signed? (fieldsOf (present columns)) key decode room =
      if ∀ column ∈ signedColumns key encode lists, columnNesting column.2 ≤ room then some lists
      else none := by
  have positive := entries?_column distinct (listed _ List.mem_cons_self) within (restores false)
  have negative := entries?_column distinct
    (listed _ (List.mem_cons_of_mem _ List.mem_cons_self)) within (restores true)
  simp only [signed?, positive, negative, Option.bind_eq_bind, ite_some_bind, Option.pure_def,
    ← ite_and, signedColumns, List.forall_mem_cons, List.not_mem_nil, false_implies, implies_true,
    and_true]

theorem key_mem_of_knownMembers {fields : List String} {members : List (Option String × Term)}
    {found : List (String × Term)} (known : knownMembers fields members = some found) {key : String}
    (listed : key ∈ found.map Prod.fst) : some key ∈ members.map Prod.fst := by
  induction members generalizing found with
  | nil =>
    cases known
    cases listed
  | cons member rest ih =>
    obtain ⟨other, term⟩ := member
    rw [List.map_cons]
    cases other with
    | none => cases known
    | some other =>
      obtain ⟨later, read, chosen⟩ := Option.bind_eq_some_iff.mp known
      by_cases unknown : (!fields.contains other) = true
      · rw [if_pos unknown] at chosen
        cases chosen
        exact List.mem_cons_of_mem _ (ih read listed)
      · rw [if_neg unknown] at chosen
        by_cases twice : (later.lookup other).isSome = true
        · rw [if_pos twice] at chosen
          cases chosen
        · rw [if_neg twice] at chosen
          cases chosen
          rcases List.mem_cons.mp listed with rfl | behind
          · exact List.mem_cons_self
          · exact List.mem_cons_of_mem _ (ih read behind)

/-- A list whose key is missing is read as empty. -/
theorem signed?_missing {fields : List (String × Term)} {key : String} {decode : Decoder α}
    {room : Nat} {lists : Signed α} (read : signed? fields key decode room = some lists)
    (encode : α → Json) :
    ∀ column ∈ signedColumns key encode lists, fields.lookup column.1 = none → column.2 = none := by
  obtain ⟨positive, one, read⟩ := Option.bind_eq_some_iff.mp read
  obtain ⟨negative, other, read⟩ := Option.bind_eq_some_iff.mp read
  cases read
  have empty : ∀ {name : String} {items : List α}, entries? fields name decode room = some items →
      fields.lookup name = none → (listColumn name (items.map encode)).2 = none := by
    intro name items known missing
    rw [entries?, missing] at known
    cases known
    rfl
  simp only [signedColumns, List.forall_mem_cons, List.not_mem_nil, false_implies, implies_true,
    and_true]
  exact ⟨empty one, empty other⟩

end Term

end Json

end SelectorLang
