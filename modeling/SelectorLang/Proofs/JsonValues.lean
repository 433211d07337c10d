import Mathlib.Data.String.Basic
import SelectorLang.Proofs.JsonReading

set_option autoImplicit false

namespace SelectorLang

namespace Json

mutual

/-- The values that a JSON library holds, where an object is a map from keys: in every object the
members are in the order of their keys, and no key comes twice. -/
def Ordered : Json → Prop
  | .array items => OrderedItems items
  | .object members => (members.map Prod.fst).Pairwise (· < ·) ∧ OrderedMembers members
  | _ => True
termination_by structural value => value

def OrderedItems : List Json → Prop
  | [] => True
  | item :: rest => Ordered item ∧ OrderedItems rest
termination_by structural items => items

def OrderedMembers : List (String × Json) → Prop
  | [] => True
  | (_, value) :: rest => Ordered value ∧ OrderedMembers rest
termination_by structural members => members

end

theorem orderedMembers_iff (members : List (String × Json)) :
    OrderedMembers members ↔ ∀ member ∈ members, Ordered member.2 := by
  induction members with
  | nil => simp only [OrderedMembers, List.not_mem_nil, false_implies, implies_true]
  | cons member rest ih => rw [OrderedMembers, ih, List.forall_mem_cons]

theorem insert_last {key : String} {value : Json} {members : List (String × Json)}
    (last : ∀ member ∈ members, member.1 < key) :
    insert key value members = members ++ [(key, value)] := by
  induction members with
  | nil => rfl
  | cons member rest ih =>
    obtain ⟨other, old⟩ := member
    obtain ⟨before, later⟩ := List.forall_mem_cons.mp last
    have differs : key ≠ other := by
      rintro rfl
      exact String.lt_irrefl key before
    rw [insert, if_neg (String.lt_asymm before), if_neg differs, ih later]
    rfl

theorem ofMembers_of_pairwise {members : List (String × Json)}
    (sorted : (members.map Prod.fst).Pairwise (· < ·)) : ofMembers members = .object members := by
  have all : ∀ done : List (String × Json), ((done ++ members).map Prod.fst).Pairwise (· < ·) →
      members.foldl (fun done member => insert member.1 member.2 done) done = done ++ members := by
    clear sorted
    induction members with
    | nil =>
      intro done _
      rw [List.foldl_nil, List.append_nil]
    | cons member rest ih =>
      intro done sorted
      have last : ∀ other ∈ done, other.1 < member.1 := by
        intro other listed
        rw [List.map_append, List.pairwise_append] at sorted
        exact sorted.2.2 other.1 (List.mem_map_of_mem listed) member.1
          (List.mem_map_of_mem List.mem_cons_self)
      rw [List.append_cons] at sorted
      simp only [List.foldl_cons, insert_last last, ih (done ++ [member]) sorted,
        List.append_assoc, List.singleton_append]
  exact congrArg object (all [] sorted)

theorem mem_insert {key : String} {value : Json} {members : List (String × Json)}
    {member : String × Json} (found : member ∈ insert key value members) :
    member = (key, value) ∨ member ∈ members := by
  induction members with
  | nil => exact Or.inl (List.mem_singleton.mp found)
  | cons first rest ih =>
    obtain ⟨other, old⟩ := first
    rw [insert] at found
    split at found
    · exact List.mem_cons.mp found
    · split at found
      · rcases List.mem_cons.mp found with same | behind
        · exact Or.inl same
        · exact Or.inr (List.mem_cons_of_mem _ behind)
      · rcases List.mem_cons.mp found with same | behind
        · exact Or.inr (same ▸ List.mem_cons_self)
        · exact (ih behind).imp id (List.mem_cons_of_mem _)

theorem pairwise_insert (key : String) (value : Json) {members : List (String × Json)}
    (sorted : (members.map Prod.fst).Pairwise (· < ·)) :
    ((insert key value members).map Prod.fst).Pairwise (· < ·) := by
  induction members with
  | nil => exact List.pairwise_singleton _ _
  | cons first rest ih =>
    obtain ⟨other, old⟩ := first
    rw [List.map_cons, List.pairwise_cons] at sorted
    obtain ⟨first, others⟩ := sorted
    rw [insert]
    split
    · rename_i before
      refine .cons ?_ (.cons first others)
      intro name listed
      rcases List.mem_cons.mp listed with rfl | behind
      · exact before
      · exact String.lt_trans before (first name behind)
    · rename_i notBefore
      split
      · rename_i same
        subst same
        exact .cons first others
      · rename_i differs
        refine .cons ?_ (ih others)
        intro name listed
        obtain ⟨member, found, rfl⟩ := List.mem_map.mp listed
        rcases mem_insert found with rfl | behind
        · exact (lt_trichotomy other key).resolve_right
            (fun rest => rest.elim (fun same => differs same.symm) notBefore)
        · exact first member.1 (List.mem_map_of_mem behind)

theorem ordered_ofMembers {members : List (String × Json)} (ordered : OrderedMembers members) :
    Ordered (ofMembers members) := by
  have all : ∀ done : List (String × Json), (done.map Prod.fst).Pairwise (· < ·) →
      OrderedMembers done →
      Ordered
        (.object (members.foldl (fun done member => insert member.1 member.2 done) done)) := by
    induction members with
    | nil => exact fun done sorted known => ⟨sorted, known⟩
    | cons member rest ih =>
      obtain ⟨own, others⟩ := ordered
      intro done sorted known
      refine ih others _ (pairwise_insert member.1 member.2 sorted) ?_
      rw [orderedMembers_iff] at known ⊢
      intro other found
      rcases mem_insert found with rfl | before
      · exact own
      · exact known other before
  exact all [] .nil trivial

mutual

/-- Every value that a term gives is in order. -/
theorem ordered_of_toJson? (room : Nat) (term : Term) {value : Json}
    (found : Term.toJson? room term = some value) : Ordered value := by
  cases term with
  | null => cases found; trivial
  | bool => cases found; trivial
  | number number =>
    obtain ⟨number, rfl, rfl⟩ := Option.map_eq_some_iff.mp found
    trivial
  | string chars =>
    obtain ⟨chars, rfl, rfl⟩ := Option.map_eq_some_iff.mp found
    trivial
  | array terms =>
    cases room with
    | zero => cases found
    | succ room =>
      obtain ⟨items, read, rfl⟩ := Option.map_eq_some_iff.mp found
      exact orderedItems_of_itemsToJson? room terms read
  | object terms =>
    cases room with
    | zero => cases found
    | succ room =>
      obtain ⟨members, read, rfl⟩ := Option.map_eq_some_iff.mp found
      exact ordered_ofMembers (orderedMembers_of_membersToJson? room terms read)
termination_by structural term

theorem orderedItems_of_itemsToJson? (room : Nat) (terms : List Term) {items : List Json}
    (found : Term.itemsToJson? room terms = some items) : OrderedItems items := by
  cases terms with
  | nil => cases found; trivial
  | cons term rest =>
    obtain ⟨value, own, found⟩ := Option.bind_eq_some_iff.mp found
    obtain ⟨values, others, found⟩ := Option.bind_eq_some_iff.mp found
    cases found
    exact ⟨ordered_of_toJson? room term own, orderedItems_of_itemsToJson? room rest others⟩
termination_by structural terms

theorem orderedMembers_of_membersToJson? (room : Nat) (terms : List (Option String × Term))
    {members : List (String × Json)} (found : Term.membersToJson? room terms = some members) :
    OrderedMembers members := by
  cases terms with
  | nil => cases found; trivial
  | cons term rest =>
    obtain ⟨key, term⟩ := term
    obtain ⟨key, rfl, found⟩ := Option.bind_eq_some_iff.mp found
    obtain ⟨value, own, found⟩ := Option.bind_eq_some_iff.mp found
    obtain ⟨values, others, found⟩ := Option.bind_eq_some_iff.mp found
    cases found
    exact ⟨ordered_of_toJson? room term own, orderedMembers_of_membersToJson? room rest others⟩
termination_by structural terms

end

mutual

/-- How deep the brackets and braces of a value nest. -/
def nesting : Json → Nat
  | .array items => itemsNesting items + 1
  | .object members => membersNesting members + 1
  | _ => 0
termination_by structural value => value

def itemsNesting : List Json → Nat
  | [] => 0
  | item :: rest => max (nesting item) (itemsNesting rest)
termination_by structural items => items

def membersNesting : List (String × Json) → Nat
  | [] => 0
  | (_, value) :: rest => max (nesting value) (membersNesting rest)
termination_by structural members => members

end

/-- What is answered where a condition holds goes on where it holds. -/
theorem ite_some_bind {α β : Type} (condition : Prop) [Decidable condition] (answer : α)
    (next : α → Option β) :
    (if condition then some answer else none).bind next =
      if condition then next answer else none := by
  split <;> rfl

mutual

/-- A value in order comes back from its term if and only if its brackets fit into the room. -/
theorem toJson?_toTerm (room : Nat) (value : Json) (ordered : value.Ordered) :
    (toTerm value).toJson? room = if value.nesting ≤ room then some value else none := by
  cases value with
  | null => rfl
  | bool value => rfl
  | number value => rfl
  | string value => rfl
  | array items =>
    cases room with
    | zero => rfl
    | succ room =>
      rw [toTerm, Term.toJson?, itemsToJson?_toTerm room items ordered, nesting]
      simp only [Nat.add_le_add_iff_right]
      split <;> rfl
  | object members =>
    cases room with
    | zero => rfl
    | succ room =>
      rw [toTerm, Term.toJson?, membersToJson?_toTerm room members ordered.2, nesting]
      simp only [Nat.add_le_add_iff_right]
      split
      · rw [Option.map_some, ofMembers_of_pairwise ordered.1]
      · rfl
termination_by structural value

theorem itemsToJson?_toTerm (room : Nat) (items : List Json) (ordered : OrderedItems items) :
    Term.itemsToJson? room (itemsToTerm items) =
      if itemsNesting items ≤ room then some items else none := by
  cases items with
  | nil => rfl
  | cons item rest =>
    rw [itemsToTerm, Term.itemsToJson?, toJson?_toTerm room item ordered.1,
      itemsToJson?_toTerm room rest ordered.2, itemsNesting]
    simp only [Option.bind_eq_bind, ite_some_bind, Option.pure_def, ← ite_and, Nat.max_le]
termination_by structural items

theorem membersToJson?_toTerm (room : Nat) (members : List (String × Json))
    (ordered : OrderedMembers members) :
    Term.membersToJson? room (membersToTerm members) =
      if membersNesting members ≤ room then some members else none := by
  cases members with
  | nil => rfl
  | cons member rest =>
    obtain ⟨key, value⟩ := member
    rw [membersToTerm, Term.membersToJson?, toJson?_toTerm room value ordered.1,
      membersToJson?_toTerm room rest ordered.2, membersNesting]
    simp only [Option.bind_eq_bind, Option.bind_some, ite_some_bind, Option.pure_def, ← ite_and,
      Nat.max_le]
termination_by structural members

end

/-- A value in order is read back from its compact text if and only if its brackets nest no deeper
than is allowed. -/
theorem ofText?_compact (value : Json) (ordered : value.Ordered)
    (reads : ∀ number ∈ value.numbers, number.ReadsBack) :
    ofText? (compact value).toList = if value.nesting ≤ maxNesting then some value else none := by
  rw [ofText?, Term.ofText?_compact value reads, Option.bind_some,
    toJson?_toTerm maxNesting value ordered]

end Json

end SelectorLang
