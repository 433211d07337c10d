import SelectorLang.Proofs.Layout

set_option autoImplicit false

namespace SelectorLang

def Comparison.isAbsolute : Comparison → Bool
  | .absolute _ _ => true
  | .relative _ _ => false

def NumbersFirst (entries : List Comparison) : Prop :=
  entries.Pairwise (fun first second => second.isAbsolute = true → first.isAbsolute = true)

/-- The layout is a print of the selector. -/
inductive Layout.Prints : Layout → Selector → Prop
  | mk (layout : Layout) (selector : Selector)
      (lists : ∀ family negated, selector.listed family negated =
        ((layout.phrases.map Phrase.clause).filter (·.belongs family negated)).map Clause.condition)
      (numbersFirst : ∀ relation negated,
        NumbersFirst ((selector.clauses.compared relation).side negated))
      (defined : selector.clauses.defined = {})
      (positive : selector.nested.negative = [])
      (kinds : layout.groups.map Prod.fst = selector.nested.positive.map Selector.kind)
      (children : ∀ pair ∈ layout.groups.zip selector.nested.positive, Prints pair.1.2 pair.2) :
      Layout.Prints layout selector

def Family.place : Family → Nat
  | .subquery => 0
  | .equal => 1
  | .reference => 2
  | .contain => 3
  | .regex | .regexFold => 4
  | .like | .likeFold => 5
  | .guid => 6
  | .truthy => 7
  | .tag => 8
  | .compare .greater => 9
  | .compare .greaterEq => 11
  | .compare .less => 13
  | .compare .lessEq => 15

namespace Condition

def isRelative : Condition → Bool
  | .compare _ comparison => !comparison.isAbsolute
  | _ => false

/-- The number of the pass that reads a condition: time expressions are read after numbers. -/
def place (condition : Condition) : Nat := condition.family.place + condition.isRelative.toNat

theorem place_le {first second : Condition} (same : first.family = second.family)
    (ordered : first.isRelative = true → second.isRelative = true) :
    first.place ≤ second.place := by
  have bits : first.isRelative.toNat ≤ second.isRelative.toNat := by
    cases late : first.isRelative with
    | false => exact Nat.zero_le _
    | true => exact Nat.le_of_eq (congrArg Bool.toNat (ordered late).symm)
  rw [place, place, same]
  exact Nat.add_le_add_left bits _

end Condition

theorem Phrase.place_eq (phrase : Phrase) : phrase.place = phrase.clause.condition.place := by
  obtain ⟨negated, form⟩ := phrase
  cases form with
  | onField field operand =>
    cases operand with
    | like folded pattern => cases folded <;> rfl
    | number orEqual value fits => cases orEqual <;> rfl
    | expression orEqual chars nonempty => cases orEqual <;> rfl
    | _ => rfl
  | _ => rfl

/-- The clauses of a list of the selector stand in the order of their passes. -/
theorem Selector.pairwise_place {selector : Selector}
    (numbersFirst : ∀ relation negated,
      NumbersFirst ((selector.clauses.compared relation).side negated))
    (family : Family) (negated : Bool) :
    (selector.listed family negated).Pairwise (fun first second => first.place ≤ second.place) := by
  by_cases compared : ∃ relation, family = .compare relation
  · obtain ⟨relation, rfl⟩ := compared
    rw [listed, List.pairwise_map]
    apply (numbersFirst relation negated).imp
    intro former latter numbers
    have same : (Condition.compare relation former).family =
        (Condition.compare relation latter).family := rfl
    apply Condition.place_le same
    intro late
    rw [Condition.isRelative, Bool.not_eq_true'] at late ⊢
    cases absolute : latter.isAbsolute with
    | false => rfl
    | true =>
      rw [numbers absolute] at late
      cases late
  · apply List.pairwise_of_forall_mem_list
    intro first left second right
    have own := family_of_mem left
    apply Condition.place_le (own.trans (family_of_mem right).symm)
    intro late
    cases first with
    | compare relation comparison => exact absurd ⟨relation, own.symm⟩ compared
    | _ => cases late

theorem filter_inPasses (keeps : Phrase → Bool) (phrases : List Phrase) (place count : Nat) :
    (inPasses phrases place count).filter keeps = inPasses (phrases.filter keeps) place count := by
  induction count generalizing place with
  | zero => rfl
  | succ count ih =>
    have own : (phrases.filter (fun phrase => phrase.place == place)).filter keeps =
        (phrases.filter keeps).filter (fun phrase => phrase.place == place) := by
      rw [List.filter_filter, List.filter_filter]
      apply List.filter_congr
      intro phrase _
      exact Bool.and_comm _ _
    rw [inPasses, inPasses, List.filter_append, own, ih]

/-- Of phrases in the order of their passes, those of the first pass come first. -/
theorem filter_place_append {phrases : List Phrase} {place : Nat}
    (ordered : phrases.Pairwise (fun first second => first.place ≤ second.place))
    (within : ∀ phrase ∈ phrases, place ≤ phrase.place) :
    phrases.filter (fun phrase => phrase.place == place) ++
      phrases.filter (fun phrase => phrase.place != place) = phrases := by
  induction phrases with
  | nil => rfl
  | cons phrase others ih =>
    obtain ⟨first, behind⟩ := List.pairwise_cons.mp ordered
    have later := ih behind (fun other member => within other (List.mem_cons_of_mem phrase member))
    have bound := within phrase List.mem_cons_self
    by_cases own : phrase.place = place
    · have same : (phrase.place == place) = true := beq_iff_eq.mpr own
      have kept : (phrase.place != place) = false := by rw [bne, same, Bool.not_true]
      simp only [List.filter_cons, same, kept, Bool.false_eq_true, ↓reduceIte, List.cons_append,
        later]
    · have none : (phrase :: others).filter (fun other => other.place == place) = [] := by
        rw [List.filter_eq_nil_iff]
        intro other member
        rw [beq_iff_eq]
        rcases List.mem_cons.mp member with rfl | tail
        · exact own
        · have above := first other tail
          omega
      have all : (phrase :: others).filter (fun other => other.place != place) =
          phrase :: others := by
        rw [List.filter_eq_self]
        intro other member
        rw [bne_iff_ne]
        rcases List.mem_cons.mp member with rfl | tail
        · exact own
        · have above := first other tail
          omega
      rw [none, all, List.nil_append]

/-- The passes keep phrases that stand in their order. -/
theorem inPasses_of_ordered {phrases : List Phrase} {place count : Nat}
    (ordered : phrases.Pairwise (fun first second => first.place ≤ second.place))
    (within : ∀ phrase ∈ phrases, place ≤ phrase.place ∧ phrase.place < place + count) :
    inPasses phrases place count = phrases := by
  induction count generalizing place phrases with
  | zero =>
    have none : phrases = [] := by
      rw [List.eq_nil_iff_forall_not_mem]
      intro phrase member
      have bounds := within phrase member
      omega
    rw [none]
    rfl
  | succ count ih =>
    have later : ∀ phrase ∈ phrases.filter (fun phrase => phrase.place != place),
        place + 1 ≤ phrase.place ∧ phrase.place < place + 1 + count := by
      intro phrase member
      obtain ⟨listed, other⟩ := List.mem_filter.mp member
      have bounds := within phrase listed
      rw [bne_iff_ne] at other
      omega
    have behind := ih (ordered.sublist List.filter_sublist) later
    rw [inPasses, ← inPasses_filter phrases (Nat.lt_succ_self place), behind,
      filter_place_append ordered (fun phrase member => (within phrase member).1)]

/-- Passes keep the clauses of one list that stand in their order. -/
theorem filter_belongs_inPasses {phrases : List Phrase} (family : Family) (negated : Bool)
    (ordered : (phrases.filter (fun phrase => phrase.clause.belongs family negated)).Pairwise
      (fun first second => first.place ≤ second.place)) :
    ((inPasses phrases 0 17).map Phrase.clause).filter (·.belongs family negated) =
      (phrases.map Phrase.clause).filter (·.belongs family negated) := by
  rw [List.filter_map, List.filter_map]
  simp only [Function.comp_def]
  rw [filter_inPasses, inPasses_of_ordered ordered]
  intro phrase _
  have bound := Clause.place_le phrase
  omega

namespace Layout

/-- What the stages add for the clauses of a layout is what the selector lists. -/
theorem listed_inPasses {layout : Layout} {selector : Selector} (prints : layout.Prints selector)
    (family : Family) (negated : Bool) :
    (((inPasses layout.phrases 0 17).map Phrase.clause).filter (·.belongs family negated)).map
      Clause.condition = selector.listed family negated := by
  cases prints with
  | mk _ _ lists numbersFirst =>
    have ordered := Selector.pairwise_place numbersFirst family negated
    rw [lists, List.filter_map, List.map_map, List.pairwise_map] at ordered
    simp only [Function.comp_apply, ← Phrase.place_eq] at ordered
    rw [lists, filter_belongs_inPasses family negated ordered]

end Layout

end SelectorLang
