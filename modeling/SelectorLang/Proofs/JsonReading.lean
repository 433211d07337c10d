import SelectorLang.Proofs.JsonLeaves

set_option autoImplicit false

namespace SelectorLang

namespace Json

open Reader

mutual

def toTerm : Json → Term
  | .null => .null
  | .bool value => .bool value
  | .number value => .number (some value)
  | .string value => .string (some value)
  | .array items => .array (itemsToTerm items)
  | .object members => .object (membersToTerm members)
termination_by structural value => value

def itemsToTerm : List Json → List Term
  | [] => []
  | item :: rest => toTerm item :: itemsToTerm rest
termination_by structural items => items

def membersToTerm : List (String × Json) → List (Option String × Term)
  | [] => []
  | (key, value) :: rest => (some key, toTerm value) :: membersToTerm rest
termination_by structural members => members

end

mutual

def numbers : Json → List Number
  | .number value => [value]
  | .array items => itemsNumbers items
  | .object members => membersNumbers members
  | _ => []
termination_by structural value => value

def itemsNumbers : List Json → List Number
  | [] => []
  | item :: rest => numbers item ++ itemsNumbers rest
termination_by structural items => items

def membersNumbers : List (String × Json) → List Number
  | [] => []
  | (_, value) :: rest => numbers value ++ membersNumbers rest
termination_by structural members => members

end

theorem numeral_text {number : Number} (reads : number.ReadsBack) {tail : List Char}
    (follows : Follows tail) :
    ∃ value, numeral (number.text ++ tail) = some (value, tail) ∧
      numberOf? value = some number := by
  obtain ⟨value, whole, meaning⟩ := Option.bind_eq_some_iff.mp reads
  refine ⟨value, ?_, meaning⟩
  rw [frames_numeral follows]
  rw [readAll] at whole
  split at whole
  · rename_i found
    cases whole
    rw [found]
    rfl
  · cases whole

/-- A numeral begins with no blank. -/
theorem isSpace_of_sign_or_digit {c : Char} (first : c = '-' ∨ c.isDigit = true) :
    isSpace c = false := by
  have blanks : ∀ d, isSpace d = true → d ≠ '-' ∧ d.isDigit = false := by
    intro d space
    simp only [isSpace, Bool.or_eq_true, beq_iff_eq] at space
    rcases space with ((rfl | rfl) | rfl) | rfl <;> exact ⟨by decide, rfl⟩
  cases space : isSpace c with
  | false => rfl
  | true =>
    rcases first with sign | digit
    · exact absurd sign (blanks c space).1
    · rw [(blanks c space).2] at digit
      cases digit

theorem skipSpace_cons {c : Char} (dark : isSpace c = false) (rest : List Char) :
    skipSpace (c :: rest) = c :: rest := by
  rw [skipSpace, List.dropWhile_cons, dark]
  rfl

/-- No value begins with a blank or with a bracket that closes. -/
theorem head_text (value : Json) (reads : ∀ number ∈ value.numbers, number.ReadsBack) :
    ∃ c others, text value = c :: others ∧ isSpace c = false ∧ c ≠ ']' := by
  cases value with
  | null => exact ⟨_, _, rfl, rfl, by decide⟩
  | bool value => cases value <;> exact ⟨_, _, rfl, rfl, by decide⟩
  | string value => exact ⟨_, _, rfl, rfl, by decide⟩
  | array items => exact ⟨_, _, rfl, rfl, by decide⟩
  | object members => exact ⟨_, _, rfl, rfl, by decide⟩
  | number value =>
    obtain ⟨numeral, read, _⟩ := numeral_text (reads value List.mem_cons_self) follows_nil
    rw [List.append_nil] at read
    obtain ⟨c, others, parts, first⟩ := head_of_numeral read
    refine ⟨c, others, parts, isSpace_of_sign_or_digit first, ?_⟩
    rcases first with rfl | digit
    · decide
    · exact ne_of_accepted digit rfl

/-- The items of an array that is not empty begin with no blank and no bracket that closes. -/
theorem head_itemsText (item : Json) (rest : List Json)
    (reads : ∀ number ∈ item.numbers, number.ReadsBack) :
    ∃ c others, itemsText (item :: rest) = c :: others ∧ isSpace c = false ∧ c ≠ ']' := by
  obtain ⟨c, others, parts, dark, opens⟩ := head_text item reads
  cases rest with
  | nil => exact ⟨c, others, parts, dark, opens⟩
  | cons next rest =>
    refine ⟨c, others ++ ',' :: itemsText (next :: rest), ?_, dark, opens⟩
    rw [itemsText, parts, List.cons_append]

theorem head_membersText (key : String) (value : Json) (rest : List (String × Json)) :
    ∃ others, membersText ((key, value) :: rest) = '"' :: others := by
  cases rest with
  | nil => exact ⟨_, rfl⟩
  | cons next rest => exact ⟨_, rfl⟩

theorem skipSpace_stringText (value : String) (rest : List Char) :
    skipSpace (stringText value ++ rest) =
      '"' :: (value.toList.flatMap escapedChar ++ '"' :: rest) := by
  rw [stringText, List.cons_append, List.append_assoc]
  rfl

theorem membersAt_last {key : String} {value : Json} {term : Term} {fuel : Nat} {after : List Char}
    (read : termAt fuel (text value ++ '\x7d' :: after) = some (term, '\x7d' :: after)) :
    membersAt (fuel + 1) (stringText key ++ ':' :: (text value ++ '\x7d' :: after)) =
      some ([(some key, term)], after) := by
  rw [membersAt, skipSpace_stringText]
  simp only [stringAt_text, skipSpace_cons (c := ':') rfl, read, skipSpace_cons (c := '\x7d') rfl]

theorem membersAt_next {key : String} {value : Json} {term : Term} {fuel : Nat}
    {more after : List Char} {members : List (Option String × Term)}
    (read : termAt fuel (text value ++ ',' :: more) = some (term, ',' :: more))
    (later : membersAt fuel more = some (members, after)) :
    membersAt (fuel + 1) (stringText key ++ ':' :: (text value ++ ',' :: more)) =
      some ((some key, term) :: members, after) := by
  rw [membersAt, skipSpace_stringText]
  simp only [stringAt_text, skipSpace_cons (c := ':') rfl, read, skipSpace_cons (c := ',') rfl,
    later, Option.map_some]

/-- A numeral is read as a number: a minus sign and a digit begin nothing else. -/
theorem termAt_numeral {source rest : List Char} {value : Number.Numeral}
    (read : numeral source = some (value, rest)) (fuel : Nat) :
    termAt (fuel + 1) source = some (.number (numberOf? value), rest) := by
  obtain ⟨c, others, parts, first⟩ := head_of_numeral read
  have other : ∀ d others', c :: others = d :: others' → d ≠ '-' → d.isDigit = false → False := by
    intro d others' same minus digit
    obtain ⟨rfl, _⟩ := List.cons.inj same
    rcases first with sign | known
    · exact minus sign
    · rw [digit] at known
      cases known
  rw [termAt, parts, skipSpace_cons (isSpace_of_sign_or_digit first)]
  split
  · rename_i bracket
    exact (other _ _ bracket (by decide) rfl).elim
  · rename_i brace
    exact (other _ _ brace (by decide) rfl).elim
  · rename_i quote
    exact (other _ _ quote (by decide) rfl).elim
  · rename_i null
    exact (other _ _ null (by decide) rfl).elim
  · rename_i yes
    exact (other _ _ yes (by decide) rfl).elim
  · rename_i no
    exact (other _ _ no (by decide) rfl).elim
  · rw [← parts, read]
    rfl

/-- Behind an opening bracket come items, unless the array is closed at once. -/
theorem termAt_array {c : Char} {others rest : List Char} {items : List Term} {fuel : Nat}
    (dark : isSpace c = false) (opens : c ≠ ']')
    (read : itemsAt fuel (c :: others) = some (items, rest)) :
    termAt (fuel + 1) ('[' :: c :: others) = some (.array items, rest) := by
  rw [termAt, skipSpace_cons rfl]
  simp only [skipSpace_cons dark]
  split
  · rename_i closed
    exact absurd (List.cons.inj closed).1 opens
  · rw [read]
    rfl

/-- Behind an opening brace come members, unless the object is closed at once. -/
theorem termAt_object {others rest : List Char} {members : List (Option String × Term)} {fuel : Nat}
    (read : membersAt fuel ('"' :: others) = some (members, rest)) :
    termAt (fuel + 1) ('\x7b' :: '"' :: others) = some (.object members, rest) := by
  rw [termAt, skipSpace_cons rfl]
  simp only [skipSpace_cons (c := '"') rfl]
  split
  · rename_i closed
    cases (List.cons.inj closed).1
  · rw [read]
    rfl

mutual

/-- The text of a value is read as its term, whatever follows. -/
theorem termAt_text (value : Json) (reads : ∀ number ∈ value.numbers, number.ReadsBack)
    (fuel : Nat) (enough : 2 * (text value).length + 1 ≤ fuel) {tail : List Char}
    (follows : Follows tail) : termAt fuel (text value ++ tail) = some (toTerm value, tail) := by
  -- Items and members have statements of their own, with fuel for two calls to a character as well.
  obtain ⟨fuel, rfl⟩ : ∃ less, fuel = less + 1 := ⟨fuel - 1, by omega⟩
  cases value with
  | null => rfl
  | bool value => cases value <;> rfl
  | string value =>
    rw [text, termAt, skipSpace_stringText]
    simp only [stringAt_text, Option.map_some, toTerm]
  | number value =>
    obtain ⟨numeral, read, meaning⟩ := numeral_text (reads value List.mem_cons_self) follows
    rw [text, termAt_numeral read, meaning, toTerm]
  | array items =>
    rw [text, List.length_cons, List.length_append, List.length_singleton] at enough
    cases items with
    | nil => rfl
    | cons item rest =>
      obtain ⟨c, others, parts, dark, opens⟩ := head_itemsText item rest
        (fun number member => reads number (List.mem_append_left _ member))
      have inside := itemsAt_text (item :: rest) (List.cons_ne_nil _ _) reads fuel
        (by omega) tail
      rw [parts] at inside
      rw [text, parts, List.cons_append, List.append_assoc]
      exact termAt_array dark opens inside
  | object members =>
    rw [text, List.length_cons, List.length_append, List.length_singleton] at enough
    cases members with
    | nil => rfl
    | cons member rest =>
      obtain ⟨key, value⟩ := member
      have inside := membersAt_text ((key, value) :: rest) (List.cons_ne_nil _ _) reads fuel
        (by omega) tail
      obtain ⟨others, parts⟩ := head_membersText key value rest
      rw [parts] at inside
      rw [text, parts, List.cons_append, List.append_assoc]
      exact termAt_object inside
termination_by structural value

theorem itemsAt_text (items : List Json) (nonempty : items ≠ [])
    (reads : ∀ number ∈ itemsNumbers items, number.ReadsBack) (fuel : Nat)
    (enough : 2 * (itemsText items).length + 2 ≤ fuel) (tail : List Char) :
    itemsAt fuel (itemsText items ++ ']' :: tail) = some (itemsToTerm items, tail) := by
  obtain ⟨fuel, rfl⟩ : ∃ less, fuel = less + 1 := ⟨fuel - 1, by omega⟩
  cases items with
  | nil => exact absurd rfl nonempty
  | cons item rest =>
    have own : ∀ number ∈ item.numbers, number.ReadsBack :=
      fun number member => reads number (List.mem_append_left _ member)
    cases rest with
    | nil =>
      rw [itemsText] at enough ⊢
      rw [itemsAt, termAt_text item own fuel (by omega) (follows_cons (Or.inr (Or.inl rfl)) tail)]
      rfl
    | cons next rest =>
      rw [itemsText, List.length_append, List.length_cons] at enough
      have first := termAt_text item own fuel (by omega)
        (follows_cons (Or.inl rfl) (itemsText (next :: rest) ++ ']' :: tail))
      have later := itemsAt_text (next :: rest) (List.cons_ne_nil _ _)
        (fun number member => reads number (List.mem_append_right _ member)) fuel
        (by omega) tail
      rw [itemsText, List.append_assoc, List.cons_append, itemsAt, first]
      simp only [skipSpace_cons (c := ',') rfl, later, Option.map_some]
      rfl
termination_by structural items

theorem membersAt_text (members : List (String × Json)) (nonempty : members ≠ [])
    (reads : ∀ number ∈ membersNumbers members, number.ReadsBack) (fuel : Nat)
    (enough : 2 * (membersText members).length + 2 ≤ fuel) (tail : List Char) :
    membersAt fuel (membersText members ++ '\x7d' :: tail) =
      some (membersToTerm members, tail) := by
  obtain ⟨fuel, rfl⟩ : ∃ less, fuel = less + 1 := ⟨fuel - 1, by omega⟩
  cases members with
  | nil => exact absurd rfl nonempty
  | cons member rest =>
    obtain ⟨key, value⟩ := member
    have own : ∀ number ∈ value.numbers, number.ReadsBack :=
      fun number member => reads number (List.mem_append_left _ member)
    cases rest with
    | nil =>
      rw [membersText, List.length_append, List.length_cons] at enough
      have read := termAt_text value own fuel (by omega)
        (follows_cons (Or.inr (Or.inr rfl)) tail)
      rw [membersText, List.append_assoc, List.cons_append]
      exact membersAt_last read
    | cons next rest =>
      rw [membersText, List.length_append, List.length_cons, List.length_append, List.length_cons]
        at enough
      have read := termAt_text value own fuel (by omega)
        (follows_cons (Or.inl rfl) (membersText (next :: rest) ++ '\x7d' :: tail))
      have later := membersAt_text (next :: rest) (List.cons_ne_nil _ _)
        (fun number member => reads number (List.mem_append_right _ member)) fuel (by omega) tail
      rw [membersText, List.append_assoc, List.cons_append, List.append_assoc, List.cons_append]
      exact membersAt_next read later
termination_by structural members

end

/-- The compact text of a value holds its term. -/
theorem Term.ofText?_compact (value : Json) (reads : ∀ number ∈ value.numbers, number.ReadsBack) :
    Term.ofText? (compact value).toList = some (toTerm value) := by
  have read := termAt_text value reads (2 * (text value).length + 1) (Nat.le_refl _) follows_nil
  rw [List.append_nil] at read
  rw [compact, String.toList_ofList, Term.ofText?, read]
  rfl

/-- A numeral is the number it is read as, if there is one. -/
theorem ofText?_numeralText {numeral : Number.Numeral} (spelled : IsNumeral numeral) :
    ofText? (Clause.numeralText numeral) = (numberOf? numeral).map .number := by
  rw [ofText?, Term.ofText?, termAt_numeral (numeral_numeralText spelled)]
  cases numberOf? numeral <;> rfl

end Json

end SelectorLang
