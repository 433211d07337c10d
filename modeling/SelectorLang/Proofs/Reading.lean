import SelectorLang.Text.Reader

set_option autoImplicit false

namespace SelectorLang.Reader

variable {α β : Type}

@[simp] theorem pure_apply (value : α) (text : List Char) :
    (pure value : Reader α) text = some (value, text) := rfl

@[simp] theorem failure_apply (text : List Char) : (failure : Reader α) text = none := rfl

theorem bind_apply (reader : Reader α) (next : α → Reader β) (text : List Char) :
    (reader >>= next) text = (reader text).bind (fun found => next found.1 found.2) := rfl

theorem bind_of_some {reader : Reader α} {text rest : List Char} {value : α}
    (next : α → Reader β) (found : reader text = some (value, rest)) :
    (reader >>= next) text = next value rest := by
  rw [bind_apply, found, Option.bind_some]

theorem bind_of_none {reader : Reader α} {text : List Char} (next : α → Reader β)
    (failed : reader text = none) : (reader >>= next) text = none := by
  rw [bind_apply, failed, Option.bind_none]

theorem orElse_apply (first second : Reader α) (text : List Char) :
    (first <|> second) text = (first text).or (second text) := by
  show (first text <|> second text) = _
  cases first text <;> rfl

theorem map_apply (f : α → β) (reader : Reader α) (text : List Char) :
    (f <$> reader) text = (reader text).map (fun found => (f found.1, found.2)) := by
  show (reader text).bind (fun found => some (f found.1, found.2)) = _
  cases reader text <;> rfl

/-- A text that a run over a class does not go on into. -/
def Stops (accepts : Char → Bool) (text : List Char) : Prop :=
  ∀ c ∈ text.head?, accepts c = false

theorem stops_nil (accepts : Char → Bool) : Stops accepts [] := by
  intro c member
  cases member

theorem stops_cons {accepts : Char → Bool} {c : Char} (refused : accepts c = false)
    (rest : List Char) : Stops accepts (c :: rest) := by
  intro d member
  cases member
  exact refused

theorem stops_cons_ne {mark c : Char} (differs : c ≠ mark) (rest : List Char) :
    Stops (· == mark) (c :: rest) := by
  intro d member
  cases member
  exact beq_eq_false_iff_ne.mpr differs

theorem Stops.append {accepts : Char → Bool} {front : List Char} (nonempty : front ≠ [])
    (stops : Stops accepts front) (rest : List Char) : Stops accepts (front ++ rest) := by
  cases front with
  | nil => exact absurd rfl nonempty
  | cons c others => exact stops_cons (stops c rfl) _

theorem Stops.takeWhile {accepts : Char → Bool} {text : List Char} (stops : Stops accepts text) :
    text.takeWhile accepts = [] := by
  cases text with
  | nil => rfl
  | cons c rest => simp only [List.takeWhile_cons, stops c rfl, Bool.false_eq_true, ↓reduceIte]

theorem Stops.dropWhile {accepts : Char → Bool} {text : List Char} (stops : Stops accepts text) :
    text.dropWhile accepts = text := by
  cases text with
  | nil => rfl
  | cons c rest => simp only [List.dropWhile_cons, stops c rfl, Bool.false_eq_true, ↓reduceIte]

theorem ne_of_accepted {accepts : Char → Bool} {c d : Char} (accepted : accepts c = true)
    (refused : accepts d = false) : c ≠ d := by
  intro same
  rw [same, refused] at accepted
  cases accepted

/-- Of two classes that have nothing in common a character is in one at most. -/
theorem refused_of_accepted {accepts refuses : Char → Bool}
    (apart : ∀ c, refuses c = true → accepts c = false) {c : Char} (accepted : accepts c = true) :
    refuses c = false := by
  cases other : refuses c with
  | false => rfl
  | true =>
    rw [apart c other] at accepted
    cases accepted

theorem not_mem_of_all {accepts : Char → Bool} {chars : List Char} (all : chars.all accepts = true)
    {c : Char} (refused : accepts c = false) : c ∉ chars := by
  intro member
  rw [List.all_eq_true.mp all c member] at refused
  cases refused

theorem satisfy_cons {accepts : Char → Bool} {c : Char} (accepted : accepts c = true)
    (rest : List Char) : satisfy accepts (c :: rest) = some (c, rest) := by
  simp only [satisfy, accepted, ↓reduceIte]

theorem satisfy_of_stops {accepts : Char → Bool} {text : List Char} (stops : Stops accepts text) :
    satisfy accepts text = none := by
  cases text with
  | nil => rfl
  | cons c rest => simp only [satisfy, stops c rfl, Bool.false_eq_true, ↓reduceIte]

theorem exactly_append (expected rest : List Char) :
    exactly expected (expected ++ rest) = some ((), rest) := by
  have front : expected.isPrefixOf (expected ++ rest) = true := by
    rw [List.isPrefixOf_iff_prefix]
    exact List.prefix_append expected rest
  simp only [exactly, front, ↓reduceIte, List.drop_left]

theorem exactly_singleton (c : Char) (rest : List Char) :
    exactly [c] (c :: rest) = some ((), rest) :=
  exactly_append [c] rest

theorem exactly_of_mismatch {expected text : List Char}
    (other : expected.isPrefixOf text = false) : exactly expected text = none := by
  simp only [exactly, other, Bool.false_eq_true, ↓reduceIte]

theorem exactly_of_ne {first c : Char} (differs : first ≠ c) (others rest : List Char) :
    exactly (first :: others) (c :: rest) = none := by
  apply exactly_of_mismatch
  rw [List.isPrefixOf_cons_cons, beq_eq_false_iff_ne.mpr differs, Bool.false_and]

theorem exactly_cons (c : Char) (others rest : List Char) :
    exactly (c :: others) (c :: rest) = exactly others rest := by
  simp only [exactly, List.isPrefixOf_cons_cons, BEq.rfl, Bool.true_and, List.length_cons,
    List.drop_succ_cons]

theorem exactly_of_stops {c : Char} {others text : List Char} (stops : Stops (· == c) text) :
    exactly (c :: others) text = none := by
  cases text with
  | nil => rfl
  | cons first rest =>
    have differs : first ≠ c := beq_eq_false_iff_ne.mp (stops first rfl)
    exact exactly_of_ne differs.symm others rest

theorem run_append {accepts : Char → Bool} {items rest : List Char}
    (accepted : items.all accepts = true) (stops : Stops accepts rest) :
    run accepts (items ++ rest) = some (items, rest) := by
  have every : ∀ c ∈ items, accepts c = true := List.all_eq_true.mp accepted
  simp only [run, List.takeWhile_append_of_pos every, List.dropWhile_append_of_pos every,
    stops.takeWhile, stops.dropWhile, List.append_nil]

theorem run1_append {accepts : Char → Bool} {items rest : List Char} (nonempty : items ≠ [])
    (accepted : items.all accepts = true) (stops : Stops accepts rest) :
    run1 accepts (items ++ rest) = some (items, rest) := by
  cases items with
  | nil => exact absurd rfl nonempty
  | cons first others =>
    rw [List.all_cons, Bool.and_eq_true] at accepted
    simp only [run1, List.cons_append, bind_apply, satisfy_cons accepted.1, Option.bind_some,
      run_append accepted.2 stops, pure_apply]

theorem run1_of_stops {accepts : Char → Bool} {text : List Char} (stops : Stops accepts text) :
    run1 accepts text = none :=
  bind_of_none _ (satisfy_of_stops stops)

theorem flag_cons_self (mark : Char) (rest : List Char) :
    flag mark (mark :: rest) = some (true, rest) := by
  simp only [flag, ↓reduceIte]

theorem flag_of_stops {mark : Char} {text : List Char} (stops : Stops (· == mark) text) :
    flag mark text = some (false, text) := by
  cases text with
  | nil => rfl
  | cons c rest =>
    have differs : c ≠ mark := beq_eq_false_iff_ne.mp (stops c rfl)
    simp only [flag, differs, ↓reduceIte]

theorem flag_cons_other {mark c : Char} (differs : c ≠ mark) (rest : List Char) :
    flag mark (c :: rest) = some (false, c :: rest) := by
  simp only [flag, differs, ↓reduceIte]

theorem readAll_of_some {reader : Reader α} {text : List Char} {value : α}
    (found : reader text = some (value, [])) : reader.readAll text = some value := by
  rw [readAll, found]

theorem readAll_of_none {reader : Reader α} {text : List Char} (failed : reader text = none) :
    reader.readAll text = none := by
  rw [readAll, failed]

/-- Every success takes a lexeme off the front of the text, and the lexeme and the answer have the
shape. -/
def Takes (reader : Reader α) (shape : List Char → α → Prop) : Prop :=
  ∀ text value rest, reader text = some (value, rest) →
    ∃ lexeme, text = lexeme ++ rest ∧ shape lexeme value

variable {shape : List Char → α → Prop}

theorem Takes.mono {reader : Reader α} {wider : List Char → α → Prop}
    (takes : Takes reader shape)
    (weaker : ∀ lexeme value, shape lexeme value → wider lexeme value) :
    Takes reader wider := by
  intro text value rest found
  obtain ⟨lexeme, parts, fits⟩ := takes text value rest found
  exact ⟨lexeme, parts, weaker lexeme value fits⟩

theorem takes_pure (value : α) :
    Takes (pure value : Reader α) (fun lexeme found => lexeme = [] ∧ found = value) := by
  intro text found rest success
  cases success
  exact ⟨[], rfl, rfl, rfl⟩

theorem takes_failure : Takes (failure : Reader α) shape := by
  intro text value rest success
  cases success

theorem Takes.bind {reader : Reader α} {next : α → Reader β} {after : α → List Char → β → Prop}
    (first : Takes reader shape) (second : ∀ value, Takes (next value) (after value)) :
    Takes (reader >>= next) (fun lexeme answer => ∃ front value back,
      lexeme = front ++ back ∧ shape front value ∧ after value back answer) := by
  intro text answer rest success
  rw [bind_apply, Option.bind_eq_some_iff] at success
  obtain ⟨⟨value, middle⟩, found, continued⟩ := success
  obtain ⟨front, frontParts, frontFits⟩ := first text value middle found
  obtain ⟨back, backParts, backFits⟩ := second value middle answer rest continued
  refine ⟨front ++ back, ?_, front, value, back, rfl, frontFits, backFits⟩
  rw [frontParts, backParts, List.append_assoc]

theorem Takes.answer {reader : Reader α} {next : α → Reader β} {holds : β → Prop}
    (first : Takes reader shape) (second : ∀ value, Takes (next value) (fun _ => holds)) :
    Takes (reader >>= next) (fun _ => holds) := by
  refine (first.bind second).mono ?_
  rintro _ _ ⟨_, _, _, _, _, answered⟩
  exact answered

theorem Takes.answer_of {reader : Reader α} {next : α → Reader β} {known : α → Prop}
    {holds : β → Prop} (first : Takes reader (fun _ => known))
    (second : ∀ value, known value → Takes (next value) (fun _ => holds)) :
    Takes (reader >>= next) (fun _ => holds) := by
  intro text answer rest success
  rw [bind_apply, Option.bind_eq_some_iff] at success
  obtain ⟨⟨value, middle⟩, found, continued⟩ := success
  obtain ⟨front, frontParts, fits⟩ := first text value middle found
  obtain ⟨back, backParts, answered⟩ := second value fits middle answer rest continued
  refine ⟨front ++ back, ?_, answered⟩
  rw [frontParts, backParts, List.append_assoc]

theorem Takes.then_pure {reader : Reader α} {fits : List Char → Prop}
    (takes : Takes reader (fun lexeme _ => fits lexeme)) (answer : α → β) :
    Takes (reader >>= fun value => pure (answer value)) (fun lexeme _ => fits lexeme) := by
  refine (takes.bind (fun value => takes_pure (answer value))).mono ?_
  rintro _ _ ⟨front, value, _, rfl, fitting, rfl, rfl⟩
  rwa [List.append_nil]

theorem Takes.orElse {first second : Reader α} (left : Takes first shape)
    (right : Takes second shape) : Takes (first <|> second) shape := by
  intro text value rest success
  rw [orElse_apply, Option.or_eq_some_iff] at success
  rcases success with found | ⟨_, found⟩
  · exact left text value rest found
  · exact right text value rest found

theorem Takes.map {reader : Reader α} (takes : Takes reader shape) (f : α → β) :
    Takes (f <$> reader) (fun lexeme answer => ∃ value, shape lexeme value ∧ answer = f value) := by
  intro text answer rest success
  rw [map_apply, Option.map_eq_some_iff] at success
  obtain ⟨⟨value, _⟩, found, same⟩ := success
  cases same
  obtain ⟨lexeme, parts, fits⟩ := takes text value _ found
  exact ⟨lexeme, parts, value, fits, rfl⟩

theorem takes_satisfy (accepts : Char → Bool) :
    Takes (satisfy accepts) (fun lexeme c => lexeme = [c] ∧ accepts c = true) := by
  intro text c rest success
  cases text with
  | nil => cases success
  | cons d others =>
    simp only [satisfy] at success
    split at success
    · rename_i accepted
      cases success
      exact ⟨[c], rfl, rfl, accepted⟩
    · cases success

theorem takes_exactly (expected : List Char) :
    Takes (exactly expected) (fun lexeme _ => lexeme = expected) := by
  intro text value rest success
  simp only [exactly] at success
  split at success
  · rename_i front
    rw [List.isPrefixOf_iff_prefix] at front
    obtain ⟨others, parts⟩ := front
    cases success
    refine ⟨expected, ?_, rfl⟩
    rw [← parts, List.drop_left]
  · cases success

theorem takes_run (accepts : Char → Bool) :
    Takes (run accepts) (fun lexeme value => lexeme = value ∧ value.all accepts = true) := by
  intro text value rest success
  cases success
  refine ⟨text.takeWhile accepts, List.takeWhile_append_dropWhile.symm, rfl, ?_⟩
  exact List.all_takeWhile

theorem takes_run1 (accepts : Char → Bool) :
    Takes (run1 accepts)
      (fun lexeme value => lexeme = value ∧ value ≠ [] ∧ value.all accepts = true) := by
  refine ((takes_satisfy accepts).bind
    (fun first => (takes_run accepts).bind (fun others => takes_pure (first :: others)))).mono ?_
  rintro lexeme value ⟨_, first, _, rfl, ⟨rfl, accepted⟩, _, others, _, rfl, ⟨rfl, all⟩, rfl, rfl⟩
  refine ⟨by simp only [List.append_nil, List.singleton_append], List.cons_ne_nil _ _, ?_⟩
  rw [List.all_cons, accepted, all, Bool.and_self]

theorem takes_flag (mark : Char) :
    Takes (flag mark) (fun lexeme found => lexeme = if found then [mark] else []) := by
  intro text found rest success
  cases text with
  | nil => cases success; exact ⟨[], rfl, rfl⟩
  | cons c others =>
    simp only [flag] at success
    split at success
    · rename_i same
      cases success
      exact ⟨[mark], by rw [same]; rfl, rfl⟩
    · cases success
      exact ⟨[], rfl, rfl⟩

variable {tail : List Char}

/-- The reader reads in front of the tail as it reads where nothing follows, and leaves the tail. -/
def Frames (tail : List Char) (reader : Reader α) : Prop :=
  ∀ text, reader (text ++ tail) = (reader text).map (fun found => (found.1, found.2 ++ tail))

theorem frames_pure (value : α) : Frames tail (pure value : Reader α) := fun _ => rfl

theorem frames_failure : Frames tail (failure : Reader α) := fun _ => rfl

theorem Frames.bind {reader : Reader α} {next : α → Reader β} (first : Frames tail reader)
    (second : ∀ value, Frames tail (next value)) : Frames tail (reader >>= next) := by
  intro text
  rw [bind_apply, bind_apply, first text]
  cases reader text with
  | none => rfl
  | some found => exact second found.1 found.2

theorem Frames.orElse {first second : Reader α} (left : Frames tail first)
    (right : Frames tail second) : Frames tail (first <|> second) := by
  intro text
  rw [orElse_apply, orElse_apply, left text, right text]
  cases first text <;> rfl

theorem Frames.map {reader : Reader α} (frames : Frames tail reader) (f : α → β) :
    Frames tail (f <$> reader) := by
  intro text
  rw [map_apply, map_apply, frames text, Option.map_map, Option.map_map]
  rfl

theorem Frames.ite (condition : Prop) [Decidable condition] {first second : Reader α}
    (left : Frames tail first) (right : Frames tail second) :
    Frames tail (if condition then first else second) := by
  split
  · exact left
  · exact right

theorem frames_satisfy {accepts : Char → Bool} (stops : Stops accepts tail) :
    Frames tail (satisfy accepts) := by
  intro text
  cases text with
  | nil => exact satisfy_of_stops stops
  | cons c rest =>
    rw [List.cons_append, satisfy, satisfy]
    split <;> rfl

theorem frames_run {accepts : Char → Bool} (stops : Stops accepts tail) :
    Frames tail (run accepts) := by
  intro text
  induction text with
  | nil => simp only [run, List.nil_append, stops.takeWhile, stops.dropWhile, List.takeWhile_nil,
      List.dropWhile_nil, Option.map_some]
  | cons c rest ih =>
    simp only [run, Option.map_some, Option.some.injEq, Prod.mk.injEq] at ih
    simp only [run, List.cons_append, List.takeWhile_cons, List.dropWhile_cons]
    cases accepts c with
    | true => simp only [↓reduceIte, ih.1, ih.2, Option.map_some]
    | false => rfl

theorem frames_run1 {accepts : Char → Bool} (stops : Stops accepts tail) :
    Frames tail (run1 accepts) :=
  (frames_satisfy stops).bind (fun _ => (frames_run stops).bind (fun _ => frames_pure _))

theorem frames_flag {mark : Char} (stops : Stops (· == mark) tail) : Frames tail (flag mark) := by
  intro text
  cases text with
  | nil => exact flag_of_stops stops
  | cons c rest =>
    rw [List.cons_append, flag, flag]
    split <;> rfl

/-- A reader that looks at the next character, fails for some and reads none. -/
theorem frames_unless {refused : Char → Bool} (stops : Stops refused tail)
    {next : List Char → Reader α} (value : α) (empty : next [] = pure value)
    (front : ∀ c rest, next (c :: rest) = if refused c then failure else pure value) :
    Frames tail (get >>= next) := by
  have looks : ∀ text, (get >>= next : Reader α) text = next text text := fun _ => rfl
  intro text
  rw [looks, looks]
  cases text with
  | nil =>
    rw [List.nil_append, empty]
    cases tail with
    | nil => rw [empty]; rfl
    | cons c rest => rw [front, stops c rfl]; rfl
  | cons c rest =>
    rw [List.cons_append, front, front]
    split <;> rfl

end SelectorLang.Reader
