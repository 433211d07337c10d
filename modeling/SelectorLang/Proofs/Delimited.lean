import SelectorLang.Escape
import SelectorLang.Literal
import SelectorLang.Proofs.Reading

set_option autoImplicit false

namespace SelectorLang

/-- A sequence of units none of which closes the literal. -/
inductive Body (closes : Char → Bool) : List Char → Prop where
  | nil : Body closes []
  | pair (c : Char) (rest : List Char) (taken : c ≠ '\n') (body : Body closes rest) :
      Body closes ('\\' :: c :: rest)
  | plain (c : Char) (rest : List Char) (unescaped : c ≠ '\\') (inside : closes c = false)
      (body : Body closes rest) : Body closes (c :: rest)

namespace Body

variable {closes : Char → Bool}

theorem append {front back : List Char} (left : Body closes front) (right : Body closes back) :
    Body closes (front ++ back) := by
  induction left with
  | nil => exact right
  | pair c rest taken _ ih => exact .pair c (rest ++ back) taken ih
  | plain c rest unescaped inside _ ih => exact .plain c (rest ++ back) unescaped inside ih

/-- A character that is no backslash is a unit of its own. -/
theorem tail {c : Char} {rest : List Char} (units : Body closes (c :: rest))
    (unescaped : c ≠ '\\') :
    closes c = false ∧ Body closes rest := by
  cases units with
  | pair => exact absurd rfl unescaped
  | plain _ _ _ inside others => exact ⟨inside, others⟩

theorem mono {fewer : Char → Bool} {text : List Char} (units : Body closes text)
    (weaker : ∀ c, closes c = false → fewer c = false) : Body fewer text := by
  induction units with
  | nil => exact .nil
  | pair c rest taken _ ih => exact .pair c rest taken ih
  | plain c rest unescaped inside _ ih => exact .plain c rest unescaped (weaker c inside) ih

/-- Text without backslashes and closing delimiters is a body. -/
theorem of_all {text : List Char} (plain : ∀ c ∈ text, c ≠ '\\' ∧ closes c = false) :
    Body closes text := by
  induction text with
  | nil => exact .nil
  | cons c rest ih =>
    obtain ⟨unescaped, inside⟩ := plain c List.mem_cons_self
    exact .plain c rest unescaped inside
      (ih (fun d member => plain d (List.mem_cons_of_mem c member)))

end Body

theorem LiteralKind.escape_append (kind : LiteralKind) (front back : List Char) :
    kind.escape (front ++ back) = kind.escape front ++ kind.escape back := by
  induction front with
  | nil => rfl
  | cons c rest ih =>
    rw [List.cons_append, escape, escape, ih]
    split
    · rfl
    · rfl

/-- Unescaping takes no character away without leaving the one behind it. -/
theorem LiteralKind.unescape_ne_nil (kind : LiteralKind) {body : List Char} (nonempty : body ≠ []) :
    kind.unescape body ≠ [] := by
  fun_cases kind.unescape body with
  | case1 => exact absurd rfl nonempty
  | case2 => exact List.cons_ne_nil _ _
  | case3 => exact List.cons_ne_nil _ _
  | case4 => exact List.cons_ne_nil _ _

theorem LiteralKind.escape_ne_nil (kind : LiteralKind) {text : List Char} (nonempty : text ≠ []) :
    kind.escape text ≠ [] := by
  intro empty
  have written := kind.unescape_escape text
  rw [empty] at written
  exact nonempty written.symm

/-- Escaping adds backslashes only. -/
theorem LiteralKind.forall_escape (kind : LiteralKind) {holds : Char → Prop}
    (backslash : holds '\\')
    {text : List Char} (own : ∀ c ∈ text, holds c) : ∀ c ∈ kind.escape text, holds c := by
  induction text with
  | nil => exact own
  | cons c rest ih =>
    obtain ⟨first, others⟩ := List.forall_mem_cons.mp own
    rw [escape]
    split
    · exact List.forall_mem_cons.mpr ⟨backslash, List.forall_mem_cons.mpr ⟨first, ih others⟩⟩
    · exact List.forall_mem_cons.mpr ⟨first, ih others⟩

theorem LiteralKind.mem_of_mem_unescape (kind : LiteralKind) {c : Char} {text : List Char}
    (member : c ∈ kind.unescape text) : c ∈ text := by
  fun_induction kind.unescape text with
  | case1 => exact member
  | case2 => exact member
  | case3 d next rest _ ih =>
    rcases List.mem_cons.mp member with rfl | later
    · exact List.mem_cons_of_mem d List.mem_cons_self
    · exact List.mem_cons_of_mem d (List.mem_cons_of_mem next (ih later))
  | case4 d next rest _ ih =>
    rcases List.mem_cons.mp member with rfl | later
    · exact List.mem_cons_self
    · exact List.mem_cons_of_mem d (ih later)

/-- A space is never unescaped, so the text on either side is unescaped apart. -/
theorem LiteralKind.unescape_append_space (kind : LiteralKind) (word text : List Char) :
    kind.unescape (word ++ ' ' :: text) = kind.unescape word ++ ' ' :: kind.unescape text := by
  have space : ∀ rest, kind.unescape (' ' :: rest) = ' ' :: kind.unescape rest := by
    intro rest
    cases rest with
    | nil => rfl
    | cons next others => rfl
  have kept : (' ' == '\\' || kind.isDelimiter ' ') = false := by
    cases kind <;> rfl
  fun_induction kind.unescape word with
  | case1 => exact space text
  | case2 c =>
    simp only [List.cons_append, List.nil_append, unescape, kept, Bool.and_false,
      Bool.false_eq_true, ↓reduceIte, space]
  | case3 c next rest special ih =>
    simp only [List.cons_append, unescape, special, ↓reduceIte, ih]
  | case4 c next rest ordinary ih =>
    simp only [List.cons_append] at ih ⊢
    simp only [unescape, ordinary, Bool.false_eq_true, ↓reduceIte, ih]

theorem LiteralKind.body_escape_of_outside (kind : LiteralKind) {closes : Char → Bool}
    {text : List Char} (outside : ∀ c ∈ text, kind.isDelimiter c = false → closes c = false) :
    Body closes (kind.escape text) := by
  induction text with
  | nil => exact .nil
  | cons c rest ih =>
    have later := ih (fun d member => outside d (List.mem_cons_of_mem c member))
    rw [escape]
    split
    · rename_i special
      refine .pair c _ ?_ later
      rintro rfl
      cases kind <;> exact absurd special (by decide)
    · rename_i ordinary
      rw [Bool.not_eq_true, Bool.or_eq_false_iff] at ordinary
      exact .plain c _ (beq_eq_false_iff_ne.mp ordinary.1)
        (outside c List.mem_cons_self ordinary.2) later

/-- Escaped text never closes its literal. -/
theorem LiteralKind.body_escape (kind : LiteralKind) (text : List Char) :
    Body kind.isDelimiter (kind.escape text) :=
  kind.body_escape_of_outside (fun _ _ inside => inside)

namespace Reader

variable {closes : Char → Bool}

/-- A run goes on behind a body. -/
theorem go_body_append {body : List Char} (units : Body closes body) (rest : List Char) :
    escapedRun.go closes (body ++ rest) =
      (body ++ (escapedRun.go closes rest).1, (escapedRun.go closes rest).2) := by
  induction units with
  | nil => rfl
  | pair c body taken _ ih =>
    simp only [List.cons_append, escapedRun.go, beq_self_eq_true, beq_iff_eq, taken, ↓reduceIte, ih]
  | plain c body unescaped inside _ ih =>
    rw [List.cons_append, List.cons_append]
    cases parts : body ++ rest with
    | nil =>
      obtain ⟨rfl, rfl⟩ := List.append_eq_nil_iff.mp parts
      simp only [escapedRun.go, beq_eq_false_iff_ne.mpr unescaped, inside, Bool.or_self,
        Bool.false_eq_true, ↓reduceIte, List.append_nil]
    | cons next others =>
      rw [parts] at ih
      simp only [escapedRun.go, beq_iff_eq, unescaped, inside, Bool.false_eq_true, ↓reduceIte, ih]

/-- A run ends in front of a closing character. -/
theorem go_closing {c : Char} (unescaped : c ≠ '\\') (closing : closes c = true)
    (rest : List Char) :
    escapedRun.go closes (c :: rest) = ([], c :: rest) := by
  cases rest with
  | nil => simp only [escapedRun.go, closing, Bool.or_true, ↓reduceIte]
  | cons next others => simp only [escapedRun.go, beq_iff_eq, unescaped, closing, ↓reduceIte]

theorem go_append {body : List Char} (units : Body closes body) (c : Char) (rest : List Char)
    (unescaped : c ≠ '\\') (closing : closes c = true) :
    escapedRun.go closes (body ++ c :: rest) = (body, c :: rest) := by
  rw [go_body_append units, go_closing unescaped closing, List.append_nil]

theorem go_body (closes : Char → Bool) (text : List Char) :
    text = (escapedRun.go closes text).1 ++ (escapedRun.go closes text).2 ∧
      Body closes (escapedRun.go closes text).1 := by
  fun_induction escapedRun.go closes text with
  | case1 => exact ⟨rfl, .nil⟩
  | case2 => exact ⟨rfl, .nil⟩
  | case3 c plain =>
    rw [Bool.not_eq_true, Bool.or_eq_false_iff] at plain
    exact ⟨rfl, .plain c [] (beq_eq_false_iff_ne.mp plain.1) plain.2 .nil⟩
  | case4 => exact ⟨rfl, .nil⟩
  | case5 c next rest backslash other body after result ih =>
    rw [result] at ih
    rw [beq_iff_eq] at backslash other
    rw [backslash]
    exact ⟨by rw [ih.1]; rfl, .pair next body other ih.2⟩
  | case6 => exact ⟨rfl, .nil⟩
  | case7 c next rest plain inside body after result ih =>
    rw [result] at ih
    rw [beq_iff_eq] at plain
    rw [Bool.not_eq_true] at inside
    exact ⟨by rw [ih.1]; rfl, .plain c body plain inside ih.2⟩

theorem takes_escapedRun (closes : Char → Bool) :
    Takes (escapedRun closes) (fun lexeme value => lexeme = value ∧ Body closes value) := by
  intro text value rest success
  have facts := go_body closes text
  simp only [escapedRun, Option.some.injEq] at success
  rw [success] at facts
  exact ⟨value, facts.1, rfl, facts.2⟩

theorem takes_escapedRun1 (closes : Char → Bool) :
    Takes (escapedRun1 closes)
      (fun lexeme value => lexeme = value ∧ value ≠ [] ∧ Body closes value) := by
  intro text value rest success
  rw [escapedRun1, bind_apply, Option.bind_eq_some_iff] at success
  obtain ⟨⟨body, after⟩, found, checked⟩ := success
  obtain ⟨lexeme, parts, rfl, units⟩ := takes_escapedRun closes text body after found
  split at checked
  · cases checked
  · rename_i nonempty
    cases checked
    exact ⟨lexeme, parts, rfl, by simpa using nonempty, units⟩

theorem escapedRun_append {body : List Char} (units : Body closes body) (c : Char)
    (rest : List Char) (unescaped : c ≠ '\\') (closing : closes c = true) :
    escapedRun closes (body ++ c :: rest) = some (body, c :: rest) := by
  rw [escapedRun, go_append units c rest unescaped closing]

theorem escapedRun1_append {body : List Char} (units : Body closes body) (nonempty : body ≠ [])
    (c : Char) (rest : List Char) (unescaped : c ≠ '\\') (closing : closes c = true) :
    escapedRun1 closes (body ++ c :: rest) = some (body, c :: rest) := by
  rw [escapedRun1, bind_of_some _ (escapedRun_append units c rest unescaped closing)]
  simp only [List.isEmpty_iff, nonempty, ↓reduceIte, pure_apply]

theorem quoted_append {body : List Char} (units : Body (· == '"') body) (rest : List Char) :
    quoted ('"' :: (body ++ '"' :: rest)) = some (body, rest) := by
  rw [quoted, bind_of_some _ (exactly_singleton '"' (body ++ '"' :: rest)),
    bind_of_some _ (escapedRun_append units '"' rest (by decide) rfl),
    bind_of_some _ (exactly_singleton '"' rest)]
  rfl

theorem quoted1_append {body : List Char} (units : Body (· == '"') body) (nonempty : body ≠ [])
    (rest : List Char) : quoted1 ('"' :: (body ++ '"' :: rest)) = some (body, rest) := by
  rw [quoted1, bind_of_some _ (quoted_append units rest)]
  simp only [List.isEmpty_iff, nonempty, ↓reduceIte, pure_apply]

theorem slashed_append {body : List Char} (units : Body (· == '/') body) (nonempty : body ≠ [])
    (rest : List Char) : slashed ('/' :: (body ++ '/' :: rest)) = some (body, rest) := by
  rw [slashed, bind_of_some _ (exactly_singleton '/' (body ++ '/' :: rest)),
    bind_of_some _ (escapedRun1_append units nonempty '/' rest (by decide) rfl),
    bind_of_some _ (exactly_singleton '/' rest)]
  rfl

theorem takes_quoted :
    Takes quoted (fun lexeme body => lexeme = '"' :: (body ++ ['"']) ∧ Body (· == '"') body) := by
  refine ((takes_exactly ['"']).bind (fun _ => (takes_escapedRun (· == '"')).bind
    (fun body => (takes_exactly ['"']).bind (fun _ => takes_pure body)))).mono ?_
  rintro _ _ ⟨_, _, _, rfl, rfl, _, body, _, rfl, ⟨rfl, units⟩, _, _, _, rfl, rfl, rfl, rfl⟩
  exact ⟨by simp, units⟩

theorem takes_quoted1 :
    Takes quoted1 (fun lexeme body =>
      lexeme = '"' :: (body ++ ['"']) ∧ body ≠ [] ∧ Body (· == '"') body) := by
  intro text value rest success
  rw [quoted1, bind_apply, Option.bind_eq_some_iff] at success
  obtain ⟨⟨body, after⟩, found, checked⟩ := success
  obtain ⟨lexeme, parts, shape, units⟩ := takes_quoted text body after found
  split at checked
  · cases checked
  · rename_i nonempty
    cases checked
    exact ⟨lexeme, parts, shape, by simpa using nonempty, units⟩

theorem takes_slashed :
    Takes slashed (fun lexeme body =>
      lexeme = '/' :: (body ++ ['/']) ∧ body ≠ [] ∧ Body (· == '/') body) := by
  refine ((takes_exactly ['/']).bind (fun _ => (takes_escapedRun1 (· == '/')).bind
    (fun body => (takes_exactly ['/']).bind (fun _ => takes_pure body)))).mono ?_
  rintro _ _ ⟨_, _, _, rfl, rfl, _, body, _, rfl, ⟨rfl, nonempty, units⟩, _, _, _, rfl, rfl, rfl,
    rfl⟩
  exact ⟨by simp, nonempty, units⟩

end Reader

end SelectorLang
