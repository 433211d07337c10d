import SelectorLang.Proofs.Delimited

set_option autoImplicit false

namespace SelectorLang

namespace LiteralKind

def closing : LiteralKind → Char
  | .quote => '"'
  | .angle => '>'
  | .curly => '\x7d'

/-- The offsets of the bare delimiters of a text that begins at an offset; `taken` tells whether a
backslash in front of the text makes a pair with its first character. -/
def bareFrom (kind : LiteralKind) : Bool → Nat → List Char → List Nat
  | _, _, [] => []
  | true, offset, _ :: rest => kind.bareFrom false (offset + 1) rest
  | false, offset, c :: rest =>
    if c == '\\' then kind.bareFrom true (offset + 1) rest
    else if kind.isDelimiter c then offset :: kind.bareFrom false (offset + 1) rest
    else kind.bareFrom false (offset + 1) rest

theorem isDelimiter_closing (kind : LiteralKind) : kind.isDelimiter kind.closing = true := by
  cases kind <;> rfl

theorem closing_ne_backslash (kind : LiteralKind) : kind.closing ≠ '\\' := by
  cases kind <;> decide

/-- In a body there is no bare delimiter, and none of its backslashes takes what stands behind
it. -/
theorem bareFrom_body {kind : LiteralKind} {body : List Char} (units : Body kind.isDelimiter body)
    (offset : Nat) (rest : List Char) :
    kind.bareFrom false offset (body ++ rest) =
      kind.bareFrom false (offset + body.length) rest := by
  induction units generalizing offset with
  | nil => rfl
  | pair c body _ _ ih =>
    have step : kind.bareFrom false offset ('\\' :: c :: body ++ rest) =
        kind.bareFrom false (offset + 2) (body ++ rest) := rfl
    rw [step, ih, List.length_cons, List.length_cons]
    congr 1
    omega
  | plain c body unescaped inside _ ih =>
    have step : kind.bareFrom false offset (c :: body ++ rest) =
        kind.bareFrom false (offset + 1) (body ++ rest) := by
      simp only [List.cons_append, bareFrom, beq_iff_eq, unescaped, inside, Bool.false_eq_true,
        ↓reduceIte]
    rw [step, ih, List.length_cons]
    congr 1
    omega

/-- A delimiter behind whole pairs is bare. -/
theorem bareFrom_closing (kind : LiteralKind) (offset : Nat) (rest : List Char) :
    kind.bareFrom false offset (kind.closing :: rest) =
      offset :: kind.bareFrom false (offset + 1) rest := by
  simp only [bareFrom, beq_iff_eq, kind.closing_ne_backslash, kind.isDelimiter_closing,
    ↓reduceIte]

/-- A reader that ends at the closing delimiter, and perhaps at other delimiters of the kind, reads
an escaped text up to the delimiter behind it. -/
theorem escapedRun_escape (kind : LiteralKind) {closes : Char → Bool}
    (fewer : ∀ c, kind.isDelimiter c = false → closes c = false)
    (ends : closes kind.closing = true) (text rest : List Char) :
    Reader.escapedRun closes (kind.escape text ++ kind.closing :: rest) =
      some (kind.escape text, kind.closing :: rest) :=
  Reader.escapedRun_append ((kind.body_escape text).mono fewer) kind.closing rest
    kind.closing_ne_backslash ends

theorem escape_inj (kind : LiteralKind) {text other : List Char} :
    kind.escape text = kind.escape other ↔ text = other := by
  constructor
  · intro same
    rw [← kind.unescape_escape text, same, kind.unescape_escape]
  · exact congrArg kind.escape

/-- Two literals that are written the same way up to their ends are the same, and so is what stands
behind them. -/
theorem escape_closing_inj (kind : LiteralKind) {text other rest more : List Char} :
    kind.escape text ++ kind.closing :: rest = kind.escape other ++ kind.closing :: more ↔
      text = other ∧ rest = more := by
  constructor
  · intro same
    have read := kind.escapedRun_escape (fun _ inside => inside) kind.isDelimiter_closing text rest
    rw [same, kind.escapedRun_escape (fun _ inside => inside) kind.isDelimiter_closing] at read
    obtain ⟨body, behind⟩ := Prod.mk.inj (Option.some.inj read)
    exact ⟨kind.escape_inj.mp body.symm, (List.cons.inj behind).2.symm⟩
  · rintro ⟨rfl, rfl⟩
    rfl

/-- Escaping is undone by unescaping, and the closing delimiter behind an escaped text is the first
bare one, whatever follows it. What follows is looked at as if it stood alone: the escaped text
takes nothing of it. Readers that end at any delimiter of the kind, and readers that end at the
closing one only, stop there, so what was escaped and what follows are known from what is
written. -/
theorem escape_delimits (kind : LiteralKind) (text rest : List Char) :
    kind.unescape (kind.escape text) = text ∧
    kind.bareFrom false 0 (kind.escape text ++ kind.closing :: rest) =
      (kind.escape text).length :: kind.bareFrom false ((kind.escape text).length + 1) rest ∧
    Reader.escapedRun kind.isDelimiter (kind.escape text ++ kind.closing :: rest) =
      some (kind.escape text, kind.closing :: rest) ∧
    Reader.escapedRun (· == kind.closing) (kind.escape text ++ kind.closing :: rest) =
      some (kind.escape text, kind.closing :: rest) ∧
    (∀ other, kind.escape text = kind.escape other ↔ text = other) ∧
    ∀ other more, kind.escape text ++ kind.closing :: rest =
      kind.escape other ++ kind.closing :: more ↔ text = other ∧ rest = more := by
  have bare : kind.bareFrom false 0 (kind.escape text ++ kind.closing :: rest) =
      (kind.escape text).length :: kind.bareFrom false ((kind.escape text).length + 1) rest := by
    rw [bareFrom_body (kind.body_escape text), Nat.zero_add, bareFrom_closing]
  have fewer : ∀ c, kind.isDelimiter c = false → (c == kind.closing) = false := by
    intro c inside
    rw [beq_eq_false_iff_ne]
    rintro rfl
    rw [isDelimiter_closing] at inside
    cases inside
  exact ⟨kind.unescape_escape text, bare,
    kind.escapedRun_escape (fun _ inside => inside) kind.isDelimiter_closing text rest,
    kind.escapedRun_escape fewer (beq_self_eq_true _) text rest,
    fun _ => kind.escape_inj, fun _ _ => kind.escape_closing_inj⟩

/-- A backslash before a delimiter, a foreign escape and a last backslash. -/
example :
    LiteralKind.quote.bareFrom false 0
      (LiteralKind.quote.escape ['\\', '"', '\\', 'd', '\\'] ++ ['"', '\\', '"', '"']) =
        [9, 12] := by
  decide

end LiteralKind

end SelectorLang
