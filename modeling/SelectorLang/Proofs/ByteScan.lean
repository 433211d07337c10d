import SelectorLang.Proofs.Matching

set_option autoImplicit false

namespace SelectorLang

def Text.bytes (text : List Char) : List UInt8 := text.flatMap String.utf8EncodeChar

/-- Where in the bytes of a text the character at an offset begins. -/
def Text.byteOffset (text : List Char) (offset : Nat) : Nat := byteLength (text.take offset)

/-- One less, if there is something to take away. -/
def countDown? : Nat → Option Nat
  | 0 => none
  | count + 1 => some count

structure ByteScanner where
  escaped : Bool := false
  quoted : Bool := false
  /-- How many braces of a reference body are open. -/
  curly : Nat := 0
  /-- How many parentheses are open inside the open group. -/
  inner : Nat := 0
  /-- Where the open group starts. -/
  start : Option Nat := none
deriving DecidableEq, Repr

namespace ByteScanner

/-- The state behind one byte, and the span of the group that it closes. -/
def step? (scanner : ByteScanner) (previous : Option UInt8) (offset : Nat) (byte : UInt8) :
    Option (ByteScanner × Option (Nat × Nat)) :=
  if scanner.escaped then some ({ scanner with escaped := false }, none)
  else if byte == '\\'.toUInt8 then some ({ scanner with escaped := true }, none)
  else if byte == '"'.toUInt8 && scanner.curly == 0 then
    some ({ scanner with quoted := !scanner.quoted }, none)
  else if scanner.quoted then some (scanner, none)
  else if byte == '\x7b'.toUInt8 && 0 < scanner.curly then
    some ({ scanner with curly := scanner.curly + 1 }, none)
  else if byte == '\x7b'.toUInt8 && previous == some '<'.toUInt8 then
    some ({ scanner with curly := 1 }, none)
  else if byte == '\x7d'.toUInt8 && 0 < scanner.curly then do
    let outer ← countDown? scanner.curly
    some ({ scanner with curly := outer }, none)
  else if 0 < scanner.curly then some (scanner, none)
  else if byte == '('.toUInt8 then
    match scanner.start with
    | none => some ({ scanner with start := some offset }, none)
    | some _ => some ({ scanner with inner := scanner.inner + 1 }, none)
  else if byte == ')'.toUInt8 then
    match scanner.start with
    | none => some (scanner, none)
    | some start =>
      if scanner.inner == 0 then some ({ scanner with start := none }, some (start, offset + 1))
      else do
        let outer ← countDown? scanner.inner
        some ({ scanner with inner := outer }, none)
  else some (scanner, none)

def spans? (scanner : ByteScanner) (previous : Option UInt8) (offset : Nat) :
    List UInt8 → Option (List (Nat × Nat))
  | [] => some []
  | byte :: rest => do
    let (next, span) ← scanner.step? previous offset byte
    let others ← spans? next (some byte) (offset + 1) rest
    some (span.toList ++ others)

/-- The characters that mean something to a pass. -/
def signs : List Char := ['\\', '"', '\x7b', '\x7d', '(', ')']

theorem step?_of_ordinary {byte : UInt8} (ordinary : byte ∉ signs.map Char.toUInt8)
    (scanner : ByteScanner) (previous : Option UInt8) (offset : Nat) :
    scanner.step? previous offset byte = some ({ scanner with escaped := false }, none) := by
  simp only [signs, List.map_cons, List.map_nil, List.mem_cons, List.not_mem_nil, or_false, not_or]
    at ordinary
  obtain ⟨backslash, quote, opening, closing, left, right⟩ := ordinary
  obtain ⟨escaped, quoted, curly, inner, start⟩ := scanner
  cases escaped with
  | true => rfl
  | false =>
    simp only [step?, Bool.false_eq_true, ↓reduceIte, backslash, quote, opening, closing, left,
      right, beq_eq_false_iff_ne.mpr, ne_eq, not_false_eq_true, Bool.false_and, ite_self]

/-- Over bytes that mean nothing a pass forgets a backslash and remembers the last one. -/
theorem spans?_of_ordinary {front : List UInt8}
    (ordinary : ∀ byte ∈ front, byte ∉ signs.map Char.toUInt8) (nonempty : front ≠ [])
    (scanner : ByteScanner) (previous : Option UInt8) (offset : Nat) (rest : List UInt8) :
    spans? scanner previous offset (front ++ rest) =
      spans? { scanner with escaped := false } front.getLast? (offset + front.length) rest := by
  induction front generalizing scanner previous offset with
  | nil => exact absurd rfl nonempty
  | cons byte others ih =>
    have first := ordinary byte List.mem_cons_self
    have step : ∀ later : Option (List (Nat × Nat)),
        (later.bind fun spans => some ((none : Option (Nat × Nat)).toList ++ spans)) = later := by
      intro later
      cases later <;> rfl
    rw [List.cons_append, spans?, step?_of_ordinary first]
    simp only [bind, Option.bind_some, step]
    cases others with
    | nil => rfl
    | cons next others =>
      rw [ih (fun other member => ordinary other (List.mem_cons_of_mem byte member))
        (List.cons_ne_nil _ _), List.getLast?_cons_cons]
      simp only [List.length_cons]
      rw [show offset + 1 + (others.length + 1) = offset + (others.length + 1 + 1) by omega]

/-- A character up to U+007F is one byte, and the bytes of any other are above it. -/
theorem utf8_cases (c : Char) :
    (c.toNat < 0x80 ∧ String.utf8EncodeChar c = [c.toUInt8]) ∨
      (0x80 ≤ c.toNat ∧ ∀ byte ∈ String.utf8EncodeChar c, 0x80 ≤ byte.toNat) := by
  by_cases ascii : c.toNat < 0x80
  · left
    have size : c.utf8Size = 1 := by
      rw [Char.utf8Size_eq_one_iff, UInt32.le_iff_toNat_le]
      exact Nat.le_of_lt_succ ascii
    exact ⟨ascii, String.utf8EncodeChar_eq_singleton size⟩
  · right
    refine ⟨by omega, ?_⟩
    have value : c.val.toNat = c.toNat := rfl
    unfold String.utf8EncodeChar
    simp only [value]
    rw [if_neg (by omega)]
    split
    · simp
      omega
    · split
      · simp
        omega
      · simp
        omega

theorem toUInt8_ne {c d : Char} (ascii : c.toNat < 0x80) (other : d.toNat < 0x80)
    (differs : c ≠ d) :
    c.toUInt8 ≠ d.toUInt8 := by
  intro same
  have values := congrArg UInt8.toNat same
  have first : c.toUInt8.toNat = c.toNat % 256 := UInt32.toNat_toUInt8 c.val
  have second : d.toUInt8.toNat = d.toNat % 256 := UInt32.toNat_toUInt8 d.val
  rw [first, second] at values
  apply differs
  rw [← Char.ofNat_toNat c, ← Char.ofNat_toNat d, show c.toNat = d.toNat by omega]

/-- No byte of a character is that of another character up to U+007F. -/
theorem byte_ne {c d : Char} (ascii : d.toNat < 0x80) (differs : c ≠ d) :
    ∀ byte ∈ String.utf8EncodeChar c, byte ≠ d.toUInt8 := by
  intro byte member
  rcases utf8_cases c with ⟨small, single⟩ | ⟨_, high⟩
  · rw [single, List.mem_singleton] at member
    rw [member]
    exact toUInt8_ne small ascii differs
  · have above := high byte member
    have below : d.toUInt8.toNat = d.toNat % 256 := UInt32.toNat_toUInt8 d.val
    intro same
    rw [same] at above
    omega

theorem getLast?_bytes (c : Char) :
    ((String.utf8EncodeChar c).getLast? == some '<'.toUInt8) = (c == '<') := by
  by_cases angle : c = '<'
  · subst angle
    rfl
  · have other := byte_ne (d := '<') (by decide) angle
    rw [beq_eq_false_iff_ne.mpr angle, beq_eq_false_iff_ne]
    intro same
    exact other _ (List.mem_of_getLast? same) rfl

end ByteScanner

/-- What one character does to the open group: the group that is open behind it, and the one that it
closes. -/
def Paren.advance (scanner : Scanner) (current : Option (Nat × Nat)) (offset : Nat) (c : Char) :
    Option (Nat × Nat) × Option Span :=
  if scanner.exposes then
    if c = '(' then
      match current with
      | none => (some (offset, 0), none)
      | some (start, inner) => (some (start, inner + 1), none)
    else if c = ')' then
      match current with
      | none => (none, none)
      | some (start, 0) => (none, some ⟨start, offset + 1⟩)
      | some (start, outer + 1) => (some (start, outer), none)
    else (current, none)
  else (current, none)

theorem Paren.outermostFrom_cons (scanner : Scanner) (current : Option (Nat × Nat)) (offset : Nat)
    (c : Char) (rest : List Char) :
    outermostFrom current (scanFrom scanner offset (c :: rest)) =
      (advance scanner current offset c).2.toList ++
        outermostFrom (advance scanner current offset c).1
          (scanFrom (scanner.step c) (offset + 1) rest) := by
  rcases structural_cases scanner c with hidden | ⟨exposed, rfl⟩ | ⟨exposed, rfl⟩
  · have still : advance scanner current offset c = (current, none) := by
      rcases hidden with inside | ⟨opening, closing⟩
      · simp [advance, inside]
      · simp [advance, opening, closing]
    rw [scanFrom_hidden hidden, still]
    rfl
  · rw [scanFrom_opening exposed, Scanner.step_exposed exposed (Or.inl rfl)]
    simp only [advance, exposed, ↓reduceIte]
    rcases current with _ | ⟨start, inner⟩ <;> rfl
  · rw [scanFrom_closing exposed, Scanner.step_exposed exposed (Or.inr rfl)]
    simp only [advance, exposed, ↓reduceIte]
    rcases current with _ | ⟨start, _ | outer⟩ <;> rfl

/-- With other numbers for the same places the same groups open and close. -/
theorem Paren.advance_map (place : Nat → Nat) (scanner : Scanner) (current : Option (Nat × Nat))
    (offset : Nat) {c : Char} (next : c = ')' → place (offset + 1) = place offset + 1) :
    advance scanner (current.map (fun state => (place state.1, state.2))) (place offset) c =
      ((advance scanner current offset c).1.map (fun state => (place state.1, state.2)),
        (advance scanner current offset c).2.map
          (fun span => ⟨place span.start, place span.stop⟩)) := by
  cases exposed : scanner.exposes with
  | false => simp [advance, exposed]
  | true =>
    by_cases opening : c = '('
    · rcases current with _ | ⟨start, inner⟩ <;> simp [advance, exposed, opening]
    · by_cases closing : c = ')'
      · have stop := next closing
        rcases current with _ | ⟨start, _ | outer⟩ <;> simp [advance, exposed, closing, stop]
      · simp [advance, exposed, opening, closing]

namespace ByteScanner

/-- The state of the pass over bytes, given that of the pass over characters and the open group. -/
def ofScanner (scanner : Scanner) (current : Option (Nat × Nat)) : ByteScanner where
  escaped := scanner.escaped
  quoted := scanner.region == .quoted
  curly := match scanner.region with
    | .reference inner => inner + 1
    | _ => 0
  inner := match current with
    | some (_, inner) => inner
    | none => 0
  start := current.map Prod.fst

/-- One byte that means something does in one pass what its character does in the other. -/
theorem step?_sign {c : Char} (sign : c ∈ signs) (scanner : Scanner) (current : Option (Nat × Nat))
    {previous : Option UInt8} (angle : (previous == some '<'.toUInt8) = scanner.afterAngle)
    (offset : Nat) :
    (ofScanner scanner current).step? previous offset c.toUInt8 =
      some (ofScanner (scanner.step c) (Paren.advance scanner current offset c).1,
        (Paren.advance scanner current offset c).2.map (fun span => (span.start, span.stop))) := by
  obtain ⟨region, escaped, afterAngle⟩ := scanner
  simp only [signs, List.mem_cons, List.not_mem_nil, or_false] at sign
  cases escaped with
  | true =>
    have unread : Paren.advance ⟨region, true, afterAngle⟩ current offset c = (current, none) := rfl
    rw [unread]
    rfl
  | false =>
    rcases sign with rfl | rfl | rfl | rfl | rfl | rfl
    · cases region <;> rfl
    · cases region <;> rfl
    · cases region with
      | plain =>
        -- The one byte that a pass looks back at.
        have look : (ofScanner ⟨.plain, false, afterAngle⟩ current).step? previous offset
            '\x7b'.toUInt8 =
              if previous == some '<'.toUInt8 then
                some (ofScanner ⟨.reference 0, false, false⟩ current, none)
              else some (ofScanner ⟨.plain, false, false⟩ current, none) := rfl
        rw [look, angle]
        cases afterAngle <;> rfl
      | quoted => rfl
      | reference inner => rfl
    · rcases region with _ | _ | ⟨_ | inner⟩ <;> rfl
    · rcases region with _ | _ | inner
      · rcases current with _ | ⟨start, inner⟩ <;> rfl
      · rfl
      · rfl
    · rcases region with _ | _ | inner
      · rcases current with _ | ⟨start, _ | inner⟩ <;> rfl
      · rfl
      · rfl

theorem step_of_not_sign {c : Char} (plain : c ∉ signs) (scanner : Scanner) :
    scanner.step c = ⟨scanner.region, false, c == '<'⟩ := by
  simp only [signs, List.mem_cons, List.not_mem_nil, or_false, not_or] at plain
  obtain ⟨backslash, quote, opening, closing, _⟩ := plain
  obtain ⟨region, escaped, afterAngle⟩ := scanner
  cases escaped with
  | true => rfl
  | false =>
    cases region <;>
      simp [Scanner.step, Scanner.regionAfter, backslash, quote, opening, closing]

theorem advance_of_not_sign {c : Char} (plain : c ∉ signs) (scanner : Scanner)
    (current : Option (Nat × Nat)) (offset : Nat) :
    Paren.advance scanner current offset c = (current, none) := by
  simp only [signs, List.mem_cons, List.not_mem_nil, or_false, not_or] at plain
  simp [Paren.advance, plain]

theorem afterAngle_step (scanner : Scanner) (c : Char) :
    (scanner.step c).afterAngle = (c == '<') := by
  obtain ⟨region, escaped, afterAngle⟩ := scanner
  cases escaped with
  | true => rfl
  | false =>
    by_cases backslash : c = '\\'
    · subst backslash
      rfl
    · simp [Scanner.step, backslash]

/-- The pass over the bytes of a text finds the groups that the pass over its characters finds. -/
theorem spans?_bytes (before text : List Char) (scanner : Scanner) (current : Option (Nat × Nat))
    (previous : Option UInt8) (angle : (previous == some '<'.toUInt8) = scanner.afterAngle)
    {place : Nat → Nat} (places : place = Text.byteOffset (before ++ text)) :
    spans? (ofScanner scanner (current.map (fun state => (place state.1, state.2)))) previous
        (Text.byteLength before) (Text.bytes text) =
      some ((Paren.outermostFrom current (Paren.scanFrom scanner before.length text)).map
        (fun span => (place span.start, place span.stop))) := by
  induction text generalizing before scanner current previous with
  | nil => rfl
  | cons c rest ih =>
    have here : place before.length = Text.byteLength before := by simp [places, Text.byteOffset]
    have width : (before ++ [c]).length = before.length + 1 := List.length_append
    have size : Text.byteLength (before ++ [c]) =
        Text.byteLength before + (String.utf8EncodeChar c).length := by
      rw [Text.byteLength_append, String.length_utf8EncodeChar]
      rfl
    have parts : (before ++ [c]) ++ rest = before ++ c :: rest := by simp
    have looked : ((String.utf8EncodeChar c).getLast? == some '<'.toUInt8) =
        (scanner.step c).afterAngle := by
      rw [getLast?_bytes, afterAngle_step]
    have behind := ih (before ++ [c]) (scanner.step c)
      (Paren.advance scanner current before.length c).1 _ looked (by rw [places, parts])
    have source : Text.bytes (c :: rest) = String.utf8EncodeChar c ++ Text.bytes rest := rfl
    rw [width, size] at behind
    rw [Paren.outermostFrom_cons, source]
    by_cases sign : c ∈ signs
    · have single : String.utf8EncodeChar c = [c.toUInt8] := by
        simp only [signs, List.mem_cons, List.not_mem_nil, or_false] at sign
        rcases sign with rfl | rfl | rfl | rfl | rfl | rfl <;> rfl
      have next : c = ')' → place (before.length + 1) = place before.length + 1 := by
        rintro rfl
        rw [here, ← width, places, ← parts, Text.byteOffset, List.take_left, size, single]
        rfl
      have step := step?_sign sign scanner (current.map (fun state => (place state.1, state.2)))
        angle (place before.length)
      rw [Paren.advance_map place scanner current before.length next, here] at step
      simp only [single, List.length_singleton, List.getLast?_singleton] at behind
      simp only [single, List.singleton_append, spans?, step, bind, Option.bind_some, behind,
        List.map_append]
      cases (Paren.advance scanner current before.length c).2 <;> rfl
    · have ordinary : ∀ byte ∈ String.utf8EncodeChar c, byte ∉ signs.map Char.toUInt8 := by
        intro byte member listed
        obtain ⟨d, known, same⟩ := List.mem_map.mp listed
        have ascii : ∀ d ∈ signs, d.toNat < 0x80 := by simp [signs]
        have differs : c ≠ d := by
          rintro rfl
          exact sign known
        exact byte_ne (ascii d known) differs byte member same.symm
      have nonempty : String.utf8EncodeChar c ≠ [] := by
        rw [← List.length_pos_iff, String.length_utf8EncodeChar]
        exact c.utf8Size_pos
      rw [advance_of_not_sign sign, step_of_not_sign sign] at behind
      rw [spans?_of_ordinary ordinary nonempty, advance_of_not_sign sign, step_of_not_sign sign]
      exact behind

end ByteScanner

end SelectorLang
