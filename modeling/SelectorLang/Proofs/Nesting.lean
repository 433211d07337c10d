import Mathlib.Data.List.Nodup
import SelectorLang.Proofs.Matching

set_option autoImplicit false

namespace SelectorLang

/-- A group at any depth: how many groups stand around it, where it stands in the whole text, in
bytes, and its body. -/
structure PlacedGroup where
  level : Nat
  start : Nat
  stop : Nat
  body : List Char
deriving DecidableEq, Repr

namespace PlacedGroup

def place (group : PlacedGroup) : Nat × Nat × Nat := (group.level, group.start, group.stop)

/-- The text at the group's place is the group: its parentheses with the body in front of the
closing one. -/
def StandsIn (whole : List Char) (group : PlacedGroup) : Prop :=
  ∃ front lead back, whole = front ++ '(' :: (lead ++ group.body) ++ ')' :: back ∧
    group.start = Text.byteLength front ∧
    group.stop = Text.byteLength (front ++ '(' :: (lead ++ group.body) ++ [')'])

end PlacedGroup

namespace Group

def bodyStart (group : Group) : Nat := group.span.stop - 1 - group.body.length

/-- The group in the whole text, in which the text begins at a byte. -/
def placed (level base : Nat) (text : List Char) (group : Group) : PlacedGroup :=
  ⟨level, base + (group.byteSpan text).1, base + (group.byteSpan text).2, group.body⟩

/-- In front of a body stand blanks and a marker, which leave the scanner as at the start of a
text. -/
theorem exists_lead (content : List Char) :
    ∃ lead, content = lead ++ (Combinator.takeMarker (Text.trimStart content)).2 ∧
      ∀ c ∈ lead, Scanner.isOrdinary c = true := by
  have blanks : ∀ c ∈ content.takeWhile isBlank, Scanner.isOrdinary c = true := fun c member =>
    Scanner.isOrdinary_of_blank (List.all_eq_true.mp List.all_takeWhile c member)
  obtain ⟨marker, ordinary, same⟩ : ∃ marker : List Char,
      (∀ c ∈ marker, Scanner.isOrdinary c = true) ∧
        Text.trimStart content =
          marker ++ (Combinator.takeMarker (Text.trimStart content)).2 := by
    generalize Text.trimStart content = text
    fun_cases Combinator.takeMarker text with
    | case1 rest => exact ⟨['!', '&'], List.all_eq_true.mp rfl, rfl⟩
    | case2 rest => exact ⟨['!', '|'], List.all_eq_true.mp rfl, rfl⟩
    | case3 rest => exact ⟨['!'], List.all_eq_true.mp rfl, rfl⟩
    | case4 rest => exact ⟨['&'], List.all_eq_true.mp rfl, rfl⟩
    | case5 rest => exact ⟨['|'], List.all_eq_true.mp rfl, rfl⟩
    | case6 => exact ⟨[], nofun, rfl⟩
  refine ⟨content.takeWhile isBlank ++ marker, ?_, ?_⟩
  · rw [List.append_assoc, ← same, Text.trimStart, List.takeWhile_append_dropWhile]
  · intro c member
    rcases List.mem_append.mp member with blank | sign
    · exact blanks c blank
    · exact ordinary c sign

theorem length_body_lt {text : List Char} {group : Group} (member : group ∈ (split text).groups) :
    group.body.length < text.length := by
  obtain ⟨span, listed, rfl⟩ := List.mem_map.mp member
  have nonempty : text ≠ [] := by
    rintro rfl
    cases listed
  obtain ⟨lead, parts, _⟩ := exists_lead (content text span)
  have size : (content text span).length ≤ text.length - (span.start + 1) := by
    simp only [content, Span.slice, List.length_take, List.length_drop]
    exact Nat.min_le_right _ _
  have shorter : (ofSpan text span).body.length ≤ (content text span).length := by
    have length := congrArg List.length parts
    rw [List.length_append] at length
    rw [length]
    exact Nat.le_add_left _ _
  have positive := List.length_pos_iff.mpr nonempty
  omega

/-- The groups of a text and all groups in them, each behind those in it. The text begins at the
byte `base` of the whole, inside so many groups. -/
def nestedFrom (level base : Nat) (text : List Char) : List PlacedGroup :=
  (split text).groups.attach.flatMap (fun entry =>
    nestedFrom (level + 1) (base + Text.byteLength (text.take entry.1.bodyStart)) entry.1.body ++
      [entry.1.placed level base text])
termination_by text.length
decreasing_by exact length_body_lt entry.2

/-- The groups of a text at all depths. -/
def nested (text : List Char) : List PlacedGroup := nestedFrom 0 0 text

def withInner (level base : Nat) (text : List Char) (group : Group) : List PlacedGroup :=
  nestedFrom (level + 1) (base + Text.byteLength (text.take group.bodyStart)) group.body ++
    [group.placed level base text]

theorem nestedFrom_eq (level base : Nat) (text : List Char) :
    nestedFrom level base text =
      (Paren.outermost (Paren.scan text)).flatMap
        (fun span => withInner level base text (ofSpan text span)) := by
  rw [nestedFrom, List.flatMap_subtype (g := withInner level base text) (fun _ _ => rfl),
    List.unattach_attach, split, List.flatMap_map]

/-- A group between its parentheses: its content is its body behind blanks and a marker. -/
theorem ofSpan_between (done content behind : List Char) :
    ∃ lead, content = lead ++ (ofSpan (done ++ '(' :: (content ++ ')' :: behind))
        ⟨done.length, done.length + content.length + 2⟩).body ∧
      (∀ c ∈ lead, Scanner.isOrdinary c = true) ∧
      (ofSpan (done ++ '(' :: (content ++ ')' :: behind))
        ⟨done.length, done.length + content.length + 2⟩).bodyStart =
          (done ++ '(' :: lead).length := by
  obtain ⟨lead, parts, ordinary⟩ := exists_lead content
  have length := congrArg List.length parts
  rw [List.length_append] at length
  rw [ofSpan_content, bodyStart]
  refine ⟨lead, parts, ordinary, ?_⟩
  rw [List.length_append, List.length_cons]
  simp only
  omega

end Group

theorem Text.byteLength_take (before text after : List Char) (count : Nat)
    (within : count ≤ text.length) :
    byteLength ((before ++ text ++ after).take (before.length + count)) =
      byteLength before + byteLength (text.take count) := by
  rw [List.append_assoc, List.take_length_add_append, byteLength_append,
    List.take_append_of_le_length within]

theorem Text.byteLength_take_lt {text : List Char} {first second : Nat} (before : first < second)
    (within : first < text.length) :
    byteLength (text.take first) < byteLength (text.take second) := by
  induction text generalizing first second with
  | nil => cases within
  | cons c rest ih =>
    obtain ⟨second, rfl⟩ : ∃ later, second = later + 1 := ⟨second - 1, by omega⟩
    rw [List.take_succ_cons, byteLength]
    cases first with
    | zero =>
      have positive := c.utf8Size_pos
      rw [List.take_zero, byteLength]
      omega
    | succ first =>
      rw [List.length_cons] at within
      have later : byteLength (rest.take first) < byteLength (rest.take second) :=
        ih (by omega) (by omega)
      rw [List.take_succ_cons, byteLength]
      omega

namespace Paren

def Pair.inBytes (text : List Char) (around : Nat) (pair : Pair) : Nat × Nat × Nat :=
  (around + pair.level, Text.byteLength (text.take pair.span.start),
    Text.byteLength (text.take pair.span.stop))

/-- Nothing stays open in the text and nothing is closed that was not opened in it. -/
def Balanced (text : List Char) : Prop :=
  (matching text).unclosed = [] ∧ (matching text).orphans = []

theorem Pair.inBytes_raise (text : List Char) (around : Nat) (pair : Pair) :
    (pair.raise 1).inBytes text around = pair.inBytes text (around + 1) := by
  have levels : around + (pair.level + 1) = around + 1 + pair.level := by omega
  rw [inBytes, inBytes, raise, levels]

end Paren

namespace Group

open Paren

/-- The groups at all depths of a part of a text are the settled pairs of a pass over that part,
they stand where their places say, and their bodies are balanced. -/
def Agrees (before text after : List Char) (level : Nat) : Prop :=
  (nestedFrom level (Text.byteLength before) text).map PlacedGroup.place =
      (matchFrom [] (scanFrom {} before.length text)).settled.map
        (Pair.inBytes (before ++ text ++ after) level) ∧
    ∀ group ∈ nestedFrom level (Text.byteLength before) text,
      group.StandsIn (before ++ text ++ after) ∧ Balanced group.body

theorem standsIn_of_place {group : PlacedGroup} {front lead back : List Char} {level : Nat}
    (place : group.place = Pair.inBytes (front ++ '(' :: (lead ++ group.body) ++ ')' :: back) level
      ⟨0, ⟨front.length, front.length + (lead ++ group.body).length + 2⟩⟩) :
    group.StandsIn (front ++ '(' :: (lead ++ group.body) ++ ')' :: back) := by
  have start : (front ++ '(' :: (lead ++ group.body) ++ ')' :: back).take front.length = front := by
    rw [List.append_assoc, List.take_left]
  have stop : (front ++ '(' :: (lead ++ group.body) ++ ')' :: back).take
      (front.length + (lead ++ group.body).length + 2) =
        front ++ '(' :: (lead ++ group.body) ++ [')'] := by
    rw [List.append_cons]
    apply List.take_left'
    simp only [List.length_append, List.length_cons, List.length_nil]
    omega
  simp only [PlacedGroup.place, Pair.inBytes, start, stop, Prod.mk.injEq] at place
  exact ⟨front, lead, back, rfl, place.2.1, place.2.2⟩

/-- A group stands where a pass finds its parentheses. -/
theorem place_between (before done content behind after : List Char) (level : Nat)
    {text : List Char} (parts : text = done ++ '(' :: (content ++ ')' :: behind)) :
    ((ofSpan text ⟨done.length, done.length + content.length + 2⟩).placed level
        (Text.byteLength before) text).place =
      Pair.inBytes (before ++ text ++ after) level
        ⟨0, ⟨(before ++ done).length, (before ++ done).length + content.length + 2⟩⟩ := by
  have size : text.length = done.length + content.length + 2 + behind.length := by
    rw [parts]
    simp only [List.length_append, List.length_cons]
    omega
  have start := Text.byteLength_take before text after done.length (by omega)
  have stop := Text.byteLength_take before text after (done.length + content.length + 2)
    (by omega)
  simp only [← Nat.add_assoc] at stop
  simp only [placed, PlacedGroup.place, byteSpan, ofSpan, Pair.inBytes, List.length_append,
    Nat.add_zero, start, stop]

/-- A group with the groups in it, where these agree with a pass over the group's body. -/
theorem withInner_agrees {content : List Char} (inside : Enclosed {} 0 content)
    (before done behind after : List Char) (level : Nat)
    (inner : ∀ body : List Char, body.length ≤ content.length → ∀ before after level,
      Agrees before body after level) {text : List Char}
    (parts : text = done ++ '(' :: (content ++ ')' :: behind)) :
    (withInner level (Text.byteLength before) text
        (ofSpan text ⟨done.length, done.length + content.length + 2⟩)).map PlacedGroup.place =
      ((matchFrom [] (scanFrom {} ((before ++ done).length + 1) content)).pairs.map
          (Pair.raise 1) ++
        [(⟨0, ⟨(before ++ done).length, (before ++ done).length + content.length + 2⟩⟩ : Pair)]).map
          (Pair.inBytes (before ++ text ++ after) level) ∧
    ∀ group ∈ withInner level (Text.byteLength before) text
        (ofSpan text ⟨done.length, done.length + content.length + 2⟩),
      group.StandsIn (before ++ text ++ after) ∧ Balanced group.body := by
  have own := place_between before done content behind after level parts
  obtain ⟨lead, shape, ordinary, start⟩ := ofSpan_between done content behind
  rw [← parts] at shape start
  generalize ofSpan text ⟨done.length, done.length + content.length + 2⟩ = group
    at own shape start ⊢
  subst shape
  have body := inside.of_ordinary ordinary
  -- The body stands between the opening parenthesis with the marker and the closing parenthesis.
  have front : text.take group.bodyStart = done ++ '(' :: lead := by
    rw [start, parts]
    simp only [List.append_assoc]
    rw [← List.cons_append, ← List.append_assoc, List.take_left]
  have whole : before ++ (done ++ '(' :: lead) ++ group.body ++ (')' :: behind ++ after) =
      before ++ text ++ after := by
    rw [parts]
    simp only [List.append_assoc, List.cons_append]
  have offset : (before ++ (done ++ '(' :: lead)).length =
      (before ++ done).length + 1 + lead.length := by
    simp only [List.length_append, List.length_cons]
    omega
  obtain ⟨places, balanced⟩ := inner group.body (by rw [List.length_append]; omega)
    (before ++ (done ++ '(' :: lead)) (')' :: behind ++ after) (level + 1)
  have settled := (spread {} group.body).settled_of_closed (before ++ (done ++ '(' :: lead)).length
    (body.balanced rfl _).1
  rw [settled, offset, whole, Text.byteLength_append] at places
  rw [Text.byteLength_append, whole] at balanced
  have skip := Scanner.hides_ordinary ordinary ((before ++ done).length + 1) group.body
  rw [withInner, front]
  constructor
  · rw [skip, List.map_append, places, List.map_append, List.map_map, List.map_singleton,
      List.map_singleton, own]
    congr 1
    exact List.map_congr_left (fun pair _ => (Pair.inBytes_raise _ level pair).symm)
  · intro inner member
    rcases List.mem_append.mp member with deeper | itself
    · exact balanced inner deeper
    · rw [List.mem_singleton.mp itself]
      refine ⟨?_, body.balanced rfl 0⟩
      have around : before ++ text ++ after =
          before ++ done ++ '(' :: (lead ++ group.body) ++ ')' :: (behind ++ after) := by
        rw [parts]
        simp only [List.append_assoc, List.cons_append]
      rw [around] at own ⊢
      exact standsIn_of_place own

/-- Behind what is already divided, the groups agree with the rest of the pass. -/
theorem agrees_along (before after : List Char) (level : Nat) {text : List Char}
    (inner : ∀ body : List Char, body.length < text.length → ∀ before after level,
      Agrees before body after level) {scanner : Scanner} {rest : List Char}
    (spread : Spread scanner rest) (done : List Char) (parts : text = done ++ rest) :
    ((outermostFrom none (scanFrom scanner done.length rest)).flatMap (fun span =>
        withInner level (Text.byteLength before) text (ofSpan text span))).map PlacedGroup.place =
      (matchFrom [] (scanFrom scanner (before ++ done).length rest)).settled.map
        (Pair.inBytes (before ++ text ++ after) level) ∧
    ∀ group ∈ (outermostFrom none (scanFrom scanner done.length rest)).flatMap (fun span =>
        withInner level (Text.byteLength before) text (ofSpan text span)),
      group.StandsIn (before ++ text ++ after) ∧ Balanced group.body := by
  induction spread generalizing done with
  | nil => exact ⟨rfl, nofun⟩
  | @other scanner c rest hidden _ ih =>
    have later := ih (done ++ [c]) (by rw [parts, List.append_assoc]; rfl)
    rw [scanFrom_hidden hidden, scanFrom_hidden hidden]
    rwa [← List.append_assoc, List.length_append, List.length_append] at later
  | @orphan scanner rest exposed _ ih =>
    have later := ih (done ++ [')']) (by rw [parts, List.append_assoc]; rfl)
    rw [scanFrom_closing exposed, scanFrom_closing exposed]
    rwa [← List.append_assoc, List.length_append, List.length_append] at later
  | @group scanner content behind exposed inside _ ih =>
    have size : content.length < text.length := by
      rw [parts]
      simp only [List.length_append, List.length_cons]
      omega
    have stop : ∀ front : List Char, (front ++ '(' :: (content ++ [')'])).length =
        front.length + content.length + 2 := by
      intro front
      simp only [List.length_append, List.length_cons, List.length_nil]
      omega
    obtain ⟨places, balanced⟩ := withInner_agrees inside before done behind after level
      (fun body short => inner body (Nat.lt_of_le_of_lt short size)) parts
    obtain ⟨others, closed⟩ := ih (done ++ '(' :: (content ++ [')'])) (by
      rw [parts]
      simp only [List.append_assoc, List.cons_append, List.nil_append])
    have next : ∀ offset : Nat, offset + 1 + content.length + 1 = offset + content.length + 2 := by
      omega
    rw [← List.append_assoc, stop, stop] at others
    rw [stop] at closed
    rw [scanFrom_opening exposed, scanFrom_opening exposed, Layout.outermostFrom_open,
      inside.outermostFrom, next, matchFrom_open, inside.settled, List.flatMap_cons]
    constructor
    · rw [List.map_append, places, others, ← List.map_append]
      simp only [List.append_assoc, List.singleton_append]
    · intro group member
      rcases List.mem_append.mp member with here | there
      · exact balanced group here
      · exact closed group there
  | @unclosed scanner rest exposed inside =>
    rw [scanFrom_opening exposed, scanFrom_opening exposed, Layout.outermostFrom_open,
      inside.outermostFrom, matchFrom_open, inside.settled]
    exact ⟨rfl, nofun⟩

/-- The groups that are found one inside the other are the pairs of a single pass. -/
theorem agrees (before text after : List Char) (level : Nat) : Agrees before text after level := by
  induction size : text.length using Nat.strongRecOn generalizing before text after level with
  | ind length ih =>
    have inner : ∀ body : List Char, body.length < text.length → ∀ before after level,
        Agrees before body after level := by
      intro body shorter before after level
      exact ih body.length (by omega) before body after level rfl
    have found := agrees_along before after level inner (spread {} text) [] rfl
    rw [List.append_nil, List.length_nil] at found
    rw [Agrees, nestedFrom_eq]
    exact found

/-- Dividing a text into groups, and the bodies of the groups again, finds what one pass with a
stack finds: the pairs at and below the top-level pairs in front of the first parenthesis that is
never closed, each once and at its own depth. In the body of a group every parenthesis has its
partner. -/
theorem nested_matching (text : List Char) :
    (nested text).map PlacedGroup.place = (matching text).settled.map (Pair.inBytes text 0) ∧
      ((nested text).map PlacedGroup.start).Nodup ∧
      ∀ group ∈ nested text, group.StandsIn text ∧ Balanced group.body := by
  obtain ⟨places, sound⟩ := agrees [] text [] 0
  simp only [List.append_nil, List.nil_append, List.length_nil, Text.byteLength] at places sound
  refine ⟨places, ?_, sound⟩
  have starts : (nested text).map PlacedGroup.start =
      ((matching text).settled.map (fun pair => pair.span.start)).map
        (fun start => Text.byteLength (text.take start)) := by
    have projected := congrArg (List.map (fun place => place.2.1)) places
    rw [List.map_map, List.map_map] at projected
    rw [List.map_map]
    exact projected
  rw [starts]
  -- Parentheses at different characters stand at different bytes.
  refine List.Nodup.map_on ?_ ((nodup_starts text).sublist (List.filter_sublist.map _))
  have within : ∀ start ∈ (matching text).settled.map (fun pair => pair.span.start),
      start < text.length := by
    intro start member
    have found := List.filter_sublist.map (fun pair : Pair => pair.span.start) |>.subset member
    rcases opening_of_mem (List.mem_append_left _ found) with held | ⟨paren, listed, rfl⟩
    · cases held
    · have bounds := offset_of_mem_scanFrom listed
      omega
  intro first listed second other same
  rcases Nat.lt_trichotomy first second with earlier | equal | later
  · have apart := Text.byteLength_take_lt earlier (within first listed)
    omega
  · exact equal
  · have apart := Text.byteLength_take_lt later (within second other)
    omega

example : (matching "(! a (b)) ) \"(\" (c (d)".toList).settled =
    [⟨1, ⟨5, 8⟩⟩, ⟨0, ⟨0, 9⟩⟩] := by decide

end Group

end SelectorLang
