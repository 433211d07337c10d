import SelectorLang.Compiler
import SelectorLang.Proofs.PrintedTexts

set_option autoImplicit false

namespace SelectorLang

inductive Layout where
  | done
  | blank (c : Char) (wellFormed : isBlank c = true) (rest : Layout)
  | phrase (phrase : Phrase) (rest : Layout)
  /-- A group with the blanks in front of its marker. -/
  | group (lead : List Char) (wellFormed : lead.all isBlank = true) (kind : Combinator)
      (inner rest : Layout)

namespace Layout

def text : Layout → List Char
  | done => []
  | blank c _ rest => c :: rest.text
  | phrase item rest => item.text ++ rest.text
  | group lead _ kind inner rest =>
    '(' :: ((lead ++ (kind.marker.toList ++ inner.text)) ++ ')' :: rest.text)

/-- What stands around the groups, with a space for each group. -/
def slots : Layout → List (Slot Phrase)
  | done => []
  | blank c _ rest => .gap c :: rest.slots
  | phrase item rest => .word item :: rest.slots
  | group _ _ _ _ rest => .gap ' ' :: rest.slots

def phrases (layout : Layout) : List Phrase := Slot.words layout.slots

def groups : Layout → List (Combinator × Layout)
  | done => []
  | blank _ _ rest => rest.groups
  | phrase _ rest => rest.groups
  | group _ _ kind inner rest => (kind, inner) :: rest.groups

def height : Layout → Nat
  | done => 0
  | blank _ _ rest => rest.height
  | phrase _ rest => rest.height
  | group _ _ _ inner rest => max (inner.height + 1) rest.height

def startsPhrase : Layout → Bool
  | phrase _ _ => true
  | _ => false

def Spaced : Layout → Prop
  | done => True
  | blank _ _ rest => rest.Spaced
  | phrase _ rest => rest.startsPhrase = false ∧ rest.Spaced
  | group _ _ _ inner rest => inner.Spaced ∧ rest.Spaced

theorem height_lt_of_mem {layout : Layout} {entry : Combinator × Layout}
    (member : entry ∈ layout.groups) : entry.2.height < layout.height := by
  induction layout with
  | done => cases member
  | blank c wellFormed rest ih => exact ih member
  | phrase item rest ih => exact ih member
  | group lead wellFormed kind inner rest _ ih =>
    rw [height]
    rcases List.mem_cons.mp member with rfl | later
    · simp only
      omega
    · have bound := ih later
      omega

theorem spaced_of_mem {layout : Layout} (spaced : layout.Spaced) {entry : Combinator × Layout}
    (member : entry ∈ layout.groups) : entry.2.Spaced := by
  induction layout with
  | done => cases member
  | blank c wellFormed rest ih => exact ih spaced member
  | phrase item rest ih => exact ih spaced.2 member
  | group lead wellFormed kind inner rest _ ih =>
    rcases List.mem_cons.mp member with rfl | later
    · exact spaced.1
    · exact ih spaced.2 later

theorem apart_slots {layout : Layout} (spaced : layout.Spaced) : Slot.Apart layout.slots := by
  induction layout with
  | done => exact .nil
  | blank c wellFormed rest ih => exact .gap c wellFormed (ih spaced)
  | phrase item rest ih =>
    obtain ⟨single, others⟩ := spaced
    have behind := ih others
    cases rest with
    | done => exact .last item
    | blank c wellFormed rest =>
      cases behind with
      | gap _ _ apart => exact .word item c wellFormed apart
    | phrase next rest => cases single
    | group lead wellFormed kind inner rest =>
      cases behind with
      | gap _ blank apart => exact .word item ' ' blank apart
  | group lead wellFormed kind inner rest _ ih => exact .gap ' ' rfl (ih spaced.2)

def spans : Nat → Layout → List Span
  | _, done => []
  | offset, blank _ _ rest => rest.spans (offset + 1)
  | offset, phrase item rest => rest.spans (offset + item.text.length)
  | offset, group lead _ kind inner rest =>
    let stop := offset + (lead ++ (kind.marker.toList ++ inner.text)).length + 2
    ⟨offset, stop⟩ :: rest.spans stop

open Scanner Paren

/-- Neither the blanks in front of a marker nor the marker are parentheses. -/
theorem hides_marker {lead : List Char} (wellFormed : lead.all isBlank = true)
    (kind : Combinator) : Hides {} (lead ++ kind.marker.toList) {} := by
  have marker : ∀ c ∈ kind.marker.toList, isOrdinary c = true := by
    cases kind <;> exact List.all_eq_true.mp rfl
  apply hides_ordinary
  intro c member
  rcases List.mem_append.mp member with space | sign
  · exact isOrdinary_of_blank (List.all_eq_true.mp wellFormed c space)
  · exact marker c sign

theorem scanFrom_open (offset : Nat) (rest : List Char) :
    scanFrom {} offset ('(' :: rest) = ⟨offset, true⟩ :: scanFrom {} (offset + 1) rest := rfl

theorem scanFrom_close (offset : Nat) (rest : List Char) :
    scanFrom {} offset (')' :: rest) = ⟨offset, false⟩ :: scanFrom {} (offset + 1) rest := rfl

theorem outermostFrom_inner (start depth offset : Nat) (rest : List Paren) :
    outermostFrom (some (start, depth)) (⟨offset, true⟩ :: rest) =
      outermostFrom (some (start, depth + 1)) rest := rfl

theorem outermostFrom_outer (start depth offset : Nat) (rest : List Paren) :
    outermostFrom (some (start, depth + 1)) (⟨offset, false⟩ :: rest) =
      outermostFrom (some (start, depth)) rest := rfl

theorem outermostFrom_open (offset : Nat) (rest : List Paren) :
    outermostFrom none (⟨offset, true⟩ :: rest) = outermostFrom (some (offset, 0)) rest := rfl

theorem outermostFrom_close (start offset : Nat) (rest : List Paren) :
    outermostFrom (some (start, 0)) (⟨offset, false⟩ :: rest) =
      ⟨start, offset + 1⟩ :: outermostFrom none rest := rfl

/-- Inside an open group the text of a layout closes what it opens. -/
theorem outermostFrom_inside (layout : Layout) (start depth offset : Nat) (tail : List Char) :
    outermostFrom (some (start, depth)) (scanFrom {} offset (layout.text ++ tail)) =
      outermostFrom (some (start, depth))
        (scanFrom {} (offset + layout.text.length) tail) := by
  induction layout generalizing depth offset tail with
  | done => rfl
  | blank c wellFormed rest ih =>
    have step := hides_blank wellFormed offset (rest.text ++ tail)
    rw [List.singleton_append, List.length_singleton] at step
    rw [text, List.cons_append, step, ih, List.length_cons]
    congr 2
    omega
  | phrase item rest ih =>
    have step := item.hides offset (rest.text ++ tail)
    rw [text, List.append_assoc, step, ih, List.length_append, Nat.add_assoc]
  | group lead wellFormed kind inner rest ihInner ihRest =>
    have step := hides_marker wellFormed kind (offset + 1)
      (inner.text ++ (')' :: (rest.text ++ tail)))
    simp only [List.append_assoc] at step
    simp only [text, List.cons_append, List.append_assoc]
    rw [scanFrom_open, outermostFrom_inner, step, ihInner, scanFrom_close, outermostFrom_outer,
      ihRest]
    congr 2
    simp only [List.length_cons, List.length_append]
    omega

/-- The outermost groups of the text of a layout are its own. -/
theorem outermostFrom_text (layout : Layout) (offset : Nat) (tail : List Char) :
    outermostFrom none (scanFrom {} offset (layout.text ++ tail)) =
      layout.spans offset ++
        outermostFrom none (scanFrom {} (offset + layout.text.length) tail) := by
  induction layout generalizing offset tail with
  | done => rfl
  | blank c wellFormed rest ih =>
    have step := hides_blank wellFormed offset (rest.text ++ tail)
    rw [List.singleton_append, List.length_singleton] at step
    rw [text, List.cons_append, step, ih, List.length_cons, spans]
    congr 3
    omega
  | phrase item rest ih =>
    have step := item.hides offset (rest.text ++ tail)
    rw [text, List.append_assoc, step, ih, List.length_append, Nat.add_assoc, spans]
  | group lead wellFormed kind inner rest _ ih =>
    have step := hides_marker wellFormed kind (offset + 1)
      (inner.text ++ (')' :: (rest.text ++ tail)))
    simp only [List.append_assoc] at step
    have stop : offset + 1 + (lead ++ kind.marker.toList).length + inner.text.length + 1 =
        offset + (lead ++ (kind.marker.toList ++ inner.text)).length + 2 := by
      simp only [List.length_append]
      omega
    simp only [text, List.cons_append, List.append_assoc]
    rw [scanFrom_open, outermostFrom_open, step, outermostFrom_inside, scanFrom_close,
      outermostFrom_close, ih, stop, spans, List.cons_append]
    congr 4
    simp only [List.length_cons, List.length_append]
    omega

theorem outermost_scan (layout : Layout) : outermost (scan layout.text) = layout.spans 0 := by
  have found := outermostFrom_text layout 0 []
  rwa [List.append_nil, scanFrom, outermostFrom, List.append_nil] at found

theorem bounds_of_mem {layout : Layout} {offset : Nat} {span : Span}
    (member : span ∈ layout.spans offset) : offset ≤ span.start ∧ span.start ≤ span.stop := by
  induction layout generalizing offset with
  | done => cases member
  | blank c wellFormed rest ih =>
    have bounds := ih member
    omega
  | phrase item rest ih =>
    have bounds := ih member
    omega
  | group lead wellFormed kind inner rest _ ih =>
    rcases List.mem_cons.mp member with rfl | later
    · simp only
      omega
    · have bounds := ih later
      omega

end Layout

/-- What stands in front of all spans stays as it is. -/
theorem Span.blankOutFrom_append (offset : Nat) (spans : List Span) (front text : List Char)
    (behind : ∀ span ∈ spans, offset + front.length ≤ span.start ∧ span.start ≤ span.stop) :
    blankOutFrom offset spans (front ++ text) =
      front ++ blankOutFrom (offset + front.length) spans text := by
  cases spans with
  | nil => rfl
  | cons span others =>
    obtain ⟨start, proper⟩ := behind span List.mem_cons_self
    have kept : span.start - offset = front.length + (span.start - (offset + front.length)) := by
      omega
    have gone : span.stop - offset = front.length + (span.stop - (offset + front.length)) := by
      omega
    rw [blankOutFrom, blankOutFrom, kept, gone, List.take_length_add_append,
      List.drop_length_add_append, List.append_assoc]

theorem Group.ofSpan_content (before content after : List Char) :
    Group.ofSpan (before ++ '(' :: (content ++ ')' :: after))
        ⟨before.length, before.length + content.length + 2⟩ =
      ⟨⟨before.length, before.length + content.length + 2⟩,
        (Combinator.takeMarker (Text.trimStart content)).1,
        (Combinator.takeMarker (Text.trimStart content)).2⟩ := by
  have size : before.length + content.length + 2 - 1 - (before.length + 1) = content.length := by
    omega
  have found : Group.content (before ++ '(' :: (content ++ ')' :: after))
      ⟨before.length, before.length + content.length + 2⟩ = content := by
    rw [Group.content, Span.slice]
    simp only [size]
    rw [List.drop_length_add_append, List.drop_succ_cons, List.drop_zero, List.take_left]
  rw [Group.ofSpan, found]

theorem Combinator.takeMarker_append (kind : Combinator) (rest : List Char) :
    takeMarker (kind.marker.toList ++ rest) = (kind, rest) := by
  cases kind <;> rfl

theorem Text.trimStart_append {lead : List Char} (blank : lead.all isBlank = true)
    (text : List Char) : trimStart (lead ++ text) = trimStart text := by
  induction lead with
  | nil => rfl
  | cons c rest ih =>
    rw [List.all_cons, Bool.and_eq_true] at blank
    have first := ih blank.2
    rw [trimStart] at first ⊢
    rw [List.cons_append, List.dropWhile_cons_of_pos blank.1, first]

theorem Combinator.trimStart_marker (kind : Combinator) (rest : List Char) :
    Text.trimStart (kind.marker.toList ++ rest) = kind.marker.toList ++ rest := by
  cases kind <;> rfl

namespace Layout

theorem blankOutFrom_spans (layout : Layout) (offset : Nat) :
    Span.blankOutFrom offset (layout.spans offset) layout.text = Slot.printed layout.slots := by
  induction layout generalizing offset with
  | done => rfl
  | blank c wellFormed rest ih =>
    have kept := Span.blankOutFrom_append offset (rest.spans (offset + 1)) [c] rest.text
      (fun span member => bounds_of_mem member)
    rw [spans, text, slots]
    exact kept.trans (congrArg (c :: ·) (ih (offset + 1)))
  | phrase item rest ih =>
    have kept := Span.blankOutFrom_append offset (rest.spans (offset + item.text.length)) item.text
      rest.text (fun span member => bounds_of_mem member)
    rw [spans, text, slots, kept, ih]
    rfl
  | group lead wellFormed kind inner rest _ ih =>
    have size : ∀ content : List Char, (offset + content.length + 2) - offset =
        ('(' :: (content ++ [')'])).length := by
      intro content
      simp only [List.length_cons, List.length_append, List.length_nil]
      omega
    have parts : ∀ content : List Char, '(' :: (content ++ ')' :: rest.text) =
        '(' :: (content ++ [')']) ++ rest.text := by
      intro content
      rw [List.cons_append, List.append_assoc, List.singleton_append]
    rw [spans, Span.blankOutFrom]
    simp only
    rw [Nat.sub_self, List.take_zero, text, parts, size, List.drop_left, ih]
    rfl

/-- The groups at the spans are those of the layout. -/
theorem ofSpan_spans (layout : Layout) (before : List Char) :
    ((layout.spans before.length).map (Group.ofSpan (before ++ layout.text))).map
        (fun group => (group.kind, group.body)) =
      layout.groups.map (fun entry => (entry.1, entry.2.text)) := by
  induction layout generalizing before with
  | done => rfl
  | blank c wellFormed rest ih =>
    have later := ih (before ++ [c])
    rwa [List.length_append, List.append_assoc] at later
  | phrase item rest ih =>
    have later := ih (before ++ item.text)
    rwa [List.length_append, List.append_assoc] at later
  | group lead wellFormed kind inner rest _ ih =>
    have found := Group.ofSpan_content before (lead ++ (kind.marker.toList ++ inner.text)) rest.text
    rw [Text.trimStart_append wellFormed, Combinator.trimStart_marker,
      Combinator.takeMarker_append] at found
    have later := ih (before ++ '(' :: ((lead ++ (kind.marker.toList ++ inner.text)) ++ [')']))
    have size : (before ++ '(' :: ((lead ++ (kind.marker.toList ++ inner.text)) ++ [')'])).length =
        before.length + (lead ++ (kind.marker.toList ++ inner.text)).length + 2 := by
      simp only [List.length_append, List.length_cons, List.length_nil]
      omega
    rw [size] at later
    simp only [List.append_assoc, List.cons_append, List.nil_append] at later found
    rw [spans, text]
    simp only [List.append_assoc, List.map_cons, groups]
    rw [found, later]

/-- Dividing the text of a layout gives its groups and, around them, its clauses and blanks. -/
theorem split_text (layout : Layout) :
    (split layout.text).remainder = Slot.printed layout.slots ∧
      (split layout.text).groups.map (fun group => (group.kind, group.body)) =
        layout.groups.map (fun entry => (entry.1, entry.2.text)) := by
  simp only [split, outermost_scan]
  exact ⟨blankOutFrom_spans layout 0, ofSpan_spans layout []⟩

end Layout

end SelectorLang
