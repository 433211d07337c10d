import SelectorLang.Proofs.ByteScan
import SelectorLang.Proofs.Remainders

set_option autoImplicit false

namespace SelectorLang

/-- A text from an offset on, the spans of parenthesised parts of it, and what is left of it with a
space for each of these. -/
inductive Partition : Nat → List Char → List Span → List Char → Prop
  | rest (offset : Nat) (text : List Char) : Partition offset text [] text
  | group (offset : Nat) (front content : List Char) {after left : List Char} {spans : List Span}
      (behind : Partition (offset + front.length + content.length + 2) after spans left) :
      Partition offset (front ++ '(' :: (content ++ ')' :: after))
        (⟨offset + front.length, offset + front.length + content.length + 2⟩ :: spans)
        (front ++ ' ' :: left)

namespace Partition

theorem cons {offset : Nat} {text left : List Char} {spans : List Span} (c : Char)
    (behind : Partition (offset + 1) text spans left) :
    Partition offset (c :: text) spans (c :: left) := by
  cases behind with
  | rest => exact .rest offset (c :: text)
  | group _ front content behind =>
    have place : offset + 1 + front.length = offset + (c :: front).length := by
      rw [List.length_cons]
      omega
    rw [place] at behind ⊢
    exact .group offset (c :: front) content behind

theorem within {offset : Nat} {text left : List Char} {spans : List Span}
    (partition : Partition offset text spans left) :
    Span.Within (offset + text.length) offset spans := by
  induction partition with
  | rest => trivial
  | @group offset front content after left spans _ ih =>
    have total : offset + (front ++ '(' :: (content ++ ')' :: after)).length =
        offset + front.length + content.length + 2 + after.length := by
      simp only [List.length_append, List.length_cons]
      omega
    rw [total]
    exact ⟨by simp, by simp only; omega, by simp only; omega, ih⟩

/-- Each span goes from an opening parenthesis to behind a closing one. -/
theorem parens {offset : Nat} {text left : List Char} {spans : List Span}
    (partition : Partition offset text spans left) {span : Span} (member : span ∈ spans) :
    span.start + 1 < span.stop ∧ text[span.start - offset]? = some '(' ∧
      text[span.stop - 1 - offset]? = some ')' := by
  induction partition with
  | rest => cases member
  | @group offset front content after left spans behind ih =>
    have lead : front ++ '(' :: (content ++ ')' :: after) =
        (front ++ '(' :: (content ++ [')'])) ++ after := by simp
    have width : (front ++ '(' :: (content ++ [')'])).length =
        front.length + content.length + 2 := by
      simp
      omega
    rcases List.mem_cons.mp member with rfl | later
    · refine ⟨by simp only; omega, by simp, ?_⟩
      simp only
      rw [show offset + front.length + content.length + 2 - 1 - offset =
        front.length + (content.length + 1) by omega, List.getElem?_append_right (by omega)]
      simp
    · obtain ⟨proper, first, last⟩ := ih later
      have bounds := behind.within.of_mem later
      rw [lead, List.getElem?_append_right (by omega), List.getElem?_append_right (by omega), width]
      refine ⟨proper, ?_, ?_⟩
      · rw [← first]
        congr 1
        omega
      · rw [← last]
        congr 1
        omega

end Partition

theorem Span.Within.pairwise {high low : Nat} {spans : List Span} (within : Within high low spans) :
    spans.Pairwise (fun first second => first.stop ≤ second.start) := by
  induction spans generalizing low with
  | nil => exact .nil
  | cons span others ih =>
    obtain ⟨_, _, _, behind⟩ := within
    exact .cons (fun other member => (behind.of_mem member).1) (ih behind)

namespace Paren

variable {scanner : Scanner}

/-- The outermost pairs of a text divide it. -/
theorem Spread.partition {text : List Char} (spread : Spread scanner text) (offset : Nat) :
    Partition offset text (outermostFrom none (scanFrom scanner offset text))
      (leftFrom scanner offset text) := by
  induction spread generalizing offset with
  | nil => exact .rest offset []
  | @other scanner c rest hidden _ ih =>
    rw [leftFrom_other hidden, scanFrom_hidden hidden]
    exact (ih (offset + 1)).cons c
  | @orphan scanner rest exposed _ ih =>
    rw [leftFrom_orphan exposed, scanFrom_closing exposed]
    exact (ih (offset + 1)).cons ')'
  | @group scanner content after exposed inside _ ih =>
    have place : offset + 1 + content.length + 1 = offset + content.length + 2 := by omega
    rw [leftFrom_group exposed inside, scanFrom_opening exposed, Layout.outermostFrom_open,
      inside.outermostFrom, place]
    exact .group offset [] content (ih (offset + content.length + 2))
  | @unclosed scanner rest exposed inside =>
    rw [leftFrom_unclosed exposed inside, scanFrom_opening exposed, Layout.outermostFrom_open,
      inside.outermostFrom]
    exact .rest offset ('(' :: rest)

/-- What is left around the groups of a text has none, wherever it begins. -/
theorem Spread.outermostFrom_left {text : List Char} (spread : Spread scanner text)
    (offset place : Nat) :
    outermostFrom none (scanFrom scanner place (leftFrom scanner offset text)) = [] := by
  induction spread generalizing offset place with
  | nil => rfl
  | @other scanner c rest hidden _ ih =>
    rw [leftFrom_other hidden, scanFrom_hidden hidden]
    exact ih (offset + 1) (place + 1)
  | @orphan scanner rest exposed _ ih =>
    rw [leftFrom_orphan exposed, scanFrom_closing exposed]
    exact ih (offset + 1) (place + 1)
  | @group scanner content after exposed inside _ ih =>
    -- Behind the space the scanner is as behind the group.
    have space : scanner.step ' ' = {} := by
      rw [Scanner.eq_of_exposes exposed]
      rfl
    rw [leftFrom_group exposed inside, scanFrom_hidden (Or.inr (by decide)), space]
    exact ih (offset + content.length + 2) (place + 1)
  | @unclosed scanner rest exposed inside =>
    rw [leftFrom_unclosed exposed inside, scanFrom_opening exposed, Layout.outermostFrom_open,
      inside.outermostFrom]

end Paren

/-- Splitting what remains of a text finds nothing more. -/
theorem split_remainder (text : List Char) :
    split (split text).remainder = ⟨[], (split text).remainder⟩ := by
  have none : Paren.outermost (Paren.scan (split text).remainder) = [] :=
    (Paren.spread {} text).outermostFrom_left 0 0
  rw [split, none]
  rfl

namespace Text

/-- The text behind so many bytes; there is none if the text is shorter or a character is cut. -/
def dropBytes? : Nat → List Char → Option (List Char)
  | 0, text => some text
  | _ + 1, [] => none
  | count + 1, c :: rest =>
    if c.utf8Size ≤ count + 1 then dropBytes? (count + 1 - c.utf8Size) rest else none

/-- So many bytes of a text; there are none if the text is shorter or a character is cut. -/
def takeBytes? : Nat → List Char → Option (List Char)
  | 0, _ => some []
  | _ + 1, [] => none
  | count + 1, c :: rest =>
    if c.utf8Size ≤ count + 1 then (takeBytes? (count + 1 - c.utf8Size) rest).map (c :: ·) else none

/-- What stands between two byte offsets, if they are in order and in bounds and cut no
character. -/
def slice? (text : List Char) (start stop : Nat) : Option (List Char) :=
  if start ≤ stop then (dropBytes? start text).bind (takeBytes? (stop - start)) else none

theorem dropBytes?_append (front back : List Char) :
    dropBytes? (byteLength front) (front ++ back) = some back := by
  induction front with
  | nil => rw [byteLength, List.nil_append, dropBytes?]
  | cons c rest ih =>
    have positive := c.utf8Size_pos
    obtain ⟨count, size⟩ : ∃ count, c.utf8Size + byteLength rest = count + 1 :=
      ⟨c.utf8Size + byteLength rest - 1, by omega⟩
    rw [byteLength, size, List.cons_append, dropBytes?, if_pos (by omega), ← size,
      Nat.add_sub_cancel_left, ih]

theorem takeBytes?_append (front back : List Char) :
    takeBytes? (byteLength front) (front ++ back) = some front := by
  induction front with
  | nil => rw [byteLength, takeBytes?]
  | cons c rest ih =>
    have positive := c.utf8Size_pos
    obtain ⟨count, size⟩ : ∃ count, c.utf8Size + byteLength rest = count + 1 :=
      ⟨c.utf8Size + byteLength rest - 1, by omega⟩
    rw [byteLength, size, List.cons_append, takeBytes?, if_pos (by omega), ← size,
      Nat.add_sub_cancel_left, ih, Option.map_some]

theorem slice?_byteOffset (text : List Char) {start stop : Nat} (order : start ≤ stop) :
    slice? text (byteOffset text start) (byteOffset text stop) =
      some (Span.slice ⟨start, stop⟩ text) := by
  have middle : text.take stop = text.take start ++ (text.drop start).take (stop - start) := by
    rw [← List.take_add, Nat.add_sub_cancel' order]
  have size : byteOffset text stop =
      byteOffset text start + byteLength ((text.drop start).take (stop - start)) := by
    rw [byteOffset, middle, byteLength_append, byteOffset]
  have dropped : dropBytes? (byteOffset text start) text = some (text.drop start) := by
    have front := dropBytes?_append (text.take start) (text.drop start)
    rwa [List.take_append_drop] at front
  have taken := takeBytes?_append ((text.drop start).take (stop - start))
    ((text.drop start).drop (stop - start))
  rw [List.take_append_drop] at taken
  rw [slice?, if_pos (by omega), dropped, Option.bind_some, size, Nat.add_sub_cancel_left, taken,
    Span.slice]

theorem utf8ByteSize_ofList (text : List Char) :
    (String.ofList text).utf8ByteSize = byteLength text := by
  induction text with
  | nil => rfl
  | cons c rest ih =>
    rw [String.ofList_cons, String.utf8ByteSize_append, ih]
    simp [byteLength]

theorem isValid_byteOffset (text : List Char) (offset : Nat) :
    String.Pos.Raw.IsValid (String.ofList text) ⟨byteOffset text offset⟩ := by
  rw [String.Pos.Raw.isValid_iff_exists_append]
  refine ⟨String.ofList (text.take offset), String.ofList (text.drop offset), ?_, ?_⟩
  · rw [← String.ofList_append, List.take_append_drop]
  · rw [String.rawEndPos, utf8ByteSize_ofList]
    rfl

theorem byteOffset_succ {text : List Char} {offset : Nat} {c : Char}
    (found : text[offset]? = some c) :
    byteOffset text (offset + 1) = byteOffset text offset + c.utf8Size := by
  rw [byteOffset, List.take_add_one, found, byteLength_append]
  rfl

end Text

def Span.bytes (text : List Char) (span : Span) : Nat × Nat :=
  (Text.byteOffset text span.start, Text.byteOffset text span.stop)

/-- The text from a byte offset on, with a space for each span that follows, if every cut is one
between characters. -/
def blankOutBytes? (text : List Char) (last : Nat) : List (Nat × Nat) → Option (List Char)
  | [] => Text.slice? text last (Text.byteLength text)
  | (start, stop) :: others => do
    let kept ← Text.slice? text last start
    let rest ← blankOutBytes? text stop others
    some (kept ++ ' ' :: rest)

def groupBytes? (text : List Char) (span : Nat × Nat) :
    Option ((Nat × Nat) × Combinator × List Char) := do
  let stop ← countDown? span.2
  let content ← Text.slice? text (span.1 + 1) stop
  some (span, Combinator.takeMarker (Text.trimStart content))

/-- Divides a text at its groups, counting in bytes. There is no answer if a count falls below zero
or a cut fails. -/
def splitBytes? (text : List Char) :
    Option (List ((Nat × Nat) × Combinator × List Char) × List Char) := do
  let spans ← ByteScanner.spans? {} none 0 (Text.bytes text)
  let remainder ← blankOutBytes? text 0 spans
  let groups ← spans.mapM (groupBytes? text)
  some (groups, remainder)

theorem blankOutBytes?_within (text : List Char) {low : Nat} {spans : List Span}
    (within : Span.Within text.length low spans) :
    blankOutBytes? text (Text.byteOffset text low) (spans.map (Span.bytes text)) =
      some (Span.blankOutFrom low spans (text.drop low)) := by
  induction spans generalizing low with
  | nil =>
    have whole : Text.byteLength text = Text.byteOffset text (max low text.length) := by
      rw [Text.byteOffset, List.take_of_length_le (Nat.le_max_right _ _)]
    rw [List.map_nil, blankOutBytes?, whole, Text.slice?_byteOffset text (Nat.le_max_left _ _),
      Span.slice, List.take_of_length_le (by simp only [List.length_drop]; omega),
      Span.blankOutFrom]
  | cons span others ih =>
    obtain ⟨start, proper, stop, behind⟩ := within
    have place : low + (span.stop - low) = span.stop := by omega
    simp only [List.map_cons, Span.bytes, blankOutBytes?, Text.slice?_byteOffset text start,
      ih behind, bind, Option.bind_some, Span.blankOutFrom, Span.slice, List.drop_drop, place]

theorem groupBytes?_ofSpan (text : List Char) {span : Span} (proper : span.start + 1 < span.stop)
    (opening : text[span.start]? = some '(') (closing : text[span.stop - 1]? = some ')') :
    groupBytes? text (span.bytes text) =
      some ((Group.ofSpan text span).byteSpan text, (Group.ofSpan text span).kind,
        (Group.ofSpan text span).body) := by
  have first : Text.byteOffset text span.start + 1 = Text.byteOffset text (span.start + 1) :=
    (Text.byteOffset_succ opening).symm
  have last : Text.byteOffset text span.stop = Text.byteOffset text (span.stop - 1) + 1 := by
    have behind := Text.byteOffset_succ closing
    rwa [show span.stop - 1 + 1 = span.stop by omega] at behind
  have content := Text.slice?_byteOffset text (show span.start + 1 ≤ span.stop - 1 by omega)
  simp only [groupBytes?, Span.bytes, last, countDown?, bind, Option.bind_some, first, content]
  rw [show Text.byteOffset text (span.stop - 1) + 1 = Text.byteOffset text span.stop from last.symm]
  rfl

/-- Counting in bytes divides a text as counting in characters does, and never fails. -/
theorem splitBytes?_eq (text : List Char) :
    splitBytes? text =
      some ((split text).groups.map (fun group => (group.byteSpan text, group.kind, group.body)),
        (split text).remainder) := by
  have partition := (Paren.spread {} text).partition 0
  have within := partition.within
  rw [Nat.zero_add] at within
  have spans : ByteScanner.spans? {} none 0 (Text.bytes text) =
      some ((Paren.outermost (Paren.scan text)).map (Span.bytes text)) :=
    ByteScanner.spans?_bytes [] text {} none none rfl rfl
  have remainder : blankOutBytes? text 0 ((Paren.outermost (Paren.scan text)).map
      (Span.bytes text)) = some (split text).remainder := blankOutBytes?_within text within
  have groups : ∀ spans : List Span, (∀ span ∈ spans, span ∈ Paren.outermost (Paren.scan text)) →
      (spans.map (Span.bytes text)).mapM (groupBytes? text) =
        some ((spans.map (Group.ofSpan text)).map
          (fun group => (group.byteSpan text, group.kind, group.body))) := by
    intro spans listed
    induction spans with
    | nil => rfl
    | cons span others ih =>
      obtain ⟨proper, opening, closing⟩ := partition.parens (listed span List.mem_cons_self)
      have own := groupBytes?_ofSpan text proper opening closing
      have behind := ih (fun other member => listed other (List.mem_cons_of_mem span member))
      simp only [List.map_cons, List.mapM_cons, own, behind, bind, Option.bind_some]
      rfl
  simp only [splitBytes?, spans, remainder, groups _ (fun _ member => member), bind,
    Option.bind_some]
  rfl

/-- Splitting divides a text. The spans of its groups stand in order, apart and in bounds, each from
an opening parenthesis to behind a closing one, and what remains is the text with one space for
each. Done in bytes, with every cut and every count checked, it never fails and finds the same, and
what remains splits into itself. -/
theorem split_divides (text : List Char) :
    let spans := (split text).groups.map Group.span
    Partition 0 text spans (split text).remainder ∧
      spans.Pairwise (fun first second => first.stop ≤ second.start) ∧
      (∀ span ∈ spans, span.start + 1 < span.stop ∧ span.stop ≤ text.length ∧
        text[span.start]? = some '(' ∧ text[span.stop - 1]? = some ')') ∧
      (∀ group ∈ (split text).groups,
        String.Pos.Raw.IsValid (String.ofList text) ⟨(group.byteSpan text).1⟩ ∧
          String.Pos.Raw.IsValid (String.ofList text) ⟨(group.byteSpan text).2⟩) ∧
      splitBytes? text =
        some ((split text).groups.map (fun group => (group.byteSpan text, group.kind, group.body)),
          (split text).remainder) ∧
      split (split text).remainder = ⟨[], (split text).remainder⟩ := by
  have own : (split text).groups.map Group.span = Paren.outermost (Paren.scan text) := by
    simp [split, Group.ofSpan, Function.comp_def]
  have partition : Partition 0 text ((split text).groups.map Group.span)
      (split text).remainder := by
    rw [own]
    exact (Paren.spread {} text).partition 0
  refine ⟨partition, partition.within.pairwise, fun span member => ?_, fun group _ =>
    ⟨Text.isValid_byteOffset text _, Text.isValid_byteOffset text _⟩, splitBytes?_eq text,
    split_remainder text⟩
  obtain ⟨proper, opening, closing⟩ := partition.parens member
  have bounds := partition.within.of_mem member
  exact ⟨proper, by omega, opening, closing⟩

end SelectorLang
