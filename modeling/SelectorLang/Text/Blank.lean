/-!
Blank characters and the words they separate.

A blank is a character with the Unicode property White_Space; a word is a longest run of other
characters. Everything in the query language that is cut at blanks is cut by these definitions.
-/

set_option autoImplicit false

namespace SelectorLang

/-- The characters with the property White_Space. -/
def isBlank (c : Char) : Bool :=
  let n := c.toNat
  if n < 0x80 then (9 ≤ n && n ≤ 13) || n == 0x20
  else n == 0x85 || n == 0xA0 || n == 0x1680 || (0x2000 ≤ n && n ≤ 0x200A) ||
    n == 0x2028 || n == 0x2029 || n == 0x202F || n == 0x205F || n == 0x3000

namespace Text

/-- The parts of a text between the characters of a class; there is one more than of these. -/
def cut (separates : Char → Bool) : List Char → List (List Char)
  | [] => [[]]
  | c :: rest =>
    if separates c then [] :: cut separates rest
    else (cut separates rest).modifyHead (c :: ·)

def words (text : List Char) : List (List Char) :=
  (cut isBlank text).filter (fun part => !part.isEmpty)

def unwords : List (List Char) → List Char
  | [] => []
  | [word] => word
  | word :: rest => word ++ ' ' :: unwords rest

def squeeze (text : List Char) : List Char := unwords (words text)

def trimStart (text : List Char) : List Char := text.dropWhile isBlank

def trimEnd (text : List Char) : List Char := (text.reverse.dropWhile isBlank).reverse

def trim (text : List Char) : List Char := trimEnd (trimStart text)

/-- The part before the first blank and the part after it; a text without blanks is all first
part. -/
def cutAtBlank (text : List Char) : List Char × List Char :=
  (text.takeWhile (fun c => !isBlank c), (text.dropWhile (fun c => !isBlank c)).drop 1)

def byteLength : List Char → Nat
  | [] => 0
  | c :: rest => c.utf8Size + byteLength rest

theorem cut_ne_nil (separates : Char → Bool) (text : List Char) : cut separates text ≠ [] := by
  cases text with
  | nil => exact List.cons_ne_nil _ _
  | cons c rest =>
    simp only [cut]
    split
    · exact List.cons_ne_nil _ _
    · have inner := cut_ne_nil separates rest
      cases parts : cut separates rest with
      | nil => exact absurd parts inner
      | cons part others => exact List.cons_ne_nil _ _

/-- A text is cut on both sides of a separator on its own. -/
theorem cut_append_separator (separates : Char → Bool) (left right : List Char) (c : Char)
    (separator : separates c = true) :
    cut separates (left ++ c :: right) = cut separates left ++ cut separates right := by
  induction left with
  | nil => simp only [List.nil_append, cut, separator, ↓reduceIte, List.singleton_append]
  | cons d rest ih =>
    simp only [List.cons_append, cut]
    split
    · rw [ih, List.cons_append]
    · have inner := cut_ne_nil separates rest
      rw [ih]
      cases parts : cut separates rest with
      | nil => exact absurd parts inner
      | cons part others => rfl

theorem words_append_blank (left right : List Char) (c : Char) (blank : isBlank c = true) :
    words (left ++ c :: right) = words left ++ words right := by
  simp only [words, cut_append_separator isBlank left right c blank, List.filter_append]

@[simp] theorem byteLength_append (left right : List Char) :
    byteLength (left ++ right) = byteLength left + byteLength right := by
  induction left with
  | nil => simp only [List.nil_append, byteLength, Nat.zero_add]
  | cons c rest ih => simp only [List.cons_append, byteLength, ih, Nat.add_assoc]

end Text

end SelectorLang
