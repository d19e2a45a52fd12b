import Scoopdope.Pdf.Format

/-!
# Reading the content of a page

A content stream is a sequence of operands and operators, in bytes. White space ends a word; a word
that starts like a number or a name is an operand, and any other one an operator, which takes the
operands before it. A literal string is in parentheses. It may have balanced parentheses in it and
escapes every other one with a backslash.

The reader knows the operators of text (`operate`). A string is on the page where `Tj` takes it in a
text object, in the font of the last `Tf` and at the matrix of the last `Tm` (`shown`). Escaping is
what makes any text readable again (`Reads.escaped`).

Arrays, dictionaries, strings in hexadecimal, comments and octal codes are not read. A text object
that begins in another one, or ends outside of any, is let pass.
-/

namespace Pdf

/-! ## Bytes and tokens -/

def isSpace (b : UInt8) : Bool := b ∈ ([0, 9, 10, 12, 13, 32] : List UInt8)

/-- The bytes of words, after the first. -/
def isRegular (b : UInt8) : Bool :=
  !isSpace b && b ∉ ([37, 40, 41, 47, 60, 62, 91, 93, 123, 125] : List UInt8)

inductive Operand
  | word (bytes : List UInt8)
  | string (bytes : List UInt8)
deriving DecidableEq

/-- The number that an operand stands for, if it has digits only. -/
def Operand.number : Operand → Option Nat
  | word bytes => if bytes.all isDigit then some (Pdf.number bytes) else none
  | string _ => none

/-- A string on the page, with its font, the size of that and the matrix of its line. -/
structure Shown where
  font : List UInt8
  size : Nat
  matrix : List Nat
  bytes : List UInt8
deriving DecidableEq

/-! ## Operators -/

/-- The state of the text, with the operands that no operator has taken, the last one first. -/
structure Page where
  operands : List Operand
  inText : Bool
  font : List UInt8
  size : Nat
  matrix : List Nat
  shown : List Shown

def Page.blank : Page where
  operands := []
  inText := false
  font := []
  size := 0
  matrix := []
  shown := []

namespace Page

def beginText (page : Page) : Page :=
  { page with operands := [], inText := true, matrix := [1, 0, 0, 1, 0, 0] }

def endText (page : Page) : Page := { page with operands := [], inText := false }

/-- A name and a size. -/
def setFont (page : Page) : Option Page :=
  match page.operands with
  | [size, .word font] => size.number.map fun size => { page with operands := [], font, size }
  | _ => none

/-- Six numbers. -/
def setMatrix (page : Page) : Option Page :=
  if page.operands.length = 6 then
    (page.operands.reverse.mapM Operand.number).map fun matrix =>
      { page with operands := [], matrix }
  else none

/-- A string, in a text object. -/
def showText (page : Page) : Option Page :=
  match page.operands, page.inText with
  | [.string bytes], true =>
    let string : Shown := { font := page.font, size := page.size, matrix := page.matrix, bytes }
    some { page with operands := [], shown := page.shown ++ [string] }
  | _, _ => none

/-- The operators `BT`, `ET`, `Tf`, `Tm` and `Tj`. -/
def operate (page : Page) (operator : List UInt8) : Option Page :=
  if operator = [66, 84] then some page.beginText
  else if operator = [69, 84] then some page.endText
  else if operator = [84, 102] then page.setFont
  else if operator = [84, 109] then page.setMatrix
  else if operator = [84, 106] then page.showText
  else some { page with operands := [] }

/-- Words that start with a digit, a sign, a point or a slash are operands. -/
def token (page : Page) (word : List UInt8) : Option Page :=
  if word.head?.any fun b => isDigit b || b ∈ ([43, 45, 46, 47] : List UInt8) then
    some { page with operands := .word word :: page.operands }
  else page.operate word

end Page

/-! ## Reading -/

/-- What a reader has just seen inside a literal string. -/
inductive Last
  | other
  | backslash
  | return_
deriving DecidableEq

/-- Where a reader of a content stream is. -/
inductive Mode
  | outside
  | word (bytes : List UInt8)
  /-- In a literal string, with the open parentheses and the bytes read so far. -/
  | inside (depth : Nat) (last : Last) (bytes : List UInt8)

/-- The byte that a backslash and a letter stand for. Any other byte stands for itself, where it
does not begin an octal code or end a line. -/
def unescape (b : UInt8) : Option UInt8 :=
  if b = 110 then some 10
  else if b = 114 then some 13
  else if b = 116 then some 9
  else if b = 98 then some 8
  else if b = 102 then some 12
  else if isDigit b ∨ b = 10 ∨ b = 13 then none
  else some b

/-- A byte outside of words and strings. -/
def start (page : Page) (b : UInt8) : Option (Mode × Page) :=
  if isSpace b then some (.outside, page)
  else if b = 40 then some (.inside 0 .other [], page)
  else if b = 47 ∨ isRegular b then some (.word [b], page)
  else none

/-- A byte in a string, that is not escaped. -/
def readInside (page : Page) (depth : Nat) (last : Last) (bytes : List UInt8) (b : UInt8) :
    Mode × Page :=
  if b = 92 then (.inside depth .backslash bytes, page)
  else if b = 40 then (.inside (depth + 1) .other (bytes ++ [b]), page)
  else if b = 41 then
    match depth with
    | 0 => (.outside, { page with operands := .string bytes :: page.operands })
    | depth + 1 => (.inside depth .other (bytes ++ [b]), page)
  else if b = 13 then (.inside depth .return_ (bytes ++ [10]), page)
  else if b = 10 ∧ last = .return_ then (.inside depth .other bytes, page)
  else (.inside depth .other (bytes ++ [b]), page)

/-- One byte of a content stream. -/
def readByte : Mode × Page → UInt8 → Option (Mode × Page)
  | (.outside, page), b => start page b
  | (.word bytes, page), b =>
    if isRegular b then some (.word (bytes ++ [b]), page)
    else (page.token bytes).bind fun page => start page b
  | (.inside depth .backslash bytes, page), b =>
    (unescape b).map fun b => (.inside depth .other (bytes ++ [b]), page)
  | (.inside depth last bytes, page), b => some (readInside page depth last bytes b)

/-- The strings that a content stream shows, in order. A line end follows it. -/
def shown (content : List UInt8) : Option (List Shown) :=
  match (content ++ [10]).foldlM readByte (.outside, .blank) with
  | some (.outside, page) => some page.shown
  | _ => none

/-- A piece of a content stream leads from a page to another one, and ends outside of words and
strings. -/
def Reads (piece : List UInt8) (page page' : Page) : Prop :=
  piece.foldlM readByte (.outside, page) = some (.outside, page')

variable {page page' page'' : Page}

theorem Reads.append {piece piece' : List UInt8} (h : Reads piece page page')
    (h' : Reads piece' page' page'') : Reads (piece ++ piece') page page'' := by
  rw [Reads, List.foldlM_append, h]
  exact h'

/-- Bytes that go on a word. -/
theorem foldlM_word {bytes : List UInt8} (h : bytes.all isRegular = true) (before : List UInt8) :
    bytes.foldlM readByte (.word before, page) = some (.word (before ++ bytes), page) := by
  induction bytes generalizing before with
  | nil => rw [List.append_nil]; rfl
  | cons b bytes ih =>
    rw [List.all_cons, Bool.and_eq_true] at h
    rw [List.foldlM_cons, readByte, if_pos h.1]
    refine (ih h.2 (before ++ [b])).trans ?_
    rw [List.append_assoc, List.singleton_append]

/-- The words that a reader takes as a whole. -/
def IsWord : List UInt8 → Bool
  | [] => false
  | b :: bytes => (b = 47 || isRegular b) && bytes.all isRegular

/-- A word that white space ends. -/
theorem Reads.word {word : List UInt8} {b : UInt8} (hword : IsWord word = true)
    (hspace : isSpace b = true) (h : page.token word = some page') :
    Reads (word ++ [b]) page page' := by
  cases word with
  | nil => cases hword
  | cons first bytes =>
    rw [IsWord, Bool.and_eq_true, Bool.or_eq_true, decide_eq_true_eq] at hword
    obtain ⟨hfirst, hbytes⟩ := hword
    have hbegins : start page first = some (.word [first], page) := by
      have hplain : isSpace first = false ∧ first ≠ 40 := by
        rcases hfirst with rfl | hregular
        · decide
        · rw [isRegular, Bool.and_eq_true, Bool.not_eq_true'] at hregular
          refine ⟨hregular.1, ?_⟩
          rintro rfl
          exact absurd hregular.2 (by decide)
      rw [start, hplain.1, if_neg Bool.false_ne_true, if_neg hplain.2, if_pos hfirst]
    have hends : isRegular b = false := by rw [isRegular, hspace]; rfl
    rw [Reads, List.cons_append, List.foldlM_cons, readByte, hbegins]
    show (bytes ++ [b]).foldlM readByte (.word [first], page) = _
    rw [List.foldlM_append, foldlM_word hbytes]
    show [b].foldlM readByte (.word ([first] ++ bytes), page) = _
    rw [List.foldlM_cons, readByte, hends, if_neg Bool.false_ne_true]
    show ((page.token (first :: bytes)).bind fun page => start page b) >>= _ = _
    rw [h, Option.bind_some, start, if_pos hspace]
    rfl

theorem Operand.number_toString (n : Nat) :
    (Operand.word (utf8 (toString n))).number = some n := by
  rw [Operand.number, if_pos (List.all_eq_true.mpr (isDigit_toString n)), Pdf.number_toString]

/-- A text with each line end written as a line feed, which is how a reader takes a line end in a
literal string. -/
def lineFeeds : Bool → List UInt8 → List UInt8
  | _, [] => []
  | afterReturn, b :: text =>
    if b = 13 then 10 :: lineFeeds true text
    else if b = 10 ∧ afterReturn = true then lineFeeds false text
    else b :: lineFeeds false text

/-- Backslashes and parentheses. -/
def isSpecial (b : UInt8) : Bool := b ∈ ([92, 40, 41] : List UInt8)

/-- A backslash before each backslash and each parenthesis. -/
def escaped (text : List UInt8) : List UInt8 :=
  text.flatMap fun b => if isSpecial b then [92, b] else [b]

/-- An escaped byte is read as itself. -/
theorem foldlM_special {b : UInt8} (h : isSpecial b = true) (last : Last)
    (hlast : last ≠ .backslash) (read : List UInt8) :
    [92, b].foldlM readByte (.inside 0 last read, page) =
      some (.inside 0 .other (read ++ [b]), page) := by
  have hplain : unescape b = some b := by
    have hb : b = 92 ∨ b = 40 ∨ b = 41 := by simpa [isSpecial] using h
    rcases hb with rfl | rfl | rfl <;> decide
  have hescape : readByte (.inside 0 last read, page) 92 =
      some (.inside 0 .backslash read, page) := by
    cases last with
    | backslash => exact absurd rfl hlast
    | other => rfl
    | return_ => rfl
  rw [List.foldlM_cons, hescape]
  show [b].foldlM readByte (.inside 0 .backslash read, page) = _
  rw [List.foldlM_cons, readByte, hplain]
  rfl

/-- Any other byte is read as what it is, up to line ends. -/
theorem readByte_plain {b : UInt8} (h : isSpecial b = false) (afterReturn : Bool)
    (read : List UInt8) :
    readByte (.inside 0 (if afterReturn then .return_ else .other) read, page) b =
      if b = 13 then some (.inside 0 .return_ (read ++ [10]), page)
      else if b = 10 ∧ afterReturn = true then some (.inside 0 .other read, page)
      else some (.inside 0 .other (read ++ [b]), page) := by
  obtain ⟨hslash, hopen, hclose⟩ : b ≠ 92 ∧ b ≠ 40 ∧ b ≠ 41 := by simpa [isSpecial] using h
  have hinside : ∀ last, readInside page 0 last read b =
      if b = 13 then (.inside 0 .return_ (read ++ [10]), page)
      else if b = 10 ∧ last = .return_ then (.inside 0 .other read, page)
      else (.inside 0 .other (read ++ [b]), page) := fun last => by
    rw [readInside, if_neg hslash, if_neg hopen, if_neg hclose]
  cases afterReturn with
  | false =>
    show some (readInside page 0 .other read b) = _
    rw [hinside]
    split
    · rfl
    · simp
  | true =>
    show some (readInside page 0 .return_ read b) = _
    rw [hinside]
    split
    · rfl
    · split <;> simp_all

variable (page) in
/-- Reading what was escaped adds the text. -/
theorem foldlM_escaped (text read : List UInt8) (afterReturn : Bool) :
    ∃ last, last ≠ .backslash ∧ (escaped text).foldlM readByte
      (.inside 0 (if afterReturn then .return_ else .other) read, page) =
        some (.inside 0 last (read ++ lineFeeds afterReturn text), page) := by
  induction text generalizing read afterReturn with
  | nil =>
    refine ⟨_, ?_, by rw [lineFeeds, List.append_nil]; rfl⟩
    cases afterReturn <;> decide
  | cons b text ih =>
    have hnext : ∀ (c : UInt8) (r : Bool), read ++ c :: lineFeeds r text =
        read ++ [c] ++ lineFeeds r text := fun c r => (List.append_assoc read [c] _).symm
    rw [escaped, List.flatMap_cons, ← escaped, List.foldlM_append, lineFeeds]
    by_cases hb : isSpecial b = true
    · have hplain : b ≠ 13 ∧ b ≠ 10 := by
        constructor <;> rintro rfl <;> exact absurd hb (by decide)
      have hlast : (if afterReturn then Last.return_ else .other) ≠ .backslash := by
        cases afterReturn <;> decide
      rw [if_pos hb, foldlM_special hb _ hlast, if_neg hplain.1, if_neg fun h => hplain.2 h.1,
        hnext]
      exact ih (read ++ [b]) false
    · rw [Bool.not_eq_true] at hb
      rw [hb, if_neg Bool.false_ne_true, List.foldlM_cons, readByte_plain hb]
      by_cases hreturn : b = 13
      · rw [if_pos hreturn, if_pos hreturn, hnext]
        exact ih (read ++ [10]) true
      · rw [if_neg hreturn, if_neg hreturn]
        by_cases hfeed : b = 10 ∧ afterReturn = true
        · rw [if_pos hfeed, if_pos hfeed]
          exact ih read false
        · rw [if_neg hfeed, if_neg hfeed, hnext]
          exact ih (read ++ [b]) false

/-- An escaped text in parentheses is the operand that the text is. -/
theorem Reads.escaped (text : List UInt8) :
    Reads (40 :: escaped text ++ [41]) page
      { page with operands := .string (lineFeeds false text) :: page.operands } := by
  obtain ⟨last, hlast, hread⟩ := foldlM_escaped page text [] false
  rw [Reads, List.cons_append, List.foldlM_cons]
  have hopen : readByte (.outside, page) 40 =
      some (.inside 0 (if false = true then .return_ else .other) [], page) := rfl
  rw [hopen]
  show (Pdf.escaped text ++ [41]).foldlM readByte _ = _
  rw [List.foldlM_append, hread, List.nil_append]
  cases last with
  | backslash => exact absurd rfl hlast
  | other => rfl
  | return_ => rfl

/-! ### Escaping a text -/

end Pdf
