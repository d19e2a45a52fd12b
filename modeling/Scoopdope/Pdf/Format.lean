import Mathlib.Algebra.Group.Nat.Defs
import Mathlib.Data.List.Basic

/-!
# Reading a PDF file

How a reader finds the parts of a PDF file. The number after `startxref` is the position of the
cross-reference table, whose lines of 20 bytes have the position of each object (`objectAt`). The
data of a stream is as long as its `/Length` says (`streamData`).

Parts laid out one after the other are at the sums of the lengths before them (`drop_place`).
-/

namespace Pdf

/-! ## Bytes and numbers -/

/-- The bytes of a text in UTF-8. -/
@[irreducible] def utf8 (s : String) : List UInt8 := s.toList.flatMap String.utf8EncodeChar

theorem utf8_append (s t : String) : utf8 (s ++ t) = utf8 s ++ utf8 t := by
  rw [utf8, String.toList_append, List.flatMap_append, utf8, utf8]

/-- A literal is the list of its characters. Reading it back from its bytes is slow. -/
theorem utf8_ofList (text : List Char) :
    utf8 (String.ofList text) = text.flatMap String.utf8EncodeChar := by
  rw [utf8, String.toList_ofList]

theorem utf8_cons {c : Char} {b : UInt8} (h : String.utf8EncodeChar c = [b]) (text : List Char) :
    utf8 (String.ofList (c :: text)) = b :: utf8 (String.ofList text) := by
  rw [utf8_ofList, utf8_ofList, List.flatMap_cons, h]
  rfl

def isDigit (b : UInt8) : Bool := 48 ≤ b && b ≤ 57

/-- The number that decimal digits stand for. -/
def number (digits : List UInt8) : Nat := digits.foldl (fun n b => 10 * n + (b.toNat - 48)) 0

/-- The byte of a digit. -/
theorem utf8EncodeChar_digit {c : Char} (h : c.isDigit = true) :
    ∃ b, String.utf8EncodeChar c = [b] ∧ isDigit b = true ∧ b.toNat - 48 = c.toNat - '0'.toNat := by
  obtain ⟨hlo, hhi⟩ : 48 ≤ c.val ∧ c.val ≤ 57 := by simpa [Char.isDigit] using h
  have hlo' : 48 ≤ c.toNat := hlo
  have hhi' : c.toNat ≤ 57 := hhi
  have hsize : c.utf8Size = 1 := by
    rw [Char.utf8Size_eq_one_iff, UInt32.le_iff_toNat_le]
    exact Nat.le_trans hhi' (by decide)
  have hval : c.val.toUInt8.toNat = c.toNat := by
    rw [UInt32.toNat_toUInt8]
    exact Nat.mod_eq_of_lt (show c.toNat < 256 by omega)
  refine ⟨c.val.toUInt8, String.utf8EncodeChar_eq_singleton hsize, ?_, by rw [hval]; rfl⟩
  simp only [isDigit, Bool.and_eq_true, decide_eq_true_eq, UInt8.le_iff_toNat_le, hval]
  exact ⟨hlo', hhi'⟩

theorem number_digits {digits : List Char} (h : ∀ c ∈ digits, c.isDigit = true) (n : Nat) :
    (digits.flatMap String.utf8EncodeChar).foldl (fun n b => 10 * n + (b.toNat - 48)) n =
        Nat.ofDigitChars 10 digits n ∧
      (digits.flatMap String.utf8EncodeChar).length = digits.length ∧
      ∀ b ∈ digits.flatMap String.utf8EncodeChar, isDigit b = true := by
  induction digits generalizing n with
  | nil => exact ⟨rfl, rfl, nofun⟩
  | cons c digits ih =>
    obtain ⟨b, hb, hdigit, hval⟩ := utf8EncodeChar_digit (h c List.mem_cons_self)
    have ih := ih (fun d hd => h d (List.mem_cons_of_mem c hd))
    rw [List.flatMap_cons, hb, List.singleton_append, List.foldl_cons, hval,
      Nat.ofDigitChars_cons]
    refine ⟨(ih _).1, ?_, ?_⟩
    · rw [List.length_cons, (ih 0).2.1, List.length_cons]
    · intro d hd
      rcases List.mem_cons.mp hd with rfl | hd
      · exact hdigit
      · exact (ih 0).2.2 d hd

theorem isDigit_toDigits (n : Nat) : ∀ c ∈ Nat.toDigits 10 n, c.isDigit = true := fun _ hc =>
  Nat.isDigit_of_mem_toDigits (by decide) (by decide) hc

/-- A number that was written is read again. -/
theorem number_toString (n : Nat) : number (utf8 (toString n)) = n := by
  have htext : (toString n).toList = Nat.toDigits 10 n := Nat.toList_repr
  rw [number, utf8, htext, (number_digits (isDigit_toDigits n) 0).1, Nat.ofDigitChars_ten_toDigits]

theorem isDigit_toString (n : Nat) : ∀ b ∈ utf8 (toString n), isDigit b = true := by
  have htext : (toString n).toList = Nat.toDigits 10 n := Nat.toList_repr
  rw [utf8, htext]
  exact (number_digits (isDigit_toDigits n) 0).2.2

/-- `s.padStart(length, pad)`. -/
def padStart (length : Nat) (pad : Char) (s : String) : String :=
  String.ofList (List.replicate (length - s.length) pad ++ s.toList)

/-- Nor do leading zeros change it. -/
theorem number_padStart (k n : Nat) : number (utf8 (padStart k '0' (toString n))) = n := by
  have htext : (toString n).toList = Nat.toDigits 10 n := Nat.toList_repr
  have hzeros : ∀ m, Nat.ofDigitChars 10 (List.replicate m '0') 0 = 0 := by
    intro m
    induction m with
    | zero => rfl
    | succ m ih => rw [List.replicate_succ, Nat.ofDigitChars_cons]; exact ih
  have hdigits : ∀ c ∈ List.replicate (k - (toString n).length) '0' ++ Nat.toDigits 10 n,
      c.isDigit = true := by
    intro c hc
    rcases List.mem_append.mp hc with hc | hc
    · rw [List.eq_of_mem_replicate hc]
      rfl
    · exact isDigit_toDigits n c hc
  rw [number, utf8, padStart, String.toList_ofList, htext, (number_digits hdigits 0).1,
    Nat.ofDigitChars_append, hzeros, Nat.ofDigitChars_ten_toDigits]

theorem length_padStart {k n : Nat} (hk : 0 < k) (h : n < 10 ^ k) :
    (utf8 (padStart k '0' (toString n))).length = k := by
  have htext : (toString n).toList = Nat.toDigits 10 n := Nat.toList_repr
  have hdigits : ∀ c ∈ List.replicate (k - (toString n).length) '0' ++ Nat.toDigits 10 n,
      c.isDigit = true := by
    intro c hc
    rcases List.mem_append.mp hc with hc | hc
    · rw [List.eq_of_mem_replicate hc]
      rfl
    · exact isDigit_toDigits n c hc
  have hlen : (toString n).length ≤ k := by
    rw [← String.length_toList, htext]
    exact (Nat.length_toDigits_le_iff (by decide) hk).mpr h
  rw [utf8, padStart, String.toList_ofList, htext, (number_digits hdigits 0).2.1,
    List.length_append, List.length_replicate, ← htext, String.length_toList]
  omega

/-! ## Objects -/

/-- Where parts start that are laid out one after the other from a position on. -/
def place : Nat → List (List UInt8) → List Nat
  | _, [] => []
  | pos, part :: parts => pos :: place (pos + part.length) parts

theorem length_place (pos : Nat) (parts : List (List UInt8)) :
    (place pos parts).length = parts.length := by
  induction parts generalizing pos with
  | nil => rfl
  | cons part parts ih => rw [place, List.length_cons, ih, List.length_cons]

theorem place_append (pos : Nat) (parts parts' : List (List UInt8)) :
    place pos (parts ++ parts') = place pos parts ++ place (pos + parts.flatten.length) parts' := by
  induction parts generalizing pos with
  | nil => rfl
  | cons part parts ih =>
    rw [List.cons_append, place, ih, place, List.flatten_cons, List.length_append, Nat.add_assoc]
    rfl

theorem le_of_mem_place {start pos : Nat} {parts : List (List UInt8)}
    (h : pos ∈ place start parts) : pos ≤ start + parts.flatten.length := by
  induction parts generalizing start with
  | nil => cases h
  | cons part parts ih =>
    rw [List.flatten_cons, List.length_append]
    rcases List.mem_cons.mp h with rfl | h
    · exact Nat.le_add_right _ _
    · rw [← Nat.add_assoc]
      exact ih h

/-- At the start of a part, there it is. -/
theorem drop_place (before : List UInt8) {parts : List (List UInt8)} {k : Nat} {part : List UInt8}
    (h : parts[k]? = some part) (rest : List UInt8) :
    ∃ pos, (place before.length parts)[k]? = some pos ∧
      ∃ after, (before ++ parts.flatten ++ rest).drop pos = part ++ after := by
  induction parts generalizing before k with
  | nil => cases h
  | cons p parts ih =>
    cases k with
    | zero =>
      cases h
      refine ⟨before.length, rfl, parts.flatten ++ rest, ?_⟩
      rw [List.append_assoc, List.drop_left, List.flatten_cons, List.append_assoc]
    | succ k =>
      obtain ⟨pos, hpos, after, hafter⟩ := ih (before ++ p) h
      rw [List.length_append] at hpos
      refine ⟨pos, hpos, after, ?_⟩
      rw [List.flatten_cons, ← List.append_assoc]
      exact hafter

/-- What comes after the first line. -/
def afterLine (file : List UInt8) : List UInt8 := (file.dropWhile fun b => b != 10).drop 1

/-- The position that the line of an object in the table at `xref` gives. The table opens with two
lines of its own. -/
def positionOf (file : List UInt8) (xref id : Nat) : Nat :=
  number (((afterLine (afterLine (file.drop xref))).drop (20 * id)).take 10)

/-- The file from where the table says that an object is. -/
def objectAt (file : List UInt8) (xref id : Nat) : List UInt8 :=
  file.drop (positionOf file xref id)

/-- The lines of a table are found by their number. -/
theorem drop_lines {lines : List (List UInt8)} (h : ∀ line ∈ lines, line.length = 20) {k : Nat}
    {line : List UInt8} (hk : lines[k]? = some line) (rest : List UInt8) :
    ∃ after, (lines.flatten ++ rest).drop (20 * k) = line ++ after := by
  induction lines generalizing k with
  | nil => cases hk
  | cons l lines ih =>
    have hl := h l List.mem_cons_self
    cases k with
    | zero =>
      cases hk
      exact ⟨lines.flatten ++ rest, by rw [List.flatten_cons, List.append_assoc]; rfl⟩
    | succ k =>
      obtain ⟨after, hafter⟩ := ih (fun m hm => h m (List.mem_cons_of_mem l hm)) hk
      refine ⟨after, ?_⟩
      rw [List.flatten_cons, List.append_assoc, ← hafter, Nat.mul_succ, Nat.add_comm,
        ← List.drop_drop, ← hl, List.drop_left]

/-- The line of an object that is in use. -/
def entryLine (pos : Nat) : List UInt8 :=
  utf8 (padStart 10 '0' (toString pos)) ++ utf8 " 00000 n \n"

theorem length_entryLine {pos : Nat} (h : pos < 10 ^ 10) : (entryLine pos).length = 20 := by
  have hrest : (utf8 " 00000 n \n").length = 10 := by
    rw [utf8_ofList]
    rfl
  rw [entryLine, List.length_append, length_padStart (by decide) h, hrest]

theorem number_entryLine {pos : Nat} (h : pos < 10 ^ 10) (rest : List UInt8) :
    number ((entryLine pos ++ rest).take 10) = pos := by
  have hlen := length_padStart (k := 10) (by decide) h
  rw [entryLine, List.append_assoc, List.take_append_of_le_length (Nat.le_of_eq hlen.symm),
    List.take_of_length_le (Nat.le_of_eq hlen), number_padStart]

/-- A table with a line for each part, after the two lines of its head and the line of an object
that is free, leads to the parts. -/
theorem objectAt_place {before head free rest : List UInt8} {parts : List (List UInt8)}
    (hhead : ∀ l, afterLine (afterLine (head ++ l)) = l) (hfree : free.length = 20)
    (hpos : ∀ pos ∈ place before.length parts, pos < 10 ^ 10) {k : Nat} {part : List UInt8}
    (hk : parts[k]? = some part) :
    ∃ after, objectAt (before ++ parts.flatten ++ (head ++
        ((free :: (place before.length parts).map entryLine).flatten ++ rest)))
      (before ++ parts.flatten).length (k + 1) = part ++ after := by
  obtain ⟨pos, hat, after, hafter⟩ := drop_place before hk (head ++
    ((free :: (place before.length parts).map entryLine).flatten ++ rest))
  have hlt := hpos pos (List.mem_of_getElem? hat)
  have hlines : ∀ line ∈ free :: (place before.length parts).map entryLine, line.length = 20 := by
    intro line hline
    rcases List.mem_cons.mp hline with rfl | hline
    · exact hfree
    · obtain ⟨p, hp, rfl⟩ := List.mem_map.mp hline
      exact length_entryLine (hpos p hp)
  have hline : (free :: (place before.length parts).map entryLine)[k + 1]? =
      some (entryLine pos) := by
    rw [List.getElem?_cons_succ, List.getElem?_map, hat, Option.map_some]
  obtain ⟨tail, htail⟩ := drop_lines hlines hline rest
  refine ⟨after, ?_⟩
  rw [objectAt, positionOf, List.drop_left, hhead, htail, number_entryLine hlt, hafter]

/-! ## Streams -/

/-- What comes after the first occurrence of a word. -/
def afterWord (word : List UInt8) : List UInt8 → Option (List UInt8)
  | [] => none
  | b :: file => if word <+: b :: file then some ((b :: file).drop word.length)
    else afterWord word file

/-- The data of a stream: as many bytes after `stream` and its line end as its `/Length` says. -/
def streamData (object : List UInt8) : Option (List UInt8) := do
  let rest ← afterWord (utf8 "/Length ") object
  let data ← afterWord (utf8 "stream\n") rest
  pure (data.take (number (rest.takeWhile isDigit)))

theorem afterWord_here {word : List UInt8} (hne : word ≠ []) (rest : List UInt8) :
    afterWord word (word ++ rest) = some rest := by
  cases word with
  | nil => exact absurd rfl hne
  | cons b word =>
    rw [List.cons_append, afterWord, ← List.cons_append, if_pos (List.prefix_append _ _),
      List.drop_left]

/-- Bytes before a word that a search for it passes over. -/
def Passes (word before : List UInt8) : Prop :=
  ∀ rest, afterWord word (before ++ rest) = afterWord word rest

theorem Passes.append {word before before' : List UInt8} (h : Passes word before)
    (h' : Passes word before') : Passes word (before ++ before') := fun rest => by
  rw [List.append_assoc, h, h']

/-- Bytes that do not start the word are passed over. -/
theorem Passes.of_not_mem {b : UInt8} {before : List UInt8} (h : b ∉ before)
    (word : List UInt8) : Passes (b :: word) before := by
  intro rest
  induction before with
  | nil => rfl
  | cons c before ih =>
    have hne : ¬ b :: word <+: c :: (before ++ rest) := fun hp =>
      h ((List.cons_prefix_cons.mp hp).1 ▸ List.mem_cons_self)
    rw [List.cons_append, afterWord, if_neg hne]
    exact ih fun hb => h (List.mem_cons_of_mem c hb)

/-- So are those that start it where its second byte does not follow. -/
theorem Passes.of_pair {a b : UInt8} {before : List UInt8} (h : ¬ [a, b] <:+: before)
    (hlast : before.getLast? ≠ some a) (word : List UInt8) : Passes (a :: b :: word) before := by
  intro rest
  induction before with
  | nil => rfl
  | cons c before ih =>
    have hne : ¬ a :: b :: word <+: c :: (before ++ rest) := by
      intro hp
      obtain ⟨rfl, hnext⟩ := List.cons_prefix_cons.mp hp
      cases before with
      | nil => exact hlast rfl
      | cons d before =>
        obtain ⟨rfl, -⟩ := List.cons_prefix_cons.mp hnext
        exact h ⟨[], before, rfl⟩
    rw [List.cons_append, afterWord, if_neg hne]
    refine ih (fun hi => h (hi.trans (List.suffix_cons c before).isInfix)) fun hl => hlast ?_
    rw [List.getLast?_cons, hl, Option.getD_some]

/-- The data of a stream whose dictionary has its length in decimal. -/
theorem streamData_eq {before between : List UInt8} (hbefore : Passes (utf8 "/Length ") before)
    {b : UInt8} (hdigit : isDigit b = false) (hbetween : 115 ∉ b :: between) (n : Nat)
    (rest : List UInt8) :
    streamData (before ++ (utf8 "/Length " ++ (utf8 (toString n) ++
      (b :: between ++ (utf8 "stream\n" ++ rest))))) = some (rest.take n) := by
  have hdigits := isDigit_toString n
  have hlength : ∀ l, afterWord (utf8 "/Length ") (before ++ (utf8 "/Length " ++ l)) = some l := by
    intro l
    rw [hbefore]
    have hword : utf8 "/Length " = 47 :: utf8 "Length " := utf8_cons rfl _
    rw [hword]
    exact afterWord_here (List.cons_ne_nil _ _) l
  have hstream : ∀ l, afterWord (utf8 "stream\n")
      (utf8 (toString n) ++ (b :: between ++ (utf8 "stream\n" ++ l))) = some l := by
    intro l
    have hno : 115 ∉ utf8 (toString n) ++ b :: between := by
      intro hmem
      rcases List.mem_append.mp hmem with hmem | hmem
      · exact absurd (hdigits _ hmem) (by decide)
      · exact hbetween hmem
    have hword : utf8 "stream\n" = 115 :: utf8 "tream\n" := utf8_cons rfl _
    rw [hword, ← List.append_assoc, Passes.of_not_mem hno]
    exact afterWord_here (List.cons_ne_nil _ _) l
  have htake : (utf8 (toString n) ++ (b :: between ++ (utf8 "stream\n" ++ rest))).takeWhile
      isDigit = utf8 (toString n) := by
    rw [List.takeWhile_append_of_pos hdigits, List.cons_append, List.takeWhile_cons_of_neg,
      List.append_nil]
    rw [hdigit]
    decide
  rw [streamData, hlength, Option.bind_eq_bind, Option.bind_some, hstream, Option.bind_some, htake,
    number_toString]
  rfl

end Pdf
