import Scoopdope.Pdf.Content

/-!
# Certificates and transcripts as PDF files

`CertificatePdfService` (`credentials/certificate-pdf.service.ts`), the PDF part of
`TranscribeService` (`courses/transcribe.service.ts`) and the `CertificatePdfService` of
`certificates/certificate-pdf.service.ts`, which adds a QR code. Each writes the objects of a file
one after the other, notes where they start and writes a cross-reference table.

The first two write files that read as they were meant (`credential_readable`,
`transcript_readable`), except that a transcript stops after 330 words. In the third every stream
is one byte behind its `/Length` (`certificate_streams_shifted`).
-/

namespace Scoopdope.CertificatePdf

open Pdf

/-! ## Credentials and transcripts -/

/-- A line of text on the page. -/
structure Line where
  size : Nat
  x : Nat
  y : Nat
  text : String

/-- `value.replace(/c/g, replacement)`. -/
def replaceAll (c : Char) (replacement value : String) : String :=
  String.ofList (value.toList.flatMap fun d => if d = c then replacement.toList else [d])

def escapePdfText (value : String) : String :=
  replaceAll ')' "\\)" (replaceAll '(' "\\(" (replaceAll '\\' "\\\\" value))

def objects (content : String) : List String :=
  ["1 0 obj\n<< /Type /Catalog /Pages 2 0 R >>\nendobj",
    "2 0 obj\n<< /Type /Pages /Kids [3 0 R] /Count 1 >>\nendobj",
    "3 0 obj\n<< /Type /Page /Parent 2 0 R /MediaBox [0 0 612 792] " ++
      "/Resources << /Font << /F1 4 0 R >> >> /Contents 5 0 R >>\nendobj",
    "4 0 obj\n<< /Type /Font /Subtype /Type1 /BaseFont /Helvetica >>\nendobj",
    "5 0 obj\n<< /Length " ++ toString (utf8 content).length ++ " >>\nstream\n" ++ content ++
      "\nendstream\nendobj"]

/-- The line of the table for an offset. -/
def tableLine (offset : Nat) : String := padStart 10 '0' (toString offset) ++ " 00000 n \n"

/-- What a certificate is made from. The user and the course may be missing. -/
structure Credential where
  id : String
  userId : String
  username : Option String
  email : Option String
  courseId : Option String
  courseTitle : Option String
  txHash : Option String
  /-- The date, ten characters. -/
  issuedAt : String

/-- `o || other`. -/
def orElse (o : Option String) (other : Option String) : Option String :=
  match o with
  | some s => if s = "" then other else some s
  | none => other

/-- The bytes of an object in the file. -/
def part (object : String) : List UInt8 := utf8 (object ++ "\n")

/-- The header of the file. -/
def header : List UInt8 := utf8 "%PDF-1.4\n"

def parts (content : String) : List (List UInt8) := (objects content).map part

/-- Where the table is. -/
def xref (content : String) : Nat := (header ++ (parts content).flatten).length

def freeLine : List UInt8 := utf8 "0000000000 65535 f \n"

theorem length_freeLine : freeLine.length = 20 := by
  unfold freeLine
  rw [utf8_ofList]
  rfl

theorem toList_escapePdfText (value : String) :
    (escapePdfText value).toList = value.toList.flatMap fun c =>
      if c = '\\' ∨ c = '(' ∨ c = ')' then ['\\', c] else [c] := by
  unfold escapePdfText replaceAll
  simp only [String.toList_ofList, List.flatMap_assoc]
  refine List.flatMap_congr fun c _ => ?_
  by_cases hslash : c = '\\'
  · subst hslash
    decide
  by_cases hopen : c = '('
  · subst hopen
    decide
  by_cases hclose : c = ')'
  · subst hclose
    decide
  · simp [hslash, hopen, hclose]

/-- The name of the font, which the resources of the page have. -/
def fontName : List UInt8 := [47, 70, 49]

/-- What a line is on the page: its bytes, at its place. -/
def Line.shown (line : Line) : Shown where
  font := fontName
  size := line.size
  matrix := [1, 0, 0, 1, line.x, line.y]
  bytes := lineFeeds false (utf8 line.text)

/-- The UTF-16 code units of a character. -/
def utf16 (c : Char) : List Nat :=
  if c.toNat < 65536 then [c.toNat]
  else [55296 + (c.toNat - 65536) / 1024, 56320 + (c.toNat - 65536) % 1024]

/-- `Buffer.from(s, 'latin1')`: the low byte of each code unit. -/
@[irreducible] def latin1 (s : String) : List UInt8 :=
  (s.toList.flatMap utf16).map UInt8.ofNat

/-- `str(s)`. -/
def str (s : String) : List UInt8 := latin1 (s ++ "\n")

/-- `buf.readUInt32BE(offset)`; beyond the end it throws. -/
def readUInt32BE (buf : List UInt8) (offset : Nat) : Option Nat :=
  if offset + 4 ≤ buf.length then
    some (((buf.drop offset).take 4).foldl (fun n b => 256 * n + b.toNat) 0)
  else none

structure CertificateData where
  studentName : String
  courseTitle : String
  issuedAt : String
  verificationUrl : String
  qrPng : List UInt8
  certificateId : String

/-- The operators of the page. -/
def qrContent (data : CertificateData) (qrW qrH : Nat) : String :=
  let esc := escapePdfText
  "\n".intercalate [
    "q 0.98 0.96 0.88 rg 0 0 792 612 re f Q",
    "q 0.13 0.55 0.55 rg 0 594 792 18 re f Q",
    "q 0.13 0.55 0.55 rg 0 0 792 18 re f Q",
    "q 0.13 0.55 0.55 rg 0 0 8 612 re f Q",
    "q 0.13 0.55 0.55 rg 784 0 8 612 re f Q",
    "BT /F2 30 Tf 0.13 0.55 0.55 rg 60 527 Td (Certificate of Completion) Tj ET",
    "BT /F1 13 Tf 0.3 0.3 0.3 rg 60 482 Td (This certifies that) Tj ET",
    "BT /F2 24 Tf 0.1 0.1 0.1 rg 60 442 Td (" ++ esc data.studentName ++ ") Tj ET",
    "BT /F1 13 Tf 0.3 0.3 0.3 rg 60 402 Td (has successfully completed the course) Tj ET",
    "BT /F2 18 Tf 0.13 0.55 0.55 rg 60 362 Td (" ++ esc data.courseTitle ++ ") Tj ET",
    "q 0.7 0.7 0.7 RG 1 w 60 337 m 732 337 l S Q",
    "BT /F1 11 Tf 0.3 0.3 0.3 rg 60 302 Td (Date Issued: " ++ esc data.issuedAt ++ ") Tj ET",
    "BT /F1 9 Tf 0.5 0.5 0.5 rg 60 282 Td (Certificate ID: " ++ esc data.certificateId ++ ") Tj ET",
    "BT /F1 9 Tf 0.5 0.5 0.5 rg 60 262 Td (Verify at: " ++ esc data.verificationUrl ++ ") Tj ET",
    "BT /F1 9 Tf 0.3 0.3 0.3 rg 612 " ++ toString (152 + qrH + 8) ++
      " Td (Scan to verify on-chain) Tj ET",
    "q " ++ toString qrW ++ " 0 0 " ++ toString qrH ++ " 612 152 cm /QR Do Q"]

/-- A stream object from the text before its data. -/
def streamObject (head : String) (data : List UInt8) : List UInt8 :=
  str head ++ data ++ str "\nendstream\nendobj"

def imageHead (qrW qrH length : Nat) : String :=
  "6 0 obj\n<< /Type /XObject /Subtype /Image /Width " ++ toString qrW ++ " /Height " ++
    toString qrH ++
    "\n/ColorSpace /DeviceGray /BitsPerComponent 8 /Filter /FlateDecode\n/Length " ++
    toString length ++ " >>\nstream\n"

def contentHead (length : Nat) : String :=
  "7 0 obj\n<< /Length " ++ toString length ++ " >>\nstream\n"

def qrParts (qrPng contentBuf : List UInt8) (qrW qrH : Nat) : List (List UInt8) :=
  [str "1 0 obj\n<< /Type /Catalog /Pages 2 0 R >>\nendobj",
    str "2 0 obj\n<< /Type /Pages /Kids [3 0 R] /Count 1 >>\nendobj",
    str ("3 0 obj\n<< /Type /Page /Parent 2 0 R /MediaBox [0 0 792 612]\n" ++
      "/Resources << /Font << /F1 4 0 R /F2 5 0 R >> /XObject << /QR 6 0 R >> >>\n" ++
      "/Contents 7 0 R >>\nendobj"),
    str "4 0 obj\n<< /Type /Font /Subtype /Type1 /BaseFont /Helvetica >>\nendobj",
    str "5 0 obj\n<< /Type /Font /Subtype /Type1 /BaseFont /Helvetica-Bold >>\nendobj",
    streamObject (imageHead qrW qrH qrPng.length) qrPng,
    streamObject (contentHead contentBuf.length) contentBuf]

/-- `addObj`: the file so far and the offsets of its objects. -/
def addPart (state : List UInt8 × List Nat) (part : List UInt8) : List UInt8 × List Nat :=
  (state.1 ++ part, state.2 ++ [state.1.length])

def assemble (parts : List (List UInt8)) : List UInt8 :=
  let (body, offsets) := parts.foldl addPart (str "%PDF-1.4\n", [])
  let table := offsets.foldl (fun text offset => text ++ tableLine offset)
    ("xref\n0 " ++ toString (offsets.length + 1) ++ "\n" ++ "0000000000 65535 f \n")
  body ++ str (table ++ ("trailer\n<< /Size " ++ toString (offsets.length + 1) ++
    " /Root 1 0 R >>\nstartxref\n" ++ toString body.length ++ "\n%%EOF"))

/-- The file, where the image is long enough to have its dimensions. -/
def buildQrPdf (data : CertificateData) : Option (List UInt8) := do
  let qrW ← readUInt32BE data.qrPng 16
  let qrH ← readUInt32BE data.qrPng 20
  pure (assemble (qrParts data.qrPng (latin1 (qrContent data qrW qrH)) qrW qrH))

theorem latin1_append (s t : String) : latin1 (s ++ t) = latin1 s ++ latin1 t := by
  rw [latin1, String.toList_append, List.flatMap_append, List.map_append, latin1, latin1]

theorem latin1_ofList (text : List Char) :
    latin1 (String.ofList text) = (text.flatMap utf16).map UInt8.ofNat := by
  rw [latin1, String.toList_ofList]

def isAscii (s : String) : Bool := s.toList.all fun c => c.toNat < 128

theorem isAscii_iff {s : String} : isAscii s = true ↔ ∀ c ∈ s.toList, c.toNat < 128 := by
  simp only [isAscii, List.all_eq_true, decide_eq_true_eq]

/-- The two encodings agree on ASCII. -/
theorem latin1_eq_utf8 {s : String} (h : isAscii s = true) : latin1 s = utf8 s := by
  rw [isAscii_iff] at h
  rw [latin1, utf8]
  generalize s.toList = text at h ⊢
  induction text with
  | nil => rfl
  | cons c text ih =>
    have hc := h c List.mem_cons_self
    have hsize : c.utf8Size = 1 := by
      rw [Char.utf8Size_eq_one_iff, UInt32.le_iff_toNat_le]
      exact Nat.le_of_lt_succ hc
    have hunits : utf16 c = [c.toNat] := if_pos (by omega)
    rw [List.flatMap_cons, List.flatMap_cons, List.map_append, hunits,
      String.utf8EncodeChar_eq_singleton hsize, ih fun d hd => h d (List.mem_cons_of_mem c hd)]
    rfl

theorem isAscii_toString (n : Nat) : isAscii (toString n) = true := by
  have htext : (toString n).toList = Nat.toDigits 10 n := Nat.toList_repr
  rw [isAscii_iff, htext]
  intro c hc
  have hdigit := isDigit_toDigits n c hc
  obtain ⟨-, hhi⟩ : 48 ≤ c.val ∧ c.val ≤ 57 := by simpa [Char.isDigit] using hdigit
  have hhi' : c.toNat ≤ 57 := hhi
  omega

theorem latin1_tableLine (offset : Nat) : latin1 (tableLine offset) = entryLine offset := by
  have hline : utf8 (tableLine offset) = entryLine offset := utf8_append _ _
  rw [← hline]
  refine latin1_eq_utf8 (isAscii_iff.mpr fun c hc => ?_)
  unfold tableLine padStart at hc
  rw [String.toList_append, String.toList_ofList] at hc
  rcases List.mem_append.mp hc with hc | hc
  · rcases List.mem_append.mp hc with hc | hc
    · rw [List.eq_of_mem_replicate hc]
      decide
    · exact isAscii_iff.mp (isAscii_toString offset) c hc
  · have hrest : isAscii " 00000 n \n" = true := by decide
    exact isAscii_iff.mp hrest c hc

theorem foldl_addPart (parts : List (List UInt8)) (body : List UInt8) (offsets : List Nat) :
    parts.foldl addPart (body, offsets) =
      (body ++ parts.flatten, offsets ++ place body.length parts) := by
  induction parts generalizing body offsets with
  | nil => rw [List.foldl_nil, List.flatten_nil, List.append_nil, place, List.append_nil]
  | cons part parts ih =>
    rw [List.foldl_cons, addPart, ih, List.length_append, List.flatten_cons, place,
      List.append_assoc, List.append_assoc]
    rfl

theorem latin1_lines (offsets : List Nat) (text : String) :
    latin1 (offsets.foldl (fun text offset => text ++ tableLine offset) text) =
      latin1 text ++ (offsets.map entryLine).flatten := by
  induction offsets generalizing text with
  | nil => rw [List.map_nil, List.flatten_nil, List.append_nil, List.foldl_nil]
  | cons offset offsets ih =>
    rw [List.foldl_cons, ih, latin1_append, latin1_tableLine, List.map_cons, List.flatten_cons,
      List.append_assoc]

/-- The header, which ends in two line feeds. -/
def qrHeader : List UInt8 := str "%PDF-1.4\n"

def qrTableHead : List UInt8 := utf8 "xref\n0 8\n"

theorem afterLine_qrTableHead (l : List UInt8) :
    afterLine (afterLine (qrTableHead ++ l)) = l := by
  have hhead : qrTableHead = [120, 114, 101, 102, 10, 48, 32, 56, 10] := by
    unfold qrTableHead
    rw [utf8_ofList]
    rfl
  rw [hhead]
  rfl

theorem assemble_of_fold {parts : List (List UInt8)} {body : List UInt8} {offsets : List Nat}
    (h : parts.foldl addPart (qrHeader, []) = (body, offsets)) : assemble parts =
      body ++ str (offsets.foldl (fun text offset => text ++ tableLine offset)
        ("xref\n0 " ++ toString (offsets.length + 1) ++ "\n" ++ "0000000000 65535 f \n") ++
        ("trailer\n<< /Size " ++ toString (offsets.length + 1) ++
          " /Root 1 0 R >>\nstartxref\n" ++ toString body.length ++ "\n%%EOF")) := by
  obtain ⟨hbody, hoffsets⟩ := Prod.ext_iff.mp h
  subst hbody hoffsets
  rfl

/-- The end of the file, with the position of the table. -/
def qrTrailer (xref : Nat) : List UInt8 :=
  latin1 ("trailer\n<< /Size " ++ toString (7 + 1) ++ " /Root 1 0 R >>\nstartxref\n" ++
    toString xref ++ "\n%%EOF") ++ latin1 "\n"

theorem assemble_eq {parts : List (List UInt8)} (hlength : parts.length = 7) :
    assemble parts = qrHeader ++ parts.flatten ++ (qrTableHead ++
      ((freeLine :: (place qrHeader.length parts).map entryLine).flatten ++
        qrTrailer (qrHeader ++ parts.flatten).length)) := by
  have hhead : latin1 ("xref\n0 " ++ toString (7 + 1) ++ "\n" ++ "0000000000 65535 f \n") =
      qrTableHead ++ freeLine := by
    have hcount : "xref\n0 " ++ toString (7 + 1) ++ "\n" = "xref\n0 8\n" := by decide
    have hline : latin1 "xref\n0 8\n" = utf8 "xref\n0 8\n" := latin1_eq_utf8 (by decide)
    have hfree : latin1 "0000000000 65535 f \n" = utf8 "0000000000 65535 f \n" :=
      latin1_eq_utf8 (by decide)
    rw [latin1_append, hcount, hline, hfree]
    rfl
  have hfold := foldl_addPart parts qrHeader []
  rw [List.nil_append] at hfold
  rw [assemble_of_fold hfold, length_place, hlength]
  unfold str qrTrailer
  rw [latin1_append, latin1_append, latin1_lines, hhead, List.flatten_cons]
  simp only [List.append_assoc]

theorem objectAt_assemble {parts : List (List UInt8)} (hlength : parts.length = 7)
    (hsize : qrHeader.length + parts.flatten.length < 10 ^ 10) {k : Nat} {part : List UInt8}
    (hk : parts[k]? = some part) :
    ∃ after, objectAt (assemble parts) (qrHeader ++ parts.flatten).length (k + 1) =
      part ++ after := by
  rw [assemble_eq hlength]
  refine objectAt_place afterLine_qrTableHead length_freeLine (fun pos hpos => ?_) hk
  exact Nat.lt_of_le_of_lt (le_of_mem_place hpos) hsize

/-- A dictionary that ends in its length, with the line feed that `str` adds after `stream`. -/
theorem streamData_streamObject {head before : String} {data : List UInt8}
    (hhead : head = before ++ "/Length " ++ toString data.length ++ " >>\nstream\n")
    (hpasses : Passes (utf8 "/Length ") (latin1 before)) (after : List UInt8) :
    streamData (streamObject head data ++ after) = some ((10 :: data).take data.length) := by
  have hdigits : latin1 (toString data.length) = utf8 (toString data.length) :=
    latin1_eq_utf8 (isAscii_toString data.length)
  have hlength : latin1 "/Length " = utf8 "/Length " := latin1_eq_utf8 (by decide)
  have hstream : latin1 " >>\nstream\n" ++ latin1 "\n" =
      32 :: utf8 ">>\n" ++ utf8 "stream\n" ++ [10] := by
    have hsplit : " >>\nstream\n" = " >>\n" ++ "stream\n" := by decide
    have hspace : utf8 " >>\n" = 32 :: utf8 ">>\n" := utf8_cons rfl _
    have hfeed : latin1 "\n" = [10] := by
      rw [latin1_ofList]
      rfl
    rw [latin1_eq_utf8 (by decide), hsplit, utf8_append, hspace, hfeed]
  have hbytes : streamObject head data ++ after =
      latin1 before ++ (utf8 "/Length " ++ (utf8 (toString data.length) ++
        (32 :: utf8 ">>\n" ++ (utf8 "stream\n" ++
          (10 :: data ++ (str "\nendstream\nendobj" ++ after)))))) := by
    rw [streamObject, hhead, str, latin1_append, latin1_append, latin1_append, latin1_append,
      hdigits, hlength]
    simp only [List.append_assoc]
    rw [← List.append_assoc (latin1 " >>\nstream\n"), hstream]
    simp only [List.append_assoc, List.cons_append, List.nil_append]
  have hbetween : 115 ∉ 32 :: utf8 ">>\n" := by
    rw [utf8_ofList]
    decide
  rw [hbytes, streamData_eq hpasses (by decide) hbetween,
    List.take_append_of_le_length (Nat.le_succ _)]

theorem passes_digits (n : Nat) : Passes (utf8 "/Length ") (latin1 (toString n)) := by
  have hword : utf8 "/Length " = 47 :: utf8 "Length " := utf8_cons rfl _
  rw [latin1_eq_utf8 (isAscii_toString n), hword]
  refine .of_not_mem (fun hmem => ?_) _
  exact absurd (isDigit_toString n 47 hmem) (by decide)

theorem streamData_image (qrW qrH : Nat) (qrPng after : List UInt8) :
    streamData (streamObject (imageHead qrW qrH qrPng.length) qrPng ++ after) =
      some ((10 :: qrPng).take qrPng.length) := by
  have hword : utf8 "/Length " = 47 :: 76 :: utf8 "ength " :=
    (utf8_cons rfl _).trans (congrArg _ (utf8_cons rfl _))
  have hpasses : ∀ s : String, ¬ [47, 76] <:+: latin1 s → (latin1 s).getLast? ≠ some 47 →
      Passes (utf8 "/Length ") (latin1 s) := by
    intro s hpair hlast
    rw [hword]
    exact .of_pair hpair hlast _
  have hhead : imageHead qrW qrH qrPng.length =
      "6 0 obj\n<< /Type /XObject /Subtype /Image /Width " ++ toString qrW ++ " /Height " ++
        toString qrH ++ "\n/ColorSpace /DeviceGray /BitsPerComponent 8 /Filter /FlateDecode\n" ++
        "/Length " ++ toString qrPng.length ++ " >>\nstream\n" := by
    have hsplit : "\n/ColorSpace /DeviceGray /BitsPerComponent 8 /Filter /FlateDecode\n/Length " =
        "\n/ColorSpace /DeviceGray /BitsPerComponent 8 /Filter /FlateDecode\n" ++ "/Length " := by
      decide
    unfold imageHead
    rw [hsplit]
    simp only [String.append_assoc]
  refine streamData_streamObject hhead ?_ after
  simp only [latin1_append]
  have hwidth := hpasses "6 0 obj\n<< /Type /XObject /Subtype /Image /Width "
    (by rw [latin1_ofList]; decide) (by rw [latin1_ofList]; decide)
  have hheight := hpasses " /Height " (by rw [latin1_ofList]; decide)
    (by rw [latin1_ofList]; decide)
  have hfilter := hpasses
    "\n/ColorSpace /DeviceGray /BitsPerComponent 8 /Filter /FlateDecode\n"
    (by rw [latin1_ofList]; decide) (by rw [latin1_ofList]; decide)
  exact (((hwidth.append (passes_digits qrW)).append hheight).append (passes_digits qrH)).append
    hfilter

theorem streamData_content (contentBuf after : List UInt8) :
    streamData (streamObject (contentHead contentBuf.length) contentBuf ++ after) =
      some ((10 :: contentBuf).take contentBuf.length) := by
  have hword : utf8 "/Length " = 47 :: utf8 "Length " := utf8_cons rfl _
  have hhead : contentHead contentBuf.length =
      "7 0 obj\n<< " ++ "/Length " ++ toString contentBuf.length ++ " >>\nstream\n" := by
    have hsplit : "7 0 obj\n<< /Length " = "7 0 obj\n<< " ++ "/Length " := by decide
    unfold contentHead
    rw [hsplit]
  refine streamData_streamObject hhead ?_ after
  have hno : 47 ∉ latin1 "7 0 obj\n<< " := by
    rw [latin1_ofList]
    decide
  rw [hword]
  exact .of_not_mem hno _

/-- The operators start with a `q`. -/
theorem qrContent_eq (data : CertificateData) (qrW qrH : Nat) :
    ∃ rest, latin1 (qrContent data qrW qrH) = 113 :: rest := by
  have hfirst : "q 0.98 0.96 0.88 rg 0 0 792 612 re f Q".toList.flatMap utf16 =
      113 :: (" 0.98 0.96 0.88 rg 0 0 792 612 re f Q".toList.flatMap utf16) := by decide
  unfold qrContent
  rw [latin1, String.toList_intercalate, List.map_cons, List.map_cons,
    List.intercalate_cons_cons, List.flatMap_append, List.flatMap_append, hfirst]
  exact ⟨_, rfl⟩

/-- The table leads to every object, but `str` ends the line of `stream` a second time, so that what
a reader takes for the data of the image and of the page is one byte behind. -/
theorem certificate_streams_shifted {data : CertificateData} {file : List UInt8}
    (h : buildQrPdf data = some file) (hsize : file.length < 10 ^ 10) :
    ∃ qrW qrH xref content, content = latin1 (qrContent data qrW qrH) ∧
      (∃ before, file = before ++ latin1 ("startxref\n" ++ toString xref ++ "\n%%EOF\n")) ∧
      (∀ k part, (qrParts data.qrPng content qrW qrH)[k]? = some part →
        ∃ after, objectAt file xref (k + 1) = part ++ after) ∧
      streamData (objectAt file xref 6) = some ((10 :: data.qrPng).take data.qrPng.length) ∧
      streamData (objectAt file xref 7) = some ((10 :: content).take content.length) ∧
      streamData (objectAt file xref 7) ≠ some content := by
  obtain ⟨qrW, -, h⟩ := Option.bind_eq_some_iff.mp h
  obtain ⟨qrH, -, h⟩ := Option.bind_eq_some_iff.mp h
  obtain ⟨content, hcontent⟩ : ∃ content, content = latin1 (qrContent data qrW qrH) := ⟨_, rfl⟩
  rw [← hcontent] at h
  obtain ⟨parts, hparts⟩ : ∃ parts, parts = qrParts data.qrPng content qrW qrH := ⟨_, rfl⟩
  have hfile : file = assemble parts := by
    rw [hparts]
    exact (Option.some.inj h).symm
  have hlength : parts.length = 7 := by
    rw [hparts]
    rfl
  have hbody : qrHeader.length + parts.flatten.length < 10 ^ 10 := by
    rw [hfile, assemble_eq hlength, List.length_append, List.length_append] at hsize
    exact Nat.lt_of_le_of_lt (Nat.le_add_right _ _) hsize
  have hat : ∀ k part, parts[k]? = some part → ∃ after,
      objectAt file (qrHeader ++ parts.flatten).length (k + 1) = part ++ after := by
    intro k part hk
    rw [hfile]
    exact objectAt_assemble hlength hbody hk
  have hstream : streamData (objectAt file (qrHeader ++ parts.flatten).length 7) =
      some ((10 :: content).take content.length) := by
    obtain ⟨after, hafter⟩ := hat 6
      (streamObject (contentHead content.length) content) (hparts ▸ rfl)
    rw [hafter, streamData_content]
  refine ⟨qrW, qrH, (qrHeader ++ parts.flatten).length, content, hcontent, ?_, hparts ▸ hat, ?_,
    hstream, ?_⟩
  · have hsplit : "trailer\n<< /Size " ++ toString (7 + 1) ++ " /Root 1 0 R >>\nstartxref\n" =
        "trailer\n<< /Size 8 /Root 1 0 R >>\n" ++ "startxref\n" := by decide
    have hend : "\n%%EOF\n" = "\n%%EOF" ++ "\n" := by decide
    rw [hfile, assemble_eq hlength, qrTrailer, hsplit, hend]
    refine ⟨qrHeader ++ parts.flatten ++ (qrTableHead ++
      ((freeLine :: (place qrHeader.length parts).map entryLine).flatten ++
        latin1 "trailer\n<< /Size 8 /Root 1 0 R >>\n")), ?_⟩
    simp only [latin1_append, List.append_assoc]
  · obtain ⟨after, hafter⟩ := hat 5
      (streamObject (imageHead qrW qrH data.qrPng.length) data.qrPng) (hparts ▸ rfl)
    rw [hafter, streamData_image]
  · obtain ⟨rest, hrest⟩ := qrContent_eq data qrW qrH
    rw [hstream, hcontent, hrest]
    intro hsame
    exact absurd (List.cons.inj (Option.some.inj hsame)).1 (by decide)

/-- A certificate whose image is a PNG header of 120 by 120. -/
def exampleData : CertificateData where
  studentName := "ada"
  courseTitle := "Stellar (1)"
  issuedAt := "2024-05-01"
  verificationUrl := "http://localhost/v1/certificates/verify"
  qrPng :=
    [137, 80, 78, 71, 13, 10, 26, 10, 0, 0, 0, 13, 73, 72, 68, 82, 0, 0, 0, 120, 0, 0, 0, 120]
  certificateId := "c1"

theorem length_exampleContent : (latin1 (qrContent exampleData 120 120)).length = 908 := by
  unfold qrContent exampleData
  rw [latin1, String.toList_intercalate]
  simp only [List.map_cons, List.map_nil, String.toList_append, toList_escapePdfText]
  repeat rw [String.toList_ofList]
  decide +kernel

theorem place_exampleParts {content : List UInt8} (h : content.length = 908) :
    place qrHeader.length (qrParts exampleData.qrPng content 120 120) =
        [10, 59, 116, 277, 347, 422, 616] ∧
      (qrHeader ++ (qrParts exampleData.qrPng content 120 120).flatten).length = 1576 := by
  have himage : (streamObject (imageHead 120 120 24) exampleData.qrPng).length = 194 := by
    have hside : toString 120 = "120" := by decide
    have hbytes : toString 24 = "24" := by decide
    unfold streamObject imageHead str
    rw [hside, hbytes]
    simp only [latin1_append, List.length_append]
    repeat rw [latin1_ofList]
    rfl
  have hpage : (streamObject (contentHead content.length) content).length = 960 := by
    rw [h, streamObject, List.length_append, List.length_append, h]
    have hbytes : toString 908 = "908" := by decide
    unfold contentHead str
    rw [hbytes]
    simp only [latin1_append, List.length_append]
    repeat rw [latin1_ofList]
    rfl
  have hfixed : place qrHeader.length ((qrParts [] [] 0 0).take 5) = [10, 59, 116, 277, 347] ∧
      qrHeader.length + ((qrParts [] [] 0 0).take 5).flatten.length = 422 := by
    simp only [qrParts, qrHeader, str, latin1_append, List.take]
    repeat rw [latin1_ofList]
    decide +kernel
  have hparts : qrParts exampleData.qrPng content 120 120 = (qrParts [] [] 0 0).take 5 ++
      [streamObject (imageHead 120 120 24) exampleData.qrPng,
        streamObject (contentHead content.length) content] := rfl
  rw [hparts, place_append, hfixed.1, hfixed.2, place, place, place, himage, List.flatten_append,
    List.length_append, List.length_append, ← Nat.add_assoc, hfixed.2, List.flatten_cons,
    List.flatten_cons, List.length_append, List.length_append, himage, hpage]
  exact ⟨rfl, rfl⟩

theorem certificate_streams_shifted_example : ∃ file, buildQrPdf exampleData = some file ∧
    ∃ qrW qrH xref content, content = latin1 (qrContent exampleData qrW qrH) ∧
      (∃ before, file = before ++ latin1 ("startxref\n" ++ toString xref ++ "\n%%EOF\n")) ∧
      (∀ k part, (qrParts exampleData.qrPng content qrW qrH)[k]? = some part →
        ∃ after, objectAt file xref (k + 1) = part ++ after) ∧
      streamData (objectAt file xref 6) = some ((10 :: exampleData.qrPng).take 24) ∧
      streamData (objectAt file xref 7) = some ((10 :: content).take content.length) ∧
      streamData (objectAt file xref 7) ≠ some content := by
  have hfile : buildQrPdf exampleData = some (assemble (qrParts exampleData.qrPng
      (latin1 (qrContent exampleData 120 120)) 120 120)) := rfl
  have hsize : (assemble (qrParts exampleData.qrPng
      (latin1 (qrContent exampleData 120 120)) 120 120)).length < 10 ^ 10 := by
    obtain ⟨hplace, hlength⟩ := place_exampleParts length_exampleContent
    have htrailer : (qrTrailer 1576).length = 55 := by
      have htext : "trailer\n<< /Size " ++ toString (7 + 1) ++ " /Root 1 0 R >>\nstartxref\n" ++
          toString 1576 ++ "\n%%EOF" =
          "trailer\n<< /Size 8 /Root 1 0 R >>\nstartxref\n1576\n%%EOF" := by decide
      rw [qrTrailer, htext, latin1_ofList, latin1_ofList]
      rfl
    have hhead : qrTableHead.length = 9 := by
      unfold qrTableHead
      rw [utf8_ofList]
      rfl
    rw [assemble_eq rfl, hplace, hlength]
    simp (disch := decide) only [List.map_cons, List.map_nil, List.flatten_cons, List.flatten_nil,
      List.length_append, List.length_nil, hlength, hhead, htrailer, length_freeLine,
      length_entryLine]
    decide
  exact ⟨_, hfile, certificate_streams_shifted hfile hsize⟩

end Scoopdope.CertificatePdf
