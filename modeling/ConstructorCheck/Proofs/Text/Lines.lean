import ConstructorCheck.Proofs.Text.Newlines
/-!
# The lines of a text

A text falls into lines. Each but the last is a run of characters without terminator characters,
followed by one terminator; nothing ends the last one. A line map knows these lines: it holds where
they start, and finds where their content ends and which of them an offset belongs to.

* `FallsInto` — a text and its lines
* `exists_fallsInto` — every text falls into lines
* `FallsInto.lineStart?_eq`, `FallsInto.lineEnd?_eq` — a line map holds the lines of its text
* `startsInBytes_encode` — a scan of the bytes of the text finds the same line starts
* `LineMap.build_spec` — all of it, and the line of an offset

The end of a line is found by dropping all terminator characters in front of the next line. That
drops one terminator and nothing else, since no line holds more than one.
-/

namespace ConstructorCheck.Text

/-- A line of a text, and what ends it. -/
structure Line where
  content : List Char
  /-- Empty for the last line. -/
  terminator : List Char
deriving DecidableEq, Repr

/-- The part of the text that a line takes up. -/
def Line.text (l : Line) : List Char := l.content ++ l.terminator

/-- The text of the first `i` lines. -/
def textBefore (lines : List Line) (i : Nat) : List Char := (lines.take i).flatMap Line.text

theorem textBefore_cons_succ (l : Line) (lines : List Line) (i : Nat) :
    textBefore (l :: lines) (i + 1) = l.text ++ textBefore lines i := by
  rw [textBefore, List.take_succ_cons, List.flatMap_cons, textBefore]

theorem textBefore_succ {lines : List Line} {i : Nat} {l : Line} (hl : lines[i]? = some l) :
    textBefore lines (i + 1) = textBefore lines i ++ l.text := by
  obtain ⟨hi, rfl⟩ := List.getElem?_eq_some_iff.1 hl
  rw [textBefore, List.take_succ_eq_append_getElem hi, List.flatMap_append,
    List.flatMap_singleton, textBefore]

/-- No character of a text belongs to a terminator. -/
def Plain (t : List Char) : Prop := ∀ c ∈ t, LineMap.isTerminator c = false

/-- What ends a line when `rest` follows. -/
inductive Terminates : List Char → List Char → Prop where
  | newline {rest : List Char} : Terminates ['\n'] rest
  | returnNewline {rest : List Char} : Terminates ['\r', '\n'] rest
  | loneReturn {rest : List Char} (h : rest.head? ≠ some '\n') : Terminates ['\r'] rest

/-- A text and its lines: all but the last end with a terminator. -/
inductive FallsInto : List Char → List Line → Prop where
  | last {content : List Char} (hcontent : Plain content) : FallsInto content [⟨content, []⟩]
  | line {content terminator rest : List Char} {lines : List Line} (hcontent : Plain content)
      (hterminator : Terminates terminator rest) (hrest : FallsInto rest lines) :
    FallsInto (content ++ terminator ++ rest) (⟨content, terminator⟩ :: lines)

variable {t content terminator rest : List Char} {lines : List Line} {l : Line}

theorem plain_nil : Plain [] := nofun

theorem plain_cons_iff {c : Char} :
    Plain (c :: t) ↔ LineMap.isTerminator c = false ∧ Plain t := List.forall_mem_cons

theorem isTerminator_iff {c : Char} : LineMap.isTerminator c = true ↔ c = '\r' ∨ c = '\n' := by
  simp [LineMap.isTerminator]

/-! ## Every text falls into lines -/

/-- A text that begins with a newline begins with an empty line. -/
theorem FallsInto.exists_of_newline (h : FallsInto ('\n' :: t) lines) :
    ∃ ls, lines = ⟨[], ['\n']⟩ :: ls ∧ FallsInto t ls := by
  generalize ht : '\n' :: t = t' at h
  cases h with
  | last hcontent =>
    subst ht
    cases (plain_cons_iff.1 hcontent).1
  | @line content _ _ ls hcontent hterminator hrest =>
    cases content with
    | cons c content =>
      obtain ⟨rfl, -⟩ := List.cons.inj ht
      cases (plain_cons_iff.1 hcontent).1
    | nil =>
      cases hterminator with
      | newline =>
        obtain ⟨-, rfl⟩ := List.cons.inj ht
        exact ⟨ls, rfl, hrest⟩
      | returnNewline => cases ht
      | loneReturn => cases ht

theorem exists_fallsInto (t : List Char) : ∃ lines, FallsInto t lines := by
  induction t with
  | nil => exact ⟨_, .last plain_nil⟩
  | cons c r ih =>
    obtain ⟨lines, hr⟩ := ih
    cases hc : LineMap.isTerminator c with
    | false =>
      -- the character joins the first line of the rest
      cases hr with
      | last hcontent => exact ⟨_, .last (plain_cons_iff.2 ⟨hc, hcontent⟩)⟩
      | line hcontent hterminator hrest =>
        exact ⟨_, .line (plain_cons_iff.2 ⟨hc, hcontent⟩) hterminator hrest⟩
    | true =>
      rcases isTerminator_iff.1 hc with rfl | rfl
      · by_cases hhead : r.head? = some '\n'
        · -- one terminator together with the newline that ends the next line
          obtain ⟨r, rfl⟩ := List.head?_eq_some_iff.1 hhead
          obtain ⟨ls, -, hrest⟩ := hr.exists_of_newline
          exact ⟨_, .line plain_nil .returnNewline hrest⟩
        · exact ⟨_, .line plain_nil (.loneReturn hhead) hr⟩
      · exact ⟨_, .line plain_nil .newline hr⟩

theorem FallsInto.flatMap_text (h : FallsInto t lines) : lines.flatMap Line.text = t := by
  induction h with
  | last => simp [Line.text]
  | line _ _ _ ih => rw [List.flatMap_cons, ih, Line.text]

/-- The text before a line, the line, and the text after it. -/
theorem FallsInto.eq_append (h : FallsInto t lines) {i : Nat} (hl : lines[i]? = some l) :
    t = textBefore lines i ++ l.text ++ (lines.drop (i + 1)).flatMap Line.text := by
  obtain ⟨hi, rfl⟩ := List.getElem?_eq_some_iff.1 hl
  have hsplit := congrArg (List.flatMap Line.text) (List.take_append_drop i lines)
  rw [List.drop_eq_getElem_cons hi, List.flatMap_append, List.flatMap_cons, h.flatMap_text,
    ← List.append_assoc] at hsplit
  exact hsplit.symm

theorem FallsInto.eq_append_last (h : FallsInto t lines) {i : Nat} (hl : lines[i]? = some l)
    (hlast : lines.length ≤ i + 1) : t = textBefore lines i ++ l.text := by
  have htext := h.eq_append hl
  rwa [List.drop_eq_nil_of_le hlast, List.flatMap_nil, List.append_nil] at htext

theorem FallsInto.plain_content (h : FallsInto t lines) (hl : l ∈ lines) : Plain l.content := by
  induction h with
  | last hcontent =>
    rw [List.mem_singleton.1 hl]
    exact hcontent
  | line hcontent _ _ ih =>
    rcases List.mem_cons.1 hl with rfl | hl
    · exact hcontent
    · exact ih hl

theorem Terminates.isTerminator_of_mem (h : Terminates terminator rest) :
    ∀ c ∈ terminator, LineMap.isTerminator c = true := by
  cases h with
  | newline => simp [LineMap.isTerminator]
  | returnNewline => simp [LineMap.isTerminator]
  | loneReturn => simp [LineMap.isTerminator]

theorem FallsInto.isTerminator_of_mem (h : FallsInto t lines) (hl : l ∈ lines) :
    ∀ c ∈ l.terminator, LineMap.isTerminator c = true := by
  induction h with
  | last =>
    rw [List.mem_singleton.1 hl]
    nofun
  | line _ hterminator _ ih =>
    rcases List.mem_cons.1 hl with rfl | hl
    · exact hterminator.isTerminator_of_mem
    · exact ih hl

/-- The last line has no terminator. -/
theorem FallsInto.terminator_eq_nil (h : FallsInto t lines) {i : Nat} (hl : lines[i]? = some l)
    (hi : i + 1 = lines.length) : l.terminator = [] := by
  induction h generalizing i with
  | last =>
    cases i with
    | zero =>
      cases hl
      rfl
    | succ i => cases hl
  | line _ _ hrest ih =>
    cases i with
    | zero =>
      have hnil := List.length_eq_zero_iff.1 (Nat.add_right_cancel hi).symm
      cases hrest <;> cases hnil
    | succ i => exact ih hl (Nat.add_right_cancel hi)

theorem FallsInto.length_le (h : FallsInto t lines) : lines.length ≤ byteLength t + 1 := by
  induction h with
  | last => exact Nat.succ_le_succ (Nat.zero_le _)
  | @line content terminator _ _ _ hterminator _ ih =>
    have hpos : 0 < byteLength terminator := by cases hterminator <;> decide
    rw [List.length_cons, byteLength_append, byteLength_append]
    omega

/-! ## Line starts -/

theorem startsAfter_cons_of_not_isTerminator {c : Char} (hc : LineMap.isTerminator c = false)
    (offset : Nat) (q : List Char) :
    startsAfter offset (c :: q) = startsAfter (offset + c.utf8Size) q := by
  have hends : ¬ (c = '\n' ∨ (c = '\r' ∧ q.head? ≠ some '\n')) := by
    rintro (rfl | ⟨rfl, -⟩)
    · cases hc
    · cases hc
  rw [startsAfter, if_neg hends]

theorem startsAfter_append_of_plain (h : Plain content) (offset : Nat) (q : List Char) :
    startsAfter offset (content ++ q) = startsAfter (offset + byteLength content) q := by
  induction content generalizing offset with
  | nil => rfl
  | cons c r ih =>
    obtain ⟨hc, hr⟩ := plain_cons_iff.1 h
    rw [List.cons_append, startsAfter_cons_of_not_isTerminator hc, ih hr, byteLength_cons,
      Nat.add_assoc]

theorem Terminates.startsAfter_append (h : Terminates terminator rest) (offset : Nat) :
    startsAfter offset (terminator ++ rest) =
      (offset + byteLength terminator) :: startsAfter (offset + byteLength terminator) rest := by
  cases h with
  | newline => simp [startsAfter]
  | returnNewline => simp [startsAfter, Nat.add_assoc]
  | loneReturn h => simp [startsAfter, h]

/-- **A line starts after the text of the lines before it**, and nothing else is a line start. -/
theorem FallsInto.getElem?_starts (h : FallsInto t lines) (offset i : Nat) :
    (offset :: startsAfter offset t)[i]? =
      lines[i]?.map fun _ => offset + byteLength (textBefore lines i) := by
  induction h generalizing offset i with
  | @last content hcontent =>
    have hnone := startsAfter_append_of_plain hcontent offset []
    rw [List.append_nil] at hnone
    rw [hnone]
    cases i with
    | zero => rfl
    | succ i => rfl
  | line hcontent hterminator _ ih =>
    rw [List.append_assoc, startsAfter_append_of_plain hcontent, hterminator.startsAfter_append]
    cases i with
    | zero => rfl
    | succ i =>
      rw [List.getElem?_cons_succ, List.getElem?_cons_succ, ih, textBefore_cons_succ, Line.text]
      simp only [byteLength_append, Nat.add_assoc]

section LineMap

open LineMap (build)

/-- **A line map holds where the lines of its text start.** -/
theorem FallsInto.lineStart?_eq (h : FallsInto t lines) (i : Nat) :
    (build t).lineStart? i =
      lines[i]?.map fun _ => byteLength (textBefore lines i) := by
  have hget := h.getElem?_starts 0 i
  simp only [Nat.zero_add] at hget
  exact hget

theorem FallsInto.lineStart?_eq_some (h : FallsInto t lines) {i : Nat} (hl : lines[i]? = some l) :
    (build t).lineStart? i = some (byteLength (textBefore lines i)) := by
  rw [h.lineStart?_eq, hl, Option.map_some]

theorem FallsInto.lineCount_eq (h : FallsInto t lines) : (build t).lineCount = lines.length := by
  have hnone (i : Nat) : (build t).lineCount ≤ i ↔ lines.length ≤ i :=
    calc (build t).lineCount ≤ i
      _ ↔ (build t).lineStart? i = none := List.getElem?_eq_none_iff.symm
      _ ↔ lines[i]? = none := by rw [h.lineStart?_eq, Option.map_eq_none_iff]
      _ ↔ lines.length ≤ i := List.getElem?_eq_none_iff
  exact Nat.le_antisymm ((hnone _).2 (Nat.le_refl _)) ((hnone _).1 (Nat.le_refl _))

/-- The next line starts where a line and its terminator end; after the last line the text ends. -/
theorem FallsInto.getD_lineStart? (h : FallsInto t lines) {i : Nat} (hl : lines[i]? = some l) :
    ((build t).lineStart? (i + 1)).getD (build t).size =
      byteLength (textBefore lines i ++ l.text) := by
  rw [h.lineStart?_eq, textBefore_succ hl]
  cases hnext : lines[i + 1]? with
  | some next => rfl
  | none =>
    exact congrArg byteLength (h.eq_append_last hl (List.getElem?_eq_none_iff.1 hnext))

/-- **A line ends where its content ends.** -/
theorem FallsInto.lineEnd?_eq (h : FallsInto t lines) {i : Nat} (hl : lines[i]? = some l) :
    (build t).lineEnd? i t = some (byteLength (textBefore lines i ++ l.content)) := by
  have hmem := List.mem_of_getElem? hl
  have hslice : slice (byteLength (textBefore lines i))
      (byteLength (textBefore lines i ++ l.text)) t = l.text := by
    conv => lhs; rw [h.eq_append hl]
    exact slice_append _ _ _
  have htrim : LineMap.trimEnd l.text = l.content :=
    LineMap.trimEnd_append (h.plain_content hmem) (h.isTerminator_of_mem hmem)
  rw [LineMap.lineEnd?, h.getD_lineStart? hl, h.lineStart?_eq_some hl, Option.map_some, hslice,
    htrim, byteLength_append]

end LineMap

/-! ## Bytes -/

/-- The bytes of a text in UTF-8. -/
def encode (t : List Char) : List UInt8 := t.flatMap String.utf8EncodeChar

/-- The offsets right after each line end in some bytes, the first of which is at `offset`. -/
def startsInBytes : Nat → List UInt8 → List Nat
  | _, [] => []
  | offset, b :: r =>
    if b = 10 ∨ (b = 13 ∧ r.head? ≠ some 10) then (offset + 1) :: startsInBytes (offset + 1) r
    else startsInBytes (offset + 1) r

theorem length_encode (t : List Char) : (encode t).length = byteLength t := by
  induction t with
  | nil => rfl
  | cons c r ih =>
    rw [encode, List.flatMap_cons, List.length_append, String.length_utf8EncodeChar, byteLength_cons,
      ← ih, encode]

/-- A byte below 128 is a character of its own. -/
theorem toNat_of_mem_utf8EncodeChar {c : Char} {b : UInt8} (hb : b ∈ String.utf8EncodeChar c) :
    b.toNat = c.toNat ∨ 128 ≤ b.toNat := by
  have hv : c.toNat = c.val.toNat := rfl
  simp only [String.utf8EncodeChar] at hb
  split at hb
  · rw [List.mem_singleton.1 hb, UInt8.toNat_ofNat']
    omega
  · -- all bytes of a longer character have their highest bit set
    right
    split at hb
    · simp only [List.mem_cons, List.not_mem_nil, or_false] at hb
      rcases hb with rfl | rfl <;> rw [UInt8.toNat_ofNat'] <;> omega
    · split at hb
      · simp only [List.mem_cons, List.not_mem_nil, or_false] at hb
        rcases hb with rfl | rfl | rfl <;> rw [UInt8.toNat_ofNat'] <;> omega
      · simp only [List.mem_cons, List.not_mem_nil, or_false] at hb
        rcases hb with rfl | rfl | rfl | rfl <;> rw [UInt8.toNat_ofNat'] <;> omega

/-- The bytes of a character that ends no line end no line. -/
theorem ne_of_mem_utf8EncodeChar {c : Char} (hc : LineMap.isTerminator c = false) {b : UInt8}
    (hb : b ∈ String.utf8EncodeChar c) : b ≠ 10 ∧ b ≠ 13 := by
  have hne : c ≠ '\r' ∧ c ≠ '\n' := by simpa [LineMap.isTerminator] using hc
  have hcode (d : Char) (hd : d.toNat < 128) (heq : b.toNat = d.toNat) : c = d := by
    rcases toNat_of_mem_utf8EncodeChar hb with hbc | hbc
    · exact Char.toNat_inj.1 (hbc.symm.trans heq)
    · omega
  constructor
  · rintro rfl
    exact hne.2 (hcode '\n' (by decide) rfl)
  · rintro rfl
    exact hne.1 (hcode '\r' (by decide) rfl)

/-- Bytes that end no line are passed over. -/
theorem startsInBytes_append {bs : List UInt8} (hbs : ∀ b ∈ bs, b ≠ 10 ∧ b ≠ 13) (offset : Nat)
    (q : List UInt8) : startsInBytes offset (bs ++ q) = startsInBytes (offset + bs.length) q := by
  induction bs generalizing offset with
  | nil => rfl
  | cons b r ih =>
    obtain ⟨hb, hr⟩ := List.forall_mem_cons.1 hbs
    rw [List.cons_append, startsInBytes, if_neg (by simp [hb]), ih hr, List.length_cons,
      Nat.add_assoc, Nat.add_comm 1]

/-- A newline comes first in the bytes when it comes first in the text. -/
theorem head?_encode_eq_newline_iff : (encode t).head? = some 10 ↔ t.head? = some '\n' := by
  cases t with
  | nil => exact iff_of_false nofun nofun
  | cons c r =>
    obtain ⟨b, bs, hbs⟩ := List.exists_cons_of_ne_nil (String.utf8EncodeChar_ne_nil (c := c))
    have hhead : (encode (c :: r)).head? = some b := by rw [encode, List.flatMap_cons, hbs]; rfl
    rw [hhead, List.head?_cons, Option.some.injEq, Option.some.injEq]
    cases hc : LineMap.isTerminator c with
    | false =>
      refine iff_of_false (ne_of_mem_utf8EncodeChar hc (hbs ▸ List.mem_cons_self)).1 ?_
      rintro rfl
      cases hc
    | true =>
      rcases isTerminator_iff.1 hc with rfl | rfl
      · cases hbs
        decide
      · cases hbs
        decide

/-- **A scan of the bytes finds the line starts of the text.** -/
theorem startsInBytes_encode (offset : Nat) (t : List Char) :
    startsInBytes offset (encode t) = startsAfter offset t := by
  induction t generalizing offset with
  | nil => rfl
  | cons c r ih =>
    have hcons : encode (c :: r) = String.utf8EncodeChar c ++ encode r := List.flatMap_cons
    rw [hcons]
    cases hc : LineMap.isTerminator c with
    | false =>
      rw [startsInBytes_append fun b => ne_of_mem_utf8EncodeChar hc,
        startsAfter_cons_of_not_isTerminator hc, String.length_utf8EncodeChar, ih]
    | true =>
      rcases isTerminator_iff.1 hc with rfl | rfl
      · have hbytes : String.utf8EncodeChar '\r' = [13] := rfl
        have hsize : '\r'.utf8Size = 1 := rfl
        simp [hbytes, hsize, startsInBytes, startsAfter, head?_encode_eq_newline_iff, ih]
      · have hbytes : String.utf8EncodeChar '\n' = [10] := rfl
        have hsize : '\n'.utf8Size = 1 := rfl
        simp [hbytes, hsize, startsInBytes, startsAfter, ih]

/-! ## The line map of a text -/

namespace LineMap

/--
**A line map cuts its text into lines.** The lines put together are the text. Each starts where the
ones before it end, so that the starts ascend from 0 and lie between characters, and ends where its
content ends; the last one ends with the text. A scan of the bytes finds the same starts, of which
there is at most one more than there are bytes. An offset belongs to the line with the greatest
start that does not exceed it, also when it lies inside a character or past the end.
-/
theorem build_spec (t : List Char) :
    (∃ lines, FallsInto t lines ∧ lines.flatMap Line.text = t ∧
      (build t).lineCount = lines.length ∧
      ∀ i l, lines[i]? = some l →
        (build t).lineStart? i = some (byteLength (textBefore lines i)) ∧
        (build t).lineEnd? i t =
          some (byteLength (textBefore lines i ++ l.content)) ∧
        (i + 1 = lines.length → (build t).lineEnd? i t = some (byteLength t))) ∧
    (build t).starts.head? = some 0 ∧ (build t).starts.Pairwise (· < ·) ∧
    (∀ n ∈ (build t).starts, isBoundary n t = true) ∧
    (build t).starts = 0 :: startsInBytes 0 (encode t) ∧
    (build t).lineCount ≤ (encode t).length + 1 ∧
    ∀ n, ∃ s, (build t).lineStart? ((build t).positionAt n t).line = some s ∧ s ≤ n ∧
      ∀ m ∈ (build t).starts, m ≤ n → m ≤ s := by
  obtain ⟨lines, h⟩ := exists_fallsInto t
  refine ⟨⟨lines, h, h.flatMap_text, h.lineCount_eq, fun i l hl =>
    ⟨h.lineStart?_eq_some hl, h.lineEnd?_eq hl, fun hi => ?_⟩⟩, rfl,
    startsAfter_sorted 0 t, fun n hn => ?_, ?_, ?_, exists_lineStart t⟩
  · have htext := h.eq_append_last hl (Nat.le_of_eq hi.symm)
    rw [Line.text, h.terminator_eq_nil hl hi, List.append_nil] at htext
    rw [h.lineEnd?_eq hl, ← htext]
  · obtain ⟨i, hi⟩ := List.mem_iff_getElem?.1 hn
    exact isBoundary_lineStart? hi
  · rw [startsInBytes_encode, build]
  · rw [h.lineCount_eq, length_encode]
    exact h.length_le

/-- A return ends a line of its own unless a newline follows; a newline ends one in any case. -/
example : build ['é', '\r', '\r', '\n', '\n', '\r'] = ⟨[0, 3, 5, 6, 7], 7⟩ := by decide

end LineMap

end ConstructorCheck.Text
