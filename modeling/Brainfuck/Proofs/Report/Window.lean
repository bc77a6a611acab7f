import Brainfuck.Proofs.Brackets.Search
import Brainfuck.Report

/-!
The window of the text that the report of a failure shows. It reaches 32 bytes to either side of the
position and is clipped where the text begins and ends, so it is empty iff it begins at or behind the end
of the text (`Report.windowStart_lt_windowEnd_iff`); every byte in it takes one printable column
(`Report.renders_shown`, `Report.getElem?_contextLine_add`).

The positions are words of 64 bits, and a sum of words wraps around. A window for which it does so is
empty with the true sum as well, since the text is shorter than that (`Report.withContextOnWords_eq`).
-/

namespace Brainfuck

/-- The bytes from `start` to before `stop`, if the text has all of these places. -/
def Program.slice? (p : Program) (start stop : Nat) : Option (List UInt8) :=
  if start ≤ stop ∧ stop ≤ p.size then some (p.bytes.extract start stop).toList else none

namespace Report

/-- The character `ch` stands for the byte `b`: for printable ASCII the same code, else a dot. -/
def Renders (ch : Char) (b : UInt8) : Prop :=
  ch.toNat = if 0x20 ≤ b.toNat ∧ b.toNat ≤ 0x7e then b.toNat else 0x2e

/-- The first position that is shown, as a word: a difference that would be negative is zero. -/
def windowStartOnWords (pos : UInt64) : UInt64 :=
  if pos < .ofNat radius then 0 else pos - .ofNat radius

/-- The position after the last that is shown, as a word: the sum wraps around. -/
def windowEndOnWords (pos length : UInt64) : UInt64 := min (pos + .ofNat radius + 1) length

/-- The lines below a message, found with words; none at all if a place is asked for that the text does
not have. -/
def contextLinesOnWords (code : Program) (pos : UInt64) : Option (List String) :=
  let start := windowStartOnWords pos
  let stop := windowEndOnWords pos (.ofNat code.size)
  if start < stop then
    (code.slice? start.toNat stop.toNat).map fun bytes =>
      ["  " ++ String.ofList (bytes.map shown),
        "  " ++ String.ofList (List.replicate (pos - start).toNat ' ') ++ "^"]
  else
    some []

/-- A message with the text around a position, found with words. -/
def withContextOnWords (message : String) (code : Program) (pos : UInt64) : Option (List String) :=
  (contextLinesOnWords code pos).map (message :: ·)

variable {p : Program} {f : Failure} {i k : Nat} {pos : UInt64}

/-! ### The window -/

/-- The window is empty only where it begins behind the text. -/
lemma windowStart_lt_windowEnd_iff {length : Nat} :
    windowStart i < windowEnd i length ↔ windowStart i < length := by
  unfold windowStart windowEnd
  omega

lemma windowStart_lt_windowEnd (h : i < p.size) : windowStart i < windowEnd i p.size :=
  windowStart_lt_windowEnd_iff.mpr ((Nat.sub_le _ _).trans_lt h)

/-- Inside the text there are always both lines. -/
lemma contextLines_eq (h : i < p.size) : contextLines p i = [contextLine p i, caretLine i] := by
  rw [contextLines, if_pos (windowStart_lt_windowEnd h)]

lemma windowEnd_le_size (p : Program) (i : Nat) : windowEnd i p.size ≤ p.size := Nat.min_le_right _ _

lemma length_excerpt (p : Program) (i : Nat) :
    (excerpt p i).length = windowEnd i p.size - windowStart i := by
  have hle : windowEnd i p.size ≤ p.bytes.size := windowEnd_le_size p i
  rw [excerpt, Array.length_toList, Array.size_extract, Nat.min_eq_left hle]

/-- The window of the text, byte by byte. -/
lemma getElem?_excerpt (h : k < windowEnd i p.size - windowStart i) :
    (excerpt p i)[k]? = p.toList[windowStart i + k]? := by
  have hle : windowEnd i p.size ≤ p.bytes.size := windowEnd_le_size p i
  rw [excerpt, Array.getElem?_toList, Array.getElem?_extract, Nat.min_eq_left hle, if_pos h,
    Program.toList, Array.getElem?_toList]

/-! ### The lines -/

lemma toList_contextLine (p : Program) (i : Nat) :
    (contextLine p i).toList = ' ' :: ' ' :: (excerpt p i).map shown := by
  simp [contextLine]

/-- The column of the caret. -/
lemma toList_caretLine (i : Nat) :
    (caretLine i).toList = List.replicate (i - windowStart i + 2) ' ' ++ ['^'] := by
  simp [caretLine, List.replicate_succ]

lemma length_contextLine (p : Program) (i : Nat) :
    (contextLine p i).length = windowEnd i p.size - windowStart i + 2 := by
  rw [← String.length_toList, toList_contextLine, List.length_cons, List.length_cons,
    List.length_map, length_excerpt]

/-- **Each byte of the window** is shown in a column of its own. -/
theorem getElem?_contextLine_add (h : k < windowEnd i p.size - windowStart i) :
    (contextLine p i).toList[k + 2]? = p.toList[windowStart i + k]?.map shown := by
  rw [toList_contextLine, List.getElem?_cons_succ, List.getElem?_cons_succ, List.getElem?_map,
    getElem?_excerpt h]

/-- The caret stands below the byte at the position. -/
lemma getElem?_contextLine (h : i < p.size) :
    (contextLine p i).toList[i - windowStart i + 2]? = p.toList[i]?.map shown := by
  have hle : windowStart i ≤ i := Nat.sub_le _ _
  have hk : i - windowStart i < windowEnd i p.size - windowStart i := by
    unfold windowEnd
    omega
  rw [getElem?_contextLine_add hk, Nat.add_sub_cancel' hle]

/-! ### One byte -/

/-- The code of the character that is shown for a byte. -/
lemma renders_shown (b : UInt8) : Renders (shown b) b := by
  have hiff : 0x20 ≤ b ∧ b ≤ 0x7e ↔ 0x20 ≤ b.toNat ∧ b.toNat ≤ 0x7e := by
    rw [UInt8.le_iff_toNat_le, UInt8.le_iff_toNat_le]
    rfl
  have hvalid : b.toNat.isValidChar := Or.inl (b.toNat_lt.trans (by decide))
  have hchar : Char.ofNat b.toNat = Char.ofNatAux b.toNat hvalid := dif_pos hvalid
  unfold Renders shown
  simp only [hiff]
  split_ifs
  · rw [hchar]
    rfl
  · rfl

/-- Whatever a byte is, it takes one column. -/
lemma shown_printable (b : UInt8) : 0x20 ≤ (shown b).toNat ∧ (shown b).toNat ≤ 0x7e := by
  rw [renders_shown b]
  split_ifs with h
  · exact h
  · decide

/-- An instruction is shown as it is written. -/
lemma shown_toByte (a : Instr) : shown a.toByte = Char.ofNat a.toByte.toNat := by
  cases a <;> rfl

lemma contextLine_printable (p : Program) (i : Nat) :
    ∀ ch ∈ (contextLine p i).toList, 0x20 ≤ ch.toNat ∧ ch.toNat ≤ 0x7e := by
  intro ch hch
  rw [toList_contextLine, List.mem_cons, List.mem_cons, List.mem_map] at hch
  rcases hch with rfl | rfl | ⟨b, -, rfl⟩
  · decide
  · decide
  · exact shown_printable b

/-- The report of a failure that points inside the text. -/
lemma ofFailure_eq (name : Option String) (hi : f.position? = some i) (h : i < p.size) :
    ofFailure name p f = [headline name f, contextLine p i, caretLine i] := by
  rw [ofFailure, hi]
  exact congrArg (headline name f :: ·) (contextLines_eq h)

/-! ### Words -/

lemma toNat_windowStartOnWords (pos : UInt64) :
    (windowStartOnWords pos).toNat = windowStart pos.toNat := by
  have hradius : (UInt64.ofNat radius).toNat = radius := rfl
  unfold windowStartOnWords windowStart
  split_ifs with h
  · rw [UInt64.lt_iff_toNat_lt, hradius] at h
    exact (Nat.sub_eq_zero_of_le h.le).symm
  · rw [UInt64.not_lt] at h
    rw [UInt64.toNat_sub_of_le _ _ h, hradius]

/-- The sum wraps around for the last 33 positions only; the window then ends before it begins, as it
does with the true sum. -/
lemma toNat_windowEndOnWords (h : p.size < 2 ^ 63) (pos : UInt64) :
    (windowEndOnWords pos (.ofNat p.size)).toNat = windowEnd pos.toNat p.size ∨
      p.size ≤ windowStart pos.toNat ∧
        (windowEndOnWords pos (.ofNat p.size)).toNat ≤ windowStart pos.toNat := by
  have hradius : (UInt64.ofNat radius).toNat = radius := rfl
  have hsize : (UInt64.ofNat p.size).toNat = p.size := UInt64.toNat_ofNat_of_lt' (by
    show p.size < 2 ^ 64
    omega)
  have hpos := pos.toNat_lt
  unfold windowEndOnWords windowStart windowEnd
  rw [UInt64.toNat_min, UInt64.toNat_add, UInt64.toNat_add, hsize, hradius]
  unfold radius
  have hone : (1 : UInt64).toNat = 1 := rfl
  omega

lemma slice?_window (h : windowStart i < windowEnd i p.size) :
    p.slice? (windowStart i) (windowEnd i p.size) = some (excerpt p i) :=
  if_pos ⟨h.le, windowEnd_le_size p i⟩

/-- Found with words, the lines are the same, and no place is asked for that the text does not have. -/
theorem contextLinesOnWords_eq (h : p.size < 2 ^ 63) (pos : UInt64) :
    contextLinesOnWords p pos = some (contextLines p pos.toNat) := by
  have hstart := toNat_windowStartOnWords pos
  unfold contextLinesOnWords contextLines
  simp only [UInt64.lt_iff_toNat_lt, hstart]
  rcases toNat_windowEndOnWords h pos with hstop | ⟨hbehind, hstop⟩
  · rw [hstop]
    split_ifs with hlt
    · have hle : windowStartOnWords pos ≤ pos := by
        rw [UInt64.le_iff_toNat_le, hstart]
        exact Nat.sub_le _ _
      rw [slice?_window hlt, Option.map_some, UInt64.toNat_sub_of_le _ _ hle, hstart]
      rfl
    · rfl
  · have hempty : ¬ windowStart pos.toNat < windowEnd pos.toNat p.size := by
      rw [windowStart_lt_windowEnd_iff]
      exact Nat.not_lt.mpr hbehind
    rw [if_neg (Nat.not_lt.mpr hstop), if_neg hempty]

/-! ### The report -/

lemma text_cons (line : String) (lines : List String) :
    text (line :: lines) = line ++ "\n" ++ text lines := by
  rw [text, List.map_cons, String.join_cons, text]

/-- **What a report shows of the text.** Below its message, which ends a line, there are two more lines
iff the window begins inside the text, and nothing else. The first of them shows the bytes of the window
in their order, behind two spaces; the second has its caret below the byte at the position, if the text
has it. With sums of words that wrap around the report is the same, and it is always to be had. -/
theorem shows_window (message : String) (code : Program) (pos : UInt64)
    (hsize : code.size < 2 ^ 63) :
    let start := pos.toNat - 32
    let stop := min (pos.toNat + 33) code.size
    (code.size ≤ start → text (withContext message code pos.toNat) = message ++ "\n") ∧
    (start < code.size → ∃ line caret : String,
      text (withContext message code pos.toNat) =
        message ++ "\n" ++ (line ++ "\n" ++ (caret ++ "\n")) ∧
      line.toList.take 2 = [' ', ' '] ∧ line.length = stop - start + 2 ∧ stop - start ≤ 65 ∧
      (∀ ch ∈ line.toList, 0x20 ≤ ch.toNat ∧ ch.toNat ≤ 0x7e) ∧
      (∀ k < stop - start, ∃ b ch, code.toList[start + k]? = some b ∧
        line.toList[k + 2]? = some ch ∧ Renders ch b) ∧
      caret.toList = List.replicate (pos.toNat - start + 2) ' ' ++ ['^'] ∧ pos.toNat - start ≤ 32 ∧
      (pos.toNat < code.size → ∃ b ch, code.toList[pos.toNat]? = some b ∧
        line.toList[pos.toNat - start + 2]? = some ch ∧ Renders ch b)) ∧
    withContextOnWords message code pos = some (withContext message code pos.toNat) := by
  intro start stop
  have hempty : text [] = "" := rfl
  have hend : windowEnd pos.toNat code.size = stop := rfl
  have hbyte {i : Nat} (hi : i < code.size) {column : Nat}
      (hshown : (contextLine code pos.toNat).toList[column]? = code.toList[i]?.map shown) :
      ∃ b ch, code.toList[i]? = some b ∧
        (contextLine code pos.toNat).toList[column]? = some ch ∧ Renders ch b := by
    rw [Program.size_eq] at hi
    rw [List.getElem?_eq_getElem hi, Option.map_some] at hshown
    exact ⟨_, _, List.getElem?_eq_getElem hi, hshown, renders_shown _⟩
  refine ⟨fun hbehind => ?_, fun hinside => ?_, ?_⟩
  · have hwindow : ¬ windowStart pos.toNat < windowEnd pos.toNat code.size := by
      rw [windowStart_lt_windowEnd_iff]
      exact Nat.not_lt.mpr hbehind
    rw [withContext, contextLines, if_neg hwindow, text_cons, hempty, String.append_empty]
  · have hwindow : windowStart pos.toNat < windowEnd pos.toNat code.size :=
      windowStart_lt_windowEnd_iff.mpr hinside
    refine ⟨contextLine code pos.toNat, caretLine pos.toNat, ?_, ?_, length_contextLine _ _, ?_,
      contextLine_printable _ _, fun k hk => ?_, toList_caretLine _, ?_, fun hi => ?_⟩
    · rw [withContext, contextLines, if_pos hwindow, text_cons, text_cons, text_cons, hempty,
        String.append_empty]
    · rw [toList_contextLine]
      rfl
    · omega
    · have hle := windowEnd_le_size code pos.toNat
      exact hbyte (by omega) (getElem?_contextLine_add hk)
    · omega
    · exact hbyte hi (getElem?_contextLine hi)
  · rw [withContextOnWords, contextLinesOnWords_eq hsize, Option.map_some]
    rfl

/-- Eight places behind a text of 42 bytes the window has 24 bytes left, and the caret stands behind all
of them; at the greatest position the sum of words wraps around to 32, and there is no window. -/
theorem shows_window_behind :
    let code : Program := .ofList (List.replicate 40 0x0a ++ [0x3c, 0x2b])
    code.size < 2 ^ 63 ∧
    (∃ line caret : String, text (withContext "stuck" code 50) =
        "stuck" ++ "\n" ++ (line ++ "\n" ++ (caret ++ "\n")) ∧ line.length = 26 ∧
      caret.toList = List.replicate 34 ' ' ++ ['^']) ∧
    windowEndOnWords 0xffffffffffffffff 42 = 32 ∧
    withContextOnWords "stuck" code 0xffffffffffffffff = some ["stuck"] := by
  intro code
  have hsize : code.size < 2 ^ 63 := by decide
  obtain ⟨-, hlines, -⟩ := shows_window "stuck" code 50 hsize
  obtain ⟨line, caret, htext, -, hlength, -, -, -, hcaret, -⟩ := hlines (by decide)
  obtain ⟨-, -, hwords⟩ := shows_window "stuck" code 0xffffffffffffffff hsize
  exact ⟨hsize, ⟨line, caret, htext, hlength, hcaret⟩, by decide +kernel,
    hwords.trans (by decide +kernel)⟩

end Report

end Brainfuck
