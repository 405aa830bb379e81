import Mos6502.Host.Threads

/-!
# The serial-input line editor

Between two Enter presses `serial_input_thread` keeps what is typed in
`char input_buffer[INPUT_MAX_LINES][INPUT_MAX_COLS + 1]`, with the cursor at
`current_line`, `current_col`. A printable key is stored at the cursor; at the end of a row it
wraps to the next row, and with every row full the rows scroll up and the key is dropped.
Backspace deletes the character before the cursor, or at the start of a row moves to the end of
the row above. Enter enqueues the rows up to the cursor's, a `'\n'` between two rows and `"\r\n"`
at the end, and clears the buffer.

`InputBuffer` is the thread's state as the C code keeps it: the rows, each as the string its
`char` row holds (the characters before the first NUL, the only part the thread reads back),
and the two indices. `InputBuffer.key` is one key. The indices are plain integers there, and
nothing in the key handler itself keeps `input_buffer[current_line][current_col]` inside the
array. `EditLines` says what the buffer is for: the full rows above the cursor and the cursor's
row, with the bounds as fields. `EditLines.toBuffer` lays them out in the array, and every key
maps a laid-out state to a laid-out state (`toBuffer_key`), so every state the thread reaches is
one and keeps its indices inside the array (`run_empty_bounds`).

On the text level, a printable text of at most `INPUT_MAX_LINES * INPUT_MAX_COLS` characters
typed from an empty buffer is sent by Enter cut into rows of `INPUT_MAX_COLS`
(`typing_then_enter`). A backspace undoes a printable key exactly when the key did not reach the
end of a row (`backspace_after_key_iff`): after a wrap the cursor stays on a new, empty row, and
Enter sends it; with every row full the key scrolls the top row away and is itself dropped.

## Main definitions

* `InputBuffer`, `InputBuffer.key`, `InputBuffer.run`: the thread's edit state and keys
* `EditLines`, `EditLines.key`: the rows on screen, with their bounds
* `wrapLines`: a text cut into rows of `INPUT_MAX_COLS`

## Main results

* `EditLines.toBuffer_key`, `EditLines.toBuffer_run`: the C key handler refines `EditLines.key`
* `run_empty_bounds`: every state reached keeps its indices inside `input_buffer`
* `typing_then_enter`: typing a text and Enter sends the text in rows
* `backspace_after_key_iff`: when backspace undoes a key
-/

namespace Mos6502

/-! ## The key codes -/

/-- `INPUT_MAX_LINES`. -/
def inputMaxLines : Nat := 3

/-- `INPUT_MAX_COLS`. -/
def inputMaxCols : Nat := 78

/-- ncurses' `KEY_BACKSPACE` (octal 0407), as `wgetch` returns it with the keypad enabled. -/
def keyBackspace : Nat := 263

/-- `'\n' || '\r'`: the Enter key. -/
def isEnterKey (ch : Nat) : Bool := ch == 10 || ch == 13

/-- `KEY_BACKSPACE || 127 || '\b'`. -/
def isBackspaceKey (ch : Nat) : Bool := ch == keyBackspace || ch == 127 || ch == 8

/-- `isprint` of the C locale, which the program never changes: the codes 32 to 126. The
keypad's codes, past 255, are taken as not printable. -/
def isPrint (ch : Nat) : Bool := 32 ≤ ch && ch ≤ 126

/-- Every character of a row is printable. -/
def Printable (r : List Byte) : Prop := ∀ x ∈ r, isPrint x.toNat = true

instance : DecidablePred Printable := fun r => inferInstanceAs (Decidable (∀ x ∈ r, _))

/-! ## The edit state of `serial_input_thread` -/

/-- The thread's locals that editing uses: the rows of `input_buffer`, each as its string, and
`current_line`, `current_col`. (`input_x`, `input_y` only place the cursor on screen.) -/
structure InputBuffer where
  buffer : List (List Byte)
  currentLine : Nat
  currentCol : Nat
  deriving DecidableEq, Repr

namespace InputBuffer

/-- `input_buffer[..] = {0}`, the cursor at row 0, column 0; `memset` and the indices' reset
after Enter leave the same state. -/
def empty : InputBuffer := ⟨List.replicate inputMaxLines [], 0, 0⟩

/-- The string `input_buffer[i]` holds. -/
def row (b : InputBuffer) (i : Nat) : List Byte := b.buffer.getD i []

end InputBuffer

/-- `s[i] = ch; s[i + 1] = '\0'` on a row holding the string `s`: the string becomes its first `i`
characters and `ch` when `i` is inside it or at its NUL; a write past the NUL leaves it. -/
def strPut (s : List Byte) (i : Nat) (ch : Byte) : List Byte :=
  if i ≤ s.length then s.take i ++ [ch] else s

namespace InputBuffer

/-- The `isprint(ch)` branch: store `ch` at the cursor; at the end of a row, on the next row; with
the last row full, copy each row over the one above (`strcpy`), clear the last one (`memset`),
and put the cursor at its start, the key not stored. -/
def typeChar (b : InputBuffer) (ch : Byte) : InputBuffer :=
  if b.currentCol < inputMaxCols then
    { b with buffer := b.buffer.set b.currentLine (strPut (b.row b.currentLine) b.currentCol ch),
             currentCol := b.currentCol + 1 }
  else if b.currentLine < inputMaxLines - 1 then
    { buffer := b.buffer.set (b.currentLine + 1) (strPut (b.row (b.currentLine + 1)) 0 ch),
      currentLine := b.currentLine + 1, currentCol := 1 }
  else
    { buffer := (List.range (inputMaxLines - 1)).map (fun i => b.row (i + 1)) ++ [[]],
      currentLine := inputMaxLines - 1, currentCol := 0 }

/-- The backspace branch: `input_buffer[current_line][--current_col] = '\0'`, or at column 0 of
a later row, the cursor to the end (`strlen`) of the row above. -/
def backspace (b : InputBuffer) : InputBuffer :=
  if 0 < b.currentCol then
    { b with buffer := b.buffer.set b.currentLine ((b.row b.currentLine).take (b.currentCol - 1)),
             currentCol := b.currentCol - 1 }
  else if 0 < b.currentLine then
    { b with currentLine := b.currentLine - 1, currentCol := (b.row (b.currentLine - 1)).length }
  else b

/-- The bytes the Enter branch enqueues: rows `0` to `current_line`, with `'\n'` between two of
them and `"\r\n"` after the last. -/
def enterBytes (b : InputBuffer) : List Byte := enterKeyBytes (b.buffer.take (b.currentLine + 1))

/-- One key of `serial_input_thread` other than a function key: the state after it and the bytes
it enqueues on the input queue. Other codes are ignored. -/
def key (b : InputBuffer) (ch : Nat) : InputBuffer × List Byte :=
  if isEnterKey ch then (empty, b.enterBytes)
  else if isBackspaceKey ch then (b.backspace, [])
  else if isPrint ch then (b.typeChar (BitVec.ofNat 8 ch), [])
  else (b, [])

/-- What the key handler reads and writes stays inside `input_buffer`: the array has its
`INPUT_MAX_LINES` rows, `current_line` is one of them, `current_col` is at most `INPUT_MAX_COLS`
and is the length of the cursor's row, and every row holds at most `INPUT_MAX_COLS` characters, so
its NUL, what `strlen` and `strcpy` read and what `strcpy` writes fit in the row's
`INPUT_MAX_COLS + 1` bytes. -/
def InBounds (b : InputBuffer) : Prop :=
  b.buffer.length = inputMaxLines ∧ b.currentLine < inputMaxLines ∧ b.currentCol ≤ inputMaxCols ∧
    (b.row b.currentLine).length = b.currentCol ∧ ∀ i, (b.row i).length ≤ inputMaxCols

/-- A sequence of keys: the state after them and the bytes they enqueue, in order. -/
def run (b : InputBuffer) : List Nat → InputBuffer × List Byte
  | [] => (b, [])
  | ch :: chs =>
    let r := b.key ch
    let r' := r.1.run chs
    (r'.1, r.2 ++ r'.2)

@[simp] theorem run_nil (b : InputBuffer) : b.run [] = (b, []) := rfl

@[simp] theorem run_cons (b : InputBuffer) (ch : Nat) (chs : List Nat) :
    b.run (ch :: chs) = (((b.key ch).1.run chs).1, (b.key ch).2 ++ ((b.key ch).1.run chs).2) := rfl

/-- Keys typed after keys: the state after both, and the bytes of the first, then the second. -/
theorem run_append (b : InputBuffer) (ks ks' : List Nat) :
    b.run (ks ++ ks') = (((b.run ks).1.run ks').1, (b.run ks).2 ++ ((b.run ks).1.run ks').2) := by
  induction ks generalizing b with
  | nil => rfl
  | cons ch ks ih => simp only [List.cons_append, run_cons, ih, List.append_assoc]

end InputBuffer

/-! ## The rows on screen -/

/-- What the buffer holds between two Enter presses: the full rows above the cursor's row, and
the cursor's row, with the cursor at its end. The fields are the bounds of `input_buffer` and
the characters the thread lets in. -/
@[ext] structure EditLines where
  full : List (List Byte)
  current : List Byte
  length_full : full.length < inputMaxLines
  full_rows : ∀ r ∈ full, r.length = inputMaxCols
  length_current : current.length ≤ inputMaxCols
  full_printable : ∀ r ∈ full, Printable r
  current_printable : Printable current

namespace EditLines

/-- No row typed. -/
def empty : EditLines where
  full := []
  current := []
  length_full := by decide
  full_rows := by simp
  length_current := by decide
  full_printable := by simp
  current_printable := by simp [Printable]

/-- The rows laid out in `input_buffer`: the full rows, the cursor's row, empty rows after it, and
the cursor at the end of its row. -/
def toBuffer (e : EditLines) : InputBuffer :=
  ⟨e.full ++ e.current :: List.replicate (inputMaxLines - 1 - e.full.length) [],
   e.full.length, e.current.length⟩

/-- A printable key goes at the end of the cursor's row; after a full row, on a new row; with
every row full, the top row scrolls away and the key is lost. -/
def type (e : EditLines) (ch : Byte) (hch : isPrint ch.toNat) : EditLines :=
  if h : e.current.length < inputMaxCols then
    { e with
      current := e.current ++ [ch]
      length_current := by simp only [List.length_append, List.length_singleton]; omega
      current_printable :=
        List.forall_mem_append.2 ⟨e.current_printable, List.forall_mem_singleton.2 hch⟩ }
  else if h' : e.full.length < inputMaxLines - 1 then
    { full := e.full ++ [e.current]
      current := [ch]
      length_full := by simp only [List.length_append, List.length_singleton]; omega
      full_rows := List.forall_mem_append.2 ⟨e.full_rows,
        List.forall_mem_singleton.2 (Nat.le_antisymm e.length_current (Nat.not_lt.1 h))⟩
      length_current := by simp [inputMaxCols]
      full_printable :=
        List.forall_mem_append.2 ⟨e.full_printable, List.forall_mem_singleton.2 e.current_printable⟩
      current_printable := List.forall_mem_singleton.2 hch }
  else
    { full := e.full.tail ++ [e.current]
      current := []
      length_full := by
        simp only [List.length_append, List.length_tail, List.length_singleton]
        have := e.length_full; simp only [inputMaxLines] at *; omega
      full_rows := List.forall_mem_append.2 ⟨fun r hr => e.full_rows r (List.mem_of_mem_tail hr),
        List.forall_mem_singleton.2 (Nat.le_antisymm e.length_current (Nat.not_lt.1 h))⟩
      length_current := Nat.zero_le _
      full_printable := List.forall_mem_append.2
        ⟨fun r hr => e.full_printable r (List.mem_of_mem_tail hr),
         List.forall_mem_singleton.2 e.current_printable⟩
      current_printable := by simp [Printable] }

/-- Backspace deletes the last character of the cursor's row, or, on an empty row below a full
one, moves to the end of that row. -/
def backspace (e : EditLines) : EditLines :=
  if hc : e.current ≠ [] then
    { e with
      current := e.current.dropLast
      length_current := by simp only [List.length_dropLast]; have := e.length_current; omega
      current_printable := fun x hx => e.current_printable x (List.dropLast_subset _ hx) }
  else if hf : e.full ≠ [] then
    { full := e.full.dropLast
      current := e.full.getLast hf
      length_full := by simp only [List.length_dropLast]; have := e.length_full; omega
      full_rows := fun r hr => e.full_rows r (List.dropLast_subset _ hr)
      length_current := (e.full_rows _ (List.getLast_mem hf)).le
      full_printable := fun r hr => e.full_printable r (List.dropLast_subset _ hr)
      current_printable := e.full_printable _ (List.getLast_mem hf) }
  else e

/-- A key code that passes `isprint` is a printable byte. -/
theorem isPrint_ofNat {ch : Nat} (h : isPrint ch) : isPrint (BitVec.ofNat 8 ch).toNat := by
  simp only [isPrint, Bool.and_eq_true, decide_eq_true_eq, BitVec.toNat_ofNat] at h ⊢
  omega

/-- One key on the rows: Enter sends them and clears them. -/
def key (e : EditLines) (ch : Nat) : EditLines × List Byte :=
  if isEnterKey ch then (empty, enterKeyBytes (e.full ++ [e.current]))
  else if isBackspaceKey ch then (e.backspace, [])
  else if h : isPrint ch then (e.type (BitVec.ofNat 8 ch) (isPrint_ofNat h), [])
  else (e, [])

/-! ### The layout in `input_buffer` -/

theorem row_toBuffer_current (e : EditLines) : e.toBuffer.row e.full.length = e.current := by
  simp only [toBuffer, InputBuffer.row, List.getD_eq_getElem?_getD,
    List.getElem?_append_right (Nat.le_refl _), Nat.sub_self, List.getElem?_cons_zero,
    Option.getD_some]

theorem row_toBuffer_of_gt (e : EditLines) {i : Nat} (hi : e.full.length < i) :
    e.toBuffer.row i = [] := by
  obtain ⟨j, rfl⟩ := Nat.exists_eq_add_of_lt hi
  simp only [toBuffer, InputBuffer.row, List.getD_eq_getElem?_getD,
    List.getElem?_append_right (by omega : e.full.length ≤ e.full.length + j + 1),
    show e.full.length + j + 1 - e.full.length = j + 1 by omega, List.getElem?_cons_succ,
    List.getElem?_replicate]
  split <;> rfl

theorem toBuffer_empty : empty.toBuffer = InputBuffer.empty := rfl

theorem enterBytes_toBuffer (e : EditLines) :
    e.toBuffer.enterBytes = enterKeyBytes (e.full ++ [e.current]) := by
  simp [toBuffer, InputBuffer.enterBytes, List.take_append_eq_append_take,
    List.take_of_length_le]

theorem strPut_length (s : List Byte) (ch : Byte) : strPut s s.length ch = s ++ [ch] := by
  simp [strPut]

/-- **A printable key on the laid-out rows** lands where `EditLines.type` puts it. -/
theorem toBuffer_typeChar (e : EditLines) (ch : Byte) (hch : isPrint ch.toNat) :
    e.toBuffer.typeChar ch = (e.type ch hch).toBuffer := by
  have hrow := e.row_toBuffer_current
  unfold type InputBuffer.typeChar
  by_cases h : e.current.length < inputMaxCols
  · rw [dif_pos h]
    simp only [toBuffer, if_pos h] at hrow ⊢
    rw [hrow, strPut_length]
    simp [List.set_append_right]
  · rw [dif_neg h]
    by_cases h' : e.full.length < inputMaxLines - 1
    · rw [dif_pos h']
      have hgt := e.row_toBuffer_of_gt (Nat.lt_succ_self e.full.length)
      obtain ⟨k, hk⟩ : ∃ k, inputMaxLines - 1 - e.full.length = k + 1 :=
        ⟨_, (Nat.succ_pred_eq_of_pos (Nat.sub_pos_of_lt h')).symm⟩
      simp only [toBuffer, if_neg h, if_pos h'] at hgt ⊢
      rw [hgt]
      simp [strPut, hk, List.set_append_right, List.replicate_succ]
      omega
    · rw [dif_neg h']
      obtain ⟨f₀, f₁, hf⟩ := List.length_eq_two.1
        (show e.full.length = 2 by have := e.length_full; simp only [inputMaxLines] at *; omega)
      simp only [toBuffer, if_neg h, if_neg h', hf]
      simp [InputBuffer.row, inputMaxLines, List.range_succ]

/-- **Backspace on the laid-out rows** does what `EditLines.backspace` does. -/
theorem toBuffer_backspace (e : EditLines) : e.toBuffer.backspace = e.backspace.toBuffer := by
  have hrow := e.row_toBuffer_current
  unfold backspace InputBuffer.backspace
  by_cases hc : e.current ≠ []
  · rw [dif_pos hc]
    simp only [toBuffer, if_pos (List.length_pos.2 hc)] at hrow ⊢
    rw [hrow]
    simp [List.set_append_right, List.dropLast_eq_take]
  rw [dif_neg hc, not_not] at *
  by_cases hf : e.full ≠ []
  · rw [dif_pos hf]
    have hlen : 0 < e.full.length := List.length_pos.2 hf
    have hfull := List.dropLast_concat_getLast hf
    have hk : inputMaxLines - 1 - (e.full.length - 1) = inputMaxLines - 1 - e.full.length + 1 := by
      have := e.length_full; omega
    have hlast : (e.full ++ [] :: List.replicate (inputMaxLines - 1 - e.full.length) []).getD
        (e.full.length - 1) [] = e.full.getLast hf := by
      rw [List.getD_eq_getElem?_getD, List.getElem?_append_left (by omega), List.getLast_eq_getElem,
        List.getElem?_eq_getElem (by omega), Option.getD_some]
    simp only [toBuffer, hc, List.length_nil, Nat.lt_irrefl, if_false, if_pos hlen,
      InputBuffer.row, hlast, List.length_dropLast, hk, List.replicate_succ, InputBuffer.mk.injEq,
      and_true]
    conv_lhs => rw [← hfull]
    simp only [List.append_assoc, List.singleton_append, List.length_append, List.length_dropLast,
      List.length_singleton, Nat.sub_add_cancel hlen]
  · rw [dif_neg hf, not_not] at *
    simp [toBuffer, hc, hf, InputBuffer.backspace]

/-- **The key handler refines `EditLines.key`**: on laid-out rows, a key leaves the layout of the
rows `EditLines.key` leaves, and enqueues the same bytes. -/
theorem toBuffer_key (e : EditLines) (ch : Nat) :
    e.toBuffer.key ch = ((e.key ch).1.toBuffer, (e.key ch).2) := by
  unfold key InputBuffer.key
  by_cases he : isEnterKey ch
  · simp only [he, if_true, toBuffer_empty, enterBytes_toBuffer]
  by_cases hb : isBackspaceKey ch
  · simp only [he, hb, Bool.false_eq_true, if_true, if_false, toBuffer_backspace]
  by_cases hp : isPrint ch
  · simp only [he, hb, hp, Bool.false_eq_true, if_true, if_false, dif_pos]
    rw [toBuffer_typeChar]
  · simp only [he, hb, hp, Bool.false_eq_true, if_false, dif_neg, not_false_eq_true]

/-- A sequence of keys on the rows. -/
def run (e : EditLines) : List Nat → EditLines × List Byte
  | [] => (e, [])
  | ch :: chs =>
    let r := e.key ch
    let r' := r.1.run chs
    (r'.1, r.2 ++ r'.2)

/-- Every sequence of keys on laid-out rows runs as on the rows. -/
theorem toBuffer_run (e : EditLines) (ks : List Nat) :
    e.toBuffer.run ks = ((e.run ks).1.toBuffer, (e.run ks).2) := by
  induction ks generalizing e with
  | nil => rfl
  | cons ch ks ih => simp only [InputBuffer.run_cons, toBuffer_key, ih, run]

/-- Every row of laid-out rows holds at most `INPUT_MAX_COLS` characters. -/
theorem row_toBuffer_length_le (e : EditLines) (i : Nat) :
    (e.toBuffer.row i).length ≤ inputMaxCols := by
  have hrows : ∀ r ∈ e.toBuffer.buffer, r.length ≤ inputMaxCols := by
    simp only [toBuffer, List.mem_append, List.mem_cons, List.mem_replicate]
    rintro r (hr | rfl | ⟨-, rfl⟩)
    · exact (e.full_rows r hr).le
    · exact e.length_current
    · exact Nat.zero_le _
  simp only [InputBuffer.row, List.getD_eq_getElem?_getD]
  cases h : e.toBuffer.buffer[i]? with
  | none => exact Nat.zero_le _
  | some r => exact hrows r (List.getElem?_mem h)

/-- Laid-out rows are inside `input_buffer`: the indices, the cursor's row and every other row. -/
theorem toBuffer_bounds (e : EditLines) : e.toBuffer.InBounds := by
  have := e.length_full
  refine ⟨?_, this, e.length_current, congrArg List.length e.row_toBuffer_current,
    e.row_toBuffer_length_le⟩
  simp only [toBuffer, List.length_append, List.length_cons, List.length_replicate]
  omega

end EditLines

/-- **Every state the serial-input thread reaches stays inside `input_buffer`.** After any
sequence of keys from the start, the array has its `INPUT_MAX_LINES` rows, `current_line` is one
of them, `current_col` is at most `INPUT_MAX_COLS` and is the length of the cursor's row, and
every row holds at most `INPUT_MAX_COLS` characters, so every read and write of the key handler,
`strlen` and `strcpy` included, stays inside the array. -/
theorem run_empty_bounds (ks : List Nat) : (InputBuffer.empty.run ks).1.InBounds := by
  rw [← EditLines.toBuffer_empty, EditLines.toBuffer_run]
  exact EditLines.toBuffer_bounds _

/-! ## The text typed -/

/-- A text cut into rows of `INPUT_MAX_COLS` characters, the last row holding the rest; an empty
text is one empty row. -/
def wrapLines (s : List Byte) : List (List Byte) :=
  if s.length ≤ inputMaxCols then [s]
  else s.take inputMaxCols :: wrapLines (s.drop inputMaxCols)
termination_by s.length
decreasing_by simp only [List.length_drop, inputMaxCols] at *; omega

theorem wrapLines_of_le {s : List Byte} (h : s.length ≤ inputMaxCols) : wrapLines s = [s] := by
  rw [wrapLines, if_pos h]

theorem wrapLines_append {r s : List Byte} (hr : r.length = inputMaxCols) (hs : s ≠ []) :
    wrapLines (r ++ s) = r :: wrapLines s := by
  have : ¬ (r ++ s).length ≤ inputMaxCols := by
    rw [List.length_append, hr]; have := List.length_pos.2 hs; omega
  rw [wrapLines, if_neg this, List.take_left' hr, List.drop_left' hr]

namespace EditLines

/-- The characters on the rows, in order. -/
def text (e : EditLines) : List Byte := e.full.flatten ++ e.current

theorem rows_eq_wrapLines_aux (full : List (List Byte)) (cur : List Byte)
    (hfull : ∀ r ∈ full, r.length = inputMaxCols) (hcur : cur.length ≤ inputMaxCols)
    (h : cur ≠ [] ∨ full = []) : full ++ [cur] = wrapLines (full.flatten ++ cur) := by
  induction full with
  | nil => exact (wrapLines_of_le hcur).symm
  | cons r full ih =>
    have hc : cur ≠ [] := h.resolve_right (List.cons_ne_nil r full)
    have hne : full.flatten ++ cur ≠ [] := by simp [hc]
    rw [List.flatten_cons, List.append_assoc,
      wrapLines_append (hfull r (List.mem_cons_self _ _)) hne, List.cons_append,
      ih (fun r' hr' => hfull r' (List.mem_cons_of_mem _ hr')) (Or.inl hc)]

/-- Rows whose cursor row is not empty, or that are a single row, are their text cut into rows:
the layout is the text's, with no empty row left after a wrap. -/
theorem rows_eq_wrapLines (e : EditLines) (h : e.current ≠ [] ∨ e.full = []) :
    e.full ++ [e.current] = wrapLines e.text :=
  rows_eq_wrapLines_aux e.full e.current e.full_rows e.length_current h

/-- Below the capacity, a printable key is appended to the text and leaves a nonempty cursor
row. -/
theorem type_of_lt (e : EditLines) (ch : Byte) (hch : isPrint ch.toNat)
    (h : e.text.length < inputMaxLines * inputMaxCols) :
    (e.type ch hch).text = e.text ++ [ch] ∧ (e.type ch hch).current ≠ [] := by
  unfold type
  split_ifs with h₁ h₂
  · simp [text]
  · simp [text]
  · obtain ⟨f₀, f₁, hf⟩ := List.length_eq_two.1
      (show e.full.length = 2 by have := e.length_full; simp only [inputMaxLines] at *; omega)
    have hc := Nat.le_antisymm e.length_current (Nat.not_lt.1 h₁)
    have h₀ := e.full_rows f₀ (by simp [hf])
    have h₁' := e.full_rows f₁ (by simp [hf])
    simp only [text, hf, List.flatten_cons, List.flatten_nil, List.append_nil, List.length_append,
      h₀, h₁', hc, inputMaxLines, inputMaxCols] at h
    omega

theorem key_enter (e : EditLines) {k : Nat} (hk : isEnterKey k) :
    e.key k = (empty, enterKeyBytes (e.full ++ [e.current])) := by
  simp [key, hk]

theorem key_of_isPrint (e : EditLines) {ch : Nat} (hch : isPrint ch) :
    e.key ch = (e.type (BitVec.ofNat 8 ch) (isPrint_ofNat hch), []) := by
  have hr := hch
  simp only [isPrint, Bool.and_eq_true, decide_eq_true_eq] at hr
  have he : isEnterKey ch = false := by
    simp only [isEnterKey, Bool.or_eq_false_iff, beq_eq_false_iff_ne]; omega
  have hb : isBackspaceKey ch = false := by
    simp only [isBackspaceKey, keyBackspace, Bool.or_eq_false_iff, beq_eq_false_iff_ne]; omega
  simp only [key, he, hb, Bool.false_eq_true, if_false, dif_pos hch]

theorem key_toNat (e : EditLines) (ch : Byte) (hch : isPrint ch.toNat) :
    e.key ch.toNat = (e.type ch hch, []) := by
  simp only [key_of_isPrint e hch, BitVec.ofNat_toNat, BitVec.setWidth_eq]

theorem key_backspace (e : EditLines) {k : Nat} (hk : isBackspaceKey k) :
    e.key k = (e.backspace, []) := by
  have he : isEnterKey k = false := by
    simp only [isBackspaceKey, keyBackspace, Bool.or_eq_true, beq_iff_eq] at hk
    simp only [isEnterKey, Bool.or_eq_false_iff, beq_eq_false_iff_ne]; omega
  simp [key, he, hk]

/-- Typing a printable text within the capacity appends it to the rows' text, enqueues nothing,
and leaves a nonempty cursor row (or the single row it started with). -/
theorem run_typing (e : EditLines) (s : List Byte) (hs : Printable s)
    (hlen : e.text.length + s.length ≤ inputMaxLines * inputMaxCols)
    (hcur : e.current ≠ [] ∨ e.full = []) :
    (e.run (s.map BitVec.toNat)).2 = [] ∧ (e.run (s.map BitVec.toNat)).1.text = e.text ++ s ∧
      ((e.run (s.map BitVec.toNat)).1.current ≠ [] ∨ (e.run (s.map BitVec.toNat)).1.full = []) := by
  induction s generalizing e with
  | nil => exact ⟨rfl, (List.append_nil _).symm, hcur⟩
  | cons ch s ih =>
    have hch : isPrint ch.toNat := hs ch (List.mem_cons_self _ _)
    obtain ⟨htext, hne⟩ := e.type_of_lt ch hch (by simp only [List.length_cons] at hlen; omega)
    obtain ⟨h₁, h₂, h₃⟩ := ih (e.type ch hch) (fun x hx => hs x (List.mem_cons_of_mem _ hx))
      (by rw [htext, List.length_append, List.length_singleton]; simp only [List.length_cons] at hlen; omega)
      (Or.inl hne)
    simp only [List.map_cons, run, key_toNat e ch hch, h₁, List.append_nil, true_and]
    exact ⟨by rw [h₂, htext, List.append_assoc, List.singleton_append], h₃⟩

end EditLines

/-- **Typing a text and Enter sends the text in rows.** From an empty buffer, the keys of a
printable text of at most `INPUT_MAX_LINES * INPUT_MAX_COLS` characters and then Enter enqueue
the text cut into rows of `INPUT_MAX_COLS`, a `'\n'` between two rows, and `"\r\n"`; the buffer is
empty again. -/
theorem typing_then_enter (s : List Byte) (hs : Printable s)
    (hlen : s.length ≤ inputMaxLines * inputMaxCols) {k : Nat} (hk : isEnterKey k) :
    InputBuffer.empty.run (s.map BitVec.toNat ++ [k]) =
      (InputBuffer.empty, enterKeyBytes (wrapLines s)) := by
  obtain ⟨hsent, htext, hcur⟩ := EditLines.empty.run_typing s hs
    (by rw [show EditLines.empty.text = [] from rfl, List.length_nil, Nat.zero_add]; exact hlen)
    (Or.inr rfl)
  rw [InputBuffer.run_append, ← EditLines.toBuffer_empty, EditLines.toBuffer_run,
    EditLines.toBuffer_run, hsent]
  simp only [EditLines.run, EditLines.key_enter _ hk, List.nil_append, List.append_nil,
    EditLines.toBuffer_empty, EditLines.rows_eq_wrapLines _ hcur, htext]
  rfl

/-- `HI` and Enter. -/
theorem typing_hi_then_enter :
    (Printable [0x48, 0x49] ∧ [0x48, 0x49].length ≤ inputMaxLines * inputMaxCols ∧
        isEnterKey 13 = true) ∧
      InputBuffer.empty.run (([0x48, 0x49] : List Byte).map BitVec.toNat ++ [13]) =
        (InputBuffer.empty, enterKeyBytes (wrapLines [0x48, 0x49])) :=
  ⟨⟨by decide, by decide, rfl⟩, typing_then_enter _ (by decide) (by decide) rfl⟩

/-- A character typed at the end of a full row goes on the next row. -/
example : (InputBuffer.mk [List.replicate 78 65, [], []] 0 78).run [66, 13] =
    (InputBuffer.empty, List.replicate 78 65 ++ [0x0A, 66, 0x0D, 0x0A]) := by
  decide

namespace EditLines

/-- The layout in `input_buffer` determines the rows. -/
theorem toBuffer_injective {e e' : EditLines} (h : e.toBuffer = e'.toBuffer) : e = e' := by
  simp only [toBuffer, InputBuffer.mk.injEq] at h
  obtain ⟨hbuf, hline, -⟩ := h
  obtain ⟨hfull, hrest⟩ := List.append_inj hbuf hline
  exact EditLines.ext hfull (List.cons.inj hrest).1

/-- Backspace right after a printable key restores the rows exactly when the key did not find the
cursor's row full: after a wrap it leaves an empty row, and with every row full the key scrolled
the top row away. -/
theorem backspace_type_eq_iff (e : EditLines) (ch : Byte) (hch : isPrint ch.toNat) :
    (e.type ch hch).backspace = e ↔ e.current.length < inputMaxCols := by
  unfold type
  split_ifs with h₁ h₂
  · simp [backspace, h₁, EditLines.ext_iff]
  · simp only [backspace, ne_eq, List.cons_ne_nil, not_false_eq_true, dif_pos, h₁, iff_false,
      EditLines.ext_iff, List.dropLast_single]
    rintro ⟨hf, -⟩
    simpa using congrArg List.length hf
  · simp only [backspace, h₁, EditLines.ext_iff, iff_false]
    simp only [ne_eq, not_true_eq_false, dif_neg, List.append_eq_nil, List.cons_ne_nil, and_false,
      not_false_eq_true, dif_pos, List.dropLast_concat, not_and]
    intro hf
    have := congrArg List.length hf
    simp only [List.length_tail, inputMaxLines] at this h₂
    omega

/-- **After a wrap**, backspace leaves the cursor at the start of the new row, which is empty
again: the rows are as before the key, the cursor one row down. -/
theorem toBuffer_backspace_type_of_wrap (e : EditLines) (ch : Byte) (hch : isPrint ch.toNat)
    (hcol : e.current.length = inputMaxCols) (hline : e.full.length < inputMaxLines - 1) :
    (e.type ch hch).backspace.toBuffer =
      { e.toBuffer with currentLine := e.toBuffer.currentLine + 1, currentCol := 0 } := by
  obtain ⟨k, hk⟩ : ∃ k, inputMaxLines - 1 - e.full.length = k + 1 :=
    ⟨_, (Nat.succ_pred_eq_of_pos (Nat.sub_pos_of_lt hline)).symm⟩
  have hk' : inputMaxLines - 1 - (e.full.length + 1) = k := by omega
  unfold type
  rw [dif_neg (by omega), dif_pos hline]
  simp [backspace, toBuffer, hk, hk', List.replicate_succ]

/-- **With every row full**, the key scrolled the top row away and backspace goes back to the end
of the row above: the rows are the old ones less the top row, and an empty last row. -/
theorem toBuffer_backspace_type_of_full (e : EditLines) (ch : Byte) (hch : isPrint ch.toNat)
    (hcol : e.current.length = inputMaxCols) (hline : e.full.length = inputMaxLines - 1) :
    (e.type ch hch).backspace.toBuffer =
      ⟨e.toBuffer.buffer.tail ++ [[]], inputMaxLines - 2, inputMaxCols⟩ := by
  obtain ⟨f₀, f₁, hf⟩ := List.length_eq_two.1 (show e.full.length = 2 from hline)
  unfold type
  rw [dif_neg (by omega), dif_neg (by omega)]
  simp [backspace, toBuffer, hf, hcol, inputMaxLines]

end EditLines

/-- **Backspace undoes a printable key exactly when the key did not reach the end of a row.** In
every state the thread reaches, a printable key and then backspace give the state back when the
cursor was before column `INPUT_MAX_COLS`, and never otherwise: after a wrap the cursor stays at
the start of the new, empty row, which Enter then sends, and with every row full the top row is
gone and the cursor is at the end of the row above. -/
theorem backspace_after_key_iff (ks : List Nat) {ch k : Nat} (hch : isPrint ch)
    (hk : isBackspaceKey k) :
    ((((InputBuffer.empty.run ks).1.key ch).1.key k).1 = (InputBuffer.empty.run ks).1 ↔
      (InputBuffer.empty.run ks).1.currentCol < inputMaxCols) ∧
    ((InputBuffer.empty.run ks).1.currentCol = inputMaxCols →
      (InputBuffer.empty.run ks).1.currentLine < inputMaxLines - 1 →
      (((InputBuffer.empty.run ks).1.key ch).1.key k).1 =
        { (InputBuffer.empty.run ks).1 with
          currentLine := (InputBuffer.empty.run ks).1.currentLine + 1, currentCol := 0 }) ∧
    ((InputBuffer.empty.run ks).1.currentCol = inputMaxCols →
      (InputBuffer.empty.run ks).1.currentLine = inputMaxLines - 1 →
      (((InputBuffer.empty.run ks).1.key ch).1.key k).1 =
        ⟨(InputBuffer.empty.run ks).1.buffer.tail ++ [[]], inputMaxLines - 2, inputMaxCols⟩) := by
  rw [← EditLines.toBuffer_empty, EditLines.toBuffer_run]
  simp only [EditLines.toBuffer_key, EditLines.key_of_isPrint _ hch, EditLines.key_backspace _ hk]
  refine ⟨⟨fun h => (EditLines.backspace_type_eq_iff _ _ _).1 (EditLines.toBuffer_injective h),
    fun h => congrArg EditLines.toBuffer ((EditLines.backspace_type_eq_iff _ _ _).2 h)⟩,
    fun hcol hline => ?_, fun hcol hline => ?_⟩
  · exact EditLines.toBuffer_backspace_type_of_wrap _ _ _ hcol hline
  · exact EditLines.toBuffer_backspace_type_of_full _ _ _ hcol hline

/-- After a full row of `A`s, an `A` and backspace leave the cursor on a new, empty row. -/
theorem backspace_after_wrap :
    (isPrint 65 = true ∧ isBackspaceKey 127 = true) ∧
      (((((InputBuffer.empty.run (List.replicate 78 65)).1.key 65).1.key 127).1 =
          (InputBuffer.empty.run (List.replicate 78 65)).1 ↔
        (InputBuffer.empty.run (List.replicate 78 65)).1.currentCol < inputMaxCols) ∧
      ((InputBuffer.empty.run (List.replicate 78 65)).1.currentCol = inputMaxCols →
        (InputBuffer.empty.run (List.replicate 78 65)).1.currentLine < inputMaxLines - 1 →
        (((InputBuffer.empty.run (List.replicate 78 65)).1.key 65).1.key 127).1 =
          { (InputBuffer.empty.run (List.replicate 78 65)).1 with
            currentLine := (InputBuffer.empty.run (List.replicate 78 65)).1.currentLine + 1,
            currentCol := 0 }) ∧
      ((InputBuffer.empty.run (List.replicate 78 65)).1.currentCol = inputMaxCols →
        (InputBuffer.empty.run (List.replicate 78 65)).1.currentLine = inputMaxLines - 1 →
        (((InputBuffer.empty.run (List.replicate 78 65)).1.key 65).1.key 127).1 =
          ⟨(InputBuffer.empty.run (List.replicate 78 65)).1.buffer.tail ++ [[]], inputMaxLines - 2,
            inputMaxCols⟩)) :=
  ⟨⟨rfl, rfl⟩, backspace_after_key_iff _ rfl rfl⟩

/-- Enter then sends the full row, and the empty one below it. -/
example : ((InputBuffer.mk [List.replicate 78 65, [], []] 0 78).run [66, 127, 13]).2 =
    List.replicate 78 65 ++ [0x0A, 0x0D, 0x0A] := by
  decide

end Mos6502
