import Mathlib.Data.List.Basic
import Mos6502.Host.LineEditor

/-!
# The serial windows' cursors

Each serial window's thread keeps its own cursor beside the state the other modules model.

`serial_output_thread` starts at `output_x = 1`, `output_y = 1`, inside the border. For each byte
it takes off the output queue it draws the byte at the cursor with `mvwaddch` and moves right; a
newline, or a column past `max_x = SERIAL_OUTPUT_WINDOW_WIDTH - 2`, moves to the start of the next
row, and a row past `max_y = SERIAL_OUTPUT_WINDOW_HEIGHT - 2` scrolls the window up, the cursor
left on the bottom row. The cursor depends on nothing but the bytes the thread printed, the
`printed` of `Emulator`. What the window is for: the text cut into its lines at the newlines,
each line laid out on rows of `max_x` characters, the latest `max_y` rows on screen. After any
text the cursor is just after the last line's characters on its row, on the row the text reaches
until the window is full, and no byte was drawn on the border (`outputCursor_layout`).

`serial_input_thread` moves `input_x`, `input_y` in the branches that move `current_col` and
`current_line`. Over every sequence of keys from the start, the cursor is at
`(current_col + 1, current_line + 1)`, and every character and blank the thread draws, and every
row it redraws after a scroll, is inside the border (`inputCursor_tracks`). The scroll branch
leaves `input_y` as it was, which is right because the cursor was already on the last row. This
is why the model of the thread in `LineEditor` keeps only the indices.

## Main definitions

* `OutputCursor.put`, `OutputCursor.cells`: one byte of `serial_output_thread` on its cursor, and
  the cells the bytes are drawn at
* `InputBuffer.cursorKey`, `InputBuffer.cursorRun`: the cursor moves of `serial_input_thread`

## Main results

* `outputCursor_layout`: the output window wraps and scrolls the text inside its border
* `inputCursor_tracks`: the input window's cursor follows the edit indices inside its border
-/

namespace Mos6502

/-! ## The serial-output window -/

/-- `SERIAL_OUTPUT_WINDOW_WIDTH`. -/
def serialOutputWindowWidth : Nat := 80

/-- `SERIAL_OUTPUT_WINDOW_HEIGHT`. -/
def serialOutputWindowHeight : Nat := 10

/-- `max_x`, the last column inside the border. -/
def outputMaxX : Nat := serialOutputWindowWidth - 2

/-- `max_y`, the last row inside the border. -/
def outputMaxY : Nat := serialOutputWindowHeight - 2

theorem outputMaxX_eq : outputMaxX = 78 := rfl

theorem outputMaxY_eq : outputMaxY = 8 := rfl

/-- `output_x`, `output_y`: where `serial_output_thread` draws its next byte. -/
structure OutputCursor where
  x : Nat
  y : Nat
  deriving DecidableEq, Repr

namespace OutputCursor

/-- `int output_x = 1, output_y = 1`. -/
def start : OutputCursor := ⟨1, 1⟩

/-- One byte of the thread's inner loop: drawn at the cursor, then `output_x++`; at a newline or
past `max_x` the start of the next row, and past `max_y` the scroll, which leaves the cursor on
row `max_y`. -/
def put (c : OutputCursor) (b : Byte) : OutputCursor :=
  if b = 10 ∨ c.x + 1 > outputMaxX then
    if c.y + 1 > outputMaxY then ⟨1, outputMaxY⟩ else ⟨1, c.y + 1⟩
  else ⟨c.x + 1, c.y⟩

/-- The bytes printed one after another. -/
def print (c : OutputCursor) (bytes : List Byte) : OutputCursor := bytes.foldl put c

/-- The cells, row then column, the bytes are drawn at. -/
def cells : OutputCursor → List Byte → List (Nat × Nat)
  | _, [] => []
  | c, b :: bs => (c.y, c.x) :: cells (c.put b) bs

/-- On a cell inside the border. -/
def Inside (c : OutputCursor) : Prop := 1 ≤ c.x ∧ c.x ≤ outputMaxX ∧ 1 ≤ c.y ∧ c.y ≤ outputMaxY

theorem put_inside {c : OutputCursor} (h : c.Inside) (b : Byte) : (c.put b).Inside := by
  unfold put
  split_ifs <;> simp only [Inside, outputMaxX_eq, outputMaxY_eq] at * <;> omega

theorem start_inside : start.Inside := by unfold Inside start; decide

theorem print_cons (c : OutputCursor) (b : Byte) (l : List Byte) :
    c.print (b :: l) = (c.put b).print l := rfl

theorem print_append (c : OutputCursor) (l l' : List Byte) :
    c.print (l ++ l') = (c.print l).print l' :=
  List.foldl_append _ _ _ _

/-- From a cursor inside the border, every byte is drawn inside it. -/
theorem cells_inside {c : OutputCursor} (h : c.Inside) (bytes : List Byte) :
    ∀ p ∈ c.cells bytes, (⟨p.2, p.1⟩ : OutputCursor).Inside := by
  induction bytes generalizing c with
  | nil => simp [cells]
  | cons b bs ih => exact List.forall_mem_cons.2 ⟨h, ih (put_inside h b)⟩

/-- A byte other than a newline at column `1 + k`: the column moves one place round the row, and
the row down when the row is full, not past the bottom. -/
theorem put_of_ne {b : Byte} (hb : b ≠ 10) {k y : Nat} (hk : k < outputMaxX)
    (hy : y ≤ outputMaxY) :
    put ⟨1 + k, y⟩ b = ⟨1 + (k + 1) % outputMaxX, min outputMaxY (y + (k + 1) / outputMaxX)⟩ := by
  simp only [put, hb, false_or, outputMaxX_eq, outputMaxY_eq] at hk hy ⊢
  split_ifs <;> simp only [mk.injEq] <;> omega

/-- A newline moves to the start of the next row, or scrolls on the bottom row. -/
theorem put_newline (c : OutputCursor) : put c 10 = ⟨1, min outputMaxY (c.y + 1)⟩ := by
  simp only [put, true_or, if_true, outputMaxY_eq]
  split_ifs <;> simp only [mk.injEq, true_and] <;> omega

/-- A line with no newline from column `1 + k` of row `y`: the column moves round the row by the
line's length, and the row down by the rows the line fills, not past the bottom. -/
theorem print_line {l : List Byte} (hl : (10 : Byte) ∉ l) {k y : Nat} (hk : k < outputMaxX)
    (hy : y ≤ outputMaxY) :
    print ⟨1 + k, y⟩ l =
      ⟨1 + (k + l.length) % outputMaxX, min outputMaxY (y + (k + l.length) / outputMaxX)⟩ := by
  induction l generalizing k y with
  | nil =>
    simp only [print, List.foldl_nil, List.length_nil, mk.injEq, outputMaxX_eq,
      outputMaxY_eq] at hk hy ⊢
    omega
  | cons b l ih =>
    rw [List.mem_cons, not_or] at hl
    rw [print_cons, put_of_ne (Ne.symm hl.1) hk hy,
      ih hl.2 (Nat.mod_lt _ (by decide)) (min_le_left _ _)]
    simp only [List.length_cons, mk.injEq, outputMaxX_eq, outputMaxY_eq] at hk ⊢
    omega

/-- Lines with no newline, joined by newlines, from the start of row `y`: the cursor ends after
the last line's characters, on the row reached by one row per newline and per full row, not past
the bottom. -/
theorem print_lines {y : Nat} (hy : y ≤ outputMaxY) (l : List Byte) (ls : List (List Byte))
    (hl : ∀ r ∈ l :: ls, (10 : Byte) ∉ r) :
    print ⟨1, y⟩ ([10].intercalate (l :: ls)) =
      ⟨1 + (ls.getLastD l).length % outputMaxX,
       min outputMaxY (y + ls.length + ((l :: ls).map fun r => r.length / outputMaxX).sum)⟩ := by
  induction ls generalizing l y with
  | nil =>
    simpa [List.intercalate] using print_line (hl l (List.mem_singleton_self l)) (k := 0)
      (by decide) hy
  | cons l' ls ih =>
    rw [List.forall_mem_cons] at hl
    have hline := print_line hl.1 (k := 0) (by decide) hy
    simp only [Nat.add_zero, Nat.zero_add] at hline
    simp only [List.intercalate, List.intersperse_cons_cons, List.flatten_cons,
      List.singleton_append] at ih ⊢
    rw [print_append, hline, print_cons, put_newline, ih (min_le_left _ _) l' hl.2,
      List.getLastD_cons]
    simp only [List.length_cons, List.map_cons, List.sum_cons, mk.injEq, true_and,
      outputMaxX_eq, outputMaxY_eq] at hy ⊢
    omega

/-- No line of a text cut at its newlines holds a newline. -/
theorem newline_not_mem_splitOn (bytes : List Byte) : ∀ r ∈ bytes.splitOn 10, (10 : Byte) ∉ r := by
  induction bytes with
  | nil => simp [List.splitOn_nil]
  | cons b bytes ih =>
    simp only [List.splitOn, List.splitOnP_cons] at ih ⊢
    split_ifs with hb
    · simpa using ih
    · obtain ⟨r, rs, hr⟩ := List.exists_cons_of_ne_nil (List.splitOnP_ne_nil (· == 10) bytes)
      rw [hr, List.forall_mem_cons] at ih
      rw [hr, List.modifyHead_cons, List.forall_mem_cons, List.mem_cons, not_or]
      exact ⟨⟨fun h => hb (by rw [← h]; rfl), ih.1⟩, ih.2⟩

end OutputCursor

/-- **The output window wraps and scrolls the text inside its border.** After any bytes,
`serial_output_thread`'s cursor is at the column after the last line's characters on its row,
lines being cut at the newlines and laid out on rows of `max_x` characters, and on the row the
text reaches (one per line, one more per full row) until the window is full, then on the bottom
row `max_y`; and every byte was drawn inside the border. -/
theorem outputCursor_layout (bytes : List Byte) :
    OutputCursor.start.print bytes =
      ⟨1 + ((bytes.splitOn 10).getLastD []).length % outputMaxX,
       min outputMaxY ((bytes.splitOn 10).length +
         ((bytes.splitOn 10).map fun r => r.length / outputMaxX).sum)⟩ ∧
    ∀ p ∈ OutputCursor.start.cells bytes,
      1 ≤ p.1 ∧ p.1 ≤ outputMaxY ∧ 1 ≤ p.2 ∧ p.2 ≤ outputMaxX := by
  refine ⟨?_, fun p hp => ?_⟩
  · obtain ⟨l, ls, hsplit⟩ := List.exists_cons_of_ne_nil (List.splitOnP_ne_nil (· == 10) bytes)
    have hlines := OutputCursor.newline_not_mem_splitOn bytes
    have hjoin : [10].intercalate (bytes.splitOn 10) = bytes := List.intercalate_splitOn ..
    change bytes.splitOn 10 = l :: ls at hsplit
    rw [hsplit] at hlines hjoin
    conv_lhs => rw [← hjoin]
    rw [OutputCursor.start, OutputCursor.print_lines (by decide) l ls hlines, hsplit,
      List.getLastD_cons, List.length_cons, Nat.add_comm ls.length 1]
  · obtain ⟨h₁, h₂, h₃, h₄⟩ := OutputCursor.cells_inside OutputCursor.start_inside bytes p hp
    exact ⟨h₃, h₄, h₁, h₂⟩

/-! ## The serial-input window -/

/-- `SERIAL_INPUT_WINDOW_WIDTH`. -/
def serialInputWindowWidth : Nat := 80

/-- `SERIAL_INPUT_WINDOW_HEIGHT`. -/
def serialInputWindowHeight : Nat := 5

/-- On a cell, row then column, inside the input window's border. -/
def InsideInput (p : Nat × Nat) : Prop :=
  1 ≤ p.1 ∧ p.1 ≤ serialInputWindowHeight - 2 ∧ 1 ≤ p.2 ∧ p.2 ≤ serialInputWindowWidth - 2

/-- `input_x`, `input_y`: where `serial_input_thread` draws the next character. -/
structure InputCursor where
  x : Nat
  y : Nat
  deriving DecidableEq, Repr

namespace InputBuffer

/-- The cells, row then column, that `mvwprintw(serial_input_window, i + 1, 1, "%s",
input_buffer[i])` draws for each row when the rows scroll. -/
def rowCells (b : InputBuffer) : List (Nat × Nat) :=
  (List.range inputMaxLines).flatMap fun i =>
    (List.range (b.row i).length).map fun j => (i + 1, j + 1)

/-- The cursor moves of one key, from the state before the key, and the cells it draws a character
or a blank at: Enter puts the cursor back at (1, 1) after `werase`; backspace blanks the cell
before the cursor and steps back, or at column 0 goes up to the end (`strlen`) of the row above; a
printable key is drawn at the cursor, or at the start of the next row, and with every row full
the rows are redrawn after the scroll and the cursor goes to the end of the cleared last row. -/
def cursorKey (b : InputBuffer) (c : InputCursor) (ch : Nat) : InputCursor × List (Nat × Nat) :=
  if isEnterKey ch then (⟨1, 1⟩, [])
  else if isBackspaceKey ch then
    if 0 < b.currentCol then (⟨c.x - 1, c.y⟩, [(c.y, c.x - 1)])
    else if 0 < b.currentLine then (⟨(b.row (b.currentLine - 1)).length + 1, c.y - 1⟩, [])
    else (c, [])
  else if isPrint ch then
    if b.currentCol < inputMaxCols then (⟨c.x + 1, c.y⟩, [(c.y, c.x)])
    else if b.currentLine < inputMaxLines - 1 then (⟨2, c.y + 1⟩, [(c.y + 1, 1)])
    else
      (⟨1 + ((b.typeChar (BitVec.ofNat 8 ch)).row (inputMaxLines - 1)).length, c.y⟩,
        (b.typeChar (BitVec.ofNat 8 ch)).rowCells)
  else (c, [])

/-- The cursor over a sequence of keys, and the cells they draw, in order. -/
def cursorRun (b : InputBuffer) (c : InputCursor) : List Nat → InputCursor × List (Nat × Nat)
  | [] => (c, [])
  | ch :: chs =>
    let r := b.cursorKey c ch
    let r' := (b.key ch).1.cursorRun r.1 chs
    (r'.1, r.2 ++ r'.2)

/-- The place right after the cursor's row's characters: `(current_col + 1, current_line + 1)`. -/
def cursor (b : InputBuffer) : InputCursor := ⟨b.currentCol + 1, b.currentLine + 1⟩

/-- **One key keeps the cursor after the indices.** On a state whose indices are inside
`input_buffer`, the cursor moves where the indices the key leaves put it. -/
theorem cursorKey_cursor {b : InputBuffer} (hb : b.InBounds) (ch : Nat) :
    (b.cursorKey b.cursor ch).1 = (b.key ch).1.cursor := by
  obtain ⟨-, hline, -, -, -⟩ := hb
  unfold cursorKey key typeChar backspace
  split_ifs <;> simp [cursor, empty, row, inputMaxLines, List.getElem?_append_right] at * <;>
    omega

end InputBuffer

namespace EditLines

/-- The rows of laid-out rows are redrawn inside the border. -/
theorem rowCells_inside (e : EditLines) : ∀ p ∈ e.toBuffer.rowCells, InsideInput p := by
  simp only [InputBuffer.rowCells, List.mem_flatMap, List.mem_range, List.mem_map]
  rintro p ⟨i, hi, j, hj, rfl⟩
  have := e.row_toBuffer_length_le i
  simp only [InsideInput, serialInputWindowHeight, serialInputWindowWidth, inputMaxLines,
    inputMaxCols] at hi this ⊢
  omega

/-- **One key on laid-out rows draws inside the border.** -/
theorem cursorKey_inside (e : EditLines) (ch : Nat) :
    ∀ p ∈ (e.toBuffer.cursorKey e.toBuffer.cursor ch).2, InsideInput p := by
  have hb := e.toBuffer_bounds
  obtain ⟨-, hline, hcol, -, -⟩ := hb
  unfold InputBuffer.cursorKey
  split_ifs with _ _ _ _ hp
  all_goals try simp only [List.not_mem_nil, false_implies, implies_true]
  all_goals try (simp only [List.mem_singleton, forall_eq, InsideInput, InputBuffer.cursor,
    serialInputWindowHeight, serialInputWindowWidth, inputMaxLines, inputMaxCols] at *; omega)
  rw [e.toBuffer_typeChar _ (isPrint_ofNat hp)]
  exact rowCells_inside _

/-- Keys on laid-out rows keep the cursor after the indices and draw inside the border. -/
theorem cursorRun_toBuffer (e : EditLines) (ks : List Nat) :
    (e.toBuffer.cursorRun e.toBuffer.cursor ks).1 = (e.toBuffer.run ks).1.cursor ∧
      ∀ p ∈ (e.toBuffer.cursorRun e.toBuffer.cursor ks).2, InsideInput p := by
  induction ks generalizing e with
  | nil => exact ⟨rfl, by simp [InputBuffer.cursorRun]⟩
  | cons ch ks ih =>
    have hkey := e.toBuffer_key ch
    have hcur : (e.toBuffer.cursorKey e.toBuffer.cursor ch).1 = (e.key ch).1.toBuffer.cursor := by
      rw [InputBuffer.cursorKey_cursor e.toBuffer_bounds, hkey]
    simp only [InputBuffer.cursorRun, InputBuffer.run_cons, hkey, hcur, List.mem_append]
    exact ⟨(ih _).1, fun p hp => hp.elim (e.cursorKey_inside ch p) ((ih _).2 p)⟩

end EditLines

/-- **The input window's cursor follows the edit indices inside its border.** Over every sequence
of keys from the start, `serial_input_thread`'s cursor `input_x`, `input_y` is at
`current_col + 1`, `current_line + 1`, and every cell the keys draw a character or a blank at,
the rows redrawn after a scroll included, is inside the window's border. -/
theorem inputCursor_tracks (ks : List Nat) :
    (InputBuffer.empty.cursorRun ⟨1, 1⟩ ks).1 = (InputBuffer.empty.run ks).1.cursor ∧
      ∀ p ∈ (InputBuffer.empty.cursorRun ⟨1, 1⟩ ks).2, InsideInput p :=
  EditLines.cursorRun_toBuffer EditLines.empty ks

end Mos6502
