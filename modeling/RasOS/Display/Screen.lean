import RasOS.Display.Display
import RasOS.Lib.Run

set_option autoImplicit false

/-! # Output and the edges of the screen

Output is a sequence of characters, whoever prints them. It stays on the screen exactly as long as
two things do not happen: a backspace in the first column of a row other than the first, which
leaves the column at `0xFFFF`, and a character in a row below the last one, for nothing scrolls.
-/

namespace RasOS

open Machine

/-! ## Output -/

/-- A call of `terminal_print` or of `terminal_default_putchar`. -/
inductive Output
  | print (str : List UInt8)
  | putchar (c colour : UInt8)

/-- The characters of a call, with their colours. -/
def Output.chars : Output → List (UInt8 × UInt8)
  | print str => str.map fun c => (c, 15)
  | putchar c colour => [(c, colour)]

def Output.run (t : Terminal) : Output → Terminal
  | print str => terminalPrint t str
  | putchar c colour => terminalDefaultPutchar t c colour

/-- One character. -/
def terminalStep (t : Terminal) (ch : UInt8 × UInt8) : Option Terminal :=
  some (terminalDefaultPutchar t ch.1 ch.2)

/-- What is printed character by character is what the calls print. -/
theorem runFrom_chars (out : List Output) (t : Terminal) :
    runFrom terminalStep t (out.flatMap Output.chars) = some (out.foldl Output.run t) := by
  have hrun : ∀ (chars : List (UInt8 × UInt8)) (t : Terminal), runFrom terminalStep t chars =
      some (chars.foldl (fun t ch => terminalDefaultPutchar t ch.1 ch.2) t) := by
    intro chars
    induction chars with
    | nil => intro t; rfl
    | cons ch chars ih => intro t; exact ih _
  rw [hrun]
  induction out generalizing t with
  | nil => rfl
  | cons o out ih =>
      rw [List.flatMap_cons, List.foldl_append, List.foldl_cons, ← ih]
      cases o with
      | print str =>
          simp only [Output.chars, Output.run, terminalPrint, List.foldl_map]
      | putchar c colour => rfl

/-! ## The screen -/

/-- The cursor is in a column of the screen, and no cell behind the screen has been stored to. -/
structure OnScreen (t : Terminal) : Prop where
  col : t.terminal_current_col.toNat < VGA_WIDTH
  written : ∀ i ∈ t.written, i < VGA_WIDTH * VGA_HEIGHT

/-- A row that has something in it is a row of the screen. -/
def RowInside (t : Terminal) : Prop :=
  t.terminal_current_col ≠ 0 → t.terminal_current_row.toNat < VGA_HEIGHT

/-- The screen has room for what the character does: a backspace does not start in the first column
of a later row, and any other character but a newline has its row on the screen. -/
def HasRoom (t : Terminal) (ch : UInt8 × UInt8) : Prop :=
  if ch.1 = 0x0A then True
  else if ch.1 = 0x08 then t.terminal_current_row = 0 ∨ t.terminal_current_col ≠ 0
  else t.terminal_current_row.toNat < VGA_HEIGHT

/-- The next column, which does not leave 16 bits. -/
theorem toNat_next_col {col : UInt16} (h : col.toNat < VGA_WIDTH) :
    (col + 1).toNat = col.toNat + 1 := by
  have hw : VGA_WIDTH = 80 := rfl
  rw [UInt16.toNat_add, UInt16.toNat_one]
  omega

theorem toNat_pred_col {col : UInt16} (h : col ≠ 0) : (col - 1).toNat = col.toNat - 1 := by
  have hpos : col.toNat ≠ 0 := fun h0 => h (UInt16.toNat_inj.mp h0)
  have hlt := col.toNat_lt
  rw [UInt16.toNat_sub, UInt16.toNat_one]
  omega

section Advance

variable (t : Terminal) (c colour : UInt8)

theorem terminalAdvance_written : (terminalAdvance t c colour).written =
    (t.terminal_current_row.toNat * VGA_WIDTH + t.terminal_current_col.toNat) :: t.written := by
  unfold terminalAdvance terminalPutchar
  dsimp only
  split <;> rfl

/-- Inside a row the cursor goes one column on. -/
theorem terminalAdvance_inside (h : t.terminal_current_col.toNat + 1 < VGA_WIDTH) :
    (terminalAdvance t c colour).terminal_current_row = t.terminal_current_row ∧
      (terminalAdvance t c colour).terminal_current_col = t.terminal_current_col + 1 := by
  have hcol : (t.terminal_current_col + 1).toNat = t.terminal_current_col.toNat + 1 :=
    toNat_next_col (by omega)
  unfold terminalAdvance terminalPutchar
  dsimp only
  rw [hcol, if_neg (by omega)]
  exact ⟨rfl, rfl⟩

/-- At the end of a row it goes to the start of the next one. -/
theorem terminalAdvance_wrap (h : t.terminal_current_col.toNat + 1 = VGA_WIDTH) :
    (terminalAdvance t c colour).terminal_current_row = t.terminal_current_row + 1 ∧
      (terminalAdvance t c colour).terminal_current_col = 0 := by
  have hcol : (t.terminal_current_col + 1).toNat = t.terminal_current_col.toNat + 1 :=
    toNat_next_col (by omega)
  unfold terminalAdvance terminalPutchar
  dsimp only
  rw [hcol, if_pos (by omega)]
  exact ⟨rfl, rfl⟩

end Advance

/-- Behind the first column a backspace blanks the cell before the cursor and stands on it. -/
theorem terminalBackspace_inside {t : Terminal} (hcol : t.terminal_current_col ≠ 0)
    (hlt : t.terminal_current_col.toNat < VGA_WIDTH) :
    (terminalBackspace t).terminal_current_row = t.terminal_current_row ∧
      (terminalBackspace t).terminal_current_col = t.terminal_current_col - 1 ∧
      (terminalBackspace t).written = (t.terminal_current_row.toNat * VGA_WIDTH +
        (t.terminal_current_col.toNat - 1)) :: t.written := by
  have hpred := toNat_pred_col hcol
  have hpos : t.terminal_current_col.toNat ≠ 0 := fun h0 => hcol (UInt16.toNat_inj.mp h0)
  have hback : t.terminal_current_col - 1 + 1 - 1 = t.terminal_current_col - 1 := by
    rw [UInt16.sub_add_cancel]
  unfold terminalBackspace
  rw [if_neg (fun h => hcol h.2)]
  simp only [if_neg hcol]
  obtain ⟨hrow, hcol'⟩ := terminalAdvance_inside
    { t with terminal_current_col := t.terminal_current_col - 1 } 0x20 15
    (by dsimp only; omega)
  refine ⟨hrow, ?_, ?_⟩
  · rw [hcol']
    exact hback
  · rw [terminalAdvance_written]
    dsimp only
    rw [hpred]

/-- In the first column of a later row it goes to the end of the row before, blanks the cell there,
comes back to the column it came from and steps out of the screen. -/
theorem terminalBackspace_wrap {t : Terminal} (hcol : t.terminal_current_col = 0)
    (hrow : t.terminal_current_row ≠ 0) : (terminalBackspace t).terminal_current_col = 0xFFFF := by
  unfold terminalBackspace
  rw [if_neg (fun h => hrow h.1)]
  simp only [if_pos hcol]
  obtain ⟨-, hcol'⟩ := terminalAdvance_wrap
    { t with
      terminal_current_row := t.terminal_current_row - 1
      terminal_current_col := UInt16.ofNat VGA_WIDTH - 1 } 0x20 15 rfl
  rw [hcol']
  rfl

/-! ## One character -/

/-- A cell of a row of the screen. -/
theorem index_inside {row col : Nat} (hrow : row < VGA_HEIGHT) (hcol : col < VGA_WIDTH) :
    row * VGA_WIDTH + col < VGA_WIDTH * VGA_HEIGHT := by
  have hw : VGA_WIDTH = 80 := rfl
  have hh : VGA_HEIGHT = 20 := rfl
  rw [hh] at hrow
  rw [hw] at hcol
  rw [hw, hh]
  omega

/-- **A character with room** leaves everything on the screen. -/
theorem terminalDefaultPutchar_inside {t : Terminal} {ch : UInt8 × UInt8} (hrow : RowInside t)
    (ht : OnScreen t) (hroom : HasRoom t ch) :
    RowInside (terminalDefaultPutchar t ch.1 ch.2) ∧ OnScreen (terminalDefaultPutchar t ch.1 ch.2) := by
  have hw : VGA_WIDTH = 80 := rfl
  have hlt := ht.col
  unfold terminalDefaultPutchar
  unfold HasRoom at hroom
  by_cases hnl : ch.1 = 0x0A
  · -- a newline stores nothing
    rw [if_pos hnl]
    exact ⟨fun h => absurd rfl h, Nat.zero_lt_succ _, ht.written⟩
  rw [if_neg hnl] at hroom ⊢
  by_cases hbs : ch.1 = 0x08
  · rw [if_pos hbs] at hroom ⊢
    by_cases hcol : t.terminal_current_col = 0
    · -- the first column of the screen: nothing happens
      have hrow0 : t.terminal_current_row = 0 := hroom.resolve_right (fun h => h hcol)
      have hsame : terminalBackspace t = t := by
        unfold terminalBackspace
        rw [if_pos ⟨hrow0, hcol⟩]
      rw [hsame]
      exact ⟨hrow, ht⟩
    · obtain ⟨hrow', hcol', hwritten⟩ := terminalBackspace_inside hcol hlt
      have hin := hrow hcol
      refine ⟨fun _ => ?_, ?_, ?_⟩
      · rw [hrow']
        exact hin
      · rw [hcol', toNat_pred_col hcol]
        omega
      · intro i hi
        rw [hwritten] at hi
        rcases List.mem_cons.mp hi with rfl | hi
        · exact index_inside hin (by omega)
        · exact ht.written i hi
  rw [if_neg hbs] at hroom ⊢
  have hwritten : ∀ i ∈ (terminalAdvance t ch.1 ch.2).written, i < VGA_WIDTH * VGA_HEIGHT := by
    intro i hi
    rw [terminalAdvance_written] at hi
    rcases List.mem_cons.mp hi with rfl | hi
    · exact index_inside hroom hlt
    · exact ht.written i hi
  by_cases hwrap : t.terminal_current_col.toNat + 1 = VGA_WIDTH
  · obtain ⟨-, hcol'⟩ := terminalAdvance_wrap t ch.1 ch.2 hwrap
    refine ⟨fun h => absurd hcol' h, ?_, hwritten⟩
    rw [hcol', hw]
    decide
  · have hin : t.terminal_current_col.toNat + 1 < VGA_WIDTH := by omega
    obtain ⟨hrow', hcol'⟩ := terminalAdvance_inside t ch.1 ch.2 hin
    refine ⟨fun _ => ?_, ?_, hwritten⟩
    · rw [hrow']
      exact hroom
    · rw [hcol', toNat_next_col hlt]
      exact hin

/-- **A character without room** puts the cursor or a cell outside. -/
theorem terminalDefaultPutchar_outside {t : Terminal} {ch : UInt8 × UInt8}
    (hroom : ¬ HasRoom t ch) : ¬ OnScreen (terminalDefaultPutchar t ch.1 ch.2) := by
  intro hout
  unfold terminalDefaultPutchar at hout
  unfold HasRoom at hroom
  by_cases hnl : ch.1 = 0x0A
  · rw [if_pos hnl] at hroom
    exact hroom trivial
  rw [if_neg hnl] at hroom hout
  by_cases hbs : ch.1 = 0x08
  · rw [if_pos hbs] at hroom hout
    have hcol : t.terminal_current_col = 0 := by
      by_contra h
      exact hroom (Or.inr h)
    have hlast := terminalBackspace_wrap hcol (fun h => hroom (Or.inl h))
    have hlt := hout.col
    rw [hlast] at hlt
    exact absurd hlt (by decide)
  · rw [if_neg hbs] at hroom hout
    have hlt := hout.written _ (by rw [terminalAdvance_written]; exact List.mem_cons_self)
    have hw : VGA_WIDTH = 80 := rfl
    have hh : VGA_HEIGHT = 20 := rfl
    rw [hw, hh] at hlt
    rw [hh] at hroom
    omega

/-! ## Every output -/

theorem terminalInitialize_spec (mem : Nat → UInt16) :
    let t := terminalInitialize { video_mem := mem }
    t.terminal_current_row = 0 ∧ t.terminal_current_col = 0 ∧
      ∀ i ∈ t.written, i < VGA_WIDTH * VGA_HEIGHT := by
  -- a row of cells leaves the cursor alone and adds the indexes of the row
  let Inside (t : Terminal) : Prop := t.terminal_current_row = 0 ∧ t.terminal_current_col = 0 ∧
    ∀ i ∈ t.written, i < VGA_WIDTH * VGA_HEIGHT
  have hline : ∀ (y : Nat) (xs : List Nat) (t : Terminal), y < VGA_HEIGHT →
      (∀ x ∈ xs, x < VGA_WIDTH) → Inside t →
      Inside (xs.foldl (fun t x => terminalPutchar t x y 0x20 0) t) := by
    intro y xs
    induction xs with
    | nil => exact fun t _ _ ht => ht
    | cons x xs ih =>
        intro t hy hxs ht
        refine ih _ hy (fun x' hx' => hxs x' (List.mem_cons_of_mem x hx')) ⟨ht.1, ht.2.1, ?_⟩
        intro i hi
        rcases List.mem_cons.mp hi with rfl | hi
        · exact index_inside hy (hxs x List.mem_cons_self)
        · exact ht.2.2 i hi
  have hscreen : ∀ (ys : List Nat) (t : Terminal), (∀ y ∈ ys, y < VGA_HEIGHT) → Inside t →
      Inside (ys.foldl (fun t y =>
        (List.range VGA_WIDTH).foldl (fun t x => terminalPutchar t x y 0x20 0) t) t) := by
    intro ys
    induction ys with
    | nil => exact fun t _ ht => ht
    | cons y ys ih =>
        intro t hys ht
        have hy := hline y (List.range VGA_WIDTH) t (hys y List.mem_cons_self)
          (fun x hx => List.mem_range.mp hx) ht
        exact ih _ (fun y' hy' => hys y' (List.mem_cons_of_mem y hy')) hy
  exact hscreen (List.range VGA_HEIGHT) _ (fun y hy => List.mem_range.mp hy)
    ⟨rfl, rfl, fun i hi => absurd hi (by simp)⟩

/-- **Output stays on the screen exactly as long as every character has room**: after each character
the cursor is in a column of the screen, and nothing behind the screen has been stored to. -/
theorem terminal_onScreen_iff (mem : Nat → UInt16) (out : List Output) :
    AllStates terminalStep OnScreen (terminalInitialize { video_mem := mem })
        (out.flatMap Output.chars) ↔
      AllSteps terminalStep HasRoom (terminalInitialize { video_mem := mem })
        (out.flatMap Output.chars) := by
  obtain ⟨-, hcol, hwritten⟩ := terminalInitialize_spec mem
  have hrow : RowInside (terminalInitialize { video_mem := mem }) := fun h => absurd hcol h
  refine allStates_iff_allSteps (I := RowInside) ?_ ?_ _ _ hrow ⟨by rw [hcol]; decide, hwritten⟩
  · intro t ch t' hrow ht hroom hstep
    obtain rfl := Option.some.inj hstep
    exact terminalDefaultPutchar_inside hrow ht hroom
  · intro t ch t' _ _ hroom hstep
    obtain rfl := Option.some.inj hstep
    exact terminalDefaultPutchar_outside hroom

/-- A newline and a backspace, which any program may print, put the column at `0xFFFF`; the next
character is stored 64 Ki cells behind the row. -/
theorem terminal_backspace_leaves : ¬ ∀ (mem : Nat → UInt16) (out : List Output),
    AllStates terminalStep OnScreen (terminalInitialize { video_mem := mem })
      (out.flatMap Output.chars) := by
  intro h
  obtain ⟨hrow, -, -⟩ := terminalInitialize_spec fun _ => 0
  have hrun := h (fun _ => 0) [.print [0x0A, 0x08]]
  generalize terminalInitialize { video_mem := fun _ => 0 } = t at hrow hrun
  have hnl : (terminalDefaultPutchar t 0x0A 15).terminal_current_row ≠ 0 := by
    rw [terminalDefaultPutchar, if_pos rfl]
    dsimp only
    rw [hrow]
    decide
  have hlast : OnScreen (terminalBackspace (terminalDefaultPutchar t 0x0A 15)) :=
    ((hrun.2 _ rfl).2 _ rfl).first
  have hlt := hlast.col
  rw [terminalBackspace_wrap rfl hnl] at hlt
  exact absurd hlt (by decide)

/-! ## A backspace over a character

A backspace calls the routine that puts a character and goes on, to put a blank, and steps back once more.
Inside a row the two steps cancel. At the end of a row the blank takes the cursor to column 0 of the next
row, and one step back from there is `0xFFFF`. -/

/-- The index of the cell under the cursor. -/
def cursorCell (t : Terminal) : Nat :=
  t.terminal_current_row.toNat * VGA_WIDTH + t.terminal_current_col.toNat

/-- The cursor stands on a cell of the screen. -/
def CursorInside (t : Terminal) : Prop :=
  t.terminal_current_row.toNat < VGA_HEIGHT ∧ t.terminal_current_col.toNat < VGA_WIDTH

/-- `t'` is `t` with a blank in the cell under the cursor. -/
structure Erased (t t' : Terminal) : Prop where
  row : t'.terminal_current_row = t.terminal_current_row
  col : t'.terminal_current_col = t.terminal_current_col
  blank : t'.video_mem (cursorCell t) = terminalMakeChar 0x20 15
  others : ∀ i, i ≠ cursorCell t → t'.video_mem i = t.video_mem i

/-- What a backspace is to do where the cursor of `t` stands: it undoes the character `c` put there, and at the
start of a later row it goes to the last column of the row before. -/
structure BackspaceWorks (t : Terminal) (c colour colour' : UInt8) : Prop where
  erases : CursorInside t →
    Erased t (terminalDefaultPutchar (terminalDefaultPutchar t c colour) 0x08 colour')
  row_before : t.terminal_current_col = 0 → t.terminal_current_row ≠ 0 →
    (terminalDefaultPutchar t 0x08 colour').terminal_current_row = t.terminal_current_row - 1 ∧
      (terminalDefaultPutchar t 0x08 colour').terminal_current_col.toNat + 1 = VGA_WIDTH

theorem terminalAdvance_video_mem (t : Terminal) (c colour : UInt8) :
    (terminalAdvance t c colour).video_mem =
      Function.update t.video_mem (cursorCell t) (terminalMakeChar c colour) := by
  unfold terminalAdvance terminalPutchar
  dsimp only
  split <;> rfl

/-- Behind the first column the cell before the cursor is the only one that changes. -/
theorem terminalBackspace_video_mem {t : Terminal} (hcol : t.terminal_current_col ≠ 0) :
    (terminalBackspace t).video_mem = Function.update t.video_mem
      (cursorCell { t with terminal_current_col := t.terminal_current_col - 1 }) (terminalMakeChar 0x20 15) := by
  unfold terminalBackspace
  rw [if_neg fun h => hcol h.2]
  simp only [if_neg hcol, terminalAdvance_video_mem]

/-- Neither a newline nor a backspace. -/
theorem terminalDefaultPutchar_printable {c : UInt8} (hnl : c ≠ 0x0A) (hbs : c ≠ 0x08) (t : Terminal)
    (colour : UInt8) : terminalDefaultPutchar t c colour = terminalAdvance t c colour := by
  rw [terminalDefaultPutchar, if_neg hnl, if_neg hbs]

theorem terminalDefaultPutchar_backspace (t : Terminal) (colour : UInt8) :
    terminalDefaultPutchar t 0x08 colour = terminalBackspace t := by
  rw [terminalDefaultPutchar, if_neg (by decide), if_pos rfl]

/-- Before the last column a backspace undoes a character. -/
theorem terminalBackspace_advance (t : Terminal) (c colour : UInt8)
    (h : t.terminal_current_col.toNat + 1 < VGA_WIDTH) :
    Erased t (terminalBackspace (terminalAdvance t c colour)) := by
  obtain ⟨hrow, hcol⟩ := terminalAdvance_inside t c colour h
  have hnext : (t.terminal_current_col + 1).toNat = t.terminal_current_col.toNat + 1 :=
    toNat_next_col (Nat.lt_of_succ_lt h)
  have hback : t.terminal_current_col + 1 - 1 = t.terminal_current_col := UInt16.add_sub_cancel ..
  have hmem := terminalAdvance_video_mem t c colour
  generalize terminalAdvance t c colour = t1 at hrow hcol hmem
  have hpos : t1.terminal_current_col ≠ 0 := by
    intro hzero
    rw [hcol] at hzero
    simp [hzero] at hnext
  obtain ⟨hrow', hcol', -⟩ := terminalBackspace_inside hpos (by rw [hcol, hnext]; exact h)
  -- the cell before the cursor is the one that the character was put in
  have hcell : cursorCell { t1 with terminal_current_col := t1.terminal_current_col - 1 } = cursorCell t := by
    simp only [cursorCell, hrow, hcol, hback]
  have hmem' := terminalBackspace_video_mem hpos
  rw [hcell, hmem] at hmem'
  refine ⟨hrow'.trans hrow, ?_, ?_, ?_⟩
  · calc (terminalBackspace t1).terminal_current_col
        = t1.terminal_current_col - 1 := hcol'
      _ = t.terminal_current_col := by rw [hcol, hback]
  · simp [hmem']
  · intro i hi
    simp [hmem', hi]

/-- **Where a backspace works**: not behind a character in the last column of the screen, and not at the start
of a later row. -/
theorem backspaceWorks_iff {c : UInt8} (hnl : c ≠ 0x0A) (hbs : c ≠ 0x08) (t : Terminal)
    (colour colour' : UInt8) :
    BackspaceWorks t c colour colour' ↔
      (CursorInside t → t.terminal_current_col.toNat + 1 ≠ VGA_WIDTH) ∧
        (t.terminal_current_col = 0 → t.terminal_current_row = 0) := by
  have hlast : ¬ (0xFFFF : UInt16).toNat < VGA_WIDTH := by decide
  constructor
  · intro h
    constructor
    · intro hinside hwrap
      have hcol := (h.erases hinside).col
      obtain ⟨hrow1, hcol1⟩ := terminalAdvance_wrap t c colour hwrap
      have hrow2 : (terminalAdvance t c colour).terminal_current_row ≠ 0 := by
        intro hzero
        have hheight : VGA_HEIGHT = 20 := rfl
        have hlt := hinside.1
        have hsum : (t.terminal_current_row + 1).toNat = 0 := by simp [← hrow1, hzero]
        rw [UInt16.toNat_add, UInt16.toNat_one] at hsum
        omega
      rw [terminalDefaultPutchar_printable hnl hbs, terminalDefaultPutchar_backspace,
        terminalBackspace_wrap hcol1 hrow2] at hcol
      apply hlast
      rw [hcol]
      exact hinside.2
    · intro hcol
      by_contra hrow
      have hend := (h.row_before hcol hrow).2
      rw [terminalDefaultPutchar_backspace, terminalBackspace_wrap hcol hrow] at hend
      exact hlast (by omega)
  · rintro ⟨hinner, hfirst⟩
    constructor
    · intro hinside
      rw [terminalDefaultPutchar_printable hnl hbs, terminalDefaultPutchar_backspace]
      apply terminalBackspace_advance
      exact Nat.lt_of_le_of_ne hinside.2 (hinner hinside)
    · intro hcol hrow
      exact absurd (hfirst hcol) hrow

/-- In the middle of the first row it works. -/
theorem backspaceWorks_inner :
    BackspaceWorks { video_mem := fun _ => 0, terminal_current_col := 5 } 0x41 15 15 :=
  (backspaceWorks_iff (by decide) (by decide) _ 15 15).mpr ⟨fun _ => by decide, fun _ => rfl⟩

/-- An `A` in the last column of the first row, and a backspace: the cursor is in column `0xFFFF` of the next
row. -/
theorem backspace_last_column :
    let t : Terminal := { video_mem := fun _ => 0, terminal_current_col := 79 }
    let t' := terminalDefaultPutchar (terminalDefaultPutchar t 0x41 15) 0x08 15
    CursorInside t ∧ t'.terminal_current_row = 1 ∧ t'.terminal_current_col = 0xFFFF ∧
      ¬ BackspaceWorks t 0x41 15 15 := by
  intro t t'
  have hinside : CursorInside t := by constructor <;> decide
  have hcol : t'.terminal_current_col = 0xFFFF := by decide
  refine ⟨hinside, by decide, hcol, fun h => ?_⟩
  have hsame := (h.erases hinside).col
  exact absurd (hcol.symm.trans hsame) (by decide)

end RasOS
