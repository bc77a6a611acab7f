/-!
The tape: a fixed row of byte cells with a pointer to the current one. The pointer never leaves
the row, and a cell counts modulo 256.
-/

namespace Brainfuck

/-- The end of the tape at which a move is refused. -/
inductive Bound where
  | low
  | high
  deriving DecidableEq, Repr

/-- The bound as messages show it. -/
def Bound.text : Bound → String
  | .low => "too low"
  | .high => "too high"

/-- A row of `n` zero bytes, by doubling. -/
def zeros (n : Nat) : ByteArray :=
  if n = 0 then ByteArray.empty
  else
    let half := zeros (n / 2)
    let both := half ++ half
    if n % 2 = 1 then both.push 0 else both
termination_by n

theorem zeros_data (n : Nat) : (zeros n).data = Array.replicate n 0 := by
  induction n using Nat.strongRecOn with
  | _ n ih =>
    unfold zeros
    split
    · subst n; rfl
    · rename_i hn
      have half := ih (n / 2) (by omega)
      have both : (zeros (n / 2) ++ zeros (n / 2)).data = Array.replicate (n / 2 + n / 2) 0 := by
        rw [ByteArray.data_append, half, Array.replicate_append_replicate]
      dsimp only
      split
      · have hs : n = n / 2 + n / 2 + 1 := by omega
        conv => rhs; rw [hs, Array.replicate_succ]
        rw [← both]; rfl
      · rw [both]; congr 1; omega

/-- The cells and the position of the pointer. -/
structure Tape where
  cells : ByteArray
  pointer : Nat
  deriving Inhabited

namespace Tape

/-- A tape of zero cells with the pointer on the first. -/
def blank (length : Nat) : Tape := ⟨zeros length, 0⟩

/-- The number of cells. -/
def length (t : Tape) : Nat := t.cells.size

/-- Whether there is no cell at all. -/
def isEmpty (t : Tape) : Bool := t.length == 0

/-- The cells as a list. -/
def toList (t : Tape) : List UInt8 := t.cells.data.toList

/-- The current cell; a tape without cells has none. -/
def get? (t : Tape) : Option UInt8 :=
  if h : t.pointer < t.cells.size then some t.cells[t.pointer] else none

/-- The tape with `b` in the current cell. -/
def set (t : Tape) (b : UInt8) : Tape :=
  match t with
  | ⟨cells, pointer⟩ =>
    if h : pointer < cells.size then ⟨cells.set pointer b h, pointer⟩ else ⟨cells, pointer⟩

/-- The tape with the current cell changed by `f`. -/
def modify (t : Tape) (f : UInt8 → UInt8) : Tape :=
  match t with
  | ⟨cells, pointer⟩ =>
    if h : pointer < cells.size then
      let b := cells[pointer]
      ⟨cells.set pointer (f b) h, pointer⟩
    else ⟨cells, pointer⟩

/-- One more in the current cell; after 255 comes 0. -/
def increment (t : Tape) : Tape := t.modify (· + 1)

/-- One less in the current cell; before 0 comes 255. -/
def decrement (t : Tape) : Tape := t.modify (· - 1)

/-! ### What the operations do to the cells -/

theorem ext_toList {t t' : Tape} (h : t.toList = t'.toList) (hp : t.pointer = t'.pointer) :
    t = t' := by
  obtain ⟨⟨cells⟩, pointer⟩ := t
  obtain ⟨⟨cells'⟩, pointer'⟩ := t'
  have hcells : cells = cells' := Array.toList_inj.mp h
  have hp : pointer = pointer' := hp
  rw [hcells, hp]

theorem length_toList (t : Tape) : t.toList.length = t.length := rfl

theorem toList_blank (n : Nat) : (blank n).toList = List.replicate n 0 := by
  simp [blank, toList, zeros_data]

theorem length_blank (n : Nat) : (blank n).length = n := by
  rw [← length_toList, toList_blank, List.length_replicate]

theorem get?_eq (t : Tape) : t.get? = t.toList[t.pointer]? := by
  unfold get? toList
  split
  · rename_i h
    rw [Array.getElem?_toList, Array.getElem?_eq_getElem h]; rfl
  · rename_i h
    rw [Array.getElem?_toList, Array.getElem?_eq_none (Nat.le_of_not_lt h)]

theorem toList_set (t : Tape) (b : UInt8) : (t.set b).toList = t.toList.set t.pointer b := by
  unfold set toList
  dsimp only
  split
  · rename_i h
    exact Array.toList_set t.cells.data t.pointer b h
  · rename_i h
    exact (List.set_eq_of_length_le (Nat.le_of_not_lt h)).symm

theorem pointer_set (t : Tape) (b : UInt8) : (t.set b).pointer = t.pointer := by
  unfold set
  dsimp only
  split <;> rfl

theorem length_set (t : Tape) (b : UInt8) : (t.set b).length = t.length := by
  rw [← length_toList, toList_set, List.length_set, length_toList]

theorem isSome_get? (t : Tape) : t.get?.isSome ↔ t.pointer < t.length := by
  unfold get? length
  split <;> simp_all

theorem exists_get? {t : Tape} (h : t.pointer < t.length) : ∃ b, t.get? = some b :=
  Option.isSome_iff_exists.mp (t.isSome_get?.mpr h)

theorem lt_of_get? {t : Tape} {b : UInt8} (h : t.get? = some b) : t.pointer < t.length :=
  t.isSome_get?.mp (h ▸ rfl)

theorem isSome_get?_set (t : Tape) (b : UInt8) : (t.set b).get?.isSome ↔ t.get?.isSome := by
  rw [isSome_get?, isSome_get?, pointer_set, length_set]

theorem modify_eq (t : Tape) (f : UInt8 → UInt8) :
    t.modify f = match t.get? with
      | some b => t.set (f b)
      | none => t := by
  unfold modify get? set
  dsimp only
  split <;> simp_all

theorem toList_modify (t : Tape) (f : UInt8 → UInt8) :
    (t.modify f).toList = t.toList.modify t.pointer f := by
  rw [modify_eq]
  cases hb : t.get? with
  | none =>
    rw [get?_eq] at hb
    exact (List.modify_eq_self (List.getElem?_eq_none_iff.mp hb)).symm
  | some b =>
    dsimp only
    rw [toList_set, List.modify_eq_set, ← get?_eq, hb]
    rfl

theorem length_modify (t : Tape) (f : UInt8 → UInt8) : (t.modify f).length = t.length := by
  rw [modify_eq]
  split
  · exact length_set t _
  · rfl

theorem pointer_modify (t : Tape) (f : UInt8 → UInt8) : (t.modify f).pointer = t.pointer := by
  rw [modify_eq]
  split
  · exact pointer_set t _
  · rfl

/-! ### Moves -/

/-- The bound at which a move to the right is refused. -/
def rightBound? (t : Tape) : Option Bound :=
  if t.pointer + 1 < t.length then none else some .high

/-- The bound at which a move to the left is refused. -/
def leftBound? (t : Tape) : Option Bound :=
  if t.pointer = 0 then some .low else none

/-- The pointer one cell to the right. -/
def right (t : Tape) : Tape := { t with pointer := t.pointer + 1 }

/-- The pointer one cell to the left. -/
def left (t : Tape) : Tape := { t with pointer := t.pointer - 1 }

/-- A move to the right, unless it would leave the tape. -/
def moveRight (t : Tape) : Except Bound Tape :=
  match t.rightBound? with
  | none => .ok t.right
  | some b => .error b

/-- A move to the left, unless it would leave the tape. -/
def moveLeft (t : Tape) : Except Bound Tape :=
  match t.leftBound? with
  | none => .ok t.left
  | some b => .error b

end Tape

end Brainfuck
