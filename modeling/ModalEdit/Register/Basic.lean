import ModalEdit.Text.Basic

/-! Registers: what yanks and deletions leave behind for a paste. -/
namespace ModalEdit

structure Register where
  content : Text
  /-- Whole lines, which a paste puts on lines of their own. -/
  linewise : Bool
deriving DecidableEq, Repr

def Text.ended (t : Text) : Text := if t.endsInBreak then t else t ++ ['\n']

namespace Register

/-- A register with the given content. Lines end in a break. -/
def of (t : Text) (linewise : Bool) : Register := ⟨if linewise then t.ended else t, linewise⟩

/-- The register with another one added at its end. Lines begin on a line of their own and make
the whole a stretch of lines. -/
def append (r other : Register) : Register :=
  let first :=
    if other.linewise && !r.linewise && !r.content.isEmpty then r.content.ended else r.content
  of (first ++ other.content) (r.linewise || other.linewise)

end Register

inductive Slot where
  | unnamed
  | clipboard
  | letter (l : Fin 26)
deriving DecidableEq, Repr

inductive RegisterName where
  | unnamed
  | clipboard
  | letter (l : Fin 26) (append : Bool)
deriving DecidableEq, Repr

namespace RegisterName

/-- The register that a character names. An upper case letter adds to the one of the lower case
letter. -/
def ofChar? (c : Char) : Option RegisterName :=
  if c = '\x22' then some .unnamed
  else if c = '+' ∨ c = '*' then some .clipboard
  else if h : 97 ≤ c.toNat ∧ c.toNat < 123 then some (.letter ⟨c.toNat - 97, by omega⟩ false)
  else if h : 65 ≤ c.toNat ∧ c.toNat < 91 then some (.letter ⟨c.toNat - 65, by omega⟩ true)
  else none

def toChar : RegisterName → Char
  | unnamed => '\x22'
  | clipboard => '+'
  | letter l append => Char.ofNat ((if append then 65 else 97) + l)

def slot : RegisterName → Slot
  | unnamed => .unnamed
  | clipboard => .clipboard
  | letter l _ => .letter l

def appends : RegisterName → Bool
  | letter _ append => append
  | _ => false

end RegisterName

theorem RegisterName.ofChar?_toChar (n : RegisterName) : ofChar? n.toChar = some n := by
  cases n with
  | unnamed => rfl
  | clipboard => rfl
  | letter l append => revert l append; decide

structure Registers where
  unnamed : Option Register
  clipboard : Option Register
  letters : Vector (Option Register) 26
deriving DecidableEq, Repr

namespace Registers

def empty : Registers := ⟨none, none, Vector.replicate 26 none⟩

def get (rs : Registers) : Slot → Option Register
  | .unnamed => rs.unnamed
  | .clipboard => rs.clipboard
  | .letter l => rs.letters[l]

def put (rs : Registers) (s : Slot) (r : Register) : Registers :=
  match s with
  | .unnamed => { rs with unnamed := some r }
  | .clipboard => { rs with clipboard := some r }
  | .letter l => { rs with letters := rs.letters.set l (some r) }

@[simp] theorem get_put_self (rs : Registers) (s : Slot) (r : Register) :
    (rs.put s r).get s = some r := by
  cases s <;> simp [get, put]

theorem get_put_of_ne (rs : Registers) (r : Register) (h : s ≠ s') :
    (rs.put s r).get s' = rs.get s' := by
  match s, s' with
  | .unnamed, .clipboard | .unnamed, .letter _ | .clipboard, .unnamed | .clipboard, .letter _
  | .letter _, .unnamed | .letter _, .clipboard => rfl
  | .unnamed, .unnamed | .clipboard, .clipboard => exact absurd rfl h
  | .letter l, .letter m =>
    have apart : l.val ≠ m.val := fun same => h (congrArg Slot.letter (Fin.ext same))
    exact Vector.getElem_set_ne l.isLt m.isLt apart

/-- Stores under a name, or adds to what is there if the name says so. -/
def set (rs : Registers) (name : RegisterName) (r : Register) : Registers :=
  match name.appends, rs.get name.slot with
  | true, some old => rs.put name.slot (old.append r)
  | _, _ => rs.put name.slot r

/-- Stores what a yank or a deletion took, under the given name and in the unnamed register,
which shows the whole of what the name then holds. The second part is what the clipboard is to
receive. -/
def record (rs : Registers) (target : Option RegisterName) (r : Register) :
    Registers × Option Register :=
  let name := target.getD .unnamed
  let rs := rs.set name r
  let whole := (rs.get name.slot).getD r
  (rs.put .unnamed whole, if name = .clipboard then some r else none)

end Registers

end ModalEdit
