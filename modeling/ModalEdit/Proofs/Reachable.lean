import ModalEdit.Engine

/-! The states that a session can be in. The registers belong to the engine: between two steps of
a session other sessions and the host may write to them, so a step may find anything there. -/
namespace ModalEdit

/-- What a host does to a session. -/
inductive Session.Input where
  | press (k : KeyPress)
  | sync (t : Text) (cursor : Nat)
deriving DecidableEq, Repr

namespace Session

/-- What the commands of a session work on, with the registers that they find. -/
def workspace (s : Session) (b : RegisterBank) : Workspace := ⟨s.editor, b, s.recorder⟩

/-- A command that does nothing leaves the session and the registers as they are. -/
theorem perform_of_skip {s : Session} {b : RegisterBank} {c : Command}
    (skips : (s.workspace b).perform c = (s.workspace b).skip) :
    s.perform b c = ((s, b), .unchanged) := by
  unfold workspace at skips
  simp only [perform, skips]
  rfl

def step (s : Session) (b : RegisterBank) : Input → Session
  | .press k => (s.press b k).1.1
  | .sync t cursor => s.syncText t cursor

/-- Each input comes with the registers that it finds. -/
def run (s : Session) : List (RegisterBank × Input) → Session
  | [] => s
  | (b, i) :: rest => (s.step b i).run rest

theorem run_append (s : Session) (before after : List (RegisterBank × Input)) :
    s.run (before ++ after) = (s.run before).run after := by
  induction before generalizing s with
  | nil => rfl
  | cons input rest ih => exact ih (s.step input.1 input.2)

inductive Reachable : Session → Prop where
  | opened (t : Text) (m : Mode) (cursor undoLevels : Nat) :
      Reachable (.ofText t m cursor undoLevels)
  | next (b : RegisterBank) (i : Input) : Reachable s → Reachable (s.step b i)

theorem Reachable.run (reached : Reachable s) (inputs : List (RegisterBank × Input)) :
    Reachable (s.run inputs) := by
  induction inputs generalizing s with
  | nil => exact reached
  | cons input rest ih => exact ih (reached.next input.1 input.2)

/-- A press performs a command, or it changes nothing but the keys typed so far. -/
theorem press_cases (s : Session) (b : RegisterBank) (k : KeyPress) :
    (∃ c outcome, (s.press b k).2 = .performed c outcome ∧
        (s.press b k).1 = (s.dropPending.perform b c).1) ∨
      ((s.press b k).2 = .awaitingMore ∨ (s.press b k).2 = .unhandled) ∧
        ∃ p, (s.press b k).1 = ({ s with pending := p }, b) := by
  cases reading : s.pending.press s.editor.mode k with
  | complete c =>
    left
    simp only [press, reading]
    exact ⟨c, _, rfl, rfl⟩
  | incomplete p =>
    right
    simp only [press, reading]
    exact ⟨.inl trivial, p, rfl⟩
  | meaningless =>
    right
    simp only [press, reading]
    exact ⟨.inr trivial, {}, rfl⟩

theorem press_performed {s : Session} {b : RegisterBank} {k : KeyPress}
    (performed : (s.press b k).2 = .performed c outcome) :
    (s.press b k).1 = (s.dropPending.perform b c).1 := by
  rcases s.press_cases b k with ⟨c', outcome', same, after⟩ | ⟨other | other, _⟩
  · obtain ⟨rfl, _⟩ := Response.performed.inj (performed.symm.trans same)
    exact after
  · cases performed.symm.trans other
  · cases performed.symm.trans other

theorem press_awaitingMore {s : Session} {b : RegisterBank} {k : KeyPress}
    (more : (s.press b k).2 = .awaitingMore) : ∃ p, (s.press b k).1 = ({ s with pending := p }, b) := by
  rcases s.press_cases b k with ⟨c, outcome, same, _⟩ | ⟨_, nothing⟩
  · cases more.symm.trans same
  · exact nothing

/-- What commands keep, and what taking over a text keeps, holds of every reachable session. -/
theorem Reachable.invariant {P : Editor → Recorder → Prop}
    (opened : ∀ t m cursor undoLevels, P (.ofText t m cursor undoLevels) {})
    (performed : ∀ (w : Workspace) c, P w.editor w.recorder →
      P (w.perform c).1.editor (w.perform c).1.recorder)
    (synced : ∀ e r t cursor, P e r → P (e.replaceText t cursor) r.reset)
    (reached : Reachable s) : P s.editor s.recorder := by
  induction reached with
  | opened t m cursor undoLevels => exact opened t m cursor undoLevels
  | @next s b i _ ih =>
    cases i with
    | press k =>
      rcases s.press_cases b k with ⟨c, _, _, after⟩ | ⟨_, p, after⟩
      · rw [step, after]
        exact performed ⟨s.editor, b, s.recorder⟩ c ih
      · rw [step, after]
        exact ih
    | sync t cursor => exact synced _ _ t cursor ih

end Session

namespace Engine

/-- What hosts do to an engine. -/
inductive Reachable : Engine → Prop where
  | fresh (registers : RegisterBank) (undoLevels : Nat) : Reachable { registers, undoLevels }
  | openSession (t : Text) (m : Mode) (cursor : Nat) :
      Reachable e → Reachable (e.openSession t m cursor).1
  | closeSession (id : SessionId) : Reachable e → Reachable (e.closeSession id).1
  | press (id : SessionId) (k : KeyPress) : Reachable e → Reachable (e.press id k).1
  | syncText (id : SessionId) (t : Text) (cursor : Nat) :
      Reachable e → Reachable (e.syncText id t cursor).1
  | setRegister (name : Char) (t : Text) (linewise : Bool) :
      Reachable e → Reachable (e.setRegister name t linewise).1
  | syncClipboard (c : Clipboard) : Reachable e → Reachable (e.syncClipboard c).1.1

theorem mem_of_find? {e : Engine} {id : SessionId} (found : e.find? id = some s) : (id, s) ∈ e.sessions := by
  obtain ⟨before, after, same, _⟩ := List.lookup_eq_some_iff.mp found
  simp [same]

theorem find?_update (e : Engine) (id b : SessionId) (s : Session) :
    (e.update id s).find? b = if b = id then (e.find? id).map fun _ => s else e.find? b := by
  simp only [find?, update]
  induction e.sessions with
  | nil => simp
  | cons entry rest ih =>
    obtain ⟨other, t⟩ := entry
    rw [List.map_cons]
    by_cases same : other = id
    · by_cases here : b = id
      · simp [same, here]
      · have apart : (b == id) = false := by simp [here]
        simp only [same, if_true, List.lookup_cons, apart, ih, if_neg here]
    · have apart : (id == other) = false := by simp [Ne.symm same]
      simp only [if_neg same, List.lookup_cons, apart, ih]
      split
      · rename_i there
        obtain rfl : b = other := by simpa using there
        rw [if_neg same]
      · rfl

theorem update_reachable {e : Engine} {s : Session} (id : SessionId)
    (all : ∀ entry ∈ e.sessions, entry.2.Reachable) (new : s.Reachable) :
    ∀ entry ∈ (e.update id s).sessions, entry.2.Reachable := by
  intro entry member
  obtain ⟨old, there, rfl⟩ := List.mem_map.mp member
  split
  · exact new
  · exact all old there

/-- Whatever is done to other sessions and to the registers, each session of an engine is in a
state that it can reach by its own inputs. -/
theorem Reachable.sessions (reached : Reachable e) :
    ∀ entry ∈ e.sessions, entry.2.Reachable := by
  induction reached with
  | fresh => simp
  | openSession t m cursor _ ih =>
    intro entry member
    rcases List.mem_append.mp member with old | new
    · exact ih entry old
    · rw [List.mem_singleton.mp new]
      exact .opened t m cursor _
  | closeSession id _ ih =>
    intro entry member
    exact ih entry (List.mem_filter.mp member).1
  | @press e id k _ ih =>
    simp only [Engine.press]
    split
    · exact ih
    · rename_i s found
      have before : s.Reachable := ih _ (mem_of_find? found)
      exact update_reachable id ih (before.next e.registers (.press k))
  | @syncText e id t cursor _ ih =>
    simp only [Engine.syncText]
    split
    · exact ih
    · rename_i s found
      have before : s.Reachable := ih _ (mem_of_find? found)
      exact update_reachable id ih (before.next e.registers (.sync t cursor))
  | @setRegister e name t linewise _ ih =>
    simp only [Engine.setRegister]
    split <;> exact ih
  | syncClipboard c _ ih => exact ih

end Engine

end ModalEdit
