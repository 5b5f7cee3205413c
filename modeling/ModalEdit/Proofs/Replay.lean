import ModalEdit.CommandLine.Run

/-! Scripts in pieces. A script that can be read ends between two groups, so what is appended to it
is read as if it stood alone, except that faults are found further back. Keys that are pressed in
several batches do what they do in one. -/
namespace ModalEdit

/-- The fault of a script when `n` characters come to stand before it. -/
def ScriptError.after (n : Nat) : ScriptError → ScriptError
  | unterminated start => unterminated (start + n)
  | unknownKey name => unknownKey name

namespace KeyPress

/-- The inside of a group can be wrong in one way only. -/
theorem ofName_error (wrong : ofName name = .error fault) : ∃ shown, fault = .unknownKey shown := by
  unfold ofName at wrong
  dsimp only at wrong
  split at wrong
  · cases wrong
  · split at wrong
    · cases wrong
      exact ⟨name, rfl⟩
    · cases wrong
  · cases wrong
    exact ⟨name, rfl⟩

/-- Reading does not depend on the offset, except that it is told when a group has no end. -/
theorem readFrom_add (n : Nat) {i : Nat} {group? : Option Text}
    (opened : ∀ name, group? = some name → name.length < i) (s : Text) :
    readFrom (i + n) group? s = (readFrom i group? s).mapError (·.after n) := by
  induction s generalizing i group? with
  | nil =>
    cases group? with
    | none => rfl
    | some name =>
      have inside := opened name rfl
      have same : i + n - name.length - 1 = i - name.length - 1 + n := by omega
      rw [readFrom, readFrom, same]
      rfl
  | cons c rest ih =>
    have next : i + n + 1 = i + 1 + n := by omega
    have closed : ∀ name, (none : Option Text) = some name → name.length < i + 1 := nofun
    cases group? with
    | none =>
      simp only [readFrom, next]
      split
      · apply ih
        intro name opens
        cases opens
        exact Nat.succ_pos i
      · rw [ih closed]
        cases readFrom (i + 1) none rest <;> rfl
    | some name =>
      simp only [readFrom, next]
      split
      · cases named : ofName name with
        | error fault =>
          obtain ⟨shown, rfl⟩ := ofName_error named
          rfl
        | ok key =>
          rw [ih closed]
          cases readFrom (i + 1) none rest <;> rfl
      · apply ih
        intro longer goesOn
        cases goesOn
        have inside := opened name rfl
        rw [List.length_append, List.length_singleton]
        omega

/-- Once a part has been read to its end no group is open, and the rest is read from there. -/
theorem readFrom_append {i : Nat} {group? : Option Text} (read : readFrom i group? s = .ok keys)
    (s' : Text) :
    readFrom i group? (s ++ s') = (readFrom (i + s.length) none s').map (keys ++ ·) := by
  induction s generalizing i group? keys with
  | nil =>
    cases group? with
    | none =>
      cases read
      rw [List.nil_append, List.length_nil, Nat.add_zero]
      cases readFrom i none s' <;> rfl
    | some name => cases read
  | cons c rest ih =>
    have next : i + (c :: rest).length = i + 1 + rest.length := by
      rw [List.length_cons]
      omega
    rw [next, List.cons_append]
    cases group? with
    | none =>
      simp only [readFrom] at read ⊢
      split at read
      · rename_i opens
        rw [if_pos opens]
        exact ih read
      · rename_i plain
        rw [if_neg plain]
        cases later : readFrom (i + 1) none rest with
        | error fault => simp [later, Except.map] at read
        | ok others =>
          rw [later] at read
          cases read
          rw [ih later]
          cases readFrom (i + 1 + rest.length) none s' <;> rfl
    | some name =>
      simp only [readFrom] at read ⊢
      split at read
      · rename_i closes
        rw [if_pos closes]
        cases named : ofName name with
        | error fault => simp [named, bind, Except.bind] at read
        | ok key =>
          rw [named] at read
          cases later : readFrom (i + 1) none rest with
          | error fault => simp [later, bind, Except.bind, Except.map] at read
          | ok others =>
            rw [later] at read
            cases read
            simp only [bind, Except.bind]
            rw [ih later]
            cases readFrom (i + 1 + rest.length) none s' <;> rfl
      · rename_i inside
        rw [if_neg inside]
        exact ih read

theorem readScript_append (read : readScript s = .ok keys) (s' : Text) :
    readScript (s ++ s') = ((readScript s').mapError (·.after s.length)).map (keys ++ ·) := by
  have closed : ∀ name, (none : Option Text) = some name → name.length < 0 := nofun
  rw [readScript, readFrom_append read, readFrom_add s.length closed]
  rfl

end KeyPress

theorem Session.pressAll_append (s : Session) (b : RegisterBank) (first later : List KeyPress) :
    s.pressAll b (first ++ later) =
      let ((s', b'), responses) := s.pressAll b first
      let (after, others) := s'.pressAll b' later
      (after, responses ++ others) := by
  induction first generalizing s b with
  | nil => rfl
  | cons k rest ih =>
    simp only [List.cons_append, pressAll]
    rw [ih]

theorem Session.pressAll_append_fst (s : Session) (b : RegisterBank) (first later : List KeyPress) :
    (s.pressAll b (first ++ later)).1 =
      ((s.pressAll b first).1.1.pressAll (s.pressAll b first).1.2 later).1 := by
  rw [pressAll_append]

namespace CommandLine

/-- Scripts that can all be read make up a script that can be read, and they are played as its keys
are pressed. -/
theorem playScripts_eq_pressAll {scripts : List Text}
    (readable : ∀ script ∈ scripts, ∃ keys, KeyPress.readScript script = .ok keys) :
    ∃ keys, KeyPress.readScript scripts.flatten = .ok keys ∧
      ∀ (s : Session) (b : RegisterBank), playScripts s b scripts = .ok (s.pressAll b keys) := by
  induction scripts with
  | nil => exact ⟨[], rfl, fun _ _ => rfl⟩
  | cons script rest ih =>
    obtain ⟨first, others⟩ := List.forall_mem_cons.mp readable
    obtain ⟨keys, read⟩ := first
    obtain ⟨later, readLater, played⟩ := ih others
    refine ⟨keys ++ later, ?_, ?_⟩
    · rw [List.flatten_cons, KeyPress.readScript_append read, readLater]
      rfl
    · intro s b
      rw [playScripts, read, Session.pressAll_append]
      dsimp only
      rw [played]
      rfl

/-- Where a script is cut does not matter. After a part that can be read, the rest is read as it is
by itself: it gives its keys, or its fault, which is found as much further back as the first part is
long. So scripts that can all be read are replayed, one after the other, as the one script that they
make up together. -/
theorem pieces_replay_as_whole (read : KeyPress.readScript s = .ok keys) (s' : Text) :
    (KeyPress.readScript (s ++ s') =
      match KeyPress.readScript s' with
      | .ok more => .ok (keys ++ more)
      | .error (.unknownKey name) => .error (.unknownKey name)
      | .error (.unterminated start) => .error (.unterminated (start + s.length))) ∧
    ∀ (registers : RegisterBank) (undoLevels : Nat) (t : Text) (m : Mode) (cursor : Nat)
      (scripts : List Text), (∀ script ∈ scripts, ∃ keys, KeyPress.readScript script = .ok keys) →
      ∃ r, replay registers undoLevels t m cursor scripts = .ok r ∧
        replay registers undoLevels t m cursor [scripts.flatten] = .ok r := by
  constructor
  · rw [KeyPress.readScript_append read]
    cases KeyPress.readScript s' with
    | ok more => rfl
    | error fault => cases fault <;> rfl
  · intro registers undoLevels t m cursor scripts readable
    obtain ⟨keys, whole, played⟩ := playScripts_eq_pressAll readable
    have one : ∀ script ∈ [scripts.flatten], ∃ keys, KeyPress.readScript script = .ok keys := by
      intro script member
      rw [List.mem_singleton.mp member]
      exact ⟨keys, whole⟩
    obtain ⟨keys', whole', played'⟩ := playScripts_eq_pressAll one
    have same : keys' = keys := by
      rw [List.flatten_cons, List.flatten_nil, List.append_nil, whole] at whole'
      exact (Except.ok.inj whole').symm
    have alike : replay registers undoLevels t m cursor [scripts.flatten] =
        replay registers undoLevels t m cursor scripts := by
      rw [replay, replay, played, played', same]
    obtain ⟨r, replayed⟩ : ∃ r, replay registers undoLevels t m cursor scripts = .ok r := by
      rw [replay, played]
      exact ⟨_, rfl⟩
    exact ⟨r, replayed, alike.trans replayed⟩

/-- A count in one script, its operator in another and the target in a third, with a key that makes
no sense; and a group that is left open after a group. -/
theorem pieces_replay_as_whole_count :
    let scripts : List Text := [['2'], ['Q', '2'], ['d'], ['<', 'E', 'n', 'd', '>', 'x']]
    KeyPress.readScript ['a', '<', 'l', 't', '>'] = .ok [.char 'a', .char '<'] ∧
      KeyPress.readScript ['b', '<', 'l'] = .error (.unterminated 1) ∧
      KeyPress.readScript ['a', '<', 'l', 't', '>', 'b', '<', 'l'] = .error (.unterminated 6) ∧
      (∀ script ∈ scripts, ∃ keys, KeyPress.readScript script = .ok keys) ∧
      ∃ r, replay {} 100 ['a', '\n', 'b', '\n', 'c'] .normal 0 scripts = .ok r ∧
        replay {} 100 ['a', '\n', 'b', '\n', 'c'] .normal 0 [scripts.flatten] = .ok r ∧
        r.snapshot.text = ['c'] ∧ r.keys = 6 ∧ r.unhandled = 1 := by
  intro scripts
  have read : KeyPress.readScript ['a', '<', 'l', 't', '>'] = .ok [.char 'a', .char '<'] := rfl
  obtain ⟨faulty, pieces⟩ := pieces_replay_as_whole read ['b', '<', 'l']
  have readable : ∀ script ∈ scripts, ∃ keys, KeyPress.readScript script = .ok keys := by
    intro script member
    simp only [scripts, List.mem_cons, List.not_mem_nil, or_false] at member
    rcases member with rfl | rfl | rfl | rfl
    all_goals exact ⟨_, rfl⟩
  obtain ⟨r, played, whole⟩ := pieces {} 100 ['a', '\n', 'b', '\n', 'c'] .normal 0 scripts readable
  refine ⟨read, rfl, faulty, readable, r, played, whole, ?_⟩
  cases played
  decide

end CommandLine

end ModalEdit
